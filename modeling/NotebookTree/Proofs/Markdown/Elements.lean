import NotebookTree.Markdown.Document
import NotebookTree.Proofs.Telling
import NotebookTree.Proofs.Value.Tree

/-!
# The elements of a source

Reading a source as Markdown tells of one thing, the number of blocks, and comes to a root above the
elements of the tokens. All nodes below that root are elements.

## Main definitions

* `elementsFor`: the elements of a source without what reading tells.

## Main results

* `parse_outcome`: what reading a source comes to and tells.
* `kind_of_below_elements`: nothing but elements stands among the elements of tokens.
-/

namespace NotebookTree

namespace Markdown

/-- The extensions that settings stand for. -/
def extensionsFor (settings : Value) : Except Fault (List Extension) :=
  if settings.isTruthy then extensionsOf settings else pure []

/-- The elements of a source, with what settings ask for. -/
def elementsFor [Engine] (settings source : Value) : Except Fault (List Value) := do
  let extensions ← extensionsFor settings
  let tokens ← (Engine.tokens extensions source).mapError refusal
  return elementsOf tokens

/-- What reading tells of the elements. -/
def blocksRead (elements : List Value) : Log.Entry :=
  .debug .processor ("Parsed markdown into " ++ toString elements.length ++ " block tokens")

/-- Reading ends in the elements below a root, and tells how many there are, or in the fault. -/
theorem parse_outcome [Engine] (source settings : Value) :
    (parse source settings).outcome = match elementsFor settings source with
      | .ok elements => (.ok (elementRoot elements), [blocksRead elements])
      | .error e => (.error e, []) := by
  rw [parse, elementsFor, Logged.outcome_ofExcept_bind, ← extensionsFor]
  cases extensionsFor settings with
  | error e => rfl
  | ok extensions =>
    simp only [Except.ok_bind, Logged.outcome_ofExcept_bind]
    cases (Engine.tokens extensions source).mapError refusal <;> rfl

/-- Parsing comes to the root of the elements, and tells how many blocks there are. -/
theorem parse_of_elementsFor [Engine] {source settings : Value} {elements : List Value}
    (h : elementsFor settings source = .ok elements) :
    (parse source settings).outcome = (.ok (elementRoot elements), [blocksRead elements]) := by
  rw [parse_outcome, h]

/-- Reading that returned has come to elements. -/
theorem exists_elements_of_parse [Engine] {source settings tree : Value} {log : List Log.Entry}
    (h : (parse source settings).outcome = (.ok tree, log)) :
    ∃ elements, elementsFor settings source = .ok elements ∧ tree = elementRoot elements ∧
      log = [blocksRead elements] := by
  rw [parse_outcome] at h
  split at h
  · rename_i elements helements
    obtain ⟨htree, hlog⟩ := Prod.mk.inj h
    exact ⟨elements, helements, (Except.ok.inj htree).symm, hlog.symm⟩
  · cases (Prod.mk.inj h).1

/-- Parsing only adds to what was told before. -/
theorem onlyTells_parse [Engine] (source settings : Value) :
    Logged.OnlyTells (parse source settings) :=
  Logged.onlyTells_bind (Logged.onlyTells_ofExcept _) fun _ =>
    Logged.onlyTells_bind (Logged.onlyTells_ofExcept _) fun _ =>
      Logged.onlyTells_bind (Logged.onlyTells_tell _) fun _ => Logged.onlyTells_pure _

/-- The elements of tokens are those of each. -/
theorem elementsOf_eq_map : (ts : List Token) → elementsOf ts = ts.map Token.toElement
  | [] => rfl
  | t :: ts => by rw [elementsOf, elementsOf_eq_map ts, List.map_cons]

/-- The children of the element of a token are the elements of its children. -/
theorem children?_toElement (fields : Entries Value) (children : Option (List Token)) :
    (Token.mk fields children).toElement.children? = children.map elementsOf := by
  rw [Token.toElement.eq_def]
  cases children <;> rfl

/-- The type of the element of a token is that of the token, or else empty. -/
theorem type?_toElement (fields : Entries Value) (children : Option (List Token)) :
    (Token.mk fields children).toElement.type? =
      some ((fields.get? "type").getD (.text "")) := by
  rw [Token.toElement.eq_def]
  rfl

mutual

/-- All nodes in the element of a token are elements. -/
theorem kind_of_below_toElement {node : Value} :
    (t : Token) → Below node t.toElement → ∃ fields, node = .node .element fields
  | .mk fields children, h => by
    cases h with
    | root => exact ⟨_, Token.toElement.eq_def _⟩
    | child hc h =>
      rw [children?_toElement] at hc
      cases children with
      | none => cases hc
      | some ts => exact kind_of_below_elements ts hc h

/-- Nothing but elements stands among the elements of tokens. -/
theorem kind_of_below_elements {node v : Value} :
    (ts : List Token) → v ∈ elementsOf ts → Below node v → ∃ fields, node = .node .element fields
  | [], hv, _ => by cases hv
  | t :: ts, hv, h => by
    rw [elementsOf, List.mem_cons] at hv
    obtain rfl | hv := hv
    · exact kind_of_below_toElement t h
    · exact kind_of_below_elements ts hv h

end

mutual

/-- The element of a token is a tree. -/
theorem isTree_toElement : (t : Token) → IsTree t.toElement
  | .mk fields none => by
    rw [Token.toElement.eq_def]
    refine .leaf (by decide) fun f hf hname vs => ?_
    simp only [elementFields, List.mem_cons, List.not_mem_nil, or_false] at hf
    obtain rfl | rfl | rfl | rfl | rfl | rfl | rfl := hf <;> simp at hname ⊢
  | .mk fields (some ts) => by
    rw [Token.toElement.eq_def]
    show IsTree (.node .element ([_] ++ ("children", .list (elementsOf ts)) :: _))
    exact .branch (by decide) rfl rfl (isTree_elements ts)

/-- The elements of tokens are trees. -/
theorem isTree_elements : (ts : List Token) → ∀ v ∈ elementsOf ts, IsTree v
  | [] => List.forall_mem_nil _
  | t :: ts => List.forall_mem_cons.mpr ⟨isTree_toElement t, isTree_elements ts⟩

end

/-- The elements of a source are those of tokens. -/
theorem exists_tokens_of_elementsFor [Engine] {settings source : Value} {elements : List Value}
    (h : elementsFor settings source = .ok elements) : ∃ ts, elements = elementsOf ts := by
  obtain ⟨extensions, -, h⟩ := Except.bind_eq_ok.mp h
  obtain ⟨tokens, -, h⟩ := Except.bind_eq_ok.mp h
  exact ⟨tokens, (Except.ok.inj h).symm⟩

end Markdown

end NotebookTree
