import NotebookTree.Proofs.Markdown.Elements
import NotebookTree.Proofs.Markdown.Regular
import NotebookTree.Proofs.Walk.Rewriting
import NotebookTree.Walk.CellRule

/-!
# The rule that reads Markdown

As a function of trees, the rule that reads Markdown puts the elements of its text in the place of
each Markdown node, and nothing in the place of any other. The callback answers as this function
does, in every store.

## Main definitions

* `readMarkdown?`: the rule as a function of trees.
* `NoMarkdown`: trees that the rule leaves alone.

## Main results

* `Walk.answers_readMarkdown`: the rule answers as the function does.
* `Walk.outcome_transform_readMarkdown`: a transform with the rule is rewriting with the function.
-/

namespace NotebookTree

section Engine

variable [Markdown.Engine] {settings : Value}

/-- The tree of the text of a node. The text stays with it, and so does what else the node has. -/
def markdownTree (settings v : Value) : Except Fault Value := do
  let source ← v.field "value"
  let elements ← Markdown.elementsFor settings source
  let data ← v.field "data"
  let entries ← if data.isTruthy then data.asEntries else pure []
  let position ← v.field "position"
  return .node .parsedMarkdown [("children", .list elements),
    ("data", .record (Entries.put entries "source" source)), ("position", position)]

/-- The tree of the text of a Markdown node, and nothing for any other. -/
def readMarkdown? (settings v : Value) : Except Fault (Option Value) :=
  if v.hasType "markdown" then do return some (← markdownTree settings v) else return none

/-! ## What the rule leaves alone -/

/-- No node of a tree is a Markdown node. -/
def NoMarkdown (v : Value) : Prop := ∀ n, Below n v → n.hasType "markdown" = false

omit [Markdown.Engine] in
/-- A node without children is no Markdown when its class is not. -/
theorem noMarkdown_leaf {k : Kind} {fields : Entries Value}
    (hchildren : Entries.has fields "children" = false) (htype : Entries.has fields "type" = false)
    (hk : k.typeWord? ≠ some "markdown") : NoMarkdown (.node k fields) := fun n hn => by
  rw [hn.eq_of_leaf (Value.children?_of_childless (childless_of_not_has hchildren)),
    Value.hasType_of_not_has htype]
  simpa using hk

omit [Markdown.Engine] in
/-- A branch has no Markdown in it when its class is none and its children have none. -/
theorem noMarkdown_branch {k : Kind} {children : List Value} {after : Entries Value}
    (htype : Entries.has after "type" = false) (hk : k.typeWord? ≠ some "markdown")
    (h : ∀ c ∈ children, NoMarkdown c) :
    NoMarkdown (.node k (("children", .list children) :: after)) := fun n hn => by
  cases hn with
  | root =>
    rw [Value.hasType_of_not_has (by simpa [Entries.has] using htype)]
    simpa using hk
  | child hc hn =>
    rw [← List.nil_append (("children", Value.list children) :: after),
      Value.children?_branch rfl] at hc
    exact h _ hc n hn

/-- There is nothing to put in the place of the nodes of such a tree. -/
theorem readMarkdown?_of_noMarkdown {v n : Value} (h : NoMarkdown v) (hn : Below n v) :
    readMarkdown? settings n = .ok none := by
  rw [readMarkdown?, if_neg (by simp [h n hn])]
  rfl

omit [Markdown.Engine] in
/-- The element of a token is no Markdown node if the word of those is not the type of the token or
of one below it. -/
theorem noMarkdown_toElement {t : Markdown.Token}
    (h : t.All fun fields => fields.get? "type" ≠ some (.text "markdown")) :
    NoMarkdown t.toElement := by
  induction h with
  | @mk fields children here below ih =>
    intro n hn
    cases hn with
    | root =>
      rw [Value.hasType, Markdown.type?_toElement]
      -- the type of an element is that of its token
      cases htype : fields.get? "type" with
      | none => rfl
      | some v =>
        rw [htype] at here
        cases v <;> simp_all
    | child hc hn =>
      rw [Markdown.children?_toElement] at hc
      cases children with
      | none => cases hc
      | some ts =>
        rw [Option.map_some, Option.getD_some, Markdown.elementsOf_eq_map, List.mem_map] at hc
        obtain ⟨t, ht, rfl⟩ := hc
        exact ih ts rfl t ht n hn

/-- Elements that have been read from a text are no Markdown nodes. -/
theorem noMarkdown_elements (hengine : Markdown.NamesNoMarkdown) {text : Value}
    {elements : List Value} (h : Markdown.elementsFor settings text = .ok elements) :
    ∀ v ∈ elements, NoMarkdown v := by
  obtain ⟨extensions, -, h⟩ := Except.bind_eq_ok.mp h
  obtain ⟨ts, hts, h⟩ := Except.bind_eq_ok.mp h
  obtain rfl := Except.ok.inj h
  intro v hv
  rw [Markdown.elementsOf_eq_map, List.mem_map] at hv
  obtain ⟨t, ht, rfl⟩ := hv
  cases hread : Markdown.Engine.tokens extensions text with
  | error cause => rw [hread] at hts; cases hts
  | ok ts' =>
    rw [hread] at hts
    obtain rfl := Except.ok.inj hts
    exact noMarkdown_toElement (hengine _ _ _ hread t ht)

end Engine

/-! ## What the callback answers -/

namespace Walk

open Store (Holds)

variable {σ : Type}

/-- Lifted work adds what it tells to the log. -/
theorem outcome_ofLogged {α : Type} (work : Logged α) (s : Scene σ) :
    outcome (ofLogged work) s =
      (work.outcome.1, { s with log := s.log ++ work.outcome.2 }) := by
  rcases h : work.outcome with ⟨r, entries⟩
  unfold ofLogged
  rw [h]
  rfl

/-- A field of the item of a tree is the field of the tree. -/
theorem outcome_fieldOf {s : Scene σ} {p : Held} (hp : Holds s.store p) {name : String}
    (hname : name ≠ "children") :
    outcome (fieldOf p.item name) s = ((p.tree.field name).map .plain, s) := by
  rw [fieldOf, outcome_getStore_bind, hp.attribute? hname, Value.field, hp.view]
  cases p.tree.attribute? name <;> rfl

/-- What is asked of the type of a node is asked of the tree. -/
theorem hasWord_type {s : Store} {p : Held} (hp : Holds s p) (word : String) :
    hasWord s p.item "type" word = p.tree.hasType word := by
  rw [hasWord, hp.fieldView (by decide), Value.hasType, Value.type?]
  cases p.tree.attribute? "type" with
  | none => simp [Value.equals, Value.equalsScalar, Value.integer?]
  | some v =>
    cases v with
    | text s => simp [Value.equals, Value.equalsScalar]
    | _ => simp [Value.equals, Value.equalsScalar, Value.integer?]

/-- The node for elements is made as its tree would be loaded. -/
theorem outcome_makeNode {s : Scene σ} {p : Held} (hp : Holds s.store p) (elements : List Value)
    (data : Value) :
    outcome (do
        let position ← fieldOf p.item "position"
        changeStore (fun s =>
          let (children, s) := s.loadField "children" (.list elements)
          let (id, s) := s.newNode ⟨.parsedMarkdown,
            [("children", children), ("data", .plain data), ("position", position)]⟩
          (Item.node id, s))) s =
      match p.tree.field "position" with
      | .error e => (.error e, s)
      | .ok position =>
        let loaded := s.store.load (.node .parsedMarkdown
          ([] ++ ("children", .list elements) :: [("data", data), ("position", position)]))
        (.ok loaded.1, { s with store := loaded.2 }) := by
  rw [outcome_bind, outcome_fieldOf hp (by decide)]
  -- the node is made as loading would make it, with its children in front
  cases p.tree.field "position" with
  | error e => rfl
  | ok position =>
    dsimp only [Except.map]
    rw [outcome_changeStore, Store.load_node (by decide), Store.loadFields_branch rfl rfl,
      Store.loadField, if_pos (beq_self_eq_true _)]
    rfl

section Engine

variable [Markdown.Engine] {settings : Value}

/-- Reading the text of a node comes to its tree, as if that had been loaded. -/
theorem outcome_readMarkdownNode (settings : Value) {s : Scene σ} {p : Held}
    (hp : Holds s.store p) :
    match markdownTree settings p.tree with
    | .error e => ∃ next, outcome (readMarkdownNode settings p.item) s = (.error e, next)
    | .ok v => ∃ next, outcome (readMarkdownNode settings p.item) s =
        (.ok (s.store.load v).1, next) ∧ next.store = (s.store.load v).2 := by
  rw [markdownTree, readMarkdownNode, outcome_getStore_bind, outcome_bind,
    outcome_fieldOf hp (by decide)]
  cases p.tree.field "value" with
  | error e => exact ⟨_, rfl⟩
  | ok source =>
    simp only [Except.ok_bind, Except.map, Store.view_plain]
    rw [outcome_bind, outcome_ofLogged, Markdown.parse_outcome]
    cases Markdown.elementsFor settings source with
    | error e => exact ⟨_, rfl⟩
    | ok elements =>
      simp only [Except.ok_bind]
      have hlater : Holds (Scene.mk s.store (s.log ++ [Markdown.blocksRead elements]) s.own).store
        p := hp
      rw [outcome_getStore_bind, outcome_bind, outcome_fieldOf hlater (by decide)]
      cases p.tree.field "data" with
      | error e => exact ⟨_, rfl⟩
      | ok data =>
        simp only [Except.ok_bind, Except.map]
        rw [Store.view_plain]
        have hmake := fun entries : Entries Value =>
          outcome_makeNode hlater elements (.record (entries.put "source" source))
        -- the data of the node is kept, with the source in it, or made new
        by_cases hdata : data.isTruthy = true
        · rw [if_pos hdata, if_pos hdata]
          cases data.asEntries with
          | error e => exact ⟨_, rfl⟩
          | ok entries =>
            have hentries := hmake entries
            cases hposition : p.tree.field "position" with
            | error e => rw [hposition] at hentries; exact ⟨_, hentries⟩
            | ok position => rw [hposition] at hentries; exact ⟨_, hentries, rfl⟩
        · rw [if_neg hdata, if_neg hdata]
          have hentries := hmake []
          cases hposition : p.tree.field "position" with
          | error e => rw [hposition] at hentries; exact ⟨_, hentries⟩
          | ok position => rw [hposition] at hentries; exact ⟨_, hentries, rfl⟩

/-- The tree of a text is a tree. -/
theorem isTree_markdownTree {v tree : Value} (h : markdownTree settings v = .ok tree) :
    IsTree tree := by
  obtain ⟨source, -, h⟩ := Except.bind_eq_ok.mp h
  obtain ⟨elements, helements, h⟩ := Except.bind_eq_ok.mp h
  obtain ⟨data, -, h⟩ := Except.bind_eq_ok.mp h
  obtain ⟨ts, rfl⟩ := Markdown.exists_tokens_of_elementsFor helements
  have htree : ∀ data position : Value, IsTree (.node .parsedMarkdown
      [("children", .list (Markdown.elementsOf ts)), ("data", data), ("position", position)]) :=
    fun _ _ => isTree_of_children (by decide) rfl (Markdown.isTree_elements ts)
  split at h
  · obtain ⟨entries, -, h⟩ := Except.bind_eq_ok.mp h
    obtain ⟨position, -, h⟩ := Except.bind_eq_ok.mp h
    exact Except.ok.inj h ▸ htree _ _
  · obtain ⟨entries, -, h⟩ := Except.bind_eq_ok.mp h
    obtain ⟨position, -, h⟩ := Except.bind_eq_ok.mp h
    exact Except.ok.inj h ▸ htree _ _

/-- The rule answers as the function does, in every store. -/
theorem answers_readMarkdown (settings : Value) :
    Answers (σ := σ) (CellRule.callback (.readMarkdown settings)) (readMarkdown? settings) := by
  intro s p index parent hp
  have hcall : resolve (CellRule.callback (.readMarkdown settings) p.item index parent) =
      (do if hasWord (← getStore) p.item "type" "markdown" then readMarkdownNode settings p.item
          else return .nothing : Walk σ Item) := resolve_later _
  rw [hcall, outcome_getStore_bind, hasWord_type hp, readMarkdown?]
  by_cases htype : p.tree.hasType "markdown" = true
  · rw [if_pos htype, if_pos htype]
    have hread := outcome_readMarkdownNode settings hp
    cases htree : markdownTree settings p.tree with
    | error e =>
      rw [htree] at hread
      exact hread
    | ok tree =>
      rw [htree] at hread
      obtain ⟨next, hrun, hstore⟩ := hread
      -- the answer is a tree that was loaded into the store
      obtain ⟨ids, hholds, hnew, hkeeps⟩ := Store.load_holds (isTree_markdownTree htree) s.store
      rw [← hstore] at hholds hkeeps
      exact ⟨⟨tree, (s.store.load tree).1, ids⟩, next, hrun, rfl, hholds, hnew, hkeeps⟩
  · rw [if_neg htype, if_neg htype]
    exact ⟨.nothing, s, rfl, rfl, .refl _⟩

/-- A transform with the rule comes to the tree that rewriting comes to, at the item where the tree
was if that is no Markdown node itself, and fails where rewriting fails. -/
theorem outcome_transform_readMarkdown (settings : Value) {s : Scene σ} {p : Held}
    (hp : Holds s.store p) (hroot : p.tree.hasType "markdown" = false) (limit : Nat) :
    let run := outcome (transform limit p.item (CellRule.callback (.readMarkdown settings)) false) s
    match rewriteWithin (readMarkdown? settings) limit p.tree with
    | .error e => ∃ next, run = (.error e, next)
    | .ok v => ∃ ids next, run = (.ok p.item, next) ∧ Holds next.store ⟨v, p.item, ids⟩ := by
  have hrun := realises (answers_readMarkdown settings) limit s p none none hp
  cases hv : rewriteWithin (readMarkdown? settings) limit p.tree with
  | error e =>
    rw [hv] at hrun
    exact hrun
  | ok v =>
    rw [hv] at hrun
    obtain ⟨⟨_, item, ids⟩, next, hrun, rfl, hturned, rfl | ⟨u, htype, hput⟩⟩ := hrun
    · exact ⟨ids, next, hrun, hturned.holds_one⟩
    · -- only a text of Markdown is ever put into something's place, and the root is none
      refine absurd ?_ hput
      rw [readMarkdown?, Value.hasType, htype, ← Value.hasType, hroot]
      rfl

end Engine

end Walk

end NotebookTree
