import NotebookTree.Proofs.Entries
import NotebookTree.Proofs.Html.Bodies
import NotebookTree.Proofs.Sequence

/-!
# From markup to a tree and back

A document becomes a tree of nodes, and the tree is written through a document again. Tags with their
attributes, text, comments and document types have nodes of their own, and come back as they were.
Sections of character data, instructions and declarations have none: their nodes are those of text,
and as text they come back, with every character of markup in them escaped and the marks around them
gone.

## Main definitions

* `Item.folded`: a part of a document as its node keeps it.
* `lostIn`: the number of parts of a document that have no node of their own.

## Main statements

* `writeTree_parseTree`: what is written of the tree of a text, and when it is what is written of
  the document.
* `writeTree_parseTree_cdata`: a section of character data that comes back as text.
-/

namespace NotebookTree.Html

mutual

/-- A part of a document as its node keeps it: what has no node of its own is text. -/
def Item.folded : Item → Item
  | .tag name attributes children => .tag name attributes (foldedItems children)
  | .cdata s | .instruction s | .declaration s => .text s
  | i => i

/-- Parts of a document as their nodes keep them. -/
def foldedItems : List Item → List Item
  | [] => []
  | i :: is => i.folded :: foldedItems is

end

mutual

/-- The number of parts that have no node of their own. -/
def Item.lost : Item → Nat
  | .tag _ _ children => lostIn children
  | .cdata _ | .instruction _ | .declaration _ => 1
  | _ => 0

/-- The number of parts that have no node of their own, in all. -/
def lostIn : List Item → Nat
  | [] => 0
  | i :: is => i.lost + lostIn is

end

/-! ## Attributes -/

/-- What a document keeps of an attribute comes back from a node. -/
def IsKept (tag : List Char) (e : String × AttributeValue) : Prop :=
  (isWordList tag e.1 = true ∧ ∃ ws, e.2 = .words ws) ∨
    (isWordList tag e.1 = false ∧ ∃ s, e.2 = .text s)

/-- An attribute is kept when it is read from a tag: a list of words where the tag asks for one, and
else a text. -/
theorem isKept_of_mem_attributesOf {tag : List Char}
    {given : List (List Char × Option (List Char))} {e : String × AttributeValue}
    (he : e ∈ Builder.attributesOf tag given) : IsKept tag e := by
  have hset : ∀ (name : String) (value : List Char), IsKept tag
      (name, if isWordList tag name then .words (Text.words value) else .text value) := by
    intro name value
    cases hlist : isWordList tag name with
    | true => exact .inl ⟨hlist, _, rfl⟩
    | false => exact .inr ⟨hlist, _, rfl⟩
  -- one attribute after the other is set
  refine List.foldlRecOn (motive := fun es : Attributes => ∀ e ∈ es, IsKept tag e) given _
    (List.forall_mem_nil _) (fun es hes a _ f hf => ?_) e he
  rcases Entries.mem_put _ hf with hf | rfl
  · exact hes f hf
  · exact hset _ _

/-- Words are read back from the texts that they were made. -/
theorem textsOf_words (ws : List (List Char)) :
    textsOf (ws.map fun w => .text (String.ofList w)) = .ok ws := by
  induction ws with
  | nil => rfl
  | cons w ws ih =>
    rw [List.map_cons, textsOf, ih, String.toList_ofList]
    rfl

/-- A list of values is read as a list of words. -/
theorem attributeOf_list (tag : List Char) (name : String) (vs : List Value) :
    attributeOf tag name (.list vs) = textsOf vs >>= fun ws => .ok (some (.words ws)) := rfl

/-- A text is read as words where the tag asks for a list of them. -/
theorem attributeOf_text (tag : List Char) (name s : String) : attributeOf tag name (.text s) =
    .ok (some (if isWordList tag name then .words (Text.words s.toList) else .text s.toList)) := rfl

/-- A value that is kept is read back as the attribute that it was. -/
theorem attributeOf_toValue {tag : List Char} {e : String × AttributeValue} (h : IsKept tag e) :
    attributeOf tag e.1 e.2.toValue = .ok (some e.2) := by
  obtain ⟨name, v⟩ := e
  obtain ⟨hlist, ws, rfl⟩ | ⟨hlist, s, rfl⟩ := h
  · rw [AttributeValue.toValue, attributeOf_list, textsOf_words]
    rfl
  · rw [AttributeValue.toValue, attributeOf_text, hlist, if_neg Bool.false_ne_true,
      String.toList_ofList]

/-- Values that are kept are read back, each under its name. -/
theorem attributesOfEntries_toValue {tag : List Char} {es : Attributes}
    (h : ∀ e ∈ es, IsKept tag e) :
    attributesOfEntries tag (es.map fun e => (e.1, e.2.toValue)) = .ok es := by
  induction es with
  | nil => rfl
  | cons e es ih =>
    obtain ⟨he, hes⟩ := List.forall_mem_cons.mp h
    rw [List.map_cons, attributesOfEntries, attributeOf_toValue he, ih hes]
    rfl

/-! ## Nodes -/

/-- The attributes of a tag come back from its node. -/
def KeepsAttributes (name : List Char) (attributes : Attributes) : Prop :=
  ∀ e ∈ attributes, IsKept name e

/-- The node of a tag. -/
def elementNode (name : List Char) (attributes : Attributes) (children : List Value) : Value :=
  .node .element (nodeFields "element" (.list children) .null
    (.record (attributes.map fun e => (e.1, e.2.toValue)))
    (.record [("tag_name", .text (String.ofList name))]))

/-- A tag comes back from its node with its name and its attributes. -/
theorem tagOfNode_elementNode {name : List Char} {attributes : Attributes}
    (h : KeepsAttributes name attributes) (children : List Value) :
    tagOfNode (elementNode name attributes children) = .ok (name, attributes) := by
  have hextra : Value.orElse ((elementNode name attributes children).attribute? "extra")
      (.record []) = .record [("tag_name", .text (String.ofList name))] := rfl
  -- no attributes at all are a null field, which reads as the empty record
  have hgiven : Value.orElse ((elementNode name attributes children).attribute? "attributes")
      (.record []) = .record (attributes.map fun e => (e.1, e.2.toValue)) := by
    cases attributes with
    | nil => rfl
    | cons e es => rfl
  have hname : Entries.get? [("tag_name", Value.text (String.ofList name))] "tag_name" =
      some (.text (String.ofList name)) := rfl
  rw [tagOfNode, hextra, hgiven]
  dsimp only
  rw [hname]
  change (do return ((String.ofList name).toList, ← attributesOfEntries (String.ofList name).toList
    (attributes.map fun e : String × AttributeValue => (e.1, e.2.toValue)))) = _
  rw [String.toList_ofList, attributesOfEntries_toValue h]
  rfl

/-- A text is read back from its node. -/
theorem textOfNode_textNode (type : String) (s : List Char) :
    textOfNode (textNode type s) = .ok s := by
  cases s with
  | nil => rfl
  | cons c s =>
    have hvalue : Value.orElse ((textNode type (c :: s)).attribute? "value") (.text "") =
        .text (String.ofList (c :: s)) := by
      refine if_pos ?_
      simp [Value.isTruthy]
    rw [textOfNode, hvalue]
    exact congrArg Except.ok String.toList_ofList

/-- A text comes back from its node as what its type says. -/
theorem itemsOfNode_textNode {type : String} {make : List Char → Item}
    (h : leafOf? (some (.text type)) = some make) (s : List Char) :
    itemsOfNode (textNode type s) = .ok [make s] := by
  have htype : (textNode type s).type? = some (.text type) := rfl
  rw [textNode, itemsOfNode]
  dsimp only
  rw [← textNode, htype, h]
  dsimp only
  rw [textOfNode_textNode]
  rfl

mutual

/-- An element is read back as the item it was made of, with its specials folded into text. -/
theorem itemsOfNode_toElement : ∀ {i : Item}, i.TagsIn KeepsAttributes →
    itemsOfNode i.toElement = .ok [i.folded]
  | .tag name attributes children, h => by
    have hchildren := itemsOfNodes_itemElements fun i hi name' attributes' htag =>
      h name' attributes' (.within hi htag)
    have hnode : itemsOfNode (elementNode name attributes (itemElements children)) =
        tagOfNode (elementNode name attributes (itemElements children)) >>= fun tag =>
          itemsOfNodes (itemElements children) >>= fun items => .ok [.tag tag.1 tag.2 items] := rfl
    rw [Item.toElement, ← elementNode, hnode, tagOfNode_elementNode (h _ _ .here), Except.ok_bind,
      hchildren]
    rfl
  | .text s, _ | .cdata s, _ | .instruction s, _ | .declaration s, _ =>
    itemsOfNode_textNode rfl s
  | .comment s, _ => itemsOfNode_textNode rfl s
  | .doctype s, _ => itemsOfNode_textNode rfl s

/-- Elements are read back as the items they were made of, folded. -/
theorem itemsOfNodes_itemElements : ∀ {items : List Item},
    (∀ i ∈ items, i.TagsIn KeepsAttributes) →
      itemsOfNodes (itemElements items) = .ok (foldedItems items)
  | [], _ => rfl
  | i :: is, h => by
    obtain ⟨hi, his⟩ := List.forall_mem_cons.mp h
    rw [itemElements, itemsOfNodes, itemsOfNode_toElement hi, Except.ok_bind,
      itemsOfNodes_itemElements his]
    rfl

end

mutual

/-- What loses nothing is as its node keeps it. -/
theorem folded_eq : ∀ {i : Item}, i.lost = 0 → i.folded = i
  | .tag name attributes children, h => by rw [Item.folded, foldedItems_eq h]
  | .text s, _ | .comment s, _ | .doctype s, _ => rfl

/-- Items that lose nothing are folded into themselves. -/
theorem foldedItems_eq : ∀ {items : List Item}, lostIn items = 0 → foldedItems items = items
  | [], _ => rfl
  | i :: is, h => by
    obtain ⟨hi, his⟩ := Nat.add_eq_zero_iff.mp h
    rw [foldedItems, folded_eq hi, foldedItems_eq his]

end

/-! ## Writing

What is lost can be told from what is written: as text, a part of a document has fewer places where
markup begins than with its marks around it. -/

section Writing

variable {verbatim : Bool}

theorem writeItem_text (s : List Char) :
    writeItem verbatim (.text s) = if verbatim then s else escapeText s := rfl

theorem writeItem_tag (name : List Char) (attributes : Attributes) (children : List Item) :
    writeItem verbatim (.tag name attributes children) =
      if children.isEmpty && isVoid name then
        '<' :: name ++ writeAttributes (withEncoding name attributes) ++ "/>".toList
      else '<' :: name ++ writeAttributes (withEncoding name attributes) ++
        '>' :: writeItems (isVerbatim name) children ++ "</".toList ++ name ++ ['>'] := rfl

theorem writeItems_cons (i : Item) (is : List Item) :
    writeItems verbatim (i :: is) = writeItem verbatim i ++ writeItems verbatim is := rfl

/-- Folding leaves no item out. -/
theorem isEmpty_foldedItems (items : List Item) : (foldedItems items).isEmpty = items.isEmpty := by
  cases items <;> rfl

/-- Escaped text has no angle bracket. -/
theorem count_escapeText (s : List Char) : (escapeText s).count '<' = 0 := by
  refine List.count_eq_zero.mpr fun hmem => ?_
  obtain ⟨c, -, hc⟩ := List.mem_flatMap.mp hmem
  rw [escapeChar] at hc
  split at hc
  · simp at hc
  · split at hc
    · simp at hc
    · split at hc
      · simp at hc
      · rename_i hlt _
        exact hlt (beq_iff_eq.mpr (List.mem_singleton.mp hc).symm)

/-- A text has no more places where markup begins than it is made of. -/
theorem count_writeItem_text (verbatim : Bool) (s : List Char) :
    (writeItem verbatim (.text s)).count '<' ≤ s.count '<' := by
  rw [writeItem_text]
  split
  · exact Nat.le_refl _
  · rw [count_escapeText]
    exact Nat.zero_le _

/-- Marks around a text are one more place where markup begins. -/
theorem count_writeItem_text_add_one {before : List Char} (h : '<' ∈ before)
    (s after : List Char) :
    (writeItem verbatim (.text s)).count '<' + 1 ≤ (before ++ s ++ after).count '<' := by
  have hbefore := List.count_pos_iff.mpr h
  have htext := count_writeItem_text verbatim s
  rw [List.count_append, List.count_append]
  omega

mutual

/-- Each part that is lost is missing as a place where markup begins. -/
theorem count_folded_add_lost : ∀ (verbatim : Bool) (i : Item),
    (writeItem verbatim i.folded).count '<' + i.lost ≤ (writeItem verbatim i).count '<'
  | verbatim, .tag name attributes children => by
    have hchildren := count_foldedItems_add_lostIn (isVerbatim name) children
    rw [Item.folded, Item.lost, writeItem_tag, writeItem_tag, isEmpty_foldedItems]
    split
    · rename_i hvoid
      -- there is nothing in the tag that could be lost
      have hnone : children = [] := by simpa using (Bool.and_eq_true_iff.mp hvoid).1
      rw [hnone]
      exact Nat.le_refl _
    · simp only [List.count_append, List.count_cons]
      omega
  | _, .text _ | _, .comment _ | _, .doctype _ => Nat.le_refl _
  | _, .cdata s =>
    have hmark : '<' ∈ "<![CDATA[".toList := by decide
    count_writeItem_text_add_one hmark s _
  | _, .instruction s | _, .declaration s =>
    have hmark : '<' ∈ "<?".toList := by decide
    count_writeItem_text_add_one hmark s _

/-- Each item that is lost takes an angle bracket at least from what is written. -/
theorem count_foldedItems_add_lostIn : ∀ (verbatim : Bool) (items : List Item),
    (writeItems verbatim (foldedItems items)).count '<' + lostIn items ≤
      (writeItems verbatim items).count '<'
  | _, [] => Nat.le_refl _
  | verbatim, i :: is => by
    have hi := count_folded_add_lost verbatim i
    have his := count_foldedItems_add_lostIn verbatim is
    rw [foldedItems, lostIn, writeItems_cons, writeItems_cons, List.count_append,
      List.count_append]
    omega

end

/-- What is written of a document as its nodes keep it is what is written of the document if and only
if nothing is lost. -/
theorem writeItems_foldedItems_eq_iff {items : List Item} :
    writeItems verbatim (foldedItems items) = writeItems verbatim items ↔ lostIn items = 0 := by
  constructor
  · intro h
    have hcount := count_foldedItems_add_lostIn verbatim items
    rw [h] at hcount
    omega
  · intro h
    rw [foldedItems_eq h]

end Writing

/-! ## There and back -/

/-- Without settings, markup is read as a fragment. -/
theorem parseTree_null (source : String) : parseTree (.text source) .null =
    match parseItems source.toList with
    | none => .error .badMarkup
    | some items => .ok (rootOf (fragmentOf source.toList items)) :=
  parseTree_htmlSettings source (.bool true)

/-- What is written of the tree of a document. -/
theorem writeTree_rootOf {source : List Char} {items : List Item}
    (h : parseItems source = some items) :
    writeTree (rootOf items) = .ok (String.ofList (writeItems false (foldedItems items))) := by
  have hkept : ∀ i ∈ items, i.TagsIn KeepsAttributes := by
    intro i hi name attributes htag
    obtain ⟨-, given, rfl⟩ := tagsIn_of_parseItems h i hi name attributes htag
    exact fun e he => isKept_of_mem_attributesOf he
  have hroot : writeTree (rootOf items) = itemsOfNodes (itemElements items) >>= fun items =>
      .ok (String.ofList (writeItems false items)) := rfl
  rw [hroot, itemsOfNodes_itemElements hkept]
  rfl

/-- A text that is refused has no tree. The tree of any other is written as the document is itself,
but with sections of character data, instructions and declarations written as text. It is written as
the document is if and only if the document has none of these. -/
theorem writeTree_parseTree (source : String) :
    (parseItems source.toList = none ∧ parseTree (.text source) .null = .error .badMarkup) ∨
      ∃ items tree, parseItems source.toList = some items ∧
        parseTree (.text source) .null = .ok tree ∧
        writeTree tree = .ok (String.ofList (writeItems false (foldedItems items))) ∧
        (writeTree tree = .ok (String.ofList (writeItems false items)) ↔
          lostIn items = 0) := by
  cases h : parseItems source.toList with
  | none => exact .inl ⟨rfl, by rw [parseTree_null, h]⟩
  | some items =>
    have htree : parseTree (.text source) .null = .ok (rootOf items) := by
      rw [parseTree_null, h]
      exact congrArg (Except.ok ∘ rootOf) (fragmentOf_eq h)
    refine .inr ⟨items, _, rfl, htree, writeTree_rootOf h, ?_⟩
    rw [writeTree_rootOf h, Except.ok.injEq, String.ofList_inj, writeItems_foldedItems_eq_iff]

/-- A section of character data is written as such if the document is written itself, and as escaped
text from the tree. -/
theorem writeTree_parseTree_cdata :
    (parseItems "<![CDATA[x<y]]>".toList).map (fun items => String.ofList (writeItems false items)) =
        some "<![CDATA[x<y]]>" ∧
      (parseTree (.text "<![CDATA[x<y]]>") .null >>= writeTree) = .ok "x&lt;y" := by
  constructor
  · decide +kernel
  · have hwritten : (parseTree (.text "<![CDATA[x<y]]>") .null >>= writeTree).toOption =
        some "x&lt;y" := by decide +kernel
    cases hrun : parseTree (.text "<![CDATA[x<y]]>") .null >>= writeTree with
    | error e =>
      rw [hrun] at hwritten
      cases hwritten
    | ok s =>
      rw [hrun] at hwritten
      rw [Option.some.inj hwritten]

end NotebookTree.Html
