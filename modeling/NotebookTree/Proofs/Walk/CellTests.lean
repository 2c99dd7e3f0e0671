import NotebookTree.Proofs.Store.Rows
import NotebookTree.Proofs.Walk.Outcome
import NotebookTree.Value.Guard
import NotebookTree.Walk.CellRule

/-!
# What rules ask of cells

The rules for cells ask whether a cell has content and which tags it has. As functions of the tree
of a cell, the answers say what a store comes to wherever it has the cell, as long as the first
child of the cell, and what that consists of, can be read there.

## Main definitions

* `Value.tags`, `Value.isTagged`, `Value.hasContent`: the answers.
* `Value.isWellTagged`, `Value.Legible`: cells for which there is an answer.
* `ShowsContent`: an item is a cell whose content can be read.

## Main results

* `Walk.outcome_hasContent`, `Walk.outcome_isTagged`: what the questions come to.
-/

namespace NotebookTree

open Store (Holds Reads Reseats)

namespace Value

/-! ## Answers -/

/-- The text that a value is, if it is one. -/
def text? : Value → Option String
  | .text s => some s
  | _ => none

/-- The tags of a cell: the texts in the list that its metadata has for them, if there is one. -/
def tags (cell : Value) : List String :=
  match cell.attribute? "metadata" with
  | some (.record es) => match Entries.get? es "tags" with
    | some (.list vs) => vs.filterMap text?
    | _ => []
  | _ => []

/-- Whether one of the values is a tag of a cell. -/
def isTagged (tags : List Value) (cell : Value) : Bool :=
  cell.tags.any fun name => tags.any fun t => t.equals (.text name)

/-- Whether a node has a text for its value in which there is something. -/
def hasText (v : Value) : Bool :=
  match v.attribute? "value" with
  | some (.text s) => !(Text.trim s.toList).isEmpty
  | _ => false

/-- Whether a cell has content: code that is not blank, or Markdown that is not blank or, once read,
has blocks other than blank lines. Any other cell has. -/
def hasContent (cell : Value) : Bool :=
  let content := (cell.children?.getD []).head?
  if cell.isCellOf "code" then content.any hasText
  else if cell.isCellOf "markdown" then
    content.any fun c =>
      if c.hasType "markdown" then c.hasText
      else (c.children?.getD []).any fun block => !block.hasType "blank_line"
  else true

/-! ## Cells with an answer -/

/-- Whether an entry for tags is missing, null or a list of texts. -/
def isTagList : Option Value → Bool
  | none | some .null => true
  | some (.list vs) => vs.all fun v => v.text?.isSome
  | _ => false

/-- Whether the metadata of a cell is a record with no tags, null or a list of texts for them. -/
def isWellTagged (cell : Value) : Bool :=
  match cell.attribute? "metadata" with
  | some (.record es) => isTagList (Entries.get? es "tags")
  | _ => false

/-- A list of texts is the list of its texts. -/
theorem map_filterMap_text? {vs : List Value} (h : ∀ v ∈ vs, v.text?.isSome = true) :
    (vs.filterMap text?).map Value.text = vs := by
  induction vs with
  | nil => rfl
  | cons v vs ih =>
    obtain ⟨hv, hvs⟩ := List.forall_mem_cons.mp h
    cases v with
    | text s => exact congrArg (Value.text s :: ·) (ih hvs)
    | _ => cases hv

/-- Well-formed tags are missing, null, or a list of texts. -/
theorem isWellTagged_cases {cell : Value} (h : cell.isWellTagged = true) :
    ∃ es, cell.attribute? "metadata" = some (.record es) ∧
      (Entries.get? es "tags" = none ∨ Entries.get? es "tags" = some .null ∨
        ∃ vs, Entries.get? es "tags" = some (.list vs) ∧ ∀ v ∈ vs, v.text?.isSome = true) := by
  rw [isWellTagged] at h
  split at h
  · rename_i es hes
    refine ⟨es, hes, ?_⟩
    rw [isTagList.eq_def] at h
    split at h
    · rename_i hnone
      exact .inl hnone
    · rename_i hnull
      exact .inr (.inl hnull)
    · rename_i vs hvs
      exact .inr (.inr ⟨vs, hvs, List.all_eq_true.mp h⟩)
    · cases h
  · cases h

/-- A cell has a first child, with a text if the cell is code, and with a text or with children if it
is Markdown, not read or read. -/
structure Legible (cell : Value) : Prop where
  content : ∃ c others, cell.children? = some (c :: others) ∧
    (cell.isCellOf "code" = true → ∃ s, c.attribute? "value" = some (.text s)) ∧
    (cell.isCellOf "markdown" = true → c.hasType "markdown" = true →
      ∃ s, c.attribute? "value" = some (.text s)) ∧
    (cell.isCellOf "markdown" = true → c.hasType "markdown" = false →
      ∃ blocks, c.children? = some blocks)

/-- A text is equal to a value when the value is equal to it. -/
theorem text_equals (v : Value) (s : String) : (Value.text s).equals v = v.equals (.text s) := by
  cases v with
  | text t =>
    simp only [equals, equalsScalar]
    exact BEq.comm
  | _ => simp [equals, equalsScalar, integer?]

end Value

/-! ## Cells in a store -/

/-- An item of a store is a cell with a first child. The child has the fields of its tree, and if it
has children, they have the fields of theirs. -/
structure ShowsContent (s : Store) (i : Item) (cell : Value) : Prop where
  reads : Reads s i cell
  content : ∃ id row first rest c others, i = .node id ∧ s.HasChildren id row (first :: rest) ∧
    cell.children? = some (c :: others) ∧ Reads s first c ∧
    ∀ blocks, c.children? = some blocks → ∃ id' row' items, first = .node id' ∧
      s.HasChildren id' row' items ∧ List.Forall₂ (Reads s) items blocks

/-- The items of trees in a store read as the trees. -/
theorem forall₂_reads {s : Store} {parts : List Held} (h : ∀ q ∈ parts, Reads s q.item q.tree) :
    List.Forall₂ (Reads s) (parts.map Held.item) (parts.map Held.tree) := by
  induction parts with
  | nil => exact .nil
  | cons q parts ih =>
    exact .cons (h q List.mem_cons_self) (ih fun p hp => h p (List.mem_cons_of_mem _ hp))

/-- The content of a cell of a tree can be read while the cell keeps its first child and what lies
below that keeps its children. -/
theorem ShowsContent.of_holds {s s' : Store} {R : NodeId → List Item → List Item → Prop} {p : Held}
    {c : Value} {others : List Value} (hp : Holds s p) (hs : Reseats R s s')
    (hchildren : p.tree.children? = some (c :: others))
    (hfirst : ∀ id xs ys, p.item = .node id → R id xs ys → ys.head? = xs.head?)
    (hbelow : ∀ q id, Holds s q → q.tree = c → q.item = .node id →
      ∀ xs ys, R id xs ys → ys = xs) : ShowsContent s' p.item p.tree := by
  refine ⟨hp.reads.of_reseats hs, ?_⟩
  cases hp with
  | leaf _ hfields =>
    rw [Value.children?_of_childless hfields] at hchildren
    cases hchildren
  | @branch k before after id row parts hk hbefore hafter hnode hrow hparts hnodup =>
    obtain ⟨row', items, hnode', hrow', hR⟩ := hs.node?_between hbefore hafter hnode hrow
    have hc' : s'.HasChildren id row' items :=
      Store.hasChildren_of_between (by rwa [has_plainFields]) hnode' hrow'
    rw [Value.children?_branch hbefore] at hchildren ⊢
    obtain ⟨q, qs, rfl, rfl, rfl⟩ := List.map_eq_cons_iff.mp (Option.some.inj hchildren)
    have hhead := hfirst id _ _ rfl hR
    obtain ⟨rest, rfl⟩ : ∃ rest, items = q.item :: rest := by
      cases items with
      | nil => cases hhead
      | cons i rest => exact ⟨rest, by rw [Option.some.inj hhead]⟩
    have hq := hparts q List.mem_cons_self
    refine ⟨id, row', q.item, rest, q.tree, _, rfl, hc', rfl, hq.reads.of_reseats hs,
      fun blocks hblocks => ?_⟩
    -- the first child keeps its children, so its blocks are the ones in the tree
    have hsame := hbelow q
    have hholds := hq
    cases hq with
    | leaf _ hfields =>
      rw [Value.children?_of_childless hfields] at hblocks
      cases hblocks
    | @branch _ before' after' id' _ parts' _ hbefore' hafter' hqnode hqrow hqparts _ =>
      obtain ⟨row'', items', hqnode', hqrow', hqR⟩ := hs.node?_between hbefore' hafter' hqnode hqrow
      obtain rfl := hsame id' hholds rfl rfl _ _ hqR
      rw [Value.children?_branch hbefore'] at hblocks
      obtain rfl := Option.some.inj hblocks
      refine ⟨id', row'', _, rfl, Store.hasChildren_of_between (by rwa [has_plainFields]) hqnode'
        hqrow', forall₂_reads fun r hr => (hqparts r hr).reads.of_reseats hs⟩

namespace Walk

variable {σ : Type} {s : Scene σ} {i : Item} {cell v : Value}

/-! ## Words and fields -/

/-- What is asked of a node's field is asked of the tree. -/
theorem hasWord_of_reads {store : Store} (h : Reads store i v) {name : String}
    (hname : name ≠ "children") (word : String) :
    hasWord store i name word = ((v.attribute? name).getD .null).equals (.text word) := by
  rw [hasWord, h.fieldView hname]

/-- The type of a node is that of the tree. -/
theorem hasWord_type_of_reads {store : Store} (h : Reads store i v) (word : String) :
    hasWord store i "type" word = v.hasType word := by
  rw [hasWord_of_reads h (by decide), Value.hasType, Value.type?]
  cases v.attribute? "type" with
  | none => simp [Value.equals, Value.equalsScalar, Value.integer?]
  | some t => cases t <;> simp [Value.equals, Value.equalsScalar, Value.integer?]

/-- The sort of a cell is that of the tree. -/
theorem isCellOf_of_reads {store : Store} (h : Reads store i v) (word : String) :
    isCellOf store i word = v.isCellOf word := by
  rw [isCellOf, Value.isCellOf, hasWord_type_of_reads h, hasWord_of_reads h (by decide),
    Value.hasCellType]
  cases v.attribute? "cell_type" with
  | none => simp [Value.equals, Value.equalsScalar, Value.integer?]
  | some t => cases t <;> simp [Value.equals, Value.equalsScalar, Value.integer?]

/-- A field of a node is read from the tree. -/
theorem outcome_fieldOf_of_reads (h : Reads s.store i v) {name : String} (hname : name ≠ "children")
    {f : Value} (hf : v.attribute? name = some f) :
    outcome (fieldOf i name) s = (.ok (.plain f), s) := by
  rw [fieldOf, outcome_getStore_bind, h name hname, hf]
  rfl

/-- The children of a node are read as their row. -/
theorem outcome_children {id : NodeId} {row : RowId} {items : List Item}
    (h : s.store.HasChildren id row items) :
    outcome (fieldOf (.node id) "children") s = (.ok (.row row), s) := by
  rw [fieldOf, outcome_getStore_bind, Store.attribute?_of_childRow? h.1]
  rfl

/-- The items of a row are read. -/
theorem outcome_itemsOf {id : NodeId} {row : RowId} {items : List Item}
    (h : s.store.HasChildren id row items) :
    outcome (itemsOf (.row row)) s = (.ok items, s) := by
  rw [← h.rowItems]
  rfl

/-- A row counts as true when it has items. -/
theorem isTruthy_row {store : Store} {id : NodeId} {row : RowId} {items : List Item}
    (h : store.HasChildren id row items) : store.isTruthy (.row row) = !items.isEmpty := by
  rw [Store.isTruthy, h.rowItems]

/-! ## Content -/

/-- Whether a node has text is read from the tree. -/
theorem outcome_hasText (h : Reads s.store i v) {text : String}
    (htext : v.attribute? "value" = some (.text text)) :
    outcome (hasText i) s = (.ok v.hasText, s) := by
  rw [hasText, outcome_bind_ok (outcome_fieldOf_of_reads h (by decide) htext),
    outcome_getStore_bind, Store.view_plain, Value.hasText, htext]
  rfl

/-- Whether there are blocks other than blank lines. -/
theorem any_hasWord_of_reads {store : Store} {items : List Item} {blocks : List Value}
    (h : List.Forall₂ (Reads store) items blocks) :
    (items.any fun b => !hasWord store b "type" "blank_line") =
      blocks.any fun block => !block.hasType "blank_line" := by
  induction h with
  | nil => rfl
  | cons hb _ ih => rw [List.any_cons, List.any_cons, ih, hasWord_type_of_reads hb]

/-- Whether a cell has content is read off its tree. -/
theorem outcome_hasContent (h : ShowsContent s.store i cell) (hlegible : cell.Legible) :
    outcome (hasContent i) s = (.ok cell.hasContent, s) := by
  obtain ⟨hreads, id, row, first, rest, c, others, rfl, hc, hchildren, hfirst, hblocks⟩ := h
  obtain ⟨c', others', hchildren', hcode, hunread, hread⟩ := hlegible
  obtain ⟨rfl, rfl⟩ := List.cons.inj (Option.some.inj (hchildren.symm.trans hchildren'))
  have htrue : s.store.isTruthy (.row row) = true := by rw [isTruthy_row hc]; rfl
  have hhead : outcome (firstOf (.row row)) s = (.ok first, s) := by
    unfold firstOf
    rw [outcome_bind_ok (outcome_itemsOf hc)]
    rfl
  rw [hasContent, outcome_getStore_bind, isCellOf_of_reads hreads, isCellOf_of_reads hreads]
  -- code asks for its source, Markdown for its source or its blocks, any other cell is kept
  by_cases hcodeCell : cell.isCellOf "code" = true
  · obtain ⟨text, htext⟩ := hcode hcodeCell
    have hanswer : cell.hasContent = c.hasText := by
      simp [Value.hasContent, hcodeCell, hchildren]
    rw [if_pos hcodeCell, outcome_bind_ok (outcome_children hc), if_neg (by simp [htrue]), hanswer]
    show outcome (firstOf (.row row) >>= hasText) s = _
    rw [outcome_bind_ok hhead, outcome_hasText hfirst htext]
  rw [if_neg hcodeCell]
  by_cases hmarkdownCell : cell.isCellOf "markdown" = true
  · rw [if_pos hmarkdownCell, outcome_bind_ok (outcome_children hc), if_neg (by simp [htrue]),
      outcome_bind_ok hhead, hasWord_type_of_reads hfirst]
    by_cases hmarkdown : c.hasType "markdown" = true
    · obtain ⟨text, htext⟩ := hunread hmarkdownCell hmarkdown
      have hanswer : cell.hasContent = c.hasText := by
        simp [Value.hasContent, hcodeCell, hmarkdownCell, hchildren, hmarkdown]
      rw [if_pos hmarkdown, outcome_hasText hfirst htext, hanswer]
    · obtain ⟨blocks, hsome⟩ := hread hmarkdownCell (by simpa using hmarkdown)
      obtain ⟨id', row', items, rfl, hc', hall⟩ := hblocks blocks hsome
      have hanswer : cell.hasContent = blocks.any fun block => !block.hasType "blank_line" := by
        simp [Value.hasContent, hcodeCell, hmarkdownCell, hchildren, hmarkdown, hsome]
      rw [if_neg hmarkdown, outcome_bind_ok (outcome_children hc'), isTruthy_row hc', hanswer,
        ← any_hasWord_of_reads hall]
      cases items with
      | nil => rfl
      | cons b bs =>
        rw [if_neg (by simp), outcome_bind_ok (outcome_itemsOf hc')]
        rfl
  · rw [if_neg hmarkdownCell, Value.hasContent, if_neg hcodeCell, if_neg hmarkdownCell]
    rfl

/-! ## Tags -/

/-- There is something once something is added. -/
theorem addDistinct_ne_nil (found : List Value) (v : Value) : addDistinct found v ≠ [] := by
  rw [addDistinct]
  split
  · rename_i hany
    rintro rfl
    cases hany
  · simp

/-- Among texts it makes no difference how many of the tags have to be found. -/
theorem someAmong_texts (tags found : List Value) (names : List String) :
    someAmong tags found (names.map .text) = .ok (!found.isEmpty ||
      names.any fun name => tags.any fun t => t.equals (.text name)) := by
  induction names generalizing found with
  | nil => rw [List.any_nil, Bool.or_false]; rfl
  | cons name names ih =>
    have hname : ¬((!(Value.text name).isName) = true) := Bool.false_ne_true
    have hany : (tags.any fun t => (Value.text name).equals t) =
        tags.any fun t => t.equals (.text name) := by
      simp only [Value.text_equals]
    have hfound : (addDistinct found (.text name)).isEmpty = false := by
      rw [List.isEmpty_eq_false_iff]
      exact addDistinct_ne_nil found (.text name)
    rw [List.map_cons, someAmong, if_neg hname, hany, List.any_cons]
    -- a name among the tags is added to those found, and one that is enough is never taken out
    by_cases hin : (tags.any fun t => t.equals (.text name)) = true
    · rw [if_pos hin, hin, Bool.true_or, Bool.or_true]
      dsimp only
      split
      · rfl
      · rw [ih, hfound]
        rfl
    · rw [if_neg hin, ih, eq_false_of_ne_true hin, Bool.false_or]

/-- The tags of a cell are read off its tree. -/
theorem outcome_cellTags (h : Reads s.store i cell) (htagged : cell.isWellTagged = true) :
    outcome (cellTags i) s = (.ok (cell.tags.map .text), s) := by
  obtain ⟨es, hmetadata, htags⟩ := Value.isWellTagged_cases htagged
  rw [cellTags, outcome_getStore_bind, h.fieldView (by decide), Value.tags, hmetadata]
  have htruthy : ∀ {name : String} {v : Value}, Entries.get? es name = some v →
      (Value.record es).isTruthy = true := by
    intro name v hv
    cases es with
    | nil => cases hv
    | cons e es => rfl
  dsimp only [Option.getD_some]
  -- without tags and with null the cell has none, and a list is taken as it is
  obtain hnone | hnull | ⟨vs, hvs, htexts⟩ := htags
  · rw [hnone]
    split <;> rfl
  · rw [hnull, if_neg (by simp [htruthy hnull])]
    rfl
  · rw [hvs, if_neg (by simp [htruthy hvs])]
    dsimp only [Option.getD_some]
    rw [Value.map_filterMap_text? htexts]
    cases vs <;> rfl

/-- Whether a cell has one of the tags is read from the tree. -/
theorem outcome_isTagged (h : Reads s.store i cell) (htagged : cell.isWellTagged = true)
    (tags : List Value) : outcome (isTagged tags i) s = (.ok (cell.isTagged tags), s) := by
  rw [isTagged, outcome_bind_ok (outcome_cellTags h htagged), someAmong_texts]
  rfl

end Walk

end NotebookTree
