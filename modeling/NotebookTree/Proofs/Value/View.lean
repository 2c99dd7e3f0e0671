import NotebookTree.Proofs.Value.Equality
import NotebookTree.Proofs.Value.Plain

/-!
# What the view of a tree tells

A tree is shown as records, without the kinds of its nodes and without the fields that are null.
Nothing is lost by that as long as each field holds what it is declared to hold.

## Main definitions

* `IsData`: free-form data.
* `FieldType`: what fields are declared to hold.
* `FieldType.Admits`: the values of a type, among them the trees whose fields are as declared.

## Main results

* `lookup_view`: what is found in the view of a node under a name.
* `kind_eq_of_views`: the view of a node tells its kind.
* `plain_equals_plain`: two values of one type are equal if their views are.
* `tree_views_equal_iff`: trees with equal views are of one kind and equal.
-/

namespace NotebookTree

open Entries

namespace Value

/-- Null is the one value that counts as null. -/
theorem isNull_iff {v : Value} : v.isNull = true ↔ v = null := by
  cases v <;> simp [isNull]

/-! ## Free-form data -/

/-- Free-form data: what JSON is made of, with names that are distinct. -/
inductive IsData : Value → Prop
  | null : IsData .null
  | bool (b : Bool) : IsData (.bool b)
  | int (n : Int) : IsData (.int n)
  | float (x : Double) : IsData (.float x)
  | text (s : String) : IsData (.text s)
  | list {xs : List Value} (hxs : ∀ x ∈ xs, IsData x) : IsData (.list xs)
  | record {es : Entries Value} (hnames : (es.map Prod.fst).Nodup) (hes : ∀ e ∈ es, IsData e.2) :
      IsData (.record es)

/-- The empty record is data. -/
theorem isData_record_nil : IsData (.record []) :=
  .record List.nodup_nil (by simp)

/-- There are no nodes in data, so it is shown as it is. -/
theorem IsData.plain_eq {v : Value} (h : IsData v) : v.plain = v := by
  induction h with
  | @list xs _ ih =>
    rw [plain, plainAll_eq_map, List.map_congr_left ih, List.map_id']
  | @record es _ _ ih =>
    have hentries : es.map (fun e => (e.1, e.2.plain)) = es := by
      refine (List.map_congr_left fun e he => ?_).trans (List.map_id es)
      rw [ih e he, id]
    rw [plain, plainEntries_eq_map, hentries]
  | _ => simp only [plain]

end Value

/-! ## Declared types -/

/-- What fields are declared to hold. -/
inductive FieldType where
  | text | integer | mapping
  | list (items : FieldType)
  | node (kind : Kind)
  /-- A node of one of the kinds a tree is made of. -/
  | tree
  /-- Null, or what the type in it admits. -/
  | optional (type : FieldType)

namespace FieldType

/-- The type of a field. A name stands for the same in all kinds that have a field for it. -/
def ofName : String → FieldType
  | "children" => .list .tree
  | "traceback" => .list .text
  | "position" => .node .position
  | "start" | "end" => .node .point
  | "attributes" | "extra" | "data" | "metadata" => .mapping
  | "execution_count" | "nbformat" | "nbformat_minor" | "line" | "column" | "offset" => .integer
  | _ => .text

end FieldType

/-- What a field of a kind is declared to hold. The fields that are null by default may be null. -/
def Kind.declared (k : Kind) (name : String) : FieldType :=
  match k.fields.lookup name with
  | some (some .null) => .optional (.ofName name)
  | _ => .ofName name

/-- The values of a type. A node has the fields of its kind, and each holds what it is declared to
hold. -/
inductive FieldType.Admits : FieldType → Value → Prop
  | text (s : String) : Admits .text (.text s)
  | integer {v : Value} {n : Int} (hv : v.integer? = some n) : Admits .integer v
  | mapping {es : Entries Value} (hes : Value.IsData (.record es)) : Admits .mapping (.record es)
  | list {t : FieldType} {xs : List Value} (hxs : ∀ x ∈ xs, Admits t x) :
      Admits (.list t) (.list xs)
  | node {k : Kind} {fields : Entries Value} (hnames : fields.map Prod.fst = k.fields.map Prod.fst)
      (hfields : ∀ f ∈ fields, Admits (k.declared f.1) f.2) : Admits (.node k) (.node k fields)
  | tree {k : Kind} {v : Value} (hk : k ∈ Kind.treeKinds) (hv : Admits (.node k) v) :
      Admits .tree v
  | null {t : FieldType} : Admits (.optional t) .null
  | present {t : FieldType} {v : Value} (hv : Admits t v) : Admits (.optional t) v

namespace Kind

/-- The default of a field is something the field is declared to hold. -/
theorem admits_default {k : Kind} (hk : k ∈ treeKinds) :
    ∀ f ∈ k.fields, ∀ v, f.2 = some v → (k.declared f.1).Admits v := by
  have hmapping := FieldType.Admits.mapping Value.isData_record_nil
  have hlist : ∀ t : FieldType, (FieldType.list t).Admits (.list []) := fun t => .list (by simp)
  have hinteger : ∀ n, FieldType.integer.Admits (.int n) := fun n => .integer (n := n) rfl
  simp only [treeKinds, List.mem_cons, List.not_mem_nil, or_false] at hk
  rcases hk with rfl | rfl | rfl | rfl | rfl | rfl | rfl | rfl | rfl | rfl | rfl | rfl | rfl | rfl |
    rfl <;>
    simp [fields, fields.tail, declared, FieldType.ofName, List.lookup_cons, FieldType.Admits.null,
      hmapping, hlist, hinteger]

/-- The attributes of an element are declared as a mapping. -/
theorem declared_attributes : element.declared "attributes" = .mapping := rfl

/-- The type of an element is declared as a text. -/
theorem declared_type : element.declared "type" = .text := rfl

/-- Only elements have fields for their type and attributes. -/
theorem eq_element_of_mem {k : Kind} {name : String} (h : name = "type" ∨ name = "attributes")
    (hmem : name ∈ k.fields.map Prod.fst) : k = element := by
  rcases h with rfl | rfl <;> cases k <;> simp [fields, fields.tail] at hmem ⊢

/-- No class declares the sort of cell as a field: it belongs to the class. -/
theorem cell_type_notMem (k : Kind) : "cell_type" ∉ k.fields.map Prod.fst := by
  cases k <;> decide

/-- The classes of trees leave out the signal that stops a walk. -/
theorem ne_stopSignal_of_mem {k : Kind} (h : k ∈ treeKinds) : k ≠ .stopSignal := by
  rintro rfl
  revert h
  decide

/-- The kinds of trees other than elements have different words. -/
theorem eq_of_words : ∀ k ∈ treeKinds, ∀ l ∈ treeKinds, k ≠ element → l ≠ element →
    k.typeWord? = l.typeWord? → k.cellWord? = l.cellWord? → k = l := by
  decide

end Kind

namespace Value

/-! ## What is found in a view -/

/-- What a field is shown as, if it is shown. -/
def shown (v : Value) : Option Value :=
  if v.isNull then none else some v.plain

section

variable {k : Kind} {fields : Entries Value} {name : String} {names : List String}

/-- Null is not shown. -/
theorem shown_null : shown null = none := rfl

/-- What is not null is shown in its plain form. -/
theorem shown_of_ne {v : Value} (h : v ≠ null) : shown v = some v.plain :=
  if_neg (mt isNull_iff.mp h)

/-- A text is shown as it is. -/
theorem shown_text (s : String) : shown (.text s) = some (.text s) := by
  rw [shown_of_ne Value.noConfusion, (IsData.text s).plain_eq]

/-- Where a word is a text, it is the entry for it. -/
theorem lookup_wordEntry {v : Value} {word : String}
    (hword : ∀ w, v.attribute? word = some w → ∃ s, w = .text s) :
    (wordEntry v word).lookup name =
      if name = word then (v.attribute? word).bind shown else none := by
  rw [wordEntry]
  cases hw : v.attribute? word with
  | none => simp
  | some w =>
    obtain ⟨s, rfl⟩ := hword w hw
    rw [Option.bind_some, shown_text]
    by_cases hname : name = word
    · rw [if_pos hname, hname, List.lookup_cons, beq_self_eq_true]
    · rw [if_neg hname]
      exact lookup_cons_of_ne hname

/-- Plain fields have names of the fields, in the same order. -/
theorem plainFields_sublist (names : List String) (fields : Entries Value) :
    ((plainFields names fields).map Prod.fst).Sublist (fields.map Prod.fst) := by
  induction fields with
  | nil => exact .slnil
  | cons f fields ih =>
    rw [plainFields]
    split
    · exact ih.cons _
    · exact ih.cons_cons _

/-- The type is not shown again among the fields. -/
theorem lookup_plainFields_type : (plainFields names fields).lookup "type" = none := by
  induction fields with
  | nil => rfl
  | cons f fields ih =>
    rw [plainFields]
    split
    · exact ih
    · rename_i hf
      rw [Entries.lookup_cons_of_ne (by grind), ih]

/-- The other fields are shown under their names. -/
theorem lookup_plainFields (hnodup : (fields.map Prod.fst).Nodup) (htype : name ≠ "type")
    (hname : name ∈ names) :
    (plainFields names fields).lookup name = (fields.lookup name).bind shown := by
  induction fields with
  | nil => rfl
  | cons f fields ih =>
    obtain ⟨hnotMem, hnodup⟩ := List.nodup_cons.mp hnodup
    rw [plainFields]
    by_cases hf : name = f.1
    · subst hf
      rw [List.lookup_cons, beq_self_eq_true]
      -- a null is dropped, and the names are distinct, so nothing else is found under this one
      cases hnull : f.2.isNull with
      | true =>
        rw [if_pos (by simp), ih hnodup, lookup_eq_none_of_notMem hnotMem]
        simp [shown, hnull]
      | false =>
        rw [if_neg (by simp [htype, hname]), List.lookup_cons, beq_self_eq_true]
        simp [shown, hnull]
    · have hother : List.lookup name (f :: fields) = fields.lookup name := lookup_cons_of_ne hf
      rw [hother]
      split
      · exact ih hnodup
      · exact (lookup_cons_of_ne (e := (f.1, f.2.plain)) hf).trans (ih hnodup)

/-- An attribute is a field of the node, or else a word of its class. -/
theorem attribute?_node : (Value.node k fields).attribute? name =
    (fields.lookup name).or (kindAttribute? k name) := by
  rw [attribute?]
  cases fields.lookup name <;> rfl

/-- Nodes answer nothing but their fields and the words of their kind. -/
theorem kindAttribute?_of_ne (hk : k ≠ .stopSignal) (htype : name ≠ "type")
    (hcell : name ≠ "cell_type") : kindAttribute? k name = none := by
  simp [kindAttribute?, htype, hcell, hk]

end

/-! ## The view of a node -/

/-- The entries a node is shown as. -/
def view (k : Kind) (fields : Entries Value) : Entries Value :=
  putAll (wordEntry (.node k fields) "type" ++ wordEntry (.node k fields) "cell_type")
    (plainFields (k.fields.map Prod.fst) fields)

section

variable {k l : Kind} {es fs fields : Entries Value} {name : String}

/-- The plain form of a node of a tree is its view. -/
theorem plain_eq_view (hk : k ≠ .stopSignal) :
    (Value.node k fields).plain = .record (view k fields) := by
  rw [plain]
  · rfl
  · exact hk

/-- The names of a view are distinct. -/
theorem nodup_view : ((view k fields).map Prod.fst).Nodup :=
  nodup_putAll (nodup_wordEntries _)

/-- The fields are those of the kind. -/
theorem names_eq (h : FieldType.Admits (.node k) (.node k fields)) :
    fields.map Prod.fst = k.fields.map Prod.fst := by
  cases h with
  | node hnames => exact hnames

/-- What a node answers where it has no field is a word. -/
theorem attribute?_of_notMem (h : FieldType.Admits (.node k) (.node k fields))
    (hname : name ∉ k.fields.map Prod.fst) :
    (Value.node k fields).attribute? name = kindAttribute? k name := by
  rw [attribute?_node, lookup_eq_none_of_notMem (names_eq h ▸ hname), Option.none_or]

/-- A field of the kind is there, and holds what it is declared to hold. -/
theorem exists_field (h : FieldType.Admits (.node k) (.node k fields))
    (hname : name ∈ k.fields.map Prod.fst) :
    ∃ v, fields.lookup name = some v ∧ (name, v) ∈ fields ∧ (k.declared name).Admits v := by
  cases h with
  | node hnames hfields =>
    obtain ⟨f, hf, rfl⟩ := List.mem_map.mp (hnames ▸ hname)
    exact ⟨f.2, lookup_of_mem (hnames ▸ k.nodup_names) hf, hf, hfields f hf⟩

/-- The words of a node are texts. -/
theorem exists_text_of_word {word : String} {w : Value}
    (h : FieldType.Admits (.node k) (.node k fields)) (hword : word = "type" ∨ word = "cell_type")
    (hw : (Value.node k fields).attribute? word = some w) : ∃ s, w = .text s := by
  by_cases hmem : word ∈ k.fields.map Prod.fst
  · obtain rfl : word = "type" := hword.resolve_right fun hcell =>
      k.cell_type_notMem (hcell ▸ hmem)
    obtain rfl := Kind.eq_element_of_mem (.inl rfl) hmem
    obtain ⟨v, hv, -, hadmits⟩ := exists_field h hmem
    rw [attribute?_node, hv] at hw
    obtain rfl := Option.some.inj hw
    rw [Kind.declared_type] at hadmits
    cases hadmits with
    | text s => exact ⟨s, rfl⟩
  · rw [attribute?_of_notMem h hmem] at hw
    exact exists_text_of_kindAttribute? hw

/-- Under each name the view has what the node answers, unless that is null. -/
theorem lookup_view (hk : k ≠ .stopSignal) (h : FieldType.Admits (.node k) (.node k fields)) :
    (view k fields).lookup name = ((Value.node k fields).attribute? name).bind shown := by
  have hsub := plainFields_sublist (k.fields.map Prod.fst) fields
  have hnames := names_eq h
  have hnodup : (fields.map Prod.fst).Nodup := hnames ▸ k.nodup_names
  rw [view, lookup_putAll_of_nodup (hnodup.sublist hsub), List.lookup_append,
    lookup_wordEntry fun w => exists_text_of_word h (.inl rfl),
    lookup_wordEntry fun w => exists_text_of_word h (.inr rfl)]
  -- the two words of the class come in by the names they are put under; any other name is a field
  -- or nothing
  by_cases htype : name = "type"
  · subst htype
    rw [lookup_plainFields_type, if_pos rfl, if_neg (by decide), Option.none_or, Option.or_none]
  by_cases hcell : name = "cell_type"
  · subst hcell
    have hnotMem := k.cell_type_notMem
    rw [← hnames] at hnotMem
    rw [lookup_eq_none_of_notMem (mt (hsub.subset ·) hnotMem), if_neg (by decide), if_pos rfl,
      Option.none_or, Option.none_or]
  rw [if_neg htype, if_neg hcell, Option.or_none, Option.or_none, attribute?_node,
    kindAttribute?_of_ne hk htype hcell, Option.or_none]
  by_cases hmem : name ∈ k.fields.map Prod.fst
  · exact lookup_plainFields hnodup htype hmem
  · have hnotMem : name ∉ fields.map Prod.fst := hnames ▸ hmem
    rw [lookup_eq_none_of_notMem hnotMem,
      lookup_eq_none_of_notMem (mt (hsub.subset ·) hnotMem), Option.bind_none]

/-- Nodes of one kind are equal if they answer the same under each name. -/
theorem node_equals_iff (hes : FieldType.Admits (.node k) (.node k es))
    (hfs : FieldType.Admits (.node k) (.node k fs)) :
    (Value.node k es).equals (.node k fs) = true ↔
      ∀ name, EqualOrAbsent (es.lookup name) (fs.lookup name) := by
  have hnodup : (es.map Prod.fst).Nodup := names_eq hes ▸ k.nodup_names
  have hdeclared : ∀ e ∈ es, e.1 ∈ k.fields.map Prod.fst := fun e he =>
    names_eq hes ▸ List.mem_map_of_mem he
  rw [equals, beq_self_eq_true, Bool.true_and, equalsFields_iff hdeclared]
  refine forall_lookup_iff (R := fun v w => v.equals w = true) hnodup fun name hname => ?_
  rwa [names_eq hes, ← names_eq hfs]

/-- Null is not shown, and nothing else is shown like it. -/
theorem equalOrAbsent_shown_iff {v w : Value} (h : v.plain.equals w.plain = v.equals w) :
    EqualOrAbsent (shown v) (shown w) ↔ v.equals w = true := by
  by_cases hv : v = null <;> by_cases hw : w = null
  · rw [hv, hw, shown_null, null_equals_iff]
    exact ⟨fun _ => rfl, fun _ => .none⟩
  · rw [hv, null_equals_iff, shown_null, shown_of_ne hw]
    exact ⟨nofun, fun heq => absurd heq hw⟩
  · rw [hw, equals_null_iff, shown_null, shown_of_ne hv]
    exact ⟨nofun, fun heq => absurd heq hv⟩
  · rw [shown_of_ne hv, shown_of_ne hw, EqualOrAbsent, Option.rel_some_some, h]

end

/-! ## Views of trees -/

section

variable {k l : Kind} {es fs : Entries Value} {name : String}

/-- The words of a kind are shown as they are. -/
theorem equalOrAbsent_words : EqualOrAbsent ((kindAttribute? k name).bind shown)
    ((kindAttribute? k name).bind shown) := by
  cases hw : kindAttribute? k name with
  | none => exact .none
  | some w =>
    obtain ⟨s, rfl⟩ := exists_text_of_kindAttribute? hw
    rw [Option.bind_some, shown_text]
    exact .some (equals_text_iff.mpr rfl)

/-- Nodes with equal views have equal entries under each name. -/
theorem views_equal_iff (hk : k ≠ .stopSignal) (hl : l ≠ .stopSignal)
    (hes : FieldType.Admits (.node k) (.node k es))
    (hfs : FieldType.Admits (.node l) (.node l fs)) :
    (Value.node k es).plain.equals (Value.node l fs).plain = true ↔
      ∀ name, EqualOrAbsent (((Value.node k es).attribute? name).bind shown)
        (((Value.node l fs).attribute? name).bind shown) := by
  rw [plain_eq_view hk, plain_eq_view hl, record_equals_iff nodup_view nodup_view]
  refine forall_congr' fun name => ?_
  rw [lookup_view hk hes, lookup_view hl hfs]

/-- Only elements show attributes. -/
theorem shows_attributes_iff (hk : k ≠ .stopSignal) (h : FieldType.Admits (.node k) (.node k es)) :
    (((Value.node k es).attribute? "attributes").bind shown).isSome = true ↔ k = .element := by
  by_cases helement : k = .element
  · subst helement
    have hmem : "attributes" ∈ Kind.element.fields.map Prod.fst := by decide
    obtain ⟨v, hv, -, hadmits⟩ := exists_field h hmem
    rw [Kind.declared_attributes] at hadmits
    rw [attribute?_node, hv]
    cases hadmits with
    | mapping => exact ⟨fun _ => rfl, fun _ => rfl⟩
  · rw [attribute?_of_notMem h (mt (Kind.eq_element_of_mem (.inr rfl)) helement),
      kindAttribute?_of_ne hk (by decide) (by decide)]
    exact ⟨nofun, fun heq => absurd heq helement⟩

/-- Words that are shown alike are the same. -/
theorem eq_of_equalOrAbsent_words {o o' : Option String}
    (h : EqualOrAbsent ((o.map text).bind shown) ((o'.map text).bind shown)) : o = o' := by
  cases o with
  | none =>
    cases o' with
    | none => rfl
    | some s' => rw [Option.map_some, Option.bind_some, shown_text] at h; cases h
  | some s =>
    cases o' with
    | none => rw [Option.map_some, Option.bind_some, shown_text] at h; cases h
    | some s' =>
      rw [Option.map_some, Option.map_some, Option.bind_some, Option.bind_some, shown_text,
        shown_text, EqualOrAbsent, Option.rel_some_some, equals_text_iff] at h
      rw [text.inj h]

/-- Nodes of trees with equal views are of one kind. An element, which may have any type, is told
by its attributes, and the others by their words. -/
theorem kind_eq_of_views (hk : k ∈ Kind.treeKinds) (hl : l ∈ Kind.treeKinds)
    (hes : FieldType.Admits (.node k) (.node k es))
    (hfs : FieldType.Admits (.node l) (.node l fs))
    (h : (Value.node k es).plain.equals (Value.node l fs).plain = true) : k = l := by
  have hk' := Kind.ne_stopSignal_of_mem hk
  have hl' := Kind.ne_stopSignal_of_mem hl
  rw [views_equal_iff hk' hl' hes hfs] at h
  -- an element alone declares attributes, and its type can be any word, so it is told apart first
  have helement : k = .element ↔ l = .element := by
    rw [← shows_attributes_iff hk' hes, ← shows_attributes_iff hl' hfs,
      isSome_eq_of_rel (h "attributes")]
  by_cases hke : k = .element
  · rw [hke, helement.mp hke]
  have hle : l ≠ .element := mt helement.mpr hke
  have htype := h "type"
  rw [attribute?_of_notMem hes (mt (Kind.eq_element_of_mem (.inl rfl)) hke),
    attribute?_of_notMem hfs (mt (Kind.eq_element_of_mem (.inl rfl)) hle)] at htype
  have hcell := h "cell_type"
  rw [attribute?_of_notMem hes k.cell_type_notMem,
    attribute?_of_notMem hfs l.cell_type_notMem] at hcell
  exact Kind.eq_of_words k hk l hl hke hle (eq_of_equalOrAbsent_words htype)
    (eq_of_equalOrAbsent_words hcell)

/-- The views of two nodes of one kind are equal if the nodes are, as long as that is so of what
their fields hold. -/
theorem plain_equals_plain_node (hes : FieldType.Admits (.node k) (.node k es))
    (hfs : FieldType.Admits (.node k) (.node k fs))
    (hfields : ∀ e ∈ es, ∀ w, (k.declared e.1).Admits w → e.2.plain.equals w.plain = e.2.equals w) :
    (Value.node k es).plain.equals (Value.node k fs).plain =
      (Value.node k es).equals (.node k fs) := by
  by_cases hk : k = .stopSignal
  · subst hk
    rw [plain, plain]
  rw [Bool.eq_iff_iff, views_equal_iff hk hk hes hfs, node_equals_iff hes hfs]
  refine forall_congr' fun name => ?_
  -- a declared name is compared by its field; the words of the class agree, and nothing else is
  -- shown
  by_cases hname : name ∈ k.fields.map Prod.fst
  · obtain ⟨v, hv, hmem, -⟩ := exists_field hes hname
    obtain ⟨w, hw, -, hadmits⟩ := exists_field hfs hname
    rw [attribute?_node, attribute?_node, hv, hw, Option.some_or, Option.some_or,
      Option.bind_some, Option.bind_some, equalOrAbsent_shown_iff (hfields _ hmem w hadmits),
      EqualOrAbsent, Option.rel_some_some]
  · rw [attribute?_of_notMem hes hname, attribute?_of_notMem hfs hname,
      lookup_eq_none_of_notMem (names_eq hes ▸ hname),
      lookup_eq_none_of_notMem (names_eq hfs ▸ hname)]
    exact ⟨fun _ => .none, fun _ => equalOrAbsent_words⟩

/-- An integer is its own plain form. -/
theorem plain_eq_of_integer? {v : Value} {n : Int} (h : v.integer? = some n) : v.plain = v := by
  cases v with
  | bool b => exact (IsData.bool b).plain_eq
  | int n => exact (IsData.int n).plain_eq
  | _ => cases h

/-- Only null has null for its plain form. -/
theorem plain_eq_null_iff {v : Value} : v.plain = null ↔ v = null := by
  cases v with
  | node k fields =>
    by_cases hk : k = .stopSignal
    · rw [hk, plain]
    · rw [plain_eq_view hk]
      exact iff_of_false Value.noConfusion Value.noConfusion
  | _ => simp [plain]

/-- The views of sequences are equal if the sequences are, as long as that is so of their items. -/
theorem equalsAll_plainAll {xs ys : List Value}
    (h : ∀ x ∈ xs, ∀ y ∈ ys, x.plain.equals y.plain = x.equals y) :
    equalsAll (plainAll xs) (plainAll ys) = equalsAll xs ys := by
  induction xs generalizing ys with
  | nil => cases ys <;> simp only [plainAll, equalsAll]
  | cons x xs ih =>
    cases ys with
    | nil => simp only [plainAll, equalsAll]
    | cons y ys =>
      have htail := ih fun x' hx' y' hy' =>
        h x' (List.mem_cons_of_mem _ hx') y' (List.mem_cons_of_mem _ hy')
      rw [plainAll, plainAll, equalsAll, equalsAll, htail,
        h x List.mem_cons_self y List.mem_cons_self]

/-- Two values of one type are equal if their views are. -/
theorem plain_equals_plain {t : FieldType} {v w : Value} (hv : t.Admits v) (hw : t.Admits w) :
    v.plain.equals w.plain = v.equals w := by
  induction hv generalizing w with
  | text s =>
    cases hw with
    | text s' => rw [(IsData.text s).plain_eq, (IsData.text s').plain_eq]
  | integer hn =>
    cases hw with
    | integer hm => rw [plain_eq_of_integer? hn, plain_eq_of_integer? hm]
  | mapping hdata =>
    cases hw with
    | mapping hdata' => rw [hdata.plain_eq, hdata'.plain_eq]
  | list _ ih =>
    cases hw with
    | list hys =>
      rw [plain, plain, equals, equals]
      exact equalsAll_plainAll fun x hx y hy => ih x hx (hys y hy)
  | node hnames hfields ih =>
    cases hw with
    | node hnames' hfields' =>
      exact plain_equals_plain_node (.node hnames hfields) (.node hnames' hfields')
        fun e he w hw => ih e he hw
  | @tree k v hk hv ih =>
    cases hw with
    | @tree l w hl hw =>
      by_cases hkl : k = l
      · exact ih (hkl ▸ hw)
      -- nodes of different kinds: neither they nor their views are equal
      cases hv with
      | node hnames hfields =>
        cases hw with
        | node hnames' hfields' =>
          have hviews := mt (kind_eq_of_views hk hl (.node hnames hfields)
            (.node hnames' hfields')) hkl
          rw [eq_false_of_ne_true hviews, equals, beq_eq_false_iff_ne.mpr hkl, Bool.false_and]
  | null =>
    rw [(IsData.null).plain_eq, Bool.eq_iff_iff, null_equals_iff, null_equals_iff,
      plain_eq_null_iff]
  | present hv ih =>
    cases hw with
    | null =>
      rw [(IsData.null).plain_eq, Bool.eq_iff_iff, equals_null_iff, equals_null_iff,
        plain_eq_null_iff]
    | present hw => exact ih hw

/-- A view tells the tree it is of: trees whose fields hold what they are declared to hold have
equal views only if they are of one kind and equal. -/
theorem tree_views_equal_iff (hx : FieldType.tree.Admits (.node k es))
    (hy : FieldType.tree.Admits (.node l fs)) :
    (Value.node k es).plain.equals (Value.node l fs).plain = true ↔
      k = l ∧ (Value.node k es).equals (.node l fs) = true := by
  rw [plain_equals_plain hx hy]
  refine ⟨fun h => ⟨?_, h⟩, And.right⟩
  rw [equals, Bool.and_eq_true, beq_iff_eq] at h
  exact h.1

end

/-- A raw cell with one child. -/
def rawCell (content : Value) : Value :=
  .node .rawCell [("children", .list [content]), ("metadata", .record []), ("data", .null),
    ("position", .null)]

/-- The text of a raw cell. -/
def rawText (source : String) : Value :=
  .node .raw [("value", .text source), ("data", .null), ("position", .null)]

/-- An element that has the type of the text of a raw cell, and the same text. -/
def rawElement (source : String) : Value :=
  .node .element [("type", .text "raw"), ("children", .null), ("value", .text source),
    ("attributes", .record []), ("extra", .record []), ("data", .null), ("position", .null)]

section

variable (source : String)

/-- A raw cell is admitted when its content is. -/
theorem admits_rawCell {content : Value} (h : FieldType.tree.Admits content) :
    FieldType.tree.Admits (rawCell content) := by
  refine .tree (k := .rawCell) (by decide) (.node rfl ?_)
  simp only [List.forall_mem_cons]
  exact ⟨.list (by simpa using h), .mapping isData_record_nil, .null, .null, by simp⟩

/-- A raw cell with a text is admitted. -/
theorem admits_rawText : FieldType.tree.Admits (rawText source) := by
  refine .tree (k := .raw) (by decide) (.node rfl ?_)
  simp only [List.forall_mem_cons]
  exact ⟨.text source, .null, .null, by simp⟩

/-- A raw cell with an element is admitted. -/
theorem admits_rawElement : FieldType.tree.Admits (rawElement source) := by
  refine .tree (k := .element) (by decide) (.node rfl ?_)
  simp only [List.forall_mem_cons]
  exact ⟨.text "raw", .null, .present (.text source), .mapping isData_record_nil,
    .mapping isData_record_nil, .null, .null, by simp⟩

end

/-- The view of a cell tells whether its text is in a node for such text or in an element with the
type of one. -/
theorem tree_views_equal_iff_rawElement :
    FieldType.tree.Admits (rawCell (rawText "x")) ∧
      FieldType.tree.Admits (rawCell (rawElement "x")) ∧
      (rawCell (rawText "x")).plain.equals (rawCell (rawElement "x")).plain = false := by
  have htext := admits_rawCell (admits_rawText "x")
  have helement := admits_rawCell (admits_rawElement "x")
  refine ⟨htext, helement, eq_false_of_ne_true fun h => ?_⟩
  have hequal := ((tree_views_equal_iff htext helement).mp h).2
  have hdiffer : (rawCell (rawText "x")).equals (rawCell (rawElement "x")) = false := by
    decide +kernel
  exact Bool.false_ne_true (hdiffer.symm.trans hequal)

end Value

end NotebookTree
