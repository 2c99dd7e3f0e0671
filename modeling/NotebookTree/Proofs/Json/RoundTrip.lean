import NotebookTree.Proofs.Json.Lexing
import NotebookTree.Proofs.Value.Plain

/-!
# Written trees read back

The lexemes of a value are put together to that value again, inside whatever brackets are open. As a
text is cut into lexemes in one way however its items are set apart, a tree reads back from its
JSON text with any indentation as what it is shown as.

## Main definitions

* `ReadsBack`: the lexemes of a value are put together to that value.

## Main results

* `readsBack_plain`: what a value with a form in JSON is shown as reads back.
* `read_json`: a tree reads back from its JSON text.
-/

namespace NotebookTree.Json

open Value (HasJson)

/-- The lexemes of a value are put together to that value, inside whatever brackets are open. -/
def ReadsBack (v : Value) : Prop :=
  ∀ (stack : List Frame) (rest : List Lexeme),
    (lexemes v ++ rest).foldlM build (stack, .value) = rest.foldlM build (afterValue stack v)

section

variable {state next : State} {l : Lexeme} {ls : List Lexeme}

/-- One lexeme that is taken leaves the others. -/
theorem foldlM_build_of_step (h : build state l = .ok next) :
    (l :: ls).foldlM build state = ls.foldlM build next := by
  rw [List.foldlM_cons, h]
  rfl

end

/-! ## Scalars -/

/-- What is written as one word or number is read back when that is. -/
theorem readsBack_scalar {cs : List Char} {v : Value} (hlexemes : lexemes v = [.scalar cs])
    (hread : readScalar cs = .ok v) : ReadsBack v := by
  intro stack rest
  have hstep : build (stack, .value) (.scalar cs) = .ok (afterValue stack v) := by
    rw [build, startValue, hread]
    rfl
  rw [hlexemes, List.singleton_append, foldlM_build_of_step hstep]

/-- A text is read back. -/
theorem readsBack_text (s : String) : ReadsBack (.text s) := by
  intro stack rest
  have hstep : build (stack, .value) (.text s.toList) = .ok (afterValue stack (.text s)) := by
    rw [build, startValue, String.ofList_toList]
  rw [lexemes, List.singleton_append, foldlM_build_of_step hstep]

/-! ## Lists -/

/-- No value starts with a closing bracket, so a value is read where a bracket might close. -/
theorem foldlM_build_valueOrClose (v : Value) (stack : List Frame) (rest : List Lexeme) :
    (lexemes v ++ rest).foldlM build (.list [] :: stack, .valueOrClose) =
      (lexemes v ++ rest).foldlM build (.list [] :: stack, .value) := by
  cases v with
  | bool b => cases b <;> rfl
  | _ => rfl

/-- The items of an open list are read up to its bracket. -/
theorem foldlM_build_items {x : Value} {xs : List Value} (hxs : ∀ y ∈ x :: xs, ReadsBack y)
    (done : List Value) (stack : List Frame) (rest : List Lexeme) :
    ([.comma].intercalate (lexemesOfItems (x :: xs)) ++ .closeList :: rest).foldlM build
        (.list done :: stack, .value) =
      rest.foldlM build (afterValue stack (.list (done.reverse ++ x :: xs))) := by
  induction xs generalizing x done with
  | nil =>
    -- the last item is closed, every other one is followed by a comma
    have hclose : build (.list done :: stack, .separator x) .closeList =
      .ok (afterValue stack (.list (x :: done).reverse)) := rfl
    rw [lexemesOfItems, lexemesOfItems, List.intercalate_singleton, hxs x List.mem_cons_self,
      afterValue, foldlM_build_of_step hclose, List.reverse_cons]
  | cons y ys ih =>
    have hcomma : build (.list done :: stack, .separator x) .comma =
      .ok (.list (x :: done) :: stack, .value) := rfl
    have htail := ih (x := y) (fun z hz => hxs z (List.mem_cons_of_mem _ hz)) (x :: done)
    rw [lexemesOfItems, lexemesOfItems, List.intercalate_cons_cons, ← lexemesOfItems,
      List.append_assoc, List.append_assoc, hxs x List.mem_cons_self, afterValue,
      List.singleton_append, foldlM_build_of_step hcomma, htail]
    simp

/-- The lexemes of a list with an item begin with those of the item. -/
theorem exists_intercalate_items (x : Value) (xs : List Value) :
    ∃ tail, [Lexeme.comma].intercalate (lexemesOfItems (x :: xs)) = lexemes x ++ tail := by
  cases xs with
  | nil => exact ⟨[], by rw [List.append_nil]; exact List.intercalate_singleton⟩
  | cons y ys =>
    refine ⟨[.comma] ++ [Lexeme.comma].intercalate (lexemesOfItems (y :: ys)), ?_⟩
    rw [lexemesOfItems, lexemesOfItems, List.intercalate_cons_cons, List.append_assoc]

/-- A list is read back when its items are. -/
theorem readsBack_list {xs : List Value} (hxs : ∀ x ∈ xs, ReadsBack x) : ReadsBack (.list xs) := by
  intro stack rest
  have hopen : build (stack, .value) .openList = .ok (.list [] :: stack, .valueOrClose) := rfl
  rw [lexemes, List.append_assoc, List.cons_append, foldlM_build_of_step hopen]
  cases xs with
  | nil => rfl
  | cons x xs =>
    obtain ⟨tail, htail⟩ := exists_intercalate_items x xs
    have hitems := foldlM_build_items hxs [] stack rest
    rw [htail, List.append_assoc] at hitems ⊢
    rw [foldlM_build_valueOrClose]
    exact hitems

/-! ## Records -/

/-- An entry is read as its name and its value. -/
theorem foldlM_build_entry {v : Value} (hv : ReadsBack v) (name : String) (done : Entries Value)
    (stack : List Frame) (rest : List Lexeme) :
    (.text name.toList :: .colon :: lexemes v ++ rest).foldlM build (stack, .name done) =
      rest.foldlM build (.record done name :: stack, .separator v) := by
  have hname : build (stack, .name done) (.text name.toList) = .ok (stack, .colon done name) := by
    rw [build, String.ofList_toList]
  have hcolon : build (stack, .colon done name) .colon =
    .ok (.record done name :: stack, .value) := rfl
  rw [List.cons_append, List.cons_append, foldlM_build_of_step hname, foldlM_build_of_step hcolon,
    hv]
  rfl

/-- The entries of an open record are read up to its bracket. -/
theorem foldlM_build_entries {e : String × Value} {es : Entries Value}
    (hes : ∀ f ∈ e :: es, ReadsBack f.2) (done : Entries Value) (stack : List Frame)
    (rest : List Lexeme) :
    ([.comma].intercalate (lexemesOfEntries (e :: es)) ++ .closeRecord :: rest).foldlM build
        (stack, .name done) =
      rest.foldlM build
        (afterValue stack (.record (Entries.putAll [] (done.reverse ++ e :: es)))) := by
  induction es generalizing e done with
  | nil =>
    have hclose : build (.record done e.1 :: stack, .separator e.2) .closeRecord =
      .ok (afterValue stack (closeEntries (e :: done))) := rfl
    rw [lexemesOfEntries, lexemesOfEntries, List.intercalate_singleton,
      foldlM_build_entry (hes e List.mem_cons_self), foldlM_build_of_step hclose, closeEntries,
      List.reverse_cons]
  | cons e' es ih =>
    -- the entries that are done stay on the stack, latest first, until the record is closed
    have hcomma : build (.record done e.1 :: stack, .separator e.2) .comma =
      .ok (stack, .name (e :: done)) := rfl
    have htail := ih (e := e') (fun f hf => hes f (List.mem_cons_of_mem _ hf)) (e :: done)
    rw [lexemesOfEntries, lexemesOfEntries, List.intercalate_cons_cons, ← lexemesOfEntries,
      List.append_assoc, List.append_assoc, foldlM_build_entry (hes e List.mem_cons_self),
      List.singleton_append, foldlM_build_of_step hcomma, htail]
    simp

/-- A name is read where a bracket might close. -/
theorem foldlM_build_nameOrClose (name : List Char) (stack : List Frame) (rest : List Lexeme) :
    (.text name :: rest).foldlM build (.record [] "" :: stack, .nameOrClose) =
      (.text name :: rest).foldlM build (stack, .name []) := rfl

/-- The lexemes of a record with an entry begin with its name. -/
theorem exists_intercalate_entries (e : String × Value) (es : Entries Value) :
    ∃ tail, [Lexeme.comma].intercalate (lexemesOfEntries (e :: es)) = .text e.1.toList :: tail := by
  cases es with
  | nil => exact ⟨_, List.intercalate_singleton⟩
  | cons e' es => exact ⟨_, List.intercalate_cons_cons⟩

/-- A record with distinct names is read back when its values are. -/
theorem readsBack_record {es : Entries Value} (hnames : (es.map Prod.fst).Nodup)
    (hes : ∀ e ∈ es, ReadsBack e.2) : ReadsBack (.record es) := by
  intro stack rest
  have hopen : build (stack, .value) .openRecord = .ok (.record [] "" :: stack, .nameOrClose) := rfl
  rw [lexemes, List.append_assoc, List.cons_append, foldlM_build_of_step hopen]
  cases es with
  | nil => rfl
  | cons e es =>
    obtain ⟨tail, htail⟩ := exists_intercalate_entries e es
    have hentries := foldlM_build_entries hes [] stack rest
    rw [htail, List.cons_append] at hentries ⊢
    rw [foldlM_build_nameOrClose]
    refine hentries.trans ?_
    rw [List.reverse_nil, List.nil_append, Entries.putAll_of_nodup hnames, List.nil_append]

/-! ## Trees -/

/-- What a value with a form in JSON is shown as reads back. -/
theorem readsBack_plain {v : Value} (h : HasJson v) : ReadsBack v.plain := by
  induction h with
  | null => exact readsBack_scalar rfl rfl
  | bool b => cases b <;> exact readsBack_scalar rfl rfl
  | int hn => exact readsBack_scalar rfl (readScalar_int hn)
  | float hx => exact readsBack_scalar rfl (readScalar_writeFloat hx)
  | text s => exact readsBack_text s
  | list _ ih =>
    rw [Value.plain, Value.plainAll_eq_map]
    exact readsBack_list (List.forall_mem_map.mpr ih)
  | tuple _ ih =>
    rw [Value.plain, Value.plainAll_eq_map]
    exact readsBack_list (List.forall_mem_map.mpr ih)
  | record hnames _ ih =>
    rw [Value.plain, Value.plainEntries_eq_map]
    refine readsBack_record ?_ (List.forall_mem_map.mpr ih)
    rw [List.map_map]
    exact hnames
  -- a node is written as the record of its plain form
  | node hk hwords _ ih =>
    obtain ⟨es, hplain, hnames, hes⟩ := Value.plain_node hk hwords
    rw [hplain]
    refine readsBack_record hnames fun e he => ?_
    obtain ⟨s, hs⟩ | ⟨f, hf, hplain⟩ := hes e he
    · exact hs ▸ readsBack_text s
    · exact hplain ▸ ih f hf

/-- What reads back, reads back from its text with any indentation. -/
theorem read_write {v : Value} (h : ReadsBack v) (indent : Option Int) :
    read (write indent v).toList = .ok v := by
  have hcut := cutsTo_writeAt (.ofIndent indent) 0 v [] [] stops_nil
  have hbuild := h [] []
  rw [List.append_nil] at hcut hbuild
  rw [read, write, String.toList_ofList, hcut, List.append_nil, lexFrom, List.reverse_reverse,
    hbuild]
  rfl

/-- A tree reads back from its JSON text with any indentation as what it is shown as. -/
theorem read_json {k : Kind} {fields : Entries Value} (h : HasJson (.node k fields))
    (indent : Option Int) : ∃ text, (Value.node k fields).json indent = .ok text ∧
      read text.toList = .ok (Value.node k fields).plain := by
  refine ⟨write indent (Value.node k fields).plain, ?_, read_write (readsBack_plain h) indent⟩
  cases h with
  | node hk => rw [Value.json]; exact hk

/-- A cell with data of many sorts: a tenth, the least of all infinities, and a text with marks, a
control character and a letter outside ASCII. -/
def sampleCell : Value :=
  .node .codeCell
    [("children", .list [.node .raw [("value", .text "a\"\\\x01é")]]),
     ("execution_count", .int (-3)),
     ("metadata", .record [("tags", .tuple [.bool true, .null, .float ⟨4591870180066957722⟩]),
       ("least", .float (Double.infinity true)), ("none", .record [])]),
     ("data", .null)]

example : (sampleCell.json none).toOption = some (
    "\x7b\"type\": \"cell\", \"cell_type\": \"code\", " ++
    "\"children\": [\x7b\"type\": \"raw\", \"value\": \"a\\\"\\\\\\u0001é\"\x7d], " ++
    "\"execution_count\": -3, \"metadata\": \x7b\"tags\": [true, null, 0.1], " ++
    "\"least\": -Infinity, \"none\": \x7b\x7d\x7d\x7d") := by decide +kernel

/-- A cell of code that is written with an indent of two is read back. -/
theorem read_json_sample :
    ∃ text, sampleCell.json (some 2) = .ok text ∧ read text.toList = .ok sampleCell.plain := by
  have hraw : HasJson (.node .raw [("value", .text "a\"\\\x01é")]) :=
    .node (by decide) (by simp) (by simpa using HasJson.text _)
  have htags : HasJson (.tuple [.bool true, .null, .float ⟨4591870180066957722⟩]) := by
    refine .tuple ?_
    simpa using ⟨HasJson.bool true, HasJson.null,
      HasJson.float (x := ⟨4591870180066957722⟩) (by decide)⟩
  have hmetadata : HasJson (.record
      [("tags", .tuple [.bool true, .null, .float ⟨4591870180066957722⟩]),
       ("least", .float (Double.infinity true)), ("none", .record [])]) := by
    refine .record (by decide) ?_
    simpa using ⟨htags, HasJson.float (x := Double.infinity true) (by decide),
      (.record List.nodup_nil (by simp) : HasJson (.record []))⟩
  refine read_json (.node (by decide) (by simp) ?_) (some 2)
  simpa using ⟨.list (by simpa using hraw), .int (by decide), hmetadata, .null⟩

end NotebookTree.Json
