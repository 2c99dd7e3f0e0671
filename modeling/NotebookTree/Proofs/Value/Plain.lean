import NotebookTree.Json.Reader
import NotebookTree.Proofs.Entries
import NotebookTree.Value.Plain

/-!
# Trees as free-form data

## Main definitions

* `Value.HasJson`: the values that JSON has a form for, among them the trees with such data.

## Main results

* `plain_node`: a node is shown as a record in which each name stands once, and in which there are
  words and what its fields are shown as.
-/

namespace NotebookTree.Value

/-- A value has a form in JSON: its numbers are numbers and not too long, and its names are distinct.
Of a node this is asked of what its fields hold. What stands in the place of a word is a text. -/
inductive HasJson : Value → Prop
  | null : HasJson .null
  | bool (b : Bool) : HasJson (.bool b)
  | int {n : Int} (hn : (Nat.toDigits 10 n.natAbs).length ≤ Json.digitLimit) : HasJson (.int n)
  | float {x : Double} (hx : x.isNaN = false) : HasJson (.float x)
  | text (s : String) : HasJson (.text s)
  | list {xs : List Value} (hxs : ∀ x ∈ xs, HasJson x) : HasJson (.list xs)
  | tuple {xs : List Value} (hxs : ∀ x ∈ xs, HasJson x) : HasJson (.tuple xs)
  | record {es : Entries Value} (hnames : (es.map Prod.fst).Nodup) (hes : ∀ e ∈ es, HasJson e.2) :
      HasJson (.record es)
  | node {k : Kind} {fields : Entries Value} (hk : k ≠ .stopSignal)
      (hwords : ∀ f ∈ fields, f.1 = "type" ∨ f.1 = "cell_type" → ∃ s, f.2 = .text s)
      (hfields : ∀ f ∈ fields, HasJson f.2) : HasJson (.node k fields)

/-- Plain lists are lists of plain items. -/
theorem plainAll_eq_map (xs : List Value) : plainAll xs = xs.map plain := by
  induction xs with
  | nil => rfl
  | cons x xs ih => rw [plainAll, ih, List.map_cons]

/-- Plain records have plain values under the names that they had. -/
theorem plainEntries_eq_map (es : Entries Value) :
    plainEntries es = es.map fun e => (e.1, plain e.2) := by
  induction es with
  | nil => rfl
  | cons e es ih => rw [plainEntries, ih, List.map_cons]

/-- What stands among the plain fields is the plain form of a field. -/
theorem exists_of_mem_plainFields {names : List String} {fields : Entries Value}
    {e : String × Value} (h : e ∈ plainFields names fields) : ∃ f ∈ fields, e.2 = plain f.2 := by
  induction fields with
  | nil => cases h
  | cons f fields ih =>
    rw [plainFields] at h
    split at h
    · obtain ⟨f', hf', he⟩ := ih h
      exact ⟨f', List.mem_cons_of_mem _ hf', he⟩
    · obtain rfl | h := List.mem_cons.mp h
      · exact ⟨f, List.mem_cons_self, rfl⟩
      · obtain ⟨f', hf', he⟩ := ih h
        exact ⟨f', List.mem_cons_of_mem _ hf', he⟩

/-- The words of kinds are texts. -/
theorem exists_text_of_kindAttribute? {k : Kind} {name : String} {w : Value}
    (h : kindAttribute? k name = some w) : ∃ s, w = .text s := by
  unfold kindAttribute? at h
  split at h
  · obtain ⟨s, -, rfl⟩ := Option.map_eq_some_iff.mp h
    exact ⟨s, rfl⟩
  split at h
  · obtain ⟨s, -, rfl⟩ := Option.map_eq_some_iff.mp h
    exact ⟨s, rfl⟩
  split at h
  · exact ⟨_, (Option.some.inj h).symm⟩
  split at h
  · exact ⟨_, (Option.some.inj h).symm⟩
  · cases h

section

variable {k : Kind} {fields : Entries Value} {name : String} {e : String × Value}

/-- The entry for a word of the class is there with the word, or is not there at all. -/
theorem wordEntry_cases (v : Value) (name : String) :
    wordEntry v name = [] ∨ ∃ w, v.attribute? name = some w ∧ wordEntry v name = [(name, w)] := by
  rw [wordEntry]
  split
  · exact .inl rfl
  · exact .inl rfl
  · rename_i w _ hw
    exact .inr ⟨w, hw, rfl⟩

/-- Where what stands in the place of a word is a text, the word is a text. -/
theorem exists_text_of_mem_wordEntry (hname : ∀ f ∈ fields, f.1 = name → ∃ s, f.2 = .text s)
    (h : e ∈ wordEntry (.node k fields) name) : ∃ s, e.2 = .text s := by
  obtain hnone | ⟨w, hw, hentry⟩ := wordEntry_cases (.node k fields) name
  · rw [hnone] at h
    cases h
  rw [hentry] at h
  obtain rfl := List.mem_singleton.mp h
  rw [attribute?] at hw
  split at hw
  · rename_i v hv
    obtain rfl := Option.some.inj hw
    exact hname _ (Entries.mem_of_lookup hv) rfl
  · exact exists_text_of_kindAttribute? hw

/-- The entries for the words of the class have distinct names. -/
theorem nodup_wordEntries (v : Value) :
    ((wordEntry v "type" ++ wordEntry v "cell_type").map Prod.fst).Nodup := by
  obtain htype | ⟨w, -, htype⟩ := wordEntry_cases v "type" <;>
    obtain hcell | ⟨w', -, hcell⟩ := wordEntry_cases v "cell_type" <;>
      simp [htype, hcell]

/-- A node is shown as a record in which each name stands once. Its entries are words and what the
fields of the node are shown as. -/
theorem plain_node (hk : k ≠ .stopSignal)
    (hwords : ∀ f ∈ fields, f.1 = "type" ∨ f.1 = "cell_type" → ∃ s, f.2 = .text s) :
    ∃ es : Entries Value, (Value.node k fields).plain = .record es ∧ (es.map Prod.fst).Nodup ∧
      ∀ e ∈ es, (∃ s, e.2 = .text s) ∨ ∃ f ∈ fields, e.2 = plain f.2 := by
  refine ⟨_, by rw [plain]; exact hk, Entries.nodup_putAll (nodup_wordEntries _), fun e he => ?_⟩
  obtain he | he := Entries.mem_putAll he
  · obtain he | he := List.mem_append.mp he
    · exact .inl (exists_text_of_mem_wordEntry (fun f hf h => hwords f hf (.inl h)) he)
    · exact .inl (exists_text_of_mem_wordEntry (fun f hf h => hwords f hf (.inr h)) he)
  · exact .inr (exists_of_mem_plainFields he)

end

end NotebookTree.Value
