import NotebookTree.Output.Bundle
import NotebookTree.Proofs.Entries
import NotebookTree.Proofs.Output.Stream

/-!
# What is taken out of outputs

An output is asked for the types it offers, and for what it holds for one of them. A display or a
result answers both from its bundle, so that the answers agree: for a type that it offers it gives
the payload, put together from its pieces, and for another nothing. A stream and an error offer a
type without holding anything for it, and to ask them for a payload is a fault, whatever the type.

## Main statements

* `extraction`: both answers, for every output in the tree of a notebook.
* `extraction_fails`: a stream that offers no markup, and cannot be asked for it.
-/

namespace NotebookTree.Output

open Notebook

/-- An output offers a type that is one of those it lists. -/
theorem hasType_of_types {v : Value} {ts : List String} (h : types v = .ok ts) (name : String) :
    hasType v (.text name) = .ok (ts.any fun t => t == name) := by
  have heq : ∀ t : String, (Value.text t).equals (.text name) = (t == name) := by
    intro t
    rw [Bool.eq_iff_iff, Value.equals_text_iff, beq_iff_eq, Value.text.injEq]
  rw [hasType, h, Except.ok_bind]
  simp only [heq]
  rfl

/-- What is held for a type by an output with a bundle. -/
theorem dataOf_of_field {v : Value} {es : Entries Value} (h : v.field "data" = .ok (.record es))
    (name : String) : dataOf v (.text name) =
      .ok (Mime.normalize (.text name) ((Entries.get? es name).getD .null)) := by
  rw [dataOf, h, Except.ok_bind]
  rfl

/-- An output without a bundle cannot be asked for a payload. -/
theorem dataOf_of_field_null {v : Value} (h : v.field "data" = .ok .null) (name : Value) :
    dataOf v name = .error (.noAttribute "NoneType" "get") := by
  rw [dataOf, h, Except.ok_bind]
  rfl

/-- The two answers of an output with a bundle agree. -/
theorem answers_of_bundle {v : Value} {es : Entries Value} (h : v.field "data" = .ok (.record es))
    (htypes : types v = .ok (es.map Prod.fst)) (name : String) :
    (Entries.get? es name = none ∧ hasType v (.text name) = .ok false ∧
        dataOf v (.text name) = .ok .null) ∨
      ∃ payload, Entries.get? es name = some payload ∧ hasType v (.text name) = .ok true ∧
        dataOf v (.text name) = .ok (Mime.normalize (.text name) payload) := by
  have hoffers : hasType v (.text name) = .ok (Entries.get? es name).isSome := by
    rw [hasType_of_types htypes, List.any_map, Entries.get?, ← Entries.has_eq_isSome_lookup]
    rfl
  rw [hoffers, dataOf_of_field h]
  cases Entries.get? es name with
  | none => exact .inl ⟨rfl, rfl, rfl⟩
  | some payload => exact .inr ⟨payload, rfl, rfl, rfl⟩

/-- What every output in the tree of a notebook answers when it is asked whether it offers a type,
and what it holds for it. With a bundle that is a record, the two answers agree. Without a bundle
only the first can be asked for. -/
theorem extraction {files : Folder} {settings : Value} {source : Notebook.Source} {root : Value}
    {log : List Log.Entry} {k : Kind} {fields : Entries Value}
    (hread : (Notebook.read files settings source).outcome = (.ok root, log))
    (hn : Below (.node k fields) root)
    (hk : k ∈ [Kind.stream, .displayData, .executeResult, .error])
    (hbundle : k = .displayData ∨ k = .executeResult →
      ∃ es, Entries.get? fields "data" = some (.record es)) (name : String) :
    (k = .stream ∧ hasType (.node k fields) (.text name) = .ok ("text/plain" == name) ∧
        dataOf (.node k fields) (.text name) = .error (.noAttribute "NoneType" "get")) ∨
      (k = .error ∧
        hasType (.node k fields) (.text name) = .ok ("application/vnd.jupyter.error" == name) ∧
        dataOf (.node k fields) (.text name) = .error (.noAttribute "NoneType" "get")) ∨
      (k = .displayData ∨ k = .executeResult) ∧
        ∃ es, Entries.get? fields "data" = some (.record es) ∧
          ((Entries.get? es name = none ∧ hasType (.node k fields) (.text name) = .ok false ∧
              dataOf (.node k fields) (.text name) = .ok .null) ∨
            ∃ payload, Entries.get? es name = some payload ∧
              hasType (.node k fields) (.text name) = .ok true ∧
              dataOf (.node k fields) (.text name) =
                .ok (Mime.normalize (.text name) payload)) := by
  obtain ⟨output, hof⟩ := exists_outputOf_of_read hread hn hk
  -- streams and errors have no bundle, so asking them for data fails where asking for the type does
  -- not
  cases hof with
  | stream =>
    refine .inl ⟨rfl, ?_, dataOf_of_field_null rfl _⟩
    rw [hasType_of_types rfl, List.any_cons, List.any_nil, Bool.or_false]
  | error =>
    refine .inr (.inl ⟨rfl, ?_, dataOf_of_field_null rfl _⟩)
    rw [hasType_of_types rfl, List.any_cons, List.any_nil, Bool.or_false]
  | @displayData es type =>
    obtain ⟨bundle, hdata⟩ := hbundle (.inl rfl)
    obtain hes : entryOr es "data" (.record []) = .record bundle := Option.some.inj hdata
    refine .inr (.inr ⟨.inl rfl, bundle, hdata, answers_of_bundle ?_ ?_ name⟩)
    · rw [hes]
      rfl
    · rw [hes]
      rfl
  | @executeResult es type =>
    obtain ⟨bundle, hdata⟩ := hbundle (.inr rfl)
    obtain hes : entryOr es "data" (.record []) = .record bundle := Option.some.inj hdata
    refine .inr (.inr ⟨.inr rfl, bundle, hdata, answers_of_bundle ?_ ?_ name⟩)
    · rw [hes]
      rfl
    · rw [hes]
      rfl

/-- The entry for a display with markup in two pieces, and its node. -/
def shownEntry : Value :=
  .record [("output_type", .text "display_data"),
    ("data", .record [("text/html", .list [.text "<b>", .text "1</b>"])])]

/-- The fields of its node. -/
def shownFields : Entries Value :=
  [("data", .record [("text/html", .list [.text "<b>", .text "1</b>"])]), ("metadata", .null),
    ("position", .null)]

/-- The display gives its markup in one piece. -/
theorem extraction_shown :
    ∃ root log, (Notebook.read [] .null (.data (outputNotebook shownEntry))).outcome =
        (.ok root, log) ∧
      Below (.node .displayData shownFields) root ∧
      hasType (.node .displayData shownFields) (.text "text/html") = .ok true ∧
      dataOf (.node .displayData shownFields) (.text "text/html") = .ok (.text "<b>1</b>") := by
  have hreturns : (Notebook.read [] .null
      (.data (outputNotebook shownEntry))).outcome.1.toOption.isSome := by decide +kernel
  have hof : OutputOf shownEntry (.node .displayData shownFields) := .displayData rfl
  obtain ⟨root, log, hread, hn⟩ := exists_read_outputNotebook hof rfl hreturns
  refine ⟨root, log, hread, hn, ?_⟩
  rcases extraction hread hn (by decide) (fun _ => ⟨_, rfl⟩) "text/html" with
    ⟨hk, -⟩ | ⟨hk, -⟩ | ⟨-, bundle, hbundle, h⟩
  · cases hk
  · cases hk
  · obtain rfl := Value.record.inj (Option.some.inj hbundle)
    -- the bundle is known, so of the two cases the one with a payload holds
    obtain ⟨hnone, -⟩ | ⟨payload, hpayload, hoffers, hdata⟩ := h
    · cases hnone
    · obtain rfl := Option.some.inj hpayload
      exact ⟨hoffers, hdata⟩

/-- A stream in a notebook offers no markup, and to ask it for some is a fault. -/
theorem extraction_fails :
    ∃ root log, (Notebook.read [] .null (.data (streamNotebook "stdout" "a"))).outcome =
        (.ok root, log) ∧
      Below (bare .stream [("name", .text "stdout"), ("text", .text "a")]) root ∧
      hasType (bare .stream [("name", .text "stdout"), ("text", .text "a")]) (.text "text/html") =
        .ok false ∧
      dataOf (bare .stream [("name", .text "stdout"), ("text", .text "a")]) (.text "text/html") =
        .error (.noAttribute "NoneType" "get") := by
  have hreturns : (Notebook.read [] .null
      (.data (streamNotebook "stdout" "a"))).outcome.1.toOption.isSome := by decide +kernel
  obtain ⟨root, log, hread, hn⟩ := exists_read_streamNotebook hreturns
  refine ⟨root, log, hread, hn, ?_, rfl⟩
  rw [hasType_of_types rfl, List.any_cons, List.any_nil]
  rfl

end NotebookTree.Output
