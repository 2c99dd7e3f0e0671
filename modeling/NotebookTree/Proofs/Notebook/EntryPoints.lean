import NotebookTree.Notebook.Source
import NotebookTree.Proofs.Json.Reader
import NotebookTree.Proofs.Notebook.Faults
import NotebookTree.Proofs.Telling

/-!
# The ways into a notebook

The same octets may come as they are, from a stream, from a stream of their text, or from a file,
whose lines may end in any way. It makes no difference to the tree, nor to what the work tells; and
where there is no tree, the faults differ at most in the path, which only the fault about a file
tells.

The text of a notebook is another way in: a text that is a record in JSON comes to the same as its
octets, whatever files there are. Any other value is taken for data, so that the text of a text is
the path of a file.

## Main results

* `read_entryPoints`: octets, streams and files agree.
* `readText_entryPoint`: what the text of a notebook comes to.
-/

namespace NotebookTree

/-- The path of a file that a fault tells. -/
def Fault.path? : Fault → Option Value
  | .failure _ _ details _ => Entries.get? details "file_path"
  | _ => none

namespace Notebook

open Logged

/-! ## Faults without a path -/

/-- A fault that tells no path. -/
def Pathless (e : Fault) : Prop := e.path? = none

/-- Misuse tells no path. -/
theorem pathless_of_misuse {e : Fault} (h : e.IsMisuse) : Pathless e := by
  cases e with
  | failure => cases h
  | _ => rfl

/-! ## Octets and their data -/

/-- The data that octets hold. -/
def octetsData (b : ByteArray) : Except Fault Value := (decodeText b).bind Json.read

/-- Whether octets are the text of a record with a list of cells. -/
def HoldNotebook (b : ByteArray) : Prop :=
  ∃ s v, String.fromUTF8? b = some s ∧ Json.read s.toList = .ok v ∧ isNotebook v = true

/-- Octets that are a text are decoded to it. -/
theorem decodeText_of_fromUTF8? {b : ByteArray} {s : String} (h : String.fromUTF8? b = some s) :
    decodeText b = .ok s.toList := by
  rw [decodeText, h]

/-- Octets that are a text hold what the text does. -/
theorem octetsData_of_fromUTF8? {b : ByteArray} {s : String} (h : String.fromUTF8? b = some s) :
    octetsData b = Json.read s.toList := by
  rw [octetsData, decodeText_of_fromUTF8? h]
  rfl

/-- A text is decoded from the octets that it is encoded to. -/
theorem fromUTF8?_toUTF8 (s : String) : String.fromUTF8? s.toUTF8 = some s := by
  unfold String.fromUTF8?
  rw [String.toUTF8_eq_toByteArray, dif_pos s.isValidUTF8]
  rfl

/-- Octets with data are the text of it. -/
theorem exists_text_of_octetsData {b : ByteArray} {v : Value} (h : octetsData b = .ok v) :
    ∃ s, String.fromUTF8? b = some s ∧ Json.read s.toList = .ok v := by
  unfold octetsData decodeText at h
  cases hs : String.fromUTF8? b with
  | none => rw [hs] at h; cases h
  | some s => rw [hs] at h; exact ⟨s, rfl, h⟩

/-- What keeps octets from having data: they are not text, or their text is not JSON, or it has an
integer of too many digits. -/
theorem fault_of_octetsData {b : ByteArray} {e : Fault} (h : octetsData b = .error e) :
    e = .notUtf8 ∨ Json.IsReadFault e := by
  unfold octetsData decodeText at h
  split at h
  · exact .inr (Json.isReadFault_of_read h)
  · exact .inl (Except.error.inj h).symm

/-- The data in a file, whatever ends its lines. -/
theorem fileData_eq_octetsData {files : Folder} {path : String} {b : ByteArray}
    (h : files.find path = .ok b) : fileData files path = octetsData b := by
  rw [fileData, h, octetsData, Except.ok_bind]
  cases hb : decodeText b with
  | ok cs => exact Json.read_unifyLineEnds cs
  | error e => rfl

/-- On a stack with room for its brackets, a file has the data that it has. -/
theorem fileDataWithin_eq {files : Folder} {path : String} {nesting : Nat}
    (h : fileDataWithin nesting files path ≠ .error .tooDeep) :
    fileDataWithin nesting files path = fileData files path := by
  rw [fileDataWithin] at h ⊢
  rw [fileData]
  cases hfind : files.find path with
  | error e => rfl
  | ok octets =>
    rw [hfind, Except.ok_bind] at h
    rw [Except.ok_bind, Except.ok_bind]
    cases htext : decodeText octets with
    | error e => rfl
    | ok cs =>
      rw [htext, Except.ok_bind] at h
      exact Json.readWithin_eq_read h

/-- Data that there was room for is that of the file. -/
theorem fileData_of_within {files : Folder} {path : String} {nesting : Nat} {v : Value}
    (h : fileDataWithin nesting files path = .ok v) : fileData files path = .ok v := by
  have hroom : fileDataWithin nesting files path ≠ .error .tooDeep := by
    rw [h]
    exact nofun
  rw [← fileDataWithin_eq hroom, h]

/-! ## Octets, streams and files -/

/-- The failure about data that is not a record with a list of cells. -/
def noCells (path : Option String) : Fault :=
  .failure .malformedFile "Invalid notebook format: 'cells' key is missing or not a list."
    (pathDetail path) none

/-- Two results of which only the second may tell the path, and otherwise they are the same: the
same tree, the same fault without a path, or failures of the same kind with the same message and
cause. -/
inductive SameButPath (path : String) : Except Fault Value → Except Fault Value → Prop
  | tree (root : Value) : SameButPath path (.ok root) (.ok root)
  | fault {e : Fault} (h : Pathless e) : SameButPath path (.error e) (.error e)
  | located (kind : FailureKind) (message : String) (cause : Option Fault) :
    SameButPath path (.error (.failure kind message [] cause))
      (.error (.failure kind message [("file_path", .text path)] cause))

/-- What cannot be read is reported alike, but for the path. -/
theorem sameButPath_contentFailure {path : String} {b : ByteArray} {e : Fault}
    (h : octetsData b = .error e) :
    SameButPath path (.error (contentFailure none e)) (.error (contentFailure (some path) e)) := by
  obtain rfl | rfl | ⟨count, rfl⟩ := fault_of_octetsData h
  · exact .located _ _ _
  · exact .located _ _ _
  · exact .fault rfl

section Engine

variable [Markdown.Engine]

/-- Whatever an engine refuses a source for, the failure is about Markdown and tells no path. -/
theorem faultsIn_parse (source settings : Value) :
    FaultsIn Pathless (Markdown.parse source settings) := by
  refine faultsIn_bind (faultsIn_ofExcept fun e h => ?_) fun extensions =>
    faultsIn_bind (faultsIn_ofExcept fun e h => ?_) fun tokens =>
      faultsIn_bind (faultsIn_tell _) fun _ => faultsIn_pure _
  · exact pathless_of_misuse (Markdown.misuse_extensionsFor settings e h)
  · cases htokens : Markdown.Engine.tokens extensions source with
    | ok ts => rw [htokens] at h; cases h
    | error cause =>
      rw [htokens] at h
      exact Except.error.inj h ▸ rfl

/-- Reading the Markdown of a cell tells no path. -/
theorem faultsIn_markdownContent (settings : Value) (source : String) :
    FaultsIn Pathless (markdownContent settings source) := by
  have hfield : ∀ name, FaultsIn Pathless (Logged.ofExcept (settings.field name)) :=
    fun name => faultsIn_ofExcept fun e h => pathless_of_misuse (settings.misuse_field name e h)
  refine faultsIn_bind (hfield "parse_markdown") fun flag => ?_
  split
  · exact faultsIn_pure _
  · exact faultsIn_bind (hfield "markdown_options") fun _ =>
      faultsIn_bind (faultsIn_parse _ _) fun _ => faultsIn_pure _

/-- No fault of the conversion tells a path, wherever the notebook has come from. -/
theorem faultsIn_convert (settings : Value) {v : Value} (hv : isNotebook v = true) :
    FaultsIn Pathless (convert settings v) := by
  obtain ⟨es, entries, rfl, hcells⟩ := exists_of_isNotebook hv
  intro before e after h
  rcases (endsIn_convert (fun _ _ source _ => faultsIn_markdownContent settings source)
    hcells).faults before e after h with
    hmisuse | hpathless
  · exact pathless_of_misuse hmisuse.1
  · exact hpathless

/-- Making the tree of a notebook tells no path, so it is the same from a file. -/
theorem sameButPath_convert (path : String) (options : Value) {v : Value}
    (hv : isNotebook v = true) :
    SameButPath path (convert options v).outcome.1 (convert options v).outcome.1 := by
  rcases h : (convert options v).outcome with ⟨root | e, log⟩
  · exact .fault (faultsIn_convert options hv [] _ _ h)
  · exact .tree _

/-- What the content of a notebook comes to, with the path that it has come from. -/
def contentOutcome (options : Value) (path : Option String) :
    Except Fault Value → Except Fault Value × List Log.Entry
  | .ok v => if isNotebook v then (convert options v).outcome else (.error (noCells path), [])
  | .error e => (.error (contentFailure path e), [])

variable {files : Folder} {settings options : Value}

/-- Of all that a notebook comes from, only its content and the path make a difference. -/
theorem outcome_read_of_content {source : Source} {path : Option String}
    {data : Except Fault Value} (hoptions : settingsFor settings = .ok options)
    (hdata : dataOf files source = (data.map (·, path)).mapError (contentFailure path)) :
    (read files settings source).outcome = contentOutcome options path data := by
  rw [read, hoptions, ofExcept_ok_bind, hdata]
  cases data with
  | error e => rfl
  | ok v =>
    show (ofExcept (.ok (v, path)) >>= _).outcome = _
    rw [ofExcept_ok_bind, contentOutcome]
    cases hv : isNotebook v with
    | true => simp [hv]
    | false =>
      simp only [hv]
      rfl

/-- Octets are read for what they hold. -/
theorem outcome_read_octets (b : ByteArray) (hoptions : settingsFor settings = .ok options) :
    (read files settings (.octets b)).outcome = contentOutcome options none (octetsData b) :=
  outcome_read_of_content hoptions rfl

/-- A stream of octets is read for what they hold. -/
theorem outcome_read_stream (b : ByteArray) (hoptions : settingsFor settings = .ok options) :
    (read files settings (.stream (.octets b))).outcome =
      contentOutcome options none (octetsData b) :=
  outcome_read_of_content hoptions rfl

/-- A stream of text is read for what the octets of the text hold. -/
theorem outcome_read_textStream {b : ByteArray} {s : String} (hs : String.fromUTF8? b = some s)
    (hoptions : settingsFor settings = .ok options) :
    (read files settings (.stream (.text s))).outcome =
      contentOutcome options none (octetsData b) := by
  rw [octetsData_of_fromUTF8? hs]
  exact outcome_read_of_content hoptions rfl

/-- A file is read for what its octets hold, and its path is told. -/
theorem outcome_read_file {path : String} {b : ByteArray} (hfile : files.find path = .ok b)
    (hoptions : settingsFor settings = .ok options) :
    (read files settings (.data (.text path))).outcome =
      contentOutcome options (some path) (octetsData b) := by
  rw [← fileData_eq_octetsData hfile]
  exact outcome_read_of_content hoptions rfl

/-- Content that has come from a file makes a difference in the path of its faults only. -/
theorem contentOutcome_located (options : Value) (path : String) (b : ByteArray) :
    (contentOutcome options (some path) (octetsData b)).2 =
        (contentOutcome options none (octetsData b)).2 ∧
      SameButPath path (contentOutcome options none (octetsData b)).1
        (contentOutcome options (some path) (octetsData b)).1 := by
  cases hdata : octetsData b with
  | error e => exact ⟨rfl, sameButPath_contentFailure hdata⟩
  | ok v =>
    by_cases hv : isNotebook v = true
    · simp only [contentOutcome, hv, if_true]
      exact ⟨trivial, sameButPath_convert path options hv⟩
    · simp only [contentOutcome, hv]
      exact ⟨rfl, .located _ _ _⟩

/-- Content that is no notebook is malformed, whether or not it has come from a file. -/
theorem contentOutcome_malformed {b : ByteArray} (options : Value) (h : ¬ HoldNotebook b)
    (hdigits : ∀ count, octetsData b ≠ .error (Json.tooManyDigits count)) :
    ∃ message cause, ∀ path, contentOutcome options path (octetsData b) =
      (.error (.failure .malformedFile message (pathDetail path) cause), []) := by
  -- the octets are no text or no JSON, or the data are no notebook; only too many digits are no
  -- matter of form
  cases hdata : octetsData b with
  | error e =>
    obtain rfl | rfl | ⟨count, rfl⟩ := fault_of_octetsData hdata
    · exact ⟨_, _, fun _ => rfl⟩
    · exact ⟨_, _, fun _ => rfl⟩
    · exact absurd hdata (hdigits count)
  | ok v =>
    obtain ⟨s, hs, hread⟩ := exists_text_of_octetsData hdata
    have hv : ¬ isNotebook v = true := fun hv => h ⟨s, v, hs, hread, hv⟩
    refine ⟨(noCells none).message, none, fun path => ?_⟩
    simp only [contentOutcome, hv]
    rfl

/-- The same octets come to the same as they are, from a stream, from a stream of their text, and
from a file that can be read: to equal trees, or to faults of the same class with the same message
and the same cause, and to the same log entries. Only the fault about the file may tell the path.
Octets that are not the text of a record with a list of cells are malformed, all four ways, unless
they have an integer of too many digits. -/
theorem read_entryPoints {path : String} {b : ByteArray}
    (hoptions : settingsFor settings = .ok options) (hfile : files.find (tidyPath path) = .ok b) :
    ∃ result located log,
      (∀ folder, (read folder settings (.octets b)).outcome = (result, log)) ∧
      (∀ folder, (read folder settings (.stream (.octets b))).outcome = (result, log)) ∧
      (∀ folder s, String.fromUTF8? b = some s →
        (read folder settings (.stream (.text s))).outcome = (result, log)) ∧
      (readAtPath files settings path).outcome = (located, log) ∧
      SameButPath (tidyPath path) result located ∧
      (¬ HoldNotebook b →
        (∀ s count, String.fromUTF8? b = some s →
          Json.read s.toList ≠ .error (Json.tooManyDigits count)) →
        ∃ message cause, result = .error (.failure .malformedFile message [] cause) ∧
          located = .error (.failure .malformedFile message
            [("file_path", .text (tidyPath path))] cause)) := by
  obtain ⟨hlog, hsame⟩ := contentOutcome_located options (tidyPath path) b
  refine ⟨_, _, _, fun folder => outcome_read_octets b hoptions,
    fun folder => outcome_read_stream b hoptions,
    fun folder s hs => outcome_read_textStream hs hoptions,
    (outcome_read_file hfile hoptions).trans (Prod.ext rfl hlog), hsame, ?_⟩
  -- octets that hold no notebook are refused for the one reason or the other, with the path or
  -- without
  intro hno hdigits
  obtain ⟨message, cause, hmalformed⟩ := contentOutcome_malformed options hno fun count hb => by
    unfold octetsData decodeText at hb
    cases hs : String.fromUTF8? b with
    | none => rw [hs] at hb; cases hb
    | some s => rw [hs] at hb; exact hdigits s count hs hb
  exact ⟨message, cause, congrArg Prod.fst (hmalformed none),
    congrArg Prod.fst (hmalformed (some (tidyPath path)))⟩

end Engine

/-- A notebook without cells, on two lines. -/
def sampleOctets : ByteArray := "\x7b\r\n\"cells\": []\x7d".toUTF8

/-- Octets that are not text. -/
def brokenOctets : ByteArray := ⟨#[255]⟩

/-- A folder with both. -/
def sampleFolder : Folder := [(["a.ipynb"], sampleOctets), (["b.ipynb"], brokenOctets)]

/-- A notebook is read to one tree from all four, and octets that are no text are refused by all. -/
theorem read_entryPoints_sample :
    (∃ root log,
      (readAtPath sampleFolder .null "./a.ipynb").outcome = (.ok root, log) ∧
      (read [] .null (.octets sampleOctets)).outcome = (.ok root, log) ∧
      (read [] .null (.stream (.octets sampleOctets))).outcome = (.ok root, log) ∧
      (read [] .null (.stream (.text "\x7b\r\n\"cells\": []\x7d"))).outcome = (.ok root, log)) ∧
    ∃ message cause log,
      (readAtPath sampleFolder .null "b.ipynb").outcome =
        (.error (.failure .malformedFile message [("file_path", .text "b.ipynb")] cause), log) ∧
      (read [] .null (.octets brokenOctets)).outcome =
        (.error (.failure .malformedFile message [] cause), log) := by
  have husual : settingsFor .null = .ok (Settings.usual .parseSettings) := rfl
  constructor
  · obtain ⟨result, located, log, hoctets, hstream, htext, hfile, hsame, -⟩ :=
      read_entryPoints husual
        (show sampleFolder.find (tidyPath "./a.ipynb") = .ok sampleOctets from rfl)
    have hreturns : (read [] .null (.octets sampleOctets)).outcome.1.toOption.isSome = true := by
      decide +kernel
    -- that the octets are read rules out that the reading failed
    rw [hoctets] at hreturns
    cases hsame with
    | tree root => exact ⟨root, log, hfile, hoctets [], hstream [], htext [] _ rfl⟩
    | fault h => cases hreturns
    | located kind message cause => cases hreturns
  · obtain ⟨result, located, log, hoctets, -, -, hfile, -, hmalformed⟩ :=
      read_entryPoints husual
        (show sampleFolder.find (tidyPath "b.ipynb") = .ok brokenOctets from rfl)
    have hbroken : String.fromUTF8? brokenOctets = none := by decide +kernel
    obtain ⟨message, cause, rfl, rfl⟩ := hmalformed
      (fun ⟨s, v, hs, _⟩ => by rw [hbroken] at hs; cases hs)
      (fun s count hs => by rw [hbroken] at hs; cases hs)
    exact ⟨message, cause, log, hfile, hoctets []⟩

/-! ## The text of a notebook -/

section Text

variable [Markdown.Engine] {files : Folder} {settings options : Value}

/-- A text is read for the value it spells. -/
theorem readText_of_read {s : String} {v : Value} (h : Json.read s.toList = .ok v) :
    readText files settings s = read files settings (.data v) := by
  rw [readText, h]

/-- A text that spells no value is refused. -/
theorem outcome_readText_of_notJson {s : String} (h : Json.read s.toList = .error .notJson) :
    (readText files settings s).outcome =
      (.error (.failure .malformedFile "Input is not valid notebook JSON." [] (some .notJson)),
        []) := by
  rw [readText, h]
  rfl

/-- A text that is a record in JSON comes to what its octets come to, whatever files there are. -/
theorem outcome_readText_of_record {s : String} {es : Entries Value}
    (hoptions : settingsFor settings = .ok options) (h : Json.read s.toList = .ok (.record es)) :
    (readText files settings s).outcome = contentOutcome options none (octetsData s.toUTF8) := by
  rw [readText_of_read h, octetsData_of_fromUTF8? (fromUTF8?_toUTF8 s), h]
  exact outcome_read_of_content hoptions rfl

/-- Data that is neither a record nor a text is of a type that no notebook comes in. -/
theorem outcome_readText_of_other {s : String} {v : Value}
    (hoptions : settingsFor settings = .ok options) (h : Json.read s.toList = .ok v)
    (hrecord : ∀ es, v ≠ .record es) (htext : ∀ path, v ≠ .text path) :
    (readText files settings s).outcome = (.error (unsupportedType v), []) := by
  have hdata : dataOf files (.data v) = .error (unsupportedType v) := by
    cases v with
    | record es => exact absurd rfl (hrecord es)
    | text path => exact absurd rfl (htext path)
    | _ => rfl
  rw [readText_of_read h, read, hoptions, ofExcept_ok_bind, hdata]
  rfl

/-- A text comes to a tree if it is a record with a list of cells in JSON, unless it is a text. -/
theorem cases_of_outcome_readText {s : String} {root : Value} {log : List Log.Entry}
    (hoptions : settingsFor settings = .ok options)
    (h : (readText files settings s).outcome = (.ok root, log)) :
    (∃ path, Json.read s.toList = .ok (.text path)) ∨
      ∃ es cells, Json.read s.toList = .ok (.record es) ∧
        Entries.get? es "cells" = some (.list cells) := by
  cases hread : Json.read s.toList with
  | error e =>
    rw [readText, hread] at h
    cases e <;> cases (Prod.mk.inj h).1
  | ok v =>
    cases v with
    | text path => exact .inl ⟨path, rfl⟩
    | record es =>
      right
      rw [readText_of_read hread] at h
      obtain ⟨_, es', _, cells, -, hdata, hcells, -⟩ := exists_of_outcome_read h
      obtain rfl := Value.record.inj (Prod.mk.inj (Except.ok.inj hdata)).1
      exact ⟨es, cells, rfl, hcells⟩
    -- a value that is neither a text nor a record is refused
    | _ =>
      rw [outcome_readText_of_other hoptions hread (fun _ => nofun) (fun _ => nofun)] at h
      cases (Prod.mk.inj h).1

/-- What the text of a notebook comes to. It comes to a tree if it is a record with a list of cells
in JSON, and to the same as its octets then; it is malformed if it is not JSON, or a record without
such a list; and it makes no difference what files there are. So it is as long as the text is not a
value of another type in JSON. Such a value is taken for data: a text for the path of a file, and
nothing else is supported. -/
theorem readText_entryPoint {s : String} (hoptions : settingsFor settings = .ok options) :
    (∀ files root log, (readText files settings s).outcome = (.ok root, log) →
      (∀ path, Json.read s.toList ≠ .ok (.text path)) →
      ∃ es cells, Json.read s.toList = .ok (.record es) ∧
        Entries.get? es "cells" = some (.list cells)) ∧
    (∀ es, Json.read s.toList = .ok (.record es) → ∀ files folder,
      (readText files settings s).outcome = (read folder settings (.octets s.toUTF8)).outcome) ∧
    (Json.read s.toList = .error .notJson → ∀ files, (readText files settings s).outcome =
      (.error (.failure .malformedFile "Input is not valid notebook JSON." [] (some .notJson)),
        [])) ∧
    (∀ es, Json.read s.toList = .ok (.record es) → isNotebook (.record es) = false →
      ∀ files, (readText files settings s).outcome = (.error (noCells none), [])) ∧
    ((∀ path, Json.read s.toList ≠ .ok (.text path)) →
      ∀ files folder, (readText files settings s).outcome = (readText folder settings s).outcome) ∧
    (∀ path, Json.read s.toList = .ok (.text path) → ∀ files,
      (readText files settings s).outcome = (read files settings (.data (.text path))).outcome) ∧
    (∀ v, Json.read s.toList = .ok v → (∀ es, v ≠ .record es) → (∀ path, v ≠ .text path) →
      ∀ files, (readText files settings s).outcome = (.error (unsupportedType v), [])) := by
  refine ⟨?_, ?_, ?_, ?_, ?_, ?_, ?_⟩
  · intro files root log h htext
    obtain ⟨path, hpath⟩ | h := cases_of_outcome_readText hoptions h
    · exact absurd hpath (htext path)
    · exact h
  · intro es hes files folder
    rw [outcome_readText_of_record hoptions hes, outcome_read_octets _ hoptions]
  · intro h files
    exact outcome_readText_of_notJson h
  · intro es hes hcells files
    rw [outcome_readText_of_record hoptions hes, octetsData_of_fromUTF8? (fromUTF8?_toUTF8 s), hes,
      contentOutcome, hcells]
    rfl
  · -- the folder is looked into for a path alone
    intro htext files folder
    cases hread : Json.read s.toList with
    | error e =>
      rw [readText, readText, hread]
      cases e <;> rfl
    | ok v =>
      cases v with
      | text path => exact absurd hread (htext path)
      | record es =>
        rw [outcome_readText_of_record hoptions hread, outcome_readText_of_record hoptions hread]
      | _ =>
        rw [outcome_readText_of_other hoptions hread (fun _ => nofun) (fun _ => nofun),
          outcome_readText_of_other hoptions hread (fun _ => nofun) (fun _ => nofun)]
  · intro path hpath files
    rw [readText_of_read hpath]
  · intro v hv hrecord htext files
    exact outcome_readText_of_other hoptions hv hrecord htext

end Text

/-- A notebook, a broken text, a record without cells, a number and a path, each read from a
text. -/
theorem readText_entryPoint_sample :
    (∃ root log, ∀ files, (readText files .null "\x7b\"cells\": []\x7d").outcome = (.ok root, log) ∧
      ∀ folder, (read folder .null (.octets "\x7b\"cells\": []\x7d".toUTF8)).outcome =
        (.ok root, log)) ∧
    (∀ files, (readText files .null "[").outcome.1 =
      .error (.failure .malformedFile "Input is not valid notebook JSON." [] (some .notJson))) ∧
    (∀ files, (readText files .null "\x7b\x7d").outcome.1 = .error (noCells none)) ∧
    (∀ files, (readText files .null "5").outcome.1 = .error (unsupportedType (.int 5))) ∧
    ∀ files, (readText files .null "\"a.ipynb\"").outcome =
      (read files .null (.data (.text "a.ipynb"))).outcome := by
  have husual : settingsFor .null = .ok (Settings.usual .parseSettings) := rfl
  refine ⟨?_, ?_, ?_, ?_, ?_⟩
  · obtain ⟨-, hsame, -, -, -, -, -⟩ := readText_entryPoint (s := "\x7b\"cells\": []\x7d") husual
    have hreturns : (readText [] .null "\x7b\"cells\": []\x7d").outcome.1.toOption.isSome = true := by
      decide +kernel
    rcases hrun : (readText [] .null "\x7b\"cells\": []\x7d").outcome with ⟨e | root, log⟩
    · rw [hrun] at hreturns
      cases hreturns
    have hoctets : ∀ folder,
        (read folder .null (.octets "\x7b\"cells\": []\x7d".toUTF8)).outcome = (.ok root, log) :=
      fun folder => (hsame _ rfl [] folder).symm.trans hrun
    exact ⟨root, log, fun files => ⟨(hsame _ rfl files []).trans (hoctets []), hoctets⟩⟩
  · obtain ⟨-, -, hbroken, -, -, -, -⟩ := readText_entryPoint (s := "[") husual
    exact fun files => congrArg Prod.fst (hbroken rfl files)
  · obtain ⟨-, -, -, hnone, -, -, -⟩ := readText_entryPoint (s := "\x7b\x7d") husual
    exact fun files => congrArg Prod.fst (hnone [] rfl rfl files)
  · obtain ⟨-, -, -, -, -, -, hother⟩ := readText_entryPoint (s := "5") husual
    exact fun files => congrArg Prod.fst
      (hother (.int 5) rfl (fun _ => nofun) (fun _ => nofun) files)
  · obtain ⟨-, -, -, -, -, hpath, -⟩ := readText_entryPoint (s := "\"a.ipynb\"") husual
    exact hpath "a.ipynb" rfl

/-- A number is not malformed but unsupported, and the text of a text comes to a tree if there is a
notebook in the file of that name, and to a failure of that file if there is none. -/
theorem readText_beyond_records :
    (readText [] .null "5").outcome.1.mapError Fault.className = .error "ValidationError" ∧
    (readText sampleFolder .null "\"a.ipynb\"").outcome.1.toOption.isSome = true ∧
    (readText [] .null "\"a.ipynb\"").outcome.1.mapError Fault.className = .error "FileError" := by
  refine ⟨rfl, by decide +kernel, rfl⟩

end Notebook

end NotebookTree
