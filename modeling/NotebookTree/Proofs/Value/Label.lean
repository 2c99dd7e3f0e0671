import NotebookTree.Proofs.Sequence
import NotebookTree.Proofs.Text.Lines
import NotebookTree.Value.Label

/-!
# Labels on one line

A label begins with the word for the type of its node. Behind it stand texts of the notebook. Most
of them are quoted, so they stand on one line whatever they are. Some are put in as they are: the
name of a stream, the name and value of an error, and the types of content that an output offers.
So a label has the ends of lines that its bare part has, and no others.

## Main definitions

* `Value.IsShown`: a node has what its label is made of.
* `Value.barePart`: the part of a label that is not quoted.
* `OneLineBut`: a text on one line, but for a part of it.

## Main statements

* `Value.IsShown.label`: the label of a node stands on one line but for its bare part.
-/

namespace NotebookTree

open Text (OnOneLine onOneLine_append onOneLine_quote onOneLine_toString)

/-- A text on one line that begins with something other than a blank. -/
def Text.IsWord (cs : List Char) : Prop := OnOneLine cs ∧ cs ≠ [] ∧ cs.head? ≠ some ' '

instance : DecidablePred Text.IsWord := fun cs =>
  inferInstanceAs (Decidable (OnOneLine cs ∧ cs ≠ [] ∧ cs.head? ≠ some ' '))

/-- What follows a text that does not begin with a blank leaves its beginning. -/
theorem Text.head?_append_ne {cs : List Char} (hne : cs ≠ []) (hhead : cs.head? ≠ some ' ')
    (ds : List Char) : (cs ++ ds).head? ≠ some ' ' := by
  cases cs with
  | nil => exact absurd rfl hne
  | cons c cs => exact hhead

/-- What begins with a word and goes on on the same line is a word. -/
theorem Text.IsWord.append {cs ds : List Char} (h : IsWord cs) (hds : OnOneLine ds) :
    IsWord (cs ++ ds) := by
  obtain ⟨hline, hne, hhead⟩ := h
  exact ⟨onOneLine_append.mpr ⟨hline, hds⟩, List.append_ne_nil_of_left_ne_nil hne ds,
    head?_append_ne hne hhead ds⟩

/-- A text that stands on one line but for a part of it, and begins with a word. -/
def OneLineBut (part label : String) : Prop :=
  ∃ before after : List Char, label.toList = before ++ part.toList ++ after ∧
    Text.IsWord before ∧ OnOneLine after

namespace OneLineBut

variable {part label : String}

/-- What goes on behind a word on the same line is on one line but for nothing. -/
theorem of_word {word : String} {rest : List Char} (hword : Text.IsWord word.toList)
    (hrest : OnOneLine rest) (hlabel : label.toList = word.toList ++ rest) :
    OneLineBut "" label :=
  ⟨word.toList, rest, by rw [hlabel, String.toList_empty, List.append_nil], hword, hrest⟩

/-- It stands on one line if the part does. -/
theorem onOneLine_iff (h : OneLineBut part label) :
    OnOneLine label.toList ↔ OnOneLine part.toList := by
  obtain ⟨before, after, hlabel, hbefore, hafter⟩ := h
  rw [hlabel, onOneLine_append, onOneLine_append]
  exact ⟨fun hall => hall.1.2, fun hpart => ⟨⟨hbefore.1, hpart⟩, hafter⟩⟩

/-- It does not begin with a blank. -/
theorem head?_ne (h : OneLineBut part label) :
    label.toList ≠ [] ∧ label.toList.head? ≠ some ' ' := by
  obtain ⟨before, after, hlabel, ⟨-, hne, hhead⟩, -⟩ := h
  rw [hlabel, List.append_assoc]
  exact ⟨List.append_ne_nil_of_left_ne_nil hne _, Text.head?_append_ne hne hhead _⟩

/-- It has the line feeds of the part. -/
theorem count_eq (h : OneLineBut part label) :
    Text.count '\n' label.toList = Text.count '\n' part.toList := by
  have hnone : ∀ {cs : List Char}, OnOneLine cs → cs.countP (· == '\n') = 0 := fun hcs => by
    refine List.countP_eq_zero.mpr fun c hc heq => ?_
    have hend := hcs c hc
    rw [beq_iff_eq.mp heq] at hend
    revert hend
    decide
  obtain ⟨before, after, hlabel, hbefore, hafter⟩ := h
  rw [Text.count, Text.count, hlabel, List.countP_append, List.countP_append, hnone hbefore.1,
    hnone hafter, Nat.zero_add, Nat.add_zero]

end OneLineBut

namespace Value

/-- The part of the label of a node that is put in as the notebook has it. -/
def barePart (v : Value) : String :=
  if v.hasType "stream" then ((v.attribute? "name").getD .null).plainText
  else if v.hasType "error" then
    ((v.attribute? "ename").getD .null).plainText ++ ": " ++
      (match v.attribute? "evalue" with
        | some (.text s) => preview s
        | _ => "")
  else if v.hasType "displayData" || v.hasType "executeResult" then
    match v.attribute? "data" with
    | some (.record es) => joinWith ", " (es.map Prod.fst)
    | _ => ""
  else ""

/-- A node has a word for its type, and one for its cell type if it has one, and its fields are of
the types that the label of a node of its type is made of. -/
structure IsShown (v : Value) : Prop where
  type : ∃ word, v.type? = some (.text word) ∧ Text.IsWord word.toList ∧ word ≠ "element"
  cellType : ∀ w, v.attribute? "cell_type" = some w → ∃ word, w = .text word ∧
    OnOneLine word.toList
  stream : v.hasType "stream" = true →
    (∃ name, v.attribute? "name" = some name) ∧ ∃ s, v.attribute? "text" = some (.text s)
  error : v.hasType "error" = true →
    (∃ name, v.attribute? "ename" = some name) ∧ ∃ s, v.attribute? "evalue" = some (.text s)
  bundle : v.hasType "displayData" = true ∨ v.hasType "executeResult" = true →
    ∃ es, v.attribute? "data" = some (.record es)

section Attributes

variable {v w : Value}

/-- Two nodes answer the same for every name but that of the children. -/
def SameButChildren (v w : Value) : Prop :=
  ∀ name, name ≠ "children" → v.attribute? name = w.attribute? name

/-- The children say nothing of the type. -/
theorem SameButChildren.hasType_eq (h : SameButChildren v w) (word : String) :
    v.hasType word = w.hasType word := by
  rw [hasType, hasType, type?, type?, h "type" (by decide)]

/-- The children say nothing of what goes bare into a label. -/
theorem SameButChildren.barePart_eq (h : SameButChildren v w) : v.barePart = w.barePart := by
  simp only [barePart, h.hasType_eq, h "name" (by decide), h "ename" (by decide),
    h "evalue" (by decide), h "data" (by decide)]

/-- Whether a node is shown does not depend on its children. -/
theorem SameButChildren.isShown (h : SameButChildren v w) (hw : w.IsShown) : v.IsShown where
  -- none of the fields looked at is that of the children
  type := by
    rw [type?, h "type" (by decide)]
    exact hw.type
  cellType := by
    rw [h "cell_type" (by decide)]
    exact hw.cellType
  stream := by
    rw [h.hasType_eq, h "name" (by decide), h "text" (by decide)]
    exact hw.stream
  error := by
    rw [h.hasType_eq, h "ename" (by decide), h "evalue" (by decide)]
    exact hw.error
  bundle := by
    rw [h.hasType_eq, h.hasType_eq, h "data" (by decide)]
    exact hw.bundle

/-- A value whose type is a word has that type alone. -/
theorem hasType_of_type? {word : String} (h : v.type? = some (.text word)) (other : String) :
    v.hasType other = (word == other) := by
  rw [hasType, h]

/-- A node of a type that no output has is none of the outputs. -/
theorem hasType_of_notMem {word : String} (htype : v.type? = some (.text word))
    (hout : word ∉ outputTypes) {other : String} (hmem : other ∈ outputTypes) :
    v.hasType other = false := by
  rw [hasType_of_type? htype]
  exact beq_eq_false_iff_ne.mpr fun heq => hout (heq ▸ hmem)

/-- A node of a type that no output has is shown if its type and its cell type are words. -/
theorem isShown_of_type {word : String} (htype : v.type? = some (.text word))
    (hword : Text.IsWord word.toList) (hne : word ≠ "element") (hout : word ∉ outputTypes)
    (hcell : ∀ w, v.attribute? "cell_type" = some w → ∃ cellWord, w = .text cellWord ∧
      OnOneLine cellWord.toList) : v.IsShown := by
  refine ⟨⟨word, htype, hword, hne⟩, hcell, fun h => ?_, fun h => ?_, fun h => ?_⟩
  · rw [hasType_of_notMem htype hout (by decide)] at h
    cases h
  · rw [hasType_of_notMem htype hout (by decide)] at h
    cases h
  · rw [hasType_of_notMem htype hout (by decide), hasType_of_notMem htype hout (by decide)] at h
    rcases h with h | h <;> cases h

/-- The label of a node that is no output has nothing bare in it. -/
theorem barePart_of_type {word : String} (htype : v.type? = some (.text word))
    (hout : word ∉ outputTypes) : v.barePart = "" := by
  rw [barePart, hasType_of_notMem htype hout (by decide),
    hasType_of_notMem htype hout (by decide), hasType_of_notMem htype hout (by decide),
    hasType_of_notMem htype hout (by decide)]
  rfl

/-- A field that is there is read. -/
theorem field_of_attribute? {name : String} {x : Value} (h : v.attribute? name = some x) :
    v.field name = .ok x := by
  rw [field, h]

/-- A literal has a text for its value. -/
theorem exists_of_isLiteral (h : v.isLiteral = true) :
    ∃ s, v.attribute? "value" = some (.text s) := by
  rw [isLiteral] at h
  split at h
  · rename_i s hs
    exact ⟨s, hs⟩
  · cases h

end Attributes

/-! ## Outputs with content to show -/

section Bundle

variable {v : Value} {word : String} {es : Entries Value} (htype : v.type? = some (.text word))
  (hword : word = "displayData" ∨ word = "executeResult")

include htype hword

/-- What holds a bundle of data is neither a stream nor an error. -/
theorem hasType_of_bundle : v.hasType "stream" = false ∧ v.hasType "error" = false := by
  rw [hasType_of_type? htype, hasType_of_type? htype]
  rcases hword with rfl | rfl <;> exact ⟨rfl, rfl⟩

/-- Its label has the types of content bare in it. -/
theorem barePart_of_bundle (hdata : v.attribute? "data" = some (.record es)) :
    v.barePart = joinWith ", " (es.map Prod.fst) := by
  obtain ⟨hstream, herror⟩ := hasType_of_bundle htype hword
  have hbundle : (v.hasType "displayData" || v.hasType "executeResult") = true := by
    rw [hasType_of_type? htype, hasType_of_type? htype]
    rcases hword with rfl | rfl <;> rfl
  rw [barePart, hstream, herror, if_neg Bool.false_ne_true, if_neg Bool.false_ne_true, hbundle,
    if_pos rfl, hdata]

/-- A node with a bundle of data and no sort of cell has a label. -/
theorem isShown_of_bundle (hcell : v.attribute? "cell_type" = none)
    (hdata : v.attribute? "data" = some (.record es)) : v.IsShown := by
  obtain ⟨hstream, herror⟩ := hasType_of_bundle htype hword
  refine ⟨⟨word, htype, ?_⟩, fun w hw => ?_, fun h => ?_, fun h => ?_, fun _ => ⟨es, hdata⟩⟩
  · rcases hword with rfl | rfl <;> decide
  · cases hcell.symm.trans hw
  · cases hstream.symm.trans h
  · cases herror.symm.trans h

end Bundle

/-! ## Labels -/

namespace IsShown

variable {v : Value}

/-- A label begins with a word for the type. -/
theorem typeLabel (h : v.IsShown) :
    ∃ start, v.typeLabel = .ok (.text start) ∧ Text.IsWord start.toList := by
  obtain ⟨word, htype, hword, hne⟩ := h.type
  have helement : v.hasType "element" = false := by
    rw [hasType_of_type? htype]
    simpa using hne
  rw [Value.typeLabel, htype, helement]
  dsimp only [Option.getD_some]
  -- the cell type is said if it is not empty
  by_cases htruthy : ((v.attribute? "cell_type").getD .null).isTruthy = true
  · cases hcell : v.attribute? "cell_type" with
    | none =>
      rw [hcell] at htruthy
      cases htruthy
    | some w =>
      obtain ⟨cellWord, rfl, hline⟩ := h.cellType w hcell
      rw [hcell] at htruthy
      have hrest : OnOneLine ("[".toList ++ (cellWord.toList ++ "]".toList)) :=
        onOneLine_append.mpr ⟨by decide, onOneLine_append.mpr ⟨hline, by decide⟩⟩
      refine ⟨word ++ "[" ++ cellWord ++ "]", (if_pos htruthy).trans rfl, ?_⟩
      simpa only [String.toList_append, List.append_assoc] using hword.append hrest
  · rw [if_neg htruthy]
    exact ⟨word, rfl, hword⟩

/-- The label of a stream is one line, with the name and the text said as they are quoted. -/
theorem label_stream (h : v.IsShown) (hstream : v.hasType "stream" = true) :
    ∃ l, v.label = .ok (.text l) ∧ OneLineBut v.barePart l := by
  obtain ⟨start, hstart, hword⟩ := h.typeLabel
  obtain ⟨⟨name, hname⟩, s, htext⟩ := h.stream hstream
  refine ⟨start ++ " (" ++ name.plainText ++ ") " ++ Text.quote (preview s), ?_,
    start.toList ++ " (".toList, ") ".toList ++ (Text.quote (preview s)).toList, ?_, ?_, ?_⟩
  · rw [label, hstart, Except.ok_bind, hstream, if_pos rfl, field_of_attribute? hname,
      field_of_attribute? htext]
    rfl
  · rw [barePart, hstream, if_pos rfl, hname]
    simp only [String.toList_append, List.append_assoc, Option.getD_some]
  · exact hword.append (by decide)
  · exact onOneLine_append.mpr ⟨by decide, onOneLine_quote _⟩

/-- The label of an error is one line, but for what goes bare into it. -/
theorem label_error (h : v.IsShown) (hstream : v.hasType "stream" = false)
    (herror : v.hasType "error" = true) :
    ∃ l, v.label = .ok (.text l) ∧ OneLineBut v.barePart l := by
  obtain ⟨start, hstart, hword⟩ := h.typeLabel
  obtain ⟨⟨name, hname⟩, s, hvalue⟩ := h.error herror
  refine ⟨start ++ " " ++ name.plainText ++ ": " ++ preview s, ?_,
    start.toList ++ " ".toList, [], ?_, hword.append (by decide), List.forall_mem_nil _⟩
  · rw [label, hstart, Except.ok_bind, hstream, herror, if_neg Bool.false_ne_true, if_pos rfl,
      field_of_attribute? hname, field_of_attribute? hvalue]
    rfl
  · rw [barePart, hstream, herror, if_neg Bool.false_ne_true, if_pos rfl, hname, hvalue]
    simp only [String.toList_append, List.append_assoc, Option.getD_some, List.append_nil]

/-- The label of an output with data is one line, with its MIME type. -/
theorem label_bundle (h : v.IsShown)
    (hout : v.hasType "displayData" = true ∨ v.hasType "executeResult" = true) :
    ∃ l, v.label = .ok (.text l) ∧ OneLineBut v.barePart l := by
  obtain ⟨start, hstart, hbegins⟩ := h.typeLabel
  obtain ⟨es, hdata⟩ := h.bundle hout
  obtain ⟨word, htype, -⟩ := h.type
  have hword : word = "displayData" ∨ word = "executeResult" := by
    simpa only [hasType_of_type? htype, beq_iff_eq] using hout
  -- a node with a bundle takes neither of the branches for streams and errors
  obtain ⟨hstream, herror⟩ := hasType_of_bundle htype hword
  have hisOutput : v.isOutput = .ok true := by
    rw [isOutput, htype]
    rcases hword with rfl | rfl <;> rfl
  refine ⟨start ++ " [" ++ joinWith ", " (es.map Prod.fst) ++ "]", ?_,
    start.toList ++ " [".toList, "]".toList, ?_, hbegins.append (by decide), by decide⟩
  · rw [label, hstart, Except.ok_bind, hstream, herror, if_neg Bool.false_ne_true,
      if_neg Bool.false_ne_true, hisOutput, Except.ok_bind, if_pos rfl, field_of_attribute? hdata]
    rfl
  · rw [barePart_of_bundle htype hword hdata]
    simp only [String.toList_append, List.append_assoc]

/-- The label of any other node is its type, perhaps with a quoted text or a number behind it. -/
theorem label_other (h : v.IsShown) (hout : ∀ other ∈ outputTypes, v.hasType other = false) :
    ∃ l, v.label = .ok (.text l) ∧ OneLineBut v.barePart l := by
  obtain ⟨start, hstart, hbegins⟩ := h.typeLabel
  obtain ⟨word, htype, -⟩ := h.type
  have hnone : word ∉ outputTypes := fun hmem => by
    have hself := hout word hmem
    rw [hasType_of_type? htype, beq_self_eq_true] at hself
    cases hself
  have hisOutput : v.isOutput = .ok false := by
    rw [isOutput, htype]
    exact congrArg Except.ok ((List.contains_eq_mem word _).trans (decide_eq_false hnone))
  rw [barePart_of_type htype hnone, label, hstart, Except.ok_bind, hout _ (by decide),
    hout _ (by decide), if_neg Bool.false_ne_true, if_neg Bool.false_ne_true, hisOutput,
    Except.ok_bind, if_neg Bool.false_ne_true]
  -- a literal shows its value, quoted; anything else the number of its children, if it has any
  by_cases hliteral : v.isLiteral = true
  · obtain ⟨s, hs⟩ := exists_of_isLiteral hliteral
    have hrest : OnOneLine (" ".toList ++ (Text.quote (preview s)).toList) :=
      onOneLine_append.mpr ⟨by decide, onOneLine_quote _⟩
    rw [if_pos hliteral, field_of_attribute? hs]
    refine ⟨_, rfl, .of_word hbegins hrest ?_⟩
    simp only [String.toList_append, List.append_assoc]
    rfl
  rw [if_neg hliteral]
  cases v.children? with
  | none =>
    exact ⟨start, rfl, .of_word hbegins (List.forall_mem_nil _) (List.append_nil _).symm⟩
  | some cs =>
    have hrest : OnOneLine (" (".toList ++ ((toString cs.length).toList ++ " children)".toList)) :=
      onOneLine_append.mpr ⟨by decide, onOneLine_append.mpr
        ⟨onOneLine_toString cs.length, by decide⟩⟩
    refine ⟨_, rfl, .of_word hbegins hrest ?_⟩
    simp only [String.toList_append, List.append_assoc]
    rfl

/-- A node that is shown has a label, which stands on one line but for its bare part. -/
theorem label (h : v.IsShown) : ∃ l, v.label = .ok (.text l) ∧ OneLineBut v.barePart l := by
  by_cases hstream : v.hasType "stream" = true
  · exact h.label_stream hstream
  by_cases herror : v.hasType "error" = true
  · exact h.label_error (eq_false_of_ne_true hstream) herror
  by_cases hout : v.hasType "displayData" = true ∨ v.hasType "executeResult" = true
  · exact h.label_bundle hout
  refine h.label_other fun other hmem => eq_false_of_ne_true ?_
  simp only [outputTypes, List.mem_cons, List.not_mem_nil, or_false] at hmem
  rcases hmem with rfl | rfl | rfl | rfl
  · exact hstream
  · exact fun h => hout (.inl h)
  · exact fun h => hout (.inr h)
  · exact herror

end IsShown

end Value

end NotebookTree
