import NotebookTree.Proofs.Json.Reader
import NotebookTree.Proofs.Json.Scalar

/-!
# Written JSON is cut into the lexemes it was written from

A value has lexemes of its own, which do not depend on how its items are set apart. Its written form
is cut into just these, at any depth and in any style, whatever follows, as long as what follows
does not run on with a number or word.

## Main definitions

* `Value.lexemes`: the lexemes of a value.
* `CutsTo`: a text is cut into the given lexemes wherever it stands.

## Main results

* `cutsTo_writeAt`: the written form of a value is cut into its lexemes.
-/

namespace NotebookTree.Json

open Text (doubleQuote backslash isAsciiDigit isAsciiLetter hexDigit?)

/-! ## The lexemes of a value -/

mutual

/-- The lexemes of a value. -/
def lexemes : Value → List Lexeme
  | .null => [.scalar "null".toList]
  | .bool true => [.scalar "true".toList]
  | .bool false => [.scalar "false".toList]
  | .int n => [.scalar (toString n).toList]
  | .float x => [.scalar (writeFloat x)]
  | .text s => [.text s.toList]
  | .list xs => .openList :: [.comma].intercalate (lexemesOfItems xs) ++ [.closeList]
  | .tuple xs => .openList :: [.comma].intercalate (lexemesOfItems xs) ++ [.closeList]
  | .record es => .openRecord :: [.comma].intercalate (lexemesOfEntries es) ++ [.closeRecord]
  | .node k fields => [.text (Value.node k fields).plainText.toList]

/-- The lexemes of each item of a sequence. -/
def lexemesOfItems : List Value → List (List Lexeme)
  | [] => []
  | x :: xs => lexemes x :: lexemesOfItems xs

/-- The lexemes of each entry of a record. -/
def lexemesOfEntries : List (String × Value) → List (List Lexeme)
  | [] => []
  | (name, x) :: es => (.text name.toList :: .colon :: lexemes x) :: lexemesOfEntries es

end

/-! ## Cutting -/

/-- A text does not run on with a number or word. -/
def Stops (rest : List Char) : Prop := ∀ c ∈ rest.head?, isScalarChar c = false

/-- A text is cut into the given lexemes, whatever has been cut before and whatever follows. -/
def CutsTo (cs : List Char) (ls : List Lexeme) : Prop :=
  ∀ (cut : List Lexeme) (rest : List Char), Stops rest →
    lexFrom cut .between (cs ++ rest) = lexFrom (ls.reverse ++ cut) .between rest

/-- The end of the text ends a word or number. -/
theorem stops_nil : Stops [] := fun _ h => by cases h

/-- What cannot stand in a word or number ends it. -/
theorem stops_cons {c : Char} {rest : List Char} (hc : isScalarChar c = false) :
    Stops (c :: rest) := fun _ h => Option.some.inj h ▸ hc

section

variable (cut : List Lexeme) {s s' : LexState} {c : Char} {ls : List Lexeme} (cs : List Char)

/-- One step of the lexer cuts its lexemes and leaves the rest. -/
theorem lexFrom_of_lexStep (h : lexStep s c = some (ls, s')) :
    lexFrom cut s (c :: cs) = lexFrom (ls.reverse ++ cut) s' cs := by
  rw [lexFrom_cons, h]

/-- Most steps cut nothing off. -/
theorem lexFrom_of_silent (h : lexStep s c = some ([], s')) :
    lexFrom cut s (c :: cs) = lexFrom cut s' cs :=
  lexFrom_of_lexStep cut cs h

/-- A blank between lexemes is skipped. -/
theorem lexFrom_blank (hc : isSpace c = true) :
    lexFrom cut .between (c :: cs) = lexFrom cut .between cs := by
  have hstep : lexStep .between c = some ([], .between) := by
    simp only [lexStep, stepBetween, hc, if_true, Option.map_some, Option.toList_none]
  exact lexFrom_of_silent cut cs hstep

/-- Blanks between lexemes are skipped, however many there are. -/
theorem lexFrom_spaces (n : Nat) :
    lexFrom cut .between (List.replicate n ' ' ++ cs) = lexFrom cut .between cs := by
  induction n with
  | zero => rfl
  | succ n ih =>
    rw [List.replicate_succ, List.cons_append, lexFrom_blank _ _ rfl, ih]

end

/-! ## Numbers and words -/

/-- A character of a number or word starts one. -/
theorem stepBetween_of_isScalarChar {c : Char} (hc : isScalarChar c = true) :
    stepBetween c = some (none, .scalar [c]) := by
  -- it is none of the characters that stand for themselves between scalars
  have hother {d : Char} (hd : isScalarChar d = false) : (c == d) = false := by
    refine beq_eq_false_iff_ne.mpr ?_
    rintro rfl
    rw [hd] at hc
    cases hc
  have hspace : isSpace c = false := by
    simp only [isSpace, hother (d := ' ') rfl, hother (d := '\t') rfl, hother (d := '\n') rfl,
      hother (d := '\r') rfl, Bool.or_false]
  have hpunctuation : punctuation? c = none := by
    simp only [punctuation?, hother (d := '[') rfl, hother (d := ']') rfl,
      hother (d := '\x7b') rfl, hother (d := '\x7d') rfl, hother (d := ':') rfl,
      hother (d := ',') rfl, Bool.false_eq_true, if_false]
  simp only [stepBetween, hspace, hother (d := doubleQuote) rfl, hpunctuation, hc,
    Bool.false_eq_true, if_false, if_true]

/-- A number or word goes on to the first character that is none of its own. -/
theorem lexFrom_scalar {cs : List Char} (hcs : ∀ c ∈ cs, isScalarChar c = true)
    (cut : List Lexeme) (done rest : List Char) (hrest : Stops rest) :
    lexFrom cut (.scalar done) (cs ++ rest) =
      lexFrom (.scalar (done.reverse ++ cs) :: cut) .between rest := by
  induction cs generalizing done with
  | nil =>
    rw [List.append_nil, List.nil_append]
    cases rest with
    | nil => rfl
    | cons c rest =>
      -- what ends the number is read again, as it stands between lexemes
      have hc : isScalarChar c = false := hrest c rfl
      rw [lexFrom_cons, lexFrom_cons, lexStep, lexStep, hc, if_neg Bool.false_ne_true]
      cases stepBetween c with
      | none => simp [LexState.ending]
      | some p => simp
  | cons c cs ih =>
    obtain ⟨hc, hcs⟩ := List.forall_mem_cons.mp hcs
    have hstep : lexStep (.scalar done) c = some ([], .scalar (c :: done)) := by
      rw [lexStep, if_pos hc]
    rw [List.cons_append, lexFrom_of_silent cut _ hstep, ih hcs]
    simp

/-- A number or word is one lexeme. -/
theorem cutsTo_scalar {cs : List Char} (hsome : cs ≠ []) (hcs : ∀ c ∈ cs, isScalarChar c = true) :
    CutsTo cs [.scalar cs] := by
  intro cut rest hrest
  obtain ⟨c, cs, rfl⟩ := List.exists_cons_of_ne_nil hsome
  obtain ⟨hc, hcs⟩ := List.forall_mem_cons.mp hcs
  have hstep : lexStep .between c = some ([], .scalar [c]) := by
    rw [lexStep, stepBetween_of_isScalarChar hc]
    rfl
  rw [List.cons_append, lexFrom_of_silent cut _ hstep, lexFrom_scalar hcs _ _ _ hrest]
  rfl

/-! ## Strings -/

/-- A control character is written with two zeros in front. -/
theorem hexDigits_of_control : ∀ n < 32, Text.hexDigits 4 n =
    ['0', '0', Nat.digitChar (n / 16), Nat.digitChar (n % 16)] := by decide

/-- A hexadecimal digit is read as it is written. -/
theorem hexDigit?_digitChar : ∀ n < 16, hexDigit? (Nat.digitChar n) = some n := by decide

/-- What stands below the surrogates is a character by itself. -/
theorem unitChar_of_lt {n : Nat} (hn : n < 0xD800) :
    isHigh n = false ∧ unitChar n = Char.ofNat n := by
  have hhigh : isHigh n = false := by
    rw [isHigh, decide_eq_false (by omega), Bool.false_and]
  have hlow : isLow n = false := by
    rw [isLow, decide_eq_false (by omega), Bool.false_and]
  exact ⟨hhigh, by rw [unitChar, hhigh, hlow]; rfl⟩

/-- A digit of an escape is added to those read, while others are to come. -/
theorem lexFrom_digit {c : Char} {d : Nat} (hd : hexDigit? c = some d) (cut : List Lexeme)
    (done cs : List Char) (left value : Nat) :
    lexFrom cut (.digits done none (left + 2) value) (c :: cs) =
      lexFrom cut (.digits done none (left + 1) (16 * value + d)) cs := by
  have hstep : lexStep (.digits done none (left + 2) value) c =
      some ([], .digits done none (left + 1) (16 * value + d)) := by
    rw [lexStep, hd]
    simp
  exact lexFrom_of_silent cut cs hstep

/-- The last digit of an escape makes it a unit. -/
theorem lexFrom_lastDigit {c : Char} {d : Nat} (hd : hexDigit? c = some d) (cut : List Lexeme)
    (done cs : List Char) (value : Nat) :
    lexFrom cut (.digits done none 1 value) (c :: cs) =
      lexFrom cut (afterUnit done none (16 * value + d)) cs := by
  have hstep : lexStep (.digits done none 1 value) c =
      some ([], afterUnit done none (16 * value + d)) := by
    rw [lexStep, hd]
    simp
  exact lexFrom_of_silent cut cs hstep

/-- A control character is read from its number. -/
theorem lexFrom_control {c : Char} (hc : c.toNat < 32) (cut : List Lexeme)
    (done rest : List Char) :
    lexFrom cut (.text done) (backslash :: 'u' :: Text.hexDigits 4 c.toNat ++ rest) =
      lexFrom cut (.text (c :: done)) rest := by
  have hopen : lexStep (.text done) backslash = some ([], .escape done) := rfl
  have hletter : lexStep (.escape done) 'u' = some ([], .digits done none 4 0) := rfl
  have hzero : hexDigit? '0' = some 0 := rfl
  -- a control character is less than 32, so two zeros stand in front of its digits
  have hhigh := hexDigit?_digitChar (c.toNat / 16) (by omega)
  have hlow := hexDigit?_digitChar (c.toNat % 16) (by omega)
  have hvalue : 16 * (16 * (16 * (16 * 0 + 0) + 0) + c.toNat / 16) + c.toNat % 16 = c.toNat := by
    omega
  obtain ⟨hfirst, hunit⟩ := unitChar_of_lt (n := c.toNat) (by omega)
  rw [hexDigits_of_control _ hc]
  simp only [List.cons_append, List.nil_append]
  rw [lexFrom_of_silent cut _ hopen, lexFrom_of_silent cut _ hletter, lexFrom_digit hzero,
    lexFrom_digit hzero, lexFrom_digit hhigh, lexFrom_lastDigit hlow, hvalue, afterUnit, hfirst,
    hunit, Char.ofNat_toNat]
  rfl

/-- A character behind a reverse solidus stands for another or for itself. -/
theorem lexFrom_shortEscape {c d : Char} (hc : (c == 'u') = false) (hd : shortEscape? c = some d)
    (cut : List Lexeme) (done rest : List Char) :
    lexFrom cut (.text done) (backslash :: c :: rest) = lexFrom cut (.text (d :: done)) rest := by
  have hopen : lexStep (.text done) backslash = some ([], .escape done) := rfl
  have hletter : lexStep (.escape done) c = some ([], .text (d :: done)) := by
    rw [lexStep, stepEscape, hc, hd]
    rfl
  rw [lexFrom_of_silent cut _ hopen, lexFrom_of_silent cut _ hletter]

/-- Inside a string a character is read as itself. -/
theorem lexFrom_escapeChar (c : Char) (cut : List Lexeme) (done rest : List Char) :
    lexFrom cut (.text done) (escapeChar c ++ rest) = lexFrom cut (.text (c :: done)) rest := by
  rw [escapeChar]
  by_cases hmark : (c == doubleQuote || c == backslash) = true
  · rw [if_pos hmark]
    obtain hc | hc := Bool.or_eq_true_iff.mp hmark <;> obtain rfl := beq_iff_eq.mp hc
    · exact lexFrom_shortEscape rfl rfl cut done rest
    · exact lexFrom_shortEscape rfl rfl cut done rest
  rw [if_neg hmark]
  -- The five control characters that have a letter of their own.
  iterate 5
    split
    · rename_i hc
      obtain rfl := beq_iff_eq.mp hc
      exact lexFrom_shortEscape rfl rfl cut done rest
  split
  · rename_i hcontrol
    exact lexFrom_control hcontrol cut done rest
  · rename_i hcontrol
    obtain ⟨hquote, hslash⟩ := Bool.or_eq_false_iff.mp (Bool.eq_false_iff.mpr hmark)
    have hstep : lexStep (.text done) c = some ([], .text (c :: done)) := by
      rw [lexStep, stepText, hquote, hslash, if_neg Bool.false_ne_true, if_neg Bool.false_ne_true,
        if_neg hcontrol]
      rfl
    exact lexFrom_of_silent cut rest hstep

/-- Escaped characters are read into the text that they were. -/
theorem lexFrom_escaped (cs : List Char) (cut : List Lexeme) (done rest : List Char) :
    lexFrom cut (.text done) (cs.flatMap escapeChar ++ rest) =
      lexFrom cut (.text (cs.reverse ++ done)) rest := by
  induction cs generalizing done with
  | nil => rfl
  | cons c cs ih =>
    rw [List.flatMap_cons, List.append_assoc, lexFrom_escapeChar, ih]
    simp

/-- A text that is written is read as one lexeme. -/
theorem lexFrom_writeText (s : String) (cut : List Lexeme) (rest : List Char) :
    lexFrom cut .between (writeText s ++ rest) = lexFrom (.text s.toList :: cut) .between rest := by
  have hopen : lexStep .between doubleQuote = some ([], .text []) := rfl
  have hclose : lexStep (.text (s.toList.reverse ++ [])) doubleQuote =
      some ([.text s.toList], .between) := by
    simp [lexStep, stepText]
  rw [writeText, List.append_assoc, List.cons_append, lexFrom_of_silent cut _ hopen,
    lexFrom_escaped, List.singleton_append, lexFrom_of_lexStep cut _ hclose]
  rfl

/-! ## Brackets -/

section

variable (style : Style) (depth : Nat) (cut : List Lexeme) (rest : List Char)

/-- What is written in front of an item is blank. -/
theorem lexFrom_lead :
    lexFrom cut .between (style.lead depth ++ rest) = lexFrom cut .between rest := by
  cases style with
  | line => rfl
  | block step =>
    rw [Style.lead, List.cons_append, lexFrom_blank _ _ rfl, lexFrom_spaces]

/-- What is written between items is a comma, with blanks. -/
theorem lexFrom_separator :
    lexFrom cut .between (style.separator depth ++ rest) =
      lexFrom (.comma :: cut) .between rest := by
  have hcomma : lexStep .between ',' = some ([.comma], .between) := rfl
  cases style with
  | line =>
    rw [Style.separator, List.cons_append, lexFrom_of_lexStep cut _ hcomma, List.singleton_append,
      lexFrom_blank _ _ rfl]
    rfl
  | block step =>
    rw [Style.separator, List.cons_append, lexFrom_of_lexStep cut _ hcomma, List.cons_append,
      lexFrom_blank _ _ rfl, lexFrom_spaces]
    rfl

/-- A separator ends a word or number. -/
theorem stops_separator : Stops (style.separator depth ++ rest) := by
  cases style with
  | line => exact stops_cons rfl
  | block step => exact stops_cons rfl

/-- What ends a word or number does so behind blanks as well. -/
theorem stops_lead {rest : List Char} (hrest : Stops rest) : Stops (style.lead depth ++ rest) := by
  cases style with
  | line => exact hrest
  | block step => exact stops_cons rfl

end

section

variable {style : Style} {items : List (List Char)} {parts : List (List Lexeme)}

/-- Items that are set apart are cut into their lexemes with commas between. -/
theorem cutsTo_intercalate (depth : Nat) (h : List.Forall₂ CutsTo items parts) :
    CutsTo ((style.separator depth).intercalate items) ([.comma].intercalate parts) := by
  intro cut rest hrest
  induction h generalizing cut with
  | nil => rfl
  | @cons item part items parts hitem h ih =>
    cases h with
    | nil =>
      rw [List.intercalate_singleton, List.intercalate_singleton]
      exact hitem cut rest hrest
    | @cons item' part' items parts hitem' h =>
      rw [List.intercalate_cons_cons, List.intercalate_cons_cons, List.append_assoc,
        List.append_assoc, hitem _ _ (stops_separator _ _ _), lexFrom_separator, ih]
      simp

/-- Items between brackets. -/
theorem cutsTo_enclose {opening closing : Char} {o c : Lexeme} (depth : Nat)
    (hopening : lexStep .between opening = some ([o], .between))
    (hclosing : lexStep .between closing = some ([c], .between))
    (hstop : isScalarChar closing = false) (h : List.Forall₂ CutsTo items parts) :
    CutsTo (enclose style depth opening closing items) (o :: [.comma].intercalate parts ++ [c]) := by
  intro cut rest hrest
  rw [enclose]
  -- empty brackets have nothing between them, not even a line end
  cases h with
  | nil =>
    rw [List.isEmpty_nil, if_pos rfl, List.cons_append, lexFrom_of_lexStep cut _ hopening,
      List.cons_append, lexFrom_of_lexStep _ _ hclosing]
    rfl
  | @cons item part items parts hitem h =>
    rw [List.isEmpty_cons, if_neg Bool.false_ne_true]
    simp only [List.append_assoc, List.cons_append, List.nil_append]
    rw [lexFrom_of_lexStep cut _ hopening, lexFrom_lead, cutsTo_intercalate _ (.cons hitem h) _ _
      (stops_lead _ _ (stops_cons hstop)), lexFrom_lead, lexFrom_of_lexStep _ _ hclosing]
    simp

end

/-- An entry is its name, a colon and its value. -/
theorem cutsTo_entry {value : List Char} {ls : List Lexeme} (name : String)
    (h : CutsTo value ls) :
    CutsTo (writeText name ++ ':' :: ' ' :: value) (.text name.toList :: .colon :: ls) := by
  intro cut rest hrest
  have hcolon : lexStep .between ':' = some ([.colon], .between) := rfl
  simp only [List.append_assoc, List.cons_append]
  rw [lexFrom_writeText, lexFrom_of_lexStep _ _ hcolon, lexFrom_blank _ _ rfl, h _ _ hrest]
  simp

/-! ## Values -/

/-- A word is read as one lexeme. -/
theorem cutsTo_word (w : String) (h : (!w.toList.isEmpty && w.toList.all isScalarChar) = true) :
    CutsTo w.toList [.scalar w.toList] := by
  obtain ⟨hsome, hall⟩ := Bool.and_eq_true_iff.mp h
  exact cutsTo_scalar (by simpa using hsome) (List.all_eq_true.mp hall)

/-- Digits stand in numbers. -/
theorem isScalarChar_of_isAsciiDigit {c : Char} (h : isAsciiDigit c = true) :
    isScalarChar c = true := by
  simp [isScalarChar, h]

/-- An integer is read as one lexeme. -/
theorem cutsTo_int (n : Int) : CutsTo (toString n).toList [.scalar (toString n).toList] := by
  have hdigits : ∀ c ∈ Nat.toDigits 10 n.natAbs, isScalarChar c = true := fun c hc =>
    isScalarChar_of_isAsciiDigit (isAsciiDigit_of_mem_toDigits hc)
  rw [toList_toString_int]
  split
  · exact cutsTo_scalar (by simp) (List.forall_mem_cons.mpr ⟨rfl, hdigits⟩)
  · exact cutsTo_scalar Nat.toDigits_ne_nil hdigits

open Double (layoutDigits)

/-- The digits of a float are digits. -/
theorem isAsciiDigit_of_mem_decimalDigits (x : Double) :
    ∀ c ∈ x.decimalDigits.1, isAsciiDigit c = true := by
  intro c hc
  simp only [Double.decimalDigits] at hc
  split at hc
  · rw [List.mem_singleton.mp hc]
    rfl
  · exact isAsciiDigit_of_mem_toDigits
      (List.mem_reverse.mp ((List.dropWhile_sublist _).mem (List.mem_reverse.mp hc)))

/-- However a float is laid out, all its characters can stand in a number. -/
theorem isScalarChar_of_mem_layoutDigits {ds : List Char}
    (hds : ∀ c ∈ ds, isAsciiDigit c = true) (l : Double.Layout) (point : Int) :
    ∀ c ∈ layoutDigits l ds point, isScalarChar c = true := by
  have hscalar : ∀ c ∈ ds, isScalarChar c = true := fun c hc =>
    isScalarChar_of_isAsciiDigit (hds c hc)
  have hzeros (k : Nat) : ∀ c ∈ List.replicate k '0', isScalarChar c = true := fun c hc =>
    isScalarChar_of_isAsciiDigit (isAsciiDigit_of_mem_zeros k c hc)
  have hpower (n : Nat) : ∀ c ∈ Nat.toDigits 10 n, isScalarChar c = true := fun c hc =>
    isScalarChar_of_isAsciiDigit (isAsciiDigit_of_mem_toDigits hc)
  have hpoint : isScalarChar '.' = true := rfl
  have hzero : isScalarChar '0' = true := rfl
  have hletter : isScalarChar 'e' = true := rfl
  -- the layouts: a point in front of the digits, a point among them, and the form with an exponent
  simp only [layoutDigits]
  split
  · split
    · simp only [List.forall_mem_cons, List.forall_mem_append]
      exact ⟨hzero, hpoint, hzeros _, hscalar⟩
    · simp only [List.forall_mem_cons, List.forall_mem_append]
      refine ⟨⟨fun c hc => hscalar c (List.mem_of_mem_take hc), hzeros _⟩, hpoint, ?_⟩
      split
      · simpa using hzero
      · exact fun c hc => hscalar c (List.mem_of_mem_drop hc)
  · simp only [List.forall_mem_cons, List.forall_mem_append]
    refine ⟨?_, hletter, ?_, hzeros _, hpower _⟩
    · split
      · simp
      · simpa using hscalar
      · obtain ⟨hhead, htail⟩ := List.forall_mem_cons.mp hscalar
        exact List.forall_mem_cons.mpr ⟨hhead, List.forall_mem_cons.mpr ⟨hpoint, htail⟩⟩
    · split <;> rfl

/-- A float is laid out with at least one character. -/
theorem layoutDigits_ne_nil (l : Double.Layout) (ds : List Char) (point : Int) :
    layoutDigits l ds point ≠ [] := by
  simp only [layoutDigits]
  split
  · split <;> simp
  · simp

/-- A number with a sign is read as one lexeme. -/
theorem cutsTo_signed {cs : List Char} (negative : Bool) (hsome : cs ≠ [])
    (hcs : ∀ c ∈ cs, isScalarChar c = true) :
    CutsTo (if negative then '-' :: cs else cs) [.scalar (if negative then '-' :: cs else cs)] := by
  cases negative with
  | true => exact cutsTo_scalar (by simp) (List.forall_mem_cons.mpr ⟨rfl, hcs⟩)
  | false => exact cutsTo_scalar hsome hcs

/-- A float is read as one lexeme. -/
theorem cutsTo_float (x : Double) : CutsTo (writeFloat x) [.scalar (writeFloat x)] := by
  rw [writeFloat, Double.textWith]
  split
  · -- three cases for the text: a word, an infinity with its sign, digits
    exact cutsTo_word "NaN" (by decide)
  rw [String.toList_ofList]
  refine cutsTo_signed _ ?_ ?_
  · split
    · decide
    split
    · decide
    · exact layoutDigits_ne_nil _ _ _
  · split
    · exact List.all_eq_true.mp rfl
    split
    · exact List.all_eq_true.mp rfl
    · exact isScalarChar_of_mem_layoutDigits (isAsciiDigit_of_mem_decimalDigits x) _ _

mutual

/-- The written form of a value is cut into its lexemes. -/
theorem cutsTo_writeAt (style : Style) (depth : Nat) :
    ∀ v : Value, CutsTo (writeAt style depth v) (lexemes v)
  | .null => cutsTo_word "null" (by decide)
  | .bool true => cutsTo_word "true" (by decide)
  | .bool false => cutsTo_word "false" (by decide)
  | .int n => cutsTo_int n
  | .float x => cutsTo_float x
  | .text s => fun cut rest _ => lexFrom_writeText s cut rest
  | .list xs => cutsTo_enclose depth rfl rfl rfl (cutsTo_writeItems style (depth + 1) xs)
  | .tuple xs => cutsTo_enclose depth rfl rfl rfl (cutsTo_writeItems style (depth + 1) xs)
  | .record es => cutsTo_enclose depth rfl rfl rfl (cutsTo_writeEntries style (depth + 1) es)
  | .node k fields => fun cut rest _ => lexFrom_writeText (Value.node k fields).plainText cut rest

/-- Items that are written are cut into their lexemes, one by one. -/
theorem cutsTo_writeItems (style : Style) (depth : Nat) :
    ∀ xs : List Value, List.Forall₂ CutsTo (writeItems style depth xs) (lexemesOfItems xs)
  | [] => .nil
  | x :: xs => .cons (cutsTo_writeAt style depth x) (cutsTo_writeItems style depth xs)

/-- Entries that are written are cut into their lexemes, one by one. -/
theorem cutsTo_writeEntries (style : Style) (depth : Nat) : ∀ es : List (String × Value),
    List.Forall₂ CutsTo (writeEntries style depth es) (lexemesOfEntries es)
  | [] => .nil
  | (name, x) :: es =>
    .cons (cutsTo_entry name (cutsTo_writeAt style depth x)) (cutsTo_writeEntries style depth es)

end

end NotebookTree.Json
