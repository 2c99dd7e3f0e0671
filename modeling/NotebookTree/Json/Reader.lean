import NotebookTree.Fault

/-!
# Reading JSON

A text is first cut into lexemes, by a machine that takes one character at a time, and the lexemes
are then put together with a stack of open brackets. Both passes are recursions on their input.

The reader takes the standard grammar and three more numbers, `NaN`, `Infinity` and `-Infinity`. A
number with a point or an exponent is a double, any other an integer, which may have as many digits
as `digitLimit` says. Of two entries with one name the later value counts, at the place of the
earlier.

`read` takes brackets however deep they are nested, `readWithin` only as deep as there is room on a
stack.

Reference: the decoder of JSON behind `parse_from_string` and `parse` of `IpynbParser`.
-/

namespace NotebookTree.Json

open Text (doubleQuote backslash hexDigit? isAsciiDigit isAsciiLetter)

/-- The lexemes of JSON. -/
inductive Lexeme where
  | openList | closeList | openRecord | closeRecord | colon | comma
  | text (s : List Char)
  /-- A number or a word, still unread. -/
  | scalar (cs : List Char)
  /-- A place where no lexeme fits. -/
  | broken

/-- What the cutting machine is in the middle of. Collected characters are in reverse order. -/
inductive LexState where
  | between
  | scalar (done : List Char)
  | text (done : List Char)
  | escape (done : List Char)
  /-- Inside the four digits of an escape, so many still to come; `high` is the first half of a
  pair, if one has been read. -/
  | digits (done : List Char) (high : Option Nat) (left value : Nat)
  /-- Behind the first half of a pair. -/
  | pair (done : List Char) (high : Nat)
  | pairEscape (done : List Char) (high : Nat)

/-- The character that stands where half of a pair has no other half. -/
def replacement : Char := Char.ofNat 0xFFFD

/-- Whether a unit is the first half of a pair. -/
def isHigh (n : Nat) : Bool := 0xD800 ≤ n && n ≤ 0xDBFF

/-- Whether a unit is the second half of a pair. -/
def isLow (n : Nat) : Bool := 0xDC00 ≤ n && n ≤ 0xDFFF

/-- The character a unit stands for. -/
def unitChar (n : Nat) : Char := if isHigh n || isLow n then replacement else Char.ofNat n

/-- The state behind a complete unit. -/
def afterUnit (done : List Char) (high : Option Nat) (n : Nat) : LexState :=
  match high with
  | none => if isHigh n then .pair done n else .text (unitChar n :: done)
  | some h =>
    if isLow n then .text (Char.ofNat (0x10000 + (h - 0xD800) * 0x400 + (n - 0xDC00)) :: done)
    else if isHigh n then .pair (replacement :: done) n
    else .text (unitChar n :: replacement :: done)

/-- The character of a short escape. -/
def shortEscape? (c : Char) : Option Char :=
  if c == doubleQuote then some doubleQuote
  else if c == backslash then some backslash
  else if c == '/' then some '/'
  else if c == 'b' then some '\x08'
  else if c == 'f' then some '\x0c'
  else if c == 'n' then some '\n'
  else if c == 'r' then some '\r'
  else if c == 't' then some '\t'
  else none

/-- Blanks between lexemes. -/
def isSpace (c : Char) : Bool := c == ' ' || c == '\t' || c == '\n' || c == '\r'

/-- The characters of numbers and words. -/
def isScalarChar (c : Char) : Bool :=
  isAsciiLetter c || isAsciiDigit c || c == '+' || c == '-' || c == '.'

/-- The lexemes of one character. -/
def punctuation? (c : Char) : Option Lexeme :=
  if c == '[' then some .openList
  else if c == ']' then some .closeList
  else if c == '\x7b' then some .openRecord
  else if c == '\x7d' then some .closeRecord
  else if c == ':' then some .colon
  else if c == ',' then some .comma
  else none

/-- The state after a character between lexemes, with the lexeme it is, if any. -/
def stepBetween (c : Char) : Option (Option Lexeme × LexState) :=
  if isSpace c then some (none, .between)
  else if c == doubleQuote then some (none, .text [])
  else match punctuation? c with
    | some l => some (some l, .between)
    | none => if isScalarChar c then some (none, .scalar [c]) else none

/-- The state after a character inside a string. -/
def stepText (done : List Char) (c : Char) : Option (Option Lexeme × LexState) :=
  if c == doubleQuote then some (some (.text done.reverse), .between)
  else if c == backslash then some (none, .escape done)
  else if c.toNat < 32 then none
  else some (none, .text (c :: done))

/-- The state after a character behind a reverse solidus. -/
def stepEscape (done : List Char) (high : Option Nat) (c : Char) : Option LexState :=
  if c == 'u' then some (.digits done high 4 0)
  else
    let done' := match high with
      | some _ => replacement :: done
      | none => done
    (shortEscape? c).map (fun d => .text (d :: done'))

/-- One step of the cutting machine; none where no lexeme fits. -/
def lexStep : LexState → Char → Option (List Lexeme × LexState)
  | .between, c => (stepBetween c).map (fun p => (p.1.toList, p.2))
  | .scalar done, c =>
    if isScalarChar c then some ([], .scalar (c :: done))
    else (stepBetween c).map (fun p => (.scalar done.reverse :: p.1.toList, p.2))
  | .text done, c => (stepText done c).map (fun p => (p.1.toList, p.2))
  | .escape done, c => (stepEscape done none c).map (fun s => ([], s))
  | .digits done high left value, c =>
    match hexDigit? c with
    | none => none
    | some d =>
      let v := 16 * value + d
      some ([], if left ≤ 1 then afterUnit done high v else .digits done high (left - 1) v)
  -- the first half of a pair has been read; only another escape can complete it
  | .pair done high, c =>
    if c == backslash then some ([], .pairEscape done high)
    else (stepText (replacement :: done) c).map (fun p => (p.1.toList, p.2))
  | .pairEscape done high, c => (stepEscape done (some high) c).map (fun s => ([], s))

/-- The lexeme that ends where nothing fits any more, if one does. -/
def LexState.ending : LexState → List Lexeme
  | .scalar done => [.scalar done.reverse]
  | _ => []

/-- Cuts a text into lexemes, up to the first place where none fits. Those cut so far are in reverse
order. -/
def lexFrom (cut : List Lexeme) : LexState → List Char → List Lexeme
  | .between, [] => cut.reverse
  | .scalar done, [] => (.scalar done.reverse :: cut).reverse
  | _, [] => (.broken :: cut).reverse
  | s, c :: cs =>
    match lexStep s c with
    | none => cut.reverse ++ s.ending ++ [.broken]
    | some (ls, s') => lexFrom (ls.reverse ++ cut) s' cs

/-- The natural number of a run of digits. -/
def digitsValue (ds : List Char) : Nat :=
  ds.foldl (fun n c => 10 * n + (c.toNat - 48)) 0

/-- Splits off the digits at the front. -/
def spanDigits (cs : List Char) : List Char × List Char :=
  cs.span isAsciiDigit

/-- The exponent at the end of a number: the letter, a sign or none, and digits. -/
def readExponent? : List Char → Option Int
  | [] => none
  | c :: cs =>
    if c == 'e' || c == 'E' then
      let body := match cs with
        | '+' :: ds => (false, ds)
        | '-' :: ds => (true, ds)
        | ds => (false, ds)
      if body.2.isEmpty || !body.2.all isAsciiDigit then none
      else some (if body.1 then -(digitsValue body.2 : Int) else digitsValue body.2)
    else none

/-- The greatest number of digits of an integer. -/
def digitLimit : Nat := 4300

/-- The fault of an integer with too many digits. -/
def tooManyDigits (count : Nat) : Fault :=
  .badValue ("Exceeds the limit (" ++ toString digitLimit
    ++ " digits) for integer string conversion: value has " ++ toString count
    ++ " digits; use sys.set_int_max_str_digits() to increase the limit")

/-- An integer of the given digits. -/
def readInteger (negative : Bool) (digits : List Char) : Except Fault Value :=
  if digitLimit < digits.length then .error (tooManyDigits digits.length)
  else .ok (.int (if negative then -(digitsValue digits : Int) else digitsValue digits))

/-- A double of the given digits, some of them places, and an exponent. -/
def readDouble (negative : Bool) (whole places : List Char) (exponent : Option Int) :
    Except Fault Value :=
  match exponent with
  | some e => .ok (.float
      (Double.ofDecimal negative (digitsValue (whole ++ places)) (e - places.length)))
  | none => .error .notJson

/-- A number without its sign. -/
def readMagnitude (negative : Bool) (cs : List Char) : Except Fault Value :=
  let (whole, rest) := spanDigits cs
  if whole.isEmpty || (whole.length != 1 && whole.head? == some '0') then .error .notJson
  else match rest with
    | [] => readInteger negative whole
    | '.' :: more =>
      let (places, rest') := spanDigits more
      if places.isEmpty then .error .notJson
      else readDouble negative whole places (if rest'.isEmpty then some 0 else readExponent? rest')
    | _ => readDouble negative whole [] (readExponent? rest)

/-- The words for values. -/
def words : List (String × Value) :=
  [("null", .null), ("true", .bool true), ("false", .bool false), ("NaN", .float Double.nan),
   ("Infinity", .float (Double.infinity false)), ("-Infinity", .float (Double.infinity true))]

/-- A number or a word. -/
def readScalar (cs : List Char) : Except Fault Value :=
  match words.lookup (String.ofList cs) with
  | some v => .ok v
  | none => match cs with
    | '-' :: ds => readMagnitude true ds
    | ds => readMagnitude false ds

/-- An open bracket with what has been read inside it, in reverse order. A record also knows the
name whose value is being read. -/
inductive Frame where
  | list (done : List Value)
  | record (done : List (String × Value)) (name : String)

/-- What may come next. -/
inductive Expect where
  | value
  | valueOrClose
  | name (done : List (String × Value))
  | nameOrClose
  | colon (done : List (String × Value)) (name : String)
  | separator (last : Value)

/-- What is expected when a value is complete inside the given brackets. -/
abbrev State := List Frame × Expect

/-- The state behind a complete value. -/
def afterValue (stack : List Frame) (v : Value) : State := (stack, .separator v)

/-- The entries of a record from those read, in reverse order. -/
def closeEntries (done : List (String × Value)) : Value :=
  .record (Entries.putAll [] done.reverse)

/-- Reads one lexeme as the start of a value. -/
def startValue (stack : List Frame) : Lexeme → Except Fault State
  | .text s => .ok (afterValue stack (.text (String.ofList s)))
  | .scalar cs => (readScalar cs).map (afterValue stack)
  | .openList => .ok (.list [] :: stack, .valueOrClose)
  | .openRecord => .ok (.record [] "" :: stack, .nameOrClose)
  | _ => .error .notJson

/-- Puts one more lexeme to what has been read. -/
def build : State → Lexeme → Except Fault State
  | (stack, .value), l => startValue stack l
  | (.list [] :: stack, .valueOrClose), .closeList => .ok (afterValue stack (.list []))
  | (stack, .valueOrClose), l => startValue stack l
  | (.record _ _ :: stack, .nameOrClose), .closeRecord => .ok (afterValue stack (.record []))
  | (.record _ _ :: stack, .nameOrClose), .text s => .ok (stack, .colon [] (String.ofList s))
  | (stack, .name done), .text s => .ok (stack, .colon done (String.ofList s))
  | (stack, .colon done name), .colon => .ok (.record done name :: stack, .value)
  | (.list done :: stack, .separator v), .comma => .ok (.list (v :: done) :: stack, .value)
  | (.list done :: stack, .separator v), .closeList =>
    .ok (afterValue stack (.list (v :: done).reverse))
  | (.record done name :: stack, .separator v), .comma => .ok (stack, .name ((name, v) :: done))
  | (.record done name :: stack, .separator v), .closeRecord =>
    .ok (afterValue stack (closeEntries ((name, v) :: done)))
  | _, _ => .error .notJson

/-- The value of a JSON text. -/
def read (cs : List Char) : Except Fault Value := do
  match ← (lexFrom [] .between cs).foldlM build ([], .value) with
  | ([], .separator v) => return v
  | _ => throw .notJson

/-- Puts one more lexeme to what has been read, as long as no more than `nesting` brackets are open
behind it. -/
def buildWithin (nesting : Nat) (state : State) (l : Lexeme) : Except Fault State := do
  let next ← build state l
  if nesting < next.1.length then throw .tooDeep
  return next

/-- The value of a JSON text, on a stack with room for so many open brackets. A bracket too many is
a fault as soon as it is opened, whatever follows it. -/
def readWithin (nesting : Nat) (cs : List Char) : Except Fault Value := do
  match ← (lexFrom [] .between cs).foldlM (buildWithin nesting) ([], .value) with
  | ([], .separator v) => return v
  | _ => throw .notJson

end NotebookTree.Json
