import NotebookTree.Text.Quoted
import NotebookTree.Value.Spelling

/-!
# Writing JSON

`Json.write` prints a value as JSON text on one line or with one item per line. Characters outside
ASCII stand as they are; only quotation marks, reverse solidi and control characters are escaped.

Reference: the encoder of JSON that `ast_to_json` calls.
-/

namespace NotebookTree.Json

open Text (doubleQuote backslash)

/-- How one character stands inside a JSON string. -/
def escapeChar (c : Char) : List Char :=
  if c == doubleQuote || c == backslash then [backslash, c]
  else if c == '\n' then [backslash, 'n']
  else if c == '\r' then [backslash, 'r']
  else if c == '\t' then [backslash, 't']
  else if c == '\x0c' then [backslash, 'f']
  else if c == '\x08' then [backslash, 'b']
  else if c.toNat < 32 then backslash :: 'u' :: Text.hexDigits 4 c.toNat
  else [c]

/-- A JSON string. -/
def writeText (s : String) : List Char :=
  doubleQuote :: s.toList.flatMap escapeChar ++ [doubleQuote]

/-- A JSON number, or one of the words for the numbers that JSON has none for. -/
def writeFloat (x : Double) : List Char :=
  (x.textWith "NaN" "Infinity").toList

/-- How items are set apart: on one line, or each on a line of its own, indented by `step` spaces
per level. -/
inductive Style where
  | line
  | block (step : Nat)

/-- What stands before an item at the given depth. -/
def Style.lead : Style → Nat → List Char
  | line, _ => []
  | block step, depth => '\n' :: List.replicate (step * depth) ' '

/-- What stands between two items. -/
def Style.separator : Style → Nat → List Char
  | line, _ => [',', ' ']
  | block step, depth => ',' :: '\n' :: List.replicate (step * depth) ' '

/-- Items between brackets, set apart as the style says; brackets without items touch. -/
def enclose (style : Style) (depth : Nat) (opening closing : Char) (items : List (List Char)) :
    List Char :=
  if items.isEmpty then [opening, closing]
  else
    opening :: style.lead (depth + 1) ++ (style.separator (depth + 1)).intercalate items
      ++ style.lead depth ++ [closing]

mutual

/-- A value at the given depth. A node has no JSON form; its spelling stands as a string. -/
def writeAt (style : Style) (depth : Nat) : Value → List Char
  | .null => "null".toList
  | .bool true => "true".toList
  | .bool false => "false".toList
  | .int n => (toString n).toList
  | .float x => writeFloat x
  | .text s => writeText s
  | .list xs => enclose style depth '[' ']' (writeItems style (depth + 1) xs)
  | .tuple xs => enclose style depth '[' ']' (writeItems style (depth + 1) xs)
  | .record es => enclose style depth '\x7b' '\x7d' (writeEntries style (depth + 1) es)
  | .node k fields => writeText (Value.node k fields).plainText

/-- The items of a sequence. -/
def writeItems (style : Style) (depth : Nat) : List Value → List (List Char)
  | [] => []
  | x :: xs => writeAt style depth x :: writeItems style depth xs

/-- The entries of a record. -/
def writeEntries (style : Style) (depth : Nat) : List (String × Value) → List (List Char)
  | [] => []
  | (name, x) :: es =>
    (writeText name ++ ':' :: ' ' :: writeAt style depth x) :: writeEntries style depth es

end

/-- The style for an indentation: none is one line, and a negative one indents by nothing. -/
def Style.ofIndent : Option Int → Style
  | none => .line
  | some n => .block n.toNat

/-- A value as JSON text. -/
def write (indent : Option Int) (v : Value) : String :=
  String.ofList (writeAt (.ofIndent indent) 0 v)

end NotebookTree.Json
