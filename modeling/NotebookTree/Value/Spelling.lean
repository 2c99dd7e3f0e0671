import NotebookTree.Text.Quoted
import NotebookTree.Value

/-!
# How values are spelled in messages and labels

`Value.literal` writes a value the way it would be entered, with texts quoted; `Value.plainText` is
the same except that a text stands for itself.

Reference: how the standard library spells values in messages and in formatted texts.
-/

namespace NotebookTree.Value

/-- Joins texts with a separator. -/
def joinWith (separator : String) (parts : List String) : String :=
  separator.intercalate parts

mutual

/-- The value as a literal. -/
def literal : Value → String
  | null => "None"
  | bool true => "True"
  | bool false => "False"
  | int n => toString n
  | float x => x.text
  | text s => Text.quote s
  | list xs => "[" ++ joinWith ", " (literals xs) ++ "]"
  | tuple [x] => "(" ++ literal x ++ ",)"
  | tuple xs => "(" ++ joinWith ", " (literals xs) ++ ")"
  | record es => "\x7b" ++ joinWith ", " (entryLiterals es) ++ "\x7d"
  | node .stopSignal _ => "<WalkSignal.STOP: 'stop'>"
  | node k fields => k.name ++ "(" ++ joinWith ", " (fieldLiterals (k.fields.map Prod.fst) fields)
      ++ ")"

/-- The literals of a sequence. -/
def literals : List Value → List String
  | [] => []
  | x :: xs => literal x :: literals xs

/-- The entries of a record as literals. -/
def entryLiterals : List (String × Value) → List String
  | [] => []
  | (name, x) :: es => (Text.quote name ++ ": " ++ literal x) :: entryLiterals es

/-- The declared ones among the fields of a node, each with its name. -/
def fieldLiterals (names : List String) : List (String × Value) → List String
  | [] => []
  | (name, x) :: es =>
    if names.contains name then (name ++ "=" ++ literal x) :: fieldLiterals names es
    else fieldLiterals names es

end

/-- The value as running text: a text is itself, anything else its literal. -/
def plainText : Value → String
  | text s => s
  | node .stopSignal _ => "WalkSignal.STOP"
  | v => literal v

/-- The word for the type of a value. -/
def typeName : Value → String
  | null => "NoneType"
  | bool _ => "bool"
  | int _ => "int"
  | float _ => "float"
  | text _ => "str"
  | list _ => "list"
  | tuple _ => "tuple"
  | record _ => "dict"
  | node k _ => k.name

end NotebookTree.Value
