import NotebookTree.Text.Character

/-!
# Quoted texts

A text between quotation marks, with everything that does not print spelled out. `'` is the usual
mark; a text that holds `'` but no `"` is put between `"` instead.

Reference: how the standard library quotes a text in a message.
-/

namespace NotebookTree.Text

/-- The digits of `n` in base sixteen, in lower case, at least `width` of them. -/
def hexDigits (width n : Nat) : List Char :=
  let ds := Nat.toDigits 16 n
  List.replicate (width - ds.length) '0' ++ ds

/-- The single quotation mark. -/
def singleQuote : Char := Char.ofNat 39

/-- The double quotation mark. -/
def doubleQuote : Char := Char.ofNat 34

/-- The reverse solidus. -/
def backslash : Char := Char.ofNat 92

/-- How one character stands between the given marks. -/
def quoteChar (mark c : Char) : List Char :=
  if c == mark || c == backslash then [backslash, c]
  else if c == '\n' then [backslash, 'n']
  else if c == '\r' then [backslash, 'r']
  else if c == '\t' then [backslash, 't']
  else if isPrintable c then [c]
  else if c.toNat < 256 then backslash :: 'x' :: hexDigits 2 c.toNat
  else if c.toNat < 65536 then backslash :: 'u' :: hexDigits 4 c.toNat
  else backslash :: 'U' :: hexDigits 8 c.toNat

/-- The mark a text is quoted with. -/
def quoteMark (cs : List Char) : Char :=
  if cs.contains singleQuote && !cs.contains doubleQuote then doubleQuote else singleQuote

/-- The text between quotation marks. -/
def quote (s : String) : String :=
  let cs := s.toList
  let mark := quoteMark cs
  String.ofList (mark :: cs.flatMap (quoteChar mark) ++ [mark])

end NotebookTree.Text
