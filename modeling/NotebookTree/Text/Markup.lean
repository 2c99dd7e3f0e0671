import NotebookTree.Text.Quoted

/-!
# Text inside markup

Text that is put into markup has the five characters with a meaning there replaced by references.
The escaping is a run of replacements over the whole text, the ampersand first, so that no
replacement meets what an earlier one wrote, apart from the last, which only respells a reference.

## Main definitions

* `escapeMarkup`: the text with references in place of the five characters.
* `referenceFor`: what one character becomes.

Reference: `escape_html`.
-/

namespace NotebookTree.Text

/-- Replaces a text by another wherever it stands, from the front. -/
def replaceAll (needle by' : List Char) : List Char → List Char
  | [] => []
  | c :: cs =>
    if needle.isPrefixOf (c :: cs) then
      by' ++ replaceAll needle by' (cs.drop (needle.length - 1))
    else c :: replaceAll needle by' cs
termination_by cs => cs.length
decreasing_by
  · simp only [List.length_drop, List.length_cons]; omega
  · simp

/-- The reference that one character becomes, or the character itself. -/
def referenceFor (c : Char) : List Char :=
  if c == '&' then "&amp;".toList
  else if c == '<' then "&lt;".toList
  else if c == '>' then "&gt;".toList
  else if c == doubleQuote then "&quot;".toList
  else if c == singleQuote then "&#39;".toList
  else [c]

/-- The replacements that make text fit for markup, in the order in which they are made. -/
def markupReplacements : List (List Char × List Char) :=
  [("&".toList, "&amp;".toList), ("<".toList, "&lt;".toList), (">".toList, "&gt;".toList),
   ([doubleQuote], "&quot;".toList), ([singleQuote], "&#x27;".toList),
   ("&#x27;".toList, "&#39;".toList)]

/-- The text with references in place of the characters that mean something in markup. -/
def escapeMarkup (cs : List Char) : List Char :=
  markupReplacements.foldl (fun text r => replaceAll r.1 r.2 text) cs

end NotebookTree.Text
