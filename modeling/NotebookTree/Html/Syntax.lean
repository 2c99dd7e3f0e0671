import NotebookTree.Fault
import NotebookTree.Text.Reference

/-!
# HTML documents

What an HTML document is made of, and what is known about tags by name.

## Main definitions

* `AttributeValue`: what an attribute is set to.
* `Item`: tags with their content, and the other parts of a document.
* `isVoid`, `isVerbatim`, `keepsBlanks`, `isWordList`: what depends on the name of a tag.

Reference: the tables of names that the engine behind `parse_html` and `stringify_html` goes by.
-/

namespace NotebookTree.Html

/-- What an attribute is set to: nothing, a text, or a list of words. -/
inductive AttributeValue where
  | bare
  | text (s : List Char)
  | words (ws : List (List Char))

/-- The parts of a document. -/
inductive Item where
  | tag (name : List Char) (attributes : List (String × AttributeValue)) (children : List Item)
  | text (s : List Char)
  | comment (s : List Char)
  | doctype (s : List Char)
  | cdata (s : List Char)
  | instruction (s : List Char)
  | declaration (s : List Char)

instance : Inhabited Item := ⟨.text []⟩

/-- The tags that have no content. -/
def voidTags : List String :=
  ["area", "base", "br", "col", "embed", "hr", "img", "input", "keygen", "link", "menuitem", "meta",
   "param", "source", "track", "wbr", "basefont", "bgsound", "command", "frame", "image", "isindex",
   "nextid", "spacer"]

/-- Whether a tag has no content. -/
def isVoid (name : List Char) : Bool := voidTags.contains (String.ofList name)

/-- Whether the content of a tag is not markup. -/
def isVerbatim (name : List Char) : Bool :=
  name == "script".toList || name == "style".toList

/-- Whether blanks alone count inside a tag. -/
def keepsBlanks (name : List Char) : Bool :=
  name == "pre".toList || name == "textarea".toList

/-- The attributes of a tag that are lists of words, besides those that are so everywhere. -/
def wordListsOf (tag : List Char) : List String :=
  match String.ofList (Text.lower tag) with
  | "a" => ["rel", "rev"]
  | "link" => ["rel", "rev"]
  | "td" => ["headers"]
  | "th" => ["headers"]
  | "form" => ["accept-charset"]
  | "object" => ["archive"]
  | "area" => ["rel"]
  | "icon" => ["sizes"]
  | "iframe" => ["sandbox"]
  | "output" => ["for"]
  | _ => []

/-- Whether an attribute of a tag is a list of words. -/
def isWordList (tag : List Char) (attribute' : String) : Bool :=
  attribute' == "class" || attribute' == "accesskey" || attribute' == "dropzone" ||
    (wordListsOf tag).contains attribute'

end NotebookTree.Html
