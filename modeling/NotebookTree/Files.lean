import NotebookTree.Fault
import NotebookTree.Text.Lines

/-!
# Files

A folder of files, each under its path from the folder, and the ways in which a path can fail to
lead to a file. Text in files is octets of UTF-8; read as lines, every kind of line end counts as a
line feed.

## Main definitions

* `Folder`, `Folder.find`: files by path, and the content or the obstacle at a path.
* `Folder.place`, `Folder.extend`: where a file to be written lies, and the folder with more in it.
* `decodeText`: the text of octets.
* `unifyLineEnds`: text with a line feed for every line end.
* `tidyPath`: a path without the parts that lead nowhere.

Reference: what `parse_from_file`, `parse` of `IpynbParser` and `configure_logging` do with paths
and files.
-/

namespace NotebookTree

/-- Files, each under the names that lead to it; a name of strokes only stands for the root. -/
abbrev Folder := List (List String × ByteArray)

/-- The name under which a path starts that leads from the root: of its strokes in front only a pair
stays a pair. -/
def rootName (path : String) : List String :=
  match (path.toList.takeWhile (· == '/')).length with
  | 0 => []
  | 2 => ["//"]
  | _ => ["/"]

/-- The names on a path. Those that stay where they are do not count. -/
def pathNames (path : String) : List String :=
  rootName path ++ ((Text.splitWhere (· == '/') path.toList).map String.ofList).filter
    (fun s => s != "" && s != ".")

/-- A path with the given names; without any it stays where it is. -/
def joinNames : List String → String
  | [] => "."
  | name :: names =>
    if Text.endsWith name.toList ['/'] then name ++ Value.joinWith "/" names
    else Value.joinWith "/" (name :: names)

/-- A path without the parts that lead nowhere. -/
def tidyPath (path : String) : String := joinNames (pathNames path)

/-- The greatest length of a name, in octets. -/
def nameLimit : Nat := 255

/-- The greatest length of a path, in octets. -/
def pathLimit : Nat := 4095

namespace Folder

/-- Whether names lead to a folder: the folder itself, the root, or what lies above a file. -/
def isFolder (folder : Folder) (names : List String) : Bool :=
  names.isEmpty || names == ["/"] || names == ["//"]
    || folder.any (fun f => names.isPrefixOf f.1 && names.length < f.1.length)

/-- What lies at the end of some names, or the first obstacle on the way. -/
def follow (folder : Folder) (done : List String) : List String →
    Except FileObstacle (Option ByteArray)
  | [] => if folder.isFolder done then .ok none else match folder.lookup done with
    | some content => .ok (some content)
    | none => .error .missing
  | name :: names =>
    if nameLimit < name.utf8ByteSize then .error .nameTooLong
    else if folder.isFolder done then follow folder (done ++ [name]) names
    else if (folder.lookup done).isSome then .error .notDirectory
    else .error .missing

/-- The content of the file at a path. -/
def find (folder : Folder) (path : String) : Except Fault ByteArray :=
  if path.toList.contains (Char.ofNat 0) then .error (.badValue "embedded null byte")
  else if path.isEmpty then .error (.noFile .missing path)
  else if pathLimit < path.utf8ByteSize then .error (.noFile .nameTooLong path)
  else match folder.follow [] (pathNames path) with
    | .error obstacle => .error (.noFile obstacle path)
    | .ok none => .error (.noFile .isDirectory path)
    | .ok (some content) =>
      if Text.endsWith path.toList ['/'] then .error (.noFile .notDirectory path)
      else .ok content

/-- The names to which a path leads from `home` when each pair of points leads back. -/
def placeNames (path : String) : List String :=
  (rootName path) ++ (((pathNames path).drop (rootName path).length).foldl (fun done name =>
    if name == ".." then done.drop 1 else name :: done) []).reverse

/-- Where a file lies that is to be written, when the folder itself lies at `home`: the file need
not be there, but the folder that it lies in has to. -/
def place (folder : Folder) (home path : String) : Except Fault (List String) :=
  let names := placeNames path
  let full :=
    if Text.startsWith path.toList ['/'] then joinNames names else joinNames (home :: names)
  if path.toList.contains (Char.ofNat 0) then .error (.badValue "embedded null byte")
  else if folder.isFolder names then .error (.noFile .isDirectory full)
  else match folder.follow [] names.dropLast with
    | .error obstacle => .error (.noFile obstacle full)
    | .ok (some _) => .error (.noFile .notDirectory full)
    | .ok none =>
      if nameLimit < (names.getLast?.getD "").utf8ByteSize then
        .error (.noFile .nameTooLong full)
      else .ok names

/-- The folder with something added at the end of a file, which is made if it is not there. -/
def extend (folder : Folder) (names : List String) (octets : ByteArray) : Folder :=
  if (folder.lookup names).isSome then
    folder.map (fun f => if f.1 == names then (names, f.2 ++ octets) else f)
  else folder ++ [(names, octets)]

end Folder

/-- The text of octets. -/
def decodeText (octets : ByteArray) : Except Fault (List Char) :=
  match String.fromUTF8? octets with
  | some s => .ok s.toList
  | none => .error .notUtf8

/-- Text with a line feed for every line end. -/
def unifyLineEnds : List Char → List Char
  | [] => []
  | '\r' :: '\n' :: cs => '\n' :: unifyLineEnds cs
  | c :: cs => (if c == '\r' then '\n' else c) :: unifyLineEnds cs

end NotebookTree
