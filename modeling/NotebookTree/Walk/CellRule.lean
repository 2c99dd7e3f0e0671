import NotebookTree.Markdown.Document
import NotebookTree.Mime.Payload
import NotebookTree.Walk.Transform

/-!
# Rules for cells

Callbacks for `Walk.transform` that drop outputs or cells from a notebook, or read its Markdown. The
rules for cells act on the root and give it another row of children; the one for Markdown puts a
tree in the place of each text.

## Main definitions

* `CellRule`: the rules.
* `CellRule.callback`: a rule as a callback.
* `CellRule.applyAll`: transforms with rules, one after the other.
* `hasContent`: whether a cell counts as having content.
* `cellTags`: the tags of a cell.

Reference: `_cell_tags`, `RemoveOutputsTransform`, `RemoveEmptyCellsTransform`,
`RemoveCellsByTagTransform`, `ExtractCellsByTagTransform`, `ParseMarkdownCellsTransform`.
-/

namespace NotebookTree

/-- The rules. Tags are values that may stand as names. -/
inductive CellRule where
  | removeOutputs
  | removeEmpty
  | removeTagged (tags : List Value)
  | keepTagged (tags : List Value)
  | readMarkdown (settings : Value)

/-- Values as tags, if all of them may stand as names. -/
def tagSet (tags : List Value) : Except Fault (List Value) :=
  if tags.all (fun t => t.isName) then .ok tags else .error .wrongType

/-- Adds a value unless an equal one is there. -/
def addDistinct (found : List Value) (v : Value) : List Value :=
  if found.any (fun w => v.equals w) then found else found ++ [v]

/-- Whether one of the values is among the tags, or `found` has one already. They are looked at until
all tags have been found. -/
def someAmong (tags : List Value) (found : List Value) : List Value → Except Fault Bool
  | [] => .ok !found.isEmpty
  | v :: vs =>
    if !v.isName then .error .wrongType
    else if tags.any (fun t => v.equals t) then
      let found := addDistinct found v
      if (tags.foldl addDistinct []).length ≤ found.length then .ok true
      else someAmong tags found vs
    else someAmong tags found vs

namespace Walk

variable {σ : Type}

/-- A field of an item that has to be there. -/
def fieldOf (i : Item) (name : String) : Walk σ Item := do
  let s ← getStore
  match s.attribute? i name with
  | some f => return f
  | none => throw ((s.view i).lacks name)

/-- The items that an item consists of, when it is gone through. -/
def itemsOf (i : Item) : Walk σ (List Item) := do
  match i with
  | .row id | .fixedRow id => return (← getStore).rowItems id
  | .plain v => return (← ofExcept v.items).map .plain
  | .node _ => throw .wrongType

/-- The first of the items that an item consists of. -/
def firstOf (i : Item) : Walk σ Item := do
  match i with
  | .plain v => return .plain (← ofExcept (match v with
    | .text s => match s.toList with
      | c :: _ => Except.ok (.text (String.singleton c))
      | [] => .error .noIndex
    | .record _ => .error .noKey
    | v => v.items.bind (fun xs => match xs with
      | x :: _ => .ok x
      | [] => .error .noIndex)))
  | i => match ← itemsOf i with
    | x :: _ => return x
    | [] => throw .noIndex

/-- Sets a field of an item that is a node. -/
def setFieldOf (i : Item) (name : String) (f : Item) : Walk σ Unit :=
  changeStore (fun s => match i with
    | .node id => ((), s.setField id name f)
    | _ => ((), s))

/-- Whether the word of an item for `name` is the given one. -/
def hasWord (s : Store) (i : Item) (name word : String) : Bool :=
  (s.fieldView i name).equals (.text word)

/-- Whether an item is a cell of the given kind. -/
def isCellOf (s : Store) (i : Item) (word : String) : Bool :=
  hasWord s i "type" "cell" && hasWord s i "cell_type" word

/-- Cuts the children of a cell down to the first. -/
def dropOutputs (cell : Item) : Walk σ Unit := do
  if !isCellOf (← getStore) cell "code" then return
  let children ← fieldOf cell "children"
  let items ← itemsOf children
  if items.length ≤ 1 then return
  match children with
  | .row _ => setChildren cell (items.take 1)
  | .fixedRow _ =>
    let id ← changeStore (fun s => s.newRow (items.take 1))
    setFieldOf cell "children" (.fixedRow id)
  | .plain (.text s) =>
    setFieldOf cell "children" (.plain (.text (String.ofList (s.toList.take 1))))
  | .plain (.tuple xs) => setFieldOf cell "children" (.plain (.tuple (xs.take 1)))
  | .plain (.list xs) => setFieldOf cell "children" (.plain (.list (xs.take 1)))
  | _ => throw .wrongType

/-- Whether the value of an item is a text with something in it. -/
def hasText (i : Item) : Walk σ Bool := do
  let v ← fieldOf i "value"
  match (← getStore).view v with
  | .text s => return !(Text.trim s.toList).isEmpty
  | v => throw (v.lacks "strip")

/-- Whether a cell has content: a code cell if its source is not blank, a Markdown cell if its text
is not blank or, once read, if it has blocks other than blank lines. Any other cell has. -/
def hasContent (cell : Item) : Walk σ Bool := do
  let s ← getStore
  if isCellOf s cell "code" then
    let children ← fieldOf cell "children"
    if !s.isTruthy children then return false
    hasText (← firstOf children)
  else if isCellOf s cell "markdown" then
    let children ← fieldOf cell "children"
    if !s.isTruthy children then return false
    let content ← firstOf children
    -- text is judged as it stands, a tree that was read from it by its blocks
    if hasWord s content "type" "markdown" then hasText content
    else
      let blocks ← fieldOf content "children"
      if !s.isTruthy blocks then return false
      return (← itemsOf blocks).any (fun b => !hasWord s b "type" "blank_line")
  else return true

/-- The tags of a cell. -/
def cellTags (cell : Item) : Walk σ (List Value) := do
  let metadata := (← getStore).fieldView cell "metadata"
  if !metadata.isTruthy then return []
  match metadata with
  | .record es =>
    let tags := (Entries.get? es "tags").getD .null
    if !tags.isTruthy then return []
    ofExcept tags.items
  | v => throw (v.lacks "get")

/-- Whether a cell has one of the tags. Each of its own tags that is looked at has to be fit for a
name. -/
def isTagged (tags : List Value) (cell : Item) : Walk σ Bool := do
  ofExcept (someAmong tags [] (← cellTags cell))

/-- Gives the root the children for which a test holds. -/
def keepCells (root : Item) (test : Item → Walk σ Bool) : Walk σ Unit := do
  let cells ← itemsOf (← fieldOf root "children")
  setChildren root (← cells.filterM test)

/-- The tree of the text of a node, in a store of its own; the text stays with it. -/
def readMarkdownNode [Markdown.Engine] (settings : Value) (node : Item) : Walk σ Item := do
  let source := (← getStore).view (← fieldOf node "value")
  let tree ← ofLogged (Markdown.parse source settings)
  let data := (← getStore).view (← fieldOf node "data")
  let entries ← if data.isTruthy then ofExcept data.asEntries else pure []
  let position ← fieldOf node "position"
  changeStore (fun s =>
    let (children, s) := s.loadField "children" (.list (tree.children?.getD []))
    let (id, s) := s.newNode ⟨.parsedMarkdown,
      [("children", children),
       ("data", .plain (.record (Entries.put entries "source" source))), ("position", position)]⟩
    (.node id, s))

end Walk

open Walk

namespace CellRule

variable {σ : Type}

/-- What a rule does to the root. -/
def applyToRoot (rule : CellRule) (root : Item) : Walk σ Unit := do
  match rule with
  | removeOutputs => (← itemsOf (← fieldOf root "children")).forM dropOutputs
  | removeEmpty =>
    let before ← itemsOf (← fieldOf root "children")
    keepCells root hasContent
    let after ← itemsOf (← fieldOf root "children")
    tell (.debug .transforms
      ("Removed " ++ toString (before.length - after.length) ++ " empty cells"))
  | removeTagged tags => keepCells root (fun c => do return !(← isTagged tags c))
  | keepTagged tags => keepCells root (isTagged tags)
  | readMarkdown _ => return

/-- A rule as a callback. -/
def callback [Markdown.Engine] (rule : CellRule) : Callback σ := fun node _ _ =>
  match rule with
  | readMarkdown settings => return .later (do
    if hasWord (← getStore) node "type" "markdown" then readMarkdownNode settings node
    else return .nothing)
  | rule => do
    if hasWord (← getStore) node "type" "root" then rule.applyToRoot node
    return .now .nothing

/-- Transforms a tree with rules, one after the other. -/
def applyAll [Markdown.Engine] (limit : Nat) (rules : List CellRule) (reverse : Bool)
    (tree : Item) : Walk σ Item :=
  rules.foldlM (fun tree rule => transform limit tree rule.callback reverse) tree

end CellRule

end NotebookTree
