import NotebookTree.Fault
import NotebookTree.Markdown.Syntax
import NotebookTree.Text.Likeness

/-!
# Settings

Settings are made from named values, checked, and never change: an update makes new settings, which
are checked again.

## Main definitions

* `Settings.check`: brings the fields of settings into form, or says what is wrong with them.
* `Settings.make`, `Settings.update`: settings from named values, and from others.
* `Settings.about`: what is known about each field.

Reference: `create_updated` of `CloneFrozenMixin`, `_validate_plugins`, and the checks that
`ParseOptions`, `MarkdownProcessorOptions`, `HtmlProcessorOptions`, `MarkdownToHtmlOptions` and
`RenderOutputOptions` make when they are built.
-/

namespace NotebookTree.Settings

/-- The names of the extensions, in order. -/
def extensionNames : List String := Markdown.Extension.all.map Markdown.Extension.name

/-- The backends for markup that may be asked for. -/
def backends : List String := ["html.parser", "html5lib", "lxml"]

mutual

/-- Whether a value can be looked up in a set. -/
def isHashable : Value → Bool
  | .list _ | .record _ => false
  | .tuple vs => areHashable vs
  | .node k fields => k == .stopSignal || Kind.settingsKinds.contains k && fieldsAreHashable fields
  | _ => true

/-- Whether all of some values can. -/
def areHashable : List Value → Bool
  | [] => true
  | v :: vs => isHashable v && areHashable vs

/-- Whether the values of all fields can. -/
def fieldsAreHashable : List (String × Value) → Bool
  | [] => true
  | (_, v) :: fields => isHashable v && fieldsAreHashable fields

end

/-- An item as it is compared with the characters of names: one that is no character of its own is
like none of them. -/
def asCharacter : Value → Char
  | .text s => match s.toList with
    | [c] => c
    | _ => Char.ofNat 0
  | _ => Char.ofNat 0

/-- What is said about a name, shown as `shown`, that is no extension. -/
def complaint (shown name : String) : String :=
  "'" ++ shown ++ "'" ++ match Text.closest? name extensionNames with
    | some t => " (did you mean '" ++ t ++ "'?)"
    | none => ""

/-- What is said about a name that is no extension, if it is none. A tuple is none, but is compared
with them item by item. -/
def complaint? : Value → Except Fault (Option String)
  | .text s => if extensionNames.contains s then .ok none else .ok (some (complaint s s))
  | .tuple vs =>
    if areHashable vs then
      .ok (some (complaint (Value.tuple vs).plainText (String.ofList (vs.map asCharacter))))
    else .error .wrongType
  | _ => .error .wrongType

/-- The extensions of settings, as a tuple of names of which each is known. -/
def checkExtensions (v : Value) : Except Fault Value := do
  let names ← v.items
  let complaints ← names.mapM complaint?
  match complaints.filterMap id with
  | [] => return .tuple names
  | cs => throw (.badValue ("Unknown markdown plugin(s): " ++ Value.joinWith ", " cs
      ++ ". Valid plugins are: " ++ Value.joinWith ", " extensionNames))

/-- The backend of settings, which is one of those that may be asked for. -/
def checkBackend (v : Value) : Except Fault Value :=
  match v with
  | .text s => if backends.contains s then .ok v else .error (unsupported v)
  | _ => .error (unsupported v)
where
  /-- The fault for a backend that may not be asked for. -/
  unsupported (v : Value) : Fault := .badValue ("Unsupported html_parser: " ++ v.literal)

/-- Whether one of the items is blank; they are looked at up to the first that is. -/
def someBlank : List Value → Except Fault Bool
  | [] => .ok false
  | .text s :: vs =>
    if !s.isEmpty && s.toList.all Text.isBlank then .ok true else someBlank vs
  | v :: _ => .error (v.lacks "isspace")

/-- The class for what is rendered: not empty, and nothing in it blank. -/
def checkClass (v : Value) : Except Fault Value := do
  let blank ← if v.isTruthy then v.items >>= someBlank else pure true
  if blank then
    throw (.badValue ("wrapper_class must be a single non-empty CSS class, got " ++ v.literal))
  return v

/-- The check of one field. -/
def checkField (k : Kind) (name : String) (v : Value) : Except Fault Value :=
  match k, name with
  | .markdownSettings, "plugins" | .markdownToHtmlSettings, "plugins" => checkExtensions v
  | .htmlSettings, "html_parser" => checkBackend v
  | .renderSettings, "wrapper_class" => checkClass v
  | _, _ => .ok v

/-- The fields of settings, each checked. -/
def check (k : Kind) (fields : Entries Value) : Except Fault (Entries Value) :=
  fields.mapM (fun f => do return (f.1, ← checkField k f.1 f.2))

end Settings

/-- The fields of a kind with the given values, the others with their defaults. A name that the kind
does not have, or a field without a value, does not fit. -/
def Kind.fill (k : Kind) (given : Entries Value) : Except Fault (Entries Value) := do
  if given.any (fun g => !k.fields.any (fun f => f.1 == g.1)) then throw .wrongType
  k.fields.mapM (fun f => match Entries.get? given f.1, f.2 with
    | some v, _ => .ok (f.1, v)
    | none, some v => .ok (f.1, v)
    | none, none => .error .wrongType)

namespace Settings

/-- Settings with the given values. -/
def make (k : Kind) (given : Entries Value) : Except Fault Value := do
  return .node k (← check k (← k.fill given))

/-- Whether a value is settings. -/
def isSettings : Value → Bool
  | .node k _ => Kind.settingsKinds.contains k
  | _ => false

/-- Settings like others, with the given changes. -/
def update (current : Value) (changes : Entries Value) : Except Fault Value :=
  match current with
  | .node k fields =>
    if Kind.settingsKinds.contains k then make k (Entries.putAll fields changes)
    else .error (current.lacks "create_updated")
  | v => .error (v.lacks "create_updated")

/-- What comes of setting a field of settings in place: nothing but a fault. -/
def assign (current : Value) (name : String) : Fault :=
  if isSettings current then .frozen else current.lacks name

/-- The usual settings of a kind. -/
def usual (k : Kind) : Value :=
  .node k (k.fields.map (fun f => (f.1, f.2.getD .null)))

/-- What is known about each field of settings. -/
def about (k : Kind) (name : String) : Entries Value :=
  match k, name with
  | .markdownSettings, "plugins" | .markdownToHtmlSettings, "plugins" =>
    [help "Ordered mistune plugin names to enable", ("action", .text "append"), core]
  | .htmlSettings, "fragment" =>
    [help "Parse HTML as a fragment rather than a full document", advanced]
  | .htmlSettings, "html_parser" =>
    [help "BeautifulSoup parser backend", ("choices", .list (backends.map Value.text)), advanced]
  | .markdownToHtmlSettings, "allow_dangerous_html" =>
    [help "Keep raw HTML found in markdown instead of escaping it",
     ("importance", .text "security")]
  | .renderSettings, "wrap" =>
    [help "Wrap rendered outputs in an element with CSS classes", core]
  | .renderSettings, "wrapper_class" => [help "Base CSS class for output wrappers", advanced]
  | .renderSettings, "preserve_ansi" =>
    [help "Keep ANSI color codes in error tracebacks", advanced]
  | .renderSettings, "markdown_options" =>
    [help "Markdown-to-HTML configuration", hidden, advanced]
  | .parseSettings, "parse_markdown" => [help "Parse markdown cells into node trees", core]
  | .parseSettings, "markdown_options" =>
    [help "Markdown processor configuration", hidden, advanced]
  | _, _ => []
where
  /-- A line of help. -/
  help (s : String) : String × Value := ("help", .text s)
  /-- The mark of a field that most users meet. -/
  core : String × Value := ("importance", .text "core")
  /-- The mark of a field that few users meet. -/
  advanced : String × Value := ("importance", .text "advanced")
  /-- The mark of a field that commands do not offer. -/
  hidden : String × Value := ("exclude_from_cli", .bool true)

end NotebookTree.Settings
