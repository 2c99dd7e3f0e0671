import NotebookTree.Html.Writer
import NotebookTree.Log
import NotebookTree.Markdown.HtmlWriter
import NotebookTree.Output.Bundle
import NotebookTree.Settings
import NotebookTree.Text.Color
import NotebookTree.Text.Markup

/-!
# Outputs as markup

A stream or an error is shown as preformatted text, a display or result by the first of its markup,
Markdown and plain text that has something in it. What is shown may be wrapped in an element whose
classes say what kind of output it is.

## Main definitions

* `Output.render`: an output as markup.
* `Output.parseMarkup`: the tree of the markup of an output.
* `Output.renderMarkdown`: the Markdown of an output as markup.

Reference: `render_output_to_html`, `parse_output_html`, `output_markdown_to_html`.
-/

namespace NotebookTree

/-- A value as text inside markup; it has to be a text. -/
def Value.escaped : Value → Except Fault String
  | .text s => .ok (String.ofList (Text.escapeMarkup s.toList))
  | v => .error (v.lacks "replace")

/-- A text without color sequences. -/
def Value.withoutColors : Value → Except Fault String
  | .text s => .ok (String.ofList (Text.stripColors s.toList))
  | _ => .error .wrongType

namespace Output

/-- An element with the classes for a kind of output around what is shown. -/
def wrapIn (tag wrapper : String) (kinds : List String) (content : String) : String :=
  "<" ++ tag ++ " class=\"" ++ wrapper
    ++ String.join (kinds.map (fun k => " " ++ wrapper ++ "-" ++ k)) ++ "\">" ++ content
    ++ "</" ++ tag ++ ">"

/-- A stream as markup. -/
def renderStream (settings output : Value) (wrapper : String) : Except Fault Value := do
  let content ← (← output.field "text").escaped
  if !(← settings.field "wrap").isTruthy then return .text content
  let name := (← output.field "name").plainText
  return .text (wrapIn "pre" wrapper ["stream", name] content)

/-- What is shown of a bundle. -/
def renderBundle (settings bundle : Value) : Except Fault Value := do
  let markup ← payload? bundle "text/html"
  if markup.isTruthy then return markup
  let markdown ← payload? bundle "text/markdown"
  if markdown.isTruthy then
    return .text (← Markdown.toHtml markdown (← settings.field "markdown_options"))
  let plain ← payload? bundle "text/plain"
  if plain.isTruthy then return .text ("<pre>" ++ (← plain.escaped) ++ "</pre>")
  return .text ""

/-- A display or result as markup. -/
def renderRich (settings output : Value) (wrapper : String) : Except Fault Value := do
  let content ← renderBundle settings (← output.field "data")
  if (← settings.field "wrap").isTruthy && content.isTruthy then
    let kind := if output.hasType "executeResult" then "execute-result" else "display-data"
    return .text (wrapIn "div" wrapper [kind] content.plainText)
  return content

/-- An error as markup. -/
def renderError (settings output : Value) (wrapper : String) : Except Fault Value := do
  let trace ← joinLines (← output.field "traceback")
  let kept := (← settings.field "preserve_ansi").isTruthy
  let shown ← if kept then pure trace else (Value.text trace).withoutColors
  let content ← (Value.text shown).escaped
  if !(← settings.field "wrap").isTruthy then return .text content
  let name ← (← output.field "ename").escaped
  let reason ← (← output.field "evalue").escaped
  return .text (wrapIn "pre" wrapper ["error"]
    ("<span class=\"error-name\">" ++ name ++ "</span>: " ++ reason ++ "\n" ++ content))

/-- An output as markup. Settings that count as false stand for the usual ones. -/
def render (output settings : Value) : Logged Value := do
  let settings := if settings.isTruthy then settings else Settings.usual .renderSettings
  let wrapper := (← Logged.ofExcept (settings.field "wrapper_class")).plainText
  if output.hasType "stream" then Logged.ofExcept (renderStream settings output wrapper)
  else if isRich output then Logged.ofExcept (renderRich settings output wrapper)
  else if output.hasType "error" then Logged.ofExcept (renderError settings output wrapper)
  else
    Logged.tell (.debug .outputs ("Cannot render node of type "
      ++ (output.type?.getD .null).plainText ++ " as an output"))
    return .text ""

/-- The payload of a type in the bundle of an output, null if it has none. -/
def sourceOf (output : Value) (t : String) : Except Fault Value :=
  if isRich output then do payload? (← output.field "data") t else .ok .null

/-- The tree of the markup of an output, null if it has none. -/
def parseMarkup (output settings : Value) : Except Fault Value := do
  let source ← sourceOf output "text/html"
  if !source.isTruthy then return .null
  let tree ← Html.parseTree source settings
  let children ← tree.field "children"
  return .node .parsedHtml [("children", children), ("data", .record [("source", source)]),
    ("position", .null)]

/-- The Markdown of an output as markup, null if it has none. -/
def renderMarkdown (output settings : Value) : Except Fault Value := do
  let source ← sourceOf output "text/markdown"
  if !source.isTruthy then return .null
  return .text (← Markdown.toHtml source settings)

end Output

end NotebookTree
