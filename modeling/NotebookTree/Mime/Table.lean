/-!
# The known types of content

Identifiers of content types by the name under which they are spoken of, the lists that say what a
type holds, and the table of priorities by which one of several representations is chosen.

Reference: `TEXT_MIME_TYPES`, `IMAGE_MIME_TYPES`, `APPLICATION_MIME_TYPES` and the other tables of
constants.
-/

namespace NotebookTree.Mime

/-- Types of text. -/
def textTypes : List (String × String) :=
  [("PLAIN", "text/plain"), ("HTML", "text/html"), ("MARKDOWN", "text/markdown"),
   ("LATEX", "text/latex"), ("CSV", "text/csv"), ("XML", "text/xml")]

/-- Types of images. -/
def imageTypes : List (String × String) :=
  [("PNG", "image/png"), ("JPEG", "image/jpeg"), ("GIF", "image/gif"), ("SVG", "image/svg+xml"),
   ("BMP", "image/bmp"), ("WEBP", "image/webp")]

/-- Types of documents and programs. -/
def applicationTypes : List (String × String) :=
  [("JSON", "application/json"), ("JAVASCRIPT", "application/javascript"),
   ("PDF", "application/pdf"), ("GEOJSON", "application/geo+json"), ("XML", "application/xml")]

/-- Types that notebooks have of their own. -/
def notebookTypes : List (String × String) :=
  [("WIDGET_VIEW", "application/vnd.jupyter.widget-view+json"),
   ("WIDGET_STATE", "application/vnd.jupyter.widget-state+json"),
   ("ERROR", "application/vnd.jupyter.error"), ("STDIN", "application/vnd.jupyter.stdin")]

/-- Types of plots. -/
def visualizationTypes : List (String × String) :=
  [("PLOTLY_V1", "application/vnd.plotly.v1+json"),
   ("VEGA_V2", "application/vnd.vega.v2+json"), ("VEGA_V3", "application/vnd.vega.v3+json"),
   ("VEGA_V4", "application/vnd.vega.v4+json"), ("VEGA_V5", "application/vnd.vega.v5+json"),
   ("VEGALITE_V1", "application/vnd.vegalite.v1+json"),
   ("VEGALITE_V2", "application/vnd.vegalite.v2+json"),
   ("VEGALITE_V3", "application/vnd.vegalite.v3+json"),
   ("VEGALITE_V4", "application/vnd.vegalite.v4+json"),
   ("VEGALITE_V5", "application/vnd.vegalite.v5+json"),
   ("BOKEH", "application/vnd.bokehjs_exec.v0+json"),
   ("HOLOVIEWS_EXEC", "application/vnd.holoviews_exec.v0+json"),
   ("HOLOVIEWS_LOAD", "application/vnd.holoviews_load.v0+json")]

/-- All types with a name. -/
def standard : List String :=
  (textTypes ++ imageTypes ++ applicationTypes ++ notebookTypes ++ visualizationTypes).map Prod.snd

/-- The types that hold text, which may come in pieces. -/
def textContent : List String :=
  ["text/plain", "text/html", "text/markdown", "text/latex", "text/csv", "text/xml",
   "application/javascript", "image/svg+xml"]

/-- The types that hold octets. -/
def binaryContent : List String :=
  ["image/png", "image/jpeg", "image/gif", "image/bmp", "image/webp", "application/pdf"]

/-- The types that hold free-form data. -/
def jsonContent : List String :=
  ["application/json", "application/geo+json", "application/vnd.jupyter.widget-view+json",
   "application/vnd.jupyter.widget-state+json"] ++ visualizationTypes.map Prod.snd

/-- The types that hold images. -/
def imageContent : List String :=
  ["image/png", "image/jpeg", "image/gif", "image/svg+xml", "image/bmp", "image/webp"]

/-- The types that hold widgets. -/
def widgetContent : List String :=
  ["application/vnd.jupyter.widget-view+json", "application/vnd.jupyter.widget-state+json"]

/-- How the types of plots begin. -/
def visualizationStarts : List String :=
  ["application/vnd.plotly.", "application/vnd.vega.", "application/vnd.vegalite.",
   "application/vnd.bokehjs", "application/vnd.holoviews"]

/-- The priorities. A type that is not listed has the usual one. -/
def priorities : List (String × Nat) :=
  [("text/html", 100),
   ("application/vnd.jupyter.widget-view+json", 95),
   ("application/vnd.plotly.v1+json", 90),
   ("application/vnd.vegalite.v5+json", 88), ("application/vnd.vegalite.v4+json", 87),
   ("application/vnd.vegalite.v3+json", 86), ("application/vnd.vegalite.v2+json", 85),
   ("application/vnd.vegalite.v1+json", 84),
   ("application/vnd.vega.v5+json", 83), ("application/vnd.vega.v4+json", 82),
   ("application/vnd.vega.v3+json", 81), ("application/vnd.vega.v2+json", 80),
   ("image/svg+xml", 75), ("image/png", 70), ("image/jpeg", 65), ("image/webp", 64),
   ("image/gif", 63), ("image/bmp", 60),
   ("text/markdown", 55), ("text/latex", 50), ("application/json", 45),
   ("application/geo+json", 44), ("application/javascript", 40), ("text/plain", 10)]

/-- The priority of a type that is not listed. -/
def usualPriority : Nat := 0

end NotebookTree.Mime
