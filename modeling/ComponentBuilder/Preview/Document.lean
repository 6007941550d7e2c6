import ComponentBuilder.Json.Display
import ComponentBuilder.Metrics
import ComponentBuilder.Preview.Script

/-!
# Preview documents

A document is a template whose markers are replaced in one pass, so that nothing that takes the place
of a marker is read again.  User text enters only as JSON that holds no angle bracket and no line
separator, or escaped as text of the document.
-/

namespace ComponentBuilder

namespace Preview

open Text

/-- Markers and what takes their place. -/
abbrev Markers := List (String × String)

/-- The markers with longer ones first. -/
def longestFirst (markers : Markers) : Markers :=
  markers.mergeSort fun a b => b.1.length ≤ a.1.length

/-- The first marker that a text begins with. -/
def markerAt? (markers : Markers) (text : List Char) : Option (String × String) :=
  markers.find? fun marker => marker.1.toList.isPrefixOf text

/--
Replace markers from left to right.  `skip` characters of the last marker are still to be passed
over, and `seen` is the reversed text so far.  An empty marker matches before every character at
which no other does, and at the end.
-/
def fillFrom (markers : Markers) (skip : Nat) (seen : List Char) : List Char → List Char
  | [] =>
      match markerAt? markers [] with
      | some (_, value) => (value.toList.reverse ++ seen).reverse
      | none => seen.reverse
  | c :: rest =>
      match skip with
      | skip + 1 => fillFrom markers skip seen rest
      | 0 =>
          match markerAt? markers (c :: rest) with
          | none => fillFrom markers 0 (c :: seen) rest
          | some (marker, value) =>
              let seen := value.toList.reverse ++ seen
              match marker.length with
              | 0 => fillFrom markers 0 (c :: seen) rest
              | size + 1 => fillFrom markers size seen rest

/-- Replace every marker of a template in one pass. -/
def fill (template : String) (markers : Markers) : String :=
  String.ofList (fillFrom (longestFirst markers) 0 [] template.toList)

/-- Fill a template from a table that has to name at least one marker. -/
def fill? (template : String) (markers : Markers) : Option String :=
  if markers.isEmpty then none else some (fill template markers)

/-- The text of a character of JSON inside a script element. -/
def escapeForScript (c : Char) : List Char :=
  if c = '<' then "\\u003c".toList
  else if c.toNat = 0x2028 then "\\u2028".toList
  else if c.toNat = 0x2029 then "\\u2029".toList
  else [c]

/-- JSON that may stand inside a script element. -/
def scriptJson (value : Json) : Except Json.PrintError String :=
  (value.print .compact).map fun text =>
    String.ofList (text.toList.flatMap escapeForScript)

/-- The text of a character in the text of a document. -/
def escapeForText (c : Char) : List Char :=
  if c = '&' then "&amp;".toList
  else if c = '<' then "&lt;".toList
  else if c = '>' then "&gt;".toList
  else if c = '"' then "&quot;".toList
  else if c = '\'' then "&#x27;".toList
  else [c]

/-- A text as text of a document. -/
def textOfDocument (text : String) : String :=
  String.ofList (text.toList.flatMap escapeForText)

/-- The JSON text of a string inside a script element. -/
def scriptString (text : String) : String :=
  String.ofList ((Json.quote text.toList).flatMap escapeForScript)

/-- The JSON text of bindings inside a script element, as pairs of a name and its target. -/
def scriptBindings (bindings : List Binding) : String :=
  let value : Json :=
    .arr (bindings.map fun binding => .arr [.str binding.name, .str binding.target.word])
  String.ofList ((value.render .compact 0).flatMap escapeForScript)

/-- The document that only shows an error. -/
def renderFallback (message : String) (generation : Int) : String :=
  fill Template.fallback
    [("__CSP__", Template.securityPolicy),
      ("__STATUS_TYPE__", Template.statusType),
      ("__GENERATION_VALUE__", toString generation),
      ("__MESSAGE_JSON__", scriptString message),
      ("__MESSAGE__", textOfDocument message)]

/-- The document of a component. -/
def render (prepared : Prepared) (generation : Int) : String :=
  fill (Template.head ++ Template.runtime)
    [("__CSP__", Template.securityPolicy),
      ("__STATUS_TYPE__", Template.statusType),
      ("__GENERATION_VALUE__", toString generation),
      ("__SHIM_TABLE__", Shims.table),
      ("__BINDINGS_JSON__", scriptBindings prepared.bindings),
      ("__USER_SOURCE_JSON__", scriptString prepared.script)]

/-- A document for the frame. -/
inductive Document where
  /-- The document of a component. -/
  | component (html : String)
  /-- The document of an error. -/
  | fallback (html : String)
deriving DecidableEq, Repr

namespace Document

/-- The text of a document. -/
def html : Document → String
  | component html => html
  | fallback html => html

/-- What is counted when a document is made. -/
def event : Document → Metrics.Event
  | component _ => .previewCompile "ok"
  | fallback _ => .previewCompile "fallback"

end Document

/-- The document of a source; whatever is no text gives a document that says so. -/
def compile (source : Json) (generation : Int) : Document :=
  match source with
  | .str text => .component (render (prepare text) generation)
  | other =>
      .fallback (renderFallback ("Expected component source text, got " ++ other.kindWord)
        generation)

end Preview

end ComponentBuilder
