import ComponentBuilder.Preview.Binding

/-!
# Modules as scripts

The preview runs a component as a plain script, so imports are taken out, exports become assignments,
and calls that would load a module become `undefined`.
-/

namespace ComponentBuilder

namespace Preview

open Text

/-- An import statement without a clause. -/
def bareImport : Pattern :=
  codeStart ++ .text "import" ++ .gap ++ lineString ++ codeEnd

/-- A string that may go over several lines. -/
def anyString : Pattern :=
  scriptQuote ++ .many 0 (!Markup.Scan.isTagQuote ·) ++ scriptQuote

/-- A list of exports. -/
def exportList : Pattern :=
  .lineStart ++ lineSpace ++ .text "export" ++ .blanks ++ .one (· == '{') ++ .many 0 (· != '}') ++
    .one (· == '}') ++ .optional (.blanks ++ .text "from" ++ .blanks ++ anyString) ++ codeEnd

/-- The words of a default export. -/
def defaultExport : Pattern :=
  .edge ++ .text "export" ++ .gap ++ .text "default" ++ .gap

/-- The word of an export in front of a declaration. -/
def exportWord : Pattern :=
  .edge ++ .text "export" ++ .gap ++
    .ahead (.oneOf ["const", "let", "var", "function", "class", "async", "type", "interface", "enum"]
      ++ .edge)

/-- The assignment to the exports of a module. -/
def exportAssignment : Pattern :=
  .edge ++ .text "module.exports" ++ .blanks ++ .text "=" ++ .blanks

/-- The call that loads a module. -/
def loadCall : Pattern :=
  .edge ++ .text "require(" ++ .blanks ++ anyString ++ .blanks ++ .text ")"

/-- The assignment that takes the place of a default export. -/
def appAssignment : String :=
  "window.App = "

/-- The steps that take module syntax away, each with the text that takes the place of a match. -/
def stripSteps : List (Pattern × String) :=
  [(importStatement, ""), (bareImport, ""), (exportList, ""), (defaultExport, appAssignment),
    (exportWord, ""), (exportAssignment, appAssignment), (loadCall, "undefined")]

/-- A module as a plain script. -/
def scriptOf (source : List Char) : List Char :=
  stripSteps.foldl (fun text step => step.1.replace (fun _ => step.2.toList) text) source

/-- What the passes over a source found. -/
structure Prepared where
  imports : List Binding
  mentioned : List String
  declared : List String
  bindings : List Binding
  script : String

/-- Run all passes over a source. -/
def prepare (source : String) : Prepared :=
  let text := source.toList
  let imports := collectImports text
  let mentioned := detectIdentifiers text
  let declared := declaredNames text
  { imports := imports
    mentioned := mentioned
    declared := declared
    bindings := resolveBindings imports mentioned declared
    script := String.ofList (scriptOf text) }

/-- The bound names that shadow names of the browser. -/
def Prepared.forced (prepared : Prepared) : List String :=
  (prepared.bindings.map Binding.name).filter Shims.collidingNames.contains

end Preview

end ComponentBuilder
