import ComponentBuilder.Markup.Scan
import ComponentBuilder.Preview.Shims
import ComponentBuilder.Text.Pattern

/-!
# Names that a component uses

Which names the preview has to bind before a component's script runs.  Three passes over the text
collect the names it imports, the capitalised names it mentions and the names it declares; an import
always binds its names, a mentioned name is bound unless it is declared, and the names of the browser
that components like to reuse are bound in any case.
-/

namespace ComponentBuilder

namespace Preview

open Text

/-- What a bound name stands for. -/
inductive Target where
  /-- The stand-in of a name. -/
  | standIn (name : String)
  /-- An object with the stand-in of every name. -/
  | wholeModule
deriving DecidableEq, Repr

/-- The word for a target in a document. -/
def Target.word : Target → String
  | .standIn name => name
  | .wholeModule => "*"

/-- A name bound in the scope of the component, and what it stands for. -/
structure Binding where
  name : String
  target : Target
deriving DecidableEq, Repr

/-- Blanks and tabs. -/
def lineSpace : Pattern :=
  .many 0 fun c => c == ' ' || c == '\t'

/-- The beginning of a line of code, after a mark that a patch may have left. -/
def codeStart : Pattern :=
  .lineStart ++ lineSpace ++ .optional (.one fun c => c == '+' || c == '-') ++ lineSpace

/-- The end of a statement on its line. -/
def codeEnd : Pattern :=
  lineSpace ++ .optional (.text ";")

/-- A quote of a string. -/
def scriptQuote : Pattern :=
  .one Markup.Scan.isTagQuote

/-- A string on one line. -/
def lineString : Pattern :=
  scriptQuote ++ .many 0 (fun c => !Markup.Scan.isTagQuote c && c != '\n') ++ scriptQuote

/-- An import statement with its clause. -/
def importStatement : Pattern :=
  codeStart ++ .text "import" ++ .gap ++
    .capture (.few fun c => !Markup.Scan.isQuote c && c != ';') ++ .gap ++ .text "from" ++ .gap ++
    lineString ++ codeEnd

/-- A comment. -/
def comment : Pattern :=
  .either (.text "/*" ++ .few (fun _ => true) ++ .text "*/") (.text "//" ++ .many 0 (· != '\n'))

/-- The named part of an import clause. -/
def namedClause : Pattern :=
  .one (· == '{') ++ .capture (.few fun _ => true) ++ .one (· == '}')

/-- The part of an import clause that names the whole module. -/
def wholeClause : Pattern :=
  .text "*" ++ .blanks ++ .text "as" ++ .gap ++ .capture .name

/-- The word between a name and its alias. -/
def aliasWord : Pattern :=
  .gap ++ .text "as" ++ .gap

/-- Whether a text is an identifier. -/
def isIdentifier (text : List Char) : Bool :=
  Pattern.name.matchesAll text

/-- The parts of a list, trimmed, without empty ones. -/
def listParts (text : List Char) : List (List Char) :=
  ((split ',' text).map trim).filter (!·.isEmpty)

/-- Take the first match out of a text: what it captured, and the text without it. -/
def takeOut (p : Pattern) (text : List Char) : Option (List Char × List Char) :=
  (p.search? text).map fun (start, last) =>
    (last.captured, text.take start.offset ++ last.ahead)

/-- The binding of a named specifier; hooks and whatever is no pair of identifiers bind nothing. -/
def specifierBinding? (specifier : List Char) : Option Binding :=
  let parts := (aliasWord.splitBy (trim (dropFront "type ".toList specifier))).map trim
  let imported := parts.headD []
  let name := parts.getLastD []
  if isIdentifier imported && isIdentifier name &&
      !Vocabulary.hooks.contains (String.ofList imported) then
    some ⟨String.ofList name, .standIn (String.ofList imported)⟩
  else none

/-- The bindings of the named part of a clause, and the clause without it. -/
def namedBindings (clause : List Char) : List Binding × List Char :=
  match takeOut namedClause clause with
  | none => ([], clause)
  | some (inside, rest) => ((listParts inside).filterMap specifierBinding?, rest)

/-- The binding of the part that names the whole module, and the clause without it. -/
def wholeBindings (clause : List Char) : List Binding × List Char :=
  match takeOut wholeClause clause with
  | none => ([], clause)
  | some (name, rest) => ([⟨String.ofList name, .wholeModule⟩], rest)

/-- Drop commas at both ends. -/
def trimCommas (text : List Char) : List Char :=
  ((text.dropWhile (· == ',')).reverse.dropWhile (· == ',')).reverse

/-- The binding of the default part of a clause; React itself is passed in and needs none. -/
def defaultBindings (clause : List Char) : List Binding :=
  let name := trim (trimCommas (trim clause))
  if isIdentifier name && name != "React".toList then
    [⟨String.ofList name, .standIn (String.ofList name)⟩]
  else []

/-- The bindings that one import clause introduces; a clause of types introduces none. -/
def clauseBindings (clause : List Char) : List Binding :=
  let clause := trim (comment.replace (fun _ => [' ']) clause)
  if "type ".toList.isPrefixOf clause then []
  else
    let (named, clause) := namedBindings clause
    let (whole, clause) := wholeBindings clause
    named ++ whole ++ defaultBindings clause

/-- The bindings that the imports of a source introduce, in order. -/
def collectImports (source : List Char) : List Binding :=
  (importStatement.captures source).flatMap clauseBindings

/-- A capitalised word. -/
def capitalised : Pattern :=
  .edge ++ .one Char.isUpper ++ .many 0 (fun c => c.isAlphanum || c == '_') ++ .edge

/-- The capitalised words of a source that may name components, each once. -/
def detectIdentifiers (source : List Char) : List String :=
  let words := distinct ((capitalised.hits source).map fun hit => String.ofList hit.matched)
  words.filter fun word => !Shims.globalNames.contains word && !Vocabulary.hooks.contains word

/-- The declaration of a name. -/
def declaration : Pattern :=
  .edge ++
    .either (.text "function" ++ .optional (.text "*")) (.oneOf ["class", "const", "let", "var"]) ++
    .gap ++ .capture .name

/-- The declaration of several names by taking a value apart. -/
def unpacking : Pattern :=
  .edge ++ .oneOf ["const", "let", "var"] ++ .blanks ++ .one (fun c => c == '{' || c == '[') ++
    .capture (.many 0 fun c => c != '}' && c != ']') ++ .one (fun c => c == '}' || c == ']')

/-- The text after the first colon, or the whole text when there is none. -/
def afterColon (text : List Char) : List Char :=
  match text.dropWhile (· != ':') with
  | [] => text
  | _ :: rest => rest

/-- The name that one part of an unpacking declares. -/
def unpackedName? (part : List Char) : Option String :=
  let name := trim ((afterColon (dropFront "...".toList part)).takeWhile (· != '='))
  if isIdentifier name then some (String.ofList name) else none

/-- The names that a source declares, each once. -/
def declaredNames (source : List Char) : List String :=
  distinct ((declaration.captures source).map String.ofList ++
    (unpacking.captures source).flatMap fun parts => (listParts parts).filterMap unpackedName?)

/-- Add a binding unless its name is bound already. -/
def addBinding (bindings : List Binding) (binding : Binding) : List Binding :=
  if bindings.any (·.name == binding.name) then bindings else bindings ++ [binding]

/-- Whether a mentioned name is bound although no import names it. -/
def bindsMentioned (declared : List String) (name : String) : Bool :=
  Shims.collidingNames.contains name || !declared.contains name

/-- The bindings of a source: its imports, the first of a name counting, then the mentioned names. -/
def resolveBindings (imports : List Binding) (mentioned declared : List String) : List Binding :=
  (mentioned.filter (bindsMentioned declared)).foldl
    (fun bindings name => addBinding bindings ⟨name, .standIn name⟩)
    (imports.foldl addBinding [])

end Preview

end ComponentBuilder
