import ComponentBuilder.Markup.Scan
import ComponentBuilder.Text.Pattern
import ComponentBuilder.Vocabulary

/-!
# Rules over generated source

Each rule looks at the raw text of a candidate and lists what it finds there.  The rules against
script sinks, script tags and handler strings always apply; those on style and vocabulary apply under
strict checking only.
-/

namespace ComponentBuilder

namespace Guard

open Text

/-- Something a rule forbids, found in a source. -/
inductive Violation where
  /-- Use of a way to run text as script or markup. -/
  | sink (name : String)
  /-- A script tag. -/
  | scriptTag
  /-- A tag that embeds another page. -/
  | frameTag
  /-- An event handler given as a string. -/
  | handlerString (name : String)
  /-- A style given in place. -/
  | inlineStyle
  /-- An import from outside the vocabulary. -/
  | importPath (path : String)
  /-- A capitalised tag from outside the vocabulary. -/
  | component (name : String)
deriving DecidableEq, Repr

/-- The wording of a violation. -/
def Violation.message : Violation → String
  | .sink name => "Dangerous DOM sink '" ++ name ++ "' is forbidden in generated code."
  | .scriptTag => "Script tags (<script>) are forbidden in generated code."
  | .frameTag => "Iframe tags (<iframe>) are forbidden in generated code."
  | .handlerString name =>
      "Inline event handler string '" ++ name ++
        "=\"...\"' is forbidden. Use a JSX function handler instead."
  | .inlineStyle =>
      "Inline styles (style=\x7b\x7b...\x7d\x7d) are strictly forbidden. " ++
        "Use Tailwind CSS classes instead."
  | .importPath path =>
      "Unauthorized import detected: \"" ++ path ++
        "\". Only standard UI components and layout primitives are allowed."
  | .component name =>
      "Unauthorized component used: \"<" ++ name ++
        ">\". Please only use whitelisted UI components."

/-- The sinks in the order they are looked for, with the pattern of each. -/
def sinks : List (String × Pattern) :=
  let word (name : String) : Pattern := .edge ++ .text name ++ .edge
  let assigned (name : String) : Pattern :=
    .text name ++ .blanks ++ .optional (.text "+") ++ .text "="
  let called (p : Pattern) : Pattern := p ++ .blanks ++ .text "("
  [("dangerouslySetInnerHTML", word "dangerouslySetInnerHTML"),
    ("innerHTML", assigned ".innerHTML"),
    ("outerHTML", assigned ".outerHTML"),
    ("insertAdjacentHTML", called (.edge ++ .text "insertAdjacentHTML")),
    ("document.write", called (.edge ++ .text "document.write" ++ .optional (.text "ln"))),
    ("eval", called (.notBehind (fun c => isWord c || c == '.') ++ .text "eval")),
    ("new Function", called (.edge ++ .text "new" ++ .gap ++ .text "Function"))]

/-- An opening angle bracket and the given tag in any case. -/
def tagPattern (tag : String) : Pattern :=
  .text "<" ++ .blanks ++ .anyCase tag ++ .edge

/-- A quote of a string. -/
def quotePattern : Pattern :=
  .one Markup.Scan.isTagQuote

/-- The name of an event handler whose value is a string. -/
def handlerPattern : Pattern :=
  .notBehind (!isBlank ·) ++ .capture (.text "on" ++ .many 3 isAsciiLetter) ++ .blanks ++
    .text "=" ++ .blanks ++ quotePattern

/-- A style whose value is an expression. -/
def stylePattern : Pattern :=
  .edge ++ .text "style" ++ .blanks ++ .text "=" ++ .blanks ++ .one (· == '{')

/-- The path of an import, in quotes. -/
def pathPattern : Pattern :=
  quotePattern ++ .capture (.many 1 (!Markup.Scan.isTagQuote ·)) ++ quotePattern

/-- An import with a clause. -/
def importPattern : Pattern :=
  .edge ++ .text "import" ++ .gap ++ .few (fun _ => true) ++ .gap ++ .text "from" ++ .gap ++
    pathPattern

/-- An import without a clause. -/
def bareImportPattern : Pattern :=
  .edge ++ .text "import" ++ .gap ++ pathPattern

/-- A capitalised tag. -/
def componentPattern : Pattern :=
  .text "<" ++ .capture (.one Char.isUpper ++ .many 0 fun c => isWord c || c == '.')

/-- The texts after the name of each opening tag, in order. -/
def afterTagNames : List Char → List (List Char)
  | [] => []
  | c :: rest =>
      if c == '<' && rest.head?.any isAsciiLetter then
        rest.dropWhile (fun d => isWord d || d == '.') :: afterTagNames rest
      else afterTagNames rest

/--
The text of a tag with its expressions blanked out: the parts between them, the current one in
reverse.  Strings are passed over whole.  The text is given up when a string or an expression in it
does not end.
-/
def partsFuel : Nat → List Char → List Char → Option (List (List Char))
  | 0, part, _ => some [part.reverse]
  | _ + 1, part, [] => some [part.reverse]
  | fuel + 1, part, c :: rest =>
      if Markup.Scan.isTagQuote c then
        match spanWhile (· != c) rest with
        | (_, []) => none
        | (inside, close :: after) =>
            partsFuel fuel (close :: (inside.reverse ++ c :: part)) after
      else if c == '{' then
        match Markup.Scan.expression 0 (c :: rest) with
        | .error _ => none
        | .ok (_, after) => (partsFuel fuel [] after).map (part.reverse :: ·)
      else partsFuel fuel (c :: part) rest

/-- The text of a tag with a blank for each of its expressions. -/
def blankExpressions? (content : List Char) : Option (List Char) :=
  (partsFuel (content.length + 1) [] content).map fun parts => [' '].intercalate parts

/-- The attribute text of the tag whose name has been read, when the tag ends. -/
def attributeText? (rest : List Char) : Option (List Char) :=
  match Markup.Scan.tag 0 rest with
  | .error _ => none
  | .ok (content, _) => blankExpressions? content

/-- The attribute text of every opening tag that ends, with expressions blanked out. -/
def tagAttributeTexts (source : List Char) : List (List Char) :=
  (afterTagNames source).filterMap attributeText?

/-- The names of handlers given as strings, each once. -/
def handlerNames (source : List Char) : List String :=
  distinct ((tagAttributeTexts source).flatMap fun text =>
    (handlerPattern.captures text).map String.ofList)

/-- The paths of all imports, those with a clause first, each once. -/
def importPaths (source : List Char) : List String :=
  distinct ((importPattern.captures source ++ bareImportPattern.captures source).map String.ofList)

/-- The capitalised tags, each once. -/
def componentNames (source : List Char) : List String :=
  distinct ((componentPattern.captures source).map String.ofList)

/-- The rules. -/
inductive Rule where
  | dangerousSink
  | scriptTag
  | inlineHandler
  | inlineStyle
  | componentWhitelist
  | importWhitelist
deriving DecidableEq, Repr

namespace Rule

/-- All rules in the order they are applied. -/
def all : List Rule :=
  [dangerousSink, scriptTag, inlineHandler, inlineStyle, componentWhitelist, importWhitelist]

/-- The name of a rule. -/
def name : Rule → String
  | dangerousSink => "dangerous_sink"
  | scriptTag => "script_tag"
  | inlineHandler => "inline_handler"
  | inlineStyle => "inline_style"
  | componentWhitelist => "component_whitelist"
  | importWhitelist => "import_whitelist"

/-- The rule of a name. -/
def ofName? (name : String) : Option Rule :=
  all.find? (·.name == name)

/-- Whether a rule applies however strict the checking is. -/
def mandatory : Rule → Bool
  | dangerousSink | scriptTag | inlineHandler => true
  | inlineStyle | componentWhitelist | importWhitelist => false

/-- What a rule finds in a source. -/
def check (rule : Rule) (source : List Char) : List Violation :=
  match rule with
  | dangerousSink =>
      (sinks.filter fun sink => sink.2.occurs source).map fun sink => .sink sink.1
  | scriptTag =>
      (if (tagPattern "script").occurs source then [.scriptTag] else []) ++
        (if (tagPattern "iframe").occurs source then [.frameTag] else [])
  | inlineHandler => (handlerNames source).map .handlerString
  | inlineStyle => if stylePattern.occurs source then [.inlineStyle] else []
  | componentWhitelist =>
      ((componentNames source).filter (!Vocabulary.tags.contains ·)).map .component
  | importWhitelist =>
      ((importPaths source).filter (!Vocabulary.importPaths.contains ·)).map .importPath

end Rule

end Guard

end ComponentBuilder
