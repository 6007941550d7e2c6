import ComponentBuilder.Markup.Fragment
import ComponentBuilder.Markup.Printer
import ComponentBuilder.Text.Pattern
import ComponentBuilder.Vocabulary

/-!
# Component modules

A component module imports its vocabulary and exports one function that returns markup.  The markup
is cut out of the first `return (` after the default export and read as a fragment; the canonical
module of a tree imports the whole vocabulary and returns the tree's canonical text.
-/

namespace ComponentBuilder

namespace Markup

open Text

/-- The word `return` and the parenthesis after it. -/
def returnPattern : Pattern :=
  .edge ++ .text "return" ++ .blanks ++ .text "("

/-- The first `return (` after the default export, or else the first one anywhere. -/
def findReturn? (source : List Char) : Option (Spot × Spot) :=
  let anywhere := returnPattern.search? source
  match find? "export default".toList source with
  | none => anywhere
  | some (before, rest) =>
      (returnPattern.searchFrom before.reverse before.length rest).or anywhere

/-- The markup that a module returns, from inside the parentheses. -/
def returnBody (source : List Char) : Except ParseError (List Char) :=
  match findReturn? source with
  | none => .error ⟨.missingReturn, none⟩
  | some (_, after) =>
      let opening := after.back
      match Scan.parentheses opening.offset opening.ahead with
      | .error e => .error e
      | .ok (found, _) => .ok found.tail.dropLast

/-- The markup that a module returns. -/
def extractReturnBody (source : String) : Except ParseError String :=
  (returnBody source.toList).map String.ofList

/-- The tree of a module's markup; `name` gives the identifiers of its elements. -/
def readModule (name : Nat → String) (source : String) : Except ParseError Node :=
  match returnBody source.toList with
  | .error e => .error e
  | .ok body => Fragment.read name body

/-- The imports of every canonical module: the whole vocabulary, whatever the tree uses. -/
def importHeader : String :=
  "\n".intercalate
    (["import React from 'react';"] ++
      (Vocabulary.components ++ Vocabulary.layoutPrimitives).map Vocabulary.importLine ++
      ["import \x7b\n" ++ ",\n".intercalate (Vocabulary.icons.map ("  " ++ ·)) ++ "\n\x7d from '" ++
        Vocabulary.iconPackage ++ "';"])

/-- The canonical module around a tree, exporting a function of the given name. -/
def moduleText (root : Node) (component : String) : String :=
  importHeader ++ "\n\nexport default function " ++ component ++ "() \x7b\n  return (\n    " ++
    root.text ++ "\n  );\n\x7d\n"

/-- The name of the exported function when none is given. -/
def defaultComponent : String :=
  "App"

/-- A tree and its canonical module. -/
structure Canonical where
  tree : Node
  code : String

/-- Read a module and write it again in canonical form. -/
def transform (name : Nat → String) (component : String) (source : String) :
    Except ParseError Canonical :=
  match readModule name source with
  | .error e => .error e
  | .ok tree => .ok ⟨tree, moduleText tree component⟩

end Markup

end ComponentBuilder
