import ComponentBuilder.Markup.Module
import ComponentBuilder.Proofs.Markup.Readable
import ComponentBuilder.Proofs.Text.Occurrence

/-!
# The head of a canonical module

A canonical module begins with one import for each member of the vocabulary and the line that opens the
exported function.  None of it holds an angle bracket, and some pairs of characters that the search for the
export and the rules look for are nowhere side by side in the imports.
-/

namespace ComponentBuilder.Markup

open Text Scan

/-! ## Imports -/

/-- What an import statement takes, and where from. -/
structure ImportStatement where
  clause : List Char
  path : List Char

def ImportStatement.text (statement : ImportStatement) : List Char :=
  "import ".toList ++
    (statement.clause ++ (" from '".toList ++ (statement.path ++ "';".toList)))

def reactImport : ImportStatement where
  clause := "React".toList
  path := "react".toList

def memberImport (name : String) : ImportStatement where
  clause := "\x7b ".toList ++ (name.toList ++ " \x7d".toList)
  path := "../".toList ++
    ((if Vocabulary.layoutPrimitives.contains name then "layout-primitives" else "components").toList ++
      ("/".toList ++ name.toList))

def iconImport : ImportStatement where
  clause := "\x7b\n".toList ++
    (",\n".toList.intercalate (Vocabulary.icons.map fun icon => "  ".toList ++ icon.toList) ++
      "\n\x7d".toList)
  path := Vocabulary.iconPackage.toList

def headerImports : List ImportStatement :=
  reactImport :: (Vocabulary.planComponents.map memberImport ++ [iconImport])

/-- The header as characters. -/
def headerText : List Char :=
  ['\n'].intercalate (headerImports.map ImportStatement.text)

theorem toList_importLine (name : String) :
    (Vocabulary.importLine name).toList = (memberImport name).text := by
  have hopen : "import \x7b ".toList = "import ".toList ++ "\x7b ".toList := by simp
  have hclose : " \x7d from '".toList = " \x7d".toList ++ " from '".toList := by simp
  unfold Vocabulary.importLine Vocabulary.importPath ImportStatement.text memberImport
  iterate 7 rw [String.toList_append]
  rw [hopen, hclose]
  simp only [List.append_assoc]

theorem toList_iconImport :
    ("import \x7b\n" ++ ",\n".intercalate (Vocabulary.icons.map ("  " ++ ·)) ++ "\n\x7d from '" ++
      Vocabulary.iconPackage ++ "';").toList = iconImport.text := by
  have hopen : "import \x7b\n".toList = "import ".toList ++ "\x7b\n".toList := by simp
  have hclose : "\n\x7d from '".toList = "\n\x7d".toList ++ " from '".toList := by simp
  unfold ImportStatement.text iconImport
  iterate 4 rw [String.toList_append]
  rw [hopen, hclose, String.toList_intercalate, List.map_map]
  simp only [List.append_assoc, Function.comp_def, String.toList_append]

theorem toList_importHeader : importHeader.toList = headerText := by
  have hreact : "import React from 'react';".toList = reactImport.text := by decide
  have hbreak : "\n".toList = ['\n'] := by simp
  rw [importHeader, String.toList_intercalate, hbreak, headerText]
  simp only [List.map_append, List.map_cons, List.map_nil, hreact, toList_iconImport, List.map_map,
    Function.comp_def, toList_importLine, headerImports, Vocabulary.planComponents, List.cons_append,
    List.nil_append]

/-! ## What the header lacks -/

/-- Pairs of characters that what comes before the tree does not have side by side. -/
def absentPairs : List (Char × Char) :=
  [('H', 'T'), ('w', 'r'), ('v', 'a'), ('F', 'u'), ('y', 'l')]

/-- Neighbours in what comes before the tree. -/
def MayFollow (c d : Char) : Prop :=
  d ≠ '<' ∧ (c, d) ∉ absentPairs

instance : DecidableRel MayFollow :=
  fun c d => inferInstanceAs (Decidable (d ≠ '<' ∧ (c, d) ∉ absentPairs))

theorem isChain_headerText : headerText.IsChain fun c d => (c ≠ 'x' ∨ d ≠ 'p') ∧ MayFollow c d := by
  decide +kernel

/-! ## The module around a tree -/

/-- The module from its default export up to the parenthesis of the returned markup. -/
def functionText : List Char :=
  "export default function App() \x7b\n  return (".toList

/-- What follows that parenthesis. -/
def returnedText (root : Node) : List Char :=
  "\n    ".toList ++ (root.render ++ "\n  );\n\x7d\n".toList)

theorem toList_moduleText (root : Node) :
    (moduleText root defaultComponent).toList =
      headerText ++ "\n\n".toList ++ (functionText ++ returnedText root) := by
  have hfunction : functionText ++ "\n    ".toList = "export default function ".toList ++
      defaultComponent.toList ++ "() \x7b\n  return (\n    ".toList := by
    decide
  simp only [moduleText, String.toList_append, toList_importHeader, Node.text, String.toList_ofList,
    returnedText]
  rw [← List.append_assoc functionText, hfunction]
  have hbreak : "\n\nexport default function ".toList =
      "\n\n".toList ++ "export default function ".toList := by
    simp
  simp only [hbreak, List.append_assoc]

/-- The module between its imports and the text of the tree. -/
def openingLines : List Char :=
  "\nexport default function App() \x7b\n  return (\n   ".toList

/-- The module up to the text of the tree. -/
def preambleText : List Char :=
  headerText ++ '\n' :: (openingLines ++ [' '])

/-- The module after the text of the tree. -/
def footerText : List Char :=
  "\n  );\n\x7d\n".toList

theorem moduleText_eq_preambleText (root : Node) :
    (moduleText root defaultComponent).toList = preambleText ++ (root.render ++ footerText) := by
  have hopening : '\n' :: (openingLines ++ [' ']) =
      "\n\n".toList ++ (functionText ++ "\n    ".toList) := by
    decide
  rw [toList_moduleText]
  unfold preambleText returnedText footerText
  rw [hopening]
  generalize "\n\n".toList = breaks
  generalize "\n    ".toList = indent
  simp only [List.append_assoc]

theorem borderless_export : Borderless "export default".toList := by
  decide

/-- The imports hold no default export. -/
theorem not_infix_headerText : ¬"export default".toList <:+: headerText ++ "\n\n".toList := by
  have hbreaks : "\n\n".toList = ['\n', '\n'] := by simp
  have hpair : ['x', 'p'] <:+: "export default".toList := ⟨['e'], "ort default".toList, by simp⟩
  have hchain : (headerText ++ ['\n', '\n']).IsChain fun c d => c ≠ 'x' ∨ d ≠ 'p' := by
    refine List.isChain_append.2 ⟨isChain_headerText.imp fun _ _ h => h.1, by decide, ?_⟩
    simp
  rw [hbreaks]
  exact fun hinside => not_infix_of_isChain hchain (by decide) (hpair.trans hinside)

/-- The exported function is the first default export after a text that holds none. -/
theorem find?_functionText {front : List Char} (h : ¬"export default".toList <:+: front)
    (rest : List Char) :
    find? "export default".toList (front ++ (functionText ++ rest)) =
      some (front, functionText ++ rest) := by
  have hfunction : functionText =
      "export default".toList ++ " function App() \x7b\n  return (".toList := by
    decide
  have hfound := borderless_export.find?_append (by decide) h
    (" function App() \x7b\n  return (".toList ++ rest)
  rwa [← List.append_assoc "export default".toList, ← hfunction] at hfound

end ComponentBuilder.Markup
