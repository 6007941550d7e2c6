import ComponentBuilder.Proofs.Guard.Admission
import ComponentBuilder.Proofs.Markup.FixedPoint
import ComponentBuilder.Proofs.Preview.Scope

/-!
# Names that the transform keeps and names that it drops

The canonical module of a source keeps the tree and nothing else.  It declares its own function and what the
text of the tree declares, and it imports the vocabulary and what the text of the tree imports.  Every other name
that the source declared and an expression of the tree mentions is an orphan.
-/

namespace ComponentBuilder.Preview

open Text Markup Guard

variable {behind rest : List Char} {offset : Nat}

/-! ## The names that a tree mentions -/

/-- A name stands in a text as an identifier of its own. -/
def Occurs (name : String) (text : List Char) : Prop :=
  ∃ front back, text = front ++ (name.toList ++ back) ∧ front.getLast?.all (fun c => !isNameRest c) = true ∧
    back.head?.all (fun c => !isNameRest c) = true

/-- The expressions of an element: those of its attributes, and the parts of its text in braces. -/
inductive HasExpression (node : Node) : List Char → Prop
  | attribute {key source : String} (h : (key, .expression source) ∈ node.attributes.entries) :
      HasExpression node source.toList
  | child {text : String} {front inside back : List Char} (h : Child.text text ∈ node.children)
      (htext : text.toList = front ++ '{' :: (inside ++ '}' :: back)) :
      HasExpression node ('{' :: (inside ++ ['}']))

/-- A name occurs in an expression of a tree. -/
def Mentions (root : Node) (name : String) : Prop :=
  ∃ node ∈ root.descendants, ∃ expression, HasExpression node expression ∧ Occurs name expression

/-! ## Where declarations begin -/

/-- The words that begin the declaration of a name, or of several. -/
def unpackingWords : List String :=
  ["const", "let", "var"]

/-- The words that a declaration may begin with. -/
def declarationWords : List String :=
  "function" :: "class" :: unpackingWords

theorem exists_word_of_fits_declaration {part : List Char} (h : declaration.Fits behind part rest) :
    ∃ word ∈ declarationWords, word.toList <+: part := by
  unfold declaration at h
  obtain ⟨_, name, rfl, ⟨_, gap, rfl, ⟨_, first, rfl, ⟨rfl, -⟩, hfirst⟩, -⟩, -⟩ := h
  obtain ⟨word, hword, hprefix⟩ : ∃ word ∈ declarationWords, word.toList <+: first := by
    rcases hfirst with ⟨a, b, rfl, ha, -⟩ | hfirst
    · exact ⟨"function", List.mem_cons_self, Pattern.fits_chars ha ▸ List.prefix_append a b⟩
    · obtain ⟨word, hword, rfl⟩ := Pattern.exists_word_of_fits_oneOf hfirst
      exact ⟨word, List.mem_cons_of_mem _ hword, List.prefix_rfl⟩
  refine ⟨word, hword, hprefix.trans ?_⟩
  rw [List.nil_append, List.append_assoc]
  exact List.prefix_append first _

theorem exists_word_of_fits_unpacking {part : List Char} (h : unpacking.Fits behind part rest) :
    ∃ word ∈ unpackingWords, word.toList <+: part := by
  unfold unpacking at h
  obtain ⟨_, closing, rfl, ⟨_, parts, rfl, ⟨_, opening, rfl, ⟨_, blanks, rfl,
    ⟨_, first, rfl, ⟨rfl, -⟩, hfirst⟩, -⟩, -⟩, -⟩, -⟩ := h
  obtain ⟨word, hword, rfl⟩ := Pattern.exists_word_of_fits_oneOf hfirst
  refine ⟨word, hword, ?_⟩
  rw [List.nil_append]
  simp only [List.append_assoc]
  exact List.prefix_append ..

/-- A text without the words of all matches captures nothing. -/
theorem capturesFrom_of_no_word {p : Pattern} {words : List String}
    (hp : ∀ ⦃behind part rest⦄, p.Fits behind part rest → ∃ word ∈ words, word.toList <+: part)
    (hwords : ∀ word ∈ words, ' ' ∉ word.toList) {front : List Char}
    (hfront : ∀ word ∈ words, ¬word.toList <:+: front) (behind rest : List Char) (offset : Nat) :
    p.capturesFrom 0 behind offset (front ++ ' ' :: rest) =
      p.capturesFrom 0 ((front ++ [' ']).reverse ++ behind) (offset + (front ++ [' ']).length) rest := by
  apply Pattern.capturesFrom_append_of_stop
  intro behind part rest hfits
  obtain ⟨word, hword, hprefix⟩ := hp hfits
  exact ⟨word.toList, hprefix, hwords word hword, hfront word hword⟩

theorem capturesFrom_declaration_of_no_word {front : List Char}
    (hfront : ∀ word ∈ declarationWords, ¬word.toList <:+: front) (behind rest : List Char) (offset : Nat) :
    declaration.capturesFrom 0 behind offset (front ++ ' ' :: rest) =
      declaration.capturesFrom 0 ((front ++ [' ']).reverse ++ behind) (offset + (front ++ [' ']).length) rest :=
  capturesFrom_of_no_word (fun _ _ _ => exists_word_of_fits_declaration) (by decide) hfront behind rest
    offset

/-! ## The declarations of a canonical module -/

/-- A canonical module up to the word that declares its function. -/
def frontText : List Char :=
  headerText ++ "\n\nexport default".toList

theorem no_word_in_frontText : ∀ word ∈ declarationWords, ¬word.toList <:+: frontText := by
  apply not_infix_of_tails
  decide +kernel

/-- What stands between the name of the function and the tree, but for a blank. -/
def callText : List Char :=
  "() \x7b\n  return (\n   ".toList

theorem moduleText_eq_frontText (root : Node) : (moduleText root defaultComponent).toList =
    frontText ++ ' ' :: ("function App".toList ++ (callText ++ ' ' :: (root.render ++ footerText))) := by
  have hopening : '\n' :: (openingLines ++ [' ']) =
      "\n\nexport default".toList ++ ' ' :: ("function App".toList ++ (callText ++ [' '])) := by
    decide
  rw [moduleText_eq_preambleText, preambleText, frontText, hopening]
  generalize "function App".toList = function
  simp only [List.append_assoc, List.cons_append, List.nil_append]

theorem run_no_star (k : Spot → Option Spot) (behind text captured : List Char) (offset : Nat) :
    (Pattern.optional (.text "*")).run k ⟨behind, offset, ' ' :: text, captured⟩ =
      k ⟨behind, offset, ' ' :: text, captured⟩ := rfl

theorem matchAt?_declaration_function (hbehind : behind.head?.any isWord = false) :
    declaration.matchAt? ⟨behind, offset, "function App".toList ++ (callText ++ rest), []⟩ =
      some (Pattern.after behind offset "function App".toList (callText ++ rest) "App".toList) := by
  have hfunction : "function App".toList = "function".toList ++ ' ' :: "App".toList := by decide
  have hword : "function".toList = 'f' :: "unction".toList := by decide
  have happ : "App".toList = 'A' :: ['p', 'p'] := by decide
  have hcall : callText = '(' :: ") \x7b\n  return (\n   ".toList := by decide
  have hf : isWord 'f' = true := by decide
  have hedge : Spot.atEdge ⟨behind, offset, "function App".toList ++ (callText ++ rest), []⟩ = true := by
    rw [hfunction, hword, Spot.atEdge, hbehind]
    exact hf
  have hstop : Stops isNameRest (callText ++ rest) := by
    rw [hcall]
    exact stops_cons.2 (by decide)
  have hname := @Pattern.run_capture_name (' ' :: ("function".toList.reverse ++ behind)) (callText ++ rest)
    (offset + "function".toList.length + 1) 'A' ['p', 'p'] [] (by decide) (by decide) hstop
  have hgap : Pattern.gap.run (fun middle => (Pattern.capture .name).run some middle)
      (Pattern.after behind offset "function".toList (' ' :: ("App".toList ++ (callText ++ rest))) []) =
        some (Pattern.after behind offset "function App".toList (callText ++ rest) "App".toList) := by
    rw [happ]
    apply run_gap (stops_cons.2 (by decide))
    rw [Pattern.after_cons, Pattern.after_after] at hname
    rw [hfunction, happ]
    exact hname
  unfold Pattern.matchAt? declaration
  simp only [Pattern.run_append]
  rw [Pattern.run, if_pos hedge, Pattern.run, Pattern.run_append, Pattern.text]
  have hkeyword : (Pattern.chars "function".toList).run (fun middle => (Pattern.optional (.text "*")).run
      (fun middle => Pattern.gap.run (fun middle => (Pattern.capture .name).run some middle) middle) middle)
      ⟨behind, offset, "function App".toList ++ (callText ++ rest), []⟩ =
        some (Pattern.after behind offset "function App".toList (callText ++ rest) "App".toList) := by
    have htext : "function App".toList ++ (callText ++ rest) =
        "function".toList ++ ' ' :: ("App".toList ++ (callText ++ rest)) := by
      rw [hfunction, List.append_assoc, List.cons_append]
    rw [htext, Pattern.run_chars, ← hgap]
    exact run_no_star _ _ _ _ _
  rw [hkeyword]

/-- The function of a canonical module is declared before the text of the tree. -/
theorem captures_declaration_moduleText (root : Node) :
    declaration.captures (moduleText root defaultComponent).toList =
      "App".toList :: declaration.captures (root.render ++ footerText) := by
  have hcall : ∀ word ∈ declarationWords, ¬word.toList <:+: callText := by decide
  have hne : "function App".toList ≠ [] := by decide
  have hbehind : ((frontText ++ [' ']).reverse ++ []).head?.any isWord = false := by
    rw [List.reverse_concat]
    rfl
  -- Up to a blank before the tree the words stand in one place, where the function is declared.
  rw [Pattern.captures_eq, Pattern.captures_eq, moduleText_eq_frontText,
    capturesFrom_declaration_of_no_word no_word_in_frontText,
    Pattern.capturesFrom_of_match hne (matchAt?_declaration_function hbehind),
    capturesFrom_declaration_of_no_word hcall]
  refine congrArg _ (Pattern.capturesFrom_of_sameSide (by decide) ?_)
  rw [List.reverse_concat]
  exact .inr ⟨rfl, rfl⟩

/-- Nothing is taken apart before the text of the tree. -/
theorem captures_unpacking_moduleText (root : Node) :
    unpacking.captures (moduleText root defaultComponent).toList =
      unpacking.captures (root.render ++ footerText) := by
  have hcall : ∀ word ∈ unpackingWords, ¬word.toList <:+: "function App".toList ++ callText := by
    decide
  have hblank : ∀ word ∈ unpackingWords, ' ' ∉ word.toList := by decide
  have hfront : ∀ word ∈ unpackingWords, ¬word.toList <:+: frontText := fun word hword =>
    no_word_in_frontText word (List.mem_cons_of_mem _ (List.mem_cons_of_mem _ hword))
  have hstart {behind part rest : List Char} (h : unpacking.Fits behind part rest) :=
    exists_word_of_fits_unpacking h
  rw [Pattern.captures_eq, Pattern.captures_eq, moduleText_eq_frontText,
    capturesFrom_of_no_word (fun _ _ _ => hstart) hblank hfront, ← List.append_assoc,
    capturesFrom_of_no_word (fun _ _ _ => hstart) hblank hcall]
  refine Pattern.capturesFrom_of_sameSide (by decide) ?_
  rw [List.reverse_concat]
  exact .inr ⟨rfl, rfl⟩

/-- The names that a canonical module declares are that of its function and those that the text of the tree
and the lines after it declare. -/
theorem mem_declaredNames_moduleText (root : Node) (name : String) :
    name ∈ declaredNames (moduleText root defaultComponent).toList ↔
      name = defaultComponent ∨ name ∈ declaredNames (root.render ++ footerText) := by
  rw [declaredNames, declaredNames, mem_distinct, mem_distinct, captures_declaration_moduleText,
    captures_unpacking_moduleText, List.map_cons, String.ofList_toList, List.cons_append, List.mem_cons]
  rfl

/-! ## Which names are kept -/

/-- The canonical module of a tree declares or imports a name: it is that of its function or in the
vocabulary, or the text of the tree declares or imports it itself. -/
def Keeps (root : Node) (name : String) : Prop :=
  name = defaultComponent ∨ name ∈ declaredNames (root.render ++ footerText) ∨
    (name = "React" ∨ name ∈ Vocabulary.planComponents ++ Vocabulary.icons) ∨
      name ∈ (collectImports root.render).map Binding.name

theorem in_scope_iff_keeps {root : Node} {name : String} :
    name ∈ declaredNames (moduleText root defaultComponent).toList ∨
        name ∈ importedNames (moduleText root defaultComponent).toList ↔ Keeps root name := by
  rw [mem_declaredNames_moduleText, ← scopeNames, mem_scopeNames_iff, or_assoc, Keeps]

/-- A name that the source declares and the tree mentions is in scope in the canonical module exactly when the
module keeps it; whatever else the source declared is gone. -/
theorem mentioned_name_in_scope_iff {nameOf : Nat → String} {source : String} {canonical : Canonical}
    (h : transform nameOf defaultComponent source = .ok canonical) :
    ∀ name ∈ declaredNames source.toList, Mentions canonical.tree name →
      (name ∈ declaredNames canonical.code.toList ∨ name ∈ importedNames canonical.code.toList ↔
        Keeps canonical.tree name) := by
  obtain ⟨body, -, -, hcode⟩ := transform_eq_ok_iff.1 h
  intro name _ _
  rw [hcode, in_scope_iff_keeps]

/-- Whether a text is among the children of an element. -/
def hasText (node : Node) (text : String) : Bool :=
  node.children.any fun child => match child with
    | .text value => value == text
    | .element _ => false

theorem mentions_of_hasText {root : Node} {text inside name : String} (h : hasText root text = true)
    (htext : text.toList = '\x7b' :: (inside.toList ++ ['\x7d']))
    (hoccurs : Occurs name ('\x7b' :: (inside.toList ++ ['\x7d']))) : Mentions root name := by
  obtain ⟨child, hchild, hvalue⟩ := List.any_eq_true.1 h
  cases child with
  | element node => cases hvalue
  | text value =>
      obtain rfl := eq_of_beq hvalue
      have hexpression := @HasExpression.child root value [] inside.toList [] hchild htext
      exact ⟨root, mem_descendants_self root, _, hexpression, hoccurs⟩

/-- A name that an expression declares for itself stays declared. -/
theorem mentioned_name_in_scope_inner :
    ∃ canonical, transform Nat.repr defaultComponent
        "return (<p>\x7b(() => \x7b const k = 2; return k; \x7d)()\x7d</p>)" = .ok canonical ∧
      Mentions canonical.tree "k" ∧
      ("k" ∈ declaredNames canonical.code.toList ∨ "k" ∈ importedNames canonical.code.toList) := by
  have hcanonical : ((transform Nat.repr defaultComponent
      "return (<p>\x7b(() => \x7b const k = 2; return k; \x7d)()\x7d</p>)").toOption.any fun canonical =>
        hasText canonical.tree "\x7b(() => \x7b const k = 2; return k; \x7d)()\x7d" &&
          (declaredNames (canonical.tree.render ++ footerText)).contains "k") = true := by
    decide +kernel
  obtain ⟨canonical, htransform, htest⟩ := exists_eq_ok_of_any hcanonical
  obtain ⟨htext, hdeclared⟩ := Bool.and_eq_true_iff.1 htest
  have hmentions : Mentions canonical.tree "k" := by
    refine @mentions_of_hasText _ _ "(() => \x7b const k = 2; return k; \x7d)()" _ htext (by decide) ?_
    exact ⟨"\x7b(() => \x7b const ".toList, " = 2; return k; \x7d)()\x7d".toList, by decide, by decide,
      by decide⟩
  have hscope := mentioned_name_in_scope_iff htransform "k" (by decide) hmentions
  exact ⟨canonical, htransform, hmentions, hscope.2 (.inr (.inl (List.contains_iff_mem.1 hdeclared)))⟩

/-- A constant of the module that its markup uses is neither declared nor imported any more. -/
theorem mentioned_name_orphaned :
    let source := "const n = 1;\nexport default function App() \x7b\n  return (<p>\x7bn\x7d</p>);\n\x7d\n"
    ∃ canonical, transform Nat.repr defaultComponent source = .ok canonical ∧
      "n" ∈ declaredNames source.toList ∧ Mentions canonical.tree "n" ∧
      "n" ∉ declaredNames canonical.code.toList ∧ "n" ∉ importedNames canonical.code.toList := by
  intro source
  have hcanonical : ((transform Nat.repr defaultComponent source).toOption.any fun canonical =>
      hasText canonical.tree "\x7bn\x7d" &&
        !((declaredNames (canonical.tree.render ++ footerText)).contains "n" ||
          ((collectImports canonical.tree.render).map Binding.name).contains "n")) = true := by
    decide +kernel
  obtain ⟨canonical, htransform, htest⟩ := exists_eq_ok_of_any hcanonical
  obtain ⟨htext, hnone⟩ := Bool.and_eq_true_iff.1 htest
  obtain ⟨body, -, -, hcode⟩ := transform_eq_ok_iff.1 htransform
  have hmentions : Mentions canonical.tree "n" := by
    refine @mentions_of_hasText _ _ "n" _ htext (by decide) ?_
    exact ⟨['\x7b'], ['\x7d'], by decide, by decide, by decide⟩
  have hlost : ¬Keeps canonical.tree "n" := by
    rw [Bool.not_eq_true', Bool.or_eq_false_iff] at hnone
    rintro (hname | hdeclared | hvocabulary | himported)
    · exact absurd hname (by decide)
    · rw [List.contains_iff_mem.2 hdeclared] at hnone
      exact absurd hnone.1 (by decide)
    · exact absurd hvocabulary (by decide)
    · rw [List.contains_iff_mem.2 himported] at hnone
      exact absurd hnone.2 (by decide)
  rw [← in_scope_iff_keeps, ← hcode, not_or] at hlost
  exact ⟨canonical, htransform, by decide, hmentions, hlost⟩

end ComponentBuilder.Preview
