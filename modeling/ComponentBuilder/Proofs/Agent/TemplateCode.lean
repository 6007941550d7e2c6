import ComponentBuilder.Agent.Template
import ComponentBuilder.Guard.Validator
import ComponentBuilder.Proofs.Guard.Canonical
import ComponentBuilder.Proofs.Markup.FixedPoint
import ComponentBuilder.Proofs.Markup.Wrapping

/-!
# The code of the template

The template puts the intent of a plan into the heading of a fixed card, without the four characters that mean
something in markup.  Whatever is left is read as the text of the heading.  The guard however reads the whole
source, and what is left may be a sink or an import of its own: these are all that it can find.
-/

namespace ComponentBuilder.Agent.Template

open Text Markup Guard

/-! ## The card -/

/-- The opening tag of an element up to its last bracket. -/
def openingTag (tag : String) (attributes : List (String × AttributeValue)) : List Char :=
  '<' :: (tag.toList ++ renderAttributes (.ofList attributes))

/-- The closing tag of an element after its first bracket. -/
def closingTag (tag : String) : List Char :=
  '/' :: (tag.toList ++ ['>'])

/-- A pair of tags around a text. -/
def pairText (tag : String) (attributes : List (String × AttributeValue)) (inside : List Char) : List Char :=
  openingTag tag attributes ++ '>' :: (inside ++ '<' :: closingTag tag)

def containerAttributes : List (String × AttributeValue) :=
  [("className", .text "py-12")]

def stackAttributes : List (String × AttributeValue) :=
  [("gap", .expression "\x7b6\x7d")]

def cardAttributes : List (String × AttributeValue) :=
  [("padding", .text "lg")]

def headingAttributes : List (String × AttributeValue) :=
  [("className", .text "text-2xl font-bold mb-4")]

def noteAttributes : List (String × AttributeValue) :=
  [("className", .text "text-gray-600 mb-6")]

def buttonAttributes : List (String × AttributeValue) :=
  [("variant", .text "primary")]

def noteText : String :=
  "This component was generated based on your request."

/-- What the template returns, around the text of its heading. -/
def cardText (heading : List Char) : List Char :=
  pairText "Container" containerAttributes
    ("\n      ".toList ++ (pairText "Stack" stackAttributes
      ("\n        ".toList ++ (pairText "Card" cardAttributes
        ("\n          ".toList ++ (pairText "h2" headingAttributes heading ++
          ("\n          ".toList ++ (pairText "p" noteAttributes noteText.toList ++
            ("\n          ".toList ++ (pairText "Button" buttonAttributes "Learn More".toList ++
              "\n        ".toList)))))) ++
        "\n      ".toList)) ++
      "\n    ".toList))

/-- The card up to the end of the tag that opens its heading. -/
def cardOpening : List Char :=
  openingTag "Container" containerAttributes ++ '>' :: ("\n      ".toList ++
    (openingTag "Stack" stackAttributes ++ '>' :: ("\n        ".toList ++
      (openingTag "Card" cardAttributes ++ '>' :: ("\n          ".toList ++ openingTag "h2" headingAttributes)))))

/-- The card from the tag that closes its heading on. -/
def cardClosing : List Char :=
  closingTag "h2" ++ ("\n          ".toList ++ (pairText "p" noteAttributes noteText.toList ++
    ("\n          ".toList ++ (pairText "Button" buttonAttributes "Learn More".toList ++
      ("\n        ".toList ++ '<' :: (closingTag "Card" ++ ("\n      ".toList ++
        '<' :: (closingTag "Stack" ++ ("\n    ".toList ++ '<' :: closingTag "Container")))))))))

theorem cardText_eq (heading : List Char) :
    cardText heading = cardOpening ++ '>' :: (heading ++ '<' :: cardClosing) := by
  simp only [cardText, cardOpening, cardClosing, pairText, List.append_assoc, List.cons_append]

/-! ## The source around the title -/

/-- The imports of the template. -/
def templateImports : List ImportStatement :=
  reactImport :: components.map memberImport

/-- The lines between the imports and the card. -/
def functionLines : List Char :=
  '\n' :: (functionText ++ "\n    ".toList)

/-- The source in front of the title, without its last bracket. -/
def frontText : List Char :=
  importLines templateImports ++ (functionLines ++ cardOpening)

/-- The source behind the title, without its first bracket. -/
def backText : List Char :=
  cardClosing ++ "\n  );\n\x7d\n".toList

theorem flatMap_importLine : (("import React from 'react';" :: components.map Vocabulary.importLine).map
    String.toList).flatMap (· ++ ['\n']) = importLines templateImports := by
  have hreact : "import React from 'react';".toList = reactImport.text := by decide
  simp only [templateImports, importLines, List.map_cons, List.map_map, Function.comp_def, toList_importLine, hreact,
    List.flatMap_cons, List.flatMap_map]

/-- The source before and after the title is the same for every plan. -/
theorem toList_code (plan : Plan) :
    (code plan).toList = frontText ++ '>' :: ((title plan.intent).toList ++ '<' :: backText) := by
  have hopening : (opening.map String.toList).flatMap (· ++ ['\n']) ++
      "          <h2 className=\"text-2xl font-bold mb-4\">".toList = functionLines ++ cardOpening ++ ['>'] := by
    decide +kernel
  have hclosing : "</h2>".toList ++ (closing.map String.toList).flatMap (['\n'] ++ ·) = '<' :: backText := by
    decide +kernel
  have hbreak : "\n".toList = ['\n'] := by decide
  rw [code, String.toList_intercalate, hbreak, List.singleton_append, List.append_assoc, List.singleton_append,
    List.map_append, List.map_cons, intercalate_append_cons, List.map_append, List.flatMap_append, flatMap_importLine,
    String.toList_append, String.toList_append]
  calc
    _ = importLines templateImports ++ ((opening.map String.toList).flatMap (· ++ ['\n']) ++
          "          <h2 className=\"text-2xl font-bold mb-4\">".toList ++ ((title plan.intent).toList ++
            ("</h2>".toList ++ (closing.map String.toList).flatMap (['\n'] ++ ·)))) := by
      simp only [List.append_assoc]
    _ = _ := by
      rw [hopening, hclosing, frontText]
      simp only [List.append_assoc, List.singleton_append]

/-- The code is a module that returns the card. -/
theorem toList_code_eq_cardText (plan : Plan) :
    (code plan).toList = (importLines templateImports ++ ['\n']) ++
      (functionText ++ ("\n    ".toList ++ (cardText (title plan.intent).toList ++ "\n  );\n\x7d\n".toList))) := by
  rw [toList_code, cardText_eq, frontText, backText, functionLines]
  simp only [List.append_assoc, List.cons_append, List.nil_append]

theorem not_mem_title (intent : String) : ∀ sign ∈ markupSigns, sign ∉ (title intent).toList := by
  intro sign hsign hmem
  rw [title, String.toList_ofList, List.mem_filter, List.contains_iff_mem.2 hsign] at hmem
  exact absurd hmem.2 (by decide)

/-! ## What the rules find -/

/-- A local finding in the code is one in the title, or one of the template itself. -/
theorem found_code {find : Finding} (h : Local find) (plan : Plan) :
    Found find (code plan).toList ↔
      Found find frontText ∨ Found find (title plan.intent).toList ∨ Found find ('<' :: backText) := by
  rw [toList_code, h.found_append_closing (.inl rfl), h.found_append_opening]

/-- The template itself has nothing that a rule finds, and no word that would be read with the title. -/
structure Silent : Prop where
  front : ∀ rule ∈ Rule.all, rule.staysLocal = true → rule.check frontText = []
  back : ∀ rule ∈ Rule.all, rule.staysLocal = true → rule.check ('<' :: backText) = []
  /-- The tags in front of the title end there. -/
  ended : ∀ rest ∈ afterTagNames (frontText ++ ['>']), (Scan.tag 0 rest).isOk = true
  handlers : ∀ text ∈ (afterTagNames (frontText ++ ['>'])).filterMap attributeText? ++
    (afterTagNames ('<' :: backText)).filterMap attributeText?, handlerPattern.captures text = []
  imports : ¬"import".toList <:+: functionLines ++ cardOpening
  laterImports : ¬"import".toList <:+: backText
  exports : ¬"export default".toList <:+: importLines templateImports ++ ['\n']

instance : Decidable Silent :=
  decidable_of_iff (_ ∧ _ ∧ _ ∧ _ ∧ _ ∧ _ ∧ _)
    ⟨fun ⟨front, back, ended, handlers, imports, laterImports, exports⟩ =>
        ⟨front, back, ended, handlers, imports, laterImports, exports⟩,
      fun h => ⟨h.front, h.back, h.ended, h.handlers, h.imports, h.laterImports, h.exports⟩⟩

theorem silent : Silent := by
  decide +kernel

/-- A local rule finds in the code what it finds in the title. -/
theorem found_code_iff {rule : Rule} (hlocal : rule.staysLocal = true) {find : Finding} (hfind : find ∈ rule.findings)
    (plan : Plan) : Found find (code plan).toList ↔ Found find (title plan.intent).toList := by
  have hrule : rule ∈ Rule.all := by cases rule <;> decide
  have hfront := (check_eq_nil_iff hlocal).1 (silent.front rule hrule hlocal) find hfind
  have hback := (check_eq_nil_iff hlocal).1 (silent.back rule hrule hlocal) find hfind
  rw [found_code (local_of_mem_findings find hfind)]
  simp only [hfront, hback, false_or, or_false]

theorem check_dangerousSink_code (plan : Plan) :
    Rule.dangerousSink.check (code plan).toList = Rule.dangerousSink.check (title plan.intent).toList := by
  have hsinks : ∀ sink ∈ sinks, sink.2.occurs (code plan).toList = sink.2.occurs (title plan.intent).toList := by
    intro sink hsink
    rw [Bool.eq_iff_iff, Pattern.occurs_iff, Pattern.occurs_iff]
    exact @found_code_iff .dangerousSink rfl _ (List.mem_map.2 ⟨sink, hsink, rfl⟩) plan
  exact congrArg (List.map _) (List.filter_congr hsinks)

theorem holds_stylePattern : stylePattern.Holds ['\x7b'] := by
  refine Pattern.holds_seq_right ?_ _
  rintro behind part rest ⟨c, rfl, hc⟩
  obtain rfl : c = '\x7b' := beq_iff_eq.1 hc
  exact List.infix_rfl

/-- A title opens no tag and begins no style. -/
theorem check_code_eq_nil {rule : Rule} (hrule : rule = .scriptTag ∨ rule = .inlineStyle ∨ rule = .componentWhitelist)
    (plan : Plan) : rule.check (code plan).toList = [] := by
  have hlocal : rule.staysLocal = true := by
    rcases hrule with rfl | rfl | rfl <;> rfl
  have hangle := not_mem_title plan.intent '<' (by decide)
  have hbrace := not_mem_title plan.intent '\x7b' (by decide)
  rw [check_eq_nil_iff hlocal]
  intro find hfind
  rw [found_code_iff hlocal hfind]
  rcases hrule with rfl | rfl | rfl
  · simp only [Rule.findings, List.mem_cons, List.not_mem_nil, or_false] at hfind
    rcases hfind with rfl | rfl
    · exact not_found_tag "script" hangle
    · exact not_found_tag "iframe" hangle
  · obtain rfl := List.mem_singleton.1 hfind
    rintro ⟨a, part, rest, htext, hfits⟩
    apply hbrace
    rw [htext]
    exact List.mem_append_right a (List.mem_append_left rest ((holds_stylePattern hfits).subset List.mem_cons_self))
  · obtain rfl := List.mem_singleton.1 hfind
    exact not_found_strangeTag hangle

/-- A tag that ends is read alike whatever follows it. -/
theorem attributeText?_append_of_ok {text : List Char} (h : (Scan.tag 0 text).isOk = true) (back : List Char) :
    attributeText? (text ++ back) = attributeText? text := by
  cases htag : Scan.tag 0 text with
  | error fault =>
      rw [htag] at h
      cases h
  | ok found =>
      obtain ⟨content, rest⟩ := found
      obtain ⟨hinside, rfl⟩ := Scan.tag_eq_ok_iff.1 htag
      have hmore : Scan.tag 0 (content ++ '>' :: rest ++ back) = .ok (content, rest ++ back) :=
        Scan.tag_eq_ok_iff.2 ⟨hinside, by simp⟩
      rw [attributeText?, attributeText?, htag, hmore]

theorem check_inlineHandler_code (plan : Plan) : Rule.inlineHandler.check (code plan).toList = [] := by
  have hended := silent.ended
  have hnone := silent.handlers
  have htitle := not_mem_title plan.intent '<' (by decide)
  have htexts : tagAttributeTexts (code plan).toList = (afterTagNames (frontText ++ ['>'])).filterMap attributeText? ++
      (afterTagNames ('<' :: backText)).filterMap attributeText? := by
    rw [tagAttributeTexts, toList_code]
    generalize '<' :: backText = tail
    generalize frontText = front at hended ⊢
    rw [afterTagNames_append_closing, afterTagNames_append htitle, List.filterMap_append, List.filterMap_map]
    congr 1
    exact List.filterMap_congr fun rest hrest => attributeText?_append_of_ok (hended rest hrest) _
  have hnames : handlerNames (code plan).toList = [] := by
    rw [handlerNames, htexts, List.flatMap_eq_nil_iff.2 fun text htext => by rw [hnone text htext]; rfl]
    rfl
  rw [Rule.check, hnames, List.map_nil]

/-! ## Imports -/

theorem templateImports_subset : templateImports ⊆ headerImports := by
  have hcomponents : components ⊆ Vocabulary.planComponents := by decide
  exact List.cons_subset_cons _ (List.subset_append_of_subset_left _ (List.map_subset _ hcomponents))

/-- What an import pattern captures behind the imports of the template it captures from the title on. -/
theorem capturesFrom_card {p : Pattern} (hp : p.EndsIn Scan.isTagQuote) (hbegins : p.Begins "import".toList)
    (behind text : List Char) (offset : Nat) :
    p.capturesFrom 0 behind offset (functionLines ++ cardOpening ++ '>' :: text) = p.captures text := by
  have hskip := @Pattern.Begins.capturesFrom_append _ _ hbegins (functionLines ++ cardOpening) '>' (by decide)
    silent.imports behind text offset
  have hbehind : SameSide ((functionLines ++ cardOpening ++ ['>']).reverse ++ behind) [] := by
    rw [List.reverse_concat]
    exact .inr ⟨rfl, rfl⟩
  have hframe := @Pattern.EndsIn.capturesFrom_frame _ _ text []
    (offset + (functionLines ++ cardOpening ++ ['>']).length) 0 p _ hp hbehind rfl (by simp) 0 (Nat.zero_le _)
  rw [List.append_nil] at hframe
  rw [hskip, hframe, Pattern.captures_eq]

/-- The imports in the code are those of the template and those in the title, read on to the end. -/
theorem check_importWhitelist_code (plan : Plan) :
    Rule.importWhitelist.check (code plan).toList =
      Rule.importWhitelist.check ((title plan.intent).toList ++ '<' :: backText) := by
  have hplain : ∀ statement ∈ templateImports, PlainImport statement := fun statement hstatement =>
    plainImport_of_mem_headerImports statement (templateImports_subset hstatement)
  have hpaths : ∀ path ∈ (templateImports.map ImportStatement.path).map String.ofList,
      (!Vocabulary.importPaths.contains path) = false := by
    simp only [List.map_map, List.mem_map, Function.comp_apply]
    rintro path ⟨statement, hstatement, rfl⟩
    rw [contains_path_of_mem_headerImports statement (templateImports_subset hstatement)]
    rfl
  have hcode : (code plan).toList = importLines templateImports ++
      (functionLines ++ cardOpening ++ '>' :: ((title plan.intent).toList ++ '<' :: backText)) := by
    rw [toList_code, frontText, List.append_assoc]
  rw [Rule.check, Rule.check, importPaths, importPaths, Pattern.captures_eq importPattern (code plan).toList,
    Pattern.captures_eq bareImportPattern (code plan).toList, hcode, capturesFrom_importLines hplain rfl,
    bareCapturesFrom_importLines hplain, capturesFrom_card endsIn_importPattern begins_importPattern,
    capturesFrom_card endsIn_bareImportPattern begins_bareImportPattern, List.append_assoc, List.map_append,
    filter_distinct_append _ hpaths]

/-- Without the word there is no import. -/
theorem check_importWhitelist_of_absent {intent : String} (h : ¬"import".toList <:+: (title intent).toList) :
    Rule.importWhitelist.check ((title intent).toList ++ '<' :: backText) = [] := by
  have htext : ¬"import".toList <:+: (title intent).toList ++ '<' :: backText := by
    intro hinside
    rcases infix_of_infix_append_cons (by decide) hinside with hfront | hback
    · exact h hfront
    · exact absurd hback silent.laterImports
  have hnone {p : Pattern} (hp : p.Begins "import".toList) :
      p.captures ((title intent).toList ++ '<' :: backText) = [] := by
    rw [List.eq_nil_iff_forall_not_mem]
    intro captured hcaptured
    obtain ⟨a, part, rest, hsplit, hkeeps⟩ := Pattern.exists_of_mem_captures hcaptured
    apply htext
    rw [hsplit]
    exact (hp hkeeps.fits).isInfix.trans ⟨a, rest, by simp⟩
  rw [Rule.check, importPaths, hnone begins_importPattern, hnone begins_bareImportPattern]
  rfl

/-- The strict guard finds the sinks in the title and the imports that begin in it. -/
theorem violations_code (plan : Plan) :
    (validate .strict (code plan)).violations = Rule.dangerousSink.check (title plan.intent).toList ++
      Rule.importWhitelist.check ((title plan.intent).toList ++ '<' :: backText) := by
  rw [violations_validate]
  simp only [Strictness.rules, Rule.all, List.flatMap_cons, List.flatMap_nil, check_dangerousSink_code,
    check_inlineHandler_code, check_importWhitelist_code, check_code_eq_nil (.inl rfl),
    check_code_eq_nil (.inr (.inl rfl)), check_code_eq_nil (.inr (.inr rfl)), List.nil_append, List.append_nil]

/-! ## The tree of the code -/

/-- An element of the template. -/
def element (tag : String) (attributes : List (String × AttributeValue)) (children : List Child) : Node :=
  .mk "" tag (.ofList attributes) children

/-- The tree of the card around the children of its heading. -/
def cardTree (heading : List Child) : Node :=
  element "Container" containerAttributes [
    .text "\n      ",
    .element (element "Stack" stackAttributes [
      .text "\n        ",
      .element (element "Card" cardAttributes [
        .text "\n          ",
        .element (element "h2" headingAttributes heading),
        .text "\n          ",
        .element (element "p" noteAttributes [.text noteText]),
        .text "\n          ",
        .element (element "Button" buttonAttributes [.text "Learn More"]),
        .text "\n        "]),
      .text "\n      "]),
    .text "\n    "]

/-- A text without markup signs is plain. -/
theorem plainText_of_not_mem {text : List Char} (h : ∀ sign ∈ markupSigns, sign ∉ text) : PlainText text := by
  induction text with
  | nil => exact .nil
  | cons c text ih =>
      refine .character ?_ ?_ (ih fun sign hsign hmem => h sign hsign (List.mem_cons_of_mem c hmem))
      · rintro rfl
        exact h _ (by decide) List.mem_cons_self
      · rintro rfl
        exact absurd List.mem_cons_self (h '<' (by decide))

section

variable {name : Nat → String} {tag : String} {attributes : List (String × AttributeValue)}
  {inside later : List Char} {children rest : List Child}

/-- A pair of tags is read as an element when its opening tag reads back. -/
theorem readsAs_pairText (h : ReadsInside name inside children)
    (htag : (element tag attributes [.text ""]).ReadsBack) :
    ReadsAs name (pairText tag attributes inside) (element tag attributes children) := by
  have hcontent : (element tag attributes [.text ""]).tagContent =
      tag.toList ++ renderAttributes (.ofList attributes) := by
    rw [Node.tagContent, show (element tag attributes [.text ""]).closesItself = false from rfl]
    exact List.append_nil _
  have hopens := Node.readsBack_iff.1 htag
  rw [hcontent] at hopens
  exact h.pair hopens ""

theorem getLast?_pairText (tag : String) (attributes : List (String × AttributeValue)) (inside : List Char) :
    (pairText tag attributes inside).getLast? = some '>' := by
  simp [pairText, closingTag, List.getLast?_append, List.getLast?_cons]

/-- An indented element in front of other children. -/
theorem readsInside_line (hlater : ReadsInside name later rest) {indent : String} (hne : indent ≠ "")
    (hindent : ∀ sign ∈ markupSigns, sign ∉ indent.toList) (h : ReadsInside name inside children)
    (htag : (element tag attributes [.text ""]).ReadsBack) :
    ReadsInside name (indent.toList ++ (pairText tag attributes inside ++ later))
      (.text indent :: .element (element tag attributes children) :: rest) :=
  (hlater.element (readsAs_pairText h htag)).text hne (plainText_of_not_mem hindent) rfl fun _ => rfl

theorem readsInside_text {text : String} (hne : text ≠ "") (htext : ∀ sign ∈ markupSigns, sign ∉ text.toList) :
    ReadsInside name text.toList [.text text] := by
  have hinside := @ReadsInside.text name [] [] .nil text hne (plainText_of_not_mem htext) rfl id
  rwa [List.append_nil] at hinside

end

/-- The card is read as its tree around whatever is read as the children of the heading. -/
theorem readsAs_cardText {name : Nat → String} {heading : List Char} {children : List Child}
    (h : ReadsInside name heading children) : ReadsAs name (cardText heading) (cardTree children) := by
  unfold cardText cardTree
  -- from the outside in: whatever is not the heading is closed
  refine readsAs_pairText (readsInside_line (readsInside_text ?_ ?_) ?_ ?_ ?stack ?_) ?_
  case stack =>
    refine readsInside_line (readsInside_text ?_ ?_) ?_ ?_ ?card ?_
    case card =>
      refine readsInside_line (readsInside_line (readsInside_line (readsInside_text ?_ ?_) ?_ ?_ ?label ?_) ?_ ?_
        ?note ?_) ?_ ?_ h ?_
      case label => exact readsInside_text (by decide) (by decide)
      case note => exact readsInside_text (by decide) (by decide)
      all_goals decide +kernel
    all_goals decide +kernel
  all_goals decide +kernel

/-- Every module of the template is read as the tree of the card. -/
theorem exists_transform_code (plan : Plan) (name : Nat → String) (component : String) :
    ∃ canonical, transform name component (code plan) = .ok canonical ∧
      canonical.tree.unnamed = (cardTree (textChild (title plan.intent).toList)).unnamed := by
  have hplain := plainText_of_not_mem (not_mem_title plan.intent)
  have hbody := (readsAs_cardText (@PlainText.readsInside Fragment.plainName _ hplain)).returnBody_eq silent.exports
  rw [← toList_code_eq_cardText] at hbody
  have hcard := readsAs_cardText (@PlainText.readsInside name _ hplain)
  obtain ⟨tree, hread, hunnamed⟩ := @hcard.exists_read _ _ _ (getLast?_pairText _ _ _) "\n    ".toList "\n  ".toList (by decide) (by decide)
  refine ⟨⟨tree, moduleText tree component⟩, ?_, hunnamed⟩
  rw [transform, readModule, hbody]
  dsimp only
  rw [hread]

/-- What the elements of one type in a tree have for children, in the order of the tree. -/
def childrenOf (tag : String) (root : Node) : List (List Child) :=
  (root.descendants.filter (·.tag == tag)).map Node.children

theorem tag_unnamed (node : Node) : node.unnamed.tag = node.tag := by
  cases node
  rfl

theorem childrenOf_unnamed (tag : String) (root : Node) :
    childrenOf tag root.unnamed = (childrenOf tag root).map unnamedChildren := by
  have hchildren (node : Node) : node.unnamed.children = unnamedChildren node.children := by
    cases node
    rfl
  simp only [childrenOf, Node.descendants_unnamed, List.filter_map, List.map_map, Function.comp_def, tag_unnamed,
    hchildren]

/-- A text has no identifier to forget. -/
theorem unnamedChildren_eq_textChild {children : List Child} {text : List Char}
    (h : unnamedChildren children = unnamedChildren (textChild text)) : children = textChild text := by
  unfold textChild at h ⊢
  split at h <;> split <;> try contradiction
  all_goals
    rcases children with _ | ⟨_ | _, _ | ⟨_ | _, _⟩⟩ <;> simp_all [unnamedChildren]

theorem childrenOf_cardTree (text : List Char) : childrenOf "h2" (cardTree (textChild text)) = [textChild text] := by
  have htext : descendantsOf (textChild text) = [] := by
    unfold textChild
    split <;> rfl
  simp only [childrenOf, cardTree, element, Node.descendants, descendantsOf, htext, List.append_nil, List.nil_append,
    List.cons_append]
  rfl

/--
The template around any intent is read as the card with the title for its heading.  It passes the strict guard
exactly when the title, which is all that the user writes, holds no sink and no import from elsewhere.
-/
theorem code_accepted_iff (plan : Plan) :
    (validate .strict (code plan)).violations = Rule.dangerousSink.check (title plan.intent).toList ++
        Rule.importWhitelist.check ((title plan.intent).toList ++ '<' :: backText) ∧
    ((validate .strict (code plan)).ok = true ↔
      Rule.dangerousSink.check (title plan.intent).toList = [] ∧
        Rule.importWhitelist.check ((title plan.intent).toList ++ '<' :: backText) = []) ∧
    ("import".toList <:+: (title plan.intent).toList ∨
      Rule.importWhitelist.check ((title plan.intent).toList ++ '<' :: backText) = []) ∧
    ∀ (name : Nat → String) (component : String), ∃ canonical,
      transform name component (code plan) = .ok canonical ∧ canonical.tree.tag = "Container" ∧
        childrenOf "h2" canonical.tree = [textChild (title plan.intent).toList] := by
  refine ⟨violations_code plan, ?_, ?_, fun name component => ?_⟩
  · rw [validate_ok_iff_violations, violations_code, List.append_eq_nil_iff]
  · by_cases hword : "import".toList <:+: (title plan.intent).toList
    · exact .inl hword
    · exact .inr (check_importWhitelist_of_absent hword)
  · obtain ⟨canonical, htransform, hunnamed⟩ := exists_transform_code plan name component
    refine ⟨canonical, htransform, ?_, ?_⟩
    · rw [← tag_unnamed, hunnamed]
      rfl
    · have hheadings := childrenOf_unnamed "h2" canonical.tree
      rw [hunnamed, childrenOf_unnamed, childrenOf_cardTree] at hheadings
      obtain ⟨heading, hheading, hsame⟩ := List.map_eq_singleton_iff.1 hheadings.symm
      rw [hheading, unnamedChildren_eq_textChild hsame]

/-- An intent that names a sink is rejected: nothing takes it out of the title. -/
theorem code_sink_rejected :
    (plan? "eval(1)" none).map (fun plan => (validate .strict (code plan)).violations) = some [.sink "eval"] := by
  simp only [violations_code]
  decide +kernel

end ComponentBuilder.Agent.Template
