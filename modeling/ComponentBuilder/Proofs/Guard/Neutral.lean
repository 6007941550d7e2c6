import ComponentBuilder.Proofs.Guard.Imports
import ComponentBuilder.Proofs.Guard.LocalTree

/-!
# The module around a tree is neutral

The guard reports the same of a canonical module and of the text of its tree: the same violations of the same
rules in the same order.  For the rules that ask whether something occurs that is so because it occurs neither in
the module before the tree nor in the lines after it.  The others list what they capture, and no capture begins
outside of the tree or reaches out of it, but for the imports of the header, which are all allowed.
-/

namespace ComponentBuilder.Guard

open Text Markup

/-! ## The module before the tree -/

theorem isChain_preambleText : preambleText.IsChain MayFollow := by
  have hopening : ('\n' :: (openingLines ++ [' '])).IsChain MayFollow := by decide
  refine List.isChain_append.2 ⟨isChain_headerText.imp fun _ _ h => h.2, hopening, ?_⟩
  intro c _ d hd
  obtain rfl : '\n' = d := by simpa using hd
  exact ⟨by decide, by simp [absentPairs]⟩

theorem not_mem_preambleText : '<' ∉ preambleText := by
  have hfirst : preambleText.head? = some 'i' := by decide
  have hchain := isChain_preambleText
  cases htext : preambleText with
  | nil => simp
  | cons c rest =>
      rw [htext] at hfirst hchain
      obtain rfl : c = 'i' := by simpa using hfirst
      exact not_mem_of_isChain hchain (fun _ hmay => hmay.1 rfl) (by decide)

/-- A word with a pair that the module lacks is not in it. -/
theorem not_found_of_holds {p : Pattern} {c d : Char} (hp : p.Holds [c, d]) (hpair : (c, d) ∈ absentPairs) :
    ¬Found p.Fits preambleText := by
  rintro ⟨a, part, rest, htext, hfits⟩
  apply not_infix_of_isChain isChain_preambleText (fun hmay => hmay.2 hpair)
  rw [htext]
  exact (hp hfits).trans ((List.prefix_append part rest).isInfix.trans (List.suffix_append a _).isInfix)

/-- Something that holds an angle bracket is not in a text without one. -/
theorem not_found_of_bracket {find : Finding}
    (h : ∀ ⦃behind part rest⦄, find behind part rest → '<' ∈ part) {text : List Char} (htext : '<' ∉ text) :
    ¬Found find text := by
  rintro ⟨a, part, rest, rfl, hfind⟩
  apply htext
  exact List.mem_append_right a (List.mem_append_left rest (h hfind))

theorem not_found_sink : ∀ sink ∈ sinks, ¬Found sink.2.Fits preambleText := by
  have hmarkup : ∀ s ∈ ["dangerouslySetInnerHTML", ".innerHTML", ".outerHTML", "insertAdjacentHTML"],
      (Pattern.text s).Holds ['H', 'T'] := by
    intro s hs
    apply Pattern.holds_text
    revert s
    decide
  have hwrite : (Pattern.text "document.write").Holds ['w', 'r'] := Pattern.holds_text (by decide)
  have heval : (Pattern.text "eval").Holds ['v', 'a'] := Pattern.holds_text (by decide)
  have hfunction : (Pattern.text "Function").Holds ['F', 'u'] := Pattern.holds_text (by decide)
  intro sink hsink
  simp only [sinks, List.mem_cons, List.not_mem_nil, or_false] at hsink
  rcases hsink with rfl | rfl | rfl | rfl | rfl | rfl | rfl
  · refine @not_found_of_holds _ 'H' 'T' ?_ (by decide)
    exact Pattern.holds_seq_left (Pattern.holds_seq_right (hmarkup _ (by decide)) _) _
  · refine @not_found_of_holds _ 'H' 'T' ?_ (by decide)
    exact Pattern.holds_seq_left (Pattern.holds_seq_left (Pattern.holds_seq_left (hmarkup _ (by decide)) _) _) _
  · refine @not_found_of_holds _ 'H' 'T' ?_ (by decide)
    exact Pattern.holds_seq_left (Pattern.holds_seq_left (Pattern.holds_seq_left (hmarkup _ (by decide)) _) _) _
  · refine @not_found_of_holds _ 'H' 'T' ?_ (by decide)
    exact Pattern.holds_seq_left (Pattern.holds_seq_left (Pattern.holds_seq_right (hmarkup _ (by decide)) _) _) _
  · refine @not_found_of_holds _ 'w' 'r' ?_ (by decide)
    exact Pattern.holds_seq_left (Pattern.holds_seq_left
      (Pattern.holds_seq_left (Pattern.holds_seq_right hwrite _) _) _) _
  · refine @not_found_of_holds _ 'v' 'a' ?_ (by decide)
    exact Pattern.holds_seq_left (Pattern.holds_seq_left (Pattern.holds_seq_right heval _) _) _
  · refine @not_found_of_holds _ 'F' 'u' ?_ (by decide)
    exact Pattern.holds_seq_left (Pattern.holds_seq_left (Pattern.holds_seq_right hfunction _) _) _

theorem not_found_style : ¬Found stylePattern.Fits preambleText := by
  have hstyle : (Pattern.text "style").Holds ['y', 'l'] := Pattern.holds_text (by decide)
  refine @not_found_of_holds _ 'y' 'l' ?_ (by decide)
  exact Pattern.holds_seq_left (Pattern.holds_seq_left (Pattern.holds_seq_left
    (Pattern.holds_seq_left (Pattern.holds_seq_right hstyle _) _) _) _) _

theorem not_found_tag (tag : String) {text : List Char} (htext : '<' ∉ text) :
    ¬Found (tagPattern tag).Fits text := by
  have hbracket : (tagPattern tag).Holds ['<'] := by
    have hopening : (Pattern.text "<").Holds ['<'] := Pattern.holds_text (by decide)
    exact Pattern.holds_seq_left (Pattern.holds_seq_left (Pattern.holds_seq_left hopening _) _) _
  refine not_found_of_bracket ?_ htext
  intro behind part rest hfits
  exact (hbracket hfits).subset List.mem_cons_self

theorem not_found_strangeTag {text : List Char} (htext : '<' ∉ text) : ¬Found StrangeTag text := by
  refine not_found_of_bracket ?_ htext
  rintro behind part rest ⟨c, name, rfl, -⟩
  exact List.mem_cons_self

/-- The local rules find nothing before the tree. -/
theorem not_found_preambleText {rule : Rule} : ∀ find ∈ rule.findings, ¬Found find preambleText := by
  intro find hfind
  cases rule with
  | inlineHandler | importWhitelist => cases hfind
  | dangerousSink =>
      obtain ⟨sink, hsink, rfl⟩ := List.mem_map.1 hfind
      exact not_found_sink sink hsink
  | scriptTag =>
      simp only [Rule.findings, List.mem_cons, List.not_mem_nil, or_false] at hfind
      rcases hfind with rfl | rfl
      · exact not_found_tag "script" not_mem_preambleText
      · exact not_found_tag "iframe" not_mem_preambleText
  | inlineStyle =>
      obtain rfl := List.mem_singleton.1 hfind
      exact not_found_style
  | componentWhitelist =>
      obtain rfl := List.mem_singleton.1 hfind
      exact not_found_strangeTag not_mem_preambleText

/-! ## Rules that ask whether something occurs -/

theorem not_found_footerText {rule : Rule} : ∀ find ∈ rule.findings, ¬Found find footerText := by
  cases hlocal : rule.staysLocal with
  | true =>
      have hnone : rule.check footerText = [] := by
        cases rule <;> decide
      exact (check_eq_nil_iff hlocal).1 hnone
  | false => cases rule <;> simp_all [Rule.staysLocal, Rule.findings]

theorem Local.found_moduleText {find : Finding} (h : Local find) (root : Node) :
    Found find (preambleText ++ (root.render ++ footerText)) ↔
      Found find preambleText ∨ Found find root.render ∨ Found find footerText := by
  obtain ⟨text, htext⟩ := root.exists_render_eq
  have hclosing : Found find (root.render ++ footerText) ↔ Found find root.render ∨ Found find footerText := by
    rw [htext, List.append_assoc, List.singleton_append, h.found_append_closing (.inl rfl), h.found_concat_closing]
  rw [← hclosing, root.render_eq_cons, List.cons_append]
  exact h.found_append_opening _ _

theorem occurs_moduleText {p : Pattern} (hlocal : Local p.Fits) (hpreamble : ¬Found p.Fits preambleText)
    (hfooter : ¬Found p.Fits footerText) (root : Node) :
    p.occurs (moduleText root defaultComponent).toList = p.occurs root.render := by
  rw [Bool.eq_iff_iff, Pattern.occurs_iff, Pattern.occurs_iff, moduleText_eq_preambleText]
  constructor
  · intro hmodule
    rcases (hlocal.found_moduleText root).1 hmodule with hfound | hfound | hfound
    · exact absurd hfound hpreamble
    · exact hfound
    · exact absurd hfound hfooter
  · intro hroot
    exact (hlocal.found_moduleText root).2 (.inr (.inl hroot))

/-- What a local rule looks for occurs in a canonical module exactly when it occurs in the text of the tree. -/
theorem occurs_moduleText_of_mem {rule : Rule} {p : Pattern} (h : p.Fits ∈ rule.findings) (root : Node) :
    p.occurs (moduleText root defaultComponent).toList = p.occurs root.render :=
  occurs_moduleText (local_of_mem_findings _ h) (not_found_preambleText _ h) (not_found_footerText _ h) root

/-! ## Handlers given as strings -/

theorem afterTagNames_append {front : List Char} (h : '<' ∉ front) (text : List Char) :
    afterTagNames (front ++ text) = afterTagNames text := by
  induction front with
  | nil => rfl
  | cons c front ih =>
      have hc : (c == '<') = false := by
        simp only [beq_eq_false_iff_ne, ne_eq]
        rintro rfl
        exact h List.mem_cons_self
      rw [List.cons_append, afterTagNames, hc, Bool.false_and, if_neg (by decide)]
      exact ih fun hmem => h (List.mem_cons_of_mem c hmem)

/-- After a text that ends a tag, each tag of it goes on with what follows the text. -/
theorem afterTagNames_append_closing (text back : List Char) :
    afterTagNames (text ++ '>' :: back) =
      (afterTagNames (text ++ ['>'])).map (· ++ back) ++ afterTagNames back := by
  induction text with
  | nil => exact @afterTagNames_append ['>'] (by decide) back
  | cons c text ih =>
      have hhead : (text ++ '>' :: back).head? = (text ++ ['>']).head? := by cases text <;> rfl
      rw [List.cons_append, List.cons_append, afterTagNames, afterTagNames, hhead]
      split
      · have hdrop : (text ++ '>' :: back).dropWhile (fun d => isWord d || d == '.') =
            (text ++ ['>']).dropWhile (fun d => isWord d || d == '.') ++ back := by
          have hstops : ((text ++ ['>']).dropWhile fun d => isWord d || d == '.').isEmpty = false := by
            rw [List.isEmpty_eq_false_iff, ne_eq, List.dropWhile_eq_nil_iff]
            intro hall
            exact absurd (hall '>' (by simp)) (by decide)
          rw [List.append_cons, List.dropWhile_append, hstops, if_neg (by decide)]
        rw [hdrop, ih, List.map_cons, List.cons_append]
      · exact ih

/-- What follows without the end of a tag makes no difference to whether a tag ends, and where. -/
theorem tag_append_ok_iff {text back content : List Char} (hback : '>' ∉ back) :
    (∃ rest, Scan.tag 0 (text ++ back) = .ok (content, rest)) ↔ ∃ rest, Scan.tag 0 text = .ok (content, rest) := by
  simp only [Scan.tag_eq_ok_iff]
  constructor
  · rintro ⟨rest, hinside, htext⟩
    rcases List.append_eq_append_iff.1 htext with ⟨more, -, rfl⟩ | ⟨more, rfl, hmore⟩
    · simp at hback
    · cases more with
      | nil =>
          rw [List.nil_append] at hmore
          simp [← hmore] at hback
      | cons c more =>
          obtain ⟨rfl, -⟩ := List.cons.inj hmore
          exact ⟨more, hinside, rfl⟩
  · rintro ⟨rest, hinside, rfl⟩
    exact ⟨rest ++ back, hinside, by simp⟩

theorem attributeText?_append {text back : List Char} (hback : '>' ∉ back) :
    attributeText? (text ++ back) = attributeText? text := by
  cases htag : Scan.tag 0 text with
  | ok found =>
      obtain ⟨content, rest⟩ := found
      obtain ⟨rest', htag'⟩ := (tag_append_ok_iff hback).2 ⟨rest, htag⟩
      rw [attributeText?, attributeText?, htag, htag']
  | error fault =>
      cases htag' : Scan.tag 0 (text ++ back) with
      | error fault' => rw [attributeText?, attributeText?, htag, htag']
      | ok found =>
          obtain ⟨rest, hok⟩ := (tag_append_ok_iff hback).1 ⟨found.2, htag'⟩
          rw [htag] at hok
          cases hok

theorem handlerNames_moduleText (root : Node) :
    handlerNames (moduleText root defaultComponent).toList = handlerNames root.render := by
  obtain ⟨text, htext⟩ := root.exists_render_eq
  have hfooter : afterTagNames footerText = [] := by decide
  have hclose : '>' ∉ footerText := by decide
  have htexts : tagAttributeTexts (moduleText root defaultComponent).toList = tagAttributeTexts root.render := by
    unfold tagAttributeTexts
    rw [moduleText_eq_preambleText, afterTagNames_append not_mem_preambleText, htext, List.append_assoc,
      List.singleton_append, afterTagNames_append_closing text footerText, hfooter, List.append_nil,
      List.filterMap_map]
    exact List.filterMap_congr fun rest _ => attributeText?_append hclose
  rw [handlerNames, handlerNames, htexts]

theorem check_inlineHandler_moduleText (root : Node) :
    Rule.inlineHandler.check (moduleText root defaultComponent).toList = Rule.inlineHandler.check root.render :=
  congrArg (List.map Violation.handlerString) (handlerNames_moduleText root)

/-! ## Capitalised tags -/

/-- A text at which no capitalised tag begins has none with what follows it either. -/
theorem no_capitalised_append {text back : List Char} (hstops : Stops isTagWord back) (hangle : back.head? ≠ some '<')
    (h : ∀ c rest, text = '<' :: c :: rest → c.isUpper = false) :
    ∀ c rest, text ++ back = '<' :: c :: rest → c.isUpper = false := by
  intro c rest htext
  match text with
  | [] =>
      rw [List.nil_append] at htext
      exact absurd (by rw [htext, List.head?_cons]) hangle
  | [d] =>
      obtain ⟨-, rfl⟩ := List.cons.inj htext
      rw [← Bool.not_eq_true]
      intro hupper
      have hword := stops_cons.1 hstops
      rw [isTagWord_of_isUpper hupper] at hword
      cases hword
  | d :: e :: text =>
      obtain ⟨rfl, hmore⟩ := List.cons.inj htext
      obtain ⟨rfl, -⟩ := List.cons.inj hmore
      exact h e text rfl

/-- A capitalised tag is captured alike whatever is behind it, and whatever follows, if no name goes on there. -/
theorem matchAt?_componentPattern_frame {behind behind' text back : List Char} {offset offset' : Nat}
    (hstops : Stops isTagWord back) (hangle : back.head? ≠ some '<') :
    (componentPattern.matchAt? ⟨behind, offset, text ++ back, []⟩).map
        (fun last => (last.captured, last.offset - offset)) =
      (componentPattern.matchAt? ⟨behind', offset', text, []⟩).map
        (fun last => (last.captured, last.offset - offset')) := by
  by_cases htag : ∃ c rest, text = '<' :: c :: rest ∧ c.isUpper = true
  · obtain ⟨c, rest, rfl, hupper⟩ := htag
    have hname : ∀ d ∈ rest.takeWhile isTagWord, isTagWord d = true := fun d hd => List.mem_takeWhile_imp hd
    have hrest := stops_dropWhile isTagWord rest
    have hsplit := @List.takeWhile_append_dropWhile _ isTagWord rest
    generalize rest.takeWhile isTagWord = name at hname hsplit
    generalize rest.dropWhile isTagWord = tail at hrest hsplit
    subst hsplit
    have hmore : Stops isTagWord (tail ++ back) := by
      cases tail with
      | nil => exact hstops
      | cons d tail => exact stops_cons.2 (stops_cons.1 hrest)
    have hlong := @matchAt?_componentPattern behind (tail ++ back) name c offset hupper hname hmore
    have hshort := @matchAt?_componentPattern behind' tail name c offset' hupper hname hrest
    rw [List.cons_append, List.cons_append, List.append_assoc, hlong, hshort]
    simp [Pattern.after]
  · have hshort : ∀ c rest, text = '<' :: c :: rest → c.isUpper = false := by
      intro c rest htext
      by_contra hupper
      exact htag ⟨c, rest, htext, by simpa using hupper⟩
    have hlong := no_capitalised_append hstops hangle hshort
    rw [matchAt?_componentPattern_eq_none hlong, matchAt?_componentPattern_eq_none hshort]
    rfl

theorem capturesFrom_componentPattern_of_not_mem {front : List Char} (h : '<' ∉ front) (behind rest : List Char)
    (offset : Nat) :
    componentPattern.capturesFrom 0 behind offset (front ++ rest) =
      componentPattern.capturesFrom 0 (front.reverse ++ behind) (offset + front.length) rest := by
  apply Pattern.capturesFrom_append_of_none
  intro a c b hsplit behind offset
  apply matchAt?_componentPattern_eq_none
  intro d more htext
  obtain ⟨rfl, -⟩ := List.cons.inj htext
  exact absurd (by simp [hsplit]) h

/-- The capitalised tags in front of the end of a tag are those of the text alone, wherever it stands. -/
theorem capturesFrom_componentPattern_concat {back : List Char} (hback : '<' ∉ back) (text behind : List Char)
    (offset : Nat) :
    componentPattern.capturesFrom 0 behind offset (text ++ '>' :: back) = componentPattern.captures text := by
  rw [Pattern.captures_eq]
  refine @Pattern.capturesFrom_frame_of_matchAt? behind [] text ('>' :: back) offset 0 _ (fun _ _ => True) ?_ ?_ ?_
    trivial 0 (Nat.zero_le _)
  · exact fun _ _ _ => trivial
  · intro behind behind' text offset offset' _
    exact matchAt?_componentPattern_frame (stops_cons.2 (by decide)) (by simp)
  · intro behind offset
    have hnone := @capturesFrom_componentPattern_of_not_mem ('>' :: back) (by simp [hback]) behind [] offset
    rwa [List.append_nil] at hnone

theorem captures_componentPattern_moduleText (root : Node) :
    componentPattern.captures (moduleText root defaultComponent).toList = componentPattern.captures root.render := by
  obtain ⟨text, htext⟩ := root.exists_render_eq
  have hfooter : '<' ∉ footerText := by decide
  have hroot := @capturesFrom_componentPattern_concat [] (by simp) text [] 0
  rw [← Pattern.captures_eq] at hroot
  rw [Pattern.captures_eq, moduleText_eq_preambleText, capturesFrom_componentPattern_of_not_mem not_mem_preambleText,
    htext, List.append_assoc, List.singleton_append, capturesFrom_componentPattern_concat hfooter, hroot]

/-! ## Imports -/

theorem check_importWhitelist_moduleText (root : Node) :
    Rule.importWhitelist.check (moduleText root defaultComponent).toList =
      Rule.importWhitelist.check root.render := by
  have hheader : ∀ path ∈ (headerImports.map ImportStatement.path).map String.ofList,
      (!Vocabulary.importPaths.contains path) = false := by
    simp only [List.map_map, List.mem_map, Function.comp_apply]
    rintro path ⟨statement, hstatement, rfl⟩
    rw [contains_path_of_mem_headerImports statement hstatement]
    rfl
  unfold Rule.check importPaths
  rw [captures_importPattern_moduleText, captures_bareImportPattern_moduleText, List.append_assoc, List.map_append,
    filter_distinct_append _ hheader]

/-! ## All rules -/

/-- A rule finds in a canonical module what it finds in the text of the tree, in the same order. -/
theorem check_moduleText (rule : Rule) (root : Node) :
    rule.check (moduleText root defaultComponent).toList = rule.check root.render := by
  have hoccurs {p : Pattern} (h : p.Fits ∈ rule.findings) := occurs_moduleText_of_mem h root
  cases rule with
  | dangerousSink =>
      have hsinks : ∀ sink ∈ sinks,
          sink.2.occurs (moduleText root defaultComponent).toList = sink.2.occurs root.render :=
        fun sink hsink => hoccurs (List.mem_map.2 ⟨sink, hsink, rfl⟩)
      exact congrArg (List.map _) (List.filter_congr hsinks)
  | scriptTag =>
      have hscript := @hoccurs (tagPattern "script") List.mem_cons_self
      have hframe := @hoccurs (tagPattern "iframe") (List.mem_cons_of_mem _ List.mem_cons_self)
      unfold Rule.check
      rw [hscript, hframe]
  | inlineStyle =>
      have hstyle := @hoccurs stylePattern List.mem_cons_self
      unfold Rule.check
      rw [hstyle]
  | inlineHandler => exact check_inlineHandler_moduleText root
  | componentWhitelist =>
      unfold Rule.check componentNames
      rw [captures_componentPattern_moduleText]
  | importWhitelist => exact check_importWhitelist_moduleText root

/-- The guard reports of a canonical module what it reports of the text of its tree: what is around the tree
neither adds a violation nor hides one, whatever the tree holds. -/
theorem validate_moduleText (strictness : Strictness) (root : Node) :
    validate strictness (moduleText root defaultComponent) = validate strictness root.text := by
  have htext : root.text.toList = root.render := String.toList_ofList
  unfold validate
  simp only [htext, check_moduleText]

end ComponentBuilder.Guard
