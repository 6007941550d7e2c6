import ComponentBuilder.Proofs.Guard.Canonical
import ComponentBuilder.Proofs.Markup.Openings

/-!
# What the tree of an admitted source can hold

The rules read the text of a source, and the tree is read from the same text in another way.  Where the reader
finds a tag or an attribute, a whole word of the text stands, so what the rules on scripts, sinks and styles
let pass has none of them in its tree.  The rule on components reads a name only up to the first character
that it does not know: what it has seen of a capitalised name is in the vocabulary, the whole name need not be.
-/

namespace ComponentBuilder.Guard

open Text Markup

variable {strictness : Strictness} {name : Nat → String} {component source : String} {canonical : Canonical}

/-- A local rule that applies found nothing in an admitted source. -/
theorem not_found_of_accepted (haccepted : (validate strictness source).ok = true) {rule : Rule}
    (hrule : rule ∈ strictness.rules) (hlocal : rule.staysLocal = true) :
    ∀ find ∈ rule.findings, ¬Found find source.toList :=
  (check_eq_nil_iff hlocal).1 (validate_ok_iff.1 haccepted rule hrule)

theorem mem_rules_of_mandatory {rule : Rule} (h : rule.mandatory = true) : rule ∈ strictness.rules := by
  cases strictness <;> cases rule <;> first | decide | cases h

/-! ## Words that the rules look for -/

/-- A tag that is a lower-case word when the case of its letters is ignored. -/
def InSomeCase (word tag : String) : Prop :=
  List.Forall₂ (fun letter c => sameLetter letter c = true) word.toList tag.toList

theorem inSomeCase_lowerAscii (tag : String) : InSomeCase (lowerAscii tag) tag := by
  rw [InSomeCase, lowerAscii, String.toList_ofList, List.forall₂_map_left_iff, List.forall₂_same]
  intro c _
  simp [sameLetter]

theorem fits_anyCase {word tag : String} {behind rest : List Char} (hword : ∀ c ∈ word.toList, c.isAlpha = true)
    (htag : InSomeCase word tag) : (Pattern.anyCase word).Fits behind tag.toList rest := by
  unfold Pattern.anyCase
  unfold InSomeCase at htag
  generalize word.toList = letters at hword htag
  generalize tag.toList = part at htag
  induction htag generalizing behind with
  | nil => rfl
  | @cons c d letters part hcd _ ih =>
      refine ⟨[d], part, rfl, ⟨d, rfl, ?_⟩, ih fun e he => hword e (List.mem_cons_of_mem _ he)⟩
      simpa [hword c List.mem_cons_self] using hcd

theorem fits_tagPattern {word tag : String} {behind rest : List Char}
    (hword : ∀ c ∈ word.toList, c.isAlpha = true) (hne : word.toList ≠ []) (htag : InSomeCase word tag)
    (hrest : rest.head?.any isWord = false) :
    (tagPattern word).Fits behind ('<' :: tag.toList) rest := by
  have hall : ∀ d ∈ tag.toList, isWord d = true := by
    intro d hd
    obtain ⟨i, hi, rfl⟩ := List.getElem_of_mem hd
    have hbound : i < word.toList.length := htag.length_eq ▸ hi
    exact isWord_of_sameLetter (hword _ (List.getElem_mem hbound)) (htag.get hbound hi)
  have htagne : tag.toList.reverse ≠ [] := by
    rw [Ne, List.reverse_eq_nil_iff, ← List.length_eq_zero_iff, ← htag.length_eq, List.length_eq_zero_iff]
    exact hne
  refine ⟨'<' :: tag.toList, [], by simp, ⟨['<'], tag.toList, rfl,
    ⟨['<'], [], rfl, Pattern.fits_chars_self ['<'] _ _, Nat.zero_le _, by simp⟩, fits_anyCase hword htag⟩, rfl, ?_⟩
  rw [List.reverse_cons, List.append_assoc, List.head?_append_of_ne_nil _ htagne,
    List.head?_eq_some_head htagne, Option.any_some, hall _ (List.mem_reverse.1 (List.head_mem htagne)),
    hrest]
  rfl

theorem fits_stylePattern {behind gap gap' rest : List Char} (hbehind : behind.head?.any isWord = false)
    (hgap : ∀ c ∈ gap, isBlank c = true) (hgap' : ∀ c ∈ gap', isBlank c = true) :
    stylePattern.Fits behind ("style".toList ++ gap ++ ['='] ++ gap' ++ ['\x7b']) rest :=
  ⟨"style".toList ++ gap ++ ['='] ++ gap', ['\x7b'], rfl,
    ⟨"style".toList ++ gap ++ ['='], gap', rfl,
      ⟨"style".toList ++ gap, ['='], rfl,
        ⟨"style".toList, gap, rfl, Pattern.fits_edge_text (by decide +kernel) hbehind, Nat.zero_le _, hgap⟩,
        Pattern.fits_chars_self ['='] _ _⟩,
      Nat.zero_le _, hgap'⟩,
    '\x7b', rfl, rfl⟩

/-! ## Tags, sinks and styles -/

/-- No element of an admitted tree has the name of a tag that the rules look for, in any letter case. -/
theorem not_inSomeCase_of_not_found {word : String} (hword : ∀ c ∈ word.toList, c.isAlpha = true)
    (hne : word.toList ≠ []) (hnone : ¬Found (tagPattern word).Fits source.toList)
    (htransform : transform name component source = .ok canonical) :
    ∀ node ∈ canonical.tree.descendants, ¬InSomeCase word node.tag := by
  intro node hnode hsame
  obtain ⟨front, rest, back, hsource, hname, -, hback⟩ := exists_parts_of_transform htransform node hnode
  have htag : node.tag.toList ≠ [] := by
    rw [Ne, ← List.length_eq_zero_iff, ← hsame.length_eq, List.length_eq_zero_iff]
    exact hne
  have hrest := AttributeList.any_isWord_of_stops (stops_of_leadingName hname htag hback)
  exact hnone ⟨front, '<' :: node.tag.toList, rest ++ back, by rw [hsource]; simp,
    fits_tagPattern hword hne hsame hrest⟩

theorem get?_eq_none_of_not_found {word : String} (hhead : word.toList.head?.any isWord = true)
    (hlast : word.toList.getLast?.any isWord = true)
    (hnone : ¬Found (Pattern.edge ++ .text word ++ .edge).Fits source.toList)
    (htransform : transform name component source = .ok canonical) :
    ∀ node ∈ canonical.tree.descendants, node.attributes.get? word = none := by
  intro node hnode
  cases hvalue : node.attributes.get? word with
  | none => rfl
  | some value =>
      obtain ⟨before, more, hsource, hbefore, hmore, -⟩ :=
        exists_word_of_transform htransform hnode (Keyed.mem_of_get? hvalue) hhead
      exact absurd ⟨before, word.toList, more, hsource, Pattern.fits_word hhead hlast hbefore hmore⟩ hnone

theorem style_ne_expression (hnone : ¬Found stylePattern.Fits source.toList)
    (htransform : transform name component source = .ok canonical) :
    ∀ node ∈ canonical.tree.descendants, ∀ text, node.attributes.get? "style" ≠ some (.expression text) := by
  intro node hnode text hvalue
  obtain ⟨before, more, hsource, hbefore, -, hmore⟩ :=
    exists_word_of_transform htransform hnode (Keyed.mem_of_get? hvalue) (by decide +kernel)
  obtain ⟨gap, gap', rest, rfl, hgap, hgap'⟩ := hmore text rfl
  exact hnone ⟨before, _, rest, by rw [hsource]; simp, fits_stylePattern hbefore hgap hgap'⟩

/-- What the rules keep out of an element of an admitted tree. -/
structure Harmless (strictness : Strictness) (node : Node) : Prop where
  script : ¬InSomeCase "script" node.tag
  frame : ¬InSomeCase "iframe" node.tag
  sink : node.attributes.get? "dangerouslySetInnerHTML" = none
  style : strictness = .strict → ∀ text, node.attributes.get? "style" ≠ some (.expression text)

/--
The rules see every tag, sink and style that the reader does: no element of an admitted tree is a script or a
frame, none has an attribute that sets its markup, and under strict checking none has a style of its own.
-/
theorem admitted_tree_harmless (haccepted : (validate strictness source).ok = true)
    (htransform : transform name component source = .ok canonical) :
    ∀ node ∈ canonical.tree.descendants, Harmless strictness node := by
  have hsinks := not_found_of_accepted haccepted (@mem_rules_of_mandatory strictness .dangerousSink rfl) rfl
  have htags := not_found_of_accepted haccepted (@mem_rules_of_mandatory strictness .scriptTag rfl) rfl
  have hsink : ¬Found (Pattern.edge ++ .text "dangerouslySetInnerHTML" ++ .edge).Fits source.toList :=
    hsinks _ List.mem_cons_self
  have hscript : ¬Found (tagPattern "script").Fits source.toList := htags _ List.mem_cons_self
  have hframe : ¬Found (tagPattern "iframe").Fits source.toList := htags _ (List.mem_cons_of_mem _ List.mem_cons_self)
  intro node hnode
  refine ⟨?_, ?_, ?_, ?_⟩
  · exact not_inSomeCase_of_not_found (by decide +kernel) (by decide +kernel) hscript htransform node hnode
  · exact not_inSomeCase_of_not_found (by decide +kernel) (by decide +kernel) hframe htransform node hnode
  · exact get?_eq_none_of_not_found (by decide +kernel) (by decide +kernel) hsink htransform node hnode
  · rintro rfl
    have hrule : Rule.inlineStyle ∈ Strictness.strict.rules := by decide
    have hstyle := not_found_of_accepted haccepted hrule rfl
    exact style_ne_expression (hstyle _ List.mem_cons_self) htransform node hnode

theorem exists_eq_ok_of_any {ε α : Type} {result : Except ε α} {test : α → Bool}
    (h : result.toOption.any test = true) : ∃ value, result = .ok value ∧ test value = true := by
  cases result with
  | error fault => cases h
  | ok value => exact ⟨value, rfl, h⟩

/-- The tree of a small page is harmless, and permissive checking leaves a style in it alone. -/
theorem admitted_tree_harmless_sample :
    (∃ canonical, transform Nat.repr defaultComponent
        "return (<section style=\"x\"><p onClick=\x7bgo\x7d>Hi</p></section>)" = .ok canonical ∧
      ∀ node ∈ canonical.tree.descendants, Harmless .strict node) ∧
    (∃ canonical, transform Nat.repr defaultComponent "return (<p style=\x7ba\x7d />)" = .ok canonical ∧
      canonical.tree.attributes.get? "style" = some (.expression "\x7ba\x7d") ∧
      ∀ node ∈ canonical.tree.descendants, Harmless .permissive node) := by
  constructor
  · have haccepted : (validate .strict
        "return (<section style=\"x\"><p onClick=\x7bgo\x7d>Hi</p></section>)").ok = true := by
      decide +kernel
    have hcanonical : ((transform Nat.repr defaultComponent
        "return (<section style=\"x\"><p onClick=\x7bgo\x7d>Hi</p></section>)").toOption.any fun _ => true) = true := by
      decide +kernel
    obtain ⟨canonical, htransform, -⟩ := exists_eq_ok_of_any hcanonical
    exact ⟨canonical, htransform, admitted_tree_harmless haccepted htransform⟩
  · have haccepted : (validate .permissive "return (<p style=\x7ba\x7d />)").ok = true := by
      decide +kernel
    have hcanonical : ((transform Nat.repr defaultComponent
        "return (<p style=\x7ba\x7d />)").toOption.any fun canonical =>
        decide (canonical.tree.attributes.get? "style" = some (.expression "\x7ba\x7d"))) = true := by
      decide +kernel
    obtain ⟨canonical, htransform, hstyle⟩ := exists_eq_ok_of_any hcanonical
    exact ⟨canonical, htransform, of_decide_eq_true hstyle, admitted_tree_harmless haccepted htransform⟩

/-! ## Capitalised tags -/

/-- What the rule on components reads of a tag's name. -/
def readName (tag : String) : String :=
  String.ofList (tag.toList.takeWhile isTagWord)

theorem isNameChar_of_isTagWord {c : Char} (h : isTagWord c = true) : AttributeList.isNameChar c = true := by
  simp only [isTagWord, Bool.or_eq_true] at h
  rcases h with h | h <;> simp [AttributeList.isNameChar, h]

theorem isTagWord_of_mem_tags : ∀ tag ∈ Vocabulary.tags, ∀ c ∈ tag.toList, isTagWord c = true := by
  decide +kernel

theorem readName_eq_iff {tag : String} : readName tag = tag ↔ ∀ c ∈ tag.toList, isTagWord c = true := by
  rw [readName, ← String.toList_inj, String.toList_ofList, List.takeWhile_eq_self_iff]

theorem stops_isTagWord {text : List Char} (h : Stops AttributeList.isNameChar text) : Stops isTagWord text := by
  intro c hc
  cases hword : isTagWord c with
  | false => rfl
  | true =>
      have hstop := h c hc
      rw [isNameChar_of_isTagWord hword] at hstop
      cases hstop

/-- The rule reads a name to where it stops, which is not after the name of the tag. -/
theorem stops_dropWhile_isTagWord {tag rest : List Char} (hrest : Stops AttributeList.isNameChar rest) :
    Stops isTagWord (tag.dropWhile isTagWord ++ rest) := by
  have hinside := stops_dropWhile isTagWord tag
  cases hdrop : tag.dropWhile isTagWord with
  | nil => exact stops_isTagWord hrest
  | cons c more =>
      rw [hdrop] at hinside
      exact hinside

theorem readName_mem_tags (hnone : ¬Found StrangeTag source.toList)
    (htransform : transform name component source = .ok canonical) {node : Node}
    (hnode : node ∈ canonical.tree.descendants) (hupper : node.tag.toList.head?.any Char.isUpper = true) :
    Vocabulary.tags.contains (readName node.tag) = true := by
  obtain ⟨front, rest, back, hsource, hname, -, hback⟩ := exists_parts_of_transform htransform node hnode
  have htag : node.tag.toList ≠ [] := by
    intro hnil
    rw [hnil] at hupper
    cases hupper
  have hstops : Stops isTagWord (node.tag.toList.dropWhile isTagWord ++ (rest ++ back)) :=
    stops_dropWhile_isTagWord (stops_of_leadingName hname htag hback)
  rw [readName]
  generalize node.tag.toList = tag at hupper hsource hstops
  cases tag with
  | nil => cases hupper
  | cons c tag =>
      have hc : isTagWord c = true := isTagWord_of_isUpper hupper
      rw [List.dropWhile_cons_of_pos hc] at hstops
      rw [List.takeWhile_cons_of_pos hc]
      by_contra hstrange
      rw [Bool.not_eq_true] at hstrange
      refine hnone ⟨front, '<' :: c :: tag.takeWhile isTagWord, tag.dropWhile isTagWord ++ (rest ++ back), ?_,
        c, tag.takeWhile isTagWord, rfl, hupper, fun d hd => List.mem_takeWhile_imp hd, hstops, hstrange⟩
      rw [hsource]
      simp only [List.cons_append, ← List.append_assoc, List.takeWhile_append_dropWhile]

/--
The rule on components reads a name up to the first character that is not its own.  What it has read of every
capitalised name in an admitted tree is in the vocabulary; the name is itself exactly when that was all of it.
-/
theorem capitalised_tag_known_iff (haccepted : (validate .strict source).ok = true)
    (htransform : transform name component source = .ok canonical) :
    ∀ node ∈ canonical.tree.descendants, node.tag.toList.head?.any Char.isUpper = true →
      Vocabulary.tags.contains (readName node.tag) = true ∧
        (Vocabulary.tags.contains node.tag = true ↔ ∀ c ∈ node.tag.toList, isTagWord c = true) := by
  have hrule : Rule.componentWhitelist ∈ Strictness.strict.rules := by decide
  have hfindings := not_found_of_accepted haccepted hrule rfl
  have hnone : ¬Found StrangeTag source.toList := hfindings _ List.mem_cons_self
  intro node hnode hupper
  have hknown := readName_mem_tags hnone htransform hnode hupper
  refine ⟨hknown, fun htag => isTagWord_of_mem_tags node.tag (by simpa using htag), fun hword => ?_⟩
  rwa [readName_eq_iff.2 hword] at hknown

/-- The rule reads all of the name of a tag of the vocabulary. -/
theorem capitalised_tag_known_sample :
    ∃ canonical, transform Nat.repr defaultComponent "return (<React.Fragment />)" = .ok canonical ∧
      Vocabulary.tags.contains canonical.tree.tag = true := by
  have haccepted : (validate .strict "return (<React.Fragment />)").ok = true := by
    decide +kernel
  have hcanonical : ((transform Nat.repr defaultComponent
      "return (<React.Fragment />)").toOption.any fun canonical =>
      canonical.tree.tag.toList.head?.any Char.isUpper && canonical.tree.tag.toList.all isTagWord) = true := by
    decide +kernel
  obtain ⟨canonical, htransform, htag⟩ := exists_eq_ok_of_any hcanonical
  obtain ⟨hupper, hword⟩ := Bool.and_eq_true_iff.1 htag
  have hroot := mem_descendants_self canonical.tree
  have hknown := capitalised_tag_known_iff haccepted htransform canonical.tree hroot hupper
  exact ⟨canonical, htransform, hknown.2.2 (List.all_eq_true.1 hword)⟩

/-- The names of tags go on over a hyphen, and the rule stops there: it takes this tag for a card. -/
theorem capitalised_tag_unknown :
    (validate .strict "return (<Card-menu />)").ok = true ∧
      ∃ canonical, transform Nat.repr defaultComponent "return (<Card-menu />)" = .ok canonical ∧
        canonical.tree.tag = "Card-menu" ∧ readName canonical.tree.tag = "Card" ∧
        Vocabulary.tags.contains canonical.tree.tag = false := by
  refine ⟨by decide +kernel, ?_⟩
  have hcanonical : ((transform Nat.repr defaultComponent "return (<Card-menu />)").toOption.any fun canonical =>
      canonical.tree.tag == "Card-menu") = true := by
    decide +kernel
  obtain ⟨canonical, htransform, htag⟩ := exists_eq_ok_of_any hcanonical
  refine ⟨canonical, htransform, eq_of_beq htag, ?_⟩
  rw [eq_of_beq htag]
  exact ⟨by decide +kernel, by decide +kernel⟩

end ComponentBuilder.Guard
