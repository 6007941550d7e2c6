import ComponentBuilder.Proofs.Markup.Rewriting
import Mathlib.Data.List.Forall2

/-!
# Canonical spellings against the original ones

A token's canonical spelling counts no more than the part it was read from, save for fragments with
attributes, whose opening letter is lost.  Where a text agrees with the canonical spelling of its own
tokens and counts as many closing brackets, it is that spelling, part for part.
-/

namespace ComponentBuilder.Markup

open Text Scan AttributeList

/-! ## One tag -/

/-- A letter that opens a tag and begins no name. -/
def isStrange (c : Char) : Bool :=
  isLetter c && !isNameStart c

/-- Each angle bracket in front of a strange letter counts one. -/
def strangeWeight : Weight where
  of c next := if c = '<' ∧ next.any isStrange = true then 1 else 0
  least c next := by simp
  beforeGlue c d hd := by
    have hstrange : isStrange d = false := by
      simp only [isGlue, isTagQuote, Bool.or_eq_true, beq_iff_eq] at hd
      rcases hd with ((((rfl | rfl) | rfl) | rfl) | rfl) | rfl | rfl <;> rfl
    simp [hstrange]
  angle next := by simp
  glue c next _ hopen _ := by simp [hopen]

namespace Token

theorem OpeningTag.head? {content : List Char} {tag : String} {attributes : Attributes}
    {selfClosing : Bool} (h : OpeningTag content tag attributes selfClosing) (htag : tag ≠ "") :
    ∃ c rest, content.head? = some c ∧ tag.toList = c :: rest ∧ isNameStart c = true := by
  have hleading {text name rest : List Char} (hname : LeadingName text name rest)
      (hne : String.ofList name ≠ "") :
      ∃ c more, text.head? = some c ∧ (String.ofList name).toList = c :: more ∧
        isNameStart c = true := by
    cases hname with
    | none => exact absurd rfl hne
    | @some c name _ hstart => exact ⟨c, name, rfl, String.toList_ofList, hstart⟩
  cases h with
  | @selfClosing body name rest _ hslash hname =>
      obtain ⟨c, more, hhead, htag⟩ := hleading hname htag
      obtain ⟨blanks, -, hcontent⟩ := exists_trimEnd_append_blanks content
      refine ⟨c, more, ?_, htag⟩
      rw [hcontent, hslash, List.append_assoc, List.head?_append, hhead]
      rfl
  | pair _ hname => exact hleading hname htag

theorem OpeningTag.stops {content : List Char} {tag : String} {attributes : Attributes}
    {selfClosing : Bool} (h : OpeningTag content tag attributes selfClosing) (htag : tag = "")
    (hslash : content.head? ≠ some '/') : Stops isNameStart content := by
  have hleading {text name rest : List Char} (hname : LeadingName text name rest)
      (hempty : String.ofList name = "") : Stops isNameStart text := by
    cases hname with
    | none htext => exact htext
    | some =>
        have hlist := congrArg String.toList hempty
        simp at hlist
  cases h with
  | @selfClosing body name rest _ hend hname =>
      obtain ⟨blanks, -, hcontent⟩ := exists_trimEnd_append_blanks content
      rw [hend] at hcontent
      have hbody := hleading hname htag
      cases body with
      | nil =>
          rw [hcontent] at hslash
          exact absurd rfl hslash
      | cons c body =>
          rw [hcontent]
          exact stops_cons.2 (stops_cons.1 hbody)
  | pair _ hname => exact hleading hname htag

theorem OpeningTag.isNamed_of_nil {tag : String} {attributes : Attributes} {selfClosing : Bool}
    (h : OpeningTag [] tag attributes selfClosing) :
    (Token.opening tag attributes selfClosing).isNamed = true := by
  generalize hcontent : ([] : List Char) = content at h
  cases h with
  | selfClosing hslash =>
      subst hcontent
      simp [trimEnd] at hslash
  | pair hslash hname hattributes =>
      subst hcontent
      generalize htext : ([] : List Char) = text at hname
      cases hname with
      | none =>
          subst htext
          cases hattributes
          rfl
      | some => simp at htext

/-- A fragment with attributes begins with a strange letter. -/
theorem Opens.exists_isStrange {content : List Char} {tag : String} {attributes : Attributes}
    {selfClosing : Bool} (h : Opens content tag attributes selfClosing)
    (hnamed : (Token.opening tag attributes selfClosing).isNamed = false) :
    tag = "" ∧ ∃ c rest, content = c :: rest ∧ isStrange c = true := by
  have htag : tag = "" := by
    simp only [isNamed, Bool.or_eq_false_iff] at hnamed
    simpa using hnamed.1
  have hstops := h.reads.stops htag h.slash
  have hopens := h.opens
  have hslash := h.slash
  have hinside := h.inside
  refine ⟨htag, ?_⟩
  cases content with
  | nil =>
      rw [h.reads.isNamed_of_nil] at hnamed
      cases hnamed
  | cons c rest =>
      refine ⟨c, rest, rfl, ?_⟩
      rw [stops_cons] at hstops
      have hangle : c ≠ '>' := by
        rintro rfl
        generalize htext : '>' :: rest = text at hinside
        cases hinside with
        | nil => simp at htext
        | plain _ _ hangle => exact hangle (List.cons.inj htext).1.symm
        | quoted hquote =>
            rw [← (List.cons.inj htext).1] at hquote
            exact absurd hquote (by decide)
        | braced hsource =>
            obtain ⟨inside, rfl⟩ := hsource.eq_cons
            simp at htext
      have hne : c ≠ '/' := by simpa using hslash
      simp only [isNameStart, Bool.or_eq_false_iff, beq_eq_false_iff_ne] at hstops
      have hletter : isLetter c = true := by
        simpa [opensTag, hne, hangle, hstops.1.2, hstops.2] using hopens
      simp [isStrange, isNameStart, hletter, hstops]

/-- What is written for a tag up to its closing bracket, without the slash. -/
theorem written_opening {tag : String} {selfClosing : Bool} (attributes : Attributes)
    (h : tag ≠ "" ∨ selfClosing = false) :
    written (.opening tag attributes selfClosing) =
      '<' :: (tag.toList ++ renderAttributes attributes ++
        ((if selfClosing then " /".toList else []) ++ ['>'])) := by
  cases selfClosing with
  | false => rfl
  | true =>
      have htag : tag ≠ "" := by simpa using h
      simp [written, Node.render, htag]

end Token

namespace Weight

variable (w : Weight)

theorem tally_slash (selfClosing : Bool) (text : List Char) :
    tally w (text ++ ((if selfClosing then " /".toList else []) ++ ['>'])) =
      tally w text + w.of '>' none := by
  have hclose : tally w ['>'] = w.of '>' none := by simp [tally]
  cases selfClosing with
  | false => exact (w.tally_append_glue (by decide) text []).trans (by rw [hclose])
  | true =>
      have hslash : " /".toList ++ ['>'] = ' ' :: '/' :: ['>'] := rfl
      rw [if_pos rfl, hslash, w.tally_append_glue (by decide),
        w.tally_cons_glue (by decide) (by decide) (by decide),
        w.tally_cons_glue (by decide) (by decide) (by decide), hclose]

/-- A named tag counts no more when it is written than when it was read. -/
theorem tally_written_opening {content : List Char} {tag : String} {attributes : Attributes}
    {selfClosing : Bool} (h : Token.Opens content tag attributes selfClosing)
    (hnamed : (Token.opening tag attributes selfClosing).isNamed = true) :
    tally w (Token.opening tag attributes selfClosing).written ≤
      tally w ('<' :: (content ++ ['>'])) := by
  have htag := w.tally_openingTag h.reads
  have hpart : tally w (content ++ ['>']) = tally w content + w.of '>' none :=
    w.tally_slash false content
  by_cases hempty : tag = ""
  · subst hempty
    obtain ⟨hentries, rfl⟩ : attributes.entries = [] ∧ selfClosing = false := by
      simpa [Token.isNamed] using hnamed
    have hwritten : Token.written (.opening "" attributes false) = ['<', '>'] := by
      simp [Token.written, renderAttributes, hentries]
    have hfirst : w.of '<' (some '>') ≤ w.of '<' (content ++ ['>']).head? := by
      rw [w.beforeGlue '<' '>' (by decide)]
      exact w.least _ _
    have hclose := w.tally_le_append_left content ['>']
    rw [hwritten]
    simp only [tally, List.head?_cons] at hfirst hclose ⊢
    omega
  · obtain ⟨c, rest, hhead, htoList, -⟩ := h.reads.head? hempty
    rw [Token.written_opening attributes (.inl hempty)]
    have hcontent : (content ++ ['>']).head? = some c := by
      rw [List.head?_append, hhead]
      rfl
    have hfirst (text : List Char) :
        w.of '<' (tag.toList ++ renderAttributes attributes ++ text).head? =
          w.of '<' (content ++ ['>']).head? := by
      rw [htoList, hcontent]
      rfl
    rw [tally, tally, hfirst, w.tally_slash, hpart]
    omega

theorem tally_written_closing (content : List Char) (offset : Nat) :
    tally w (Token.closing (String.ofList (trim content)) offset).written ≤
      tally w ('<' :: '/' :: (content ++ ['>'])) := by
  obtain ⟨front, -, hfront, -⟩ := exists_blanks_append_trimStart content
  obtain ⟨back, -, hback⟩ := exists_trimEnd_append_blanks (trimStart content)
  have htrim : tally w (trim content) ≤ tally w content := by
    have hstart := w.tally_le_append_left front (trimStart content)
    have hend := w.tally_le_append_right (trimEnd (trimStart content)) back
    rw [← hfront] at hstart
    rw [← hback] at hend
    exact Nat.le_trans hend hstart
  have hclose (text : List Char) : tally w (text ++ ['>']) = tally w text + w.of '>' none :=
    w.tally_slash false text
  simp only [Token.written, String.toList_ofList, tally, List.head?_cons, hclose]
  rw [w.beforeGlue '<' '/' (by decide), w.glue '/' _ (by decide) (by decide) (by decide),
    w.glue '/' _ (by decide) (by decide) (by decide)]
  omega

end Weight

/-! ## All tokens of a text -/

namespace Token

/-- A part that a token was read from, which counts more than its canonical spelling by `extra`. -/
def SpellsWith (w : Weight) (extra : Token → Nat) (part : List Char) (token : Token) : Prop :=
  Spells part token ∧ tally w token.written + extra token ≤ tally w part

theorem exists_written_eq {token : Token} (h : token.isText = false) :
    ∃ inner, token.written = '<' :: (inner ++ ['>']) := by
  cases token with
  | text => cases h
  | closing tag offset => exact ⟨'/' :: tag.toList, rfl⟩
  | opening tag attributes selfClosing =>
      cases selfClosing with
      | false => exact ⟨tag.toList ++ renderAttributes attributes, rfl⟩
      | true =>
          rw [written]
          generalize Node.mk "" tag attributes [] = node
          cases hcloses : node.closesItself with
          | true => exact ⟨node.tagContent, Node.render_of_closesItself hcloses⟩
          | false =>
              refine ⟨node.tagContent ++ '>' ::
                (renderChildren node.children ++ '<' :: '/' :: node.tag.toList), ?_⟩
              rw [Node.render_of_pair hcloses]
              simp

theorem exists_part_eq {part : List Char} {token : Token} (h : Spells part token)
    (htoken : token.isText = false) : ∃ inner, part = '<' :: (inner ++ ['>']) := by
  cases h with
  | text => cases htoken
  | @opening content => exact ⟨content, rfl⟩
  | @closing content => exact ⟨'/' :: content, rfl⟩

theorem tally_flatMap_written {w : Weight} {extra : Token → Nat}
    (hextra : ∀ piece, extra (.text piece) = 0) {parts : List (List Char)} {tokens : List Token}
    (h : List.Forall₂ (SpellsWith w extra) parts tokens) :
    (tokens.flatMap written).head? = parts.flatten.head? ∧
      tally w (tokens.flatMap written) + (tokens.map extra).sum ≤ tally w parts.flatten := by
  induction h with
  | nil => exact ⟨rfl, Nat.le_refl _⟩
  | @cons part token parts tokens hpart _ ih =>
      obtain ⟨hspells, hle⟩ := hpart
      obtain ⟨hhead, htally⟩ := ih
      simp only [List.flatMap_cons, List.flatten_cons, List.map_cons, List.sum_cons]
      cases htext : token.isText with
      | true =>
          cases hspells with
          | opening | closing => cases htext
          | @text piece hpiece =>
              have hcongr := w.tally_append_congr hhead part
              refine ⟨by simp [written, hhead], ?_⟩
              rw [hextra]
              simp only [written]
              omega
      | false =>
          obtain ⟨inner, hwritten⟩ := exists_written_eq htext
          obtain ⟨inner', hpart⟩ := exists_part_eq hspells htext
          rw [hwritten, hpart] at hle ⊢
          have hsplit (inner rest : List Char) : tally w ('<' :: (inner ++ ['>']) ++ rest) =
              tally w ('<' :: (inner ++ ['>'])) + tally w rest :=
            w.tally_append_of_close ('<' :: inner) rest
          refine ⟨rfl, ?_⟩
          rw [hsplit, hsplit]
          omega

/-- Named tokens count no more when they are written. -/
theorem spellsWith_of_isNamed (w : Weight) {part : List Char} {token : Token}
    (h : Spells part token) (hnamed : token.isNamed = true) :
    SpellsWith w (fun _ => 0) part token := by
  refine ⟨h, ?_⟩
  cases h with
  | text => exact Nat.le_refl _
  | opening hopens => exact w.tally_written_opening hopens hnamed
  | @closing content offset => exact w.tally_written_closing content offset

theorem forall₂_spellsWith (w : Weight) {parts : List (List Char)} {tokens : List Token}
    (h : List.Forall₂ Spells parts tokens) (hnamed : ∀ token ∈ tokens, token.isNamed = true) :
    List.Forall₂ (SpellsWith w fun _ => 0) parts tokens := by
  induction h with
  | nil => exact .nil
  | cons hpart _ ih =>
      exact .cons (spellsWith_of_isNamed w hpart (hnamed _ (by simp)))
        (ih fun token htoken => hnamed token (by simp [htoken]))

/-- One for every fragment with attributes. -/
def unnamed (token : Token) : Nat :=
  if token.isNamed then 0 else 1

/-- The canonical spelling of a fragment's tag holds no strange letter but those of its attributes. -/
theorem tally_strange_written (attributes : Attributes) (selfClosing : Bool) :
    tally strangeWeight (Token.opening "" attributes selfClosing).written =
      tally strangeWeight (renderAttributes attributes) := by
  obtain ⟨back, hwritten, hback⟩ : ∃ back, (Token.opening "" attributes selfClosing).written =
      '<' :: (renderAttributes attributes ++ '>' :: back) ∧
        tally strangeWeight ('>' :: back) = 0 := by
    cases selfClosing with
    | false => exact ⟨[], by simp [written], rfl⟩
    | true => exact ⟨['<', '/', '>'], by simp [written, Node.render, renderChildren], rfl⟩
  have hhead : strangeWeight.of '<' (renderAttributes attributes ++ '>' :: back).head? = 0 := by
    rw [renderAttributes]
    cases attributes.entries <;> rfl
  rw [hwritten, tally, hhead, strangeWeight.tally_append_glue (by decide), hback]
  omega

theorem spellsWith_strange {part : List Char} {token : Token} (h : Spells part token) :
    SpellsWith strangeWeight unnamed part token := by
  cases hnamed : token.isNamed with
  | true =>
      obtain ⟨hspells, hle⟩ := spellsWith_of_isNamed strangeWeight h hnamed
      exact ⟨hspells, by rw [unnamed, hnamed]; exact hle⟩
  | false =>
      refine ⟨h, ?_⟩
      cases h with
      | text | closing => cases hnamed
      | @opening content tag attributes selfClosing hopens =>
          obtain ⟨rfl, c, rest, rfl, hstrange⟩ := hopens.exists_isStrange hnamed
          have htag := strangeWeight.tally_openingTag hopens.reads
          have hcontent := strangeWeight.tally_le_append_right (c :: rest) ['>']
          have hfirst : strangeWeight.of '<' (some c) = 1 := by simp [strangeWeight, hstrange]
          rw [tally_strange_written, unnamed, hnamed, tally, List.cons_append, List.head?_cons, hfirst]
          simp only [String.toList_empty, List.nil_append, List.cons_append] at htag hcontent
          simp only [Bool.false_eq_true, if_false]
          omega

/-! ## Spellings that agree -/

theorem tally_angle_cons (c : Char) (rest : List Char) :
    tally angleWeight (c :: rest) = (if c = '>' then 1 else 0) + tally angleWeight rest := rfl

theorem tally_angle_nil : tally angleWeight [] = 0 := rfl

theorem tally_angle_append (first second : List Char) :
    tally angleWeight (first ++ second) = tally angleWeight first + tally angleWeight second := by
  induction first with
  | nil => simp [tally]
  | cons c first ih =>
      simp only [List.cons_append, tally_angle_cons, ih]
      omega

/-- Contents of one text's first tag with as many closing brackets in them are the same. -/
theorem content_eq_of_tally {first second rest rest' : List Char}
    (heq : first ++ '>' :: rest = second ++ '>' :: rest')
    (htally : tally angleWeight first = tally angleWeight second) : first = second := by
  induction first generalizing second with
  | nil =>
      cases second with
      | nil => rfl
      | cons c second =>
          obtain rfl : '>' = c := (List.cons.inj heq).1
          rw [tally_angle_cons, if_pos rfl, tally_angle_nil] at htally
          omega
  | cons c first ih =>
      cases second with
      | nil =>
          obtain rfl : c = '>' := (List.cons.inj heq).1
          rw [tally_angle_cons, if_pos rfl, tally_angle_nil] at htally
          omega
      | cons d second =>
          obtain ⟨rfl, hrest⟩ := List.cons.inj heq
          have hsame : tally angleWeight first = tally angleWeight second := by
            simpa [tally_angle_cons] using htally
          rw [ih hrest hsame]

/-- A part that agrees with its token's canonical spelling is that spelling. -/
theorem part_eq_written {part rest rest' : List Char} {token : Token} (h : Spells part token)
    (heq : token.written ++ rest = part ++ rest')
    (htally : tally angleWeight token.written = tally angleWeight part) : part = token.written := by
  cases htext : token.isText with
  | true =>
      cases h with
      | opening | closing => cases htext
      | text => rfl
  | false =>
      obtain ⟨inner, hwritten⟩ := exists_written_eq htext
      obtain ⟨inner', rfl⟩ := exists_part_eq h htext
      rw [hwritten] at heq htally ⊢
      have hsame : inner ++ '>' :: rest = inner' ++ '>' :: rest' := by simpa using heq
      have hcount : tally angleWeight inner = tally angleWeight inner' := by
        simpa [tally_angle_cons, tally_angle_append] using htally
      rw [content_eq_of_tally hsame hcount]

/--
Where a text agrees with the canonical spelling of its own tokens, and has no closing bracket more, its
parts are the canonical spellings.
-/
theorem parts_eq_written {parts : List (List Char)} {tokens : List Token}
    (h : List.Forall₂ Spells parts tokens) (hnamed : ∀ token ∈ tokens, token.isNamed = true)
    {rest rest' : List Char} (heq : tokens.flatMap written ++ rest = parts.flatten ++ rest')
    (htally : tally angleWeight parts.flatten ≤ tally angleWeight (tokens.flatMap written)) :
    parts = tokens.map written := by
  induction h with
  | nil => rfl
  | @cons part token parts tokens hpart hparts ih =>
      have hnamed' : ∀ other ∈ tokens, other.isNamed = true :=
        fun other hother => hnamed other (by simp [hother])
      have hle := (tally_flatMap_written (fun _ => rfl)
        (forall₂_spellsWith angleWeight hparts hnamed')).2
      have hfirst := (spellsWith_of_isNamed angleWeight hpart (hnamed token (by simp))).2
      simp only [List.flatMap_cons, List.flatten_cons, tally_angle_append, List.append_assoc] at heq htally
      have hpartEq := part_eq_written hpart heq (by omega)
      rw [hpartEq, List.append_cancel_left_eq] at heq
      rw [hpartEq, List.map_cons, ih hnamed' heq (by omega)]

end Token

end ComponentBuilder.Markup
