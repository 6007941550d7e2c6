import ComponentBuilder.Proofs.Guard.HandlerNames
import ComponentBuilder.Proofs.Markup.AttributeOrder
import ComponentBuilder.Proofs.Markup.AttributePieces

/-!
# Handlers given as strings

The rule on handlers reads the attribute text of a tag with its expressions blanked out, and looks for names
in it with a pattern.  What it finds is told here piece by piece, and set against what the reader of attributes
finds: the two agree on a name that no string holds, that is not written right after a string, and whose own
strings are quoted and not replaced by another value.
-/

namespace ComponentBuilder.Guard

open Text Markup Scan AttributeList

/-! ## Blanking out expressions -/

/-- The inside of a tag, and the same text with a blank for each expression outside of a string. -/
inductive Blanks : List Char → List Char → Prop
  | nil : Blanks [] []
  | plain {c : Char} {content text : List Char} (hquote : isTagQuote c = false) (hbrace : c ≠ '\x7b')
      (hrest : Blanks content text) : Blanks (c :: content) (c :: text)
  | quoted {quote : Char} {value content text : List Char} (hquote : isTagQuote quote = true)
      (hvalue : quote ∉ value) (hrest : Blanks content text) :
      Blanks (quote :: (value ++ quote :: content)) (quote :: (value ++ quote :: text))
  | braced {source content text : List Char} (hsource : IsExpression source) (hrest : Blanks content text) :
      Blanks (source ++ content) (' ' :: text)

theorem Blanks.append_plain {word content text : List Char} (hquotes : ∀ c ∈ word, isTagQuote c = false)
    (hbraces : '\x7b' ∉ word) (h : Blanks content text) : Blanks (word ++ content) (word ++ text) := by
  induction word with
  | nil => exact h
  | cons c word ih =>
      obtain ⟨hc, hquotes⟩ := List.forall_mem_cons.1 hquotes
      rw [List.mem_cons, not_or] at hbraces
      exact .plain hc (Ne.symm hbraces.1) (ih hquotes hbraces.2)

/-- The parts between expressions, with blanks between them, are the text with the expressions blanked out. -/
theorem Blanks.exists_parts {content text : List Char} (h : Blanks content text) {fuel : Nat}
    (hfuel : content.length < fuel) (part : List Char) :
    ∃ parts, partsFuel fuel part content = some parts ∧ parts ≠ [] ∧
      [' '].intercalate parts = part.reverse ++ text := by
  induction h generalizing fuel part with
  | nil =>
      cases fuel with
      | zero => omega
      | succ fuel => exact ⟨[part.reverse], rfl, by simp, by simp⟩
  | @plain c content text hquote hbrace _ ih =>
      cases fuel with
      | zero => omega
      | succ fuel =>
          obtain ⟨parts, hparts, hne, htext⟩ := @ih fuel (by simpa using hfuel) (c :: part)
          refine ⟨parts, ?_, hne, by simpa using htext⟩
          rw [partsFuel, if_neg (by simp [hquote]), if_neg (by simpa using hbrace), hparts]
  | @quoted quote value content text hquote hvalue _ ih =>
      cases fuel with
      | zero => omega
      | succ fuel =>
          have hlength : content.length < fuel := by
            simp only [List.length_cons, List.length_append] at hfuel
            omega
          obtain ⟨parts, hparts, hne, htext⟩ := ih hlength (quote :: (value.reverse ++ quote :: part))
          have hspan : spanWhile (· != quote) (value ++ quote :: content) = (value, quote :: content) := by
            exact spanWhile_eq_iff.2 ⟨rfl, bne_of_not_mem hvalue, stops_cons.2 (by simp)⟩
          refine ⟨parts, ?_, hne, by simpa using htext⟩
          rw [partsFuel, if_pos hquote, hspan]
          exact hparts
  | @braced source content text hsource _ ih =>
      cases fuel with
      | zero => omega
      | succ fuel =>
          obtain ⟨inside, rfl⟩ := hsource.eq_cons
          have hlength : content.length < fuel := by
            simp only [List.length_cons, List.length_append] at hfuel
            omega
          obtain ⟨parts, hparts, hne, htext⟩ := ih hlength []
          have hexpression : expression 0 ('\x7b' :: (inside ++ content)) = .ok ('\x7b' :: inside, content) :=
            expression_eq_ok_iff.2 ⟨hsource, rfl⟩
          refine ⟨part.reverse :: parts, ?_, by simp, ?_⟩
          · rw [List.cons_append, partsFuel, if_neg (by decide), if_pos (by decide), hexpression]
            simp [hparts]
          · rw [List.intercalate_cons_of_ne_nil hne, htext]
            simp

theorem blankExpressions?_of_blanks {content text : List Char} (h : Blanks content text) :
    blankExpressions? content = some text := by
  obtain ⟨parts, hparts, -, htext⟩ := h.exists_parts (Nat.lt_succ_self _) []
  rw [blankExpressions?, hparts, Option.map_some, htext]
  rfl

/-! ## Pieces with expressions blanked out -/

/-- A value with a blank for it when it is an expression. -/
def blankedGiven : Given → List Char
  | .braced _ => [' ']
  | given => given.text

def blanked : Piece → List Char
  | .spread _ => [' ']
  | .valued name gap gap' given => name ++ (gap ++ '=' :: (gap' ++ blankedGiven given))
  | piece => piece.text

def blankedText (pieces : List Piece) : List Char :=
  pieces.flatMap blanked

theorem blankedText_cons (piece : Piece) (pieces : List Piece) :
    blankedText (piece :: pieces) = blanked piece ++ blankedText pieces := rfl

theorem blanks_of_valued {name gap gap' content text : List Char} (hname : IsName name)
    (hgap : ∀ c ∈ gap, isBlank c = true) (hgap' : ∀ c ∈ gap', isBlank c = true) (h : Blanks content text) :
    Blanks (name ++ (gap ++ '=' :: (gap' ++ content))) (name ++ (gap ++ '=' :: (gap' ++ text))) := by
  have hplain := plain_of_isName hname
  have hbraces {gap : List Char} (hgap : ∀ c ∈ gap, isBlank c = true) : '\x7b' ∉ gap :=
    fun hmem => absurd (hgap _ hmem) (by decide)
  refine .append_plain hplain.quotes hplain.braces ?_
  refine .append_plain (fun c hc => isTagQuote_eq_false_of_isBlank (hgap c hc)) (hbraces hgap) ?_
  refine .plain (by decide) (by decide) ?_
  exact .append_plain (fun c hc => isTagQuote_eq_false_of_isBlank (hgap' c hc)) (hbraces hgap') h

theorem Blanks.of_given {rest content text : List Char} {given : Given} (hgiven : given.Before rest)
    (h : Blanks content text) : Blanks (given.text ++ content) (blankedGiven given ++ text) := by
  cases hgiven with
  | quoted hquote hvalue => simpa [Given.text, blankedGiven] using Blanks.quoted hquote hvalue h
  | braced hsource => exact .braced hsource h
  | unquoted hvalue => exact .append_plain hvalue.quotes hvalue.braces h

theorem Blanks.of_piece {rest content text : List Char} {piece : Piece} (hpiece : piece.Before rest)
    (h : Blanks content text) : Blanks (piece.text ++ content) (blanked piece ++ text) := by
  cases hpiece with
  | blank hblank =>
      refine .plain (isTagQuote_eq_false_of_isBlank hblank) ?_ h
      rintro rfl
      exact absurd hblank (by decide)
  | spread hsource => exact .braced hsource h
  | name hname => exact .append_plain (plain_of_isName hname).quotes (plain_of_isName hname).braces h
  | token htoken => exact .append_plain htoken.quotes htoken.braces h
  | valued hname hgap hgap' hgiven =>
      simpa [Piece.text, blanked] using blanks_of_valued hname hgap hgap' (.of_given hgiven h)

theorem blanks_of_listing {pieces : List Piece} (h : Listing pieces) :
    Blanks (spell pieces) (blankedText pieces) := by
  induction h with
  | nil => exact .nil
  | cons hpiece _ ih => exact .of_piece hpiece ih

/-- The first character of a list stays, or is the brace of an expression. -/
theorem head?_blankedText {pieces : List Piece} (h : Listing pieces) :
    (blankedText pieces).head? = (spell pieces).head? ∨
      ((spell pieces).head? = some '\x7b' ∧ (blankedText pieces).head? = some ' ') := by
  have hsame {word : List Char} (hword : Plain word) (rest rest' : List Char) :
      (word ++ rest).head? = (word ++ rest').head? := by
    rw [List.head?_append_of_ne_nil _ hword.nonempty, List.head?_append_of_ne_nil _ hword.nonempty]
  cases h with
  | nil => exact .inl rfl
  | @cons piece pieces hpiece _ =>
      rw [blankedText_cons, spell_cons]
      cases hpiece with
      | blank => exact .inl rfl
      | spread hsource =>
          obtain ⟨inside, rfl⟩ := hsource.eq_cons
          exact .inr ⟨rfl, rfl⟩
      | name hname => exact .inl (hsame (plain_of_isName hname) _ _)
      | token htoken => exact .inl (hsame htoken _ _)
      | valued hname =>
          simp only [blanked, Piece.text, List.append_assoc]
          exact .inl (hsame (plain_of_isName hname) _ _)

theorem stops_blankedText {pieces : List Piece} (h : Listing pieces) {keep : Char → Bool}
    (hkeep : keep ' ' = false ∨ keep '\x7b' = true) (hstops : Stops keep (spell pieces)) :
    Stops keep (blankedText pieces) := by
  intro c hc
  rcases head?_blankedText h with hsame | ⟨hbrace, hblank⟩
  · exact hstops c (hsame ▸ hc)
  · rw [hblank] at hc
    obtain rfl := Option.some.inj hc
    rcases hkeep with hkeep | hkeep
    · exact hkeep
    · rw [hstops _ hbrace] at hkeep
      cases hkeep

/-! ## What a list goes on with -/

theorem quoteNext_append_blanks {gap : List Char} (hgap : ∀ c ∈ gap, isBlank c = true) (text : List Char) :
    quoteNext (gap ++ text) = quoteNext text := by
  induction gap with
  | nil => rfl
  | cons c gap ih =>
      obtain ⟨hc, hgap⟩ := List.forall_mem_cons.1 hgap
      rw [List.cons_append, quoteNext_cons_of_blank hc, ih hgap]

theorem quoteNext_append_plain {word : List Char} (hword : Plain word) (text : List Char) :
    quoteNext (word ++ text) = false := by
  cases word with
  | nil => exact absurd rfl hword.nonempty
  | cons c word =>
      rw [List.cons_append, quoteNext_cons_of_solid (hword.solid c List.mem_cons_self)]
      exact hword.quotes c List.mem_cons_self

theorem quoteAssigned_append_plain {word text : List Char} (hword : Plain word) (htext : quoteNext text = false) :
    quoteAssigned (word ++ text) = false := by
  cases word with
  | nil => exact absurd rfl hword.nonempty
  | cons c word =>
      rw [List.cons_append, quoteAssigned_cons_of_solid (hword.solid c List.mem_cons_self)]
      rw [Bool.and_eq_false_imp]
      intro _
      cases word with
      | nil => exact htext
      | cons d word =>
          rw [List.cons_append, quoteNext_cons_of_solid (hword.solid d (by simp))]
          exact hword.quotes d (by simp)

theorem quoteNext_gap_equals {gap : List Char} (hgap : ∀ c ∈ gap, isBlank c = true) (text : List Char) :
    quoteNext (gap ++ '=' :: text) = false := by
  rw [quoteNext_append_blanks hgap]
  exact quoteNext_cons_of_solid (by decide) text

theorem quoteAssigned_gap_equals {gap : List Char} (hgap : ∀ c ∈ gap, isBlank c = true) (text : List Char) :
    quoteAssigned (gap ++ '=' :: text) = quoteNext text := by
  rw [quoteAssigned, trimStart_append_of_stops hgap (stops_cons.2 (by decide))]
  rfl

/-- No list begins with a quote, and none with an equals sign and a quote. -/
theorem not_quote_of_listing {pieces : List Piece} (h : Listing pieces) :
    quoteNext (blankedText pieces) = false ∧ quoteAssigned (blankedText pieces) = false := by
  induction h with
  | nil => exact ⟨rfl, rfl⟩
  | @cons piece pieces hpiece _ ih =>
      rw [blankedText_cons]
      cases hpiece with
      | blank hblank =>
          exact ⟨(quoteNext_cons_of_blank hblank _).trans ih.1, (quoteAssigned_cons_of_blank hblank _).trans ih.2⟩
      | spread =>
          exact ⟨(quoteNext_cons_of_blank (by decide) _).trans ih.1,
            (quoteAssigned_cons_of_blank (by decide) _).trans ih.2⟩
      | name hname =>
          have hplain := plain_of_isName hname
          exact ⟨quoteNext_append_plain hplain _, quoteAssigned_append_plain hplain ih.1⟩
      | token htoken => exact ⟨quoteNext_append_plain htoken _, quoteAssigned_append_plain htoken ih.1⟩
      | valued hname hgap =>
          have hplain := plain_of_isName hname
          simp only [blanked, List.append_assoc, List.cons_append]
          exact ⟨quoteNext_append_plain hplain _, quoteAssigned_append_plain hplain (quoteNext_gap_equals hgap _)⟩

/-! ## What the rule reads in a list -/

variable {name : List Char} {apart : Bool}

theorem begins_name_iff {other after : List Char} (hother : IsName other) (hafter : Stops isNameChar after) :
    Begins name (other ++ after) ↔ name = other ∧ IsHandlerName name ∧ quoteAssigned after = true := by
  rw [begins_iff]
  constructor
  · rintro ⟨hname, rest, htext, hassigned⟩
    obtain ⟨gap, more, rfl, hgap, -⟩ := quoteAssigned_iff.1 hassigned
    have hchars : ∀ c ∈ name, isNameChar c = true := fun c hc =>
      isNameChar_of_isWord (isWord_of_isAlpha (hname.isAsciiLetter_of_mem c hc))
    have htake := congrArg (List.takeWhile isNameChar) htext
    rw [takeWhile_append_stops hother.2 hafter,
      takeWhile_append_stops hchars (stops_gap_equals hgap more)] at htake
    subst htake
    rw [List.append_cancel_left htext]
    exact ⟨rfl, hname, hassigned⟩
  · rintro ⟨rfl, hname, hassigned⟩
    exact ⟨hname, after, rfl, hassigned⟩

theorem not_begins_plain {word text : List Char} (hword : Plain word) (hstops : Stops (!isBlank ·) text)
    (hnext : quoteNext text = false) (hassigned : quoteAssigned text = false) : ¬Begins name (word ++ text) := by
  rw [begins_iff]
  rintro ⟨hname, rest, htext, hrest⟩
  rcases List.append_eq_append_iff.1 htext with ⟨inner, rfl, rfl⟩ | ⟨inner, rfl, rfl⟩
  · cases inner with
    | nil =>
        rw [List.nil_append, hrest] at hassigned
        cases hassigned
    | cons c inner =>
        have hblank := isBlank_eq_false_of_isAsciiLetter (hname.isAsciiLetter_of_mem c (by simp))
        have hstop := stops_cons.1 hstops
        rw [hblank] at hstop
        cases hstop
  · cases inner with
    | nil =>
        rw [List.nil_append, hassigned] at hrest
        cases hrest
    | cons c inner =>
        have hplain : Plain (c :: inner) := by
          refine ⟨by simp, fun d hd => hword.solid d (List.mem_append_right _ hd),
            fun d hd => hword.quotes d (List.mem_append_right _ hd), fun hd => hword.braces (List.mem_append_right _ hd)⟩
        rw [quoteAssigned_append_plain hplain hnext] at hrest
        cases hrest

/-- In a run of characters that are no blanks a handler begins at its beginning only. -/
theorem reads_append_plain {word text : List Char} (hword : Plain word) :
    Reads apart name (word ++ text) ↔ (apart = true ∧ Begins name (word ++ text)) ∨ Reads false name text := by
  cases word with
  | nil => exact absurd rfl hword.nonempty
  | cons c word =>
      obtain ⟨hc, hsolid⟩ := List.forall_mem_cons.1 hword.solid
      rw [List.cons_append, reads_cons, hc, reads_append_solid hsolid]

def isQuoted : Given → Bool
  | .quoted _ _ => true
  | _ => false

/-- A value is a string in which a handler is read. -/
def Holds (name : List Char) : Given → Prop
  | .quoted quote value => Reads false name (value ++ [quote])
  | _ => False

/-- Whether a blank stands where a value was. -/
def leavesBlank : Given → Bool
  | .braced _ => true
  | _ => false

theorem quoteNext_given {rest text : List Char} {given : Given} (hgiven : given.Before rest)
    (hnext : quoteNext text = false) : quoteNext (blankedGiven given ++ text) = isQuoted given := by
  cases hgiven with
  | quoted hquote => exact (quoteNext_cons_of_solid (isBlank_eq_false_of_isTagQuote hquote) _).trans hquote
  | braced => exact (quoteNext_cons_of_blank (by decide) _).trans hnext
  | unquoted hvalue => exact quoteNext_append_plain hvalue text

theorem reads_given_iff {rest text : List Char} {given : Given} (hgiven : given.Before rest)
    (hstops : Stops (!isBlank ·) rest → Stops (!isBlank ·) text) (hnext : quoteNext text = false)
    (hassigned : quoteAssigned text = false) :
    Reads apart name (blankedGiven given ++ text) ↔ Holds name given ∨ Reads (leavesBlank given) name text := by
  cases hgiven with
  | @quoted quote value hquote =>
      have hcons := @reads_cons_of_not_letter apart name (value ++ quote :: text) quote
        (isAsciiLetter_eq_false_of_isTagQuote hquote)
      simp only [blankedGiven, Given.text, List.cons_append, List.append_assoc, List.nil_append]
      rw [hcons, isBlank_eq_false_of_isTagQuote hquote, reads_append_quote hquote]
      rfl
  | braced =>
      refine (reads_cons_of_not_letter (by decide)).trans ?_
      exact (or_iff_right fun h => h).symm
  | unquoted hvalue hrest =>
      refine (reads_append_plain hvalue).trans ?_
      rw [or_iff_right fun h => not_begins_plain hvalue (hstops hrest) hnext hassigned h.2]
      exact (or_iff_right fun h => h).symm

/-- What the rule reads in a piece; `apart` tells whether a blank stands in front of it, or nothing. -/
def PieceReads (apart : Bool) (name : List Char) : Piece → Prop
  | .valued other _ _ given =>
      (apart = true ∧ name = other ∧ IsHandlerName name ∧ isQuoted given = true) ∨ Holds name given
  | _ => False

/-- Whether a blank stands where a piece ends. -/
def endsApart : Piece → Bool
  | .blank _ | .spread _ => true
  | .bare _ => false
  | .valued _ _ _ given => leavesBlank given

def ListReads : Bool → List Char → List Piece → Prop
  | _, _, [] => False
  | apart, name, piece :: pieces => PieceReads apart name piece ∨ ListReads (endsApart piece) name pieces

theorem reads_piece_iff {rest text : List Char} {piece : Piece} (hpiece : piece.Before rest)
    (hblank : Stops (!isBlank ·) rest → Stops (!isBlank ·) text)
    (hchar : Stops isNameChar rest → Stops isNameChar text) (hnext : quoteNext text = false)
    (hassigned : quoteAssigned text = false) :
    Reads apart name (blanked piece ++ text) ↔ PieceReads apart name piece ∨ Reads (endsApart piece) name text := by
  have hnothing {p : Prop} : p ↔ False ∨ p := (or_iff_right id).symm
  cases hpiece with
  | @blank c hc =>
      refine (reads_cons_of_not_letter (isAsciiLetter_eq_false_of_isBlank hc)).trans ?_
      rw [hc]
      exact hnothing
  | spread => exact (reads_cons_of_not_letter (by decide)).trans hnothing
  | name hname hrest =>
      refine (reads_append_plain (plain_of_isName hname)).trans ?_
      rw [begins_name_iff hname (hchar hrest), hassigned]
      simp [PieceReads, endsApart]
  | token htoken _ hrest =>
      refine (reads_append_plain htoken).trans ?_
      rw [or_iff_right fun h => not_begins_plain htoken (hblank hrest) hnext hassigned h.2]
      exact hnothing
  | @valued other gap gap' given hname hgap hgap' hgiven =>
      have hquoted : quoteAssigned (gap ++ '=' :: (gap' ++ (blankedGiven given ++ text))) = isQuoted given := by
        rw [quoteAssigned_gap_equals hgap, quoteNext_append_blanks hgap', quoteNext_given hgiven hnext]
      -- Whether a blank stands in front of the sign, or of the value, does not matter: neither is a letter.
      have hsign : isBlank '=' = false := by decide
      obtain ⟨before, hbefore⟩ := @exists_reads_append_blanks name gap hgap false
      obtain ⟨behind, hbehind⟩ := @exists_reads_append_blanks name gap' hgap' false
      simp only [blanked, List.append_assoc, List.cons_append]
      rw [reads_append_plain (plain_of_isName hname), begins_name_iff hname (stops_gap_equals hgap _), hquoted,
        hbefore, reads_cons_of_not_letter (by decide), hsign, hbehind,
        reads_given_iff hgiven hblank hnext hassigned, ← or_assoc]
      rfl

/-- The rule reads in the blanked text of a list what it reads in the pieces. -/
theorem reads_blankedText_iff {pieces : List Piece} (h : Listing pieces) :
    Reads apart name (blankedText pieces) ↔ ListReads apart name pieces := by
  induction h generalizing apart with
  | nil => exact iff_of_false (not_reads_nil apart name) id
  | @cons piece pieces hpiece hrest ih =>
      obtain ⟨hnext, hassigned⟩ := not_quote_of_listing hrest
      rw [blankedText_cons, ListReads, ← ih]
      exact reads_piece_iff hpiece (stops_blankedText hrest (.inr (by decide)))
        (stops_blankedText hrest (.inl (by decide))) hnext hassigned

/-! ## The tags that the rule looks at -/

/-- What stands between the name and the end of each opening tag that the rule on handlers looks at. -/
def openingContents (source : List Char) : List (List Char) :=
  (afterTagNames source).filterMap fun rest => (tag 0 rest).toOption.map Prod.fst

theorem tagAttributeTexts_eq (source : List Char) :
    tagAttributeTexts source = (openingContents source).filterMap blankExpressions? := by
  rw [tagAttributeTexts, openingContents, List.filterMap_filterMap]
  congr 1
  funext rest
  rw [attributeText?]
  cases tag 0 rest <;> rfl

theorem mem_handlerNames {source : List Char} : String.ofList name ∈ handlerNames source ↔
    ∃ content ∈ openingContents source, ∃ text, blankExpressions? content = some text ∧ Reads true name text := by
  rw [handlerNames, mem_distinct, tagAttributeTexts_eq]
  simp only [List.mem_flatMap, List.mem_filterMap, List.mem_map, String.ofList_inj, exists_eq_right,
    mem_captures_handlerPattern]
  constructor
  · rintro ⟨text, ⟨content, hcontent, htext⟩, hreads⟩
    exact ⟨content, hcontent, text, htext, hreads⟩
  · rintro ⟨content, hcontent, text, htext, hreads⟩
    exact ⟨text, ⟨content, hcontent, htext⟩, hreads⟩

/-! ## Where the rule agrees with the reader -/

/-- A piece gives a name a string in quotes. -/
def Gives (name : List Char) (piece : Piece) : Prop :=
  ∃ gap gap' quote value, piece = .valued name gap gap' (.quoted quote value)

/--
The pieces of a list in which the rule reads a name as the reader does: it is not written right after a string,
no value for it goes without quotes, no string holds a handler of that name, and where it is given a string the
value that is kept for it is a string.
-/
structure Tidy (name : List Char) (pieces : List Piece) : Prop where
  listing : Listing pieces
  apart : pieces.IsChain fun piece next => ∀ other, Gives other piece → ¬Gives name next
  quoted : ∀ gap gap' value, .valued name gap gap' (.unquoted value) ∉ pieces
  silent : ∀ other gap gap' given, .valued other gap gap' given ∈ pieces → ¬Holds name given
  kept : ∀ text, (String.ofList name, .text text) ∈ entriesOf pieces →
    ∃ value, (setAll .empty (entriesOf pieces)).get? (String.ofList name) = some (.text value)

/-- An attribute is written after a blank, an expression or a string. -/
theorem endsApart_of_before {piece next : Piece} {pieces : List Piece}
    (hpiece : piece.Before (spell (next :: pieces))) (hnext : next.Before (spell pieces)) (hgives : Gives name next) :
    endsApart piece = true ∨ ∃ other, Gives other piece := by
  obtain ⟨gap, gap', quote, value, rfl⟩ := hgives
  obtain ⟨c, rest, hspell, hc⟩ : ∃ c rest,
      spell (.valued name gap gap' (.quoted quote value) :: pieces) = c :: rest ∧ isNameChar c = true := by
    cases hnext with
    | valued hname =>
        cases name with
        | nil => exact absurd rfl hname.1
        | cons c name => exact ⟨c, _, rfl, hname.2 c List.mem_cons_self⟩
  have hsolid : ¬Stops (!isBlank ·) (c :: rest) := by
    rw [stops_cons, isBlank_eq_false_of_isNameChar hc]
    decide
  rw [hspell] at hpiece
  cases hpiece with
  | blank | spread => exact .inl rfl
  | name _ hrest =>
      rw [stops_cons, hc] at hrest
      cases hrest
  | token _ _ hrest => exact absurd hrest hsolid
  | valued _ _ _ hgiven =>
      cases hgiven with
      | quoted => exact .inr ⟨_, _, _, _, _, rfl⟩
      | braced => exact .inl rfl
      | unquoted _ hrest => exact absurd hrest hsolid

theorem pieceReads_iff {piece : Piece} (hapart : Gives name piece → apart = true)
    (hsilent : ∀ other gap gap' given, piece = .valued other gap gap' given → ¬Holds name given) :
    PieceReads apart name piece ↔ IsHandlerName name ∧ Gives name piece := by
  cases piece with
  | blank | spread | bare => simp [PieceReads, Gives]
  | valued other gap gap' given =>
      rw [PieceReads, or_iff_left (hsilent other gap gap' given rfl)]
      constructor
      · rintro ⟨-, rfl, hname, hquoted⟩
        cases given with
        | quoted quote value => exact ⟨hname, gap, gap', quote, value, rfl⟩
        | braced | unquoted => cases hquoted
      · rintro ⟨hname, hgives⟩
        have hblank := hapart hgives
        obtain ⟨_, _, quote, value, heq⟩ := hgives
        cases heq
        exact ⟨hblank, rfl, hname, rfl⟩

/-- In a list with no attribute of the name right after a string, and no handler of it in a string, the rule reads
the name where it is given a string in quotes. -/
theorem listReads_iff {pieces : List Piece} (h : Listing pieces)
    (hapart : pieces.IsChain fun piece next => ∀ other, Gives other piece → ¬Gives name next)
    (hsilent : ∀ other gap gap' given, .valued other gap gap' given ∈ pieces → ¬Holds name given)
    (hfirst : ∀ piece, pieces.head? = some piece → Gives name piece → apart = true) :
    ListReads apart name pieces ↔ IsHandlerName name ∧ ∃ piece ∈ pieces, Gives name piece := by
  induction h generalizing apart with
  | nil => simp [ListReads]
  | @cons piece pieces hpiece hrest ih =>
      have hnext : ∀ next, pieces.head? = some next → Gives name next → endsApart piece = true := by
        intro next hhead hgives
        cases hrest with
        | nil => cases hhead
        | @cons _ others hbefore =>
            obtain rfl := Option.some.inj hhead
            rcases endsApart_of_before hpiece hbefore hgives with hends | ⟨other, hother⟩
            · exact hends
            · exact absurd hgives ((List.isChain_cons_cons.1 hapart).1 other hother)
      have hthis := pieceReads_iff (hfirst piece rfl)
        fun other gap gap' given hpiece => hsilent other gap gap' given (hpiece ▸ List.mem_cons_self)
      have hothers := ih hapart.tail
        (fun other gap gap' given hmem => hsilent other gap gap' given (List.mem_cons_of_mem _ hmem)) hnext
      rw [ListReads, hthis, hothers, ← and_or_left, List.exists_mem_cons_iff]

/-- The reader keeps a string for a name when one of the pieces gives it one in quotes. -/
theorem Tidy.get?_iff {pieces : List Piece} (h : Tidy name pieces) :
    (∃ value, (setAll .empty (entriesOf pieces)).get? (String.ofList name) = some (.text value)) ↔
      ∃ piece ∈ pieces, Gives name piece := by
  constructor
  · rintro ⟨value, hvalue⟩
    rcases mem_setAll (Keyed.mem_of_get? hvalue) with hmem | hmem
    · cases hmem
    obtain ⟨piece, hpiece, hentry⟩ := List.mem_flatMap.1 hmem
    refine ⟨piece, hpiece, ?_⟩
    cases piece with
    | blank | spread | bare => simp [Piece.entries] at hentry
    | valued other gap gap' given =>
        obtain ⟨hname, hgiven⟩ := Prod.mk.inj (List.mem_singleton.1 hentry)
        obtain rfl := String.ofList_inj.1 hname
        cases given with
        | quoted quote value => exact ⟨gap, gap', quote, value, rfl⟩
        | braced source => cases hgiven
        | unquoted value => exact absurd hpiece (h.quoted gap gap' value)
  · rintro ⟨_, hpiece, gap, gap', quote, value, rfl⟩
    exact h.kept (String.ofList value) (List.mem_flatMap.2 ⟨_, hpiece, List.mem_singleton.2 rfl⟩)

/--
The rule reports the names of handlers for which the reader keeps a string, and no others, in every source whose
tags are tidy for the name.
-/
theorem handler_reported_iff {source : String}
    (h : ∀ content ∈ openingContents source.toList, ∃ pieces, spell pieces = content ∧ Tidy name pieces) :
    Violation.handlerString (String.ofList name) ∈ Rule.inlineHandler.check source.toList ↔
      IsHandlerName name ∧ ∃ content ∈ openingContents source.toList, ∃ attributes value,
        read content = .ok attributes ∧ attributes.get? (String.ofList name) = some (.text value) := by
  have hcheck : Violation.handlerString (String.ofList name) ∈ Rule.inlineHandler.check source.toList ↔
      String.ofList name ∈ handlerNames source.toList := by
    simp [Rule.check]
  have hreads {pieces : List Piece} (htidy : Tidy name pieces) : Reads true name (blankedText pieces) ↔
      IsHandlerName name ∧ ∃ value, (setAll .empty (entriesOf pieces)).get? (String.ofList name) = some (.text value) := by
    rw [reads_blankedText_iff htidy.listing, htidy.get?_iff]
    exact listReads_iff htidy.listing htidy.apart htidy.silent fun _ _ _ => rfl
  rw [hcheck, mem_handlerNames]
  constructor
  · rintro ⟨content, hcontent, text, htext, hfound⟩
    obtain ⟨pieces, rfl, htidy⟩ := h content hcontent
    rw [blankExpressions?_of_blanks (blanks_of_listing htidy.listing)] at htext
    obtain rfl := Option.some.inj htext
    obtain ⟨hname, value, hvalue⟩ := (hreads htidy).1 hfound
    exact ⟨hname, spell pieces, hcontent, _, value, htidy.listing.read_eq, hvalue⟩
  · rintro ⟨hname, content, hcontent, attributes, value, hread, hvalue⟩
    obtain ⟨pieces, rfl, htidy⟩ := h content hcontent
    rw [htidy.listing.read_eq] at hread
    obtain rfl := Except.ok.inj hread
    exact ⟨spell pieces, hcontent, blankedText pieces, blankExpressions?_of_blanks (blanks_of_listing htidy.listing),
      (hreads htidy).2 ⟨hname, value, hvalue⟩⟩

/-- The pieces of the attributes of a paragraph with a title and a handler. -/
def handlerSample : List Piece :=
  [.blank ' ', .valued "title".toList [] [] (.quoted '"' "hi".toList), .blank ' ',
    .valued "onclick".toList [] [] (.quoted '"' "go()".toList), .blank ' ', .bare ['/']]

theorem tidy_handlerSample : Tidy "onclick".toList handlerSample := by
  refine ⟨?_, ?_, ?_, ?_, ?_⟩
  · refine .cons (.blank (by decide)) (.cons (.valued ⟨by decide +kernel, by decide +kernel⟩ (by simp) (by simp)
      (.quoted rfl (by decide +kernel))) (.cons (.blank (by decide)) (.cons
      (.valued ⟨by decide +kernel, by decide +kernel⟩ (by simp) (by simp) (.quoted rfl (by decide +kernel)))
      (.cons (.blank (by decide)) (.cons (.token ⟨by decide, by decide, by decide, by decide⟩ (by decide)
      (stops_nil _)) .nil)))))
  · simp [handlerSample, Gives]
  · simp [handlerSample]
  · have hvalues : handlerPattern.captures ("hi".toList ++ ['"']) = [] ∧
        handlerPattern.captures ("go()".toList ++ ['"']) = [] := by
      decide +kernel
    have hnone {text : List Char} (h : handlerPattern.captures text = []) : ¬Reads false "onclick".toList text := by
      intro hreads
      have hmem := mem_captures_handlerPattern.2 hreads.mono
      rw [h] at hmem
      cases hmem
    intro other gap gap' given hmem
    simp only [handlerSample, List.mem_cons, List.not_mem_nil, or_false, reduceCtorEq, false_or,
      Piece.valued.injEq] at hmem
    rcases hmem with ⟨-, -, -, rfl⟩ | ⟨-, -, -, rfl⟩
    · exact hnone hvalues.1
    · exact hnone hvalues.2
  · exact fun _ _ => ⟨"go()", by decide +kernel⟩

/-- The handler of a paragraph with a title is reported, and the reader keeps a string for it. -/
theorem handler_reported_sample :
    Violation.handlerString "onclick" ∈ Rule.inlineHandler.check "<p title=\"hi\" onclick=\"go()\" />".toList ∧
      ∃ content ∈ openingContents "<p title=\"hi\" onclick=\"go()\" />".toList, ∃ attributes value,
        read content = .ok attributes ∧ attributes.get? "onclick" = some (.text value) := by
  have hcontents : openingContents "<p title=\"hi\" onclick=\"go()\" />".toList = [spell handlerSample] := by
    decide +kernel
  have hreported : Violation.handlerString "onclick" ∈
      Rule.inlineHandler.check "<p title=\"hi\" onclick=\"go()\" />".toList := by
    decide +kernel
  have hname : String.ofList "onclick".toList = "onclick" := String.ofList_toList
  have hiff := @handler_reported_iff "onclick".toList "<p title=\"hi\" onclick=\"go()\" />" (by
    rw [hcontents]
    simpa using ⟨handlerSample, rfl, tidy_handlerSample⟩)
  rw [hname] at hiff
  exact ⟨hreported, (hiff.1 hreported).2⟩

/-- Every text that the reader keeps for a name in one of the tags that the rule looks at. -/
def stringsKept (name : String) (source : List Char) : List String :=
  (openingContents source).filterMap fun content =>
    match (read content).toOption.bind (·.get? name) with
    | some (.text value) => some value
    | _ => none

/--
Two handlers that the rule does not see, one right after a string and one without quotes, and a string in which
it sees one that is not there.
-/
theorem handler_misreported :
    (Rule.inlineHandler.check "<p title=\"x\"onclick=\"go()\">".toList = [] ∧
      stringsKept "onclick" "<p title=\"x\"onclick=\"go()\">".toList = ["go()"]) ∧
    (Rule.inlineHandler.check "<p onclick=go()>".toList = [] ∧
      stringsKept "onclick" "<p onclick=go()>".toList = ["go()"]) ∧
    (Rule.inlineHandler.check "<p title=\"an onclick = 'x'\">".toList = [.handlerString "onclick"] ∧
      stringsKept "onclick" "<p title=\"an onclick = 'x'\">".toList = []) := by
  decide +kernel

end ComponentBuilder.Guard
