import ComponentBuilder.Proofs.Scan.Script

/-!
# String literals in expressions

In a string literal a backslash escapes the character after it, so an escaped quote does not end the literal.
The scan for an expression ends a string at the next quote like its first one, escaped or not.  So it finds the
brace that closes an expression whenever no literal escapes its own quote; behind one that does, the rest of
the literal is read as script text, and a closing brace in it may be taken for the end.
-/

namespace ComponentBuilder.Markup.Scan

open Text

/-! ## Ends of expressions -/

/-- The last brace of a text in braces ends the expression exactly when the text between falls into pieces. -/
theorem findExpressionEnd_braces_iff {inside : List Char} :
    findExpressionEnd (String.ofList ('\x7b' :: (inside ++ ['\x7d']))) 0 = .ok (inside.length + 1) ↔
      ∃ pieces, ReadsScript [] pieces ∧ scriptOf pieces = inside := by
  rw [findExpressionEnd_eq_ok_iff, String.toList_ofList]
  constructor
  · rintro ⟨found, rest, hfound, hsource, hlength⟩
    obtain rfl : rest = [] := by
      have hsize := congrArg List.length hsource
      simp only [List.length_cons, List.length_append, List.length_nil] at hsize
      exact List.length_eq_zero_iff.1 (by omega)
    obtain ⟨pieces, hpieces, hpart⟩ := isExpression_iff.1 hfound
    rw [List.append_nil, hpart, List.cons.injEq] at hsource
    exact ⟨pieces, hpieces, (List.append_cancel_right hsource.2).symm⟩
  · rintro ⟨pieces, hpieces, rfl⟩
    exact ⟨_, [], isExpression_iff.2 ⟨pieces, hpieces, rfl⟩, (List.append_nil _).symm, by simp⟩

/-! ## Literals -/

/-- A character of a string literal, or a backslash with the character that it escapes. -/
inductive LiteralUnit where
  | plain (c : Char)
  | escaped (c : Char)
deriving DecidableEq

def LiteralUnit.text : LiteralUnit → List Char
  | plain c => [c]
  | escaped c => ['\\', c]

/-- A string literal in single or double quotes; its own quote and the backslash stand in it escaped only. -/
structure StringLiteral where
  quote : Char
  units : List LiteralUnit
  isQuote : isTagQuote quote = true
  no_quote : .plain quote ∉ units
  no_backslash : .plain '\\' ∉ units

def textOfUnits (units : List LiteralUnit) : List Char :=
  units.flatMap LiteralUnit.text

def StringLiteral.text (literal : StringLiteral) : List Char :=
  literal.quote :: (textOfUnits literal.units ++ [literal.quote])

/-- Whether the literal escapes the quote that it is written in. -/
def StringLiteral.escapesQuote (literal : StringLiteral) : Prop :=
  .escaped literal.quote ∈ literal.units

/-- A character that stands for itself in script text: no quote, brace, slash or angle bracket. -/
def isInert (c : Char) : Bool :=
  !Scan.isQuote c && c != '\x7b' && c != '\x7d' && c != '/' && c != '<'

/-- A piece of an expression that is made of string literals and inert characters. -/
inductive LiteralPiece where
  | literal (literal : StringLiteral)
  | other (c : Char) (hc : isInert c = true)

def LiteralPiece.text : LiteralPiece → List Char
  | literal l => l.text
  | other c _ => [c]

def LiteralPiece.escapesQuote : LiteralPiece → Prop
  | literal l => l.escapesQuote
  | other _ _ => False

instance : DecidablePred LiteralPiece.escapesQuote
  | .literal l => inferInstanceAs (Decidable (.escaped l.quote ∈ l.units))
  | .other _ _ => inferInstanceAs (Decidable False)

def textOfLiterals (pieces : List LiteralPiece) : List Char :=
  pieces.flatMap LiteralPiece.text

/-- A piece as the scan takes it when no literal escapes its own quote. -/
def LiteralPiece.script : LiteralPiece → ScriptPiece
  | literal l => .quoted l.quote (textOfUnits l.units)
  | other c _ => .plain c

theorem scriptOf_script (pieces : List LiteralPiece) :
    scriptOf (pieces.map LiteralPiece.script) = textOfLiterals pieces := by
  rw [scriptOf, List.flatMap_map]
  exact List.flatMap_congr fun piece _ => by cases piece <;> rfl

/-! ## Pieces that stand anywhere -/

theorem stands_of_isInert {c : Char} (h : isInert c = true) (behind ahead : List Char) :
    (ScriptPiece.plain c).Stands behind ahead := by
  simp only [isInert, Bool.and_eq_true, Bool.not_eq_true', bne_iff_ne] at h
  obtain ⟨⟨⟨⟨hquote, hopen⟩, hclose⟩, hslash⟩, hangle⟩ := h
  exact ⟨hquote, hopen, hclose, by simp [opensMarkup, hangle], by simp [opensComment, hslash]⟩

theorem isQuote_of_isTagQuote {c : Char} (h : isTagQuote c = true) : isQuote c = true := by
  simp only [isTagQuote] at h
  simp [isQuote, h]

/-- A quote is not among units that neither hold it plainly nor escape it. -/
theorem not_mem_textOfUnits {quote : Char} {units : List LiteralUnit} (hslash : quote ≠ '\\')
    (hplain : .plain quote ∉ units) (hescaped : .escaped quote ∉ units) : quote ∉ textOfUnits units := by
  intro hmem
  obtain ⟨unit, hunit, hquote⟩ := List.mem_flatMap.1 hmem
  cases unit with
  | plain c =>
      obtain rfl : quote = c := List.mem_singleton.1 hquote
      exact hplain hunit
  | escaped c =>
      rcases List.mem_cons.1 hquote with heq | hquote
      · exact hslash heq
      · obtain rfl : quote = c := List.mem_singleton.1 hquote
        exact hescaped hunit

theorem StringLiteral.quote_ne_backslash (literal : StringLiteral) : literal.quote ≠ '\\' := by
  intro heq
  have hquote := literal.isQuote
  rw [heq] at hquote
  exact absurd hquote (by decide)

theorem LiteralPiece.stands_script {piece : LiteralPiece} (h : ¬piece.escapesQuote) (behind ahead : List Char) :
    piece.script.Stands behind ahead := by
  cases piece with
  | other c hc => exact stands_of_isInert hc behind ahead
  | literal l =>
      exact ⟨isQuote_of_isTagQuote l.isQuote, not_mem_textOfUnits l.quote_ne_backslash l.no_quote h⟩

theorem readsScript_of_stands {pieces : List ScriptPiece} (h : ∀ piece ∈ pieces, ∀ behind ahead,
    piece.Stands behind ahead) (seen : List Char) : ReadsScript seen pieces := by
  induction pieces generalizing seen with
  | nil => trivial
  | cons piece pieces ih =>
      rw [List.forall_mem_cons] at h
      exact ⟨h.1 seen _, ih h.2 _⟩

/-! ## The end of an expression with literals -/

/--
A closing brace in a literal that escapes its own quote: the first such literal, with only inert characters
between the first quote that it escapes and the brace.  `place` is the offset of the brace.
-/
inductive StrayBrace : List LiteralPiece → Nat → Prop
  | intro {front back : List LiteralPiece} {literal : StringLiteral} {before after : List LiteralUnit}
      {lead more : List Char} (hfront : ∀ piece ∈ front, ¬piece.escapesQuote)
      (hunits : literal.units = before ++ .escaped literal.quote :: after)
      (hbefore : .escaped literal.quote ∉ before) (hafter : textOfUnits after = lead ++ '\x7d' :: more)
      (hlead : ∀ c ∈ lead, isInert c = true) :
      StrayBrace (front ++ .literal literal :: back)
        ((textOfLiterals front).length + (textOfUnits before).length + lead.length + 4)

/-- A stray brace is taken for the end of the expression. -/
theorem StrayBrace.findExpressionEnd_eq {pieces : List LiteralPiece} {place : Nat} (h : StrayBrace pieces place) :
    findExpressionEnd (String.ofList ('\x7b' :: (textOfLiterals pieces ++ ['\x7d']))) 0 = .ok place := by
  cases h with
  | @intro front back literal before after lead more hfront hunits hbefore hafter hlead =>
      -- The scan takes the front of the literal for a string and the rest of it for script text.
      let cut := front.map LiteralPiece.script ++
        (.quoted literal.quote (textOfUnits before ++ ['\\']) :: lead.map ScriptPiece.plain)
      have hquoted : literal.quote ∉ textOfUnits before ++ ['\\'] := by
        have hplain : .plain literal.quote ∉ before := fun hmem => literal.no_quote (by simp [hunits, hmem])
        simpa [literal.quote_ne_backslash] using
          not_mem_textOfUnits literal.quote_ne_backslash hplain hbefore
      have hstands : ∀ piece ∈ cut, ∀ behind ahead, piece.Stands behind ahead := by
        simp only [cut, List.mem_append, List.mem_cons, List.mem_map]
        rintro piece (⟨source, hsource, rfl⟩ | rfl | ⟨c, hc, rfl⟩) behind ahead
        · exact LiteralPiece.stands_script (hfront source hsource) behind ahead
        · exact ⟨isQuote_of_isTagQuote literal.isQuote, hquoted⟩
        · exact stands_of_isInert (hlead c hc) behind ahead
      have htext : scriptOf cut = textOfLiterals front ++
          literal.quote :: (textOfUnits before ++ ['\\', literal.quote] ++ lead) := by
        have hlead : scriptOf (lead.map ScriptPiece.plain) = lead := by
          simp [scriptOf, List.flatMap_map, ScriptPiece.text]
        simp [cut, scriptOf_append, scriptOf_script, scriptOf_cons, ScriptPiece.text, hlead]
      have hliteral : textOfUnits literal.units =
          textOfUnits before ++ '\\' :: literal.quote :: (lead ++ '\x7d' :: more) := by
        rw [hunits, ← hafter]
        simp [textOfUnits, LiteralUnit.text]
      have hpieces : textOfLiterals (front ++ .literal literal :: back) =
          textOfLiterals front ++ (literal.text ++ textOfLiterals back) :=
        List.flatMap_append
      rw [findExpressionEnd_eq_ok_iff, String.toList_ofList]
      refine ⟨_, more ++ literal.quote :: textOfLiterals back ++ ['\x7d'],
        isExpression_iff.2 ⟨cut, readsScript_of_stands hstands [], rfl⟩, ?_, ?_⟩
      · simp [htext, hpieces, StringLiteral.text, hliteral]
      · simp [htext]
        omega

/-- The closing brace of an expression made of string literals and inert characters is found exactly when the
text falls into pieces with each string ended at its next quote, so always when no literal escapes its own
quote; a stray brace is taken for it. -/
theorem expression_end_of_literals (pieces : List LiteralPiece) :
    let source := String.ofList ('\x7b' :: (textOfLiterals pieces ++ ['\x7d']))
    let last := (textOfLiterals pieces).length + 1
    (findExpressionEnd source 0 = .ok last ↔ ∃ cut, ReadsScript [] cut ∧ scriptOf cut = textOfLiterals pieces) ∧
      ((∀ piece ∈ pieces, ¬piece.escapesQuote) → findExpressionEnd source 0 = .ok last) ∧
      ∀ place, StrayBrace pieces place → findExpressionEnd source 0 = .ok place := by
  intro source last
  refine ⟨findExpressionEnd_braces_iff, fun hclean => ?_, fun place hstray => hstray.findExpressionEnd_eq⟩
  refine findExpressionEnd_braces_iff.2 ⟨pieces.map LiteralPiece.script, ?_, scriptOf_script pieces⟩
  refine readsScript_of_stands ?_ []
  intro script hscript
  obtain ⟨piece, hpiece, rfl⟩ := List.mem_map.1 hscript
  exact LiteralPiece.stands_script (hclean piece hpiece)

/-- A literal with a brace, both quotes and two escapes, a sign, and a literal with an opening brace. -/
def literalSample : List LiteralPiece :=
  [.literal ⟨'"', [.plain '\x7d', .plain '\'', .escaped '\'', .escaped '\\'], rfl, by decide, by decide⟩,
    .other '+' rfl,
    .literal ⟨'\'', [.plain '\x7b', .plain '"'], rfl, by decide, by decide⟩]

/-- A literal that escapes its own quote and holds a brace. -/
def strayLiteral : StringLiteral :=
  ⟨'\'', [.escaped '\'', .plain '\x7d'], rfl, by decide, by decide⟩

/-- No literal of the sample escapes its own quote; the brace in the other literal is stray. -/
theorem expression_end_of_literals_sample :
    (textOfLiterals literalSample = "\"\x7d'\\'\\\\\"+'\x7b\"'".toList ∧
      (∀ piece ∈ literalSample, ¬piece.escapesQuote) ∧
      findExpressionEnd (String.ofList ('\x7b' :: (textOfLiterals literalSample ++ ['\x7d']))) 0 = .ok 14) ∧
      StrayBrace [.literal strayLiteral] 4 ∧
      findExpressionEnd (String.ofList ('\x7b' :: (textOfLiterals [.literal strayLiteral] ++ ['\x7d']))) 0 =
        .ok 4 := by
  have hclean : ∀ piece ∈ literalSample, ¬piece.escapesQuote := by decide
  have hstray : StrayBrace [.literal strayLiteral] 4 :=
    @StrayBrace.intro [] [] strayLiteral [] [.plain '\x7d'] [] [] (by simp) rfl (by simp) rfl (by simp)
  exact ⟨⟨by decide, hclean, (expression_end_of_literals literalSample).2.1 hclean⟩, hstray,
    (expression_end_of_literals [.literal strayLiteral]).2.2 4 hstray⟩

/-- The scan stops at the brace inside of the literal, two places before the one that closes the expression. -/
theorem expression_end_in_literal :
    let source := String.ofList ('\x7b' :: (textOfLiterals [.literal strayLiteral] ++ ['\x7d']))
    source = "\x7b'\\'\x7d'\x7d" ∧ (textOfLiterals [.literal strayLiteral]).length + 1 = 6 ∧
      findExpressionEnd source 0 = .ok 4 := by
  decide +kernel

end ComponentBuilder.Markup.Scan
