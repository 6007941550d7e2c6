import ComponentBuilder.Proofs.Scan.Literals

/-!
# Script text in parentheses

The scan for parentheses reads script text as the scan for an expression does, but for comments: it knows none,
and reads their characters as script text.  So both scans agree on where a text ends as long as the comments in
it are balanced script text themselves, and a closing parenthesis too many in a comment is taken for the one
that ends the text.
-/

namespace ComponentBuilder.Markup.Scan

open Text

/-! ## Pieces in parentheses -/

/-- Whether a piece is a parenthesis outside of all strings, comments, elements and braced expressions. -/
def ScriptPiece.isParenthesis : ScriptPiece → Bool
  | plain c => c == '(' || c == ')'
  | _ => false

/--
Whether the parentheses of a text balance, `depth` of them being open before it, and it holds no quote, opening
brace or angle bracket.
-/
def balances : Nat → List Char → Bool
  | depth, [] => depth == 0
  | depth, c :: rest =>
      if c = '(' then balances (depth + 1) rest
      else if c = ')' then depth != 0 && balances (depth - 1) rest
      else !isQuote c && c != '\x7b' && c != '<' && balances depth rest

/-- Whether a piece is no comment, or one whose characters balance. -/
def ScriptPiece.isQuiet (piece : ScriptPiece) : Bool :=
  !piece.isComment || balances 0 piece.text

theorem opened?_eq_none {c : Char} (hquote : isQuote c = false) {behind ahead : List Char}
    (hmarkup : opensMarkup behind c ahead = false) (offset : Nat) : opened? behind offset c ahead = none := by
  simp [opened?, hquote, hmarkup]

/-- A balanced text closes the parentheses that were open in front of it, as long as others stay open. -/
theorem advance_of_balances {depth : Nat} {part : List Char} (h : balances depth part = true) {base : Int}
    (hbase : 1 ≤ base) (opened offset : Nat) (behind ahead : List Char) :
    advance [.parentheses (base + depth) opened] behind offset part ahead = some [.parentheses base opened] := by
  induction part generalizing depth behind offset with
  | nil =>
      obtain rfl : depth = 0 := by simpa [balances] using h
      simp
  | cons c part ih =>
      rw [balances] at h
      rw [advance_cons, step_parentheses]
      split_ifs at h with hopen hclose
      · subst hopen
        have hmore := ih h (offset + 1) ('(' :: behind)
        rw [Nat.cast_add, Nat.cast_one, ← add_assoc] at hmore
        exact hmore
      · subst hclose
        simp only [Bool.and_eq_true, bne_iff_ne] at h
        obtain ⟨hdepth, h⟩ := h
        obtain ⟨less, rfl⟩ := Nat.exists_eq_succ_of_ne_zero hdepth
        have hne : base + ((less + 1 : Nat) : Int) - 1 = base + less := by
          rw [Nat.cast_add, Nat.cast_one]
          omega
        have hpos : base + (less : Int) ≠ 0 := by omega
        have hclosed : opened? behind offset ')' (part ++ ahead) = none := opened?_eq_none rfl rfl offset
        simp only [hclosed, Nat.succ_eq_add_one, hne, hpos, if_false, if_true, Char.reduceEq]
        exact ih h _ _
      · simp only [Bool.and_eq_true, Bool.not_eq_true', bne_iff_ne] at h
        obtain ⟨⟨⟨hquote, hbrace⟩, hangle⟩, h⟩ := h
        have hmarkup : opensMarkup behind c (part ++ ahead) = false := by simp [opensMarkup, hangle]
        have hnone := opened?_eq_none hquote hmarkup offset
        simp only [hnone, hbrace, hopen, hclose, if_false, List.append_nil]
        exact ih h _ _

/-- A piece that is neither a parenthesis nor an unbalanced comment leaves the parentheses as they were. -/
theorem ScriptPiece.Stands.advance_parentheses {piece : ScriptPiece} {behind ahead : List Char}
    (h : piece.Stands behind ahead) (hplain : piece.isParenthesis = false) (hquiet : piece.isQuiet = true)
    {depth : Int} (hdepth : 1 ≤ depth) (opened offset : Nat) :
    advance [.parentheses depth opened] behind offset piece.text ahead = some [.parentheses depth opened] := by
  cases piece with
  | plain c =>
      obtain ⟨hquote, hopen, -, hmarkup, -⟩ := h
      simp only [ScriptPiece.isParenthesis, Bool.or_eq_false_iff, beq_eq_false_iff_ne] at hplain
      rw [ScriptPiece.text, advance_cons, step_parentheses, List.nil_append, opened?_eq_none hquote hmarkup]
      simp [hopen, hplain.1, hplain.2]
  | lineComment | blockComment =>
      have hbalanced := advance_of_balances hquiet hdepth opened offset behind ahead
      rwa [Nat.cast_zero, add_zero] at hbalanced
  | quoted quote value => exact (isScript_parentheses depth opened).advance_quoted h behind offset ahead
  | element part => exact (isScript_parentheses depth opened).advance_element h offset
  | braced source =>
      exact advance_of_isExpression h (fun _ _ _ => rfl) behind offset ahead

/-! ## The closing parenthesis -/

/-- The parenthesis that closes a text is the last character of the front that ends the scan. -/
theorem findClosingParenthesis_eq_ok {source : String} {part rest : List Char} (hsource : source.toList = part ++ rest)
    (h : advance [.parentheses 0 0] [] 0 part rest = some []) :
    findClosingParenthesis source 0 = .ok (part.length - 1) := by
  have hrun := run_eq_ok h
  rw [← hsource] at hrun
  rw [findClosingParenthesis, List.drop_zero, parentheses, hrun]
  simp [Except.map]

/-- Pieces without parentheses and with balanced comments only are passed over in parentheses. -/
theorem ReadsScript.advance_parentheses {front back : List ScriptPiece} (h : ReadsScript [] (front ++ back))
    (hplain : ∀ piece ∈ front, piece.isParenthesis = false) (hquiet : ∀ piece ∈ front, piece.isQuiet = true)
    (rest : List Char) :
    advance [.parentheses 0 0] [] 0 ('(' :: scriptOf front) (scriptOf back ++ ')' :: rest) =
      some [.parentheses 1 0] := by
  have hbehind (part : List Char) : admitsMarkup (part ++ ['(']) = admitsMarkup (part ++ []) := by
    rw [admitsMarkup_append_leader (by decide), List.append_nil]
  refine @advance_trans _ _ _ _ ['('] _ _ _ rfl ?_
  exact h.advance_front (fun piece hpiece behind offset ahead hstands =>
    hstands.advance_parentheses (hplain piece hpiece) (hquiet piece hpiece) le_rfl 0 offset) hbehind
    (endsScript_cons (by decide) (by decide) rest) _

/--
A closing parenthesis too many in a comment, with balanced comments only in front of that one; `place` is its
offset when the pieces stand in parentheses.
-/
inductive StrayParenthesis : List ScriptPiece → Nat → Prop
  | intro {front back : List ScriptPiece} {comment : ScriptPiece} {lead more : List Char}
      (hfront : ∀ piece ∈ front, piece.isQuiet = true) (hcomment : comment.isComment = true)
      (htext : comment.text = lead ++ ')' :: more) (hlead : balances 0 lead = true) :
      StrayParenthesis (front ++ comment :: back) ((scriptOf front).length + lead.length + 1)

theorem toList_braced (left right inside : String) :
    (left ++ inside ++ right).toList = left.toList ++ (inside.toList ++ right.toList) := by
  simp

/-- A stray parenthesis is taken for the closing one. -/
theorem StrayParenthesis.findClosingParenthesis_eq {pieces : List ScriptPiece} {place : Nat}
    (h : StrayParenthesis pieces place) (hreads : ReadsScript [] pieces)
    (hplain : ∀ piece ∈ pieces, piece.isParenthesis = false) {script : String}
    (hscript : scriptOf pieces = script.toList) :
    findClosingParenthesis ("(" ++ script ++ ")") 0 = .ok place := by
  cases h with
  | @intro front back comment lead more hfront hcomment htext hlead =>
      rw [scriptOf_append, scriptOf_cons, htext] at hscript
      have hpassed := hreads.advance_parentheses
        (fun piece hpiece => hplain piece (List.mem_append_left _ hpiece)) hfront []
      rw [scriptOf_cons, htext] at hpassed
      have hclosed : advance [.parentheses 0 0] [] 0 ('(' :: scriptOf front ++ (lead ++ [')']))
          (more ++ (scriptOf back ++ [')'])) = some [] := by
        have hlead (place : Nat) (behind ahead : List Char) := advance_of_balances hlead le_rfl 0 place behind ahead
        simp only [Nat.cast_zero, add_zero] at hlead
        refine advance_trans ?_ (advance_trans (hlead _ _ _) rfl)
        simpa using hpassed
      rw [@findClosingParenthesis_eq_ok _ _ (more ++ (scriptOf back ++ [')'])) _ hclosed]
      · simp [Nat.add_assoc]
      · rw [toList_braced, ← hscript]
        simp

/-- Where a text in braces is read as one expression and holds no parenthesis of its own, both scans agree on
its end when its comments are balanced, and a stray parenthesis is taken for the closing one. -/
theorem closing_parenthesis_of_script (script : String)
    (h : findExpressionEnd ("\x7b" ++ script ++ "\x7d") 0 = .ok (script.length + 1)) :
    (∃ pieces, ReadsScript [] pieces ∧ scriptOf pieces = script.toList) ∧
      ∀ pieces, ReadsScript [] pieces → scriptOf pieces = script.toList →
        (∀ piece ∈ pieces, piece.isParenthesis = false) →
        ((∀ piece ∈ pieces, piece.isQuiet = true) →
          findClosingParenthesis ("(" ++ script ++ ")") 0 = .ok (script.length + 1)) ∧
        ∀ place, StrayParenthesis pieces place →
          findClosingParenthesis ("(" ++ script ++ ")") 0 = .ok place := by
  have hbraces : "\x7b" ++ script ++ "\x7d" = String.ofList ('\x7b' :: (script.toList ++ ['\x7d'])) := by
    rw [← String.toList_inj]
    simp
  rw [hbraces] at h
  rw [← String.length_toList] at h ⊢
  refine ⟨findExpressionEnd_braces_iff.1 h, fun pieces hreads hscript hplain => ⟨fun hquiet => ?_, ?_⟩⟩
  · rw [← List.append_nil pieces] at hreads
    have hpassed := hreads.advance_parentheses hplain hquiet []
    have hclosed : advance [.parentheses 0 0] [] 0 ('(' :: scriptOf pieces ++ [')']) [] = some [] :=
      advance_trans hpassed rfl
    rw [@findClosingParenthesis_eq_ok _ _ [] _ hclosed, hscript]
    · simp
    · rw [toList_braced, hscript]
      simp
  · exact fun place hstray => hstray.findClosingParenthesis_eq hreads hplain hscript

/-- An element, a string, a comment and a braced expression, each with a parenthesis. -/
def scriptSample : List ScriptPiece :=
  [.plain '?', .element "b>:)</b>".toList, .plain ':', .quoted '\'' ['('], .blockComment "f(x)".toList,
    .braced "\x7b(1)\x7d".toList]

/-- The text of the sample. -/
def sampleText : String :=
  "?<b>:)</b>:'('/*f(x)*/\x7b(1)\x7d"

/-- A comment that is a closing parenthesis. -/
def strayComment : List ScriptPiece :=
  [.blockComment [')']]

/-- The scans agree on the sample, and the parenthesis in the comment is stray. -/
theorem closing_parenthesis_of_script_sample :
    (findExpressionEnd ("\x7b" ++ sampleText ++ "\x7d") 0 = .ok (sampleText.length + 1) ∧
      ReadsScript [] scriptSample ∧ scriptOf scriptSample = sampleText.toList ∧
      (∀ piece ∈ scriptSample, piece.isParenthesis = false) ∧
      (∀ piece ∈ scriptSample, piece.isQuiet = true) ∧
      findClosingParenthesis ("(" ++ sampleText ++ ")") 0 = .ok (sampleText.length + 1)) ∧
    (findExpressionEnd ("\x7b" ++ "/*)*/" ++ "\x7d") 0 = .ok ("/*)*/".length + 1) ∧
      StrayParenthesis strayComment 3 ∧ findClosingParenthesis ("(" ++ "/*)*/" ++ ")") 0 = .ok 3) := by
  have hsample : findExpressionEnd ("\x7b" ++ sampleText ++ "\x7d") 0 = .ok (sampleText.length + 1) := by
    decide +kernel
  have hreads : ReadsScript [] scriptSample := by decide +kernel
  have hplain : ∀ piece ∈ scriptSample, piece.isParenthesis = false := by decide
  have hquiet : ∀ piece ∈ scriptSample, piece.isQuiet = true := by decide
  have hend := ((closing_parenthesis_of_script _ hsample).2 scriptSample hreads (by decide) hplain).1 hquiet
  have hcomment : findExpressionEnd ("\x7b" ++ "/*)*/" ++ "\x7d") 0 = .ok ("/*)*/".length + 1) := by
    decide +kernel
  have hstray : StrayParenthesis strayComment 3 :=
    @StrayParenthesis.intro [] [] (.blockComment [')']) ['/', '*'] ['*', '/'] (by simp) rfl rfl (by decide)
  have hearly := ((closing_parenthesis_of_script _ hcomment).2 strayComment (by decide) (by decide)
    (by decide)).2 3 hstray
  exact ⟨⟨hsample, hreads, by decide, hplain, hquiet, hend⟩, hcomment, hstray, hearly⟩

/-- The scan for an expression skips the comment, the scan for parentheses stops in it. -/
theorem closing_parenthesis_in_comment :
    findExpressionEnd "\x7b/*)*/\x7d" 0 = .ok ("/*)*/".length + 1) ∧
      ReadsScript [] strayComment ∧ scriptOf strayComment = "/*)*/".toList ∧
      (∀ piece ∈ strayComment, piece.isParenthesis = false) ∧
      findClosingParenthesis "(/*)*/)" 0 = .ok 3 := by
  decide +kernel

end ComponentBuilder.Markup.Scan
