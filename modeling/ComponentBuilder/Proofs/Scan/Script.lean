import ComponentBuilder.Proofs.Scan.Construct

/-!
# Script text in pieces

Script text falls into characters, strings, comments, elements and braced expressions.  `ReadsScript` says
which pieces may stand in a row, each with the text behind and ahead of it, since an angle bracket opens an
element only where an operand may begin.  A text in braces is one expression exactly when the text between
the braces falls into such pieces.
-/

namespace ComponentBuilder.Markup.Scan

open Text

/-! ## Pieces -/

/-- A piece of script text. -/
inductive ScriptPiece where
  /-- A character that opens nothing. -/
  | plain (c : Char)
  | quoted (quote : Char) (value : List Char)
  /-- A comment that goes to the end of its line, the line feed included. -/
  | lineComment (body : List Char)
  | blockComment (body : List Char)
  /-- An element, from the character after its first angle bracket on. -/
  | element (part : List Char)
  | braced (source : List Char)
deriving DecidableEq

def ScriptPiece.text : ScriptPiece → List Char
  | plain c => [c]
  | quoted quote value => quote :: (value ++ [quote])
  | lineComment body => '/' :: '/' :: (body ++ ['\n'])
  | blockComment body => '/' :: '*' :: (body ++ ['*', '/'])
  | element part => '<' :: part
  | braced source => source

def ScriptPiece.isComment : ScriptPiece → Bool
  | lineComment _ | blockComment _ => true
  | _ => false

/-- The text of pieces in a row. -/
def scriptOf (pieces : List ScriptPiece) : List Char :=
  pieces.flatMap ScriptPiece.text

theorem scriptOf_cons (piece : ScriptPiece) (pieces : List ScriptPiece) :
    scriptOf (piece :: pieces) = piece.text ++ scriptOf pieces := rfl

theorem scriptOf_append (front back : List ScriptPiece) :
    scriptOf (front ++ back) = scriptOf front ++ scriptOf back :=
  List.flatMap_append

/-- Whether a character of script text opens a comment. -/
def opensComment (c : Char) (ahead : List Char) : Bool :=
  c == '/' && (ahead.head? == some '/' || ahead.head? == some '*')

/-- What a piece has to be in order to stand between two texts. -/
def ScriptPiece.Stands (behind ahead : List Char) : ScriptPiece → Prop
  | plain c => isQuote c = false ∧ c ≠ '\x7b' ∧ c ≠ '\x7d' ∧ opensMarkup behind c ahead = false ∧
      opensComment c ahead = false
  | quoted quote value => isQuote quote = true ∧ quote ∉ value
  | lineComment body => '\n' ∉ body
  | blockComment body => ¬['*', '/'] <:+: body ++ ['*']
  | element part => admitsMarkup behind = true ∧ opensTag part = true ∧ IsElement ('<' :: part)
  | braced source => IsExpression source

instance (behind ahead : List Char) : DecidablePred (ScriptPiece.Stands behind ahead)
  | .plain c => inferInstanceAs (Decidable (isQuote c = false ∧ c ≠ '\x7b' ∧ c ≠ '\x7d' ∧
      opensMarkup behind c ahead = false ∧ opensComment c ahead = false))
  | .quoted quote value => inferInstanceAs (Decidable (isQuote quote = true ∧ quote ∉ value))
  | .lineComment body => inferInstanceAs (Decidable ('\n' ∉ body))
  | .blockComment body => inferInstanceAs (Decidable (¬['*', '/'] <:+: body ++ ['*']))
  | .element part => inferInstanceAs (Decidable (admitsMarkup behind = true ∧ opensTag part = true ∧
      IsElement ('<' :: part)))
  | .braced source => inferInstanceAs (Decidable (IsExpression source))

/-- Pieces each of which may stand after the ones before it and before the ones after it. -/
def ReadsScript (behind : List Char) : List ScriptPiece → Prop
  | [] => True
  | piece :: pieces =>
      piece.Stands behind (scriptOf pieces) ∧ ReadsScript (piece.text.reverse ++ behind) pieces

instance decidableReadsScript (behind : List Char) :
    (pieces : List ScriptPiece) → Decidable (ReadsScript behind pieces)
  | [] => inferInstanceAs (Decidable True)
  | piece :: pieces =>
      have := decidableReadsScript (piece.text.reverse ++ behind) pieces
      inferInstanceAs (Decidable (piece.Stands behind (scriptOf pieces) ∧ ReadsScript _ pieces))

/-! ## Passing over pieces -/

/-- A construct whose text is script text: strings and elements open in it. -/
def IsScript (top : Frame) : Prop :=
  ∀ behind offset c ahead frame, opened? behind offset c ahead = some frame →
    step top behind offset c ahead = [frame, top]

theorem isScript_expression (depth opened : Nat) : IsScript (.expression depth opened) := by
  intro behind offset c ahead frame h
  rw [step_expression, h, Option.some_or]

theorem isScript_parentheses (depth : Int) (opened : Nat) : IsScript (.parentheses depth opened) := by
  intro behind offset c ahead frame h
  rw [step_parentheses, h]

theorem IsScript.advance_quoted {top : Frame} (htop : IsScript top) {quote : Char} {value : List Char}
    (h : isQuote quote = true ∧ quote ∉ value) (behind : List Char) (offset : Nat) (ahead : List Char) :
    advance [top] behind offset (ScriptPiece.quoted quote value).text ahead = some [top] := by
  have hopened : opened? behind offset quote (value ++ [quote] ++ ahead) = some (.quoted quote offset) :=
    if_pos h.1
  rw [ScriptPiece.text, advance_cons, htop _ _ _ _ _ hopened, List.append_nil]
  exact advance_outer (Scan.advance_quoted h.2 _ _ _ _) [top]

theorem IsScript.advance_element {top : Frame} (htop : IsScript top) {part behind ahead : List Char}
    (h : (ScriptPiece.element part).Stands behind ahead) (offset : Nat) :
    advance [top] behind offset (ScriptPiece.element part).text ahead = some [top] := by
  obtain ⟨hadmits, hopens, hends⟩ := h
  have hne : part ≠ [] := by
    rintro rfl
    simp [opensTag] at hopens
  obtain ⟨htag, hclosing⟩ := opensTag_append hne ahead
  have hopened : opened? behind offset '<' (part ++ ahead) =
      some (.elementTag 0 offset (opensClosingTag part) (offset + 1)) := by
    simp [opened?, opensMarkup, isQuote, grave, htag, hclosing, hopens, hadmits]
  rw [ScriptPiece.text, advance_cons, htop _ _ _ _ _ hopened, List.append_nil]
  exact advance_outer ((isElement_iff hopens _ _ _ _ _).1 hends) [top]

/-- A piece leaves the expression it stands in as it was. -/
theorem ScriptPiece.Stands.advance_expression {piece : ScriptPiece} {behind ahead : List Char}
    (h : piece.Stands behind ahead) (depth opened offset : Nat) :
    advance [.expression depth opened] behind offset piece.text ahead = some [.expression depth opened] := by
  cases piece with
  | plain c =>
      obtain ⟨hquote, hopen, hclose, hmarkup, hcomment⟩ := h
      have hnone : commentOpened? offset c ahead = none := by
        simp only [opensComment, Bool.and_eq_false_iff, Bool.or_eq_false_iff] at hcomment
        rcases hcomment with hslash | ⟨hline, hblock⟩
        · simp [commentOpened?, hslash]
        · simp [commentOpened?, hline, hblock]
      simp [ScriptPiece.text, step_expression, opened?, hquote, hmarkup, hnone, expressionStep, hopen, hclose]
  | quoted quote value => exact (isScript_expression depth opened).advance_quoted h behind offset ahead
  | lineComment body =>
      have hbody : '\n' ∉ body := h
      have hpart : '\n' ∉ '/' :: body := by simpa using hbody
      have hopened : (opened? behind offset '/' ('/' :: (body ++ ['\n']) ++ ahead)).or
          (commentOpened? offset '/' ('/' :: (body ++ ['\n']) ++ ahead)) = some .lineComment := rfl
      rw [ScriptPiece.text, advance_cons, step_expression, hopened, List.append_nil]
      exact advance_outer (endsAt_lineComment.advance_eq hpart _ _ _) [_]
  | blockComment body =>
      have hopened : (opened? behind offset '/' ('*' :: (body ++ ['*', '/']) ++ ahead)).or
          (commentOpened? offset '/' ('*' :: (body ++ ['*', '/']) ++ ahead)) =
            some (.blockComment .opening offset) := rfl
      rw [ScriptPiece.text, advance_cons, step_expression, hopened, List.append_nil, advance_cons]
      exact advance_outer (advance_blockComment h _ _ _ _) [_]
  | element part => exact (isScript_expression depth opened).advance_element h offset
  | braced source =>
      have hsource : IsExpression source := h
      obtain ⟨inside, rfl⟩ := hsource.eq_cons
      have hstep : step (.expression depth opened) behind offset '\x7b' (inside ++ ahead) =
          [.expression (depth + 1) opened] := rfl
      rw [ScriptPiece.text, advance_cons, hstep]
      exact hsource.advance_nested depth opened (offset + 1) behind ahead

/-! ## Surroundings -/

theorem isWall_of_isMarkupLeader {c : Char} (h : isMarkupLeader c = true) : isWall c = true := by
  simp only [isMarkupLeader, Bool.or_eq_true, beq_iff_eq] at h
  rcases h with ((((((((((rfl | rfl) | rfl) | rfl) | rfl) | rfl) | rfl) | rfl) | rfl) | rfl) | rfl) | rfl <;>
    decide

/-- After a leader markup may begin as at the beginning of a text. -/
theorem admitsMarkup_append_leader {c : Char} (h : isMarkupLeader c = true) (seen rest : List Char) :
    admitsMarkup (seen ++ c :: rest) = admitsMarkup seen := by
  have hwall := isWall_of_isMarkupLeader h
  have hword : c ∉ "nruter".toList := by
    simp only [isWall, Bool.and_eq_true, Bool.not_eq_true'] at hwall
    simpa using hwall.2
  unfold admitsMarkup
  rw [dropWhile_append_wall hwall]
  cases seen.dropWhile isBlank with
  | nil => simp [h]
  | cons d kept =>
      have hfirst := isPrefixOf_append_cons hword (d :: kept) rest
      simp only [List.cons_append] at hfirst ⊢
      rw [hfirst]

/-- A text before which script text reads as it does at the end. -/
def EndsScript (ahead : List Char) : Prop :=
  opensTag ahead = false ∧ opensComment '/' ahead = false

theorem endsScript_cons {c : Char} (hopens : opensTag [c] = false) (hcomment : opensComment '/' [c] = false)
    (rest : List Char) : EndsScript (c :: rest) :=
  ⟨hopens, hcomment⟩

theorem EndsScript.opensMarkup_eq {ahead : List Char} (h : EndsScript ahead) (behind : List Char) (c : Char)
    (next : List Char) : opensMarkup behind c (next ++ ahead) = opensMarkup behind c next := by
  cases next with
  | nil =>
      have hnone : opensTag [] = false := rfl
      rw [opensMarkup, opensMarkup, List.nil_append, h.1, hnone]
  | cons d next => rfl

theorem EndsScript.opensComment_eq {ahead : List Char} (h : EndsScript ahead) (c : Char) (next : List Char) :
    opensComment c (next ++ ahead) = opensComment c next := by
  cases next with
  | cons d next => rfl
  | nil =>
      by_cases hc : c = '/'
      · subst hc
        exact h.2
      · simp [opensComment, hc]

theorem ScriptPiece.stands_append_iff {behind seen next ahead : List Char} (hahead : EndsScript ahead)
    (hbehind : admitsMarkup behind = admitsMarkup seen) (piece : ScriptPiece) :
    piece.Stands behind (next ++ ahead) ↔ piece.Stands seen next := by
  cases piece with
  | plain c =>
      have hmarkup : opensMarkup behind c next = opensMarkup seen c next := by
        rw [opensMarkup, hbehind, opensMarkup]
      simp only [ScriptPiece.Stands, hahead.opensMarkup_eq, hahead.opensComment_eq, hmarkup]
  | element part => simp only [ScriptPiece.Stands, hbehind]
  | quoted | lineComment | blockComment | braced => rfl

theorem ScriptPiece.Stands.text_ne_nil {piece : ScriptPiece} {behind ahead : List Char}
    (h : piece.Stands behind ahead) : piece.text ≠ [] := by
  cases piece with
  | plain | quoted | lineComment | blockComment | element => exact List.cons_ne_nil _ _
  | braced source =>
      have hsource : IsExpression source := h
      obtain ⟨inside, rfl⟩ := hsource.eq_cons
      exact List.cons_ne_nil _ _

/-- A construct that each of the first pieces leaves as it was is left so by all of them. -/
theorem ReadsScript.advance_front {top : Frame} {seen behind ahead : List Char} {front back : List ScriptPiece}
    (h : ReadsScript seen (front ++ back))
    (hpasses : ∀ piece ∈ front, ∀ behind offset ahead, piece.Stands behind ahead →
      advance [top] behind offset piece.text ahead = some [top])
    (hbehind : ∀ part, admitsMarkup (part ++ behind) = admitsMarkup (part ++ seen))
    (hahead : EndsScript ahead) (offset : Nat) :
    advance [top] behind offset (scriptOf front) (scriptOf back ++ ahead) = some [top] := by
  induction front generalizing seen behind offset with
  | nil => rfl
  | cons piece front ih =>
      obtain ⟨hpiece, hrest⟩ := h
      have hstands := (piece.stands_append_iff hahead (hbehind [])).2 hpiece
      rw [List.append_eq, scriptOf_append, List.append_assoc] at hstands
      refine advance_trans (hpasses piece List.mem_cons_self behind offset _ hstands) (ih hrest ?_ ?_ _)
      · exact fun piece hpiece => hpasses piece (List.mem_cons_of_mem _ hpiece)
      · intro part
        simpa using hbehind (part ++ piece.text.reverse)

/-! ## Finding pieces -/

/-- What stands first in an expression that is ended: its closing brace, or a piece. -/
theorem exists_first_piece {opened offset : Nat} {c : Char} {behind rest ahead : List Char}
    (h : advance [.expression 0 opened] behind offset (c :: rest) ahead = some []) :
    (c = '\x7d' ∧ rest = []) ∨ ∃ (piece : ScriptPiece) (tail : List Char) (place : Nat),
      c :: rest = piece.text ++ tail ∧ piece.Stands behind (tail ++ ahead) ∧
      advance [.expression 0 opened] (piece.text.reverse ++ behind) place tail ahead = some [] := by
  rw [advance_cons, step_expression, List.append_nil] at h
  by_cases hquote : isQuote c = true
  · simp only [opened?, hquote, if_true, Option.some_or] at h
    obtain ⟨first, tail, rfl, hfirst, htail⟩ := @exists_split_of_advance [_] _ _ _ _ _ h
    obtain ⟨value, rfl, hvalue⟩ := (endsAt_quoted c offset).exists_value hfirst
    exact .inr ⟨.quoted c value, tail, _, rfl, ⟨hquote, hvalue⟩, by simpa [ScriptPiece.text] using htail⟩
  rw [Bool.not_eq_true] at hquote
  by_cases hmarkup : opensMarkup behind c (rest ++ ahead) = true
  · simp only [opened?, hquote, hmarkup, Bool.false_eq_true, if_false, if_true, Option.some_or] at h
    obtain ⟨first, tail, rfl, hfirst, htail⟩ := @exists_split_of_advance [_] _ _ _ _ _ h
    simp only [opensMarkup, Bool.and_eq_true, beq_iff_eq] at hmarkup
    obtain ⟨⟨rfl, hopens⟩, hadmits⟩ := hmarkup
    have hne : first ≠ [] := by
      rintro rfl
      simp at hfirst
    obtain ⟨htag, hclosing⟩ := opensTag_append hne (tail ++ ahead)
    rw [List.append_assoc] at hopens hfirst
    rw [htag] at hopens
    rw [hclosing] at hfirst
    have hends := (isElement_iff hopens _ _ _ _ _).2 hfirst
    exact .inr ⟨.element first, tail, _, rfl, ⟨hadmits, hopens, hends⟩,
      by simpa [ScriptPiece.text] using htail⟩
  rw [Bool.not_eq_true] at hmarkup
  simp only [opened?, hquote, hmarkup, Bool.false_eq_true, if_false, Option.none_or] at h
  by_cases hline : (c == '/' && (rest ++ ahead).head? == some '/') = true
  · simp only [commentOpened?, hline, if_true] at h
    obtain ⟨first, tail, rfl, hfirst, htail⟩ := @exists_split_of_advance [_] _ _ _ _ _ h
    obtain ⟨value, rfl, hvalue⟩ := endsAt_lineComment.exists_value hfirst
    simp only [Bool.and_eq_true, beq_iff_eq] at hline
    obtain ⟨rfl, hhead⟩ := hline
    cases value with
    | nil => simp at hhead
    | cons d body =>
        obtain rfl : d = '/' := by simpa using hhead
        exact .inr ⟨.lineComment body, tail, _, rfl, fun hmem => hvalue (List.mem_cons_of_mem _ hmem),
          by simpa [ScriptPiece.text] using htail⟩
  rw [Bool.not_eq_true] at hline
  by_cases hblock : (c == '/' && (rest ++ ahead).head? == some '*') = true
  · simp only [commentOpened?, hline, hblock, Bool.false_eq_true, if_false, if_true] at h
    obtain ⟨first, tail, rfl, hfirst, htail⟩ := @exists_split_of_advance [_] _ _ _ _ _ h
    simp only [Bool.and_eq_true, beq_iff_eq] at hblock
    obtain ⟨rfl, hhead⟩ := hblock
    cases first with
    | nil => simp at hfirst
    | cons d first =>
        obtain rfl : d = '*' := by simpa using hhead
        rw [advance_cons] at hfirst
        obtain ⟨body, rfl, hbody⟩ := exists_body_of_advance_blockComment hfirst
        exact .inr ⟨.blockComment body, tail, _, rfl, hbody, by simpa [ScriptPiece.text] using htail⟩
  rw [Bool.not_eq_true] at hblock
  simp only [commentOpened?, hline, hblock, Bool.false_eq_true, if_false, expressionStep] at h
  have hcomment : opensComment c (rest ++ ahead) = false := by
    rw [opensComment, Bool.and_or_distrib_left, hline, hblock]
    rfl
  split_ifs at h with hopen hclose
  · subst hopen
    obtain ⟨inside, tail, rfl, hinside, htail⟩ := exists_braced_of_advance h
    exact .inr ⟨.braced ('\x7b' :: inside), tail, _, rfl, hinside, by simpa [ScriptPiece.text] using htail⟩
  · subst hclose
    cases rest with
    | nil => exact .inl ⟨rfl, rfl⟩
    | cons d rest => cases h
  · exact .inr ⟨.plain c, rest, _, rfl, ⟨hquote, hopen, hclose, hmarkup, hcomment⟩, h⟩

/-- What stands in an expression up to its closing brace falls into pieces. -/
theorem exists_pieces_of_advance {opened offset : Nat} {seen behind part ahead : List Char}
    (h : advance [.expression 0 opened] behind offset part ahead = some [])
    (hbehind : ∀ front, admitsMarkup (front ++ behind) = admitsMarkup (front ++ seen)) :
    ∃ pieces, ReadsScript seen pieces ∧ part = scriptOf pieces ++ ['\x7d'] := by
  induction hn : part.length using Nat.strongRecOn generalizing seen behind offset part with
  | _ n ih =>
    cases part with
    | nil => simp at h
    | cons c rest =>
        rcases exists_first_piece h with ⟨rfl, rfl⟩ | ⟨piece, tail, place, hsplit, hstands, htail⟩
        · exact ⟨[], trivial, rfl⟩
        have hlength : tail.length < n := by
          have hsize := congrArg List.length hsplit
          have hpos := List.length_pos_iff.2 hstands.text_ne_nil
          simp only [List.length_append] at hsize
          omega
        have hrest (front : List Char) : admitsMarkup (front ++ (piece.text.reverse ++ behind)) =
            admitsMarkup (front ++ (piece.text.reverse ++ seen)) := by
          simpa using hbehind (front ++ piece.text.reverse)
        obtain ⟨pieces, hpieces, rfl⟩ := ih _ hlength htail hrest rfl
        have hends : EndsScript ('\x7d' :: ahead) := endsScript_cons (by decide) (by decide) ahead
        rw [List.append_assoc] at hstands
        refine ⟨piece :: pieces, ⟨(piece.stands_append_iff hends (hbehind [])).1 hstands, hpieces⟩, ?_⟩
        rw [hsplit, scriptOf_cons, List.append_assoc]

/-- A text is a braced expression exactly when it is a text in braces that falls into pieces. -/
theorem isExpression_iff {source : List Char} :
    IsExpression source ↔ ∃ pieces, ReadsScript [] pieces ∧ source = '\x7b' :: (scriptOf pieces ++ ['\x7d']) := by
  have hleader : isMarkupLeader '\x7b' = true := by decide
  have hbehind (behind front : List Char) :
      admitsMarkup (front ++ '\x7b' :: behind) = admitsMarkup (front ++ []) := by
    rw [admitsMarkup_append_leader hleader, List.append_nil]
  constructor
  · intro h
    obtain ⟨inside, rfl, -, hinside⟩ := expression_eq_ok h
    obtain ⟨pieces, hpieces, rfl⟩ := exists_pieces_of_advance hinside (hbehind [])
    exact ⟨pieces, hpieces, rfl⟩
  · rintro ⟨pieces, hpieces, rfl⟩
    have hends : EndsScript ['\x7d'] := endsScript_cons (by decide) (by decide) []
    rw [← List.append_nil pieces] at hpieces
    have hinside := @ReadsScript.advance_front (.expression 0 0) _ _ _ _ _ hpieces
      (fun piece _ behind offset ahead hstands => hstands.advance_expression 0 0 offset) (hbehind []) hends 1
    exact .of_advance (advance_trans hinside rfl)

end ComponentBuilder.Markup.Scan
