import ComponentBuilder.Proofs.Markup.Readable

/-!
# Passing over an element

The scan passes over an element by counting: an opening tag adds one to the elements that are open, a
closing tag takes one away, and the names of the tags are not looked at.  Where the tags are nested as the
reader of fragments wants them, the count comes back at the end of the element and not before, so the scan
and the reader agree on where an element ends.
-/

namespace ComponentBuilder.Markup

open Text Scan

/-! ## Tags -/

/-- Whether a tag ends in a slash can be read off the text up to its end. -/
theorem endsSelfClosing_eq (content behind : List Char) :
    endsSelfClosing (content.reverse ++ '<' :: behind) = ((trimEnd content).getLast? == some '/') := by
  have hwall : isWall '<' = true := by decide
  unfold endsSelfClosing
  rw [dropWhile_append_wall hwall, trimEnd, List.getLast?_reverse]
  cases content.reverse.dropWhile isBlank with
  | nil => rfl
  | cons c rest =>
      by_cases hslash : c = '/'
      · subst hslash
        rfl
      · simp [hslash]

theorem Token.OpeningTag.selfClosing_eq {content : List Char} {tag : String} {attributes : Attributes}
    {selfClosing : Bool} (h : OpeningTag content tag attributes selfClosing) :
    ((trimEnd content).getLast? == some '/') = selfClosing := by
  cases h with
  | selfClosing hslash => simp [hslash]
  | pair hslash => simpa using hslash

/-- The constructs left when an element that was met in the text of another one has ended. -/
def afterElement (depth opened : Nat) : List Frame :=
  if depth = 0 then [] else [.element depth opened]

/-- The opening tag of an element, from its content on. -/
theorem advance_openingTag {content : List Char} {tag : String} {attributes : Attributes}
    {selfClosing : Bool} (h : Token.Opens content tag attributes selfClosing)
    (depth opened tagOpened offset : Nat) (behind ahead : List Char) :
    advance [.elementTag depth opened false tagOpened] ('<' :: behind) offset (content ++ ['>'])
      ahead =
      some (if selfClosing then afterElement depth opened else [.element (depth + 1) opened]) := by
  have hcontent := h.inside.advance_eq (readsTag_elementTag depth opened false tagOpened)
    ('<' :: behind) offset (['>'] ++ ahead)
  refine advance_trans hcontent ?_
  rw [advance_cons, advance_nil]
  simp only [step, afterElementTag, endsSelfClosing_eq, h.reads.selfClosing_eq, List.append_nil]
  rfl

/-- A closing tag, from its slash on. -/
theorem advance_closingTag {content : List Char} (h : TagInside content)
    (depth opened tagOpened offset : Nat) (behind ahead : List Char) :
    advance [.elementTag (depth + 1) opened true tagOpened] behind offset ('/' :: (content ++ ['>']))
      ahead = some (afterElement depth opened) := by
  have hinside : TagInside ('/' :: content) := .plain (by decide) (by decide) (by decide) h
  have hcontent := hinside.advance_eq (readsTag_elementTag (depth + 1) opened true tagOpened)
    behind offset (['>'] ++ ahead)
  refine advance_trans hcontent ?_
  rw [advance_cons, advance_nil]
  cases depth <;> rfl

/-! ## Elements -/

/-- A text that goes on, after an angle bracket, up to the end of one element. -/
structure EndsElement (part : List Char) : Prop where
  opens (ahead : List Char) : opensTag (part ++ ahead) = true
  notClosing (ahead : List Char) : opensClosingTag (part ++ ahead) = false
  passes (depth opened tagOpened offset : Nat) (behind ahead : List Char) :
    advance [.elementTag depth opened false tagOpened] ('<' :: behind) offset part ahead =
      some (afterElement depth opened)

/-- A text that leaves the scan in the same element, before texts that begin as `after` does. -/
def StaysInside (part after : List Char) : Prop :=
  ∀ (depth opened offset : Nat) (behind ahead : List Char), ahead.head? = after.head? →
    advance [.element (depth + 1) opened] behind offset part ahead = some [.element (depth + 1) opened]

theorem Token.Opens.endsElement {content : List Char} {tag : String} {attributes : Attributes}
    {selfClosing : Bool} (h : Token.Opens content tag attributes selfClosing) (rest : List Char)
    (hpasses : ∀ (depth opened tagOpened offset : Nat) (behind ahead : List Char),
      advance [.elementTag depth opened false tagOpened] ('<' :: behind) offset (content ++ '>' :: rest)
        ahead = some (afterElement depth opened)) :
    EndsElement (content ++ '>' :: rest) := by
  have hhead (ahead : List Char) :
      (content ++ '>' :: rest ++ ahead).head? = (content ++ ['>']).head? := by
    cases content <;> rfl
  refine ⟨fun ahead => by rw [opensTag_congr (hhead ahead), h.opens], fun ahead => ?_, hpasses⟩
  rw [opensClosingTag_congr (hhead ahead)]
  have hslash := h.slash
  cases content with
  | nil => rfl
  | cons c content =>
      have hc : c ≠ '/' := by simpa using hslash
      simp [opensClosingTag, hc]

theorem EndsElement.staysInside {part : List Char} (h : EndsElement part) (after : List Char) :
    StaysInside ('<' :: part) after := by
  intro depth opened offset behind ahead _
  rw [advance_cons]
  simp only [step, h.opens, h.notClosing]
  exact h.passes (depth + 1) opened (offset + 1) (offset + 1) behind ahead

theorem StaysInside.append {first second after : List Char} (hfirst : StaysInside first (second ++ after))
    (hsecond : StaysInside second after) : StaysInside (first ++ second) after := by
  intro depth opened offset behind ahead hahead
  have hhead : (second ++ ahead).head? = (second ++ after).head? := by
    cases second with
    | nil => exact hahead
    | cons c second => rfl
  exact advance_trans (hfirst depth opened offset behind _ hhead)
    (hsecond depth opened _ _ ahead hahead)

theorem StaysInside.expression {source : List Char} (h : IsExpression source) (after : List Char) :
    StaysInside source after :=
  fun _ _ offset behind ahead _ => advance_of_isExpression h (fun _ _ _ => rfl) behind offset ahead

theorem StaysInside.character {c : Char} {after : List Char} (hbrace : c ≠ '\x7b')
    (htag : c = '<' → opensTag after = false) : StaysInside [c] after := by
  intro depth opened offset behind ahead hahead
  have hb : (c == '\x7b') = false := by simpa using hbrace
  have hopens : (c == '<' && opensTag ahead) = false := by
    rw [opensTag_congr hahead]
    simpa using htag
  simp [step, hb, hopens]

mutual

/-- The scan and the reader agree on where an element ends. -/
theorem exists_endsElement {name : Nat → String} {n m : Nat} {tokens : List Token} {node : Node}
    (h : Element name n tokens node m) {offset : Nat} {text : List Char} {rest : List Token}
    (hcuts : Token.Cuts offset text (tokens ++ rest)) :
    ∃ part after end', text = '<' :: (part ++ after) ∧ Token.Cuts end' after rest ∧ EndsElement part := by
  -- The induction is on the nesting; the text is cut on the way, and what is left goes with the other tokens.
  match h with
  | .selfClosing =>
      obtain ⟨content, after, rfl, hopens, hafter⟩ := Token.exists_opens_of_cuts hcuts
      exact ⟨content ++ ['>'], after, _, by simp, hafter,
        hopens.endsElement [] (advance_openingTag hopens)⟩
  | @Element.pair _ _ _ _ tag attributes inner pieces hinner =>
      obtain ⟨content, middle, rfl, hopens, hmiddle⟩ := Token.exists_opens_of_cuts hcuts
      rw [List.append_eq, List.append_assoc] at hmiddle
      obtain ⟨part, last, _, rfl, hlast, hpart⟩ := exists_staysInside hinner hmiddle
      cases hlast with
      | @closing _ _ closing after _ hend hafter =>
          obtain ⟨hclosing, rfl⟩ := tag_eq_ok_iff.1 hend
          refine ⟨content ++ '>' :: (part ++ '<' :: '/' :: (closing ++ ['>'])), after, _, by simp, hafter,
            hopens.endsElement _ fun depth opened tagOpened offset behind ahead => ?_⟩
          have hopen := advance_openingTag hopens depth opened tagOpened offset behind
            (part ++ '<' :: '/' :: (closing ++ ['>']) ++ ahead)
          rw [List.append_cons]
          refine advance_trans hopen (advance_trans (hpart depth opened _ _ _ rfl) ?_)
          exact advance_closingTag hclosing depth opened _ _ _ ahead

/-- Texts and elements inside an element leave the scan in that element. -/
theorem exists_staysInside {name : Nat → String} {n m : Nat} {tokens : List Token} {pieces : List Child}
    (h : Content name n tokens pieces m) {offset : Nat} {text : List Char} {rest : List Token}
    (hcuts : Token.Cuts offset text (tokens ++ rest)) :
    ∃ part after end', text = part ++ after ∧ Token.Cuts end' after rest ∧ StaysInside part after := by
  match h with
  | .nil => exact ⟨[], text, offset, rfl, hcuts, fun _ _ _ _ _ _ => rfl⟩
  | @Content.text _ _ _ piece _ _ hrest =>
      cases hcuts with
      | expression hend hmore =>
          obtain ⟨hsource, htext⟩ := expression_eq_ok_iff.1 hend
          obtain ⟨part, after, end', rfl, hafter, hpart⟩ := exists_staysInside hrest hmore
          exact ⟨piece ++ part, after, end', by rw [htext, List.append_assoc], hafter,
            (StaysInside.expression hsource _).append hpart⟩
      | @character _ c _ _ hbrace htag hmore =>
          obtain ⟨part, after, end', rfl, hafter, hpart⟩ := exists_staysInside hrest hmore
          exact ⟨c :: part, after, end', rfl, hafter, (StaysInside.character hbrace htag).append hpart⟩
  | .element hfirst hrest =>
      rw [List.append_assoc] at hcuts
      obtain ⟨first, middle, _, rfl, hmiddle, hends⟩ := exists_endsElement hfirst hcuts
      obtain ⟨part, after, end', rfl, hafter, hpart⟩ := exists_staysInside hrest hmiddle
      exact ⟨'<' :: first ++ part, after, end', by simp, hafter, (hends.staysInside _).append hpart⟩

end

/-! ## One element in parentheses -/

/-- A text that is one element with nothing but blanks around it. -/
def IsLoneElement (text : List Char) : Prop :=
  ∃ front body back tokens root m, text = front ++ (body ++ back) ∧ (∀ c ∈ front, isBlank c = true) ∧
    (∀ c ∈ back, isBlank c = true) ∧ Token.Cuts front.length body tokens ∧
    Element Fragment.plainName 0 tokens root m

theorem advance_blanks {blanks : List Char} (h : ∀ c ∈ blanks, isBlank c = true) (depth : Int)
    (opened offset : Nat) (behind ahead : List Char) :
    advance [.parentheses depth opened] behind offset blanks ahead = some [.parentheses depth opened] := by
  induction blanks generalizing behind offset with
  | nil => rfl
  | cons c blanks ih =>
      have hc := h c List.mem_cons_self
      have hne (d : Char) (hd : isBlank d = false) : (c == d) = false :=
        beq_eq_false_iff_ne.2 (ne_of_passes hc hd)
      have hstep : step (.parentheses depth opened) behind offset c (blanks ++ ahead) =
          [.parentheses depth opened] := by
        simp [step, scriptOpening?, isQuote, grave, hne '"' rfl, hne '\'' rfl, hne '\x60' rfl,
          hne '<' rfl, hne '\x7b' rfl, hne '(' rfl, hne ')' rfl]
      rw [advance_cons, hstep]
      exact ih (fun d hd => h d (List.mem_cons_of_mem c hd)) _ _

/-- Markup may begin after a parenthesis and blanks. -/
theorem admitsMarkup_blanks {blanks : List Char} (h : ∀ c ∈ blanks, isBlank c = true)
    (behind : List Char) : admitsMarkup (blanks.reverse ++ '(' :: behind) = true := by
  have hskip : (blanks.reverse ++ '(' :: behind).dropWhile isBlank = '(' :: behind :=
    dropWhile_append_stops (by simpa using h) (stops_cons.2 rfl)
  rw [admitsMarkup, hskip]
  rfl

/-- The parentheses around one element end right after it. -/
theorem parentheses_of_isLoneElement {text : List Char} (h : IsLoneElement text) (offset : Nat)
    (rest : List Char) :
    parentheses offset ('(' :: (text ++ ')' :: rest)) = .ok ('(' :: (text ++ [')']), rest) := by
  obtain ⟨front, body, back, tokens, root, m, rfl, hfront, hback, hcuts, helement⟩ := h
  rw [← List.append_nil tokens] at hcuts
  obtain ⟨part, after, _, rfl, hafter, hends⟩ := exists_endsElement helement hcuts
  cases hafter
  rw [List.append_nil]
  have hopen (ahead : List Char) : advance [.parentheses 0 offset] [] offset ['('] ahead =
      some [.parentheses 1 offset] := rfl
  have hclose (behind : List Char) (place : Nat) :
      advance [.parentheses 1 offset] behind place [')'] rest = some [] := rfl
  have hbody (place : Nat) (ahead : List Char) : advance [.parentheses 1 offset] (front.reverse ++ ['('])
      place ('<' :: part) ahead = some [.parentheses 1 offset] := by
    have hquote : isQuote '<' = false := rfl
    rw [advance_cons]
    simp only [step, scriptOpening?, hquote, hends.opens, hends.notClosing, admitsMarkup_blanks hfront]
    exact advance_outer (hends.passes 0 place (place + 1) (place + 1) _ ahead) [.parentheses 1 offset]
  have hall : advance [.parentheses 0 offset] [] offset
      (['('] ++ (front ++ ('<' :: part ++ (back ++ [')'])))) rest = some [] :=
    advance_trans (hopen _) (advance_trans (advance_blanks hfront 1 offset _ _ _)
      (advance_trans (hbody _ _) (advance_trans (advance_blanks hback 1 offset _ _ _) (hclose _ _))))
  have htext : '(' :: (front ++ ('<' :: part ++ back) ++ ')' :: rest) =
      ['('] ++ (front ++ ('<' :: part ++ (back ++ [')']))) ++ rest := by
    simp
  rw [htext, parentheses, run_eq_ok hall]
  simp

end ComponentBuilder.Markup
