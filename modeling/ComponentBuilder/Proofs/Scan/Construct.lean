import ComponentBuilder.Proofs.Scan.Advance
import ComponentBuilder.Proofs.Text.Span

/-!
# Constructs as texts

Whether a text is a braced expression, an element, a comment or the inside of a tag is a question about that
text alone.  The scans for them split a text at exactly such a front, and every scan that meets such a text
passes over it as a whole.
-/

namespace ComponentBuilder.Markup.Scan

open Text

/-! ## Steps of script text -/

/-- Whether a character of script text opens an element. -/
def opensMarkup (behind : List Char) (c : Char) (ahead : List Char) : Bool :=
  c == '<' && opensTag ahead && admitsMarkup behind

/-- The construct that a character of script text opens, comments aside. -/
def opened? (behind : List Char) (offset : Nat) (c : Char) (ahead : List Char) : Option Frame :=
  if isQuote c then some (.quoted c offset)
  else if opensMarkup behind c ahead then
    some (.elementTag 0 offset (opensClosingTag ahead) (offset + 1))
  else none

/-- The comment that a character opens. -/
def commentOpened? (offset : Nat) (c : Char) (ahead : List Char) : Option Frame :=
  if c == '/' && ahead.head? == some '/' then some .lineComment
  else if c == '/' && ahead.head? == some '*' then some (.blockComment .opening offset)
  else none

theorem scriptOpening?_eq (top : Frame) (behind : List Char) (offset : Nat) (c : Char) (ahead : List Char) :
    scriptOpening? top behind offset c ahead =
      (opened? behind offset c ahead).map fun frame => [frame, top] := by
  unfold scriptOpening? opened? opensMarkup
  split_ifs <;> rfl

/-- What an expression makes of a character that opens nothing. -/
def expressionStep (depth opened : Nat) (c : Char) : List Frame :=
  if c = '\x7b' then [.expression (depth + 1) opened]
  else if c = '\x7d' then
    match depth with
    | 0 => []
    | depth + 1 => [.expression depth opened]
  else [.expression depth opened]

/-- A step of an expression asks its depth only at a brace. -/
theorem step_expression (depth opened : Nat) (behind : List Char) (offset : Nat) (c : Char)
    (ahead : List Char) :
    step (.expression depth opened) behind offset c ahead =
      match (opened? behind offset c ahead).or (commentOpened? offset c ahead) with
      | some frame => [frame, .expression depth opened]
      | none => expressionStep depth opened c := by
  simp only [step, scriptOpening?_eq, commentOpened?, expressionStep, beq_iff_eq]
  cases opened? behind offset c ahead with
  | some frame => rfl
  | none =>
      simp only [Option.map_none, Option.none_or]
      split_ifs <;> rfl

theorem step_parentheses (depth : Int) (opened : Nat) (behind : List Char) (offset : Nat) (c : Char)
    (ahead : List Char) :
    step (.parentheses depth opened) behind offset c ahead =
      match opened? behind offset c ahead with
      | some frame => [frame, .parentheses depth opened]
      | none =>
          if c = '\x7b' then [.expression 0 offset, .parentheses depth opened]
          else if c = '(' then [.parentheses (depth + 1) opened]
          else if c = ')' then if depth - 1 = 0 then [] else [.parentheses (depth - 1) opened]
          else [.parentheses depth opened] := by
  simp only [step, scriptOpening?_eq, beq_iff_eq]
  cases opened? behind offset c ahead <;> rfl

/-! ## Braced expressions -/

/-- A text that is one braced expression, braces included. -/
def IsExpression (source : List Char) : Prop :=
  expression 0 source = .ok (source, [])

instance : DecidablePred IsExpression := fun text =>
  inferInstanceAs (Decidable (expression 0 text = .ok (text, [])))

/-- What the scan for an expression found ends the expression. -/
theorem expression_eq_ok {offset : Nat} {text source rest : List Char}
    (h : expression offset text = .ok (source, rest)) :
    ∃ inside, source = '\x7b' :: inside ∧ text = source ++ rest ∧
      advance [.expression 0 offset] ['\x7b'] (offset + 1) inside rest = some [] := by
  unfold expression at h
  split at h
  · next inside =>
      cases hrun : run [.expression 0 offset] ['\x7b'] (offset + 1) inside with
      | error e => simp [hrun] at h
      | ok cut =>
          simp only [hrun, Except.ok.injEq, Prod.mk.injEq] at h
          obtain ⟨part, htext, hbehind, hpart⟩ := advance_of_run hrun
          have hsource : source = '\x7b' :: part := by
            rw [← h.1, hbehind]
            simp
          exact ⟨part, hsource, by rw [hsource, htext, h.2]; rfl, h.2 ▸ hpart⟩
  · simp at h

theorem IsExpression.of_advance {inside ahead behind : List Char} {opened offset : Nat}
    (h : advance [.expression 0 opened] ('\x7b' :: behind) offset inside ahead = some []) :
    IsExpression ('\x7b' :: inside) := by
  have hframes : [Frame.expression 0 opened].map Frame.placeless =
      [Frame.expression 0 0].map Frame.placeless := rfl
  have hshelter : Sheltered [.expression 0 opened] ('\x7b' :: behind) ['\x7b'] :=
    .inr (.of_wall (by decide) behind [])
  have hlocal : advance [.expression 0 0] ['\x7b'] 1 inside [] = some [] :=
    advance_local_nil hframes hshelter h 1 []
  have hrun := run_eq_ok hlocal
  rw [List.append_nil] at hrun
  simp [IsExpression, expression, hrun]

/-- A braced expression is passed over in any place. -/
theorem IsExpression.advance_eq {inside : List Char} (h : IsExpression ('\x7b' :: inside))
    (opened offset : Nat) (behind ahead : List Char) :
    advance [.expression 0 opened] ('\x7b' :: behind) offset inside ahead = some [] := by
  obtain ⟨inside', heq, -, hadvance⟩ := expression_eq_ok h
  cases heq
  have hframes : [Frame.expression 0 0].map Frame.placeless =
      [Frame.expression 0 opened].map Frame.placeless := rfl
  have hshelter : Sheltered [.expression 0 0] ['\x7b'] ('\x7b' :: behind) :=
    .inr (.of_wall (by decide) [] behind)
  exact advance_local_nil hframes hshelter hadvance offset ahead

/-- The scan for an expression takes exactly a braced expression off the front of a text. -/
theorem expression_eq_ok_iff {offset : Nat} {text source rest : List Char} :
    expression offset text = .ok (source, rest) ↔ IsExpression source ∧ text = source ++ rest := by
  constructor
  · intro h
    obtain ⟨inside, rfl, htext, hadvance⟩ := expression_eq_ok h
    exact ⟨.of_advance hadvance, htext⟩
  · rintro ⟨hsource, rfl⟩
    obtain ⟨inside, rfl, -, -⟩ := expression_eq_ok hsource
    have hrun := run_eq_ok (hsource.advance_eq offset (offset + 1) [] rest)
    simp [expression, hrun]

theorem IsExpression.eq_cons {source : List Char} (h : IsExpression source) :
    ∃ inside, source = '\x7b' :: inside := by
  obtain ⟨inside, heq, -⟩ := expression_eq_ok h
  exact ⟨inside, heq⟩

/-- The end of the expression that a text begins with is that of its only front that is an expression. -/
theorem findExpressionEnd_eq_ok_iff {source : String} {last : Nat} :
    findExpressionEnd source 0 = .ok last ↔
      ∃ found rest, IsExpression found ∧ source.toList = found ++ rest ∧ found.length = last + 1 := by
  unfold findExpressionEnd
  rw [List.drop_zero]
  constructor
  · intro h
    cases hscan : expression 0 source.toList with
    | error e => simp [hscan, Except.map] at h
    | ok result =>
        obtain ⟨found, rest⟩ := result
        obtain ⟨hfound, hsource⟩ := expression_eq_ok_iff.1 hscan
        obtain ⟨inside, hcons⟩ := hfound.eq_cons
        refine ⟨found, rest, hfound, hsource, ?_⟩
        simp only [hscan, Except.map, Except.ok.injEq] at h
        rw [← h, hcons]
        simp
  · rintro ⟨found, rest, hfound, hsource, hlength⟩
    rw [expression_eq_ok_iff.2 ⟨hfound, hsource⟩]
    simp only [Except.map, Except.ok.injEq]
    omega

/-- A construct that takes a brace for the beginning of an expression passes over expressions. -/
theorem advance_of_isExpression {top : Frame} {source : List Char} (h : IsExpression source)
    (htop : ∀ behind offset ahead, step top behind offset '\x7b' ahead = [.expression 0 offset, top])
    (behind : List Char) (offset : Nat) (ahead : List Char) :
    advance [top] behind offset source ahead = some [top] := by
  obtain ⟨inside, rfl⟩ := h.eq_cons
  rw [advance_cons, htop]
  exact advance_outer (h.advance_eq offset (offset + 1) behind ahead) [top]

/-- A braced expression ends in a brace. -/
theorem IsExpression.getLast?_eq {source : List Char} (h : IsExpression source) :
    source.getLast? = some '\x7d' := by
  obtain ⟨inside, rfl, -, hadvance⟩ := expression_eq_ok h
  rw [List.getLast?_cons, getLast?_of_advance [] rfl hadvance]
  rfl

/-! ## Nested braces -/

/-- Stacks that differ in how they keep the braces open inside an expression: in its depth, or in an expression
of its own. -/
inductive Nested (depth opened inner : Nat) : List Frame → List Frame → Prop
  | open (frames : List Frame) (more : Nat) : Nested depth opened inner
      (frames ++ [.expression (more + (depth + 1)) opened])
      (frames ++ [.expression more inner, .expression depth opened])
  | closed (frames : List Frame) : Nested depth opened inner frames frames

/-- Both ways of keeping the braces read alike. -/
theorem Nested.advance {depth opened inner : Nat} {frames frames' : List Frame}
    (h : Nested depth opened inner frames frames') (behind : List Char) (offset : Nat)
    (part ahead : List Char) :
    Option.Rel (Nested depth opened inner) (advance frames behind offset part ahead)
      (advance frames' behind offset part ahead) := by
  induction part generalizing frames frames' behind offset with
  | nil =>
      rw [advance_nil, advance_nil]
      exact .some h
  | cons c part ih =>
      cases h with
      | closed frames =>
          cases frames with
          | nil => exact .none
          | cons top outer => exact ih (.closed _) _ _
      | «open» frames more =>
          cases frames with
          | cons top outer =>
              rw [List.cons_append, List.cons_append, advance_cons, advance_cons, ← List.append_assoc,
                ← List.append_assoc]
              exact ih (.open _ more) _ _
          | nil =>
              rw [List.nil_append, List.nil_append, advance_cons, advance_cons, step_expression,
                step_expression]
              cases (opened? behind offset c (part ++ ahead)).or (commentOpened? offset c (part ++ ahead)) with
              | some frame => exact ih (.open [frame] more) _ _
              | none =>
                  unfold expressionStep
                  split_ifs
                  · have hopen := ih (@Nested.open depth opened inner [] (more + 1)) (c :: behind) (offset + 1)
                    rwa [show more + 1 + (depth + 1) = more + (depth + 1) + 1 by omega] at hopen
                  · cases more with
                    | zero =>
                        rw [Nat.zero_add]
                        exact ih (.closed _) _ _
                    | succ more =>
                        rw [show more + 1 + (depth + 1) = more + (depth + 1) + 1 by omega]
                        exact ih (.open [] more) _ _
                  · exact ih (.open [] more) _ _

theorem Nested.eq_of_length {depth opened inner : Nat} {frames frames' : List Frame}
    (h : Nested depth opened inner frames frames') (hlength : frames = [] ∨ frames'.length ≤ 1) :
    frames = frames' := by
  cases h with
  | closed => rfl
  | «open» frames more =>
      rcases hlength with hnil | hshort
      · simp at hnil
      · simp at hshort

/-- A braced expression inside an expression leaves the depth as it was. -/
theorem IsExpression.advance_nested {inside : List Char} (h : IsExpression ('\x7b' :: inside))
    (depth opened offset : Nat) (behind ahead : List Char) :
    advance [.expression (depth + 1) opened] ('\x7b' :: behind) offset inside ahead =
      some [.expression depth opened] := by
  have hnested := (@Nested.open depth opened offset [] 0).advance
    ('\x7b' :: behind) offset inside ahead
  have hinside := advance_outer (h.advance_eq offset offset behind ahead) [.expression depth opened]
  rw [Nat.zero_add, List.nil_append, List.nil_append] at hnested
  rw [List.singleton_append, List.nil_append] at hinside
  rw [hinside] at hnested
  generalize advance [.expression (depth + 1) opened] ('\x7b' :: behind) offset inside ahead = last
    at hnested
  cases hnested with
  | some hlast => rw [hlast.eq_of_length (.inr le_rfl)]

/-- The first brace open inside an expression is closed by a braced expression. -/
theorem exists_braced_of_advance {depth opened offset : Nat} {behind part ahead : List Char}
    (h : advance [.expression (depth + 1) opened] ('\x7b' :: behind) offset part ahead = some []) :
    ∃ inside rest, part = inside ++ rest ∧ IsExpression ('\x7b' :: inside) ∧
      advance [.expression depth opened] (inside.reverse ++ '\x7b' :: behind) (offset + inside.length)
        rest ahead = some [] := by
  have hnested := (@Nested.open depth opened offset [] 0).advance
    ('\x7b' :: behind) offset part ahead
  rw [Nat.zero_add, List.nil_append, List.nil_append, h] at hnested
  generalize hlast : advance [.expression 0 offset, .expression depth opened] ('\x7b' :: behind) offset part
    ahead = last at hnested
  cases hnested with
  | some hend =>
      rw [← hend.eq_of_length (.inl rfl)] at hlast
      obtain ⟨inside, rest, hpart, hinside, hrest⟩ :=
        @exists_split_of_advance [.expression 0 offset] _ _ _ _ _ hlast
      exact ⟨inside, rest, hpart, .of_advance hinside, hrest⟩

/-! ## Strings and comments -/

/-- A construct that ends at the first character `last`. -/
def EndsAt (top : Frame) (last : Char) : Prop :=
  ∀ behind offset c ahead, step top behind offset c ahead = if c == last then [] else [top]

theorem endsAt_quoted (quote : Char) (opened : Nat) : EndsAt (.quoted quote opened) quote :=
  fun _ _ _ _ => rfl

theorem EndsAt.advance_eq {top : Frame} {last : Char} (h : EndsAt top last) {value : List Char}
    (hvalue : last ∉ value) (behind : List Char) (offset : Nat) (ahead : List Char) :
    advance [top] behind offset (value ++ [last]) ahead = some [] := by
  induction value generalizing behind offset with
  | nil => simp [h behind offset]
  | cons c value ih =>
      simp only [List.mem_cons, not_or] at hvalue
      have hne : (c == last) = false := by simpa using Ne.symm hvalue.1
      simp only [List.cons_append, advance_cons, h behind offset, hne, List.append_nil, Bool.false_eq_true,
        if_false]
      exact ih hvalue.2 _ _

/-- What the scan read when it got past such a construct. -/
theorem EndsAt.exists_value {top : Frame} {last : Char} (h : EndsAt top last) {offset : Nat}
    {behind part ahead : List Char} (hpart : advance [top] behind offset part ahead = some []) :
    ∃ value, part = value ++ [last] ∧ last ∉ value := by
  induction part generalizing behind offset with
  | nil => simp at hpart
  | cons c part ih =>
      rw [advance_cons, h behind offset] at hpart
      by_cases hc : c = last
      · subst hc
        cases part with
        | nil => exact ⟨[], rfl, by simp⟩
        | cons d part => simp [advance] at hpart
      · simp only [beq_iff_eq, hc, if_false, List.append_nil] at hpart
        obtain ⟨value, rfl, hvalue⟩ := ih hpart
        exact ⟨c :: value, rfl, by simp [hvalue, Ne.symm hc]⟩

/-- A string ends at the next quote like the one that opened it. -/
theorem advance_quoted {quote : Char} {value : List Char} (h : quote ∉ value) (opened : Nat)
    (behind : List Char) (offset : Nat) (ahead : List Char) :
    advance [.quoted quote opened] behind offset (value ++ [quote]) ahead = some [] :=
  (endsAt_quoted quote opened).advance_eq h behind offset ahead

theorem endsAt_lineComment : EndsAt .lineComment '\n' :=
  fun _ _ _ _ => rfl

/-- A block comment ends at its first star before a slash. -/
theorem advance_blockComment {body : List Char} (h : ¬['*', '/'] <:+: body ++ ['*']) (opened : Nat)
    (behind : List Char) (offset : Nat) (ahead : List Char) :
    advance [.blockComment .body opened] behind offset (body ++ ['*', '/']) ahead = some [] := by
  induction body generalizing behind offset with
  | nil => rfl
  | cons c body ih =>
      have hgoes : (c == '*' && (body ++ ['*', '/'] ++ ahead).head? == some '/') = false := by
        by_contra hends
        simp only [Bool.not_eq_false, Bool.and_eq_true, beq_iff_eq] at hends
        obtain ⟨rfl, hslash⟩ := hends
        cases body with
        | nil => simp at hslash
        | cons d body =>
            obtain rfl : d = '/' := by simpa using hslash
            exact h ⟨[], body ++ ['*'], rfl⟩
      have hrest := ih (fun hinner => h (hinner.trans (List.suffix_cons c _).isInfix)) (c :: behind) (offset + 1)
      simp only [List.cons_append, advance_cons, step, hgoes, Bool.false_eq_true, if_false]
      exact hrest

theorem exists_body_of_advance_blockComment {opened offset : Nat} {behind part ahead : List Char}
    (h : advance [.blockComment .body opened] behind offset part ahead = some []) :
    ∃ body, part = body ++ ['*', '/'] ∧ ¬['*', '/'] <:+: body ++ ['*'] := by
  induction part generalizing behind offset with
  | nil => simp at h
  | cons c part ih =>
      rw [advance_cons, List.append_nil] at h
      by_cases hends : (c == '*' && (part ++ ahead).head? == some '/') = true
      · simp only [step, hends, if_true] at h
        simp only [Bool.and_eq_true, beq_iff_eq] at hends
        obtain ⟨rfl, hslash⟩ := hends
        cases part with
        | nil => simp at h
        | cons d part =>
            obtain rfl : d = '/' := by simpa using hslash
            cases part with
            | nil => exact ⟨[], rfl, by decide⟩
            | cons e part => cases h
      · simp only [step, hends, Bool.false_eq_true, if_false] at h
        obtain ⟨body, rfl, hbody⟩ := ih h
        refine ⟨c :: body, rfl, fun hinner => ?_⟩
        rw [List.cons_append, List.infix_cons_iff] at hinner
        refine hinner.elim (fun hfirst => hends ?_) hbody
        obtain ⟨rfl, hslash⟩ : '*' = c ∧ ['/'] <+: body ++ ['*'] := List.cons_prefix_cons.1 hfirst
        cases body with
        | nil => exact absurd hslash (by decide)
        | cons d body =>
            obtain ⟨rfl, -⟩ := List.cons_prefix_cons.1 hslash
            rfl

/-! ## Elements -/

/-- A text that is one element. -/
def IsElement (text : List Char) : Prop :=
  element 0 text = .ok (text, [])

instance : DecidablePred IsElement := fun text =>
  inferInstanceAs (Decidable (element 0 text = .ok (text, [])))

theorem head?_append_of_ne_nil {part : List Char} (h : part ≠ []) (ahead : List Char) :
    (part ++ ahead).head? = part.head? := by
  cases part with
  | nil => exact absurd rfl h
  | cons c part => rfl

/-- The beginning of a tag can be seen without what follows it. -/
theorem opensTag_append {part : List Char} (h : part ≠ []) (ahead : List Char) :
    opensTag (part ++ ahead) = opensTag part ∧ opensClosingTag (part ++ ahead) = opensClosingTag part :=
  have hhead := head?_append_of_ne_nil h ahead
  ⟨opensTag_congr hhead, opensClosingTag_congr hhead⟩

theorem isElement_iff {part : List Char} (hopens : opensTag part = true) (opened tagOpened offset : Nat)
    (behind ahead : List Char) :
    IsElement ('<' :: part) ↔
      advance [.elementTag 0 opened (opensClosingTag part) tagOpened] ('<' :: behind) offset part ahead =
        some [] := by
  have hne : part ≠ [] := by
    rintro rfl
    simp [opensTag] at hopens
  have hframes : [Frame.elementTag 0 0 (opensClosingTag part) 1].map Frame.placeless =
      [Frame.elementTag 0 opened (opensClosingTag part) tagOpened].map Frame.placeless := rfl
  have hshelter (behind behind' : List Char) (frames : List Frame) :
      Sheltered frames ('<' :: behind) ('<' :: behind') := .inr (.of_wall (by decide) _ _)
  have hfirst : step (.element 0 0) [] 0 '<' part = [.elementTag 0 0 (opensClosingTag part) 1] := by
    simp [step, hopens]
  constructor
  · intro h
    have hrun : ∃ cut, run [.element 0 0] [] 0 ('<' :: part) = .ok cut ∧ cut.rest = [] := by
      unfold IsElement element at h
      cases hrun : run [.element 0 0] [] 0 ('<' :: part) with
      | error e => simp [hrun] at h
      | ok cut => exact ⟨cut, rfl, by simp_all⟩
    obtain ⟨cut, hrun, hrest⟩ := hrun
    obtain ⟨whole, hwhole, -, hadvance⟩ := advance_of_run hrun
    rw [hrest, List.append_nil] at hwhole
    rw [← hwhole, hrest, advance_cons, List.append_nil, List.append_nil, hfirst] at hadvance
    exact advance_local_nil hframes (hshelter _ _ _) hadvance offset ahead
  · intro h
    have hlocal := advance_local_nil hframes.symm (hshelter behind [] _) h 1 []
    have hadvance : advance [.element 0 0] [] 0 ('<' :: part) [] = some [] := by
      rw [advance_cons, List.append_nil, List.append_nil, hfirst]
      exact hlocal
    have hrun := run_eq_ok hadvance
    rw [List.append_nil] at hrun
    simp [IsElement, element, hrun]

/-! ## Insides of tags -/

/-- What may stand in a tag before the angle bracket that closes it. -/
inductive TagInside : List Char → Prop
  | nil : TagInside []
  | plain {c : Char} {rest : List Char} (hquote : isTagQuote c = false) (hbrace : c ≠ '\x7b')
      (hangle : c ≠ '>') (hrest : TagInside rest) : TagInside (c :: rest)
  | quoted {quote : Char} {value rest : List Char} (hquote : isTagQuote quote = true)
      (hvalue : quote ∉ value) (hrest : TagInside rest) :
      TagInside (quote :: (value ++ quote :: rest))
  | braced {source rest : List Char} (hsource : IsExpression source) (hrest : TagInside rest) :
      TagInside (source ++ rest)

theorem eq_false_of_isTagQuote {keep : Char → Bool} {c : Char} (hdouble : keep '"' = false)
    (hsingle : keep '\'' = false) (h : isTagQuote c = true) : keep c = false := by
  simp only [isTagQuote, Bool.or_eq_true, beq_iff_eq] at h
  rcases h with rfl | rfl
  · exact hdouble
  · exact hsingle

theorem isTagQuote_eq_false_of_class {keep : Char → Bool} {c : Char} (hdouble : keep '"' = false)
    (hsingle : keep '\'' = false) (hc : keep c = true) : isTagQuote c = false := by
  by_contra hquote
  rw [Bool.not_eq_false] at hquote
  rw [eq_false_of_isTagQuote hdouble hsingle hquote] at hc
  cases hc

/-- A text of characters none of which is a quote, a brace or an angle bracket. -/
theorem tagInside_of_class {keep : Char → Bool} (hdouble : keep '"' = false) (hsingle : keep '\'' = false)
    (hbrace : keep '\x7b' = false) (hangle : keep '>' = false) {text : List Char}
    (h : ∀ c ∈ text, keep c = true) : TagInside text := by
  induction text with
  | nil => exact .nil
  | cons c text ih =>
      obtain ⟨hc, htext⟩ := List.forall_mem_cons.1 h
      exact .plain (isTagQuote_eq_false_of_class hdouble hsingle hc) (ne_of_passes hc hbrace)
        (ne_of_passes hc hangle) (ih htext)

/-- A construct that reads the inside of a tag as a tag does. -/
def ReadsTag (top : Frame) : Prop :=
  ∀ behind offset c ahead, c ≠ '>' → step top behind offset c ahead =
    if isTagQuote c then [.quoted c offset, top]
    else if c == '\x7b' then [.expression 0 offset, top] else [top]

theorem readsTag_tag (opened : Nat) : ReadsTag (.tag opened) := by
  intro behind offset c ahead hangle
  simp [step, hangle]

theorem readsTag_elementTag (depth opened : Nat) (closing : Bool) (tagOpened : Nat) :
    ReadsTag (.elementTag depth opened closing tagOpened) := by
  intro behind offset c ahead hangle
  simp [step, hangle]

theorem ReadsTag.step_brace {top : Frame} (h : ReadsTag top) (behind : List Char) (offset : Nat)
    (ahead : List Char) : step top behind offset '\x7b' ahead = [.expression 0 offset, top] := by
  rw [h _ _ _ _ (by decide)]
  rfl

/-- The inside of a tag leaves the tag open. -/
theorem TagInside.advance_eq {content : List Char} (h : TagInside content) {top : Frame}
    (htop : ReadsTag top) (behind : List Char) (offset : Nat) (ahead : List Char) :
    advance [top] behind offset content ahead = some [top] := by
  induction h generalizing behind offset with
  | nil => rfl
  | @plain c rest hquote hbrace hangle _ ih =>
      rw [advance_cons, htop _ _ _ _ hangle]
      simpa [hquote, hbrace] using ih (c :: behind) (offset + 1)
  | @quoted quote value rest hquote hvalue _ ih =>
      have hangle : quote ≠ '>' := by
        rintro rfl
        exact absurd hquote (by decide)
      rw [advance_cons, htop _ _ _ _ hangle]
      simp only [hquote, if_true, List.append_nil]
      have hstring := advance_outer (advance_quoted hvalue offset (quote :: behind) (offset + 1)
        (rest ++ ahead)) [top]
      have hall := advance_trans hstring (ih _ _)
      rw [List.append_assoc] at hall
      exact hall
  | braced hsource _ ih =>
      exact advance_trans (advance_of_isExpression hsource htop.step_brace behind offset _) (ih _ _)

/-- A tag that the scan gets past ends in an angle bracket after the inside of a tag. -/
theorem tagInside_of_run {opened offset : Nat} {behind text : List Char} {cut : Cut}
    (h : run [.tag opened] behind offset text = .ok cut) :
    ∃ content, TagInside content ∧ text = content ++ '>' :: cut.rest ∧
      cut.behind = '>' :: (content.reverse ++ behind) := by
  induction hn : text.length using Nat.strongRecOn generalizing behind offset text with
  | _ n ih =>
    cases text with
    | nil => simp [run] at h
    | cons c text =>
        simp only [run, step] at h
        simp only [List.length_cons] at hn
        split_ifs at h with hquote hbrace hangle
        · obtain ⟨part, rest, rfl, hpart, hrest⟩ := @advance_of_run_append [_] _ _ _ _ _ h
          obtain ⟨value, rfl, hvalue⟩ := (endsAt_quoted c offset).exists_value hpart
          have hlength : rest.length < n := by
            simp only [List.length_append, List.length_cons] at hn
            omega
          obtain ⟨content, hcontent, rfl, hbehind⟩ := ih _ hlength hrest rfl
          exact ⟨c :: (value ++ c :: content), .quoted hquote hvalue hcontent, by simp,
            by simp [hbehind]⟩
        · obtain ⟨part, rest, rfl, hpart, hrest⟩ := @advance_of_run_append [_] _ _ _ _ _ h
          have hc : c = '\x7b' := by simpa using hbrace
          subst hc
          have hlength : rest.length < n := by
            simp only [List.length_append] at hn
            omega
          obtain ⟨content, hcontent, rfl, hbehind⟩ := ih _ hlength hrest rfl
          exact ⟨'\x7b' :: part ++ content, .braced (.of_advance hpart) hcontent, by simp,
            by simp [hbehind]⟩
        · have hc : c = '>' := by simpa using hangle
          subst hc
          rw [List.nil_append, run_nil, Except.ok.injEq] at h
          subst h
          exact ⟨[], .nil, rfl, rfl⟩
        · obtain ⟨content, hcontent, rfl, hbehind⟩ := ih _ (by omega) h rfl
          exact ⟨c :: content, .plain (by simpa using hquote) (by simpa using hbrace)
            (by simpa using hangle) hcontent, rfl, by simp [hbehind]⟩

/-- The scan for a tag's end cuts a text after the inside of a tag. -/
theorem tag_eq_ok_iff {offset : Nat} {text content rest : List Char} :
    tag offset text = .ok (content, rest) ↔ TagInside content ∧ text = content ++ '>' :: rest := by
  constructor
  · intro h
    unfold tag at h
    cases hrun : run [.tag offset] [] offset text with
    | error e => simp [hrun] at h
    | ok cut =>
        simp only [hrun, Except.ok.injEq, Prod.mk.injEq] at h
        obtain ⟨content', hcontent, htext, hbehind⟩ := tagInside_of_run hrun
        have heq : content = content' := by
          rw [← h.1, hbehind]
          simp
        subst heq
        exact ⟨hcontent, by rw [htext, h.2]⟩
  · rintro ⟨hcontent, rfl⟩
    have hopen := hcontent.advance_eq (readsTag_tag offset) [] offset (['>'] ++ rest)
    have hclose : advance [.tag offset] (content.reverse ++ []) (offset + content.length) ['>'] rest =
        some [] := by
      simp [step, isTagQuote]
    have hrun := run_eq_ok (advance_trans hopen hclose)
    rw [List.append_assoc] at hrun
    simp only [List.singleton_append] at hrun
    simp [tag, hrun]

end ComponentBuilder.Markup.Scan
