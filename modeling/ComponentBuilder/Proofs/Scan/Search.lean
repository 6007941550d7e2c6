import ComponentBuilder.Proofs.Scan.Script

/-!
# Searching for the end of a construct

A search for the end of a tag, an expression, an element or parentheses finds a front of the text from its
beginning on, and whether a front is the one that is sought is a question about that front alone.  So a search
comes to the same place in a text and in any text that holds it, as long as what is sought ends inside.
-/

namespace ComponentBuilder.Markup.Scan

open Text

/-! ## Scans from the beginning of a text -/

theorem endsSelfClosing_append_leader {c : Char} (h : isMarkupLeader c = true) (seen rest : List Char) :
    endsSelfClosing (seen ++ c :: rest) = endsSelfClosing seen := by
  unfold endsSelfClosing
  rw [dropWhile_append_wall (isWall_of_isMarkupLeader h)]
  cases seen.dropWhile isBlank with
  | nil =>
      have hne : c ≠ '/' := by
        rintro rfl
        exact absurd h (by decide)
      simp [hne]
  | cons d kept =>
      by_cases hslash : d = '/'
      · subst hslash
        rfl
      · simp [hslash]

/-- A text reads after a leader as it does when it is the beginning. -/
theorem advance_append_leader {c : Char} (h : isMarkupLeader c = true) (frames : List Frame) (seen : List Char)
    (offset : Nat) (part ahead : List Char) :
    advance frames (seen ++ [c]) offset part ahead = advance frames seen offset part ahead := by
  induction part generalizing frames seen offset with
  | nil => rw [advance_nil, advance_nil]
  | cons d part ih =>
      cases frames with
      | nil => rfl
      | cons top outer =>
          have hstep : step top (seen ++ [c]) offset d (part ++ ahead) = step top seen offset d (part ++ ahead) :=
            step_congr rfl fun _ => ⟨admitsMarkup_append_leader h seen [], endsSelfClosing_append_leader h seen []⟩
          rw [advance_cons, advance_cons, hstep]
          exact ih _ (d :: seen) _

/-- A part at the beginning of a text that ends all its constructs does so at the beginning of any text. -/
theorem advance_beginning {frames frames' : List Frame} {part ahead : List Char} {offset : Nat}
    (hframes : frames.map Frame.placeless = frames'.map Frame.placeless)
    (h : advance frames [] offset part ahead = some []) (offset' : Nat) (ahead' : List Char) :
    advance frames' [] offset' part ahead' = some [] := by
  rw [← advance_append_leader (c := '(') (by decide)] at h ⊢
  exact advance_local_nil hframes (.inr (.of_wall (by decide) [] [])) h offset' ahead'

/-- A scan from the beginning of a text stops after the front that ends its construct. -/
theorem run_eq_ok_iff {top : Frame} {offset : Nat} {text : List Char} {cut : Cut} :
    run [top] [] offset text = .ok cut ↔
      text = cut.behind.reverse ++ cut.rest ∧
        advance [top.placeless] [] 0 cut.behind.reverse [] = some [] := by
  have hplaceless : [top].map Frame.placeless = [top.placeless].map Frame.placeless := by
    cases top <;> rfl
  constructor
  · intro h
    obtain ⟨part, htext, hbehind, hpart⟩ := advance_of_run h
    rw [List.append_nil] at hbehind
    rw [hbehind, List.reverse_reverse]
    exact ⟨htext, advance_beginning hplaceless hpart 0 []⟩
  · rintro ⟨htext, hpart⟩
    have hrun := run_eq_ok (advance_beginning hplaceless.symm hpart offset cut.rest)
    rw [List.reverse_reverse, List.append_nil] at hrun
    rw [htext, hrun]

/-- The front of a text that a scan for one construct reads, and what it leaves. -/
def front (top : Frame) (offset : Nat) (text : List Char) : Except ParseError (List Char × List Char) :=
  (run [top] [] offset text).map fun cut => (cut.behind.reverse, cut.rest)

theorem front_eq_ok_iff {top : Frame} {offset : Nat} {text found rest : List Char} :
    front top offset text = .ok (found, rest) ↔
      text = found ++ rest ∧ advance [top.placeless] [] 0 found [] = some [] := by
  unfold front
  constructor
  · intro h
    cases hrun : run [top] [] offset text with
    | error fault => simp [hrun, Except.map] at h
    | ok cut =>
        simp only [hrun, Except.map, Except.ok.injEq, Prod.mk.injEq] at h
        obtain ⟨rfl, rfl⟩ := h
        exact run_eq_ok_iff.1 hrun
  · rintro ⟨htext, hfound⟩
    have hrun : run [top] [] offset text = .ok ⟨found.reverse, rest⟩ := by
      rw [run_eq_ok_iff, List.reverse_reverse]
      exact ⟨htext, hfound⟩
    simp [hrun, Except.map]

theorem element_eq_front (offset : Nat) (text : List Char) :
    element offset text = front (.element 0 offset) offset text := by
  unfold element front
  cases run [.element 0 offset] [] offset text <;> rfl

theorem parentheses_eq_front (offset : Nat) (text : List Char) :
    parentheses offset text = front (.parentheses 0 offset) offset text := by
  unfold parentheses front
  cases run [.parentheses 0 offset] [] offset text <;> rfl

/-! ## The searches -/

/-- A search for the end of a construct. -/
inductive Search where
  | tag
  | expression
  | element
  | parentheses
deriving DecidableEq, Repr

namespace Search

/-- Where a search of a source from a place on ends. -/
def find : Search → String → Nat → Except ParseError Nat
  | tag => findTagEnd
  | expression => findExpressionEnd
  | element => skipElement
  | parentheses => findClosingParenthesis

/-- The place after what was found: the search for an element tells it, the others tell the place before. -/
def past : Search → Nat → Nat
  | element, place => place
  | tag, place | expression, place | parentheses, place => place + 1

/-- The text that a search finds at the beginning of a text, and the text after it. -/
def scan : Search → Nat → List Char → Except ParseError (List Char × List Char)
  | tag, offset, text => (Scan.tag offset text).map fun found => (found.1 ++ ['>'], found.2)
  | expression, offset, text => Scan.expression offset text
  | element, offset, text => Scan.element offset text
  | parentheses, offset, text => Scan.parentheses offset text

/-- The texts that a search finds. -/
def Reads : Search → List Char → Prop
  | tag, found => ∃ content, TagInside content ∧ found = content ++ ['>']
  | expression, found => IsExpression found
  | element, found => advance [.element 0 0] [] 0 found [] = some []
  | parentheses, found => advance [.parentheses 0 0] [] 0 found [] = some []

variable {search : Search}

theorem past_add (search : Search) (n place : Nat) : search.past (n + place) = n + search.past place := by
  cases search <;> rfl

theorem Reads.ne_nil {found : List Char} (h : search.Reads found) : found ≠ [] := by
  rintro rfl
  cases search with
  | tag =>
      obtain ⟨content, -, hfound⟩ := h
      simp at hfound
  | expression =>
      obtain ⟨inside, hfound⟩ := IsExpression.eq_cons h
      cases hfound
  | element | parentheses => simp [Reads] at h

theorem scan_tag_eq_ok_iff {offset : Nat} {text found rest : List Char} :
    tag.scan offset text = .ok (found, rest) ↔ text = found ++ rest ∧ tag.Reads found := by
  rw [scan]
  constructor
  · intro h
    cases hscan : Scan.tag offset text with
    | error fault => simp [hscan, Except.map] at h
    | ok result =>
        obtain ⟨content, after⟩ := result
        simp only [hscan, Except.map, Except.ok.injEq, Prod.mk.injEq] at h
        obtain ⟨rfl, rfl⟩ := h
        obtain ⟨hcontent, htext⟩ := tag_eq_ok_iff.1 hscan
        exact ⟨by simp [htext], content, hcontent, rfl⟩
  · rintro ⟨htext, content, hcontent, rfl⟩
    have hscan : Scan.tag offset text = .ok (content, rest) := tag_eq_ok_iff.2 ⟨hcontent, by simp [htext]⟩
    rw [hscan]
    rfl

theorem scan_eq_ok_iff {offset : Nat} {text found rest : List Char} :
    search.scan offset text = .ok (found, rest) ↔ text = found ++ rest ∧ search.Reads found := by
  cases search with
  | tag => exact scan_tag_eq_ok_iff
  | expression => exact expression_eq_ok_iff.trans and_comm
  | element =>
      rw [scan, element_eq_front]
      exact front_eq_ok_iff
  | parentheses =>
      rw [scan, parentheses_eq_front]
      exact front_eq_ok_iff

theorem find_eq_map (search : Search) (source : String) (start : Nat) :
    search.find source start = (search.scan start (source.toList.drop start)).map fun found =>
      if search = element then start + found.1.length else start + found.1.length - 1 := by
  cases search with
  | tag =>
      rw [find, findTagEnd, scan]
      cases Scan.tag start (source.toList.drop start) with
      | error fault => rfl
      | ok found => simp [Except.map, ← Nat.add_assoc]
  | expression | element | parentheses => rfl

/-- A search finds the front of the text from its beginning on that it reads. -/
theorem find_eq_ok_iff {source : String} {start place : Nat} :
    search.find source start = .ok place ↔
      ∃ found rest, source.toList.drop start = found ++ rest ∧ search.Reads found ∧
        search.past place = start + found.length := by
  have hpast {found : List Char} (hfound : search.Reads found) :
      (if search = element then start + found.length else start + found.length - 1) = place ↔
        search.past place = start + found.length := by
    have hpos := List.length_pos_iff.2 hfound.ne_nil
    cases search <;> simp [past] <;> omega
  rw [find_eq_map]
  constructor
  · intro h
    cases hscan : search.scan start (source.toList.drop start) with
    | error fault => simp [hscan, Except.map] at h
    | ok result =>
        obtain ⟨found, rest⟩ := result
        simp only [hscan, Except.map, Except.ok.injEq] at h
        obtain ⟨htext, hfound⟩ := scan_eq_ok_iff.1 hscan
        exact ⟨found, rest, htext, hfound, (hpast hfound).1 h⟩
  · rintro ⟨found, rest, htext, hfound, hplace⟩
    rw [scan_eq_ok_iff.2 ⟨htext, hfound⟩]
    simp only [Except.map, Except.ok.injEq]
    exact (hpast hfound).2 hplace

/-! ## A text inside of another one -/

theorem drop_append_append (before text after : List Char) {start : Nat} (h : start ≤ text.length) :
    (before ++ text ++ after).drop (before.length + start) = text.drop start ++ after := by
  rw [List.append_assoc, List.drop_append, List.drop_eq_nil_of_le (by omega), List.nil_append,
    Nat.add_sub_cancel_left, List.drop_append_of_le_length h]

/--
A search of a text comes to a place exactly when the search from there in a text that holds it comes to the
same place, and what it finds ends inside the text.
-/
theorem found_in_place (search : Search) (before text after : String) (start place : Nat) :
    search.find text start = .ok place ↔
      search.find (before ++ text ++ after) (before.length + start) = .ok (before.length + place) ∧
        search.past place ≤ text.length := by
  have hlist : (before ++ text ++ after).toList = before.toList ++ text.toList ++ after.toList := by simp
  rw [find_eq_ok_iff, find_eq_ok_iff, hlist, ← String.length_toList, ← String.length_toList, past_add]
  constructor
  · rintro ⟨found, rest, htext, hfound, hplace⟩
    have hlength := congrArg List.length htext
    have hpos := List.length_pos_iff.2 hfound.ne_nil
    rw [List.length_drop, List.length_append] at hlength
    refine ⟨⟨found, rest ++ after.toList, ?_, hfound, by omega⟩, by omega⟩
    rw [drop_append_append _ _ _ (by omega), htext, List.append_assoc]
  · rintro ⟨⟨found, rest, htext, hfound, hplace⟩, hinside⟩
    rw [drop_append_append _ _ _ (by omega)] at htext
    have hfront : found <+: text.toList.drop start := by
      refine List.prefix_of_prefix_length_le ⟨rest, htext.symm⟩ (List.prefix_append _ after.toList) ?_
      rw [List.length_drop]
      omega
    obtain ⟨rest', hrest⟩ := hfront
    exact ⟨found, rest', hrest.symm, hfound, by omega⟩

end Search

end ComponentBuilder.Markup.Scan
