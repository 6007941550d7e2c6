import ComponentBuilder.Proofs.Text.Pattern

/-!
# Findings within a tag

A finding is local when it covers no end of a tag, no slash, and an angle bracket only as its first
character, and when it cannot tell the boundaries of tags around it from the ends of the text.  What is
found in a text is then found in one of the pieces that the angle brackets cut it into.
-/

namespace ComponentBuilder.Guard

open Text

/-- The brackets of tags, and what the writer puts between the parts of a tag. -/
def isBoundary (c : Char) : Bool :=
  c == '<' || c == '>' || c == '/' || c == ' '

/-- Texts that begin alike, or both with a boundary or not at all. -/
def SameSide (text other : List Char) : Prop :=
  text.head? = other.head? ∨ (text.head?.all isBoundary = true ∧ other.head?.all isBoundary = true)

theorem sameSide_append {text other : List Char} (h : SameSide text other) (front : List Char) :
    SameSide (front ++ text) (front ++ other) := by
  cases front with
  | nil => exact h
  | cons c front => exact .inl rfl

/-- A kind of finding, told by what is behind it in reverse, what it covers, and what follows it. -/
abbrev Finding := List Char → List Char → List Char → Prop

/-- Whether something of a kind is found in a text. -/
def Found (find : Finding) (text : List Char) : Prop :=
  ∃ a part rest, text = a ++ (part ++ rest) ∧ find a.reverse part rest

/-- Findings that do not reach over the boundaries of tags. -/
structure Local (find : Finding) : Prop where
  nonempty {behind part rest : List Char} : find behind part rest → part ≠ []
  plain {behind part rest : List Char} :
    find behind part rest → '>' ∉ part ∧ '/' ∉ part ∧ '<' ∉ part.tail
  context {behind behind' part rest rest' : List Char} : find behind part rest →
    SameSide behind behind' → SameSide rest rest' → find behind' part rest'
  opening {behind part rest : List Char} (behind' : List Char) :
    find behind ('<' :: part) rest → find behind' ('<' :: part) rest

namespace Local

variable {find : Finding}

/-- What is found in a text is found between boundaries around it. -/
theorem found_within (h : Local find) {text : List Char} (hfound : Found find text)
    {front back : List Char} (hfront : front.getLast?.all isBoundary = true)
    (hback : back.head?.all isBoundary = true) : Found find (front ++ (text ++ back)) := by
  obtain ⟨a, part, rest, rfl, hfind⟩ := hfound
  refine ⟨front ++ a, part, rest ++ back, by simp only [List.append_assoc], ?_⟩
  refine h.context hfind ?_ ?_
  · rw [List.reverse_append]
    have hside : SameSide [] front.reverse := .inr ⟨rfl, by rwa [List.head?_reverse]⟩
    simpa using sameSide_append hside a.reverse
  · have hside : SameSide [] back := .inr ⟨rfl, hback⟩
    simpa using sameSide_append hside rest

/-- The part of a text in front of a boundary holds what is found before the boundary. -/
theorem found_front (h : Local find) {a part rest back : List Char}
    (hfind : find a.reverse part (rest ++ back)) (hback : back.head?.all isBoundary = true) :
    Found find (a ++ (part ++ rest)) := by
  refine ⟨a, part, rest, rfl, h.context hfind (.inl rfl) ?_⟩
  have hside : SameSide back [] := .inr ⟨hback, rfl⟩
  simpa using sameSide_append hside rest

theorem found_append_opening (h : Local find) (front back : List Char) :
    Found find (front ++ '<' :: back) ↔ Found find front ∨ Found find ('<' :: back) := by
  constructor
  · rintro ⟨a, part, rest, htext, hfind⟩
    rcases List.append_eq_append_iff.1 htext with ⟨more, rfl, hmore⟩ | ⟨more, rfl, hmore⟩
    · right
      cases more with
      | nil =>
          have hne := h.nonempty hfind
          cases part with
          | nil => exact absurd rfl hne
          | cons c part =>
              obtain rfl : '<' = c := (List.cons.inj hmore).1
              exact ⟨[], '<' :: part, rest, hmore, h.opening _ hfind⟩
      | cons c more =>
          refine ⟨c :: more, part, rest, hmore, h.context hfind (.inl ?_) (.inl rfl)⟩
          simp
    · rcases List.append_eq_append_iff.1 hmore with ⟨inner, rfl, rfl⟩ | ⟨inner, rfl, hinner⟩
      · exact .inl (h.found_front hfind rfl)
      · cases inner with
        | nil =>
            obtain rfl : '<' :: back = rest := hinner
            left
            simpa using @found_front _ h a more [] ('<' :: back) (by simpa using hfind) rfl
        | cons c inner =>
            obtain ⟨rfl, rfl⟩ := List.cons.inj hinner
            have htail := (h.plain hfind).2.2
            cases more with
            | cons d more => simp at htail
            | nil => exact .inr ⟨[], '<' :: inner, rest, rfl, h.opening _ hfind⟩
  · rintro (hfound | ⟨a, part, rest, htext, hfind⟩)
    · exact @found_within _ h _ hfound [] ('<' :: back) rfl rfl
    · refine ⟨front ++ a, part, rest, by rw [htext, List.append_assoc], ?_⟩
      cases a with
      | nil =>
          have hne := h.nonempty hfind
          cases part with
          | nil => exact absurd rfl hne
          | cons c part =>
              obtain rfl : '<' = c := (List.cons.inj htext).1
              exact h.opening _ hfind
      | cons c a =>
          refine h.context hfind (.inl ?_) (.inl rfl)
          simp

theorem found_append_closing (h : Local find) {c : Char} (hc : c = '>' ∨ c = '/')
    (front back : List Char) :
    Found find (front ++ c :: back) ↔ Found find front ∨ Found find back := by
  have hboundary : isBoundary c = true := by
    rcases hc with rfl | rfl <;> decide
  constructor
  · rintro ⟨a, part, rest, htext, hfind⟩
    have hnot : c ∉ part := by
      rcases hc with rfl | rfl
      · exact (h.plain hfind).1
      · exact (h.plain hfind).2.1
    rcases List.append_eq_append_iff.1 htext with ⟨more, rfl, hmore⟩ | ⟨more, rfl, hmore⟩
    · right
      cases more with
      | nil =>
          have hne := h.nonempty hfind
          cases part with
          | nil => exact absurd rfl hne
          | cons d part =>
              obtain rfl : c = d := (List.cons.inj hmore).1
              simp at hnot
      | cons d more =>
          obtain ⟨rfl, rfl⟩ := List.cons.inj hmore
          refine ⟨more, part, rest, rfl, h.context hfind ?_ (.inl rfl)⟩
          have hside : SameSide (c :: front.reverse) [] := .inr ⟨hboundary, rfl⟩
          simpa using sameSide_append hside more.reverse
    · rcases List.append_eq_append_iff.1 hmore with ⟨inner, rfl, rfl⟩ | ⟨inner, rfl, hinner⟩
      · exact .inl (h.found_front hfind hboundary)
      · cases inner with
        | nil =>
            obtain rfl : c :: back = rest := hinner
            left
            simpa using @found_front _ h a more [] (c :: back) (by simpa using hfind) hboundary
        | cons d inner =>
            obtain ⟨rfl, -⟩ := List.cons.inj hinner
            simp at hnot
  · rintro (hfound | hfound)
    · exact @found_within _ h _ hfound [] (c :: back) rfl hboundary
    · have hmore := @found_within _ h _ hfound (front ++ [c]) [] (by simpa using hboundary) rfl
      simpa using hmore

end Local

end ComponentBuilder.Guard
