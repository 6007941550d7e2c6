import ComponentBuilder.Proofs.Guard.Locality

/-!
# Checks on patterns

Whether the findings of a pattern are local is read off the pattern: which characters it takes, what it looks
at behind it, and whether it begins by taking a character.
-/

namespace ComponentBuilder

open Text

namespace Text.Pattern

def avoids (c : Char) : Pattern → Bool
  | .one ok | .many _ ok | .few ok => !ok c
  | .seq first second | .either first second => first.avoids c && second.avoids c
  | .capture body => body.avoids c
  | .nothing | .edge | .lineStart | .ahead _ | .notBehind _ => true

/-- The pattern takes at least one character. -/
def takes : Pattern → Bool
  | .one _ => true
  | .many least _ => decide (0 < least)
  | .seq first second => first.takes || second.takes
  | .either first second => first.takes && second.takes
  | .capture body => body.takes
  | .nothing | .few _ | .edge | .lineStart | .ahead _ | .notBehind _ => false

/-- The pattern takes a character before it looks behind. -/
def blind : Pattern → Bool
  | .one _ => true
  | .seq first _ => first.blind
  | .capture body => body.blind
  | _ => false

/-- The pattern sees boundaries around it as it sees the ends of the text. -/
def contextual : Pattern → Bool
  | .seq first second | .either first second => first.contextual && second.contextual
  | .capture body => body.contextual
  | .notBehind ok => !ok '<' && !ok '>' && !ok '/' && !ok ' '
  | .lineStart | .ahead _ => false
  | .nothing | .one _ | .many _ _ | .few _ | .edge => true

theorem not_mem_of_avoids {p : Pattern} {c : Char} (h : p.avoids c = true)
    {behind part rest : List Char} (hfits : p.Fits behind part rest) : c ∉ part := by
  have hall {ok : Char → Bool} (hok : (!ok c) = true) {part : List Char}
      (hpart : ∀ d ∈ part, ok d = true) : c ∉ part := by
    intro hmem
    rw [hpart c hmem] at hok
    cases hok
  induction p generalizing behind part rest with
  | nothing | edge | lineStart | ahead | notBehind =>
      intro hmem
      simp only [Fits] at hfits
      simp_all
  | one ok =>
      obtain ⟨d, rfl, hd⟩ := hfits
      exact hall h (by simpa using hd)
  | many least ok => exact hall h hfits.2
  | few ok => exact hall h hfits
  | seq first second hfirst hsecond =>
      obtain ⟨a, b, rfl, ha, hb⟩ := hfits
      rw [avoids, Bool.and_eq_true] at h
      rw [List.mem_append, not_or]
      exact ⟨hfirst h.1 ha, hsecond h.2 hb⟩
  | either first second hfirst hsecond =>
      rw [avoids, Bool.and_eq_true] at h
      rcases hfits with hfits | hfits
      · exact hfirst h.1 hfits
      · exact hsecond h.2 hfits
  | capture body hbody => exact hbody h hfits

theorem ne_nil_of_takes {p : Pattern} (h : p.takes = true) {behind part rest : List Char}
    (hfits : p.Fits behind part rest) : part ≠ [] := by
  induction p generalizing behind part rest with
  | nothing | few | edge | lineStart | ahead | notBehind => cases h
  | one ok =>
      obtain ⟨d, rfl, -⟩ := hfits
      simp
  | many least ok =>
      have hleast : 0 < least := by simpa [takes] using h
      have hlength := hfits.1
      apply List.ne_nil_of_length_pos
      omega
  | seq first second hfirst hsecond =>
      obtain ⟨a, b, rfl, ha, hb⟩ := hfits
      rw [takes, Bool.or_eq_true] at h
      intro hnil
      obtain ⟨rfl, rfl⟩ := List.append_eq_nil_iff.1 hnil
      rcases h with h | h
      · exact hfirst h ha rfl
      · exact hsecond h hb rfl
  | either first second hfirst hsecond =>
      rw [takes, Bool.and_eq_true] at h
      rcases hfits with hfits | hfits
      · exact hfirst h.1 hfits
      · exact hsecond h.2 hfits
  | capture body hbody => exact hbody h hfits

open Guard

theorem isWord_eq_false_of_isBoundary {c : Char} (h : isBoundary c = true) : isWord c = false := by
  simp only [isBoundary, Bool.or_eq_true, beq_iff_eq] at h
  rcases h with ((rfl | rfl) | rfl) | rfl <;> decide

theorem any_eq_of_sameSide {ok : Char → Bool} (hok : ∀ c, isBoundary c = true → ok c = false)
    {text other : List Char} (h : SameSide text other) : text.head?.any ok = other.head?.any ok := by
  have hnone {text : List Char} (htext : text.head?.all isBoundary = true) :
      text.head?.any ok = false := by
    cases text with
    | nil => rfl
    | cons c text => exact hok c htext
  rcases h with h | ⟨htext, hother⟩
  · rw [h]
  · rw [hnone htext, hnone hother]

theorem eq_false_of_contextual {ok : Char → Bool} (h : (notBehind ok).contextual = true) (c : Char)
    (hc : isBoundary c = true) : ok c = false := by
  simp only [contextual, Bool.and_eq_true, Bool.not_eq_true'] at h
  simp only [isBoundary, Bool.or_eq_true, beq_iff_eq] at hc
  rcases hc with ((rfl | rfl) | rfl) | rfl
  · exact h.1.1.1
  · exact h.1.1.2
  · exact h.1.2
  · exact h.2

theorem fits_of_sameSide {p : Pattern} (h : p.contextual = true)
    {behind behind' part rest rest' : List Char} (hfits : p.Fits behind part rest)
    (hbehind : SameSide behind behind') (hrest : SameSide rest rest') : p.Fits behind' part rest' := by
  induction p generalizing behind behind' part rest rest' with
  | nothing | one | many | few => exact hfits
  | lineStart | ahead => cases h
  | seq first second hfirst hsecond =>
      obtain ⟨a, b, rfl, ha, hb⟩ := hfits
      rw [contextual, Bool.and_eq_true] at h
      exact ⟨a, b, rfl, hfirst h.1 ha hbehind (sameSide_append hrest b),
        hsecond h.2 hb (sameSide_append hbehind a.reverse) hrest⟩
  | either first second hfirst hsecond =>
      rw [contextual, Bool.and_eq_true] at h
      rcases hfits with hfits | hfits
      · exact .inl (hfirst h.1 hfits hbehind hrest)
      · exact .inr (hsecond h.2 hfits hbehind hrest)
  | capture body hbody => exact hbody h hfits hbehind hrest
  | edge =>
      have hword := fun c => @isWord_eq_false_of_isBoundary c
      obtain ⟨rfl, hedge⟩ := hfits
      refine ⟨rfl, ?_⟩
      rw [← any_eq_of_sameSide hword hbehind, ← any_eq_of_sameSide hword hrest, hedge]
  | notBehind ok =>
      have hok := eq_false_of_contextual h
      exact ⟨hfits.1, by rw [← any_eq_of_sameSide hok hbehind, hfits.2]⟩

theorem fits_of_blind {p : Pattern} (hblind : p.blind = true) (h : p.contextual = true)
    {behind part rest : List Char} (hfits : p.Fits behind part rest) (behind' : List Char) :
    part ≠ [] ∧ p.Fits behind' part rest := by
  induction p generalizing behind part rest with
  | nothing | many | few | either | edge | lineStart | ahead | notBehind => cases hblind
  | one ok =>
      obtain ⟨c, rfl, hc⟩ := hfits
      exact ⟨by simp, c, rfl, hc⟩
  | seq first second hfirst _ =>
      obtain ⟨a, b, rfl, ha, hb⟩ := hfits
      rw [contextual, Bool.and_eq_true] at h
      obtain ⟨hne, ha'⟩ := hfirst hblind h.1 ha
      refine ⟨by simp [hne], a, b, rfl, ha', fits_of_sameSide h.2 hb (.inl ?_) (.inl rfl)⟩
      rw [List.head?_append_of_ne_nil _ (by simpa using hne),
        List.head?_append_of_ne_nil _ (by simpa using hne)]
  | capture body hbody => exact hbody hblind h hfits

theorem local_of_avoids {p : Pattern} (htakes : p.takes = true) (hcontext : p.contextual = true)
    (hclose : p.avoids '>' = true) (hslash : p.avoids '/' = true) (hopen : p.avoids '<' = true) :
    Local p.Fits := by
  refine ⟨ne_nil_of_takes htakes, ?_, fits_of_sameSide hcontext, ?_⟩
  · intro behind part rest hfits
    exact ⟨not_mem_of_avoids hclose hfits, not_mem_of_avoids hslash hfits,
      fun hmem => not_mem_of_avoids hopen hfits (List.mem_of_mem_tail hmem)⟩
  · intro behind part rest behind' hfits
    exact absurd List.mem_cons_self (not_mem_of_avoids hopen hfits)

/-- A pattern that begins with one character, and takes no boundary after it. -/
theorem local_of_blind {p : Pattern} (htakes : p.takes = true) (hblind : p.blind = true)
    (hcontext : p.contextual = true) (hclose : p.avoids '>' = true) (hslash : p.avoids '/' = true)
    (htail : ∀ behind part rest, p.Fits behind part rest → '<' ∉ part.tail) : Local p.Fits := by
  refine ⟨ne_nil_of_takes htakes, ?_, fits_of_sameSide hcontext, ?_⟩
  · intro behind part rest hfits
    exact ⟨not_mem_of_avoids hclose hfits, not_mem_of_avoids hslash hfits, htail _ _ _ hfits⟩
  · intro behind part rest behind' hfits
    exact (fits_of_blind hblind hcontext hfits behind').2

end Text.Pattern

end ComponentBuilder
