import ComponentBuilder.Proofs.Text.Captures
import ComponentBuilder.Proofs.Text.Run

/-!
# Replacing matches

A pattern that looks at nothing behind it takes as much from a place as the text from there on says.
Replacing its matches by a word then goes through the text from left to right: the word where the pattern takes
something, and the character that is there where it does not.
-/

namespace ComponentBuilder.Text.Pattern

variable {p : Pattern} {size : List Char → Nat} {word : List Char}

/-- The pattern takes so many characters of a text, whatever is behind it, and does not match where that is
none. -/
def Measures (p : Pattern) (size : List Char → Nat) : Prop :=
  ∀ behind offset text, p.matchAt? ⟨behind, offset, text, []⟩ =
    if size text = 0 then none
    else some (after behind offset (text.take (size text)) (text.drop (size text)) [])

/-- The text with the word in place of what the pattern takes. -/
def substitute (size : List Char → Nat) (word : List Char) : List Char → List Char
  | [] => []
  | c :: rest =>
      if size (c :: rest) = 0 then c :: substitute size word rest
      else word ++ substitute size word (rest.drop (size (c :: rest) - 1))
termination_by text => text.length
decreasing_by
  · simp
  · simp only [List.length_drop, List.length_cons]
    omega

theorem substitute_cons_of_eq {c : Char} {rest : List Char} (h : size (c :: rest) = 0) :
    substitute size word (c :: rest) = c :: substitute size word rest := by
  rw [substitute, if_pos h]

theorem substitute_append {part rest : List Char} (hpart : part ≠ [])
    (h : size (part ++ rest) = part.length) :
    substitute size word (part ++ rest) = word ++ substitute size word rest := by
  cases part with
  | nil => exact absurd rfl hpart
  | cons c part =>
      rw [List.cons_append] at h ⊢
      rw [substitute, if_neg (by rw [h]; exact Nat.succ_ne_zero _), h, List.length_cons, Nat.add_sub_cancel,
        List.drop_left]

/-- Nothing is replaced where the pattern takes nothing. -/
theorem substitute_eq_self {text : List Char} (h : ∀ front back, text = front ++ back → size back = 0) :
    substitute size word text = text := by
  induction text with
  | nil => rw [substitute]
  | cons c rest ih =>
      rw [substitute_cons_of_eq (h [] (c :: rest) rfl),
        ih fun front back hsplit => h (c :: front) back (by rw [hsplit, List.cons_append])]

theorem cutFrom_skip (p : Pattern) (hits : List Hit) (behind : List Char) (offset : Nat)
    (part rest : List Char) :
    p.cutFrom part.length [] hits behind offset (part ++ rest) =
      p.cutFrom 0 [] hits (part.reverse ++ behind) (offset + part.length) rest := by
  induction part generalizing behind offset with
  | nil => rfl
  | cons c part ih =>
      rw [List.length_cons, List.cons_append, cutFrom, ih]
      simp [Nat.add_assoc, Nat.add_comm 1]

/-- Over a match the search moves to its end. -/
theorem cutFrom_of_match {c : Char} {behind part rest captured plain : List Char} {hits : List Hit} {offset : Nat}
    (h : p.matchAt? ⟨behind, offset, c :: (part ++ rest), []⟩ =
      some (after behind offset (c :: part) rest captured)) :
    p.cutFrom 0 plain hits behind offset (c :: (part ++ rest)) =
      p.cutFrom 0 [] (⟨plain.reverse, c :: part, captured⟩ :: hits) (part.reverse ++ c :: behind)
        (offset + 1 + part.length) rest := by
  have hoffset : offset + (c :: part).length - offset - 1 = part.length := by
    rw [List.length_cons]
    omega
  have htaken : (⟨behind, offset, c :: (part ++ rest), []⟩ : Spot).textTo
      (after behind offset (c :: part) rest captured) = c :: part := by
    simp [Spot.textTo, after]
  rw [cutFrom, h]
  dsimp only
  rw [htaken]
  dsimp only [after]
  rw [hoffset, cutFrom_skip]

/-- Where no match begins the search moves on. -/
theorem cutFrom_append_of_none {front rest behind plain : List Char} {hits : List Hit} {offset : Nat}
    (h : ∀ a c b, front = a ++ c :: b → ∀ behind offset,
      p.matchAt? ⟨behind, offset, c :: (b ++ rest), []⟩ = none) :
    p.cutFrom 0 plain hits behind offset (front ++ rest) =
      p.cutFrom 0 (front.reverse ++ plain) hits (front.reverse ++ behind) (offset + front.length) rest := by
  induction front generalizing behind plain offset with
  | nil => rfl
  | cons c front ih =>
      rw [List.cons_append, cutFrom, h [] c front rfl behind offset]
      dsimp only
      rw [ih fun a d b heq => h (c :: a) d b (by rw [heq, List.cons_append])]
      simp [Nat.add_assoc, Nat.add_comm 1]

/-- What the matches found so far and the plain text after them come to. -/
def pieced (word : List Char) (hits : List Hit) (plain : List Char) : List Char :=
  hits.flatMap (fun hit => hit.before ++ word) ++ plain

theorem pieced_cutFrom (h : p.Measures size) (text plain : List Char) (hits : List Hit)
    (behind : List Char) (offset : Nat) :
    pieced word (p.cutFrom 0 plain hits behind offset text).1 (p.cutFrom 0 plain hits behind offset text).2 =
      pieced word hits.reverse plain.reverse ++ substitute size word text := by
  -- By length and not by characters: after a match both go on behind all that it took.
  induction hlength : text.length using Nat.strong_induction_on generalizing text plain hits behind offset with
  | _ length ih =>
      subst hlength
      cases text with
      | nil =>
          rw [substitute, List.append_nil, cutFrom]
      | cons c rest =>
          have hmatch := h behind offset (c :: rest)
          by_cases hsize : size (c :: rest) = 0
          · rw [if_pos hsize] at hmatch
            rw [cutFrom, hmatch]
            dsimp only
            rw [ih rest.length (Nat.lt_succ_self _) rest _ _ _ _ rfl, substitute_cons_of_eq hsize]
            simp [pieced]
          · rw [if_neg hsize] at hmatch
            obtain ⟨more, hmore⟩ : ∃ more, size (c :: rest) = more + 1 := Nat.exists_eq_succ_of_ne_zero hsize
            have hsplit : rest.take more ++ rest.drop more = rest := List.take_append_drop more rest
            have hlater : (rest.drop more).length < (c :: rest).length := by
              rw [List.length_drop, List.length_cons]
              omega
            rw [hmore, List.take_succ_cons, List.drop_succ_cons] at hmatch
            rw [substitute, if_neg hsize, hmore, Nat.add_sub_cancel]
            generalize rest.take more = part at hsplit hmatch
            generalize rest.drop more = back at hsplit hmatch hlater ⊢
            obtain rfl := hsplit
            rw [cutFrom_of_match hmatch, ih back.length hlater back _ _ _ _ rfl]
            simp [pieced]

/-- Replacing the matches of a pattern substitutes what it takes. -/
theorem replace_eq_substitute (h : p.Measures size) (word text : List Char) :
    p.replace (fun _ => word) text = substitute size word text := by
  have hpieced := @pieced_cutFrom p size word h text [] [] [] 0
  rw [List.reverse_nil, List.reverse_nil] at hpieced
  exact hpieced

theorem occurs_iff_of_measures (h : p.Measures size) {text : List Char} :
    p.occurs text = true ↔ ∃ front back, text = front ++ back ∧ size back ≠ 0 := by
  have hfits (behind back : List Char) :
      (∃ part rest, back = part ++ rest ∧ p.Fits behind part rest) ↔ size back ≠ 0 := by
    rw [← @isSome_matchAt?_iff p behind back [] 0, h]
    split <;> simp_all
  rw [occurs, search?, isSome_searchFrom_iff]
  constructor
  · rintro ⟨front, part, rest, rfl, hpart⟩
    exact ⟨front, part ++ rest, rfl, (hfits _ _).1 ⟨part, rest, rfl, hpart⟩⟩
  · rintro ⟨front, back, rfl, hsize⟩
    obtain ⟨part, rest, rfl, hpart⟩ := (hfits (front.reverse ++ []) back).2 hsize
    exact ⟨front, part, rest, rfl, hpart⟩

end ComponentBuilder.Text.Pattern
