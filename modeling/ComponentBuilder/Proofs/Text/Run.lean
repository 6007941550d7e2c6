import ComponentBuilder.Proofs.Text.Pattern
import ComponentBuilder.Proofs.Text.Span

/-!
# Running patterns

Mapping what is answered maps what a run answers, and a run over a word or a run of characters that goes on
well takes all of it.
-/

namespace ComponentBuilder.Text.Pattern

variable {α β : Type}

/-! ## Mapping what is answered -/

theorem retreat_map (f : α → β) (k : Spot → Option α) (extra : Nat) (spot : Spot) :
    retreat (fun s => (k s).map f) extra spot = (retreat k extra spot).map f := by
  induction extra generalizing spot with
  | zero => rfl
  | succ extra ih =>
      rw [retreat, retreat]
      cases k spot with
      | some result => rfl
      | none => exact ih spot.back

theorem creep_map (f : α → β) (ok : Char → Bool) (k : Spot → Option α) (captured behind : List Char)
    (offset : Nat) (text : List Char) :
    creep ok (fun s => (k s).map f) captured behind offset text =
      (creep ok k captured behind offset text).map f := by
  induction text generalizing behind offset with
  | nil => rfl
  | cons c text ih =>
      rw [creep, creep]
      cases k ⟨behind, offset, c :: text, captured⟩ with
      | some result => rfl
      | none =>
          dsimp only [Option.map_none]
          by_cases hc : ok c = true
          · rw [if_pos hc, if_pos hc, ih]
          · rw [if_neg hc, if_neg hc, Option.map_none]

theorem run_map (p : Pattern) (f : α → β) (k : Spot → Option α) (spot : Spot) :
    p.run (fun s => (k s).map f) spot = (p.run k spot).map f := by
  induction p generalizing α β spot with
  | nothing => rfl
  | one ok | edge | lineStart | ahead body | notBehind ok =>
      unfold run
      split <;> rfl
  | many least ok =>
      unfold run
      dsimp only
      split
      · exact retreat_map f k _ _
      · rfl
  | few ok => exact creep_map f ok k _ _ _ _
  | seq first second hfirst hsecond =>
      rw [run, run, ← hfirst]
      congr 1
      funext middle
      exact hsecond f k middle
  | either first second hfirst hsecond =>
      rw [run, run, hfirst, hsecond]
      cases first.run k spot with
      | some result => rfl
      | none => rfl
  | capture body hbody =>
      rw [run, run]
      exact hbody f (fun last => k { last with captured := spot.textTo last }) spot

/-! ## Words and runs of characters -/

theorem run_append (first second : Pattern) (k : Spot → Option α) (spot : Spot) :
    (first ++ second).run k spot = first.run (fun middle => second.run k middle) spot := rfl

variable {k : Spot → Option α}

theorem run_one {ok : Char → Bool} {c : Char} (hc : ok c = true) (behind rest captured : List Char)
    (offset : Nat) :
    (one ok).run k ⟨behind, offset, c :: rest, captured⟩ = k ⟨c :: behind, offset + 1, rest, captured⟩ := by
  rw [run, List.head?_cons, Option.any_some, if_pos hc]
  rfl

theorem run_capture (body : Pattern) (spot : Spot) :
    (capture body).run k spot = body.run (fun last => k { last with captured := spot.textTo last }) spot := rfl

theorem run_chars (word : List Char) (behind rest captured : List Char) (offset : Nat) :
    (chars word).run k ⟨behind, offset, word ++ rest, captured⟩ =
      k (after behind offset word rest captured) := by
  induction word generalizing behind offset with
  | nil => rfl
  | cons c word ih =>
      cases word with
      | nil => simp [chars, run, Spot.next, after]
      | cons d word =>
          rw [chars, run, run, List.cons_append, List.head?_cons, Option.any_some, beq_self_eq_true, if_pos rfl,
            ← after_cons]
          · exact ih (c :: behind) (offset + 1)
          · simp

/-- A run of characters is taken whole when what follows it goes on well. -/
theorem run_many {least : Nat} {ok : Char → Bool} {behind part rest captured : List Char} {offset : Nat}
    {result : α} (hleast : least ≤ part.length) (hpart : ∀ c ∈ part, ok c = true) (hrest : Stops ok rest)
    (hk : k (after behind offset part rest captured) = some result) :
    (many least ok).run k ⟨behind, offset, part ++ rest, captured⟩ = some result := by
  unfold run
  simp only [Spot.skipWhile, skipFrom_eq, Nat.zero_add]
  rw [takeWhile_append_stops hpart hrest, dropWhile_append_stops hpart hrest, if_pos hleast]
  cases part.length - least with
  | zero => exact hk
  | succ extra => rw [retreat, hk]

theorem creep_append {ok : Char → Bool} {behind part rest captured : List Char} {offset : Nat}
    {result : α} (hpart : ∀ c ∈ part, ok c = true)
    (hnone : ∀ a b, part = a ++ b → b ≠ [] → k (after behind offset a (b ++ rest) captured) = none)
    (hk : k (after behind offset part rest captured) = some result) :
    creep ok k captured behind offset (part ++ rest) = some result := by
  induction part generalizing behind offset with
  | nil =>
      have hhere : k ⟨behind, offset, rest, captured⟩ = some result := hk
      cases rest with
      | nil => exact hhere
      | cons c rest => rw [List.nil_append, creep, hhere]
  | cons c part ih =>
      have hhere : k ⟨behind, offset, c :: (part ++ rest), captured⟩ = none :=
        hnone [] (c :: part) rfl (by simp)
      rw [List.cons_append, creep, hhere]
      dsimp only
      rw [if_pos (hpart c List.mem_cons_self)]
      apply ih (fun d hd => hpart d (List.mem_cons_of_mem c hd))
      · intro a b hsplit hb
        have hlater := hnone (c :: a) b (by rw [hsplit, List.cons_append]) hb
        rwa [after_cons]
      · rwa [after_cons]

/-- A run of as few characters as possible stops at the first place from where what follows goes on well. -/
theorem creep_eq_some_first {ok : Char → Bool} {behind text captured : List Char} {offset : Nat} {result : α}
    (h : creep ok k captured behind offset text = some result) :
    ∃ part rest, text = part ++ rest ∧ k (after behind offset part rest captured) = some result ∧
      ∀ front c back, part = front ++ c :: back →
        k (after behind offset front (c :: (back ++ rest)) captured) = none := by
  induction text generalizing behind offset with
  | nil => exact ⟨[], [], rfl, h, by simp⟩
  | cons c text ih =>
      rw [creep] at h
      cases hhere : k ⟨behind, offset, c :: text, captured⟩ with
      | some first =>
          rw [hhere] at h
          exact ⟨[], c :: text, rfl, hhere.trans h, by simp⟩
      | none =>
          rw [hhere] at h
          by_cases hc : ok c = true
          · simp only [hc, if_true] at h
            obtain ⟨part, rest, rfl, hresult, hfirst⟩ := ih h
            refine ⟨c :: part, rest, rfl, by rwa [← after_cons], ?_⟩
            rintro front d back hpart
            cases front with
            | nil =>
                obtain ⟨rfl, rfl⟩ := List.cons.inj hpart
                exact hhere
            | cons e front =>
                obtain ⟨rfl, hsplit⟩ := List.cons.inj hpart
                rw [← after_cons]
                exact hfirst front d back hsplit
          · simp [hc] at h

/-! ## Captures -/

theorem textTo_after (behind part rest rest' captured captured' : List Char) (offset : Nat) :
    Spot.textTo ⟨behind, offset, part ++ rest, captured⟩ (after behind offset part rest' captured') =
      part := by
  simp [Spot.textTo, after]

/-- A name is taken up to the first character that no name has. -/
theorem run_capture_name {behind rest : List Char} {offset : Nat} {c : Char} {more captured : List Char}
    (hc : isNameStart c = true) (hmore : ∀ d ∈ more, isNameRest d = true) (hrest : Stops isNameRest rest) :
    (capture name).run some ⟨behind, offset, c :: (more ++ rest), captured⟩ =
      some (after behind offset (c :: more) rest (c :: more)) := by
  have hname : name = .one isNameStart ++ .many 0 isNameRest := rfl
  have htext : Spot.textTo ⟨behind, offset, c :: (more ++ rest), captured⟩
      (after behind offset (c :: more) rest captured) = c :: more :=
    textTo_after behind (c :: more) rest rest captured captured offset
  rw [run_capture, hname, run_append, run_one hc]
  apply run_many (Nat.zero_le _) hmore hrest
  rw [after_cons, htext]
  rfl

end ComponentBuilder.Text.Pattern
