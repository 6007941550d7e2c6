import ComponentBuilder.Text.Pattern
import Mathlib.Data.List.TakeWhile
import Mathlib.Tactic

/-!
# What patterns match

`Fits` tells which texts a pattern matches between the text behind it and the text ahead of it, with no
order among the choices and nothing captured.  A search succeeds exactly when some part of the text fits.
-/

namespace ComponentBuilder.Text.Pattern

/-- The pattern matches `part`, with `behind` in reverse before it and `rest` after it. -/
def Fits : Pattern → List Char → List Char → List Char → Prop
  | .nothing, _, part, _ => part = []
  | .one ok, _, part, _ => ∃ c, part = [c] ∧ ok c = true
  | .many least ok, _, part, _ => least ≤ part.length ∧ ∀ c ∈ part, ok c = true
  | .few ok, _, part, _ => ∀ c ∈ part, ok c = true
  | .seq first second, behind, part, rest =>
      ∃ a b, part = a ++ b ∧ first.Fits behind a (b ++ rest) ∧ second.Fits (a.reverse ++ behind) b rest
  | .either first second, behind, part, rest =>
      first.Fits behind part rest ∨ second.Fits behind part rest
  | .capture body, behind, part, rest => body.Fits behind part rest
  | .edge, behind, part, rest =>
      part = [] ∧ (behind.head?.any isWord != rest.head?.any isWord) = true
  | .lineStart, behind, part, _ => part = [] ∧ ∀ c, behind.head? = some c → c = '\n'
  | .ahead body, behind, part, rest => part = [] ∧ ∃ a b, rest = a ++ b ∧ body.Fits behind a b
  | .notBehind ok, behind, part, _ => part = [] ∧ behind.head?.any ok = false

/-- The pattern matches `part` as `Fits` tells, and what was captured before as `old` is `kept` after it. -/
def Keeps : Pattern → List Char → List Char → List Char → List Char → List Char → Prop
  | .seq first second, behind, part, rest, old, kept =>
      ∃ a b middle, part = a ++ b ∧ first.Keeps behind a (b ++ rest) old middle ∧
        second.Keeps (a.reverse ++ behind) b rest middle kept
  | .either first second, behind, part, rest, old, kept =>
      first.Keeps behind part rest old kept ∨ second.Keeps behind part rest old kept
  | .capture body, behind, part, rest, _, kept => body.Fits behind part rest ∧ kept = part
  | p, behind, part, rest, old, kept => p.Fits behind part rest ∧ kept = old

theorem Keeps.fits {p : Pattern} {behind part rest old kept : List Char}
    (h : p.Keeps behind part rest old kept) : p.Fits behind part rest := by
  induction p generalizing behind part rest old kept with
  | seq first second hfirst hsecond =>
      obtain ⟨a, b, middle, hpart, ha, hb⟩ := h
      exact ⟨a, b, hpart, hfirst ha, hsecond hb⟩
  | either first second hfirst hsecond => exact h.imp hfirst hsecond
  | capture body => exact h.1
  | nothing | one | many | few | edge | lineStart | ahead | notBehind => exact h.1

/-- Whether the pattern captures nothing. -/
def captureless : Pattern → Bool
  | .seq first second | .either first second => first.captureless && second.captureless
  | .capture _ => false
  | _ => true

theorem keeps_iff_of_captureless {p : Pattern} (hp : p.captureless = true)
    {behind part rest old kept : List Char} :
    p.Keeps behind part rest old kept ↔ p.Fits behind part rest ∧ kept = old := by
  induction p generalizing behind part rest old kept with
  | seq first second hfirst hsecond =>
      obtain ⟨hp, hp'⟩ := Bool.and_eq_true_iff.1 hp
      constructor
      · rintro ⟨a, b, middle, rfl, ha, hb⟩
        obtain ⟨hfits, rfl⟩ := (hfirst hp).1 ha
        obtain ⟨hfits', rfl⟩ := (hsecond hp').1 hb
        exact ⟨⟨a, b, rfl, hfits, hfits'⟩, rfl⟩
      · rintro ⟨⟨a, b, rfl, ha, hb⟩, rfl⟩
        exact ⟨a, b, kept, rfl, (hfirst hp).2 ⟨ha, rfl⟩, (hsecond hp').2 ⟨hb, rfl⟩⟩
  | either first second hfirst hsecond =>
      obtain ⟨hp, hp'⟩ := Bool.and_eq_true_iff.1 hp
      simp only [Keeps, Fits, hfirst hp, hsecond hp', or_and_right]
  | capture body => cases hp
  | nothing | one | many | few | edge | lineStart | ahead | notBehind => rfl

variable {α : Type}

/-! ## Running and fitting -/

/-- The place after a part of the text. -/
def after (behind : List Char) (offset : Nat) (part rest captured : List Char) : Spot :=
  ⟨part.reverse ++ behind, offset + part.length, rest, captured⟩

theorem after_cons (c : Char) (behind : List Char) (offset : Nat) (part rest captured : List Char) :
    after (c :: behind) (offset + 1) part rest captured = after behind offset (c :: part) rest captured := by
  simp [after, Nat.add_assoc, Nat.add_comm 1]

theorem after_after (behind : List Char) (offset : Nat) (a b rest captured : List Char) :
    after (a.reverse ++ behind) (offset + a.length) b rest captured =
      after behind offset (a ++ b) rest captured := by
  simp [after, Nat.add_assoc]

theorem back_after_concat (behind : List Char) (offset : Nat) (front : List Char) (c : Char)
    (rest captured : List Char) :
    (after behind offset (front.concat c) rest captured).back =
      after behind offset front (c :: rest) captured := by
  simp [after, Spot.back]

theorem skipFrom_eq (ok : Char → Bool) (captured : List Char) (count : Nat) (behind : List Char)
    (offset : Nat) (text : List Char) :
    Spot.skipFrom ok captured count behind offset text =
      (count + (text.takeWhile ok).length,
        after behind offset (text.takeWhile ok) (text.dropWhile ok) captured) := by
  induction text generalizing count behind offset with
  | nil => rfl
  | cons c text ih =>
      by_cases hc : ok c = true
      · simp only [Spot.skipFrom, hc, if_true, ih, List.takeWhile_cons, List.dropWhile_cons, after,
          List.length_cons, List.reverse_cons, List.append_assoc, List.singleton_append]
        rw [Nat.add_right_comm count, Nat.add_right_comm offset]
        rfl
      · simp [Spot.skipFrom, hc, after]

/-- Going back from the end of a run tries its fronts, the longer ones first. -/
theorem retreat_eq_some {k : Spot → Option α} {extra : Nat} {behind part rest captured : List Char}
    {offset : Nat} {result : α} (hextra : extra ≤ part.length)
    (h : retreat k extra (after behind offset part rest captured) = some result) :
    ∃ a b, part = a ++ b ∧ part.length ≤ a.length + extra ∧
      k (after behind offset a (b ++ rest) captured) = some result := by
  induction extra generalizing part rest with
  | zero => exact ⟨part, [], by simp, by simp, h⟩
  | succ extra ih =>
      rw [retreat] at h
      cases hk : k (after behind offset part rest captured) with
      | some first =>
          rw [hk] at h
          exact ⟨part, [], by simp, by simp, hk.trans h⟩
      | none =>
          rw [hk] at h
          rcases List.eq_nil_or_concat part with rfl | ⟨front, c, rfl⟩
          · simp at hextra
          · rw [back_after_concat] at h
            rw [List.length_concat] at hextra ⊢
            obtain ⟨a, b, rfl, hlength, hresult⟩ := ih (by omega) h
            exact ⟨a, b ++ [c], by simp, by omega, by simpa using hresult⟩

theorem isSome_retreat {k : Spot → Option α} {extra : Nat} {behind a b rest captured : List Char}
    {offset : Nat} (hextra : (a ++ b).length ≤ a.length + extra)
    (h : (k (after behind offset a (b ++ rest) captured)).isSome) :
    (retreat k extra (after behind offset (a ++ b) rest captured)).isSome := by
  induction extra generalizing b rest with
  | zero =>
      rw [List.length_append] at hextra
      obtain rfl : b = [] := List.length_eq_zero_iff.1 (by omega)
      simpa [retreat] using h
  | succ extra ih =>
      rw [retreat]
      cases hk : k (after behind offset (a ++ b) rest captured) with
      | some first => rfl
      | none =>
          rcases List.eq_nil_or_concat b with rfl | ⟨front, c, rfl⟩
          · rw [List.append_nil] at hk
            rw [List.nil_append, hk] at h
            cases h
          · dsimp only
            rw [List.append_concat, back_after_concat]
            refine ih ?_ (by simpa using h)
            simp only [List.length_append, List.length_concat] at hextra ⊢
            omega

theorem creep_eq_some {ok : Char → Bool} {k : Spot → Option α} {captured behind text : List Char}
    {offset : Nat} {result : α} (h : creep ok k captured behind offset text = some result) :
    ∃ a b, text = a ++ b ∧ (∀ c ∈ a, ok c = true) ∧
      k (after behind offset a b captured) = some result := by
  induction text generalizing behind offset with
  | nil => exact ⟨[], [], rfl, by simp, h⟩
  | cons c text ih =>
      rw [creep] at h
      cases hk : k ⟨behind, offset, c :: text, captured⟩ with
      | some first =>
          rw [hk] at h
          exact ⟨[], c :: text, rfl, by simp, hk.trans h⟩
      | none =>
          rw [hk] at h
          by_cases hc : ok c = true
          · simp only [hc, if_true] at h
            obtain ⟨a, b, rfl, ha, hresult⟩ := ih h
            refine ⟨c :: a, b, rfl, by simpa [hc] using ha, ?_⟩
            simpa [after, Nat.add_assoc, Nat.add_comm 1] using hresult
          · simp [hc] at h

theorem isSome_creep {ok : Char → Bool} {k : Spot → Option α} {captured behind a b : List Char}
    {offset : Nat} (ha : ∀ c ∈ a, ok c = true) (h : (k (after behind offset a b captured)).isSome) :
    (creep ok k captured behind offset (a ++ b)).isSome := by
  induction a generalizing behind offset with
  | nil =>
      cases b with
      | nil => exact h
      | cons c b =>
          obtain ⟨result, hresult⟩ := Option.isSome_iff_exists.1 h
          have hk : k ⟨behind, offset, c :: b, captured⟩ = some result := hresult
          simp [creep, hk]
  | cons c a ih =>
      rw [List.cons_append, creep]
      cases hk : k ⟨behind, offset, c :: (a ++ b), captured⟩ with
      | some first => rfl
      | none =>
          rw [if_pos (ha c (by simp))]
          refine ih (fun d hd => ha d (by simp [hd])) ?_
          simpa [after, Nat.add_assoc, Nat.add_comm 1] using h

/-- What a run passes on is the end of a part that fits, with what was captured on the way there. -/
theorem keeps_of_run {p : Pattern} {k : Spot → Option α} {spot : Spot} {result : α}
    (h : p.run k spot = some result) :
    ∃ part rest kept, spot.ahead = part ++ rest ∧ p.Keeps spot.behind part rest spot.captured kept ∧
      k (after spot.behind spot.offset part rest kept) = some result := by
  induction p generalizing α spot with
  | nothing => exact ⟨[], spot.ahead, spot.captured, rfl, ⟨rfl, rfl⟩, h⟩
  | one ok =>
      rw [run] at h
      split at h
      · next hok =>
          obtain ⟨behind, offset, text, captured⟩ := spot
          cases text with
          | nil => simp at hok
          | cons c rest => exact ⟨[c], rest, captured, rfl, ⟨⟨c, rfl, by simpa using hok⟩, rfl⟩, h⟩
      · cases h
  | many least ok =>
      rw [run, Spot.skipWhile, skipFrom_eq] at h
      dsimp only at h
      rw [Nat.zero_add] at h
      split at h
      · next hleast =>
          obtain ⟨a, b, hrun, hlength, hresult⟩ := retreat_eq_some (Nat.sub_le _ _) h
          refine ⟨a, b ++ spot.ahead.dropWhile ok, spot.captured, ?_, ⟨⟨by omega, ?_⟩, rfl⟩, hresult⟩
          · rw [← List.append_assoc, ← hrun, List.takeWhile_append_dropWhile]
          · intro c hc
            exact List.mem_takeWhile_imp (hrun ▸ List.mem_append_left b hc)
      · cases h
  | few ok =>
      obtain ⟨a, b, htext, ha, hresult⟩ := creep_eq_some h
      exact ⟨a, b, spot.captured, htext, ⟨ha, rfl⟩, hresult⟩
  | seq first second hfirst hsecond =>
      obtain ⟨a, middle, kept, htext, ha, hnext⟩ := hfirst h
      obtain ⟨b, rest, kept', hmiddle, hb, hresult⟩ := hsecond hnext
      obtain rfl : middle = b ++ rest := hmiddle
      refine ⟨a ++ b, rest, kept', by rw [htext, List.append_assoc], ⟨a, b, kept, rfl, ha, hb⟩, ?_⟩
      simpa [after, Nat.add_assoc] using hresult
  | either first second hfirst hsecond =>
      rw [run] at h
      cases hrun : first.run k spot with
      | some other =>
          rw [hrun] at h
          obtain ⟨part, rest, kept, htext, hkeeps, hresult⟩ := hfirst (hrun.trans h)
          exact ⟨part, rest, kept, htext, .inl hkeeps, hresult⟩
      | none =>
          rw [hrun] at h
          obtain ⟨part, rest, kept, htext, hkeeps, hresult⟩ := hsecond h
          exact ⟨part, rest, kept, htext, .inr hkeeps, hresult⟩
  | capture body hbody =>
      obtain ⟨part, rest, inner, htext, hkeeps, hresult⟩ := hbody h
      refine ⟨part, rest, part, htext, ⟨hkeeps.fits, rfl⟩, ?_⟩
      simpa [Spot.textTo, after, htext] using hresult
  | edge =>
      rw [run] at h
      split at h
      · next hedge => exact ⟨[], spot.ahead, spot.captured, rfl, ⟨⟨rfl, hedge⟩, rfl⟩, h⟩
      · cases h
  | lineStart =>
      rw [run] at h
      split at h
      · next hline =>
          refine ⟨[], spot.ahead, spot.captured, rfl, ⟨⟨rfl, ?_⟩, rfl⟩, h⟩
          intro c hc
          obtain ⟨behind, offset, text, captured⟩ := spot
          cases behind with
          | nil => cases hc
          | cons d behind =>
              obtain rfl : d = c := Option.some.inj hc
              simpa [Spot.atLineStart] using hline
      · cases h
  | ahead body hbody =>
      rw [run] at h
      split at h
      · next hahead =>
          obtain ⟨last, hlast⟩ := Option.isSome_iff_exists.1 hahead
          obtain ⟨part, rest, kept, htext, hkeeps, -⟩ := hbody hlast
          exact ⟨[], spot.ahead, spot.captured, rfl, ⟨⟨rfl, part, rest, htext, hkeeps.fits⟩, rfl⟩, h⟩
      · cases h
  | notBehind ok =>
      rw [run] at h
      split at h
      · cases h
      · next hbehind =>
          exact ⟨[], spot.ahead, spot.captured, rfl, ⟨⟨rfl, by simpa using hbehind⟩, rfl⟩, h⟩

/-- What a run passes on is the end of a part that fits. -/
theorem fits_of_run {p : Pattern} {k : Spot → Option α} {spot : Spot} {result : α}
    (h : p.run k spot = some result) :
    ∃ part rest captured, spot.ahead = part ++ rest ∧ p.Fits spot.behind part rest ∧
      k (after spot.behind spot.offset part rest captured) = some result := by
  obtain ⟨part, rest, kept, htext, hkeeps, hresult⟩ := keeps_of_run h
  exact ⟨part, rest, kept, htext, hkeeps.fits, hresult⟩

/-- A run finds every part that fits, when what comes next does not depend on the captured text. -/
theorem isSome_run_of_fits {p : Pattern} {k : Spot → Option α} {behind part rest captured : List Char}
    {offset : Nat} (h : p.Fits behind part rest)
    (hk : ∀ captured, (k (after behind offset part rest captured)).isSome) :
    (p.run k ⟨behind, offset, part ++ rest, captured⟩).isSome := by
  induction p generalizing α behind part rest captured offset with
  | nothing =>
      cases h
      exact hk captured
  | one ok =>
      obtain ⟨c, rfl, hc⟩ := h
      simpa [run, hc, Spot.next, after] using hk captured
  | many least ok =>
      obtain ⟨hleast, hall⟩ := h
      have hrun : (part ++ rest).takeWhile ok = part ++ rest.takeWhile ok :=
        List.takeWhile_append_of_pos hall
      have hdrop : (part ++ rest).dropWhile ok = rest.dropWhile ok :=
        List.dropWhile_append_of_pos hall
      rw [run, Spot.skipWhile, skipFrom_eq]
      dsimp only
      rw [hrun, hdrop, Nat.zero_add, if_pos (by rw [List.length_append]; omega)]
      refine isSome_retreat (by omega) ?_
      rw [List.takeWhile_append_dropWhile]
      exact hk captured
  | few ok => exact isSome_creep h (hk captured)
  | seq first second hfirst hsecond =>
      obtain ⟨a, b, rfl, ha, hb⟩ := h
      rw [run, List.append_assoc]
      refine hfirst ha fun captured => hsecond hb fun captured => ?_
      simpa [after, Nat.add_assoc] using hk captured
  | either first second hfirst hsecond =>
      rw [run]
      cases hrun : first.run k ⟨behind, offset, part ++ rest, captured⟩ with
      | some other => rfl
      | none =>
          rcases h with h | h
          · have hsome := @hfirst _ k behind part rest captured offset h hk
            simp [hrun] at hsome
          · exact hsecond h hk
  | capture body hbody => exact hbody h fun captured => hk _
  | edge =>
      obtain ⟨rfl, hedge⟩ := h
      have hat : (⟨behind, offset, [] ++ rest, captured⟩ : Spot).atEdge = true := hedge
      rw [run, if_pos hat]
      exact hk captured
  | lineStart =>
      obtain ⟨rfl, hline⟩ := h
      have hat : (⟨behind, offset, [] ++ rest, captured⟩ : Spot).atLineStart = true := by
        cases behind with
        | nil => rfl
        | cons c behind => simpa [Spot.atLineStart] using hline c rfl
      rw [run, if_pos hat]
      exact hk captured
  | ahead body hbody =>
      obtain ⟨rfl, a, b, rfl, hfits⟩ := h
      have hsome := @hbody _ some behind a b captured offset hfits fun _ => rfl
      rw [run, List.nil_append, if_pos hsome]
      exact hk captured
  | notBehind ok =>
      obtain ⟨rfl, hbehind⟩ := h
      rw [run, if_neg (by simpa using hbehind)]
      exact hk captured

/-! ## Searching -/

theorem isSome_matchAt?_iff {p : Pattern} {behind text captured : List Char} {offset : Nat} :
    (p.matchAt? ⟨behind, offset, text, captured⟩).isSome = true ↔
      ∃ part rest, text = part ++ rest ∧ p.Fits behind part rest := by
  constructor
  · intro h
    obtain ⟨last, hlast⟩ := Option.isSome_iff_exists.1 h
    obtain ⟨part, rest, -, htext, hfits, -⟩ := fits_of_run hlast
    exact ⟨part, rest, htext, hfits⟩
  · rintro ⟨part, rest, rfl, hfits⟩
    exact isSome_run_of_fits hfits fun _ => rfl

theorem isSome_searchFrom_iff {p : Pattern} {behind text : List Char} {offset : Nat} :
    (p.searchFrom behind offset text).isSome = true ↔
      ∃ a part rest, text = a ++ (part ++ rest) ∧ p.Fits (a.reverse ++ behind) part rest := by
  induction text generalizing behind offset with
  | nil =>
      rw [searchFrom, Option.isSome_map, isSome_matchAt?_iff]
      constructor
      · rintro ⟨part, rest, htext, hfits⟩
        exact ⟨[], part, rest, htext, hfits⟩
      · rintro ⟨a, part, rest, htext, hfits⟩
        obtain ⟨rfl, hrest⟩ := List.append_eq_nil_iff.1 htext.symm
        exact ⟨part, rest, hrest.symm, hfits⟩
  | cons c text ih =>
      rw [searchFrom]
      cases hmatch : p.matchAt? ⟨behind, offset, c :: text, []⟩ with
      | some last =>
          obtain ⟨part, rest, htext, hfits⟩ := isSome_matchAt?_iff.1 (Option.isSome_of_eq_some hmatch)
          exact ⟨fun _ => ⟨[], part, rest, htext, hfits⟩, fun _ => rfl⟩
      | none =>
          rw [ih]
          constructor
          · rintro ⟨a, part, rest, rfl, hfits⟩
            exact ⟨c :: a, part, rest, rfl, by simpa using hfits⟩
          · rintro ⟨a, part, rest, htext, hfits⟩
            cases a with
            | nil =>
                have hsome := (@isSome_matchAt?_iff p behind _ [] offset).2 ⟨part, rest, htext, hfits⟩
                rw [hmatch] at hsome
                cases hsome
            | cons d a =>
                obtain ⟨rfl, hrest⟩ := List.cons.inj htext
                exact ⟨a, part, rest, hrest, by simpa using hfits⟩

/-- A pattern occurs in a text exactly when it fits some part of it. -/
theorem occurs_iff {p : Pattern} {text : List Char} :
    p.occurs text = true ↔ ∃ a part rest, text = a ++ (part ++ rest) ∧ p.Fits a.reverse part rest := by
  simpa [occurs, search?] using @isSome_searchFrom_iff p [] text 0

end ComponentBuilder.Text.Pattern
