import ComponentBuilder.Proofs.Text.Pattern
import ComponentBuilder.Text.Basic

/-!
# What the matches in a text capture

The matches in a text are found from left to right, each after the end of the one before.  Where no match
begins the search moves on by a character, and over a match it moves to the end of that match.
-/

namespace ComponentBuilder.Text

theorem mem_foldl_distinct {α : Type} [BEq α] [LawfulBEq α] {item : α} (items seen : List α) :
    item ∈ items.foldl (fun seen item => if seen.contains item then seen else item :: seen) seen ↔
      item ∈ seen ∨ item ∈ items := by
  induction items generalizing seen with
  | nil => simp
  | cons other items ih =>
      rw [List.foldl_cons, ih]
      split
      · next hseen =>
          have hmem : other ∈ seen := List.contains_iff_mem.1 hseen
          constructor
          · rintro (h | h)
            · exact .inl h
            · exact .inr (List.mem_cons_of_mem _ h)
          · rintro (h | h)
            · exact .inl h
            · rcases List.mem_cons.1 h with rfl | h
              · exact .inl hmem
              · exact .inr h
      · rw [List.mem_cons, List.mem_cons, or_comm (a := item = other), or_assoc]

theorem mem_distinct {α : Type} [BEq α] [LawfulBEq α] {item : α} {items : List α} :
    item ∈ distinct items ↔ item ∈ items := by
  rw [distinct, List.mem_reverse, mem_foldl_distinct]
  simp

section Distinct

variable {α : Type} [BEq α] [LawfulBEq α] {p : α → Bool}

theorem filter_foldl_distinct (items : List α) {seen seen' : List α} (h : seen.filter p = seen'.filter p) :
    (items.foldl (fun seen item => if seen.contains item then seen else item :: seen) seen).filter p =
      (items.foldl (fun seen item => if seen.contains item then seen else item :: seen) seen').filter p := by
  induction items generalizing seen seen' with
  | nil => exact h
  | cons item items ih =>
      rw [List.foldl_cons, List.foldl_cons]
      apply ih
      by_cases hp : p item = true
      · have hsame : seen.contains item = seen'.contains item := by
          have hmem : item ∈ seen.filter p ↔ item ∈ seen'.filter p := by rw [h]
          simp only [List.mem_filter, hp, and_true] at hmem
          rw [Bool.eq_iff_iff, List.contains_iff_mem, List.contains_iff_mem]
          exact hmem
        rw [hsame]
        split
        · exact h
        · rw [List.filter_cons_of_pos hp, List.filter_cons_of_pos hp, h]
      · have hdrop (seen : List α) :
            (if seen.contains item then seen else item :: seen).filter p = seen.filter p := by
          split
          · rfl
          · exact List.filter_cons_of_neg hp
        rw [hdrop, hdrop, h]

/-- Items that fail a test do not bear on which of the others are kept. -/
theorem filter_distinct_append {front : List α} (items : List α) (h : ∀ item ∈ front, p item = false) :
    (distinct (front ++ items)).filter p = (distinct items).filter p := by
  unfold distinct
  rw [List.filter_reverse, List.filter_reverse, List.foldl_append]
  congr 1
  apply filter_foldl_distinct
  rw [List.filter_nil, List.filter_eq_nil_iff]
  intro item hitem
  rw [mem_foldl_distinct] at hitem
  rcases hitem with hitem | hitem
  · cases hitem
  · simp [h item hitem]

end Distinct

section Order

variable {α : Type} [BEq α] [LawfulBEq α] {p : α → Bool} {whole front items seen : List α}

/-- The values that are kept stay in the order of their first occurrences. -/
theorem pairwise_foldl_distinct (hwhole : whole = front ++ items) (hseen : ∀ a, a ∈ seen ↔ a ∈ front ∧ p a = true)
    (hpairs : seen.reverse.Pairwise fun a b => whole.idxOf a < whole.idxOf b) :
    ((items.filter p).foldl (fun seen item => if seen.contains item then seen else item :: seen)
      seen).reverse.Pairwise fun a b => whole.idxOf a < whole.idxOf b := by
  induction items generalizing front seen with
  | nil => exact hpairs
  | cons item items ih =>
      have hnext : whole = front ++ [item] ++ items := by rw [hwhole, List.append_assoc]; rfl
      have hkeep (hin : p item = true → item ∈ front) : ∀ a, a ∈ seen ↔ a ∈ front ++ [item] ∧ p a = true := by
        intro a
        rw [hseen, List.mem_append, List.mem_singleton]
        constructor
        · exact fun ⟨ha, hp⟩ => ⟨.inl ha, hp⟩
        · rintro ⟨ha | rfl, hp⟩
          · exact ⟨ha, hp⟩
          · exact ⟨hin hp, hp⟩
      by_cases hp : p item = true
      · rw [List.filter_cons_of_pos hp, List.foldl_cons]
        split
        · next hcontains =>
            have hmem := (hseen item).1 (List.contains_iff_mem.1 hcontains)
            exact ih hnext (hkeep fun _ => hmem.1) hpairs
        · next hcontains =>
            have hnew : item ∉ front := fun hmem => hcontains (List.contains_iff_mem.2 ((hseen item).2 ⟨hmem, hp⟩))
            refine ih hnext (fun a => ?_) ?_
            · rw [List.mem_cons, hseen, List.mem_append, List.mem_singleton]
              constructor
              · rintro (rfl | ⟨ha, hpa⟩)
                · exact ⟨.inr rfl, hp⟩
                · exact ⟨.inl ha, hpa⟩
              · rintro ⟨ha | rfl, hpa⟩
                · exact .inr ⟨ha, hpa⟩
                · exact .inl rfl
            · rw [List.reverse_cons, List.pairwise_append]
              refine ⟨hpairs, List.pairwise_singleton _ _, fun a ha b hb => ?_⟩
              obtain rfl := List.mem_singleton.1 hb
              have hfront : a ∈ front := ((hseen a).1 (List.mem_reverse.1 ha)).1
              rw [hwhole, List.idxOf_append_of_mem hfront, List.idxOf_append_of_notMem hnew]
              exact Nat.lt_add_right _ (List.idxOf_lt_length_iff.2 hfront)
      · rw [List.filter_cons_of_neg hp]
        exact ih hnext (hkeep fun hpos => absurd hpos hp) hpairs

theorem pairwise_distinct (p : α → Bool) (items : List α) :
    (distinct (items.filter p)).Pairwise fun a b => items.idxOf a < items.idxOf b :=
  pairwise_foldl_distinct (List.nil_append items).symm (by simp) List.Pairwise.nil

end Order

namespace Pattern

/-- The captured parts of the matches from a place on, once `skip` characters are passed over. -/
def capturesFrom (p : Pattern) : Nat → List Char → Nat → List Char → List (List Char)
  | _, _, _, [] => []
  | skip + 1, behind, offset, c :: rest => capturesFrom p skip (c :: behind) (offset + 1) rest
  | 0, behind, offset, c :: rest =>
      match p.matchAt? ⟨behind, offset, c :: rest, []⟩ with
      | none => capturesFrom p 0 (c :: behind) (offset + 1) rest
      | some last =>
          last.captured :: capturesFrom p (last.offset - offset - 1) (c :: behind) (offset + 1) rest

theorem map_captured_cutFrom (p : Pattern) (skip : Nat) (plain : List Char) (hits : List Hit)
    (behind : List Char) (offset : Nat) (text : List Char) :
    (p.cutFrom skip plain hits behind offset text).1.map Hit.captured =
      hits.reverse.map Hit.captured ++ p.capturesFrom skip behind offset text := by
  induction text generalizing skip plain hits behind offset with
  | nil => simp [cutFrom, capturesFrom]
  | cons c rest ih =>
      cases skip with
      | succ skip => rw [cutFrom, ih, capturesFrom]
      | zero =>
          rw [cutFrom, capturesFrom]
          cases p.matchAt? ⟨behind, offset, c :: rest, []⟩ with
          | none => exact ih ..
          | some last =>
              dsimp only
              rw [ih]
              simp

theorem captures_eq (p : Pattern) (text : List Char) :
    p.captures text = p.capturesFrom 0 [] 0 text := by
  simp [captures, hits, cut, map_captured_cutFrom]

variable {p : Pattern}

theorem capturesFrom_skip (p : Pattern) (behind : List Char) (offset : Nat) (part rest : List Char) :
    p.capturesFrom part.length behind offset (part ++ rest) =
      p.capturesFrom 0 (part.reverse ++ behind) (offset + part.length) rest := by
  induction part generalizing behind offset with
  | nil => rfl
  | cons c part ih =>
      rw [List.length_cons, List.cons_append, capturesFrom, ih]
      simp [Nat.add_assoc, Nat.add_comm 1]

/-- Over a match the search moves to its end. -/
theorem capturesFrom_of_match {behind part rest captured : List Char} {offset : Nat}
    (hpart : part ≠ [])
    (h : p.matchAt? ⟨behind, offset, part ++ rest, []⟩ =
      some (after behind offset part rest captured)) :
    p.capturesFrom 0 behind offset (part ++ rest) =
      captured :: p.capturesFrom 0 (part.reverse ++ behind) (offset + part.length) rest := by
  cases part with
  | nil => exact absurd rfl hpart
  | cons c part =>
      have hlength : offset + (part.length + 1) - offset - 1 = part.length := by omega
      rw [List.cons_append] at h ⊢
      rw [capturesFrom, h]
      simp only [after, List.length_cons, hlength, capturesFrom_skip]
      simp [Nat.add_assoc, Nat.add_comm 1]

/-- Where no match begins the search moves on. -/
theorem capturesFrom_of_none {c : Char} {behind rest : List Char} {offset : Nat}
    (h : p.matchAt? ⟨behind, offset, c :: rest, []⟩ = none) :
    p.capturesFrom 0 behind offset (c :: rest) = p.capturesFrom 0 (c :: behind) (offset + 1) rest := by
  rw [capturesFrom, h]

theorem capturesFrom_append_of_none {front rest : List Char} {behind : List Char} {offset : Nat}
    (h : ∀ a c b, front = a ++ c :: b → ∀ behind offset,
      p.matchAt? ⟨behind, offset, c :: (b ++ rest), []⟩ = none) :
    p.capturesFrom 0 behind offset (front ++ rest) =
      p.capturesFrom 0 (front.reverse ++ behind) (offset + front.length) rest := by
  induction front generalizing behind offset with
  | nil => rfl
  | cons c front ih =>
      rw [List.cons_append, capturesFrom_of_none (h [] c front rfl behind offset),
        ih fun a d b heq => h (c :: a) d b (by rw [heq, List.cons_append])]
      simp [Nat.add_assoc, Nat.add_comm 1]

theorem searchFrom_append_of_none {front rest : List Char} {behind : List Char} {offset : Nat}
    (h : ∀ a c b, front = a ++ c :: b → ∀ behind offset,
      p.matchAt? ⟨behind, offset, c :: (b ++ rest), []⟩ = none) :
    p.searchFrom behind offset (front ++ rest) =
      p.searchFrom (front.reverse ++ behind) (offset + front.length) rest := by
  induction front generalizing behind offset with
  | nil => rfl
  | cons c front ih =>
      rw [List.cons_append, searchFrom, h [] c front rfl behind offset]
      dsimp only
      rw [ih fun a d b heq => h (c :: a) d b (by rw [heq, List.cons_append])]
      simp [Nat.add_assoc, Nat.add_comm 1]

/-! ## What a search comes across -/

/-- A match at a place: what it covers, what comes after it, and what it has captured. -/
structure Finds (p : Pattern) (behind : List Char) (offset : Nat) (part rest captured : List Char) : Prop where
  keeps : p.Keeps behind part rest [] captured
  matchAt : p.matchAt? ⟨behind, offset, part ++ rest, []⟩ = some (after behind offset part rest captured)

theorem exists_finds {behind text : List Char} {offset : Nat} {last : Spot}
    (h : p.matchAt? ⟨behind, offset, text, []⟩ = some last) :
    ∃ part rest captured, text = part ++ rest ∧ last = after behind offset part rest captured ∧
      p.Finds behind offset part rest captured := by
  obtain ⟨part, rest, captured, htext, hkeeps, hlast⟩ := keeps_of_run h
  obtain rfl := Option.some.inj hlast
  obtain rfl : text = part ++ rest := htext
  exact ⟨part, rest, captured, rfl, rfl, hkeeps, h⟩

/-- What a search has cut out fits where it stands. -/
theorem exists_of_mem_cutFrom {skip offset : Nat} {plain behind text : List Char} {found : List Hit} {hit : Hit}
    (h : hit ∈ (p.cutFrom skip plain found behind offset text).1) :
    hit ∈ found ∨ ∃ a rest, text = a ++ (hit.matched ++ rest) ∧
      p.Keeps (a.reverse ++ behind) hit.matched rest [] hit.captured := by
  induction text generalizing skip plain found behind offset with
  | nil => exact .inl (by simpa [cutFrom] using h)
  | cons c text ih =>
      have hmore {skip : Nat} {plain : List Char} {found : List Hit}
          (h : hit ∈ (p.cutFrom skip plain found (c :: behind) (offset + 1) text).1) :
          hit ∈ found ∨ ∃ a rest, c :: text = a ++ (hit.matched ++ rest) ∧
            p.Keeps (a.reverse ++ behind) hit.matched rest [] hit.captured := by
        refine (ih h).imp_right ?_
        rintro ⟨a, rest, rfl, hkeeps⟩
        exact ⟨c :: a, rest, rfl, by simpa using hkeeps⟩
      cases skip with
      | succ skip => exact hmore h
      | zero =>
          rw [cutFrom] at h
          cases hmatch : p.matchAt? ⟨behind, offset, c :: text, []⟩ with
          | none =>
              rw [hmatch] at h
              exact hmore h
          | some last =>
              rw [hmatch] at h
              obtain ⟨part, rest, kept, htext, rfl, hfinds⟩ := exists_finds hmatch
              have htaken : (⟨behind, offset, c :: text, []⟩ : Spot).textTo (after behind offset part rest kept) =
                  part := by
                simp [Spot.textTo, after, htext]
              rcases hmore h with hmem | hlater
              · rcases List.mem_cons.1 hmem with rfl | hmem
                · exact .inr ⟨[], rest, by rw [htaken, htext]; rfl, htaken.symm ▸ hfinds.keeps⟩
                · exact .inl hmem
              · exact .inr hlater

/-- A search captures only where the pattern fits. -/
theorem exists_of_mem_capturesFrom {skip offset : Nat} {behind text captured : List Char}
    (h : captured ∈ p.capturesFrom skip behind offset text) :
    ∃ a part rest, text = a ++ (part ++ rest) ∧ p.Keeps (a.reverse ++ behind) part rest [] captured := by
  have hcaptured : captured ∈ (p.cutFrom skip [] [] behind offset text).1.map Hit.captured := by
    rw [map_captured_cutFrom]
    exact List.mem_append_right _ h
  obtain ⟨hit, hhit, rfl⟩ := List.mem_map.1 hcaptured
  rcases exists_of_mem_cutFrom hhit with hnone | ⟨a, rest, htext, hkeeps⟩
  · cases hnone
  · exact ⟨a, hit.matched, rest, htext, hkeeps⟩

theorem exists_of_mem_hits {text : List Char} {hit : Hit} (h : hit ∈ p.hits text) :
    ∃ a rest, text = a ++ (hit.matched ++ rest) ∧ p.Keeps a.reverse hit.matched rest [] hit.captured := by
  simpa using exists_of_mem_cutFrom h

/-- What a search comes across first fits where it stands. -/
theorem exists_of_searchFrom {behind text : List Char} {offset : Nat} {first last : Spot}
    (h : p.searchFrom behind offset text = some (first, last)) :
    ∃ a part rest, text = a ++ (part ++ rest) ∧ p.Keeps (a.reverse ++ behind) part rest [] last.captured := by
  induction text generalizing behind offset with
  | nil =>
      obtain ⟨_, hmatch, heq⟩ := Option.map_eq_some_iff.1 h
      obtain ⟨-, rfl⟩ := Prod.mk.inj heq
      obtain ⟨part, rest, kept, htext, rfl, hfinds⟩ := exists_finds hmatch
      exact ⟨[], part, rest, htext, hfinds.keeps⟩
  | cons c text ih =>
      rw [searchFrom] at h
      cases hmatch : p.matchAt? ⟨behind, offset, c :: text, []⟩ with
      | none =>
          rw [hmatch] at h
          obtain ⟨a, part, rest, rfl, hkeeps⟩ := ih h
          exact ⟨c :: a, part, rest, rfl, by simpa using hkeeps⟩
      | some found =>
          rw [hmatch] at h
          obtain ⟨-, rfl⟩ := Prod.mk.inj (Option.some.inj h)
          obtain ⟨part, rest, kept, htext, rfl, hfinds⟩ := exists_finds hmatch
          exact ⟨[], part, rest, htext, hfinds.keeps⟩

/-- Where the pattern fits the search finds a match, or has found one that reaches over the place. -/
theorem capturesFrom_of_fits {skip offset : Nat} {behind front part rest : List Char}
    (h : p.Fits (front.reverse ++ behind) part rest) (hpart : part ≠ []) (hskip : skip ≤ front.length) :
    ∃ a b part' rest' captured, front = a ++ b ∧ b ++ (part ++ rest) = part' ++ rest' ∧
      (b = [] ∨ b.length < part'.length) ∧
      p.Finds (a.reverse ++ behind) (offset + a.length) part' rest' captured ∧
      captured ∈ p.capturesFrom skip behind offset (front ++ (part ++ rest)) := by
  induction front generalizing skip behind offset with
  | nil =>
      obtain rfl : skip = 0 := by simpa using hskip
      cases part with
      | nil => exact absurd rfl hpart
      | cons c part =>
          have hsome := (@isSome_matchAt?_iff p behind (c :: (part ++ rest)) [] offset).2 ⟨c :: part, rest, rfl, h⟩
          obtain ⟨last, hmatch⟩ := Option.isSome_iff_exists.1 hsome
          obtain ⟨part', rest', captured, htext, rfl, hfinds⟩ := exists_finds hmatch
          refine ⟨[], [], part', rest', captured, rfl, htext, .inl rfl, hfinds, ?_⟩
          rw [List.nil_append, List.cons_append, capturesFrom, hmatch]
          exact List.mem_cons_self
  | cons d front ih =>
      have hmore {skip : Nat} (hskip : skip ≤ front.length) : ∃ a b part' rest' captured,
          d :: front = a ++ b ∧ b ++ (part ++ rest) = part' ++ rest' ∧ (b = [] ∨ b.length < part'.length) ∧
            p.Finds (a.reverse ++ behind) (offset + a.length) part' rest' captured ∧
            captured ∈ p.capturesFrom skip (d :: behind) (offset + 1) (front ++ (part ++ rest)) := by
        obtain ⟨a, b, part', rest', captured, rfl, htext, hreach, hfinds, hmem⟩ :=
          @ih skip (offset + 1) (d :: behind) (by simpa using h) hskip
        refine ⟨d :: a, b, part', rest', captured, rfl, htext, hreach, ?_, hmem⟩
        simpa [Nat.add_assoc, Nat.add_comm 1] using hfinds
      cases skip with
      | succ skip => exact hmore (by simpa using hskip)
      | zero =>
          rw [List.cons_append, capturesFrom]
          cases hmatch : p.matchAt? ⟨behind, offset, d :: (front ++ (part ++ rest)), []⟩ with
          | none => exact hmore (Nat.zero_le _)
          | some last =>
              by_cases hover : last.offset - offset - 1 ≤ front.length
              · obtain ⟨a, b, part', rest', captured, hfront, htext, hreach, hfinds, hmem⟩ := hmore hover
                exact ⟨a, b, part', rest', captured, hfront, htext, hreach, hfinds, List.mem_cons_of_mem _ hmem⟩
              · obtain ⟨part', rest', captured, htext, rfl, hfinds⟩ := exists_finds hmatch
                refine ⟨[], d :: front, part', rest', captured, rfl, htext, .inr ?_, hfinds, List.mem_cons_self⟩
                simp only [after] at hover
                rw [List.length_cons]
                omega

theorem exists_of_mem_captures {text captured : List Char} (h : captured ∈ p.captures text) :
    ∃ a part rest, text = a ++ (part ++ rest) ∧ p.Keeps a.reverse part rest [] captured := by
  rw [captures_eq] at h
  simpa using exists_of_mem_capturesFrom h

theorem captures_of_fits {front part rest : List Char} (h : p.Fits front.reverse part rest) (hpart : part ≠ []) :
    ∃ a b part' rest' captured, front = a ++ b ∧ b ++ (part ++ rest) = part' ++ rest' ∧
      (b = [] ∨ b.length < part'.length) ∧ p.Finds a.reverse a.length part' rest' captured ∧
      captured ∈ p.captures (front ++ (part ++ rest)) := by
  rw [captures_eq]
  simpa using @capturesFrom_of_fits p 0 0 [] front part rest (by simpa using h) hpart (Nat.zero_le _)

end Pattern

end ComponentBuilder.Text
