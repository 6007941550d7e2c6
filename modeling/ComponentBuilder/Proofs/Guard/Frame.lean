import ComponentBuilder.Proofs.Guard.PatternChecks
import ComponentBuilder.Proofs.Text.Captures
import ComponentBuilder.Proofs.Text.Run

/-!
# Matches within a larger text

A pattern runs in a part of a larger text as it runs on that part alone, when the part lies between
boundaries and no way of matching that leaves the part is answered.
-/

namespace ComponentBuilder.Text.Pattern

open Guard

variable {α : Type}

/-! ## Ways that leave a part -/

theorem retreat_after_append {k : Spot → Option α} {behind part rest captured : List Char}
    {offset extra : Nat} {out : List Char}
    (hout : ∀ a b, out = a ++ b → a ≠ [] → k (after behind offset (part ++ a) (b ++ rest) captured) = none) :
    retreat k (extra + out.length) (after behind offset (part ++ out) rest captured) =
      retreat k extra (after behind offset part (out ++ rest) captured) := by
  induction out using List.reverseRecOn generalizing rest with
  | nil => simp
  | append_singleton out c ih =>
      have hlast := hout (out ++ [c]) [] (by simp) (by simp)
      have hback : (after behind offset (part ++ (out ++ [c])) rest captured).back =
          after behind offset (part ++ out) (c :: rest) captured := by
        rw [← List.append_assoc, ← List.concat_eq_append, back_after_concat]
      have hless : extra + (out ++ [c]).length = (extra + out.length) + 1 := by
        simp [Nat.add_assoc]
      rw [List.nil_append] at hlast
      rw [hless, retreat, hlast]
      dsimp only
      rw [hback, ih]
      · simp
      · intro a b hab ha
        have hmore := hout a (b ++ [c]) (by rw [hab, List.append_assoc]) ha
        simpa using hmore

/-! ## The frame around a part -/

variable {k k' : Spot → Option α} {behind behind' text back captured : List Char} {offset offset' : Nat}

/-- Inside a part two ways of going on answer alike. -/
def AgreeInside (k k' : Spot → Option α) (behind behind' : List Char) (offset offset' : Nat)
    (text back : List Char) : Prop :=
  ∀ part rest captured, text = part ++ rest →
    k (after behind offset part (rest ++ back) captured) = k' (after behind' offset' part rest captured)

/-- Nothing is answered behind a part. -/
def SilentOutside (k : Spot → Option α) (behind : List Char) (offset : Nat) (text back : List Char) :
    Prop :=
  ∀ part rest captured, back = part ++ rest → part ≠ [] →
    k (after behind offset (text ++ part) rest captured) = none

theorem AgreeInside.after (h : AgreeInside k k' behind behind' offset offset' text back)
    {part rest : List Char} (htext : text = part ++ rest) :
    AgreeInside k k' (part.reverse ++ behind) (part.reverse ++ behind') (offset + part.length)
      (offset' + part.length) rest back := by
  intro more last captured hrest
  rw [after_after, after_after]
  exact h (part ++ more) last captured (by rw [htext, hrest, List.append_assoc])

theorem SilentOutside.after (h : SilentOutside k behind offset text back) {part rest : List Char}
    (htext : text = part ++ rest) :
    SilentOutside k (part.reverse ++ behind) (offset + part.length) rest back := by
  intro more last captured hback hne
  have hmore := h more last captured hback hne
  rw [htext, List.append_assoc] at hmore
  rwa [after_after]

/-- What goes on behind a part does not lead to an answer. -/
theorem SilentOutside.run (h : SilentOutside k behind offset text back) (p : Pattern) :
    SilentOutside (fun middle => p.run k middle) behind offset text back := by
  intro part rest captured hback hne
  cases hrun : p.run k (Pattern.after behind offset (text ++ part) rest captured) with
  | none => exact hrun
  | some result =>
      obtain ⟨more, last, captured', hrest, -, hresult⟩ := fits_of_run hrun
      have hrest : rest = more ++ last := hrest
      have hnone := h (part ++ more) last captured' (by rw [hback, hrest, List.append_assoc]) (by simp [hne])
      have hsame : Pattern.after (Pattern.after behind offset (text ++ part) rest captured).behind
          (Pattern.after behind offset (text ++ part) rest captured).offset more last captured' =
          Pattern.after behind offset (text ++ (part ++ more)) last captured' := by
        rw [← List.append_assoc]
        exact after_after behind offset (text ++ part) more last captured'
      rw [hsame, hnone] at hresult
      cases hresult

theorem retreat_frame {part rest : List Char} {extra : Nat} (hextra : extra ≤ part.length)
    (hinside : AgreeInside k k' behind behind' offset offset' (part ++ rest) back) :
    retreat k extra (after behind offset part (rest ++ back) captured) =
      retreat k' extra (after behind' offset' part rest captured) := by
  induction extra generalizing part rest with
  | zero => exact hinside part rest captured rfl
  | succ extra ih =>
      rw [retreat, retreat, hinside part rest captured rfl]
      cases k' (after behind' offset' part rest captured) with
      | some result => rfl
      | none =>
          rcases List.eq_nil_or_concat part with rfl | ⟨front, c, rfl⟩
          · simp at hextra
          · dsimp only
            rw [back_after_concat, back_after_concat, ← List.cons_append]
            rw [List.length_concat] at hextra
            exact ih (by omega) (by simpa using hinside)

theorem creep_frame {ok : Char → Bool}
    (hinside : AgreeInside k k' behind behind' offset offset' text back)
    (hout : SilentOutside k behind offset text back) :
    creep ok k captured behind offset (text ++ back) = creep ok k' captured behind' offset' text := by
  induction text generalizing behind behind' offset offset' with
  | nil =>
      have hhere : k (after behind offset [] back captured) = k' (after behind' offset' [] [] captured) :=
        hinside [] [] captured rfl
      cases hcreep : creep ok k captured behind offset back with
      | none =>
          have hnone : k (after behind offset [] back captured) = none := by
            rw [← Option.not_isSome_iff_eq_none]
            intro hsome
            have hagain := @isSome_creep _ ok k captured behind [] back offset (by simp) hsome
            rw [List.nil_append, hcreep] at hagain
            cases hagain
          rw [List.nil_append, hcreep, ← hnone]
          exact hhere
      | some result =>
          obtain ⟨a, b, rfl, -, hresult⟩ := creep_eq_some hcreep
          cases a with
          | nil =>
              rw [List.nil_append, hcreep, ← hresult]
              exact hhere
          | cons c a =>
              have hnone := hout (c :: a) b captured rfl (by simp)
              rw [List.nil_append, hresult] at hnone
              cases hnone
  | cons c text ih =>
      have hhere := hinside [] (c :: text) captured rfl
      have hlater : creep ok k captured (c :: behind) (offset + 1) (text ++ back) =
          creep ok k' captured (c :: behind') (offset' + 1) text := by
        apply ih
        · intro part rest captured htext
          rw [after_cons, after_cons]
          exact hinside (c :: part) rest captured (by rw [htext, List.cons_append])
        · intro part rest captured hpart hne
          rw [after_cons]
          exact hout part rest captured hpart hne
      rw [List.cons_append, creep, creep]
      have hhead : k ⟨behind, offset, c :: (text ++ back), captured⟩ =
          k' ⟨behind', offset', c :: text, captured⟩ := hhere
      rw [hhead, hlater]

/-- Characters that are taken behind a part and are all needed there leave no way back into it. -/
theorem retreat_eq_none {part out rest : List Char} {least : Nat}
    (hleave : ∀ a b, out = a ++ b → a ≠ [] → k (after behind offset (part ++ a) (b ++ rest) captured) = none)
    (hleast : part.length < least) (hcount : least ≤ (part ++ out).length) :
    retreat k ((part ++ out).length - least) (after behind offset (part ++ out) rest captured) = none := by
  cases hretreat : retreat k ((part ++ out).length - least) (after behind offset (part ++ out) rest captured) with
  | none => rfl
  | some result =>
      obtain ⟨a, b, hab, hlength, hresult⟩ := retreat_eq_some (Nat.sub_le _ _) hretreat
      have hlong : part.length < a.length := by omega
      rcases List.append_eq_append_iff.1 hab with ⟨more, rfl, hmore⟩ | ⟨more, rfl, -⟩
      · have hne : more ≠ [] := by
          rintro rfl
          rw [List.append_nil] at hlong
          exact Nat.lt_irrefl _ hlong
        rw [hleave more b hmore hne] at hresult
        cases hresult
      · rw [List.length_append] at hlong
        omega

theorem many_frame {least : Nat} {ok : Char → Bool}
    (hinside : AgreeInside k k' behind behind' offset offset' text back)
    (hout : SilentOutside k behind offset text back) :
    (many least ok).run k ⟨behind, offset, text ++ back, captured⟩ =
      (many least ok).run k' ⟨behind', offset', text, captured⟩ := by
  have hsplit := @List.takeWhile_append_dropWhile _ ok text
  generalize hpart : text.takeWhile ok = part at hsplit
  generalize hrest : text.dropWhile ok = rest at hsplit
  subst hsplit
  unfold run
  simp only [Spot.skipWhile, skipFrom_eq, Nat.zero_add]
  rw [hpart, hrest]
  have hall : ∀ c ∈ part, ok c = true := by
    rw [← hpart]
    exact fun c hc => List.mem_takeWhile_imp hc
  cases rest with
  | cons c rest =>
      have hstop : Stops ok (c :: (rest ++ back)) := by
        have hdrop := stops_dropWhile ok (part ++ c :: rest)
        rw [hrest] at hdrop
        exact stops_cons.2 (stops_cons.1 hdrop)
      rw [List.append_assoc, List.cons_append, takeWhile_append_stops hall hstop,
        dropWhile_append_stops hall hstop]
      split
      · exact retreat_frame (Nat.sub_le _ _) hinside
      · rfl
  | nil =>
      have htake : (part ++ [] ++ back).takeWhile ok = part ++ back.takeWhile ok := by
        rw [List.append_nil, List.takeWhile_append_of_pos hall]
      have hdrop : (part ++ [] ++ back).dropWhile ok = back.dropWhile ok := by
        rw [List.append_nil, List.dropWhile_append_of_pos hall]
      have hback := @List.takeWhile_append_dropWhile _ ok back
      rw [htake, hdrop]
      generalize back.takeWhile ok = out at hback ⊢
      generalize back.dropWhile ok = rest at hback ⊢
      subst hback
      rw [List.append_nil] at hinside hout
      have hleave (a b : List Char) (hab : out = a ++ b) (ha : a ≠ []) :
          k (after behind offset (part ++ a) (b ++ rest) captured) = none :=
        hout a (b ++ rest) captured (by rw [hab, List.append_assoc]) ha
      by_cases hleast : least ≤ part.length
      · have hcount : (part ++ out).length - least = part.length - least + out.length := by
          rw [List.length_append]
          omega
        rw [if_pos hleast, if_pos (by rw [List.length_append]; omega), hcount,
          retreat_after_append hleave]
        exact @retreat_frame _ _ _ _ _ _ captured _ _ part [] _ (Nat.sub_le _ _)
          (by rwa [List.append_nil])
      · rw [if_neg hleast]
        split
        · next hcount => exact retreat_eq_none hleave (Nat.not_le.1 hleast) hcount
        · rfl

theorem run_frame {p : Pattern} (hp : p.contextual = true) (hbehind : SameSide behind behind')
    (hback : back.head?.all isBoundary = true)
    (hinside : AgreeInside k k' behind behind' offset offset' text back)
    (hout : SilentOutside k behind offset text back) :
    p.run k ⟨behind, offset, text ++ back, captured⟩ = p.run k' ⟨behind', offset', text, captured⟩ := by
  have hhere : k ⟨behind, offset, text ++ back, captured⟩ = k' ⟨behind', offset', text, captured⟩ :=
    hinside [] text captured rfl
  induction p generalizing α k k' behind behind' offset offset' text captured with
  | lineStart | ahead => cases hp
  | nothing => exact hhere
  | one ok =>
      cases text with
      | cons c text =>
          have hnext : k (after behind offset [c] (text ++ back) captured) =
              k' (after behind' offset' [c] text captured) := hinside [c] text captured rfl
          by_cases hc : ok c = true
          · simp only [run, List.cons_append, List.head?_cons, Option.any_some, hc, if_true]
            exact hnext
          · simp [run, hc]
      | nil =>
          cases back with
          | nil => rfl
          | cons c back =>
              have hnext := hout [c] back captured rfl (by simp)
              by_cases hc : ok c = true
              · simp only [run, List.nil_append, List.head?_cons, List.head?_nil, Option.any_some, hc, if_true]
                exact hnext
              · simp [run, hc]
  | many least ok => exact many_frame hinside hout
  | few ok => exact creep_frame hinside hout
  | seq first second hfirst hsecond =>
      rw [contextual, Bool.and_eq_true] at hp
      rw [run, run]
      have hmiddle : AgreeInside (fun middle => second.run k middle) (fun middle => second.run k' middle)
          behind behind' offset offset' text back := by
        intro part rest captured htext
        have hlater := hinside.after htext
        exact hsecond hp.2 (sameSide_append hbehind part.reverse) hlater (hout.after htext)
          (hlater [] rest captured rfl)
      exact hfirst hp.1 hbehind hmiddle (hout.run second) (hmiddle [] text captured rfl)
  | either first second hfirst hsecond =>
      rw [contextual, Bool.and_eq_true] at hp
      rw [run, run, hfirst hp.1 hbehind hinside hout hhere, hsecond hp.2 hbehind hinside hout hhere]
  | capture body hbody =>
      have hkept : AgreeInside
          (fun last => k { last with captured := Spot.textTo ⟨behind, offset, text ++ back, captured⟩ last })
          (fun last => k' { last with captured := Spot.textTo ⟨behind', offset', text, captured⟩ last })
          behind behind' offset offset' text back := by
        rintro part rest captured rfl
        dsimp only
        rw [List.append_assoc, textTo_after, textTo_after]
        exact hinside part rest part rfl
      rw [run, run]
      refine hbody hp hbehind hkept ?_ (hkept [] text captured rfl)
      intro part rest captured hpart hne
      exact hout part rest _ hpart hne
  | edge =>
      have hword := fun c => @isWord_eq_false_of_isBoundary c
      have hrest : SameSide (text ++ back) text := by
        have hside : SameSide back [] := .inr ⟨hback, rfl⟩
        simpa using sameSide_append hside text
      rw [run, run, Spot.atEdge, Spot.atEdge, any_eq_of_sameSide hword hbehind, any_eq_of_sameSide hword hrest, hhere]
  | notBehind ok =>
      rw [run, run, any_eq_of_sameSide (eq_false_of_contextual hp) hbehind, hhere]

/-! ## Matches that end in a character -/

/-- The pattern runs as another one and then one character of a class. -/
def EndsIn (ok : Char → Bool) (p : Pattern) : Prop :=
  ∃ first : Pattern, first.contextual = true ∧
    ∀ {α : Type} (k : Spot → Option α) (spot : Spot), p.run k spot = (seq first (one ok)).run k spot

variable {p : Pattern} {ok : Char → Bool}

theorem EndsIn.exists_mem (h : p.EndsIn ok) {spot last : Spot} (hmatch : p.matchAt? spot = some last) :
    ∃ c ∈ spot.ahead, ok c = true := by
  obtain ⟨first, -, hrun⟩ := h
  rw [matchAt?, hrun] at hmatch
  obtain ⟨part, rest, captured, htext, ⟨a, b, rfl, -, c, rfl, hc⟩, -⟩ := fits_of_run hmatch
  exact ⟨c, by simp [htext], hc⟩

theorem EndsIn.run_frame (h : p.EndsIn ok) (hbehind : SameSide behind behind')
    (hback : back.head?.all isBoundary = true) (hclean : ∀ c ∈ back, ok c = false)
    (hinside : AgreeInside k k' behind behind' offset offset' text back) :
    p.run k ⟨behind, offset, text ++ back, captured⟩ = p.run k' ⟨behind', offset', text, captured⟩ := by
  obtain ⟨first, hfirst, hrun⟩ := h
  have hlast {behind : List Char} {offset : Nat} {part rest captured : List Char}
      (hrest : rest.head?.any ok = false) :
      (one ok).run k (Pattern.after behind offset part rest captured) = none := by
    simp [run, Pattern.after, hrest]
  have hhead {rest : List Char} (hrest : ∀ c ∈ rest, ok c = false) : rest.head?.any ok = false := by
    cases rest with
    | nil => rfl
    | cons c rest => exact hrest c List.mem_cons_self
  have hmiddle : AgreeInside (fun middle => (one ok).run k middle) (fun middle => (one ok).run k' middle)
      behind behind' offset offset' text back := by
    intro part rest captured htext
    cases rest with
    | nil =>
        dsimp only
        rw [List.nil_append, hlast (hhead hclean)]
        rfl
    | cons c rest =>
        have hnext := hinside.after htext [c] rest captured rfl
        by_cases hc : ok c = true
        · simp only [run, Pattern.after, List.cons_append, List.head?_cons, Option.any_some, hc, if_true]
          exact hnext
        · simp [run, Pattern.after, hc]
  have hout : SilentOutside (fun middle => (one ok).run k middle) behind offset text back := by
    intro part rest captured hpart _
    exact hlast (hhead fun c hc => hclean c (by rw [hpart]; exact List.mem_append_right part hc))
  rw [hrun, hrun, run, run]
  exact Pattern.run_frame hfirst hbehind hback hmiddle hout

/-- The match at a place in a part is the match in the text around it. -/
theorem EndsIn.matchAt?_frame (h : p.EndsIn ok) (hbehind : SameSide behind behind')
    (hback : back.head?.all isBoundary = true) (hclean : ∀ c ∈ back, ok c = false) :
    (p.matchAt? ⟨behind, offset, text ++ back, []⟩).map (fun last => (last.captured, last.offset - offset)) =
      (p.matchAt? ⟨behind', offset', text, []⟩).map (fun last => (last.captured, last.offset - offset')) := by
  rw [matchAt?, matchAt?, ← run_map, ← run_map]
  apply h.run_frame hbehind hback hclean
  intro part rest captured _
  simp [Pattern.after]

theorem EndsIn.capturesFrom_eq_nil (h : p.EndsIn ok) (hclean : ∀ c ∈ back, ok c = false) :
    p.capturesFrom 0 behind offset back = [] := by
  have hnone := @capturesFrom_append_of_none p back [] behind offset ?_
  · rw [List.append_nil] at hnone
    rw [hnone, capturesFrom]
  · intro a c b hsplit behind offset
    cases hmatch : p.matchAt? ⟨behind, offset, c :: (b ++ []), []⟩ with
    | none => rfl
    | some last =>
        obtain ⟨d, hd, hok⟩ := h.exists_mem hmatch
        rw [List.append_nil] at hd
        rw [hclean d (by rw [hsplit]; exact List.mem_append_right a hd)] at hok
        cases hok

/-- When matches in a part are those in the text around it, so is what a search captures. -/
theorem capturesFrom_frame_of_matchAt? {like : List Char → List Char → Prop}
    (hlike : ∀ c behind behind', like (c :: behind) (c :: behind'))
    (hmatch : ∀ {behind behind' text offset offset'}, like behind behind' →
      (p.matchAt? ⟨behind, offset, text ++ back, []⟩).map (fun last => (last.captured, last.offset - offset)) =
        (p.matchAt? ⟨behind', offset', text, []⟩).map (fun last => (last.captured, last.offset - offset')))
    (hback : ∀ behind offset, p.capturesFrom 0 behind offset back = []) (hbehind : like behind behind')
    {skip : Nat} (hskip : skip ≤ text.length) :
    p.capturesFrom skip behind offset (text ++ back) = p.capturesFrom skip behind' offset' text := by
  induction text generalizing skip behind behind' offset offset' with
  | nil =>
      obtain rfl : skip = 0 := Nat.le_zero.1 hskip
      rw [List.nil_append, hback, capturesFrom]
  | cons c text ih =>
      have hbehinds := hlike c behind behind'
      cases skip with
      | succ skip =>
          rw [List.cons_append, capturesFrom, capturesFrom]
          exact ih hbehinds (by simpa using hskip)
      | zero =>
          have hmatch := @hmatch behind behind' (c :: text) offset offset' hbehind
          rw [List.cons_append] at hmatch
          rw [List.cons_append, capturesFrom, capturesFrom]
          cases hshort : p.matchAt? ⟨behind', offset', c :: text, []⟩ with
          | none =>
              rw [hshort, Option.map_none, Option.map_eq_none_iff] at hmatch
              rw [hmatch]
              exact ih hbehinds (Nat.zero_le _)
          | some last =>
              rw [hshort, Option.map_some, Option.map_eq_some_iff] at hmatch
              obtain ⟨last', hlong, heq⟩ := hmatch
              obtain ⟨hcaptured, hoffset⟩ := Prod.mk.inj heq
              obtain ⟨part, rest, captured, htext, -, hend⟩ := fits_of_run hshort
              have hlength := congrArg List.length htext
              obtain rfl : Pattern.after behind' offset' part rest captured = last := Option.some.inj hend
              rw [hlong]
              dsimp only
              rw [hcaptured, hoffset]
              congr 1
              apply ih hbehinds
              simp only [Pattern.after, List.length_cons, List.length_append] at hlength ⊢
              omega

/-- What is captured in a text does not depend on what lies far behind it. -/
theorem capturesFrom_of_sameSide (hp : p.contextual = true) (hbehind : SameSide behind behind') :
    p.capturesFrom 0 behind offset text = p.capturesFrom 0 behind' offset' text := by
  have hframe := @capturesFrom_frame_of_matchAt? behind behind' text [] offset offset' p SameSide
    (fun _ _ _ => .inl rfl) ?_ (fun _ _ => rfl) hbehind 0 (Nat.zero_le _)
  · rwa [List.append_nil] at hframe
  · intro behind behind' text offset offset' hbehind
    rw [matchAt?, matchAt?, ← run_map, ← run_map]
    apply run_frame hp hbehind rfl
    · intro part rest captured _
      simp [Pattern.after]
    · intro part rest captured hnil hne
      exact absurd (List.append_eq_nil_iff.1 hnil.symm).1 hne

/-- What is captured in a part is what is captured in the text around it. -/
theorem EndsIn.capturesFrom_frame (h : p.EndsIn ok) (hbehind : SameSide behind behind')
    (hback : back.head?.all isBoundary = true) (hclean : ∀ c ∈ back, ok c = false) {skip : Nat}
    (hskip : skip ≤ text.length) :
    p.capturesFrom skip behind offset (text ++ back) = p.capturesFrom skip behind' offset' text :=
  capturesFrom_frame_of_matchAt? (fun _ _ _ => .inl rfl) (fun hbehind => h.matchAt?_frame hbehind hback hclean)
    (fun _ _ => h.capturesFrom_eq_nil hclean) hbehind hskip

end ComponentBuilder.Text.Pattern
