import ComponentBuilder.Agent.CleanPrompt
import ComponentBuilder.Proofs.Text.Replacing

/-!
# Single blanks

Reducing the blanks of a text takes it run by run: one plain blank for every run, and the characters in between
as they are.  A text that has no blanks but single plain ones inside of it is left alone.
-/

namespace ComponentBuilder.Agent

open Text

variable {text part : List Char}

/-! ## Single blanks -/

theorem measures_gap : Pattern.gap.Measures fun text => (text.takeWhile isBlank).length := by
  intro behind offset text
  have hretreat (extra : Nat) (spot : Spot) : Pattern.retreat some extra spot = some spot := by
    cases extra <;> rfl
  have htext := @List.takeWhile_append_dropWhile _ isBlank text
  rw [Pattern.matchAt?, Pattern.gap, Pattern.run]
  simp only [Spot.skipWhile, Pattern.skipFrom_eq, Nat.zero_add, hretreat]
  generalize text.takeWhile isBlank = blanks at htext ⊢
  generalize text.dropWhile isBlank = rest at htext ⊢
  obtain rfl := htext
  rw [List.take_left, List.drop_left]
  by_cases hnone : blanks.length = 0
  · rw [if_pos hnone, if_neg (by omega)]
  · rw [if_neg hnone, if_pos (by omega)]

theorem singleBlanks_nil : singleBlanks [] = [] := rfl

theorem singleBlanks_cons {c : Char} (h : isBlank c = false) (text : List Char) :
    singleBlanks (c :: text) = c :: singleBlanks text := by
  have hsize : ((c :: text).takeWhile isBlank).length = 0 := by
    rw [List.takeWhile_cons_of_neg (by simp [h]), List.length_nil]
  rw [singleBlanks, singleBlanks, Pattern.replace_eq_substitute measures_gap,
    Pattern.replace_eq_substitute measures_gap, Pattern.substitute_cons_of_eq hsize]

theorem singleBlanks_append {blanks rest : List Char} (hne : blanks ≠ [])
    (hblanks : ∀ c ∈ blanks, isBlank c = true) (hrest : Stops isBlank rest) :
    singleBlanks (blanks ++ rest) = ' ' :: singleBlanks rest := by
  have hsize : ((blanks ++ rest).takeWhile isBlank).length = blanks.length := by
    rw [takeWhile_append_stops hblanks hrest]
  rw [singleBlanks, singleBlanks, Pattern.replace_eq_substitute measures_gap,
    Pattern.replace_eq_substitute measures_gap, Pattern.substitute_append hne hsize]
  rfl

/-- A text is read character by character where it has no blanks, and run by run where it has. -/
theorem blankRuns_induction {motive : List Char → Prop} (nil : motive [])
    (solid : ∀ c text, isBlank c = false → motive text → motive (c :: text))
    (run : ∀ blanks rest, blanks ≠ [] → (∀ c ∈ blanks, isBlank c = true) → Stops isBlank rest → motive rest →
      motive (blanks ++ rest)) (text : List Char) : motive text := by
  induction hlength : text.length using Nat.strong_induction_on generalizing text with
  | _ length ih =>
      subst hlength
      cases text with
      | nil => exact nil
      | cons c text =>
          cases hc : isBlank c with
          | false => exact solid c text hc (ih text.length (Nat.lt_succ_self _) text rfl)
          | true =>
              have hsplit : (c :: text.takeWhile isBlank) ++ text.dropWhile isBlank = c :: text := by
                rw [List.cons_append, List.takeWhile_append_dropWhile]
              have hblanks : ∀ d ∈ c :: text.takeWhile isBlank, isBlank d = true := by
                intro d hd
                rcases List.mem_cons.1 hd with rfl | hd
                · exact hc
                · exact List.mem_takeWhile_imp hd
              have hshorter : (text.dropWhile isBlank).length < (c :: text).length :=
                Nat.lt_succ_of_le (List.length_dropWhile_le _ _)
              rw [← hsplit]
              exact run _ _ (List.cons_ne_nil _ _) hblanks (stops_dropWhile isBlank text)
                (ih _ hshorter _ rfl)

theorem head?_singleBlanks (text : List Char) :
    (singleBlanks text).head? = text.head?.map fun c => if isBlank c then ' ' else c := by
  induction text using blankRuns_induction with
  | nil => rfl
  | solid c text hc _ => simp [singleBlanks_cons hc, hc]
  | run blanks rest hne hblanks hrest _ =>
      rw [singleBlanks_append hne hblanks hrest]
      cases blanks with
      | nil => exact absurd rfl hne
      | cons c blanks => simp [hblanks c List.mem_cons_self]

theorem getLast?_singleBlanks (text : List Char) :
    (singleBlanks text).getLast? = text.getLast?.map fun c => if isBlank c then ' ' else c := by
  induction text using blankRuns_induction with
  | nil => rfl
  | solid c text hc ih =>
      rw [singleBlanks_cons hc, List.getLast?_cons, List.getLast?_cons, ih]
      cases text.getLast? with
      | none => simp [hc]
      | some d => rfl
  | run blanks rest hne hblanks hrest ih =>
      rw [singleBlanks_append hne hblanks hrest, List.getLast?_cons, List.getLast?_append, ih]
      cases rest.getLast? with
      | some d => rfl
      | none =>
          have hmem := List.getLast_mem hne
          simp [List.getLast?_eq_some_getLast hne, hblanks _ hmem]

/-- The characters that are no blanks stay as they are. -/
theorem filter_singleBlanks (text : List Char) :
    (singleBlanks text).filter (fun c => !isBlank c) = text.filter fun c => !isBlank c := by
  induction text using blankRuns_induction with
  | nil => rfl
  | solid c text hc ih => simp [singleBlanks_cons hc, hc, ih]
  | run blanks rest hne hblanks hrest ih =>
      have hnone : blanks.filter (fun c => !isBlank c) = [] := by
        rw [List.filter_eq_nil_iff]
        intro c hc
        simp [hblanks c hc]
      have hplain : isBlank ' ' = true := by decide
      rw [singleBlanks_append hne hblanks hrest, List.filter_append, hnone, List.nil_append,
        List.filter_cons_of_neg (by simp [hplain]), ih]

theorem exists_of_suffix_singleBlanks {back : List Char} (h : back <:+ singleBlanks text) :
    ∃ later, later <:+ text ∧ back = singleBlanks later := by
  induction text using blankRuns_induction with
  | nil => exact ⟨[], List.suffix_rfl, List.suffix_nil.1 h⟩
  | solid c text hc ih =>
      rw [singleBlanks_cons hc] at h
      rcases List.suffix_cons_iff.1 h with rfl | h
      · exact ⟨c :: text, List.suffix_rfl, (singleBlanks_cons hc text).symm⟩
      · obtain ⟨later, hlater, hback⟩ := ih h
        exact ⟨later, hlater.trans (List.suffix_cons c text), hback⟩
  | run blanks rest hne hblanks hrest ih =>
      rw [singleBlanks_append hne hblanks hrest] at h
      rcases List.suffix_cons_iff.1 h with rfl | h
      · exact ⟨blanks ++ rest, List.suffix_rfl, (singleBlanks_append hne hblanks hrest).symm⟩
      · obtain ⟨later, hlater, hback⟩ := ih h
        exact ⟨later, hlater.trans (List.suffix_append blanks rest), hback⟩

/-- From a character that is no blank the blanks are reduced as if the text began there. -/
theorem suffix_singleBlanks {c : Char} {later : List Char} (hc : isBlank c = false) (h : c :: later <:+ text) :
    singleBlanks (c :: later) <:+ singleBlanks text := by
  induction text using blankRuns_induction with
  | nil => exact absurd (List.suffix_nil.1 h) (List.cons_ne_nil c later)
  | solid d text hd ih =>
      rcases List.suffix_cons_iff.1 h with heq | h
      · rw [heq]
      · rw [singleBlanks_cons hd]
        exact (ih h).trans (List.suffix_cons d _)
  | run blanks rest hne hblanks hrest ih =>
      rw [singleBlanks_append hne hblanks hrest]
      obtain ⟨front, hsplit⟩ := h
      rcases append_eq_append_cons hsplit.symm with ⟨more, rfl⟩ | ⟨more, rfl, rfl⟩
      · rw [hblanks c (by simp)] at hc
        cases hc
      · exact (ih (List.suffix_append more _)).trans (List.suffix_cons _ _)

/-- A text whose only blanks are single plain ones. -/
structure SingleSpaced (text : List Char) : Prop where
  plain : ∀ c ∈ text, isBlank c = true → c = ' '
  chain : text.IsChain fun c d => isBlank c = true → isBlank d = false

/-- A text whose only blanks are single plain ones inside of it. -/
structure Spaced (text : List Char) : Prop extends SingleSpaced text where
  head : text.head?.all (fun c => !isBlank c) = true
  last : text.getLast?.all (fun c => !isBlank c) = true

theorem singleSpaced_singleBlanks (text : List Char) : SingleSpaced (singleBlanks text) := by
  induction text using blankRuns_induction with
  | nil => exact ⟨by simp [singleBlanks_nil], by simp [singleBlanks_nil]⟩
  | solid c text hc ih =>
      rw [singleBlanks_cons hc]
      refine ⟨?_, List.isChain_cons.2 ⟨fun d _ hblank => ?_, ih.chain⟩⟩
      · intro d hd hblank
        rcases List.mem_cons.1 hd with rfl | hd
        · rw [hc] at hblank
          cases hblank
        · exact ih.plain d hd hblank
      · rw [hc] at hblank
        cases hblank
  | run blanks rest hne hblanks hrest ih =>
      rw [singleBlanks_append hne hblanks hrest]
      refine ⟨?_, List.isChain_cons.2 ⟨fun d hd _ => ?_, ih.chain⟩⟩
      · intro d hd hblank
        rcases List.mem_cons.1 hd with rfl | hd
        · rfl
        · exact ih.plain d hd hblank
      · rw [head?_singleBlanks] at hd
        obtain ⟨c, hc, rfl⟩ := Option.mem_map.1 hd
        have hsolid := hrest c hc
        rwa [hsolid, if_neg (by decide)]

theorem SingleSpaced.of_infix (h : SingleSpaced text) (hpart : part <:+: text) : SingleSpaced part :=
  ⟨fun c hc => h.plain c (hpart.subset hc), h.chain.infix hpart⟩

theorem SingleSpaced.eq_blank {blanks rest : List Char} (h : SingleSpaced (blanks ++ rest)) (hne : blanks ≠ [])
    (hblanks : ∀ c ∈ blanks, isBlank c = true) : blanks = [' '] := by
  have hfront := h.of_infix (List.prefix_append blanks rest).isInfix
  cases blanks with
  | nil => exact absurd rfl hne
  | cons c blanks =>
      have hc := hblanks c List.mem_cons_self
      cases blanks with
      | nil => rw [hfront.plain c List.mem_cons_self hc]
      | cons d blanks =>
          have hd := (List.isChain_cons_cons.1 hfront.chain).1 hc
          rw [hblanks d (by simp)] at hd
          cases hd

theorem singleBlanks_eq_self (h : SingleSpaced text) : singleBlanks text = text := by
  induction text using blankRuns_induction with
  | nil => rfl
  | solid c text hc ih => rw [singleBlanks_cons hc, ih (h.of_infix (List.suffix_cons c text).isInfix)]
  | run blanks rest hne hblanks hrest ih =>
      rw [singleBlanks_append hne hblanks hrest, ih (h.of_infix (List.suffix_append blanks rest).isInfix),
        h.eq_blank hne hblanks]
      rfl

/-! ## Trimming -/

theorem exists_trim_eq (text : List Char) : ∃ before after, text = before ++ (trim text ++ after) ∧
    (∀ c ∈ before, isBlank c = true) ∧ ∀ c ∈ after, isBlank c = true := by
  obtain ⟨before, hbefore, htext, -⟩ := exists_blanks_append_trimStart text
  obtain ⟨after, hafter, hstart⟩ := exists_trimEnd_append_blanks (trimStart text)
  exact ⟨before, after, by rw [trim, ← hstart, ← htext], hbefore, hafter⟩

theorem filter_trim (text : List Char) :
    (trim text).filter (fun c => !isBlank c) = text.filter fun c => !isBlank c := by
  have hnone {blanks : List Char} (hblanks : ∀ c ∈ blanks, isBlank c = true) :
      blanks.filter (fun c => !isBlank c) = [] := by
    rw [List.filter_eq_nil_iff]
    intro c hc
    simp [hblanks c hc]
  obtain ⟨before, after, htext, hbefore, hafter⟩ := exists_trim_eq text
  conv_rhs => rw [htext]
  rw [List.filter_append, List.filter_append, hnone hbefore, hnone hafter, List.nil_append, List.append_nil]

theorem head?_trim (text : List Char) : (trim text).head?.all (fun c => !isBlank c) = true := by
  obtain ⟨-, -, -, hstart⟩ := exists_blanks_append_trimStart text
  obtain ⟨after, -, hend⟩ := exists_trimEnd_append_blanks (trimStart text)
  rw [hend] at hstart
  rw [trim]
  cases hhead : (trimEnd (trimStart text)).head? with
  | none => rfl
  | some c => simp [hstart.of_append c hhead]

theorem getLast?_trim (text : List Char) : (trim text).getLast?.all (fun c => !isBlank c) = true := by
  have hstops := stops_dropWhile isBlank (trimStart text).reverse
  rw [trim, trimEnd, List.getLast?_reverse]
  cases hhead : ((trimStart text).reverse.dropWhile isBlank).head? with
  | none => rfl
  | some c => simp [hstops c hhead]

theorem trim_eq_of_spaced (h : Spaced text) : trim text = text := by
  have hstops {text : List Char} (hhead : text.head?.all (fun c => !isBlank c) = true) : Stops isBlank text := by
    intro c hc
    simpa [hc] using hhead
  have hstart : trimStart text = text := trimStart_of_stops (hstops h.head)
  have hend : text.reverse.dropWhile isBlank = text.reverse :=
    trimStart_of_stops (hstops (by rw [List.head?_reverse]; exact h.last))
  rw [trim, hstart, trimEnd, hend, List.reverse_reverse]

theorem isAllBlank_iff : isAllBlank text = true ↔ text.filter (fun c => !isBlank c) = [] := by
  rw [isAllBlank, List.all_eq_true, List.filter_eq_nil_iff]
  simp

end ComponentBuilder.Agent
