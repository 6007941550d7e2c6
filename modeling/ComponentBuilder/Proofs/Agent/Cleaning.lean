import ComponentBuilder.Proofs.Agent.Phrases
import ComponentBuilder.Proofs.Agent.Spacing

/-!
# What cleaning leaves of a prompt

No suspect phrase is left after the replacements.  Reducing the blanks then makes one again, out of a phrase
with more than one blank or another blank between two of its words, and cleaning the prompt once more replaces
it.
-/

namespace ComponentBuilder.Agent

open Text

variable {phrase text part : List Char}

/-! ## Phrases with other blanks -/

/-- A part of a text that is a phrase but for its blanks: there may be any run of them for one. -/
inductive Loosely : List Char → List Char → Prop
  | nil : Loosely [] []
  | letter {c d : Char} {phrase part : List Char} (hd : spells c d = true) (hsolid : isBlank d = false)
      (hpart : Loosely phrase part) : Loosely (c :: phrase) (d :: part)
  | gap {blanks phrase part : List Char} (hne : blanks ≠ []) (hblanks : ∀ c ∈ blanks, isBlank c = true)
      (hstop : Stops isBlank part) (hmore : part ≠ []) (hpart : Loosely phrase part) :
      Loosely (' ' :: phrase) (blanks ++ part)

/-- A phrase stands somewhere in a text, but for its blanks. -/
def HoldsLoosely (phrase text : List Char) : Prop :=
  ∃ part, part <:+: text ∧ Loosely phrase part

theorem startsWith_singleBlanks_of_loosely (h : Loosely phrase part) (back : List Char) :
    startsWith phrase (singleBlanks (part ++ back)) = true := by
  induction h with
  | nil => rfl
  | letter hd hsolid _ ih =>
      rw [List.cons_append, singleBlanks_cons hsolid]
      exact Bool.and_eq_true_iff.2 ⟨hd, ih⟩
  | @gap blanks phrase part hne hblanks hstop hmore _ ih =>
      have hstop : Stops isBlank (part ++ back) := by
        cases part with
        | nil => exact absurd rfl hmore
        | cons c part => exact stops_cons.2 (stops_cons.1 hstop)
      rw [List.append_assoc, singleBlanks_append hne hblanks hstop]
      exact Bool.and_eq_true_iff.2 ⟨by decide, ih⟩

theorem Loosely.ne_nil (h : Loosely phrase part) (hphrase : phrase ≠ []) : part ≠ [] := by
  cases h with
  | nil => exact absurd rfl hphrase
  | letter => exact List.cons_ne_nil _ _
  | gap hne => exact List.append_ne_nil_of_left_ne_nil hne _

theorem getLast?_ne_of_cons {c d : Char} {text : List Char} (h : (c :: text).getLast? ≠ some d) :
    text.getLast? ≠ some d := by
  cases text with
  | nil => nofun
  | cons e text => rwa [List.getLast?_cons_cons] at h

/-- What begins with a phrase once its blanks are single began with it but for its blanks. -/
theorem exists_loosely_of_startsWith (hchars : ∀ c ∈ phrase, c.isAlpha = true ∨ c = ' ')
    (hlast : phrase.getLast? ≠ some ' ') (h : startsWith phrase (singleBlanks text) = true) :
    ∃ part back, text = part ++ back ∧ Loosely phrase part := by
  induction text using blankRuns_induction generalizing phrase with
  | nil =>
      cases phrase with
      | nil => exact ⟨[], [], rfl, .nil⟩
      | cons c phrase => cases h
  | solid d text hd ih =>
      cases phrase with
      | nil => exact ⟨[], d :: text, rfl, .nil⟩
      | cons c phrase =>
          rw [singleBlanks_cons hd] at h
          obtain ⟨hspells, hmore⟩ := Bool.and_eq_true_iff.1 h
          obtain ⟨part, back, rfl, hpart⟩ := ih (fun e he => hchars e (List.mem_cons_of_mem c he))
            (getLast?_ne_of_cons hlast) hmore
          exact ⟨d :: part, back, rfl, .letter hspells hd hpart⟩
  | run blanks rest hne hblanks hrest ih =>
      cases phrase with
      | nil => exact ⟨[], blanks ++ rest, rfl, .nil⟩
      | cons c phrase =>
          rw [singleBlanks_append hne hblanks hrest] at h
          obtain ⟨hspells, hmore⟩ := Bool.and_eq_true_iff.1 h
          obtain ⟨rfl, -⟩ := eq_blank_of_spells (hchars c List.mem_cons_self) hspells (by decide)
          obtain ⟨part, back, rfl, hpart⟩ := ih (fun e he => hchars e (List.mem_cons_of_mem _ he))
            (getLast?_ne_of_cons hlast) hmore
          have hphrase : phrase ≠ [] := by
            rintro rfl
            exact hlast rfl
          exact ⟨blanks ++ part, back, by rw [List.append_assoc],
            .gap hne hblanks hrest.of_append (hpart.ne_nil hphrase) hpart⟩

/-- Reducing the blanks makes the phrases out of those that differ in their blanks. -/
theorem holds_singleBlanks_iff (h : Wording phrase) :
    Holds phrase (singleBlanks text) ↔ HoldsLoosely phrase text := by
  constructor
  · rintro ⟨front, back, hsplit, hstarts⟩
    obtain ⟨later, hlater, rfl⟩ := exists_of_suffix_singleBlanks ⟨front, hsplit.symm⟩
    obtain ⟨part, rest, rfl, hpart⟩ := exists_loosely_of_startsWith h.chars h.last hstarts
    exact ⟨part, (List.prefix_append part rest).isInfix.trans hlater.isInfix, hpart⟩
  · rintro ⟨part, ⟨front, back, hsplit⟩, hpart⟩
    have hstarts := startsWith_singleBlanks_of_loosely hpart back
    -- The part begins with no blank, and from there on the blanks are reduced as they are in the whole text.
    cases hpart with
    | nil => exact absurd rfl h.ne_nil
    | gap => exact absurd rfl h.head
    | @letter c d phrase part hd hsolid hpart =>
        have hsuffix : d :: (part ++ back) <:+ text :=
          ⟨front, by rw [← hsplit, List.append_assoc, List.cons_append]⟩
        obtain ⟨before, hbefore⟩ := suffix_singleBlanks hsolid hsuffix
        exact ⟨before, _, hbefore.symm, hstarts⟩

theorem Loosely.last (h : Loosely phrase part) : part.getLast?.all (fun c => !isBlank c) = true := by
  induction h with
  | nil => rfl
  | @letter c d phrase part _ hsolid _ ih =>
      rw [List.getLast?_cons]
      cases hlast : part.getLast? with
      | none => simp [hsolid]
      | some e => simpa [hlast] using ih
  | gap _ _ _ hmore _ ih => rwa [List.getLast?_append_of_ne_nil _ hmore]

theorem Loosely.unmarked (h : Loosely phrase part) (hphrase : Wording phrase) : Unmarked part := by
  have hparts : phrase.length ≤ part.length ∧ ∀ d ∈ part, d ≠ '[' ∧ d ≠ ']' := by
    have hchars := hphrase.chars
    clear hphrase
    induction h with
    | nil => exact ⟨le_rfl, nofun⟩
    | @letter c d phrase part hd _ _ ih =>
        obtain ⟨hlength, hpart⟩ := ih fun e he => hchars e (List.mem_cons_of_mem c he)
        refine ⟨Nat.succ_le_succ hlength, fun e he => ?_⟩
        rcases List.mem_cons.1 he with rfl | he
        · exact not_bracket_of_spells (hchars c List.mem_cons_self) hd
        · exact hpart e he
    | @gap blanks phrase part hne hblanks _ _ _ ih =>
        obtain ⟨hlength, hpart⟩ := ih fun e he => hchars e (List.mem_cons_of_mem _ he)
        have hpos := List.length_pos_iff.2 hne
        refine ⟨by rw [List.length_cons, List.length_append]; omega, fun e he => ?_⟩
        rcases List.mem_append.1 he with he | he
        · have hblank := hblanks e he
          refine ⟨?_, ?_⟩ <;> rintro rfl <;> exact absurd hblank (by decide)
        · exact hpart e he
  obtain ⟨hlength, hbracket⟩ := hparts
  exact ⟨hphrase.long.trans_le hlength, fun hmem => (hbracket _ hmem).1 rfl,
    fun hmem => (hbracket _ hmem).2 rfl⟩

/-- No phrase begins or ends with a blank, so trimming takes nothing of one. -/
theorem holdsLoosely_trim_iff (h : Wording phrase) :
    HoldsLoosely phrase (trim text) ↔ HoldsLoosely phrase text := by
  obtain ⟨before, after, htext, hbefore, hafter⟩ := exists_trim_eq text
  constructor
  · rintro ⟨part, hinside, hpart⟩
    refine ⟨part, hinside.trans ⟨before, after, ?_⟩, hpart⟩
    rw [List.append_assoc, ← htext]
  · rintro ⟨part, ⟨front, back, hsplit⟩, hpart⟩
    refine ⟨part, ?_, hpart⟩
    -- Neither its first character nor its last one can be among the blanks that are trimmed.
    have hlast := hpart.last
    cases hpart with
    | nil => exact absurd rfl h.ne_nil
    | gap => exact absurd rfl h.head
    | @letter c d phrase part hd hsolid _ =>
        have hwhole : before ++ (trim text ++ after) = front ++ d :: (part ++ back) := by
          rw [← htext, ← hsplit, List.append_assoc, List.cons_append]
        rcases append_eq_append_cons hwhole with ⟨more, rfl⟩ | ⟨more, rfl, hmiddle⟩
        · rw [hbefore d (by simp)] at hsolid
          cases hsolid
        · obtain ⟨init, e, hinit⟩ := (List.eq_nil_or_concat (d :: part)).resolve_left (List.cons_ne_nil d part)
          rw [List.concat_eq_append] at hinit
          have hlater : trim text ++ after = (more ++ init) ++ e :: back := by
            rw [hmiddle, ← List.cons_append, hinit]
            simp
          rcases append_eq_append_cons hlater with ⟨rest, hrest⟩ | ⟨rest, -, rfl⟩
          · rw [hinit, hrest]
            exact ⟨more, rest, by simp⟩
          · rw [hinit, List.getLast?_concat, Option.all_some, hafter e (by simp)] at hlast
            cases hlast

/-! ## Clean prompts -/

/-- A clean prompt has no blanks but single plain ones between other characters. -/
theorem spaced_cleanChars (prompt : List Char) : Spaced (cleanChars prompt) := by
  have hside {c? : Option Char} (h : c?.all (fun c => !isBlank c) = true) :
      (c?.map fun c => if isBlank c then ' ' else c).all (fun c => !isBlank c) = true := by
    cases c? with
    | none => rfl
    | some c =>
        have hc : isBlank c = false := by simpa using h
        simp [hc]
  refine ⟨singleSpaced_singleBlanks _, ?_, ?_⟩
  · rw [cleanChars, head?_singleBlanks]
    exact hside (head?_trim _)
  · rw [cleanChars, getLast?_singleBlanks]
    exact hside (getLast?_trim _)

theorem count_cleanChars (prompt : List Char) :
    (cleanChars prompt).count '[' = (suspectPhrases.foldl neutralise prompt).count '[' := by
  have hsolid : (!isBlank '[') = true := by decide
  have hfilter (text : List Char) : (text.filter fun c => !isBlank c).count '[' = text.count '[' :=
    List.count_filter hsolid
  rw [← hfilter, cleanChars, filter_singleBlanks, filter_trim, hfilter]

/-- A prompt of blanks has no phrase. -/
theorem not_holds_of_isAllBlank (h : Wording phrase) (htext : isAllBlank text = true) : ¬Holds phrase text := by
  rintro ⟨front, back, rfl, hstarts⟩
  have hblanks := List.all_eq_true.1 htext
  obtain ⟨part, more, rfl, hpart⟩ := exists_part_of_startsWith hstarts
  cases hpart with
  | nil => exact h.ne_nil rfl
  | @cons c d phrase part hd _ =>
      obtain ⟨rfl, -⟩ := eq_blank_of_spells (h.chars c List.mem_cons_self) hd (hblanks d (by simp))
      exact h.head rfl

theorem cleanChars_eq_nil_iff (prompt : List Char) : cleanChars prompt = [] ↔ isAllBlank prompt = true := by
  constructor
  · intro hnil
    have hcount := count_cleanChars prompt
    rw [hnil, List.count_nil] at hcount
    have hsame : suspectPhrases.foldl neutralise prompt = prompt := by
      rcases count_foldl_neutralise wording_of_mem_suspectPhrases prompt with hless | hnone
      · rw [← hcount] at hless
        exact absurd hless (Nat.not_lt_zero _)
      · exact foldl_neutralise_eq_self wording_of_mem_suspectPhrases hnone
    have hfilter : (cleanChars prompt).filter (fun c => !isBlank c) = prompt.filter fun c => !isBlank c := by
      rw [cleanChars, filter_singleBlanks, filter_trim, hsame]
    rw [isAllBlank_iff, ← hfilter, hnil]
    rfl
  · intro hblank
    have hsame := foldl_neutralise_eq_self wording_of_mem_suspectPhrases fun phrase hphrase =>
      not_holds_of_isAllBlank (wording_of_mem_suspectPhrases phrase hphrase) hblank
    have hstart : trimStart prompt = [] := List.dropWhile_eq_nil_iff.2 (List.all_eq_true.1 hblank)
    rw [cleanChars, hsame, trim, hstart]
    rfl

/-- Cleaning again changes nothing exactly when no phrase is left. -/
theorem cleanChars_cleanChars_iff (prompt : List Char) :
    cleanChars (cleanChars prompt) = cleanChars prompt ↔
      ∀ phrase ∈ suspectPhrases, ¬Holds phrase.toList (cleanChars prompt) := by
  have hspaced := spaced_cleanChars prompt
  generalize cleanChars prompt = text at hspaced ⊢
  constructor
  · -- The marks that a replacement adds are still there after the rest, so there can have been none.
    intro hsame
    have hcount := count_cleanChars text
    rw [hsame] at hcount
    exact (count_foldl_neutralise wording_of_mem_suspectPhrases text).resolve_left hcount.not_lt
  · intro hnone
    rw [cleanChars, foldl_neutralise_eq_self wording_of_mem_suspectPhrases hnone, trim_eq_of_spaced hspaced,
      singleBlanks_eq_self hspaced.toSingleSpaced]

theorem holds_cleanChars_iff (h : Wording phrase) (prompt : List Char) :
    Holds phrase (cleanChars prompt) ↔ HoldsLoosely phrase (suspectPhrases.foldl neutralise prompt) := by
  rw [cleanChars, holds_singleBlanks_iff h, holdsLoosely_trim_iff h]

/-- A phrase that the prompt has only with single plain blanks is not in what cleaning leaves. -/
theorem not_holds_cleanChars {phrase : String} (hphrase : phrase ∈ suspectPhrases) {prompt : List Char}
    (h : ∀ part, part <:+: prompt → Loosely phrase.toList part → startsWith phrase.toList part = true) :
    ¬Holds phrase.toList (cleanChars prompt) := by
  have hwording := wording_of_mem_suspectPhrases phrase hphrase
  rw [holds_cleanChars_iff hwording]
  rintro ⟨part, hinside, hpart⟩
  have hprompt : part <:+: prompt :=
    infix_of_infix_foldl (fun other hother => (wording_of_mem_suspectPhrases other hother).ne_nil)
      (hpart.unmarked hwording) hinside
  obtain ⟨front, back, hsplit⟩ := hinside
  obtain ⟨whole, rest, rfl, hwhole⟩ := exists_part_of_startsWith (h part hprompt hpart)
  refine not_holds_foldl wording_of_mem_suspectPhrases prompt phrase hphrase
    ⟨front, whole ++ rest ++ back, by rw [← hsplit, List.append_assoc], ?_⟩
  rw [List.append_assoc]
  exact startsWith_of_forall₂ hwhole (rest ++ back)

/-- A clean prompt has a phrase where the text had it, after the replacements, in another spacing; only then
does cleaning again change it.  It is empty for a prompt of blanks alone, and has single inner blanks. -/
theorem cleanPrompt_complete_iff (prompt : String) :
    (∀ phrase ∈ suspectPhrases, (Pattern.anyCase phrase).occurs (cleanPrompt prompt).toList = true ↔
      HoldsLoosely phrase.toList (suspectPhrases.foldl neutralise prompt.toList)) ∧
    (∀ phrase ∈ suspectPhrases, (∀ part, part <:+: prompt.toList → Loosely phrase.toList part →
      startsWith phrase.toList part = true) →
        (Pattern.anyCase phrase).occurs (cleanPrompt prompt).toList = false) ∧
    (cleanPrompt (cleanPrompt prompt) = cleanPrompt prompt ↔
      ∀ phrase ∈ suspectPhrases, (Pattern.anyCase phrase).occurs (cleanPrompt prompt).toList = false) ∧
    (cleanPrompt prompt = "" ↔ isAllBlank prompt.toList = true) ∧
    Spaced (cleanPrompt prompt).toList := by
  have hoccurs {phrase : String} (hphrase : phrase ∈ suspectPhrases) (text : List Char) :
      (Pattern.anyCase phrase).occurs text = true ↔ Holds phrase.toList text :=
    occurs_anyCase_iff (wording_of_mem_suspectPhrases phrase hphrase).ne_nil
  have hnone {phrase : String} (hphrase : phrase ∈ suspectPhrases) (text : List Char) :
      (Pattern.anyCase phrase).occurs text = false ↔ ¬Holds phrase.toList text := by
    rw [← hoccurs hphrase, Bool.not_eq_true]
  have hclean : (cleanPrompt prompt).toList = cleanChars prompt.toList := String.toList_ofList
  refine ⟨fun phrase hphrase => ?_, fun phrase hphrase hsingle => ?_, ?_, ?_, ?_⟩
  · rw [hclean, hoccurs hphrase, holds_cleanChars_iff (wording_of_mem_suspectPhrases phrase hphrase)]
  · rw [hclean, hnone hphrase]
    exact not_holds_cleanChars hphrase hsingle
  · have hagain : cleanPrompt (cleanPrompt prompt) = cleanPrompt prompt ↔
        cleanChars (cleanChars prompt.toList) = cleanChars prompt.toList := by
      rw [← String.toList_inj, hclean, cleanPrompt, hclean, String.toList_ofList]
    rw [hagain, cleanChars_cleanChars_iff, hclean]
    exact forall₂_congr fun phrase hphrase => (hnone hphrase _).symm
  · rw [← cleanChars_eq_nil_iff, ← hclean, String.toList_eq_nil_iff]
  · rw [hclean]
    exact spaced_cleanChars prompt.toList

/-- Two blanks between the words of a phrase keep it from the replacement, and are one blank afterwards. -/
theorem cleanPrompt_respaced :
    cleanPrompt "you  are now" = "you are now" ∧ "you are now" ∈ suspectPhrases ∧
      (Pattern.anyCase "you are now").occurs (cleanPrompt "you  are now").toList = true ∧
      cleanPrompt (cleanPrompt "you  are now") = "[CLEANED]" := by
  decide +kernel

end ComponentBuilder.Agent
