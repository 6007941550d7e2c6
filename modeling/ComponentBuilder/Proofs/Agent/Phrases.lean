import ComponentBuilder.Agent.CleanPrompt
import ComponentBuilder.Proofs.Text.Occurrence
import ComponentBuilder.Proofs.Text.Replacing

/-!
# Replacing suspect phrases

The mark has brackets around a short word, and no suspect phrase has a bracket or is as short, so no
replacement makes an occurrence of a phrase: after the last one none is left, and every one that changed the
text has left a mark.
-/

namespace ComponentBuilder.Agent

open Text

variable {phrase text : List Char}

/-! ## Spelling a phrase -/

/-- Whether a character stands for one of a phrase, in either case if that is a letter. -/
def spells (c d : Char) : Bool :=
  if c.isAlpha then sameLetter c d else c == d

/-- Whether a text begins with a phrase, in whatever case. -/
def startsWith : List Char → List Char → Bool
  | [], _ => true
  | _ :: _, [] => false
  | c :: phrase, d :: text => spells c d && startsWith phrase text

/-- A phrase stands somewhere in a text. -/
def Holds (phrase text : List Char) : Prop :=
  ∃ front back, text = front ++ back ∧ startsWith phrase back = true

/-- How much of a text a phrase takes. -/
def phraseSize (phrase text : List Char) : Nat :=
  if startsWith phrase text then phrase.length else 0

theorem phraseSize_eq_zero_iff (hphrase : phrase ≠ []) :
    phraseSize phrase text = 0 ↔ startsWith phrase text = false := by
  have hlength : phrase.length ≠ 0 := fun h => hphrase (List.length_eq_zero_iff.1 h)
  unfold phraseSize
  split <;> simp_all

theorem measures_anyCase {phrase : String} (hphrase : phrase.toList ≠ []) :
    (Pattern.anyCase phrase).Measures (phraseSize phrase.toList) := by
  have hrun (letters : List Char) (behind text : List Char) (offset : Nat) :
      (letters.foldr (fun c p => Pattern.seq (.one fun d => if c.isAlpha then sameLetter c d else c == d) p)
        .nothing).run some ⟨behind, offset, text, []⟩ =
          if startsWith letters text then
            some (Pattern.after behind offset (text.take letters.length) (text.drop letters.length) [])
          else none := by
    induction letters generalizing behind offset text with
    | nil => rfl
    | cons c letters ih =>
        cases text with
        | nil => rfl
        | cons d text =>
            have hspells : (if c.isAlpha then sameLetter c d else c == d) = spells c d := rfl
            rw [List.foldr_cons, Pattern.run, Pattern.run, List.head?_cons, Option.any_some, hspells]
            cases hd : spells c d with
            | false => simp [startsWith, hd]
            | true =>
                have hnext : Spot.next ⟨behind, offset, d :: text, []⟩ =
                    ⟨d :: behind, offset + 1, text, []⟩ := rfl
                rw [if_pos rfl, hnext, ih]
                simp [startsWith, hd, Pattern.after_cons]
  intro behind offset text
  rw [Pattern.matchAt?, Pattern.anyCase, hrun]
  cases hstarts : startsWith phrase.toList text with
  | false => rw [if_neg (by decide), if_pos ((phraseSize_eq_zero_iff hphrase).2 hstarts)]
  | true =>
      have hne : phraseSize phrase.toList text ≠ 0 := by
        rw [Ne, phraseSize_eq_zero_iff hphrase, hstarts]
        decide
      have hsize : phraseSize phrase.toList text = phrase.toList.length := by
        rw [phraseSize, if_pos hstarts]
      rw [if_pos rfl, if_neg hne, hsize]

theorem occurs_anyCase_iff {phrase : String} (hphrase : phrase.toList ≠ []) :
    (Pattern.anyCase phrase).occurs text = true ↔ Holds phrase.toList text := by
  simp only [Pattern.occurs_iff_of_measures (measures_anyCase hphrase), Ne, phraseSize_eq_zero_iff hphrase,
    Bool.not_eq_false, Holds]

/-! ## The wording of phrases -/

/-- A phrase of words in letters, longer than the word of the mark. -/
structure Wording (phrase : List Char) : Prop where
  long : 7 < phrase.length
  chars : ∀ c ∈ phrase, c.isAlpha = true ∨ c = ' '
  head : phrase.head? ≠ some ' '
  last : phrase.getLast? ≠ some ' '

instance : DecidablePred Wording := fun _ =>
  decidable_of_iff (_ ∧ _ ∧ _ ∧ _)
    ⟨fun ⟨long, chars, head, last⟩ => ⟨long, chars, head, last⟩, fun h => ⟨h.long, h.chars, h.head, h.last⟩⟩

theorem wording_of_mem_suspectPhrases : ∀ phrase ∈ suspectPhrases, Wording phrase.toList := by
  decide

theorem Wording.ne_nil (h : Wording phrase) : phrase ≠ [] := by
  rintro rfl
  exact absurd h.long (by decide)

theorem isWord_of_spells {c d : Char} (hc : c.isAlpha = true) (h : spells c d = true) : isWord d = true := by
  rw [spells, if_pos hc] at h
  exact isWord_of_sameLetter hc h

/-- Only a blank of the phrase stands for a blank, and only for the plain one. -/
theorem eq_blank_of_spells {c d : Char} (hc : c.isAlpha = true ∨ c = ' ') (h : spells c d = true)
    (hd : isBlank d = true) : c = ' ' ∧ d = ' ' := by
  rcases hc with hc | rfl
  · rw [isBlank_eq_false_of_isWord (isWord_of_spells hc h)] at hd
    cases hd
  · exact ⟨rfl, (eq_of_beq h).symm⟩

/-- No character of a phrase stands for a bracket. -/
theorem not_bracket_of_spells {c d : Char} (hc : c.isAlpha = true ∨ c = ' ') (h : spells c d = true) :
    d ≠ '[' ∧ d ≠ ']' := by
  have hword : isWord '[' = false ∧ isWord ']' = false := by decide
  rcases hc with hc | rfl
  · have hd := isWord_of_spells hc h
    refine ⟨?_, ?_⟩ <;> rintro rfl
    · rw [hword.1] at hd
      cases hd
    · rw [hword.2] at hd
      cases hd
  · obtain rfl : ' ' = d := eq_of_beq h
    exact ⟨by decide, by decide⟩

/-! ## Parts of a text after a replacement -/

/-- A part of a text that is too long to be the word of the mark, and without a bracket. -/
structure Unmarked (part : List Char) : Prop where
  long : 7 < part.length
  opening : '[' ∉ part
  closing : ']' ∉ part

theorem cleanedMark_eq : cleanedMark.toList = '[' :: ("CLEANED".toList ++ [']']) := by
  decide

variable {size : List Char → Nat} {part : List Char}

theorem prefix_of_prefix_substitute (h : part <+: Pattern.substitute size cleanedMark.toList text)
    (hpart : '[' ∉ part) : part <+: text := by
  induction text using Pattern.substitute.induct size generalizing part with
  | case1 => rwa [Pattern.substitute] at h
  | case2 c rest hsize ih =>
      rw [Pattern.substitute_cons_of_eq hsize] at h
      cases part with
      | nil => exact List.nil_prefix
      | cons d part =>
          obtain ⟨rfl, hrest⟩ := List.cons_prefix_cons.1 h
          exact List.cons_prefix_cons.2 ⟨rfl, ih hrest fun hmem => hpart (List.mem_cons_of_mem d hmem)⟩
  | case3 c rest hsize ih =>
      rw [Pattern.substitute, if_neg hsize, cleanedMark_eq, List.cons_append] at h
      cases part with
      | nil => exact List.nil_prefix
      | cons d part =>
          obtain ⟨rfl, -⟩ := List.cons_prefix_cons.1 h
          exact absurd List.mem_cons_self hpart

/-- A part that the mark does not explain stood in the text, and nothing was taken there. -/
theorem exists_of_infix_substitute (hpart : Unmarked part)
    (h : part <:+: Pattern.substitute size cleanedMark.toList text) :
    ∃ front back, text = front ++ (part ++ back) ∧ size (part ++ back) = 0 := by
  induction text using Pattern.substitute.induct size with
  | case1 =>
      rw [Pattern.substitute] at h
      have hlong := hpart.long
      rw [List.infix_nil.1 h] at hlong
      exact absurd hlong (by decide)
  | case2 c rest hsize ih =>
      rw [Pattern.substitute_cons_of_eq hsize] at h
      rcases List.infix_cons_iff.1 h with hprefix | hinside
      · rw [← @Pattern.substitute_cons_of_eq size cleanedMark.toList c rest hsize] at hprefix
        obtain ⟨back, hback⟩ := prefix_of_prefix_substitute hprefix hpart.opening
        exact ⟨[], back, hback.symm, by rwa [hback]⟩
      · obtain ⟨front, back, rfl, hnone⟩ := ih hinside
        exact ⟨c :: front, back, rfl, hnone⟩
  | case3 c rest hsize ih =>
      rw [Pattern.substitute, if_neg hsize, cleanedMark_eq, List.cons_append, List.append_assoc] at h
      have hlong := hpart.long
      -- The part is on one side of either bracket of the mark, and too long to be between them.
      rcases @infix_of_infix_append_cons part [] _ '[' hpart.opening h with hnil | hword
      · rw [List.infix_nil.1 hnil] at hlong
        exact absurd hlong (by decide)
      rcases infix_of_infix_append_cons hpart.closing hword with hinside | hafter
      · exact absurd (hlong.trans_le hinside.length_le) (by decide)
      · obtain ⟨front, back, hrest, hnone⟩ := ih hafter
        refine ⟨c :: (rest.take (size (c :: rest) - 1) ++ front), back, ?_, hnone⟩
        rw [List.cons_append, List.append_assoc, ← hrest, List.take_append_drop]

/-! ## What the replacements leave -/

theorem neutralise_eq {phrase : String} (h : phrase.toList ≠ []) (text : List Char) :
    neutralise text phrase = Pattern.substitute (phraseSize phrase.toList) cleanedMark.toList text :=
  Pattern.replace_eq_substitute (measures_anyCase h) _ text

theorem exists_part_of_startsWith (h : startsWith phrase text = true) :
    ∃ part back, text = part ++ back ∧ List.Forall₂ (fun c d => spells c d = true) phrase part := by
  induction phrase generalizing text with
  | nil => exact ⟨[], text, rfl, .nil⟩
  | cons c phrase ih =>
      cases text with
      | nil => cases h
      | cons d text =>
          obtain ⟨hd, htext⟩ := Bool.and_eq_true_iff.1 h
          obtain ⟨part, back, rfl, hpart⟩ := ih htext
          exact ⟨d :: part, back, rfl, .cons hd hpart⟩

theorem startsWith_of_forall₂ (h : List.Forall₂ (fun c d => spells c d = true) phrase part)
    (back : List Char) : startsWith phrase (part ++ back) = true := by
  induction h with
  | nil => rfl
  | cons hd _ ih => exact Bool.and_eq_true_iff.2 ⟨hd, ih⟩

theorem Wording.unmarked (h : Wording phrase)
    (hpart : List.Forall₂ (fun c d => spells c d = true) phrase part) : Unmarked part := by
  have hbracket : ∀ d ∈ part, d ≠ '[' ∧ d ≠ ']' := by
    intro d hd
    obtain ⟨i, hi, rfl⟩ := List.getElem_of_mem hd
    have hbound : i < phrase.length := hpart.length_eq ▸ hi
    exact not_bracket_of_spells (h.chars _ (List.getElem_mem hbound)) (hpart.get hbound hi)
  exact ⟨hpart.length_eq ▸ h.long, fun hmem => (hbracket _ hmem).1 rfl, fun hmem => (hbracket _ hmem).2 rfl⟩

/-- A phrase that has been replaced is gone. -/
theorem not_holds_neutralise {phrase : String} (h : Wording phrase.toList) (text : List Char) :
    ¬Holds phrase.toList (neutralise text phrase) := by
  rintro ⟨front, back, hsplit, hstarts⟩
  obtain ⟨part, more, rfl, hpart⟩ := exists_part_of_startsWith hstarts
  rw [neutralise_eq h.ne_nil] at hsplit
  obtain ⟨before, rest, -, hsize⟩ := exists_of_infix_substitute (h.unmarked hpart) ⟨front, more, by
    rw [hsplit, List.append_assoc]⟩
  rw [phraseSize_eq_zero_iff h.ne_nil, startsWith_of_forall₂ hpart] at hsize
  cases hsize

/-- A replacement makes no part that the mark does not explain. -/
theorem infix_of_infix_neutralise {phrase : String} (hphrase : phrase.toList ≠ []) (hpart : Unmarked part)
    (h : part <:+: neutralise text phrase) : part <:+: text := by
  rw [neutralise_eq hphrase] at h
  obtain ⟨front, back, rfl, -⟩ := exists_of_infix_substitute hpart h
  exact ⟨front, back, List.append_assoc ..⟩

theorem infix_of_infix_foldl {phrases : List String} (hphrases : ∀ phrase ∈ phrases, phrase.toList ≠ [])
    (hpart : Unmarked part) (h : part <:+: phrases.foldl neutralise text) : part <:+: text := by
  induction phrases generalizing text with
  | nil => exact h
  | cons phrase phrases ih =>
      have hlater := ih (fun other hother => hphrases other (List.mem_cons_of_mem _ hother)) h
      exact infix_of_infix_neutralise (hphrases phrase List.mem_cons_self) hpart hlater

theorem holds_of_holds_foldl {phrases : List String} (hphrases : ∀ phrase ∈ phrases, phrase.toList ≠ [])
    (hphrase : Wording phrase) (h : Holds phrase (phrases.foldl neutralise text)) : Holds phrase text := by
  obtain ⟨front, back, hsplit, hstarts⟩ := h
  obtain ⟨part, more, rfl, hpart⟩ := exists_part_of_startsWith hstarts
  obtain ⟨before, rest, hinside⟩ := infix_of_infix_foldl hphrases (hphrase.unmarked hpart) ⟨front, more, by
    rw [hsplit, List.append_assoc]⟩
  exact ⟨before, part ++ rest, by rw [← hinside, List.append_assoc], startsWith_of_forall₂ hpart rest⟩

/-- After all replacements no phrase is left. -/
theorem not_holds_foldl {phrases : List String} (hphrases : ∀ phrase ∈ phrases, Wording phrase.toList)
    (text : List Char) : ∀ phrase ∈ phrases, ¬Holds phrase.toList (phrases.foldl neutralise text) := by
  induction phrases generalizing text with
  | nil => nofun
  | cons first phrases ih =>
      have hlater : ∀ phrase ∈ phrases, Wording phrase.toList :=
        fun phrase hphrase => hphrases phrase (List.mem_cons_of_mem _ hphrase)
      intro phrase hphrase
      rcases List.mem_cons.1 hphrase with rfl | hphrase
      · intro hholds
        have hwording := hphrases phrase List.mem_cons_self
        exact not_holds_neutralise hwording text
          (holds_of_holds_foldl (fun other hother => (hlater other hother).ne_nil) hwording hholds)
      · exact ih hlater (neutralise text first) phrase hphrase

theorem neutralise_eq_self {phrase : String} (h : Wording phrase.toList) (hnone : ¬Holds phrase.toList text) :
    neutralise text phrase = text := by
  rw [neutralise_eq h.ne_nil]
  apply Pattern.substitute_eq_self
  intro front back hsplit
  rw [phraseSize_eq_zero_iff h.ne_nil, ← Bool.not_eq_true]
  exact fun hstarts => hnone ⟨front, back, hsplit, hstarts⟩

theorem foldl_neutralise_eq_self {phrases : List String} (hphrases : ∀ phrase ∈ phrases, Wording phrase.toList)
    (hnone : ∀ phrase ∈ phrases, ¬Holds phrase.toList text) : phrases.foldl neutralise text = text := by
  induction phrases with
  | nil => rfl
  | cons phrase phrases ih =>
      rw [List.foldl_cons,
        neutralise_eq_self (hphrases phrase List.mem_cons_self) (hnone phrase List.mem_cons_self)]
      exact ih (fun other hother => hphrases other (List.mem_cons_of_mem _ hother))
        fun other hother => hnone other (List.mem_cons_of_mem _ hother)

/-- A replacement adds a mark, or changes nothing. -/
theorem count_neutralise {phrase : String} (h : Wording phrase.toList) (text : List Char) :
    text.count '[' < (neutralise text phrase).count '[' ∨ neutralise text phrase = text := by
  rw [neutralise_eq h.ne_nil]
  induction text using Pattern.substitute.induct (phraseSize phrase.toList) with
  | case1 => exact .inr (by rw [Pattern.substitute])
  | case2 c rest hsize ih =>
      rw [Pattern.substitute_cons_of_eq hsize]
      rcases ih with hless | hsame
      · left
        rw [List.count_cons, List.count_cons]
        omega
      · rw [hsame]
        exact .inr rfl
  | case3 c rest hsize ih =>
      left
      have hstarts : startsWith phrase.toList (c :: rest) = true := by
        rwa [phraseSize_eq_zero_iff h.ne_nil, Bool.not_eq_false] at hsize
      obtain ⟨part, back, hsplit, hpart⟩ := exists_part_of_startsWith hstarts
      have hlength : part.length = phraseSize phrase.toList (c :: rest) := by
        rw [phraseSize, if_pos hstarts, hpart.length_eq]
      have hback : rest.drop (phraseSize phrase.toList (c :: rest) - 1) = back := by
        have hdrop := congrArg (List.drop part.length) hsplit
        obtain ⟨more, hmore⟩ := Nat.exists_eq_succ_of_ne_zero hsize
        rwa [List.drop_left, hlength, hmore, List.drop_succ_cons, ← Nat.add_sub_cancel (n := more) (m := 1),
          ← Nat.succ_eq_add_one, ← hmore] at hdrop
      have hnone : part.count '[' = 0 := List.count_eq_zero.2 (h.unmarked hpart).opening
      have hmark : cleanedMark.toList.count '[' = 1 := by decide
      rw [hback] at ih
      rw [Pattern.substitute, if_neg hsize, hback, hsplit, List.count_append, List.count_append, hnone, hmark]
      rcases ih with hless | hsame
      · omega
      · rw [hsame]
        omega

/-- The replacements add marks, or there was nothing to replace. -/
theorem count_foldl_neutralise {phrases : List String} (hphrases : ∀ phrase ∈ phrases, Wording phrase.toList)
    (text : List Char) : text.count '[' < (phrases.foldl neutralise text).count '[' ∨
      ∀ phrase ∈ phrases, ¬Holds phrase.toList text := by
  induction phrases generalizing text with
  | nil => exact .inr nofun
  | cons phrase phrases ih =>
      have hwording := hphrases phrase List.mem_cons_self
      have hgone := not_holds_neutralise hwording text
      have hothers : ∀ other ∈ phrases, Wording other.toList :=
        fun other hother => hphrases other (List.mem_cons_of_mem _ hother)
      have hlater := ih hothers (neutralise text phrase)
      rw [List.foldl_cons]
      -- Marks are never taken away again, so one that is added counts to the end.
      rcases count_neutralise hwording text with hless | hsame
      · left
        rcases hlater with hmore | hnone
        · exact hless.trans hmore
        · rwa [foldl_neutralise_eq_self hothers hnone]
      · rw [hsame] at hlater hgone ⊢
        refine hlater.imp id fun hnone other hother => ?_
        rcases List.mem_cons.1 hother with rfl | hother
        · exact hgone
        · exact hnone other hother

end ComponentBuilder.Agent
