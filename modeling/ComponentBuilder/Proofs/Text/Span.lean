import ComponentBuilder.Text.Basic
import Mathlib.Data.List.TakeWhile
import Mathlib.Tactic

/-!
# Fronts, blanks and joined texts

The longest front of a text whose characters pass a test, told by what it leaves: the rest stops at a
character that fails the test.  Blanks are no word characters, in ASCII and outside of it.  Texts with a
separator between them are joined around any one of them.
-/

namespace ComponentBuilder.Text

/-- A text that does not begin with a character that passes `keep`. -/
def Stops (keep : Char → Bool) (text : List Char) : Prop :=
  ∀ c, text.head? = some c → keep c = false

theorem stops_nil (keep : Char → Bool) : Stops keep [] := by
  intro c h
  simp at h

theorem stops_cons {keep : Char → Bool} {c : Char} {text : List Char} :
    Stops keep (c :: text) ↔ keep c = false := by
  simp [Stops]

theorem spanFrom_eq (keep : Char → Bool) (seen text : List Char) :
    spanFrom keep seen text = (seen.reverse ++ text.takeWhile keep, text.dropWhile keep) := by
  induction text generalizing seen with
  | nil => simp [spanFrom]
  | cons c text ih =>
      by_cases hc : keep c = true
      · simp [spanFrom, hc, ih]
      · simp [spanFrom, hc]

theorem spanWhile_eq (keep : Char → Bool) (text : List Char) :
    spanWhile keep text = (text.takeWhile keep, text.dropWhile keep) := by
  simp [spanWhile, spanFrom_eq]

theorem stops_dropWhile (keep : Char → Bool) (text : List Char) :
    Stops keep (text.dropWhile keep) := by
  induction text with
  | nil => exact stops_nil keep
  | cons c text ih =>
      by_cases hc : keep c = true
      · rwa [List.dropWhile_cons_of_pos hc]
      · rw [List.dropWhile_cons_of_neg hc, stops_cons]
        simpa using hc

theorem dropWhile_append_stops {keep : Char → Bool} {front rest : List Char}
    (hfront : ∀ c ∈ front, keep c = true) (hrest : Stops keep rest) :
    (front ++ rest).dropWhile keep = rest := by
  rw [List.dropWhile_append_of_pos hfront]
  cases rest with
  | nil => rfl
  | cons c rest =>
      rw [stops_cons] at hrest
      rw [List.dropWhile_cons_of_neg (by simp [hrest])]

theorem takeWhile_append_stops {keep : Char → Bool} {front rest : List Char}
    (hfront : ∀ c ∈ front, keep c = true) (hrest : Stops keep rest) :
    (front ++ rest).takeWhile keep = front := by
  rw [List.takeWhile_append_of_pos hfront]
  cases rest with
  | nil => simp
  | cons c rest =>
      rw [stops_cons] at hrest
      rw [List.takeWhile_cons_of_neg (by simp [hrest]), List.append_nil]

/-- A text has one front of passing characters that stops where the passing ends. -/
theorem spanWhile_eq_iff {keep : Char → Bool} {text front rest : List Char} :
    spanWhile keep text = (front, rest) ↔
      text = front ++ rest ∧ (∀ c ∈ front, keep c = true) ∧ Stops keep rest := by
  rw [spanWhile_eq, Prod.mk.injEq]
  constructor
  · rintro ⟨rfl, rfl⟩
    exact ⟨List.takeWhile_append_dropWhile.symm, fun c hc => List.mem_takeWhile_imp hc,
      stops_dropWhile keep text⟩
  · rintro ⟨rfl, hfront, hrest⟩
    exact ⟨takeWhile_append_stops hfront hrest, dropWhile_append_stops hfront hrest⟩

/-! ## Blanks -/

/-- The code points of the blanks. -/
def blankCodes : List Nat :=
  [9, 10, 11, 12, 13, 28, 29, 30, 31, 32, 0x85, 0xA0, 0x1680, 0x2000, 0x2001, 0x2002, 0x2003, 0x2004,
    0x2005, 0x2006, 0x2007, 0x2008, 0x2009, 0x200A, 0x2028, 0x2029, 0x202F, 0x205F, 0x3000]

theorem toNat_mem_blankCodes {c : Char} (h : isBlank c = true) : c.toNat ∈ blankCodes := by
  simp only [isBlank, Bool.or_eq_true, Bool.and_eq_true, decide_eq_true_eq, beq_iff_eq] at h
  simp only [blankCodes, List.mem_cons, List.not_mem_nil, or_false]
  omega

-- The table of a class is a literal of many hundred numbers, deeper than the usual limit.
set_option maxRecDepth 20000 in
theorem not_isWord_of_mem_blankCodes :
    ∀ code ∈ blankCodes, isWord (Char.ofNat code) = false := by
  decide

/-- A blank is no word character. -/
theorem isWord_eq_false_of_isBlank {c : Char} (h : isBlank c = true) : isWord c = false := by
  have hword := not_isWord_of_mem_blankCodes c.toNat (toNat_mem_blankCodes h)
  rwa [Char.ofNat_toNat] at hword

theorem isBlank_eq_false_of_isWord {c : Char} (h : isWord c = true) : isBlank c = false := by
  by_contra hblank
  rw [Bool.not_eq_false] at hblank
  rw [isWord_eq_false_of_isBlank hblank] at h
  simp at h

theorem not_isDigit_of_mem_blankCodes :
    ∀ code ∈ blankCodes, (Char.ofNat code).isDigit = false := by
  decide

theorem isBlank_eq_false_of_isDigit {c : Char} (h : c.isDigit = true) : isBlank c = false := by
  by_contra hblank
  rw [Bool.not_eq_false] at hblank
  have hdigit := not_isDigit_of_mem_blankCodes c.toNat (toNat_mem_blankCodes hblank)
  rw [Char.ofNat_toNat, h] at hdigit
  cases hdigit

set_option maxRecDepth 20000 in
theorem not_isLetter_of_mem_blankCodes :
    ∀ code ∈ blankCodes, isLetter (Char.ofNat code) = false := by
  decide

theorem isBlank_eq_false_of_isLetter {c : Char} (h : isLetter c = true) : isBlank c = false := by
  by_contra hblank
  rw [Bool.not_eq_false] at hblank
  have hletter := not_isLetter_of_mem_blankCodes c.toNat (toNat_mem_blankCodes hblank)
  rw [Char.ofNat_toNat, h] at hletter
  simp at hletter

theorem toNat_lt_of_isAlpha {c : Char} (h : c.isAlpha = true) : c.toNat < 128 := by
  have halpha : c.isAlpha =
      (decide (65 ≤ c.val ∧ c.val ≤ 90) || (decide (97 ≤ c.val) && decide (c.val ≤ 122))) := rfl
  simp only [halpha, Bool.or_eq_true, Bool.and_eq_true, decide_eq_true_eq, UInt32.le_iff_toNat_le] at h
  have hval : c.toNat = c.val.toNat := rfl
  rw [hval]
  rcases h with ⟨-, h⟩ | ⟨-, h⟩ <;> exact Nat.lt_of_le_of_lt h (by decide)

theorem isWord_of_isAlpha {c : Char} (h : c.isAlpha = true) : isWord c = true := by
  simp [isWord, toNat_lt_of_isAlpha h, Char.isAlphanum, h]

theorem isWord_of_isDigit {c : Char} (h : c.isDigit = true) : isWord c = true := by
  have hdigit : c.isDigit = (decide (48 ≤ c.val) && decide (c.val ≤ 57)) := rfl
  have hlt : c.toNat < 128 := by
    rw [hdigit, Bool.and_eq_true, decide_eq_true_eq, decide_eq_true_eq, UInt32.le_iff_toNat_le,
      UInt32.le_iff_toNat_le] at h
    exact Nat.lt_of_le_of_lt h.2 (by decide)
  simp [isWord, hlt, Char.isAlphanum, h]

theorem isWord_of_isAlpha_toLower {c : Char} (h : c.toLower.isAlpha = true) : isWord c = true := by
  apply isWord_of_isAlpha
  cases hupper : c.isUpper with
  | true => exact Bool.or_eq_true_iff.2 (.inl hupper)
  | false =>
      have hnot : ¬(c.val ≥ 'A'.val ∧ c.val ≤ 'Z'.val) := fun hrange =>
        Bool.false_ne_true (hupper.symm.trans (decide_eq_true hrange))
      have hsame : c.toLower = c := dif_neg hnot
      rwa [hsame] at h

set_option maxRecDepth 20000 in
/-- The characters outside of ASCII that count as English letters when case is ignored are word characters. -/
theorem isWord_of_foldedCode : ∀ code ∈ [0x17F, 0x130, 0x131, 0x212A], isWord (Char.ofNat code) = true := by
  decide

theorem isWord_of_sameLetter {letter c : Char} (hletter : letter.isAlpha = true)
    (h : sameLetter letter c = true) : isWord c = true := by
  have hcode {n : Nat} (hc : c.toNat = n) (hn : n ∈ [0x17F, 0x130, 0x131, 0x212A]) : isWord c = true := by
    have hword := isWord_of_foldedCode n hn
    rwa [← hc, Char.ofNat_toNat] at hword
  simp only [sameLetter, Bool.or_eq_true, Bool.and_eq_true, beq_iff_eq] at h
  obtain ((hlower | ⟨-, hc⟩) | ⟨-, hc | hc⟩) | ⟨-, hc⟩ := h
  · exact isWord_of_isAlpha_toLower (hlower ▸ hletter)
  · exact hcode hc (by decide)
  · exact hcode hc (by decide)
  · exact hcode hc (by decide)
  · exact hcode hc (by decide)

theorem Stops.of_append {keep : Char → Bool} {front rest : List Char}
    (h : Stops keep (front ++ rest)) : Stops keep front := by
  intro c hc
  apply h c
  cases front with
  | nil => simp at hc
  | cons d front => exact hc

/-! ## Cutting a text at a character -/

theorem not_mem_of_forall_false {keep : Char → Bool} {text : List Char} {c : Char}
    (htext : ∀ d ∈ text, keep d = false) (hc : keep c = true) : c ∉ text := by
  intro hmem
  rw [htext c hmem] at hc
  cases hc

/-- A character that passes a test is not one that fails it. -/
theorem ne_of_passes {keep : Char → Bool} {c d : Char} (hc : keep c = true) (hd : keep d = false) : c ≠ d := by
  rintro rfl
  rw [hd] at hc
  cases hc

theorem bne_of_not_mem {α : Type} [BEq α] [LawfulBEq α] {items : List α} {item : α} (h : item ∉ items) :
    ∀ other ∈ items, (other != item) = true := by
  intro other hother
  rw [bne_iff_ne]
  rintro rfl
  exact h hother

/-- A character of a text in two parts stands in one of them. -/
theorem append_eq_append_cons {front tail before after : List Char} {c : Char}
    (h : front ++ tail = before ++ c :: after) :
    (∃ more, front = before ++ c :: more) ∨ ∃ more, before = front ++ more ∧ tail = more ++ c :: after := by
  rcases List.append_eq_append_iff.1 h with ⟨more, hbefore, htail⟩ | ⟨more, hfront, hmore⟩
  · exact .inr ⟨more, hbefore, htail⟩
  · cases more with
    | nil => exact .inr ⟨[], by simpa using hfront.symm, hmore.symm⟩
    | cons d more =>
        obtain ⟨rfl, -⟩ := List.cons.inj hmore
        exact .inl ⟨more, hfront⟩

/-- Of two characters of a text one comes first, or they are the same one. -/
theorem append_cons_eq_append_cons {front front' back back' : List Char} {c d : Char}
    (h : front ++ c :: back = front' ++ d :: back') : (front = front' ∧ c = d ∧ back = back') ∨
      (∃ more, front = front' ++ d :: more) ∨ ∃ more, front' = front ++ c :: more := by
  rcases append_eq_append_cons h with ⟨more, hfront⟩ | ⟨more, hfront, hback⟩
  · exact .inr (.inl ⟨more, hfront⟩)
  · cases more with
    | nil => exact .inl ⟨by simpa using hfront.symm, List.cons.inj hback⟩
    | cons e more =>
        obtain ⟨rfl, -⟩ := List.cons.inj hback
        exact .inr (.inr ⟨more, hfront⟩)

theorem splitFrom_append_cons {separator : Char} {front : List Char} (h : separator ∉ front)
    (piece back : List Char) : splitFrom separator piece (front ++ separator :: back) =
      (piece.reverse ++ front) :: splitFrom separator [] back := by
  induction front generalizing piece with
  | nil => simp [splitFrom]
  | cons c front ih =>
      rw [List.mem_cons, not_or] at h
      rw [List.cons_append, splitFrom, if_neg (Ne.symm h.1), ih h.2]
      simp

/-- The first piece of a text goes up to its first separator. -/
theorem split_append_cons {separator : Char} {front : List Char} (h : separator ∉ front) (back : List Char) :
    split separator (front ++ separator :: back) = front :: split separator back :=
  splitFrom_append_cons h [] back

theorem split_eq_singleton {separator : Char} {text : List Char} (h : separator ∉ text) :
    split separator text = [text] := by
  have hpiece (piece text : List Char) (h : separator ∉ text) :
      splitFrom separator piece text = [piece.reverse ++ text] := by
    induction text generalizing piece with
    | nil => simp [splitFrom]
    | cons c text ih =>
        rw [List.mem_cons, not_or] at h
        rw [splitFrom, if_neg (Ne.symm h.1), ih _ h.2]
        simp
  exact hpiece [] text h

/-! ## Trimming -/

theorem trimStart_append_of_stops {blanks text : List Char} (hblanks : ∀ c ∈ blanks, isBlank c = true)
    (htext : Stops isBlank text) : trimStart (blanks ++ text) = text :=
  dropWhile_append_stops hblanks htext

theorem trimStart_of_stops {text : List Char} (h : Stops isBlank text) : trimStart text = text := by
  have hnone : ∀ c ∈ ([] : List Char), isBlank c = true := by simp
  exact trimStart_append_of_stops hnone h

/-- Blanks in front and the text after them. -/
theorem exists_blanks_append_trimStart (text : List Char) :
    ∃ blanks, (∀ c ∈ blanks, isBlank c = true) ∧ text = blanks ++ trimStart text ∧
      Stops isBlank (trimStart text) :=
  ⟨text.takeWhile isBlank, fun _ hc => List.mem_takeWhile_imp hc,
    List.takeWhile_append_dropWhile.symm, stops_dropWhile isBlank text⟩

/-- A text without blanks is left as it is. -/
theorem trim_eq_self {text : List Char} (h : ∀ c ∈ text, isBlank c = false) : trim text = text := by
  have hdrop (text : List Char) (h : ∀ c ∈ text, isBlank c = false) : text.dropWhile isBlank = text := by
    cases text with
    | nil => rfl
    | cons c text => exact List.dropWhile_cons_of_neg (by simp [h c])
  have hreverse : ∀ c ∈ text.reverse, isBlank c = false := fun c hc => h c (List.mem_reverse.1 hc)
  rw [trim, trimStart, hdrop text h, trimEnd, hdrop text.reverse hreverse, List.reverse_reverse]

/-- A text without the blanks at its end, and those blanks. -/
theorem exists_trimEnd_append_blanks (text : List Char) :
    ∃ blanks, (∀ c ∈ blanks, isBlank c = true) ∧ text = trimEnd text ++ blanks := by
  refine ⟨(text.reverse.takeWhile isBlank).reverse, ?_, ?_⟩
  · intro c hc
    rw [List.mem_reverse] at hc
    exact List.mem_takeWhile_imp hc
  · rw [trimEnd, ← List.reverse_append, List.takeWhile_append_dropWhile, List.reverse_reverse]

theorem trimEnd_concat {text : List Char} {c : Char} (h : isBlank c = false) :
    trimEnd (text ++ [c]) = text ++ [c] := by
  simp [trimEnd, h]

/-- A text that begins and ends with characters that are not blank. -/
structure Solid (text : List Char) : Prop where
  first : ∃ c, text.head? = some c ∧ isBlank c = false
  last : ∃ c, text.getLast? = some c ∧ isBlank c = false

theorem Solid.ne_nil {text : List Char} (h : Solid text) : text ≠ [] := by
  rintro rfl
  obtain ⟨c, hc, -⟩ := h.first
  cases hc

theorem solid_singleton {c : Char} (hc : isBlank c = false) : Solid [c] :=
  ⟨⟨c, rfl, hc⟩, ⟨c, rfl, hc⟩⟩

theorem Solid.enclose {front back : List Char} (hfront : Solid front) (middle : List Char) (hback : Solid back) :
    Solid (front ++ (middle ++ back)) := by
  refine ⟨?_, ?_⟩
  · rw [List.head?_append_of_ne_nil _ hfront.ne_nil]
    exact hfront.first
  · rw [← List.append_assoc, List.getLast?_append_of_ne_nil _ hback.ne_nil]
    exact hback.last

/-- Trimming leaves what stands between the blanks. -/
theorem Solid.trim_eq {text front back : List Char} (h : Solid text) (hfront : ∀ c ∈ front, isBlank c = true)
    (hback : ∀ c ∈ back, isBlank c = true) : trim (front ++ (text ++ back)) = text := by
  obtain ⟨c, hc, hfirst⟩ := h.first
  obtain ⟨d, hd, hlast⟩ := h.last
  have hstart : Stops isBlank (text ++ back) := by
    intro e he
    rw [List.head?_append_of_ne_nil _ h.ne_nil, hc] at he
    exact Option.some.inj he ▸ hfirst
  have hend : Stops isBlank text.reverse := by
    intro e he
    rw [List.head?_reverse, hd] at he
    exact Option.some.inj he ▸ hlast
  rw [trim, trimStart_append_of_stops hfront hstart, trimEnd, List.reverse_append,
    dropWhile_append_stops (fun e he => hback e (List.mem_reverse.1 he)) hend, List.reverse_reverse]

theorem trim_eq_nil {text : List Char} (h : ∀ c ∈ text, isBlank c = true) : trim text = [] := by
  rw [trim, trimStart, List.dropWhile_eq_nil_iff.2 h, trimEnd, List.reverse_nil, List.dropWhile_nil, List.reverse_nil]

/-! ## Searching -/

theorem exists_front_of_findFrom {needle seen text before rest : List Char}
    (h : findFrom needle seen text = some (before, rest)) :
    ∃ front, before = seen.reverse ++ front ∧ text = front ++ rest ∧
      needle.isPrefixOf rest = true := by
  induction text generalizing seen with
  | nil =>
      simp only [findFrom] at h
      split_ifs at h with hneedle
      cases h
      rw [List.isEmpty_iff.1 hneedle]
      exact ⟨[], (List.append_nil _).symm, rfl, rfl⟩
  | cons c text ih =>
      simp only [findFrom] at h
      split_ifs at h with hhere
      · cases h
        exact ⟨[], (List.append_nil _).symm, rfl, hhere⟩
      · obtain ⟨front, hbefore, htext, hrest⟩ := ih h
        exact ⟨c :: front, by simpa using hbefore, by rw [htext]; rfl, hrest⟩

/-! ## Joining -/

theorem intercalate_append_cons (breaks : List Char) (before : List (List Char)) (line : List Char)
    (later : List (List Char)) :
    breaks.intercalate (before ++ line :: later) =
      before.flatMap (· ++ breaks) ++ (line ++ later.flatMap (breaks ++ ·)) := by
  induction before with
  | nil =>
      induction later generalizing line with
      | nil => simp
      | cons next later ih =>
          simp only [List.nil_append, List.flatMap_nil] at ih ⊢
          rw [List.intercalate_cons_cons, ih]
          simp
  | cons first before ih =>
      rw [List.cons_append, List.intercalate_cons_of_ne_nil (by simp), ih]
      simp

end ComponentBuilder.Text
