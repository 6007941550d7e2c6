import ComponentBuilder.History.Timestamp
import ComponentBuilder.Proofs.Text.Span

/-!
# Reading back timestamps

A timestamp reads back from its text: every number takes the digits that it was written with, and a fraction
and a zone end where their marks say.
-/

namespace ComponentBuilder.History.Timestamp

open Schema

/-! ## Digits -/

theorem digit_lt_ten : ∀ d < 10, (Char.ofNat (48 + d)).isDigit = true ∧ (Char.ofNat (48 + d)).toNat - 48 = d := by
  decide

theorem isDigit_of_mem_decimals {width n : Nat} {c : Char} (h : c ∈ decimals width n) : c.isDigit = true := by
  induction width generalizing n with
  | zero => cases h
  | succ width ih =>
      rw [decimals, List.mem_append] at h
      rcases h with hfront | hlast
      · exact ih hfront
      · rw [List.mem_singleton.1 hlast]
        exact (digit_lt_ten (n % 10) (Nat.mod_lt n (by decide))).1

theorem length_decimals (width n : Nat) : (decimals width n).length = width := by
  induction width generalizing n with
  | zero => rfl
  | succ width ih => simp [decimals, ih]

/-- The value of digits that are read after others. -/
def valueFrom (start : Nat) (digits : List Char) : Nat :=
  digits.foldl (fun n c => n * 10 + (c.toNat - 48)) start

theorem valueFrom_decimals {width n : Nat} (h : n < 10 ^ width) (start : Nat) :
    valueFrom start (decimals width n) = start * 10 ^ width + n := by
  induction width generalizing n with
  | zero =>
      obtain rfl : n = 0 := by simpa using h
      simp [decimals, valueFrom]
  | succ width ih =>
      rw [Nat.pow_succ] at h
      have hfront := ih (n := n / 10) (by omega)
      have hlast := (digit_lt_ten (n % 10) (Nat.mod_lt n (by decide))).2
      unfold valueFrom at hfront ⊢
      rw [decimals, List.foldl_append, hfront, List.foldl_cons, List.foldl_nil, hlast, Nat.pow_succ]
      have hsplit : n / 10 * 10 + n % 10 = n := by omega
      calc (start * 10 ^ width + n / 10) * 10 + n % 10
          = start * (10 ^ width * 10) + (n / 10 * 10 + n % 10) := by ring
        _ = start * (10 ^ width * 10) + n := by rw [hsplit]

theorem digits?_append {digits : List Char} (h : ∀ c ∈ digits, c.isDigit = true) (start : Nat)
    (rest : List Char) :
    digits? digits.length start (digits ++ rest) = some (valueFrom start digits, rest) := by
  induction digits generalizing start with
  | nil => rfl
  | cons c digits ih =>
      rw [List.length_cons, List.cons_append, digits?, if_pos (h c List.mem_cons_self),
        ih fun d hd => h d (List.mem_cons_of_mem c hd)]
      rfl

/-- Digits of a width read as the number that they were made from. -/
theorem digits?_decimals {width n : Nat} (h : n < 10 ^ width) (rest : List Char) :
    digits? width 0 (decimals width n ++ rest) = some (n, rest) := by
  have hall : ∀ c ∈ decimals width n, c.isDigit = true := fun c hc => isDigit_of_mem_decimals hc
  have hread := digits?_append hall 0 rest
  rw [length_decimals, valueFrom_decimals h] at hread
  simpa using hread

/-! ## Parts of a timestamp -/

theorem digits_four {n : Nat} (h : n < 10000) (rest : List Char) :
    digits? 4 0 (decimals 4 n ++ rest) = some (n, rest) :=
  digits?_decimals h rest

theorem digits_two {n : Nat} (h : n < 100) (rest : List Char) :
    digits? 2 0 (decimals 2 n ++ rest) = some (n, rest) :=
  digits?_decimals h rest

theorem stops_zoneText (zone : Option Int) : Text.Stops Char.isDigit (zoneText zone) := by
  unfold zoneText
  split
  · exact Text.stops_nil _
  · split
    · exact Text.stops_cons.2 rfl
    · split <;> exact Text.stops_cons.2 rfl

theorem head?_zoneText (zone : Option Int) : (zoneText zone).head? ≠ some '.' ∧ (zoneText zone).head? ≠ some ',' := by
  unfold zoneText
  split
  · decide
  · split
    · decide
    · split <;> simp

theorem microOf_decimals {micro : Nat} (h : micro < 1000000) : microOf (decimals 6 micro) = micro := by
  have hsize : micro < 10 ^ 6 := h
  have hvalue := valueFrom_decimals hsize 0
  have htake : (decimals 6 micro ++ List.replicate 6 '0').take 6 = decimals 6 micro :=
    List.take_left' (length_decimals 6 micro)
  rw [microOf, htake]
  simpa [valueFrom] using hvalue

/-- Seconds with their fraction read back up to the zone. -/
theorem seconds?_text {second micro : Nat} (hsecond : second < 60) (hmicro : micro < 1000000)
    (zone : Option Int) :
    seconds? (':' :: (decimals 2 second ++ (microText micro ++ zoneText zone))) =
      some (second, micro, zoneText zone) := by
  rw [seconds?, digits_two (by omega)]
  obtain ⟨hpoint, hcomma⟩ := head?_zoneText zone
  by_cases hzero : micro = 0
  · subst hzero
    simp [microText, hpoint, hcomma]
  · have hspan : Text.spanWhile Char.isDigit (decimals 6 micro ++ zoneText zone) =
        (decimals 6 micro, zoneText zone) :=
      Text.spanWhile_eq_iff.2 ⟨rfl, fun c hc => isDigit_of_mem_decimals hc, stops_zoneText zone⟩
    have hne : (decimals 6 micro).isEmpty = false := by
      rw [List.isEmpty_eq_false_iff, ← List.length_pos_iff, length_decimals]
      decide
    simp [microText, hzero, hspan, hne, microOf_decimals hmicro]

theorem zone?_signed {sign : Char} (hsign : sign = '+' ∨ sign = '-') {hours minutes : Nat} (hhours : hours < 24)
    (hminutes : minutes < 60) :
    zone? (sign :: (decimals 2 hours ++ [':'] ++ decimals 2 minutes)) =
      some (some (if sign = '+' then (hours * 60 + minutes : Int) else -(hours * 60 + minutes : Int))) := by
  have hfirst := digits_two (n := hours) (by omega) (':' :: decimals 2 minutes)
  have hsecond := digits_two (n := minutes) (by omega) []
  have hrange : ¬ 59 < minutes := by omega
  rw [List.append_nil] at hsecond
  rcases hsign with rfl | rfl <;> simp [zone?, hfirst, hsecond, hrange]

theorem zone?_zoneText {zone : Option Int} (h : isZone zone = true) : zone? (zoneText zone) = some zone := by
  cases zone with
  | none => rfl
  | some minutes =>
      simp only [isZone, Option.all_some, decide_eq_true_eq] at h
      unfold zoneText
      by_cases hzero : minutes = 0
      · subst hzero
        rfl
      · have hsize : minutes.natAbs / 60 * 60 + minutes.natAbs % 60 = minutes.natAbs :=
          Nat.div_add_mod' minutes.natAbs 60
        simp only [hzero, if_false]
        by_cases hnegative : minutes < 0
        · rw [if_pos hnegative, zone?_signed (.inr rfl) (by omega) (by omega), if_neg (by decide)]
          congr 2
          omega
        · rw [if_neg hnegative, zone?_signed (.inl rfl) (by omega) (by omega), if_pos rfl]
          congr 2
          omega

theorem daysInMonth_le (year month : Nat) : daysInMonth year month ≤ 31 := by
  unfold daysInMonth
  repeat' split
  all_goals omega

theorem date_text {year month day : Nat} (h : isDay year month day = true) (rest : List Char) :
    date (decimals 4 year ++ '-' :: (decimals 2 month ++ '-' :: (decimals 2 day ++ rest))) =
      .ok (year, month, day, rest) := by
  simp only [isDay, Bool.and_eq_true, decide_eq_true_eq] at h
  obtain ⟨⟨⟨⟨⟨hyear, hyear'⟩, hmonth⟩, hmonth'⟩, hday⟩, hday'⟩ := h
  have hdays := daysInMonth_le year month
  have hnomonth : ¬ (month = 0 ∨ 12 < month) := by omega
  have hnoday : ¬ (day = 0 ∨ daysInMonth year month < day) := by omega
  simp [date, digits_four (n := year) (by omega), digits_two (n := month) (by omega),
    digits_two (n := day) (by omega), hnomonth, hnoday]

/-! ## Timestamps -/

/-- A timestamp reads back from its characters. -/
theorem ofIso?_chars (t : Timestamp) : ofIso? t.chars = some t := by
  have hvalid := t.valid
  simp only [Bool.and_eq_true] at hvalid
  obtain ⟨⟨hday, htime⟩, hzone⟩ := hvalid
  simp only [isTime, Bool.and_eq_true, decide_eq_true_eq] at htime
  obtain ⟨⟨⟨hhour, hminute⟩, hsecond⟩, hmicro⟩ := htime
  have hchars : t.chars = decimals 4 t.year ++ '-' :: (decimals 2 t.month ++ '-' :: (decimals 2 t.day ++
      'T' :: (decimals 2 t.hour ++ ':' :: (decimals 2 t.minute ++ ':' :: (decimals 2 t.second ++
        (microText t.micro ++ zoneText t.zone)))))) := by
    simp [chars]
  have hmark : dateMarks.contains 'T' = true := rfl
  rw [hchars, ofIso?, date_text hday]
  simp only [hmark, Bool.not_true, Bool.false_eq_true, if_false, digits_two (n := t.hour) (by omega),
    digits_two (n := t.minute) (by omega), seconds?_text hsecond hmicro, zone?_zoneText hzone,
    Option.bind_some]
  exact dif_pos t.valid

/-- A timestamp reads back from its text. -/
theorem ofText_text (t : Timestamp) : ofText t.text = .accepted t := by
  rw [ofText, text, String.toList_ofList, ofIso?_chars]

end ComponentBuilder.History.Timestamp
