import ComponentBuilder.Json.Printer
import ComponentBuilder.Json.Reader
import ComponentBuilder.Text.CharClass
import Mathlib.Data.Nat.Digits.Lemmas

/-!
# Reading back strings and integers

The reader of JSON takes back what the printer wrote: every quoted string and every integer of a word.
Strings are also taken back when single characters of the printed text are respelled by escapes, as they
are where JSON has to stand inside other text.
-/

namespace ComponentBuilder.Json

open Reader

/-! ## Respelled characters -/

/-- How the reader reads a string, one written character at a time. -/
structure Respelling (spell : Char → List Char) : Prop where
  /-- Everything that the printer writes outside of strings stays as it is. -/
  ascii (c : Char) : c ≠ '<' → c.toNat < 128 → spell c = [c]
  nonempty (c : Char) : spell c ≠ []
  /-- The text of a character reads as the character, whatever stands before and after it. -/
  reads (c : Char) (halves torn : Bool) (seen rest : List Char) (fuel : Nat) :
    stringFuel halves torn seen (fuel + 1) ((escapeChar c).flatMap spell ++ rest) =
      stringFuel halves torn (c :: seen) fuel rest

theorem hexValue?_hexDigit : ∀ n < 16, hexValue? (hexDigit n) = some n := by
  decide

theorem escape?_controlEscape {n : Nat} (h : n < 32) (rest : List Char) :
    escape? ((controlEscape n).tail ++ rest) = some (Char.ofNat n, rest) := by
  have hhigh := hexValue?_hexDigit (n / 16) (by omega)
  have hlow := hexValue?_hexDigit (n % 16) (by omega)
  have hzero : hexValue? '0' = some 0 := by decide
  have hvalue : ((0 * 16 + 0) * 16 + n / 16) * 16 + n % 16 = n := by omega
  have hfour : hexFour? ('0' :: '0' :: hexDigit (n / 16) :: hexDigit (n % 16) :: rest) =
      some (n, rest) := by
    simp only [hexFour?, hzero, hhigh, hlow, hvalue]
  simp only [controlEscape, List.tail_cons, List.cons_append, List.nil_append, escape?, unicodeEscape?, hfour]
  rw [if_neg (by simp; omega), if_neg (by simp; omega)]

/-- A character after a backslash. -/
theorem stringFuel_escape {halves torn : Bool} {seen rest rest' : List Char} {fuel : Nat} {c : Char}
    (h : escape? rest = some (c, rest')) :
    stringFuel halves torn seen (fuel + 1) ('\\' :: rest) = stringFuel halves torn (c :: seen) fuel rest' := by
  rw [stringFuel, if_neg (by decide), if_pos (by decide), h]

/-- A character that stands for itself. -/
theorem stringFuel_plain {halves torn : Bool} {seen rest : List Char} {fuel : Nat} {c : Char}
    (hquote : c ≠ '"') (hback : c ≠ '\\') (hcontrol : 32 ≤ c.toNat) :
    stringFuel halves torn seen (fuel + 1) (c :: rest) = stringFuel halves torn (c :: seen) fuel rest := by
  rw [stringFuel, if_neg (by simpa using hquote), if_neg (by simpa using hback), if_neg (by omega)]

theorem reads_escapeChar (c : Char) (halves torn : Bool) (seen rest : List Char) (fuel : Nat) :
    stringFuel halves torn seen (fuel + 1) (escapeChar c ++ rest) =
      stringFuel halves torn (c :: seen) fuel rest := by
  unfold escapeChar
  by_cases hquote : c = '"'
  · subst hquote
    exact stringFuel_escape rfl
  rw [if_neg hquote]
  by_cases hback : c = '\\'
  · subst hback
    exact stringFuel_escape rfl
  rw [if_neg hback]
  by_cases hplain : 32 ≤ c.toNat
  · rw [if_pos hplain]
    exact stringFuel_plain hquote hback hplain
  rw [if_neg hplain]
  by_cases hline : c = '\n'
  · subst hline
    exact stringFuel_escape rfl
  rw [if_neg hline]
  by_cases hreturn : c = '\r'
  · subst hreturn
    exact stringFuel_escape rfl
  rw [if_neg hreturn]
  by_cases htab : c = '\t'
  · subst htab
    exact stringFuel_escape rfl
  rw [if_neg htab]
  have hcode : Char.ofNat c.toNat = c := Char.ofNat_toNat c
  by_cases hbackspace : c.toNat = 8
  · rw [if_pos hbackspace]
    rw [hbackspace] at hcode
    rw [← hcode]
    exact stringFuel_escape rfl
  rw [if_neg hbackspace]
  by_cases hfeed : c.toNat = 12
  · rw [if_pos hfeed]
    rw [hfeed] at hcode
    rw [← hcode]
    exact stringFuel_escape rfl
  rw [if_neg hfeed]
  have hescape := escape?_controlEscape (n := c.toNat) (by omega) rest
  rw [hcode] at hescape
  exact stringFuel_escape hescape

/-- What the printer wrote itself. -/
theorem respelling_self : Respelling fun c => [c] where
  ascii _ _ _ := rfl
  nonempty _ := by simp
  reads c halves torn seen rest fuel := by
    rw [List.flatMap_singleton']
    exact reads_escapeChar c halves torn seen rest fuel

namespace Respelling

variable {spell : Char → List Char}

/-- A text without characters that could be respelled. -/
theorem flatMap_ascii (h : Respelling spell) {text : List Char}
    (htext : ∀ c ∈ text, c ≠ '<' ∧ c.toNat < 128) : text.flatMap spell = text := by
  induction text with
  | nil => rfl
  | cons c rest ih =>
      have hc := htext c List.mem_cons_self
      rw [List.flatMap_cons, h.ascii c hc.1 hc.2, ih fun d hd => htext d (List.mem_cons_of_mem c hd)]
      rfl

theorem length_le (h : Respelling spell) (text : List Char) : text.length ≤ (text.flatMap spell).length := by
  induction text with
  | nil => exact Nat.zero_le _
  | cons c rest ih =>
      have hc := List.length_pos_iff.2 (h.nonempty c)
      simp only [List.flatMap_cons, List.length_cons, List.length_append]
      omega

end Respelling

/-! ## Strings -/

theorem escapeChar_ne_nil (c : Char) : escapeChar c ≠ [] := by
  unfold escapeChar controlEscape
  repeat' split
  all_goals simp

section Strings

variable {spell : Char → List Char}

/-- The inside of a quoted string. -/
def inside (s : List Char) : List Char :=
  s.flatMap escapeChar

theorem length_le_inside (s : List Char) : s.length ≤ (inside s).length := by
  induction s with
  | nil => exact Nat.zero_le _
  | cons c rest ih =>
      have hc := List.length_pos_iff.2 (escapeChar_ne_nil c)
      simp only [inside, List.flatMap_cons, List.length_cons, List.length_append] at ih ⊢
      omega

theorem stringFuel_inside (h : Respelling spell) (halves torn : Bool) (s seen rest : List Char) (fuel : Nat)
    (hfuel : s.length < fuel) :
    stringFuel halves torn seen fuel ((inside s).flatMap spell ++ '"' :: rest) =
      some (⟨String.ofList (seen.reverse ++ s), torn⟩, rest) := by
  induction s generalizing seen fuel with
  | nil =>
      obtain ⟨fuel, rfl⟩ := Nat.exists_eq_succ_of_ne_zero (Nat.ne_of_gt hfuel)
      simp [inside, stringFuel]
  | cons c s ih =>
      rw [List.length_cons] at hfuel
      obtain ⟨fuel, rfl⟩ := Nat.exists_eq_succ_of_ne_zero (by omega : fuel ≠ 0)
      have hread := ih (c :: seen) fuel (by omega)
      have hsplit : (inside (c :: s)).flatMap spell ++ '"' :: rest =
          (escapeChar c).flatMap spell ++ ((inside s).flatMap spell ++ '"' :: rest) := by
        simp [inside]
      rw [hsplit, h.reads, hread]
      simp

theorem quote_flatMap (h : Respelling spell) (s : List Char) :
    (quote s).flatMap spell = '"' :: ((inside s).flatMap spell ++ ['"']) := by
  have hquote : spell '"' = ['"'] := h.ascii _ (by decide) (by decide)
  simp [quote, inside, hquote]

/-- A quoted string reads as the string. -/
theorem string?_inside (h : Respelling spell) (limits : ReadLimits) (s rest : List Char) :
    string? limits ((inside s).flatMap spell ++ '"' :: rest) = some (⟨String.ofList s, false⟩, rest) := by
  unfold string?
  rw [stringFuel_inside h]
  · rfl
  · have hinside := length_le_inside s
    have hspelled := h.length_le (inside s)
    simp only [List.length_append, List.length_cons]
    omega

end Strings

/-! ## Integers -/

/-- Nothing that could go on with a number: the end, or what stands after a value in a container. -/
def Ends (rest : List Char) : Prop :=
  ∀ c ∈ rest.head?, c = ',' ∨ c = ']' ∨ c = '}' ∨ c = '\n'

theorem ends_cons {c : Char} (h : c = ',' ∨ c = ']' ∨ c = '}' ∨ c = '\n') (rest : List Char) :
    Ends (c :: rest) := by
  intro d hd
  obtain rfl : c = d := by simpa using hd
  exact h

theorem digitsFrom_append {digits rest : List Char} (hdigits : ∀ c ∈ digits, c.isDigit = true)
    (hrest : ∀ c ∈ rest.head?, c.isDigit = false) (value count : Nat) :
    digitsFrom value count (digits ++ rest) =
      (Nat.ofDigitChars 10 digits value, count + digits.length, rest) := by
  induction digits generalizing value count with
  | nil =>
      cases rest with
      | nil => rfl
      | cons c rest => simp [digitsFrom, hrest c rfl, Nat.ofDigitChars]
  | cons c digits ih =>
      have hc := hdigits c List.mem_cons_self
      rw [List.cons_append, digitsFrom, if_pos hc, ih fun d hd => hdigits d (List.mem_cons_of_mem c hd)]
      rw [Nat.ofDigitChars_cons, Nat.mul_comm value, List.length_cons]
      have hzero : '0'.toNat = 48 := rfl
      rw [hzero, Nat.add_right_comm, Nat.add_assoc count]

theorem head?_toDigits_ne {n : Nat} (h : 0 < n) : (Nat.toDigits 10 n).head? ≠ some '0' := by
  induction n using Nat.strongRecOn with
  | _ n ih =>
    by_cases hsmall : n < 10
    · rw [Nat.toDigits_of_lt_base hsmall]
      have hdigit : ∀ d < 10, 0 < d → d.digitChar ≠ '0' := by decide
      simpa using hdigit n hsmall h
    · have hhead := ih (n / 10) (by omega) (by omega)
      rw [Nat.toDigits_of_base_le (by decide) (by omega)]
      rwa [List.head?_append_of_ne_nil _ Nat.toDigits_ne_nil]

theorem isDigit_of_mem_toDigits {n : Nat} {c : Char} (h : c ∈ Nat.toDigits 10 n) : c.isDigit = true :=
  Nat.isDigit_of_mem_toDigits (by decide) (by decide) h

theorem Ends.not_isDigit {rest : List Char} (h : Ends rest) : ∀ c ∈ rest.head?, c.isDigit = false := by
  intro c hc
  rcases h c hc with rfl | rfl | rfl | rfl <;> rfl

theorem Ends.fraction? {rest : List Char} (h : Ends rest) (value : Nat) :
    fraction? value rest = some (value, 0, false, rest) := by
  unfold Reader.fraction?
  split
  · next rest =>
      have hpoint := h '.' rfl
      simp at hpoint
  · rfl

theorem Ends.exponent? {rest : List Char} (h : Ends rest) : exponent? rest = some (0, false, rest) := by
  unfold Reader.exponent?
  split
  · next c rest =>
      rcases h c rfl with rfl | rfl | rfl | rfl <;> rfl
  · rfl

/-- The integers of a word are read as integers. -/
def ReadLimits.KeepsWords (limits : ReadLimits) : Prop :=
  ∀ n : Int, fitsWord n = true → integerValue? limits (Nat.toDigits 10 n.natAbs).length n = some (.int n)

theorem keepsWords_storedLimits : storedLimits.KeepsWords := by
  intro n hword
  simp only [integerValue?, storedLimits, Bool.false_eq_true, if_false, hword, if_true]

/-- An integer of a word has no more digits than are read. -/
theorem keepsWords_wideLimits (text : List Char) : (wideLimits text).KeepsWords := by
  intro n hword
  have hsmall : n.natAbs < 10 ^ 20 := by
    simp only [fitsWord, Bool.and_eq_true, decide_eq_true_eq] at hword
    omega
  have hdigits : (Nat.toDigits 10 n.natAbs).length ≤ 20 :=
    (Nat.length_toDigits_le_iff (by decide) (by decide)).2 hsmall
  have hshort : ¬maxDigits < (Nat.toDigits 10 n.natAbs).length := by
    unfold maxDigits
    omega
  simp only [integerValue?, wideLimits, if_true, hshort, if_false]

/-- What the reader makes of a sign, digits and the end of a number. -/
theorem number?_digits {limits : ReadLimits} (hlimits : limits.KeepsWords) (negative : Bool) (n : Nat)
    {text rest : List Char} (hrest : Ends rest)
    (htext : sign text = (negative, Nat.toDigits 10 n ++ rest))
    (hword : fitsWord (if negative then -(n : Int) else n) = true) :
    number? limits text = some (.int (if negative then -(n : Int) else n), rest) := by
  have hall : ∀ c ∈ Nat.toDigits 10 n, c.isDigit = true := fun c hc => isDigit_of_mem_toDigits hc
  have hdigits := digitsFrom_append hall hrest.not_isDigit 0 0
  rw [Nat.ofDigitChars_ten_toDigits, Nat.zero_add] at hdigits
  have hlength : (Nat.toDigits 10 n).length ≠ 0 := Nat.ne_of_gt Nat.length_toDigits_pos
  have hleading : ((Nat.toDigits 10 n ++ rest).head? == some '0' &&
      decide (1 < (Nat.toDigits 10 n).length)) = false := by
    rw [List.head?_append_of_ne_nil _ Nat.toDigits_ne_nil]
    by_cases hn : n = 0
    · subst hn
      rfl
    · have hhead := head?_toDigits_ne (Nat.pos_of_ne_zero hn)
      simp [hhead]
  unfold number?
  simp only [htext, hdigits, hrest.fraction?, hrest.exponent?, hleading, hlength, Bool.or_false,
    decide_false, Bool.false_eq_true, if_false]
  have hinteger := hlimits _ hword
  have hsize : (if negative then -(n : Int) else n).natAbs = n := by
    split <;> omega
  rw [hsize] at hinteger
  rw [hinteger, Option.map_some]

theorem toList_toString (n : Int) :
    (toString n).toList = (if n < 0 then ['-'] else []) ++ Nat.toDigits 10 n.natAbs := by
  cases n with
  | ofNat m =>
      change (Nat.repr m).toList = _
      rw [Nat.repr_eq_ofList_toDigits, String.toList_ofList]
      rfl
  | negSucc m =>
      change ("-" ++ Nat.repr (m + 1)).toList = _
      simp only [String.toList_append, Nat.repr_eq_ofList_toDigits, String.toList_ofList,
        Int.negSucc_lt_zero, if_true]
      rfl

/-- The first character of a number is its sign or a digit. -/
theorem head_toString (n : Int) :
    ∃ c chars, (toString n).toList = c :: chars ∧ (c = '-' ∨ c.isDigit = true) := by
  rw [toList_toString]
  split
  · exact ⟨'-', _, rfl, .inl rfl⟩
  · cases hdigits : Nat.toDigits 10 n.natAbs with
    | nil => exact absurd hdigits Nat.toDigits_ne_nil
    | cons c chars => exact ⟨c, chars, rfl, .inr (isDigit_of_mem_toDigits (hdigits ▸ List.mem_cons_self))⟩

theorem ascii_of_mem_toString {n : Int} {c : Char} (h : c ∈ (toString n).toList) : c ≠ '<' ∧ c.toNat < 128 := by
  rw [toList_toString, List.mem_append] at h
  rcases h with hsign | hdigit
  · split at hsign
    · obtain rfl := List.mem_singleton.1 hsign
      decide
    · cases hsign
  · have hc := isDigit_of_mem_toDigits hdigit
    constructor
    · intro hangle
      rw [hangle] at hc
      cases hc
    · simp only [Char.isDigit, Bool.and_eq_true, decide_eq_true_eq] at hc
      have hle : c.val.toNat ≤ 57 := hc.2
      exact Nat.lt_of_le_of_lt hle (by decide)

theorem ne_of_isDigit {c other : Char} (h : c.isDigit = true) (hother : other.isDigit = false) : c ≠ other := by
  intro hc
  rw [hc, hother] at h
  cases h

/-- An integer of a word reads as the integer. -/
theorem number?_toString {limits : ReadLimits} (hlimits : limits.KeepsWords) {n : Int} {rest : List Char}
    (hrest : Ends rest) (hword : fitsWord n = true) :
    number? limits ((toString n).toList ++ rest) = some (.int n, rest) := by
  rw [toList_toString]
  by_cases hn : n < 0
  · rw [if_pos hn]
    have hvalue : -(n.natAbs : Int) = n := by omega
    have hsign : sign ('-' :: (Nat.toDigits 10 n.natAbs ++ rest)) = (true, Nat.toDigits 10 n.natAbs ++ rest) := rfl
    have hread := number?_digits hlimits true n.natAbs hrest hsign
    simp only [if_true, hvalue] at hread
    exact hread hword
  · rw [if_neg hn]
    have hvalue : (n.natAbs : Int) = n := by omega
    have hsign : sign (Nat.toDigits 10 n.natAbs ++ rest) = (false, Nat.toDigits 10 n.natAbs ++ rest) := by
      unfold sign
      split
      · next rest' hminus =>
          have hhead := congrArg List.head? hminus
          rw [List.head?_append_of_ne_nil _ Nat.toDigits_ne_nil] at hhead
          exact absurd rfl (ne_of_isDigit (isDigit_of_mem_toDigits (List.mem_of_mem_head? hhead)) rfl)
      · rfl
    have hread := number?_digits hlimits false n.natAbs hrest hsign
    simp only [Bool.false_eq_true, if_false, hvalue] at hread
    exact hread hword

end ComponentBuilder.Json
