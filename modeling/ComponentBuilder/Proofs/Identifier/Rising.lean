import ComponentBuilder.Identifier
import Mathlib.Data.List.Chain
import Mathlib.Data.String.Basic
import Mathlib.Tactic.Ring

/-!
# Rising identifiers

All identifiers have the same number of digits, and the digits stand in the order of their code points, so
the texts are ordered as their numbers are.  A sequence only ever takes numbers above its last one.  Therefore
the texts it gives rise whatever the candidates are, and once a number is too large there is no text any more.
-/

namespace ComponentBuilder.Identifier

/-! ## Reading a text back -/

/-- The number that digits stand for, the first of them being the highest, after a number read before. -/
def decodeFrom (n : Nat) : List Char → Option Nat
  | [] => some n
  | c :: rest => (digits.idxOf? c).bind fun d => decodeFrom (n * 32 + d) rest

/-- The number of a text. -/
def decode? (text : String) : Option Nat :=
  decodeFrom 0 text.toList

theorem idxOf?_digit : ∀ d < 32, digits.idxOf? (digit d) = some d := by
  decide

theorem decodeFrom_append (front rest : List Char) (n : Nat) :
    decodeFrom n (front ++ rest) = (decodeFrom n front).bind fun m => decodeFrom m rest := by
  induction front generalizing n with
  | nil => rfl
  | cons c front ih =>
      simp only [List.cons_append, decodeFrom, ih, Option.bind_assoc]

/-- Digits read as the number they were written for, cut to their width. -/
theorem decodeFrom_encode (width start n : Nat) :
    decodeFrom start (encode width n) = some (start * 32 ^ width + n % 32 ^ width) := by
  induction width generalizing n with
  | zero => simp [encode, decodeFrom, Nat.mod_one]
  | succ width ih =>
      have hsplit : n % 32 ^ (width + 1) = n / 32 % 32 ^ width * 32 + n % 32 := by
        rw [Nat.pow_succ', Nat.mod_mul]
        omega
      rw [encode, decodeFrom_append, ih, Option.bind_some, decodeFrom, idxOf?_digit _ (Nat.mod_lt n (by decide)),
        Option.bind_some, decodeFrom, hsplit, Nat.pow_succ]
      congr 1
      ring

theorem decode?_text {n : Nat} (h : n < 32 ^ width) : decode? (text n) = some n := by
  rw [decode?, text, String.toList_ofList, decodeFrom_encode, Nat.mod_eq_of_lt h, Nat.zero_mul, Nat.zero_add]

/-! ## The order of texts -/

theorem length_encode (width n : Nat) : (encode width n).length = width := by
  induction width generalizing n with
  | zero => rfl
  | succ width ih => rw [encode, List.length_append, ih, List.length_singleton]

theorem digit_lt_digit : ∀ d < 32, ∀ e < 32, d < e → digit d < digit e := by
  decide

/-- Texts of the same length whose fronts are ordered are ordered alike. -/
theorem append_lt_append {a b : List Char} (x y : List Char) (hlength : a.length = b.length) (h : a < b) :
    a ++ x < b ++ y := by
  induction a generalizing b with
  | nil =>
      cases b with
      | nil => exact absurd h (List.lt_irrefl [])
      | cons d b => simp at hlength
  | cons c a ih =>
      cases b with
      | nil => simp at hlength
      | cons d b =>
          simp only [List.length_cons, Nat.succ.injEq] at hlength
          rw [List.cons_append, List.cons_append, List.cons_lt_cons_iff]
          rcases List.cons_lt_cons_iff.1 h with hfirst | ⟨rfl, hrest⟩
          · exact .inl hfirst
          · exact .inr ⟨rfl, ih hlength hrest⟩

theorem encode_lt_encode (width : Nat) {m n : Nat} (hn : n < 32 ^ width) (h : m < n) :
    encode width m < encode width n := by
  induction width generalizing m n with
  | zero => omega
  | succ width ih =>
      rw [Nat.pow_succ] at hn
      rw [encode, encode]
      rcases Nat.lt_or_ge (m / 32) (n / 32) with hfront | hfront
      · exact append_lt_append _ _ (by rw [length_encode, length_encode]) (ih (by omega) hfront)
      · have hsame : m / 32 = n / 32 := by omega
        rw [hsame]
        exact List.append_left_lt
          (List.cons_lt_cons_iff.2 (.inl (digit_lt_digit _ (by omega) _ (by omega) (by omega))))

theorem limit_lt : limit < 32 ^ width := by
  decide

/-- A larger number has a larger text. -/
theorem text_lt_text {m n : Nat} (hn : n < limit) (h : m < n) : text m < text n := by
  rw [String.lt_iff_toList_lt, text, text, String.toList_ofList, String.toList_ofList]
  exact encode_lt_encode width (hn.trans limit_lt) h

/-! ## Runs -/

namespace Sequence

/-- The answers to candidates that are given one after the other. -/
def issue (s : Sequence) : List Int → List (Option String)
  | [] => []
  | candidate :: rest => (s.next candidate).1 :: (s.next candidate).2.issue rest

/-- The numbers that candidates lead to, up to the first that is too large. -/
def numbers (s : Sequence) : List Int → List Nat
  | [] => []
  | candidate :: rest =>
      if s.value candidate < limit then s.value candidate :: numbers ⟨s.value candidate⟩ rest else []

variable (s : Sequence) (candidate : Int) (candidates : List Int)

theorem last_lt_value : s.last < s.value candidate := by
  unfold value
  split <;> omega

theorem le_value : candidate ≤ s.value candidate := by
  unfold value
  split <;> omega

/-- A number is the candidate or comes right after the last one. -/
theorem value_cases : (s.value candidate : Int) = candidate ∨ s.value candidate = s.last + 1 := by
  unfold value
  split
  · exact .inr rfl
  · exact .inl (by omega)

theorem next_of_lt {s : Sequence} {candidate : Int} (h : s.value candidate < limit) :
    s.next candidate = (some (text (s.value candidate)), ⟨s.value candidate⟩) := by
  rw [next, if_pos h]

theorem next_of_limit_le {s : Sequence} {candidate : Int} (h : limit ≤ s.value candidate) :
    s.next candidate = (none, ⟨s.value candidate⟩) := by
  rw [next, if_neg (Nat.not_lt.2 h)]

/-- A last number that is too large stays too large. -/
theorem issue_of_limit_le {n : Nat} (h : limit ≤ n) :
    (⟨n⟩ : Sequence).issue candidates = List.replicate candidates.length none := by
  induction candidates generalizing n with
  | nil => rfl
  | cons candidate rest ih =>
      have hvalue : limit ≤ (⟨n⟩ : Sequence).value candidate := h.trans (last_lt_value ⟨n⟩ candidate).le
      rw [issue, next_of_limit_le hvalue, ih hvalue, List.length_cons, List.replicate_succ]

/-- The answers are the texts of the numbers, and nothing from the first number on that is too large. -/
theorem issue_eq : s.issue candidates =
    (s.numbers candidates).map (fun n => some (text n)) ++
      List.replicate (candidates.length - (s.numbers candidates).length) none := by
  induction candidates generalizing s with
  | nil => rfl
  | cons candidate rest ih =>
      by_cases hvalue : s.value candidate < limit
      · rw [issue, next_of_lt hvalue, ih, numbers, if_pos hvalue, List.map_cons, List.length_cons, List.length_cons,
          Nat.add_sub_add_right, List.cons_append]
      · have hlarge : limit ≤ s.value candidate := Nat.not_lt.1 hvalue
        rw [issue, next_of_limit_le hlarge, issue_of_limit_le rest hlarge, numbers, if_neg hvalue]
        rfl

/-- The numbers rise from the last one on. -/
theorem isChain_numbers : (s.last :: s.numbers candidates).IsChain (· < ·) := by
  induction candidates generalizing s with
  | nil => exact .singleton _
  | cons candidate rest ih =>
      unfold numbers
      split
      · exact .cons_cons (s.last_lt_value candidate) (ih ⟨s.value candidate⟩)
      · exact .singleton _

/-- Every number is in range and not below its candidate. -/
theorem forall₂_numbers :
    List.Forall₂ (fun (candidate : Int) (n : Nat) => candidate ≤ n ∧ n < limit)
      (candidates.take (s.numbers candidates).length) (s.numbers candidates) := by
  induction candidates generalizing s with
  | nil => exact .nil
  | cons candidate rest ih =>
      unfold numbers
      split
      · next hvalue => exact .cons ⟨s.le_value candidate, hvalue⟩ (ih ⟨s.value candidate⟩)
      · exact .nil

theorem lt_limit_of_mem_numbers {n : Nat} (h : n ∈ s.numbers candidates) : n < limit := by
  obtain ⟨i, hi, rfl⟩ := List.getElem_of_mem h
  have hvalues := s.forall₂_numbers candidates
  exact (hvalues.get (hvalues.length_eq.symm ▸ hi : i < _) hi).2

/-- The numbers end early only before a candidate that is too large, or when there is no larger number. -/
theorem limit_le_of_ended (h : candidates[(s.numbers candidates).length]? = some candidate) :
    (limit : Int) ≤ candidate ∨ limit ≤ (s.numbers candidates).getLast?.getD s.last + 1 := by
  induction candidates generalizing s with
  | nil => simp at h
  | cons first rest ih =>
      unfold numbers at h ⊢
      by_cases hvalue : s.value first < limit
      · rw [if_pos hvalue] at h ⊢
        rw [List.getLast?_cons, Option.getD_some]
        exact ih ⟨s.value first⟩ (by simpa using h)
      · rw [if_neg hvalue] at h ⊢
        obtain rfl : first = candidate := by simpa using h
        rcases s.value_cases first with hfirst | hnext
        · left
          omega
        · right
          simp only [List.getLast?_nil, Option.getD_none]
          omega

end Sequence

/--
The identifiers of a new sequence rise, whatever the candidates are: no text is given twice, and each reads as
a number that is not below its candidate.  The answers stop for good at the first number that is too large,
which is there only if its candidate is too large or the largest number of all was given before.
-/
theorem issued_texts_rise (candidates : List Int) :
    ∃ numbers : List Nat,
      Sequence.issue {} candidates = numbers.map (fun n => some (text n)) ++
        List.replicate (candidates.length - numbers.length) none ∧
      (numbers.map text).Pairwise (· < ·) ∧ (numbers.map text).Nodup ∧
      List.Forall₂ (fun (candidate : Int) (n : Nat) =>
          candidate ≤ n ∧ decode? (text n) = some n ∧ (text n).length = width)
        (candidates.take numbers.length) numbers ∧
      ∀ candidate, candidates[numbers.length]? = some candidate →
        (limit : Int) ≤ candidate ∨ numbers.getLast? = some (limit - 1) := by
  let s : Sequence := {}
  have hrising : (s.numbers candidates).Pairwise (· < ·) :=
    (List.isChain_iff_pairwise.1 (s.isChain_numbers candidates)).of_cons
  have htexts : ((s.numbers candidates).map text).Pairwise (· < ·) := by
    rw [List.pairwise_map]
    exact hrising.imp_of_mem fun _ hn hless => text_lt_text (s.lt_limit_of_mem_numbers candidates hn) hless
  refine ⟨s.numbers candidates, s.issue_eq candidates, htexts, htexts.imp ne_of_lt, ?_, ?_⟩
  · refine (s.forall₂_numbers candidates).imp fun candidate n h => ⟨h.1, decode?_text (h.2.trans limit_lt), ?_⟩
    rw [text, String.length_ofList, length_encode]
  · intro candidate hcandidate
    refine (s.limit_le_of_ended candidate candidates hcandidate).imp_right fun hfull => ?_
    cases hlast : (s.numbers candidates).getLast? with
    | none =>
        rw [hlast] at hfull
        exact absurd hfull (by decide)
    | some n =>
        rw [hlast, Option.getD_some] at hfull
        have hn := s.lt_limit_of_mem_numbers candidates (List.mem_of_getLast? hlast)
        congr 1
        omega

end ComponentBuilder.Identifier
