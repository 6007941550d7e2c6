import ComponentBuilder.Proofs.Text.Captures
import ComponentBuilder.Proofs.Text.Span
import Mathlib.Data.List.Chain
import Mathlib.Data.List.Infix

/-!
# Texts that a text does not hold

A pair of neighbouring characters that a text lacks rules out every word with that pair, and every pattern
whose matches hold such a word.  Other words are looked for from every place on.
-/

namespace ComponentBuilder.Text

theorem not_infix_of_isChain {R : Char → Char → Prop} {text : List Char} (h : text.IsChain R)
    {c d : Char} (hpair : ¬R c d) : ¬[c, d] <:+: text := by
  rintro ⟨front, back, htext⟩
  apply hpair
  apply List.isChain_iff_forall_rel_of_append_cons_cons.1 h
  simpa using htext.symm

theorem not_mem_of_isChain {R : Char → Char → Prop} {first c : Char} {text : List Char}
    (h : (first :: text).IsChain R) (hc : ∀ d, ¬R d c) (hfirst : first ≠ c) : c ∉ first :: text := by
  intro hmem
  obtain ⟨front, back, hsplit⟩ := List.append_of_mem hmem
  rcases List.eq_nil_or_concat front with rfl | ⟨front, d, rfl⟩
  · exact hfirst (List.cons.inj hsplit).1
  · apply hc d
    apply List.isChain_iff_forall_rel_of_append_cons_cons.1 h
    rw [hsplit, List.concat_eq_append, List.append_assoc]
    rfl

/-- A text holds none of some words if it begins with none of them from any place on. -/
theorem not_infix_of_tails {words : List String} {text : List Char}
    (h : (text.tails.all fun rest => words.all fun word => !word.toList.isPrefixOf rest) = true) :
    ∀ word ∈ words, ¬word.toList <:+: text := by
  intro word hword hinside
  obtain ⟨rest, hstart, hend⟩ := List.infix_iff_prefix_suffix.1 hinside
  have hnone := List.all_eq_true.1 (List.all_eq_true.1 h rest ((List.mem_tails rest text).2 hend)) word hword
  rw [List.isPrefixOf_iff_prefix.2 hstart] at hnone
  cases hnone

/-- A word without a character does not reach over it. -/
theorem not_prefix_of_stop {word front : List Char} {stop : Char} (hstop : stop ∉ word)
    (hfront : ¬word <:+: front) (rest : List Char) : ¬word <+: front ++ stop :: rest := by
  intro hprefix
  rcases List.prefix_or_prefix_of_prefix hprefix (List.prefix_append front _) with h | ⟨more, hmore⟩
  · exact hfront h.isInfix
  · rw [← hmore, List.prefix_append_right_inj] at hprefix
    cases more with
    | nil =>
        rw [List.append_nil] at hmore
        exact hfront (hmore ▸ List.infix_rfl)
    | cons d more =>
        obtain ⟨rfl, -⟩ := List.cons_prefix_cons.1 hprefix
        apply hstop
        rw [← hmore]
        simp

/-- A word without a character stands on one side of it. -/
theorem infix_of_infix_append_cons {word front back : List Char} {stop : Char} (hstop : stop ∉ word)
    (h : word <:+: front ++ stop :: back) : word <:+: front ∨ word <:+: back := by
  by_cases hfront : word <:+: front
  · exact .inl hfront
  · right
    induction front with
    | nil =>
        rcases List.infix_cons_iff.1 h with hprefix | hinside
        · exact absurd hprefix (@not_prefix_of_stop word [] stop hstop hfront back)
        · exact hinside
    | cons c front ih =>
        rcases List.infix_cons_iff.1 h with hprefix | hinside
        · exact absurd hprefix (@not_prefix_of_stop word (c :: front) stop hstop hfront back)
        · exact ih hinside fun hword => hfront (hword.trans (List.suffix_cons c front).isInfix)

/-- A word that no proper end of it begins, so two occurrences of it never overlap. -/
def Borderless (word : List Char) : Prop :=
  ∀ more ∈ word.tails, more <+: word → more = [] ∨ more = word

instance (word : List Char) : Decidable (Borderless word) :=
  inferInstanceAs (Decidable (∀ more ∈ word.tails, more <+: word → more = [] ∨ more = word))

/-- A word without a border does not begin in a text without it that another occurrence follows. -/
theorem Borderless.not_prefix_append {word front : List Char} (h : Borderless word) (hne : front ≠ [])
    (hfront : ¬word <:+: front) (rest : List Char) : ¬word <+: front ++ (word ++ rest) := by
  intro hprefix
  rcases List.prefix_or_prefix_of_prefix hprefix (List.prefix_append front _) with hword | ⟨more, hmore⟩
  · exact hfront hword.isInfix
  · have hend : more ∈ word.tails := (List.mem_tails _ _).2 ⟨front, hmore⟩
    have hlength : more.length ≤ word.length := ((List.mem_tails _ _).1 hend).length_le
    have hbegins : more <+: word := by
      rw [← hmore, List.prefix_append_right_inj, hmore] at hprefix
      exact List.prefix_of_prefix_length_le hprefix (List.prefix_append word rest) hlength
    rcases h more hend hbegins with rfl | rfl
    · rw [List.append_nil] at hmore
      exact hfront (hmore ▸ List.infix_rfl)
    · exact hne (by simpa using hmore)

/-- A word is found behind a front from none of whose places on it begins. -/
theorem find?_append_of_not_prefix {word front rest : List Char} (hword : word ≠ []) (hrest : word <+: rest)
    (hfront : ∀ more, more ≠ [] → more <:+ front → ¬word <+: more ++ rest) :
    find? word (front ++ rest) = some (front, rest) := by
  suffices hfrom : ∀ seen, findFrom word seen (front ++ rest) = some (seen.reverse ++ front, rest) from hfrom []
  induction front with
  | nil =>
      intro seen
      cases rest with
      | nil => exact absurd (List.prefix_nil.1 hrest) hword
      | cons c rest =>
          rw [List.nil_append, findFrom, if_pos (List.isPrefixOf_iff_prefix.2 hrest), List.append_nil]
  | cons c front ih =>
      intro seen
      have hhere : ¬word.isPrefixOf (c :: (front ++ rest)) = true := by
        rw [List.isPrefixOf_iff_prefix]
        exact hfront _ (List.cons_ne_nil c front) List.suffix_rfl
      rw [List.cons_append, findFrom, if_neg hhere,
        ih fun more hmore hend => hfront more hmore (hend.trans (List.suffix_cons c front))]
      simp

/-- A word without a border is found right after a front that does not hold it. -/
theorem Borderless.find?_append {word front : List Char} (h : Borderless word) (hword : word ≠ [])
    (hfront : ¬word <:+: front) (rest : List Char) :
    find? word (front ++ (word ++ rest)) = some (front, word ++ rest) :=
  find?_append_of_not_prefix hword (List.prefix_append word rest) fun _ hmore hend =>
    h.not_prefix_append hmore (fun hinside => hfront (hinside.trans hend.isInfix)) rest

theorem find?_of_prefix {word text : List Char} (hword : word ≠ []) (h : word <+: text) :
    find? word text = some ([], text) :=
  find?_append_of_not_prefix hword h fun _ hmore hend => absurd (List.suffix_nil.1 hend) hmore

/-- A word is found behind a character that it does not have, when the text up to there does not hold it. -/
theorem find?_append_of_stop {word front rest : List Char} {stop : Char} (hword : word ≠ []) (hstop : stop ∉ word)
    (hfront : ¬word <:+: front) (hrest : word <+: rest) :
    find? word (front ++ [stop] ++ rest) = some (front ++ [stop], rest) := by
  refine find?_append_of_not_prefix hword hrest fun more hmore hend => ?_
  rcases List.suffix_concat_iff.1 hend with rfl | ⟨tail, rfl, htail⟩
  · exact absurd rfl hmore
  · rw [List.append_assoc]
    exact not_prefix_of_stop hstop (fun hinside => hfront (hinside.trans htail.isInfix)) rest

theorem find?_eq_none {word text : List Char} (h : ¬word <:+: text) : find? word text = none := by
  cases hfind : find? word text with
  | none => rfl
  | some found =>
      obtain ⟨before, rest⟩ := found
      obtain ⟨front, -, rfl, hbegins⟩ := exists_front_of_findFrom hfind
      exact absurd ((List.isPrefixOf_iff_prefix.1 hbegins).isInfix.trans (List.suffix_append front rest).isInfix) h

namespace Pattern

/-- Every match of the pattern holds a word. -/
def Holds (word : List Char) (p : Pattern) : Prop :=
  ∀ ⦃behind part rest⦄, p.Fits behind part rest → word <:+: part

theorem holds_seq_left {word : List Char} {first : Pattern} (h : first.Holds word) (second : Pattern) :
    (first ++ second).Holds word := by
  rintro behind part rest ⟨a, b, rfl, ha, -⟩
  exact (h ha).trans (List.prefix_append a b).isInfix

theorem holds_seq_right {word : List Char} {second : Pattern} (h : second.Holds word) (first : Pattern) :
    (first ++ second).Holds word := by
  rintro behind part rest ⟨a, b, rfl, -, hb⟩
  exact (h hb).trans (List.suffix_append a b).isInfix

theorem fits_chars {word behind part rest : List Char} (h : (chars word).Fits behind part rest) :
    part = word := by
  induction word generalizing behind part with
  | nil => exact h
  | cons c word ih =>
      cases word with
      | nil =>
          obtain ⟨d, rfl, hd⟩ := h
          rw [beq_iff_eq.1 hd]
      | cons e word =>
          obtain ⟨a, b, rfl, ⟨d, rfl, hd⟩, hb⟩ := h
          rw [ih hb, beq_iff_eq.1 hd]
          rfl

theorem exists_word_of_fits_oneOf {words : List String} {behind part rest : List Char}
    (h : (oneOf words).Fits behind part rest) : ∃ word ∈ words, part = word.toList := by
  induction words with
  | nil =>
      obtain ⟨c, -, hc⟩ := h
      cases hc
  | cons word words ih =>
      cases words with
      | nil => exact ⟨word, List.mem_cons_self, fits_chars h⟩
      | cons next words =>
          rcases h with h | h
          · exact ⟨word, List.mem_cons_self, fits_chars h⟩
          · obtain ⟨other, hother, hpart⟩ := ih h
            exact ⟨other, List.mem_cons_of_mem word hother, hpart⟩

theorem fits_chars_self (word behind rest : List Char) : (chars word).Fits behind word rest := by
  induction word generalizing behind with
  | nil => rfl
  | cons c word ih =>
      cases word with
      | nil => exact ⟨c, rfl, beq_self_eq_true c⟩
      | cons d word => exact ⟨[c], d :: word, rfl, ⟨c, rfl, beq_self_eq_true c⟩, ih _⟩

/-- A word that does not begin in the middle of a word is found. -/
theorem fits_edge_text {word : String} {behind rest : List Char} (hword : word.toList.head?.any isWord = true)
    (hbehind : behind.head?.any isWord = false) :
    (edge ++ .text word).Fits behind word.toList rest := by
  have hne : word.toList ≠ [] := by
    intro hnil
    rw [hnil] at hword
    cases hword
  refine ⟨[], word.toList, rfl, ⟨rfl, ?_⟩, fits_chars_self word.toList behind rest⟩
  rw [hbehind, List.head?_append_of_ne_nil _ hne, hword]
  rfl

/-- A word between places where no word goes on is found. -/
theorem fits_word {word : String} {behind rest : List Char} (hhead : word.toList.head?.any isWord = true)
    (hlast : word.toList.getLast?.any isWord = true) (hbehind : behind.head?.any isWord = false)
    (hrest : rest.head?.any isWord = false) :
    (edge ++ .text word ++ .edge).Fits behind word.toList rest := by
  have hne : word.toList.reverse ≠ [] := by
    intro hnil
    rw [List.reverse_eq_nil_iff] at hnil
    rw [hnil] at hhead
    cases hhead
  refine ⟨word.toList, [], by simp, fits_edge_text hhead hbehind, rfl, ?_⟩
  rw [List.head?_append_of_ne_nil _ hne, List.head?_reverse, hlast, hrest]
  rfl

theorem holds_text {word : List Char} {s : String} (h : word <:+: s.toList) : (text s).Holds word := by
  intro behind part rest hfits
  rw [fits_chars hfits]
  exact h

/-- Every match of the pattern begins with a word. -/
def Begins (word : List Char) (p : Pattern) : Prop :=
  ∀ ⦃behind part rest⦄, p.Fits behind part rest → word <+: part

theorem begins_seq {word : List Char} {first : Pattern} (h : first.Begins word) (second : Pattern) :
    (first ++ second).Begins word := by
  rintro behind part rest ⟨a, b, rfl, ha, -⟩
  exact (h ha).trans (List.prefix_append a b)

theorem begins_word (s : String) : (edge ++ text s).Begins s.toList := by
  rintro behind part rest ⟨a, b, rfl, ⟨rfl, -⟩, hb⟩
  rw [fits_chars hb, List.nil_append]

/-- No match begins in a text that holds no front of a match, when a character stops the ones that reach
further. -/
theorem capturesFrom_append_of_stop {p : Pattern} {front : List Char} {stop : Char}
    (h : ∀ ⦃behind part rest⦄, p.Fits behind part rest →
      ∃ word, word <+: part ∧ stop ∉ word ∧ ¬word <:+: front)
    (behind rest : List Char) (offset : Nat) :
    p.capturesFrom 0 behind offset (front ++ stop :: rest) =
      p.capturesFrom 0 ((front ++ [stop]).reverse ++ behind) (offset + (front ++ [stop]).length) rest := by
  rw [List.append_cons]
  apply capturesFrom_append_of_none
  intro a c b hsplit behind offset
  cases hmatch : p.matchAt? ⟨behind, offset, c :: (b ++ rest), []⟩ with
  | none => rfl
  | some last =>
      obtain ⟨part, more, captured, htext, hfits, -⟩ := fits_of_run hmatch
      obtain ⟨word, hword, hstop, hfront⟩ := h hfits
      have hprefix : word <+: c :: (b ++ rest) := by
        have htext : c :: (b ++ rest) = part ++ more := htext
        rw [htext]
        exact hword.trans (List.prefix_append part more)
      obtain ⟨inner, hfront', hinner⟩ : ∃ inner, front = a ++ inner ∧ c :: b = inner ++ [stop] := by
        rcases List.append_eq_append_iff.1 hsplit with ⟨tail, rfl, htail⟩ | ⟨inner, hfront', hinner⟩
        · cases tail with
          | nil => exact ⟨[], by simp, htail.symm⟩
          | cons d tail => simp at htail
        · exact ⟨inner, hfront', hinner⟩
      rw [← List.cons_append, hinner, List.append_assoc] at hprefix
      refine absurd hprefix (not_prefix_of_stop hstop (fun hinside => hfront ?_) rest)
      rw [hfront']
      exact hinside.trans (List.suffix_append a inner).isInfix

/-- A text without the first word of all matches captures nothing. -/
theorem Begins.capturesFrom_append {p : Pattern} {word : List Char} (h : p.Begins word)
    {front : List Char} {stop : Char} (hstop : stop ∉ word) (hfront : ¬word <:+: front)
    (behind rest : List Char) (offset : Nat) :
    p.capturesFrom 0 behind offset (front ++ stop :: rest) =
      p.capturesFrom 0 ((front ++ [stop]).reverse ++ behind) (offset + (front ++ [stop]).length) rest :=
  capturesFrom_append_of_stop (fun _ _ _ hfits => ⟨word, h hfits, hstop, hfront⟩) behind rest offset

end Pattern

end ComponentBuilder.Text
