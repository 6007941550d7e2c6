import ComponentBuilder.Preview.Script
import ComponentBuilder.Proofs.Text.Occurrence
import ComponentBuilder.Proofs.Text.Rewriting

/-!
# What is left of module syntax

Each step of the stripping takes the matches of one pattern, and the words that it puts in their place are
shorter and make no module word.  So every module word of a source either stands in a match that is taken or
is left in the script, and a script stays as it is when it is stripped again exactly when none of the patterns
occurs in it.
-/

namespace ComponentBuilder

open Text

namespace Preview

open Pattern

/-! ## Where the matches begin and end -/

/-- The words that module syntax is read by. -/
def moduleWords : List String :=
  ["import", "export", "module.exports", "require("]

/-- The characters that the matches of module syntax end in. -/
def isCloser (c : Char) : Bool :=
  isBlank c || Markup.Scan.isTagQuote c || c == '=' || c == ')' || c == ';' || c == '\x7d'

theorem isWord_eq_false_of_isCloser {c : Char} (h : isCloser c = true) : isWord c = false := by
  simp only [isCloser, Markup.Scan.isTagQuote, Bool.or_eq_true, beq_iff_eq] at h
  rcases h with ((((h | h) | rfl) | rfl) | rfl) | rfl
  · exact isWord_eq_false_of_isBlank h
  · rcases h with rfl | rfl <;> decide
  all_goals decide

theorem isCloser_eq_false_of_mem : ∀ word ∈ moduleWords, ∀ c ∈ word.toList, isCloser c = false := by
  decide

theorem closes_gap : gap.Closes isCloser := by
  intro c hc
  simp [isCloser, hc]

theorem closes_blanks : blanks.Closes isCloser := closes_gap

theorem closes_lineSpace : lineSpace.Closes isCloser := by
  intro c hc
  simp only [Bool.or_eq_true, beq_iff_eq] at hc
  rcases hc with rfl | rfl <;> decide

theorem closes_codeEnd : codeEnd.Closes isCloser := by
  refine ⟨⟨?_, trivial⟩, .inr closes_lineSpace⟩
  intro c hc
  obtain rfl : c = ';' := beq_iff_eq.1 hc
  decide

theorem closes_scriptQuote : scriptQuote.Closes isCloser := by
  intro c hc
  simp [isCloser, hc]

theorem closes_one {c : Char} (h : isCloser c = true) : (one (· == c)).Closes isCloser := by
  intro d hd
  rwa [beq_iff_eq.1 hd]

theorem closes_of_mem_stripSteps : ∀ step ∈ stripSteps, step.1.Closes isCloser := by
  have hstring : ∀ front : Pattern, (front ++ scriptQuote).Closes isCloser := fun _ =>
    ⟨closes_scriptQuote, .inl (by decide)⟩
  intro step hstep
  fin_cases hstep
  · exact ⟨closes_codeEnd, .inr ⟨hstring _, .inl (by decide)⟩⟩
  · exact ⟨closes_codeEnd, .inr ⟨hstring _, .inl (by decide)⟩⟩
  · exact ⟨closes_codeEnd, .inr ⟨⟨⟨hstring _, .inl (by decide)⟩, trivial⟩,
      .inr ⟨closes_one (by decide), .inl (by decide)⟩⟩⟩
  · exact ⟨closes_gap, .inl (by decide)⟩
  · exact ⟨trivial, .inr ⟨closes_gap, .inl (by decide)⟩⟩
  · exact ⟨closes_blanks, .inr ⟨closes_one (by decide), .inl (by decide)⟩⟩
  · exact ⟨closes_one (by decide), .inl (by decide)⟩

/-- A word that is put in the place of a match is shorter than the match. -/
theorem length_lt_least : ∀ step ∈ stripSteps, step.2.toList.length < step.1.least := by
  decide

theorem least_pos {step : Pattern × String} (hstep : step ∈ stripSteps) : 0 < step.1.least :=
  Nat.lt_of_le_of_lt (Nat.zero_le _) (length_lt_least step hstep)

/-- A step goes over a text and takes the matches that it finds. -/
theorem rewrites_step {step : Pattern × String} (hstep : step ∈ stripSteps) (text : List Char) :
    step.1.Rewrites step.2.toList [] text ((step.1.hits text).map Hit.matched)
      (step.1.replace (fun _ => step.2.toList) text) := by
  refine rewrites_replace (fun behind rest hfits => ?_) step.2.toList text
  exact absurd (least_le_length hfits) (Nat.not_le.2 (least_pos hstep))

/-! ## Words at the beginning of a match -/

/-- The patterns that match at the beginning of a line only. -/
theorem head_of_lineStart {p : Pattern} (hp : p.leading = .lineStart) {behind part rest : List Char}
    (hfits : p.Fits behind part rest) : ∀ c, behind.head? = some c → c = '\n' := by
  obtain ⟨a, b, -, ha⟩ := exists_leading hfits
  rw [hp] at ha
  exact ha.2

/-- A pattern that begins with a word matches only where no word goes on. -/
theorem head_of_edge {p : Pattern} (hp : p.leading = .edge) {word : String} (hbegins : p.Begins word.toList)
    (hword : word.toList.head?.any isWord = true) {behind part rest : List Char}
    (hfits : p.Fits behind part rest) : behind.head?.any isWord = false := by
  obtain ⟨a, b, rfl, ha⟩ := exists_leading hfits
  rw [hp] at ha
  obtain ⟨rfl, hedge⟩ := ha
  obtain ⟨more, hmore⟩ := hbegins hfits
  have hne : word.toList ≠ [] := by
    intro hnil
    rw [hnil] at hword
    cases hword
  rw [List.nil_append] at hmore
  rw [← hmore, List.append_assoc, List.head?_append_of_ne_nil _ hne, hword] at hedge
  simpa using hedge

theorem head?_of_reverse_begins {x behind : List Char} (hx : x ≠ []) (h : x.reverse <+: behind) :
    behind.head? = x.getLast? := by
  obtain ⟨more, rfl⟩ := h
  rw [List.head?_append_of_ne_nil _ (by simpa using hx), List.head?_reverse]

theorem bars_of_lineStart {p : Pattern} (hp : p.leading = .lineStart) {whole : List Char} (hwhole : '\n' ∉ whole)
    (word : List Char) : Rewrites.Bars p whole ∧ Rewrites.BarsOut p word whole := by
  have hnever {behind part rest x y : List Char} (hfits : p.Fits behind part rest) (hsplit : whole = x ++ y)
      (hx : x ≠ []) (hbehind : x.reverse <+: behind) : False := by
    have hhead := head?_of_reverse_begins hx hbehind
    rw [List.getLast?_eq_some_getLast hx] at hhead
    apply hwhole
    rw [hsplit, ← head_of_lineStart hp hfits _ hhead]
    exact List.mem_append_left y (List.getLast_mem hx)
  constructor
  · intro behind part rest x y hfits hsplit hx hy hbehind
    exact (hnever hfits hsplit hx hbehind).elim
  · intro behind part rest taken out x y hfits hmore hsplit hx hy hbehind
    exact (hnever hfits hsplit hx hbehind).elim

/-- Of the module words only one goes on behind a character that is of no word. -/
theorem eq_exports_of_moduleWord : ∀ word ∈ moduleWords, ∀ x y, word.toList = x ++ y → x ≠ [] → y ≠ [] →
    x.getLast?.any isWord = false → y = "exports".toList := by
  have hcuts : ∀ word ∈ moduleWords, ∀ size < word.toList.length, size ≠ 0 →
      (word.toList.take size).getLast?.any isWord = false → word.toList.drop size = "exports".toList := by
    decide
  intro word hword x y hsplit hx hy hlast
  have hcut := hcuts word hword x.length
  rw [hsplit, List.take_left, List.drop_left] at hcut
  refine hcut ?_ (by simpa using hx) hlast
  rw [List.length_append]
  have hlength := List.length_pos_iff.2 hy
  omega

/-- What stands at the beginning of a match is no rest of a module word. -/
theorem bars_of_edge {p : Pattern} (hhead : ∀ ⦃behind part rest⦄, p.Fits behind part rest →
      behind.head?.any isWord = false)
    (hpart : ∀ ⦃behind part rest⦄, p.Fits behind part rest → ¬"exports".toList <+: part ++ rest)
    {word : String} (hword : word ∈ moduleWords) : Rewrites.Bars p word.toList := by
  intro behind part rest x y hfits hsplit hx hy hbehind hprefix
  have hlast := hhead hfits
  rw [head?_of_reverse_begins hx hbehind] at hlast
  rw [eq_exports_of_moduleWord word hword x y hsplit hx hy hlast] at hprefix
  exact hpart hfits hprefix

theorem barsOut_of_edge {p : Pattern} {instead : List Char} (hhead : ∀ ⦃behind part rest⦄,
      p.Fits behind part rest → behind.head?.any isWord = false)
    (hout : ∀ ⦃behind part rest taken out⦄, p.Fits behind part rest →
      p.Rewrites instead (part.reverse ++ behind) rest taken out → ¬"exports".toList <+: instead ++ out)
    {word : String} (hword : word ∈ moduleWords) : Rewrites.BarsOut p instead word.toList := by
  intro behind part rest taken out x y hfits hmore hsplit hx hy hbehind hprefix
  have hlast := hhead hfits
  rw [head?_of_reverse_begins hx hbehind] at hlast
  rw [eq_exports_of_moduleWord word hword x y hsplit hx hy hlast] at hprefix
  exact hout hfits hmore hprefix

/-- The words of the declarations that an export may stand in front of. -/
def exportedWords : List String :=
  ["const", "let", "var", "function", "class", "async", "type", "interface", "enum"]

theorem exportWord_eq : exportWord =
    .edge ++ .text "export" ++ .gap ++ .ahead (.oneOf exportedWords ++ .edge) := rfl

theorem begins_defaultExport : defaultExport.Begins "export".toList :=
  begins_seq (begins_seq (begins_seq (begins_word "export") _) _) _

theorem begins_exportWord : exportWord.Begins "export".toList :=
  begins_seq (begins_seq (begins_word "export") _) _

theorem begins_exportAssignment : exportAssignment.Begins "module.exports".toList :=
  begins_seq (begins_seq (begins_seq (begins_word "module.exports") _) _) _

theorem begins_loadCall : loadCall.Begins "require(".toList :=
  begins_seq (begins_seq (begins_seq (begins_seq (begins_word "require(") _) _) _) _

theorem not_exports_prefix_of_begins {p : Pattern} {word : String} (hbegins : p.Begins word.toList)
    (hword : ¬"exports".toList <+: word.toList ∧ ¬word.toList <+: "exports".toList) ⦃behind part rest : List Char⦄
    (hfits : p.Fits behind part rest) : ¬"exports".toList <+: part ++ rest := by
  intro hprefix
  have hbegin := (hbegins hfits).trans (List.prefix_append part rest)
  rcases List.prefix_or_prefix_of_prefix hprefix hbegin with h | h
  · exact hword.1 h
  · exact hword.2 h

/-- The word of an export is followed by a blank. -/
theorem not_exports_prefix_of_gap {behind part rest : List Char}
    (hfits : (.edge ++ .text "export" ++ .gap : Pattern).Fits behind part rest) :
    ¬"exports".toList <+: part ++ rest := by
  obtain ⟨-, blanks, rfl, ⟨-, word, rfl, ⟨rfl, -⟩, hword⟩, hleast, hblanks⟩ := hfits
  obtain rfl := fits_chars hword
  cases blanks with
  | nil => cases hleast
  | cons c blanks =>
      intro hprefix
      obtain rfl : 's' = c := by simpa using hprefix
      exact absurd (hblanks 's' List.mem_cons_self) (by decide)

theorem not_exports_prefix_of_defaultExport ⦃behind part rest : List Char⦄
    (hfits : defaultExport.Fits behind part rest) : ¬"exports".toList <+: part ++ rest := by
  obtain ⟨-, more, rfl, ⟨front, word, rfl, hfront, -⟩, -⟩ := hfits
  rw [List.append_assoc, List.append_assoc]
  exact not_exports_prefix_of_gap hfront

theorem not_exports_prefix_of_exportWord ⦃behind part rest : List Char⦄
    (hfits : exportWord.Fits behind part rest) : ¬"exports".toList <+: part ++ rest := by
  obtain ⟨front, -, rfl, hfront, rfl, -⟩ := hfits
  rw [List.append_nil]
  exact not_exports_prefix_of_gap hfront

/-- Behind the word of an export the declaration is left as it stands. -/
theorem exists_of_rewrites_exportWord {behind part rest instead out : List Char} {taken : List (List Char)}
    (hfits : exportWord.Fits behind part rest)
    (hmore : exportWord.Rewrites instead (part.reverse ++ behind) rest taken out) :
    ∃ c d tail, out = c :: d :: tail ∧ [c, d] ≠ ['e', 'x'] ∧ c ≠ 'd' ∧ isBlank c = false := by
  rw [exportWord_eq] at hfits
  obtain ⟨_, _, -, -, -, _, back, hrest, name, _, rfl, hname, rfl, -⟩ := hfits
  obtain ⟨word, hword, rfl⟩ := exists_word_of_fits_oneOf hname
  obtain ⟨c, d, e, tail, hletters, hfirst, hsecond, hc, hblank⟩ : ∃ c d e tail, word.toList = c :: d :: e :: tail ∧
      [c, d] ≠ ['e', 'x'] ∧ [d, e] ≠ ['e', 'x'] ∧ c ≠ 'd' ∧ isBlank c = false := by
    fin_cases hword <;> exact ⟨_, _, _, _, rfl, by decide, by decide, by decide, by decide⟩
  have hnone {first second : Char} {after behind : List Char} (hne : [first, second] ≠ ['e', 'x']) :
      ∀ part rest, first :: second :: after = part ++ rest → ¬exportWord.Fits behind part rest := by
    intro part rest hsplit hfits
    apply hne
    have hprefix := (begins_exportWord hfits).trans (List.prefix_append part rest)
    rw [← hsplit] at hprefix
    obtain ⟨rfl, rfl, -⟩ : 'e' = first ∧ 'x' = second ∧ _ := by simpa using hprefix
    rfl
  rw [hrest, hletters, List.append_nil] at hmore
  obtain ⟨_, rfl, hlater⟩ := hmore.exists_keep (hnone hfirst)
  obtain ⟨out, rfl, -⟩ := hlater.exists_keep (hnone hsecond)
  exact ⟨c, d, out, rfl, hfirst, hc, hblank⟩

/-! ## What a step keeps -/

theorem severed_of_fits {step : Pattern × String} (hstep : step ∈ stripSteps) {word : String}
    (hword : word ∈ moduleWords) ⦃behind part rest : List Char⦄ (hfits : step.1.Fits behind part rest) :
    Severed word.toList part rest := by
  have hne : part ≠ [] := List.ne_nil_of_length_pos ((least_pos hstep).trans_le (least_le_length hfits))
  have hlast := List.getLast?_eq_some_getLast hne
  refine severed_of_getLast hlast fun hmem => ?_
  have hcloser := (closes_of_mem_stripSteps step hstep).getLast hfits hlast
  rw [isCloser_eq_false_of_mem word hword _ hmem] at hcloser
  cases hcloser

/-- What is put in the place of a match begins no module word. -/
theorem severed_instead {step : Pattern × String} (hstep : step ∈ stripSteps) {word : String}
    (hword : word ∈ moduleWords) (back : List Char) : Severed word.toList step.2.toList back := by
  have htails : ∀ step ∈ stripSteps, ∀ word ∈ moduleWords, ∀ tail ∈ step.2.toList.tails,
      tail.isPrefixOf word.toList = true → tail = [] := by
    decide
  intro x y hsplit hx hy hsuffix
  have hprefix : x.isPrefixOf word.toList = true := by
    rw [hsplit, List.isPrefixOf_iff_prefix]
    exact List.prefix_append x y
  exact absurd (htails step hstep word hword x ((List.mem_tails _ _).2 hsuffix) hprefix) hx

theorem bars_step {step : Pattern × String} (hstep : step ∈ stripSteps) {word : String} (hword : word ∈ moduleWords) :
    Rewrites.Bars step.1 word.toList ∧ Rewrites.BarsOut step.1 step.2.toList word.toList := by
  have hline : ∀ word ∈ moduleWords, '\n' ∉ word.toList := by decide
  have hhead {p : Pattern} (hleading : p.leading = .edge) {first : String} (hbegins : p.Begins first.toList)
      (hfirst : first.toList.head?.any isWord = true) ⦃behind part rest : List Char⦄
      (hfits : p.Fits behind part rest) : behind.head?.any isWord = false :=
    head_of_edge hleading hbegins hfirst hfits
  have hexport := hhead rfl begins_exportWord (by decide)
  have hdefault := hhead rfl begins_defaultExport (by decide)
  have hassignment := hhead rfl begins_exportAssignment (by decide)
  have hcall := hhead rfl begins_loadCall (by decide)
  fin_cases hstep
  · exact bars_of_lineStart rfl (hline word hword) _
  · exact bars_of_lineStart rfl (hline word hword) _
  · exact bars_of_lineStart rfl (hline word hword) _
  · exact ⟨bars_of_edge hdefault not_exports_prefix_of_defaultExport hword,
      barsOut_of_edge hdefault (by simp [appAssignment]) hword⟩
  · refine ⟨bars_of_edge hexport not_exports_prefix_of_exportWord hword, barsOut_of_edge hexport ?_ hword⟩
    intro behind part rest taken out hfits hmore hprefix
    obtain ⟨c, d, tail, rfl, hne, -⟩ := exists_of_rewrites_exportWord hfits hmore
    apply hne
    obtain ⟨rfl, rfl, -⟩ : 'e' = c ∧ 'x' = d ∧ _ := by simpa using hprefix
    rfl
  · exact ⟨bars_of_edge hassignment (not_exports_prefix_of_begins begins_exportAssignment (by decide)) hword,
      barsOut_of_edge hassignment (by simp [appAssignment]) hword⟩
  · exact ⟨bars_of_edge hcall (not_exports_prefix_of_begins begins_loadCall (by decide)) hword,
      barsOut_of_edge hcall (by simp) hword⟩

/-- A module word stands as often in a text as in the matches that a step takes and in what it leaves. -/
theorem times_step {step : Pattern × String} (hstep : step ∈ stripSteps) {word : String}
    (hword : word ∈ moduleWords) (text : List Char) :
    times word.toList (step.1.replace (fun _ => step.2.toList) text) +
      (((step.1.hits text).map Hit.matched).map (times word.toList)).sum = times word.toList text := by
  have hne : ∀ word ∈ moduleWords, word.toList ≠ [] := by decide
  have hnone : ∀ step ∈ stripSteps, ∀ word ∈ moduleWords, ¬word.toList <:+: step.2.toList := by decide
  obtain ⟨hbars, hbarsOut⟩ := bars_step hstep hword
  exact (rewrites_step hstep text).times_add_sum (hne word hword) hbars hbarsOut
    (severed_of_fits hstep hword) (severed_instead hstep hword) (hnone step hstep word hword)

/-! ## Stripping a script again -/

theorem length_replace_le {step : Pattern × String} (hstep : step ∈ stripSteps) (text : List Char) :
    (step.1.replace (fun _ => step.2.toList) text).length + ((step.1.hits text).map Hit.matched).length ≤
      text.length :=
  (rewrites_step hstep text).length_add_le fun _ _ _ hfits =>
    (length_lt_least step hstep).trans_le (least_le_length hfits)

/-- A step that does not make a text shorter has found nothing in it. -/
theorem occurs_eq_false_of_length {step : Pattern × String} (hstep : step ∈ stripSteps) {text : List Char}
    (h : text.length ≤ (step.1.replace (fun _ => step.2.toList) text).length) : step.1.occurs text = false := by
  have hrewrites := rewrites_step hstep text
  have hlength := length_replace_le hstep text
  have hnil : (step.1.hits text).map Hit.matched = [] := List.length_eq_zero_iff.1 (by omega)
  rw [hnil] at hrewrites
  rw [← Bool.not_eq_true, occurs_iff]
  rintro ⟨front, part, rest, hsplit, hfits⟩
  have hpart : part ≠ [] := List.ne_nil_of_length_pos ((least_pos hstep).trans_le (least_le_length hfits))
  exact hrewrites.not_fits_of_nil hsplit hpart (by simpa using hfits)

theorem replace_eq_self {step : Pattern × String} (hstep : step ∈ stripSteps) {text : List Char}
    (h : step.1.occurs text = false) : step.1.replace (fun _ => step.2.toList) text = text := by
  apply (rewrites_step hstep text).eq_self
  intro front part rest hsplit hfits
  have hoccurs : step.1.occurs text = true := occurs_iff.2 ⟨front, part, rest, hsplit, by simpa using hfits⟩
  rw [h] at hoccurs
  cases hoccurs

section Steps

variable {steps : List (Pattern × String)}

/-- The text that some steps leave. -/
def leftBy (steps : List (Pattern × String)) (text : List Char) : List Char :=
  steps.foldl (fun text step => step.1.replace (fun _ => step.2.toList) text) text

theorem leftBy_cons (step : Pattern × String) (steps : List (Pattern × String)) (text : List Char) :
    leftBy (step :: steps) text = leftBy steps (step.1.replace (fun _ => step.2.toList) text) := rfl

theorem leftBy_append (first second : List (Pattern × String)) (text : List Char) :
    leftBy (first ++ second) text = leftBy second (leftBy first text) :=
  List.foldl_append

theorem scriptOf_eq_leftBy (source : List Char) : scriptOf source = leftBy stripSteps source := rfl

theorem length_leftBy_le (hsteps : ∀ step ∈ steps, step ∈ stripSteps) (text : List Char) :
    (leftBy steps text).length ≤ text.length := by
  induction steps generalizing text with
  | nil => exact Nat.le_refl _
  | cons step steps ih =>
      obtain ⟨hstep, hsteps⟩ := List.forall_mem_cons.1 hsteps
      have hfirst := length_replace_le hstep text
      have hmore := ih hsteps (step.1.replace (fun _ => step.2.toList) text)
      rw [leftBy_cons]
      omega

/-- The steps leave a text as it is exactly when none of their patterns occurs in it. -/
theorem leftBy_eq_self_iff (hsteps : ∀ step ∈ steps, step ∈ stripSteps) {text : List Char} :
    leftBy steps text = text ↔ ∀ step ∈ steps, step.1.occurs text = false := by
  induction steps with
  | nil => simp [leftBy]
  | cons step steps ih =>
      obtain ⟨hstep, hsteps⟩ := List.forall_mem_cons.1 hsteps
      rw [List.forall_mem_cons, leftBy_cons]
      constructor
      · intro hsame
        have hmore := length_leftBy_le hsteps (step.1.replace (fun _ => step.2.toList) text)
        rw [hsame] at hmore
        have hnone := occurs_eq_false_of_length hstep hmore
        rw [replace_eq_self hstep hnone] at hsame
        exact ⟨hnone, (ih hsteps).1 hsame⟩
      · rintro ⟨hnone, hmore⟩
        rw [replace_eq_self hstep hnone]
        exact (ih hsteps).2 hmore

/-- The matches that some steps take, each from what the steps before it leave. -/
def takenBy : List (Pattern × String) → List Char → List (List Char)
  | [], _ => []
  | step :: steps, text =>
      (step.1.hits text).map Hit.matched ++ takenBy steps (step.1.replace (fun _ => step.2.toList) text)

/-- A module word stands as often in a text as in the matches that some steps take and in what they leave. -/
theorem times_leftBy (hsteps : ∀ step ∈ steps, step ∈ stripSteps) {word : String} (hword : word ∈ moduleWords)
    (text : List Char) :
    times word.toList (leftBy steps text) + ((takenBy steps text).map (times word.toList)).sum =
      times word.toList text := by
  induction steps generalizing text with
  | nil => rfl
  | cons step steps ih =>
      obtain ⟨hstep, hsteps⟩ := List.forall_mem_cons.1 hsteps
      have hmore := ih hsteps (step.1.replace (fun _ => step.2.toList) text)
      have hfirst := times_step hstep hword text
      rw [leftBy_cons, takenBy, List.map_append, List.sum_append]
      omega

end Steps

/-! ## Assignments that never survive -/

/-- The matches of a pattern begin with the texts of a kind, where no word goes on, and such a text matches
whatever comes after it. -/
structure Spelt (p : Pattern) (kind : List Char → Prop) : Prop where
  nonempty {whole : List Char} : kind whole → whole ≠ []
  exists_kind {behind part rest : List Char} : p.Fits behind part rest → ∃ whole more, kind whole ∧ part = whole ++ more
  head {behind part rest : List Char} : p.Fits behind part rest → behind.head?.any isWord = false
  fits {behind whole : List Char} (rest : List Char) : kind whole → behind.head?.any isWord = false →
    p.Fits behind whole rest

/-- A step makes no match of a pattern whose texts it does not read over the beginning of its own matches, and it
leaves none of its own. -/
theorem occurs_of_occurs_step {p : Pattern} {kind : List Char → Prop} (hp : Spelt p kind) {step : Pattern × String}
    (hstep : step ∈ stripSteps) (hbarsOut : ∀ whole, kind whole → Rewrites.BarsOut step.1 step.2.toList whole)
    (hinside : ∀ whole, kind whole → ∀ x y back, step.2.toList = x ++ y → y ≠ [] → ¬whole <+: y ++ back)
    {text : List Char} (h : p.occurs (step.1.replace (fun _ => step.2.toList) text) = true) :
    p.occurs text = true ∧ step.1 ≠ p := by
  obtain ⟨front, part, rest, hout, hfits⟩ := occurs_iff.1 h
  obtain ⟨whole, more, hkind, rfl⟩ := hp.exists_kind hfits
  have hclose ⦃behind part rest : List Char⦄ (hfits : step.1.Fits behind part rest) :
      part.getLast?.any isWord = false := by
    cases hlast : part.getLast? with
    | none => rfl
    | some c =>
        exact isWord_eq_false_of_isCloser ((closes_of_mem_stripSteps step hstep).getLast hfits hlast)
  rw [List.append_assoc] at hout
  have hhead : (front.reverse ++ []).head?.any isWord = false := by simpa using hp.head hfits
  obtain ⟨front', back, rfl, hfront, hnone⟩ := (rewrites_step hstep text).exists_standing (hp.nonempty hkind)
    (hbarsOut whole hkind) (hinside whole hkind) hclose hout (fun hseen => hseen) hhead
  rw [List.append_nil] at hfront hnone
  have hfits' := hp.fits back hkind hfront
  refine ⟨occurs_iff.2 ⟨front', whole, back, rfl, hfits'⟩, ?_⟩
  rintro rfl
  exact hnone whole back rfl hfits'

/-- A text is not read over the beginning of a match if what may follow a character of no word in it does not
follow there. -/
theorem barsOut_of_heads {p : Pattern} {instead whole : List Char} {ok : Char → Bool}
    (hchain : whole.IsChain fun c d => isWord c = false → ok d = true)
    (hhead : ∀ ⦃behind part rest⦄, p.Fits behind part rest → behind.head?.any isWord = false)
    (hout : ∀ ⦃behind part rest taken out⦄, p.Fits behind part rest →
      p.Rewrites instead (part.reverse ++ behind) rest taken out → (instead ++ out).head?.any ok = false) :
    Rewrites.BarsOut p instead whole := by
  intro behind part rest taken out x y hfits hmore hsplit hx hy hbehind hprefix
  have hlast := hhead hfits
  rw [head?_of_reverse_begins hx hbehind] at hlast
  rcases List.eq_nil_or_concat x with rfl | ⟨front, c, rfl⟩
  · exact hx rfl
  · obtain ⟨d, tail, rfl⟩ := List.exists_cons_of_ne_nil hy
    have hc : isWord c = false := by simpa using hlast
    rw [hsplit, List.concat_eq_append, List.append_assoc] at hchain
    have hd : ok d = true := List.isChain_iff_forall_rel_of_append_cons_cons.1 hchain rfl hc
    obtain ⟨back, hback⟩ := hprefix
    have hnot := hout hfits hmore
    rw [← hback] at hnot
    simp [hd] at hnot

/-- A text does not begin in a word that lacks the beginning of the text. -/
theorem not_prefix_inside {whole word : List Char} {c d : Char} (hwhole : [c, d] <+: whole)
    (hword : ∀ tail ∈ word.tails, (tail.take 2).isPrefixOf [c, d] = true → tail = []) (x y back : List Char)
    (hsplit : word = x ++ y) (hy : y ≠ []) : ¬whole <+: y ++ back := by
  intro hprefix
  apply hy
  apply hword y ((List.mem_tails _ _).2 ⟨x, hsplit.symm⟩)
  rw [List.isPrefixOf_iff_prefix]
  refine List.prefix_of_prefix_length_le ?_ (hwhole.trans hprefix) (List.length_take_le 2 y)
  exact (List.take_prefix 2 y).trans (List.prefix_append y back)

/-- The words of a default export up to the first blank behind them. -/
def IsDefaultExport (whole : List Char) : Prop :=
  ∃ blanks c, whole = "export".toList ++ (blanks ++ ("default".toList ++ [c])) ∧ blanks ≠ [] ∧
    (∀ d ∈ blanks, isBlank d = true) ∧ isBlank c = true

/-- The assignment to the exports of a module up to its sign. -/
def IsExportAssignment (whole : List Char) : Prop :=
  ∃ blanks, whole = "module.exports".toList ++ (blanks ++ ['=']) ∧ ∀ d ∈ blanks, isBlank d = true

theorem spelt_defaultExport : Spelt defaultExport IsDefaultExport where
  nonempty := by
    rintro _ ⟨blanks, c, rfl, -⟩
    simp
  exists_kind := by
    rintro behind part rest ⟨-, last, rfl, ⟨-, word, rfl, ⟨-, blanks, rfl, ⟨-, first, rfl, ⟨rfl, -⟩, hfirst⟩, hleast,
      hblanks⟩, hword⟩, hlast, hlastBlanks⟩
    obtain rfl := fits_chars hfirst
    obtain rfl := fits_chars hword
    cases last with
    | nil => cases hlast
    | cons c last =>
        exact ⟨_, last, ⟨blanks, c, rfl, List.ne_nil_of_length_pos hleast, hblanks,
          hlastBlanks c List.mem_cons_self⟩, by simp⟩
  head := head_of_edge rfl begins_defaultExport (by decide)
  fits := by
    rintro behind _ rest ⟨blanks, c, rfl, hne, hblanks, hc⟩ hbehind
    refine ⟨"export".toList ++ (blanks ++ "default".toList), [c], by simp, ⟨"export".toList ++ blanks,
      "default".toList, by simp, ⟨"export".toList, blanks, rfl, fits_edge_text (by decide) hbehind, ?_, hblanks⟩,
      fits_chars_self _ _ _⟩, Nat.le_refl 1, by simpa using hc⟩
    exact List.length_pos_iff.2 hne

theorem spelt_exportAssignment : Spelt exportAssignment IsExportAssignment where
  nonempty := by
    rintro _ ⟨blanks, rfl, -⟩
    simp
  exists_kind := by
    rintro behind part rest ⟨-, last, rfl, ⟨-, sign, rfl, ⟨-, blanks, rfl, ⟨-, first, rfl, ⟨rfl, -⟩, hfirst⟩, -,
      hblanks⟩, hsign⟩, -⟩
    obtain rfl := fits_chars hfirst
    obtain rfl := fits_chars hsign
    exact ⟨_, last, ⟨blanks, rfl, hblanks⟩, by simp⟩
  head := head_of_edge rfl begins_exportAssignment (by decide)
  fits := by
    rintro behind _ rest ⟨blanks, rfl, hblanks⟩ hbehind
    exact ⟨"module.exports".toList ++ (blanks ++ ['=']), [], by simp, ⟨"module.exports".toList ++ blanks, ['='],
      by simp, ⟨"module.exports".toList, blanks, rfl, fits_edge_text (by decide) hbehind, Nat.zero_le _, hblanks⟩,
      fits_chars_self _ _ _⟩, Nat.zero_le _, by simp⟩

theorem isChain_of_forall {R : Char → Char → Prop} {text : List Char} (h : ∀ c, ∀ d ∈ text, R c d) :
    text.IsChain R := by
  rw [List.isChain_iff_forall_rel_of_append_cons_cons]
  rintro c d front back rfl
  exact h c d (by simp)

/-- What may follow a character of no word in a default export. -/
def followsInDefault (d : Char) : Bool :=
  isBlank d || d == 'd'

/-- What may follow a character of no word in an assignment to the exports. -/
def followsInAssignment (d : Char) : Bool :=
  isBlank d || d == '=' || d == 'e'

theorem IsDefaultExport.isChain {whole : List Char} (h : IsDefaultExport whole) :
    whole.IsChain fun c d => isWord c = false → followsInDefault d = true := by
  obtain ⟨blanks, c, rfl, -, hblanks, hc⟩ := h
  have hchain : blanks.IsChain fun c d => isWord c = false → followsInDefault d = true :=
    isChain_of_forall fun _ d hd _ => by simp [followsInDefault, hblanks d hd]
  refine List.isChain_append.2 ⟨by decide, List.isChain_append.2 ⟨hchain, List.isChain_append.2
    ⟨by decide, by simp, ?_⟩, ?_⟩, ?_⟩
  · rintro x hx y hy hword
    obtain rfl : 't' = x := by simpa using hx
    exact absurd hword (by decide)
  · rintro x - y hy -
    obtain rfl : 'd' = y := by simpa using hy
    decide
  · rintro x hx y hy hword
    obtain rfl : 't' = x := by simpa using hx
    exact absurd hword (by decide)

theorem IsExportAssignment.isChain {whole : List Char} (h : IsExportAssignment whole) :
    whole.IsChain fun c d => isWord c = false → followsInAssignment d = true := by
  obtain ⟨blanks, rfl, hblanks⟩ := h
  have hchain : blanks.IsChain fun c d => isWord c = false → followsInAssignment d = true :=
    isChain_of_forall fun _ d hd _ => by simp [followsInAssignment, hblanks d hd]
  refine List.isChain_append.2 ⟨by decide, List.isChain_append.2 ⟨hchain, by simp, ?_⟩, ?_⟩
  · rintro x - y hy -
    obtain rfl : '=' = y := by simpa using hy
    decide
  · rintro x hx y hy hword
    obtain rfl : 's' = x := by simpa using hx
    exact absurd hword (by decide)

theorem head_step : ∀ step ∈ stripSteps.drop 3, ∀ ⦃behind part rest⦄, step.1.Fits behind part rest →
    behind.head?.any isWord = false := by
  intro step hstep behind part rest hfits
  fin_cases hstep
  · exact head_of_edge rfl begins_defaultExport (by decide) hfits
  · exact head_of_edge rfl begins_exportWord (by decide) hfits
  · exact head_of_edge rfl begins_exportAssignment (by decide) hfits
  · exact head_of_edge rfl begins_loadCall (by decide) hfits

/-- The later steps make no match of a pattern when what they put in place of their own does not go on as its
texts do. -/
theorem occurs_of_occurs_later {p : Pattern} {kind : List Char → Prop} (hp : Spelt p kind) {c d : Char}
    {ok : Char → Bool} (hchain : ∀ whole, kind whole → whole.IsChain fun c d => isWord c = false → ok d = true)
    (hfirst : ∀ whole, kind whole → [c, d] <+: whole) {step : Pattern × String} (hstep : step ∈ stripSteps.drop 3)
    (hinside : ∀ tail ∈ step.2.toList.tails, (tail.take 2).isPrefixOf [c, d] = true → tail = [])
    (hout : ∀ ⦃behind part rest taken out⦄, step.1.Fits behind part rest →
      step.1.Rewrites step.2.toList (part.reverse ++ behind) rest taken out →
        (step.2.toList ++ out).head?.any ok = false)
    {text : List Char} (h : p.occurs (step.1.replace (fun _ => step.2.toList) text) = true) :
    p.occurs text = true ∧ step.1 ≠ p := by
  refine occurs_of_occurs_step hp (List.mem_of_mem_drop hstep)
    (fun whole hkind => barsOut_of_heads (hchain whole hkind) (head_step step hstep) hout) ?_ h
  intro whole hkind x y back hsplit hy
  exact not_prefix_inside (hfirst whole hkind) hinside x y back hsplit hy

theorem IsDefaultExport.first {whole : List Char} (h : IsDefaultExport whole) : ['e', 'x'] <+: whole := by
  obtain ⟨blanks, c, rfl, -⟩ := h
  simp

theorem IsExportAssignment.first {whole : List Char} (h : IsExportAssignment whole) : ['m', 'o'] <+: whole := by
  obtain ⟨blanks, rfl, -⟩ := h
  simp

theorem occurs_leftBy_of_not {p : Pattern} {steps : List (Pattern × String)}
    (hsteps : ∀ step ∈ steps, ∀ text, p.occurs (step.1.replace (fun _ => step.2.toList) text) = true →
      p.occurs text = true) {text : List Char} (h : p.occurs text = false) : p.occurs (leftBy steps text) = false := by
  induction steps generalizing text with
  | nil => exact h
  | cons step steps ih =>
      obtain ⟨hstep, hsteps⟩ := List.forall_mem_cons.1 hsteps
      refine ih hsteps ?_
      rw [← Bool.not_eq_true] at h ⊢
      exact fun hoccurs => h (hstep text hoccurs)

theorem any_head?_append {ok : Char → Bool} {front : List Char} (hfront : front ≠ []) (back : List Char) :
    (front ++ back).head?.any ok = front.head?.any ok := by
  rw [List.head?_append_of_ne_nil _ hfront]

/-- What the later steps put in place of their matches does not go on as a default export does. -/
theorem head_instead_default : ∀ step ∈ stripSteps.drop 3, ∀ ⦃behind part rest taken out⦄,
    step.1.Fits behind part rest → step.1.Rewrites step.2.toList (part.reverse ++ behind) rest taken out →
      (step.2.toList ++ out).head?.any followsInDefault = false := by
  intro step hstep behind part rest taken out hfits hmore
  fin_cases hstep
  · exact (any_head?_append (by decide) out).trans (by decide)
  · obtain ⟨c, d, tail, rfl, -, hc, hblank⟩ := exists_of_rewrites_exportWord hfits hmore
    simp [followsInDefault, hc, hblank]
  · exact (any_head?_append (by decide) out).trans (by decide)
  · exact (any_head?_append (by decide) out).trans (by decide)

theorem occurs_defaultExport_later {step : Pattern × String} (hstep : step ∈ stripSteps.drop 3) {text : List Char}
    (h : defaultExport.occurs (step.1.replace (fun _ => step.2.toList) text) = true) :
    defaultExport.occurs text = true ∧ step.1 ≠ defaultExport := by
  have hinside : ∀ step ∈ stripSteps, ∀ tail ∈ step.2.toList.tails,
      (tail.take 2).isPrefixOf ['e', 'x'] = true → tail = [] := by decide
  exact occurs_of_occurs_later spelt_defaultExport (fun _ => IsDefaultExport.isChain) (fun _ => IsDefaultExport.first)
    hstep (hinside step (List.mem_of_mem_drop hstep)) (head_instead_default step hstep) h

theorem occurs_exportAssignment_later {step : Pattern × String} (hstep : step ∈ stripSteps.drop 5)
    {text : List Char} (h : exportAssignment.occurs (step.1.replace (fun _ => step.2.toList) text) = true) :
    exportAssignment.occurs text = true ∧ step.1 ≠ exportAssignment := by
  have hinside : ∀ step ∈ stripSteps, ∀ tail ∈ step.2.toList.tails,
      (tail.take 2).isPrefixOf ['m', 'o'] = true → tail = [] := by decide
  have hhead : ∀ step ∈ stripSteps.drop 5, ∀ out : List Char,
      (step.2.toList ++ out).head?.any followsInAssignment = false := by
    intro step hstep out
    fin_cases hstep
    all_goals exact (any_head?_append (by decide) out).trans (by decide)
  have hlater : step ∈ stripSteps.drop 3 := List.mem_of_mem_drop (i := 2) (by rwa [List.drop_drop])
  exact occurs_of_occurs_later spelt_exportAssignment (fun _ => IsExportAssignment.isChain)
    (fun _ => IsExportAssignment.first) hlater (hinside step (List.mem_of_mem_drop hstep))
    (fun _ _ _ _ out _ _ => hhead step hstep out) h

/-- Neither a default export nor an assignment to the exports of a module survives. -/
theorem assignments_not_occur (source : List Char) :
    defaultExport.occurs (scriptOf source) = false ∧ exportAssignment.occurs (scriptOf source) = false := by
  have hdefault : (defaultExport, appAssignment) ∈ stripSteps.drop 3 := by simp [stripSteps]
  have hassignment : (exportAssignment, appAssignment) ∈ stripSteps.drop 5 := by simp [stripSteps]
  constructor
  · have hsplit : stripSteps = stripSteps.take 3 ++ (defaultExport, appAssignment) :: stripSteps.drop 4 := rfl
    rw [scriptOf_eq_leftBy, hsplit, leftBy_append, leftBy_cons]
    apply occurs_leftBy_of_not
    · intro step hstep text hoccurs
      have hlater : step ∈ stripSteps.drop 3 := List.mem_of_mem_drop (i := 1) (by rwa [List.drop_drop])
      exact (occurs_defaultExport_later hlater hoccurs).1
    · rw [← Bool.not_eq_true]
      exact fun hoccurs => (occurs_defaultExport_later hdefault hoccurs).2 rfl
  · have hsplit : stripSteps = stripSteps.take 5 ++ (exportAssignment, appAssignment) :: stripSteps.drop 6 := rfl
    rw [scriptOf_eq_leftBy, hsplit, leftBy_append, leftBy_cons]
    apply occurs_leftBy_of_not
    · intro step hstep text hoccurs
      have hlater : step ∈ stripSteps.drop 5 := List.mem_of_mem_drop (i := 1) (by rwa [List.drop_drop])
      exact (occurs_exportAssignment_later hlater hoccurs).1
    · rw [← Bool.not_eq_true]
      exact fun hoccurs => (occurs_exportAssignment_later hassignment hoccurs).2 rfl

/-! ## What is left -/

/-- Every module word of a source stands in a match that a step takes. -/
def Covered (source : List Char) : Prop :=
  ∀ word ∈ moduleWords, times word.toList source ≤ ((takenBy stripSteps source).map (times word.toList)).sum

instance (source : List Char) : Decidable (Covered source) :=
  inferInstanceAs (Decidable (∀ word ∈ moduleWords,
    times word.toList source ≤ ((takenBy stripSteps source).map (times word.toList)).sum))

theorem covered_iff {source : List Char} :
    Covered source ↔ ∀ word ∈ moduleWords, ¬word.toList <:+: scriptOf source := by
  have hne : ∀ word ∈ moduleWords, word.toList ≠ [] := by decide
  refine forall₂_congr fun word hword => ?_
  have htimes := times_leftBy (fun step hstep => hstep) hword source
  rw [← times_eq_zero_iff (hne word hword), scriptOf_eq_leftBy]
  omega

/-- Every match of module syntax holds a module word. -/
theorem exists_word_of_mem_stripSteps : ∀ step ∈ stripSteps, ∃ word ∈ moduleWords, step.1.Holds word.toList := by
  have hbegins {p : Pattern} {word : List Char} (h : p.Begins word) : p.Holds word :=
    fun _ _ _ hfits => (h hfits).isInfix
  have himport : (Pattern.text "import").Holds "import".toList := holds_text List.infix_rfl
  have hexport : (Pattern.text "export").Holds "export".toList := holds_text List.infix_rfl
  intro step hstep
  fin_cases hstep
  · refine ⟨"import", by simp [moduleWords], ?_⟩
    iterate 7 apply holds_seq_left
    exact holds_seq_right himport _
  · refine ⟨"import", by simp [moduleWords], ?_⟩
    iterate 3 apply holds_seq_left
    exact holds_seq_right himport _
  · refine ⟨"export", by simp [moduleWords], ?_⟩
    iterate 6 apply holds_seq_left
    exact holds_seq_right hexport _
  · exact ⟨"export", by simp [moduleWords], hbegins begins_defaultExport⟩
  · exact ⟨"export", by simp [moduleWords], hbegins begins_exportWord⟩
  · exact ⟨"module.exports", by simp [moduleWords], hbegins begins_exportAssignment⟩
  · exact ⟨"require(", by simp [moduleWords], hbegins begins_loadCall⟩

theorem occurs_eq_false_of_covered {source : List Char} (h : Covered source) :
    ∀ step ∈ stripSteps, step.1.occurs (scriptOf source) = false := by
  intro step hstep
  obtain ⟨word, hword, hholds⟩ := exists_word_of_mem_stripSteps step hstep
  rw [← Bool.not_eq_true, occurs_iff]
  rintro ⟨front, part, rest, hsplit, hfits⟩
  apply covered_iff.1 h word hword
  rw [hsplit]
  exact (hholds hfits).trans ⟨front, rest, by simp⟩

/-- The patterns whose texts may come about while others are taken away. -/
def survivors : List Pattern :=
  [importStatement, bareImport, exportList, exportWord, loadCall]

/-- A script is left as it is by a second stripping exactly when none of five patterns occurs in it; default
exports and assignments to the exports never do.  Every module word of the source stands in a match that was
taken, or else in the script, so nothing is left of a source whose module words all stand in matches. -/
theorem scriptOf_scriptOf_iff (source : List Char) :
    (scriptOf (scriptOf source) = scriptOf source ↔ ∀ p ∈ survivors, p.occurs (scriptOf source) = false) ∧
    (defaultExport.occurs (scriptOf source) = false ∧ exportAssignment.occurs (scriptOf source) = false) ∧
    (∀ word ∈ moduleWords, times word.toList (scriptOf source) +
      ((takenBy stripSteps source).map (times word.toList)).sum = times word.toList source) ∧
    (Covered source → scriptOf (scriptOf source) = scriptOf source ∧
      ∀ word ∈ moduleWords, ¬word.toList <:+: scriptOf source) := by
  have hassignments := assignments_not_occur source
  have hsame := @leftBy_eq_self_iff stripSteps (fun step hstep => hstep) (scriptOf source)
  refine ⟨?_, hassignments, fun word hword => times_leftBy (fun step hstep => hstep) hword source, ?_⟩
  · rw [scriptOf_eq_leftBy (scriptOf source), hsame]
    simp only [stripSteps, survivors, List.forall_mem_cons, hassignments, true_and, List.not_mem_nil, false_implies,
      implies_true]
  · intro hcovered
    exact ⟨hsame.2 (occurs_eq_false_of_covered hcovered), covered_iff.1 hcovered⟩

example : Covered "import a, \x7b b \x7d from 'x';\nimport './c.css';\nexport const d = 1;\nexport default a;\n".toList := by
  decide +kernel

/-- Of two imports on one line only the first is taken, and a second stripping takes the other. -/
theorem scriptOf_import_left :
    scriptOf "import a from 'x';import b from 'y';".toList = "import b from 'y';".toList ∧
      scriptOf "import b from 'y';".toList = [] := by
  decide +kernel

end Preview

end ComponentBuilder
