import ComponentBuilder.Guard.Rule
import ComponentBuilder.Proofs.Scan.Construct
import ComponentBuilder.Proofs.Text.Occurrence

/-!
# Handlers in a text

The rule on handlers looks for a name at the beginning of a text or after a blank, with an equals sign and a
quote behind it.  No such place lies within another one, so its search comes across all of them.
-/

namespace ComponentBuilder.Guard

open Text

/-- The name of an event handler. -/
def IsHandlerName (name : List Char) : Prop :=
  ∃ letters, name = 'o' :: 'n' :: letters ∧ 3 ≤ letters.length ∧ ∀ c ∈ letters, isAsciiLetter c = true

/-- A handler's name, an equals sign between blanks, and a quote. -/
def Handler (name part : List Char) : Prop :=
  ∃ gap gap' quote, part = name ++ (gap ++ '=' :: (gap' ++ [quote])) ∧ IsHandlerName name ∧
    (∀ c ∈ gap, isBlank c = true) ∧ (∀ c ∈ gap', isBlank c = true) ∧ Markup.Scan.isTagQuote quote = true

theorem isBlank_eq_false_of_isAsciiLetter {c : Char} (h : isAsciiLetter c = true) : isBlank c = false :=
  isBlank_eq_false_of_isWord (isWord_of_isAlpha h)

theorem isAsciiLetter_eq_false_of_isBlank {c : Char} (h : isBlank c = true) : isAsciiLetter c = false := by
  by_contra hletter
  rw [Bool.not_eq_false] at hletter
  rw [isBlank_eq_false_of_isAsciiLetter hletter] at h
  cases h

theorem IsHandlerName.isAsciiLetter_of_mem {name : List Char} (h : IsHandlerName name) :
    ∀ c ∈ name, isAsciiLetter c = true := by
  obtain ⟨letters, rfl, -, hletters⟩ := h
  exact List.forall_mem_cons.2 ⟨by decide, List.forall_mem_cons.2 ⟨by decide, hletters⟩⟩

theorem fits_handlerName_iff {behind name rest : List Char} :
    (Pattern.text "on" ++ .many 3 isAsciiLetter).Fits behind name rest ↔ IsHandlerName name := by
  have hword : "on".toList = ['o', 'n'] := by simp
  constructor
  · rintro ⟨front, letters, rfl, hfront, hlength, hletters⟩
    rw [Pattern.fits_chars hfront, hword]
    exact ⟨letters, rfl, hlength, hletters⟩
  · rintro ⟨letters, rfl, hlength, hletters⟩
    refine ⟨"on".toList, letters, ?_, Pattern.fits_chars_self _ _ _, hlength, hletters⟩
    rw [hword]
    rfl

/-- What the rule on handlers captures is the name of a handler at the beginning or after a blank. -/
theorem keeps_handlerPattern_iff {behind part rest old captured : List Char} :
    handlerPattern.Keeps behind part rest old captured ↔
      behind.head?.all isBlank = true ∧ Handler captured part := by
  have hside : behind.head?.any (!isBlank ·) = false ↔ behind.head?.all isBlank = true := by
    cases behind.head? <;> simp
  have hsign : "=".toList = ['='] := by simp
  constructor
  · rintro ⟨_, _, _, rfl, ⟨_, gap', _, rfl, ⟨_, equals, _, rfl, ⟨_, gap, _, rfl,
      ⟨front, name, _, rfl, ⟨⟨rfl, hbehind⟩, rfl⟩, hname, rfl⟩, ⟨-, hgap⟩, rfl⟩, hequals⟩,
      ⟨-, hgap'⟩, rfl⟩, ⟨quote, rfl, hquote⟩, rfl⟩
    obtain ⟨hequals, rfl⟩ := (Pattern.keeps_iff_of_captureless (by decide)).1 hequals
    obtain rfl := Pattern.fits_chars hequals
    refine ⟨hside.1 hbehind, gap, gap', quote, ?_, fits_handlerName_iff.1 hname, hgap, hgap', hquote⟩
    rw [hsign]
    simp
  · rintro ⟨hbehind, gap, gap', quote, rfl, hname, hgap, hgap', hquote⟩
    have hequals : (Pattern.text "=").Keeps (gap.reverse ++ (captured.reverse ++ behind)) ['=']
        (gap' ++ ([quote] ++ rest)) captured captured :=
      (Pattern.keeps_iff_of_captureless (by decide)).2 ⟨Pattern.fits_chars_self ['='] _ _, rfl⟩
    refine ⟨captured ++ gap ++ ['='] ++ gap', [quote], captured, by simp,
      ⟨captured ++ gap ++ ['='], gap', captured, rfl, ⟨captured ++ gap, ['='], captured, rfl,
        ⟨captured, gap, captured, rfl, ⟨[], captured, old, rfl, ⟨⟨rfl, hside.2 hbehind⟩, rfl⟩,
          fits_handlerName_iff.2 hname, rfl⟩, ⟨Nat.zero_le _, hgap⟩, rfl⟩, ?_⟩,
        ⟨Nat.zero_le _, hgap'⟩, rfl⟩, ⟨quote, rfl, hquote⟩, rfl⟩
    simpa using hequals

/-! ## The handlers of a text -/

theorem stops_isAsciiLetter_gap_equals {gap : List Char} (hgap : ∀ c ∈ gap, isBlank c = true)
    (rest : List Char) : Stops isAsciiLetter (gap ++ '=' :: rest) := by
  cases gap with
  | nil => exact stops_cons.2 (by decide)
  | cons c gap => exact stops_cons.2 (isAsciiLetter_eq_false_of_isBlank (hgap c List.mem_cons_self))

/-- A handler's name can be told from the text that it begins. -/
theorem Handler.name_eq {name name' part part' rest rest' : List Char} (h : Handler name part)
    (h' : Handler name' part') (htext : part ++ rest = part' ++ rest') : name = name' := by
  obtain ⟨gap, gap', quote, rfl, hname, hgap, -⟩ := h
  obtain ⟨other, other', quote', rfl, hname', hother, -⟩ := h'
  have htake := congrArg (List.takeWhile isAsciiLetter) htext
  simp only [List.append_assoc, List.cons_append] at htake
  rwa [takeWhile_append_stops hname.isAsciiLetter_of_mem (stops_isAsciiLetter_gap_equals hgap _),
    takeWhile_append_stops hname'.isAsciiLetter_of_mem (stops_isAsciiLetter_gap_equals hother _)] at htake

theorem Handler.isAsciiLetter_eq_false {name part front back : List Char} {c d : Char} (h : Handler name part)
    (hpart : part = front ++ c :: d :: back) (hc : isBlank c = true) : isAsciiLetter d = false := by
  obtain ⟨gap, gap', quote, rfl, hname, hgap, hgap', hquote⟩ := h
  have htail : ∀ e ∈ gap ++ '=' :: (gap' ++ [quote]), isAsciiLetter e = false := by
    simp only [List.mem_append, List.mem_cons, List.not_mem_nil, or_false]
    rintro e (he | rfl | he | rfl)
    · exact isAsciiLetter_eq_false_of_isBlank (hgap e he)
    · decide
    · exact isAsciiLetter_eq_false_of_isBlank (hgap' e he)
    · exact Markup.Scan.eq_false_of_isTagQuote (by decide) (by decide) hquote
  rcases append_eq_append_cons hpart with ⟨more, rfl⟩ | ⟨more, -, hmore⟩
  · have hletter := hname.isAsciiLetter_of_mem c (by simp)
    rw [isAsciiLetter_eq_false_of_isBlank hc] at hletter
    cases hletter
  · exact htail d (by rw [hmore]; simp)

theorem Handler.eq_cons {name part : List Char} (h : Handler name part) : ∃ more, part = 'o' :: more := by
  obtain ⟨gap, gap', quote, rfl, ⟨letters, rfl, -⟩, -⟩ := h
  exact ⟨_, rfl⟩

/--
A handler is read in a text after a blank, or where the text begins.  Whether something else stands before the
beginning of the text tells `apart`.
-/
def Reads (apart : Bool) (name text : List Char) : Prop :=
  ∃ a part rest, text = a ++ (part ++ rest) ∧ Handler name part ∧ a.getLast?.elim apart isBlank = true

/-- The search for handlers comes across each of them. -/
theorem mem_captures_handlerPattern {captured text : List Char} :
    captured ∈ handlerPattern.captures text ↔ Reads true captured text := by
  have hside (a : List Char) : a.reverse.head?.all isBlank = a.getLast?.elim true isBlank := by
    rw [List.head?_reverse]
    cases a.getLast? <;> rfl
  constructor
  · intro h
    obtain ⟨a, part, rest, rfl, hkeeps⟩ := Pattern.exists_of_mem_captures h
    obtain ⟨hbehind, hhandler⟩ := keeps_handlerPattern_iff.1 hkeeps
    exact ⟨a, part, rest, rfl, hhandler, hside a ▸ hbehind⟩
  · rintro ⟨front, part, rest, rfl, hhandler, hfront⟩
    rw [← hside] at hfront
    obtain ⟨more, hmore⟩ := hhandler.eq_cons
    have hhere : handlerPattern.Keeps front.reverse part rest [] captured :=
      keeps_handlerPattern_iff.2 ⟨hfront, hhandler⟩
    obtain ⟨a, b, part', rest', captured', rfl, htext, hreach, hfinds, hmem⟩ :=
      Pattern.captures_of_fits hhere.fits (by rw [hmore]; simp)
    obtain ⟨-, hother⟩ := keeps_handlerPattern_iff.1 hfinds.keeps
    rcases List.eq_nil_or_concat b with rfl | ⟨b, c, rfl⟩
    · rwa [hhandler.name_eq hother htext]
    · -- Another match would go over the blank in front of the name and its first letter.
      exfalso
      have hblank : isBlank c = true := by simpa using hfront
      have hlength : b.length + 1 < part'.length := by simpa using hreach
      rw [hmore, List.concat_eq_append] at htext
      rcases append_eq_append_cons htext.symm with ⟨inner, rfl⟩ | ⟨inner, hinner, -⟩
      · have hletter := hother.isAsciiLetter_eq_false (List.append_assoc b [c] ('o' :: inner)) hblank
        exact absurd hletter (by decide)
      · have hshort := congrArg List.length hinner
        simp only [List.length_append, List.length_singleton] at hshort
        omega

theorem Reads.mono {name text : List Char} (h : Reads false name text) : Reads true name text := by
  obtain ⟨a, part, rest, htext, hhandler, hside⟩ := h
  refine ⟨a, part, rest, htext, hhandler, ?_⟩
  cases hlast : a.getLast? with
  | none => rfl
  | some c =>
      rw [hlast] at hside
      exact hside

/-! ## Reading a text from the left -/

def Begins (name text : List Char) : Prop :=
  ∃ part rest, text = part ++ rest ∧ Handler name part

theorem not_begins_of_head {name text : List Char} {c : Char} (hc : isAsciiLetter c = false) :
    ¬Begins name (c :: text) := by
  rintro ⟨part, rest, htext, hhandler⟩
  obtain ⟨more, rfl⟩ := hhandler.eq_cons
  obtain ⟨rfl, -⟩ := List.cons.inj htext
  exact absurd hc (by decide)

theorem not_reads_nil (apart : Bool) (name : List Char) : ¬Reads apart name [] := by
  rintro ⟨a, part, rest, htext, hhandler, -⟩
  obtain ⟨more, rfl⟩ := hhandler.eq_cons
  simp at htext

theorem reads_cons {apart : Bool} {name text : List Char} {c : Char} :
    Reads apart name (c :: text) ↔ (apart = true ∧ Begins name (c :: text)) ∨ Reads (isBlank c) name text := by
  have hlast (a : List Char) : (c :: a).getLast?.elim apart isBlank = a.getLast?.elim (isBlank c) isBlank := by
    rw [List.getLast?_cons]
    cases a.getLast? <;> rfl
  constructor
  · rintro ⟨a, part, rest, htext, hhandler, hside⟩
    cases a with
    | nil => exact .inl ⟨hside, part, rest, htext, hhandler⟩
    | cons d a =>
        obtain ⟨rfl, rfl⟩ := List.cons.inj htext
        exact .inr ⟨a, part, rest, rfl, hhandler, hlast a ▸ hside⟩
  · rintro (⟨hapart, part, rest, htext, hhandler⟩ | ⟨a, part, rest, rfl, hhandler, hside⟩)
    · exact ⟨[], part, rest, htext, hhandler, hapart⟩
    · exact ⟨c :: a, part, rest, rfl, hhandler, (hlast a).trans hside⟩

theorem reads_cons_of_not_letter {apart : Bool} {name text : List Char} {c : Char}
    (hc : isAsciiLetter c = false) : Reads apart name (c :: text) ↔ Reads (isBlank c) name text := by
  rw [reads_cons, or_iff_right fun h => not_begins_of_head hc h.2]

/-- No handler begins within a run of characters that are no blanks. -/
theorem reads_append_solid {name word text : List Char} (hword : ∀ c ∈ word, isBlank c = false) :
    Reads false name (word ++ text) ↔ Reads false name text := by
  induction word with
  | nil => rfl
  | cons c word ih =>
      obtain ⟨hc, hword⟩ := List.forall_mem_cons.1 hword
      rw [List.cons_append, reads_cons, hc, ih hword, or_iff_right fun h => Bool.false_ne_true h.1]

theorem exists_reads_append_blanks {name gap : List Char} (hgap : ∀ c ∈ gap, isBlank c = true)
    (apart : Bool) : ∃ apart', ∀ text, Reads apart name (gap ++ text) ↔ Reads apart' name text := by
  induction gap generalizing apart with
  | nil => exact ⟨apart, fun _ => Iff.rfl⟩
  | cons c gap ih =>
      obtain ⟨hc, hgap⟩ := List.forall_mem_cons.1 hgap
      obtain ⟨apart', hsame⟩ := ih hgap (isBlank c)
      refine ⟨apart', fun text => ?_⟩
      rw [List.cons_append, reads_cons_of_not_letter (isAsciiLetter_eq_false_of_isBlank hc), hsame]

theorem isBlank_eq_false_of_isTagQuote {c : Char} (h : Markup.Scan.isTagQuote c = true) : isBlank c = false :=
  Markup.Scan.eq_false_of_isTagQuote (by decide) (by decide) h

theorem isTagQuote_eq_false_of_isBlank {c : Char} (h : isBlank c = true) : Markup.Scan.isTagQuote c = false :=
  Markup.Scan.isTagQuote_eq_false_of_class (by decide) (by decide) h

theorem isAsciiLetter_eq_false_of_isTagQuote {c : Char} (h : Markup.Scan.isTagQuote c = true) :
    isAsciiLetter c = false :=
  Markup.Scan.eq_false_of_isTagQuote (by decide) (by decide) h

theorem Handler.eq_concat {name part : List Char} (h : Handler name part) : ∃ front quote,
    part = front ++ [quote] ∧ (∀ c ∈ front, Markup.Scan.isTagQuote c = false) ∧
      Markup.Scan.isTagQuote quote = true := by
  obtain ⟨gap, gap', quote, rfl, hname, hgap, hgap', hquote⟩ := h
  have hplain {c : Char} (h : isBlank c = true ∨ isAsciiLetter c = true) : Markup.Scan.isTagQuote c = false := by
    by_contra hquote
    rw [Bool.not_eq_false] at hquote
    rw [isBlank_eq_false_of_isTagQuote hquote, isAsciiLetter_eq_false_of_isTagQuote hquote] at h
    simp at h
  refine ⟨name ++ (gap ++ '=' :: gap'), quote, by simp, ?_, hquote⟩
  simp only [List.mem_append, List.mem_cons]
  rintro c (hc | hc | rfl | hc)
  · exact hplain (.inr (hname.isAsciiLetter_of_mem c hc))
  · exact hplain (.inl (hgap c hc))
  · decide
  · exact hplain (.inl (hgap' c hc))

/-- A handler at the beginning of a text ends no later than at the first quote of it. -/
theorem begins_append_quote {name word text : List Char} {quote : Char}
    (hquote : Markup.Scan.isTagQuote quote = true) :
    Begins name (word ++ quote :: text) ↔ Begins name (word ++ [quote]) := by
  constructor
  · rintro ⟨part, rest, htext, hhandler⟩
    obtain ⟨front, last, rfl, hfront, -⟩ := hhandler.eq_concat
    rw [List.append_assoc, List.singleton_append] at htext
    rcases append_cons_eq_append_cons htext with ⟨rfl, rfl, -⟩ | ⟨more, rfl⟩ | ⟨more, rfl⟩
    · exact ⟨word ++ [quote], [], by simp, hhandler⟩
    · exact ⟨front ++ [last], more ++ [quote], by simp, hhandler⟩
    · exact absurd (by simp) (not_mem_of_forall_false hfront hquote)
  · rintro ⟨part, rest, htext, hhandler⟩
    refine ⟨part, rest ++ text, ?_, hhandler⟩
    rw [List.append_cons, htext, List.append_assoc]

/-- No handler goes over a quote. -/
theorem reads_append_quote {apart : Bool} {name word text : List Char} {quote : Char}
    (hquote : Markup.Scan.isTagQuote quote = true) :
    Reads apart name (word ++ quote :: text) ↔ Reads apart name (word ++ [quote]) ∨ Reads false name text := by
  have hblank := isBlank_eq_false_of_isTagQuote hquote
  have hletter := isAsciiLetter_eq_false_of_isTagQuote hquote
  induction word generalizing apart with
  | nil =>
      rw [List.nil_append, List.nil_append, reads_cons_of_not_letter hletter, reads_cons_of_not_letter hletter,
        hblank, or_iff_right (not_reads_nil false name)]
  | cons c word ih =>
      have hbegins := @begins_append_quote name (c :: word) text quote hquote
      simp only [List.cons_append] at hbegins ⊢
      rw [reads_cons, reads_cons, hbegins, or_assoc]
      exact or_congr_right ih

/-! ## What follows a name -/

def quoteNext (text : List Char) : Bool :=
  (trimStart text).head?.any Markup.Scan.isTagQuote

/-- The next characters that are no blanks are an equals sign and a quote. -/
def quoteAssigned (text : List Char) : Bool :=
  match trimStart text with
  | [] => false
  | c :: rest => c == '=' && quoteNext rest

theorem quoteNext_iff {text : List Char} : quoteNext text = true ↔ ∃ gap quote rest,
    text = gap ++ quote :: rest ∧ (∀ c ∈ gap, isBlank c = true) ∧ Markup.Scan.isTagQuote quote = true := by
  constructor
  · intro h
    obtain ⟨gap, hgap, htext, -⟩ := exists_blanks_append_trimStart text
    rw [quoteNext] at h
    cases htrim : trimStart text with
    | nil => simp [htrim] at h
    | cons quote rest => exact ⟨gap, quote, rest, htrim ▸ htext, hgap, by simpa [htrim] using h⟩
  · rintro ⟨gap, quote, rest, rfl, hgap, hquote⟩
    rw [quoteNext, trimStart_append_of_stops hgap (stops_cons.2 (isBlank_eq_false_of_isTagQuote hquote))]
    simpa using hquote

theorem quoteAssigned_iff {text : List Char} : quoteAssigned text = true ↔ ∃ gap rest,
    text = gap ++ '=' :: rest ∧ (∀ c ∈ gap, isBlank c = true) ∧ quoteNext rest = true := by
  constructor
  · intro h
    obtain ⟨gap, hgap, htext, -⟩ := exists_blanks_append_trimStart text
    rw [quoteAssigned] at h
    cases htrim : trimStart text with
    | nil => simp [htrim] at h
    | cons c rest =>
        rw [htrim, Bool.and_eq_true, beq_iff_eq] at h
        obtain ⟨rfl, hrest⟩ := h
        exact ⟨gap, rest, htrim ▸ htext, hgap, hrest⟩
  · rintro ⟨gap, rest, rfl, hgap, hrest⟩
    rw [quoteAssigned, trimStart_append_of_stops hgap (stops_cons.2 (by decide))]
    simpa using hrest

theorem quoteNext_cons_of_blank {c : Char} (hc : isBlank c = true) (text : List Char) :
    quoteNext (c :: text) = quoteNext text := by
  simp [quoteNext, trimStart, hc]

theorem quoteAssigned_cons_of_blank {c : Char} (hc : isBlank c = true) (text : List Char) :
    quoteAssigned (c :: text) = quoteAssigned text := by
  simp [quoteAssigned, trimStart, hc]

theorem quoteNext_cons_of_solid {c : Char} (hc : isBlank c = false) (text : List Char) :
    quoteNext (c :: text) = Markup.Scan.isTagQuote c := by
  simp [quoteNext, trimStart, hc]

theorem quoteAssigned_cons_of_solid {c : Char} (hc : isBlank c = false) (text : List Char) :
    quoteAssigned (c :: text) = (c == '=' && quoteNext text) := by
  simp [quoteAssigned, trimStart, hc]

/-- A text begins with a handler when its name is followed by an equals sign and a quote. -/
theorem begins_iff {name text : List Char} :
    Begins name text ↔ IsHandlerName name ∧ ∃ rest, text = name ++ rest ∧ quoteAssigned rest = true := by
  constructor
  · rintro ⟨_, rest, rfl, gap, gap', quote, rfl, hname, hgap, hgap', hquote⟩
    refine ⟨hname, gap ++ '=' :: (gap' ++ quote :: rest), by simp, quoteAssigned_iff.2 ⟨gap, _, rfl, hgap, ?_⟩⟩
    exact quoteNext_iff.2 ⟨gap', quote, rest, rfl, hgap', hquote⟩
  · rintro ⟨hname, _, rfl, hassigned⟩
    obtain ⟨gap, _, rfl, hgap, hnext⟩ := quoteAssigned_iff.1 hassigned
    obtain ⟨gap', quote, rest, rfl, hgap', hquote⟩ := quoteNext_iff.1 hnext
    exact ⟨name ++ (gap ++ '=' :: (gap' ++ [quote])), rest, by simp, gap, gap', quote, rfl, hname, hgap, hgap', hquote⟩

end ComponentBuilder.Guard
