import ComponentBuilder.Proofs.Guard.HandlerNames
import ComponentBuilder.Proofs.Text.Run

/-!
# Matches of the import patterns

An import with a clause is matched from the word it begins with to the first word `from` between blanks that a
path in quotes follows; one without a clause to the path right behind the word.
-/

namespace ComponentBuilder.Guard

open Text Markup

/-- The word `from` between blanks. -/
def IsLink (link : List Char) : Prop :=
  ∃ gap gap', link = gap ++ ("from".toList ++ gap') ∧ gap ≠ [] ∧ gap' ≠ [] ∧
    (∀ c ∈ gap, isBlank c = true) ∧ ∀ c ∈ gap', isBlank c = true

/-- A path that is not empty, in quotes. -/
def IsQuoted (path part : List Char) : Prop :=
  ∃ quote quote', part = quote :: (path ++ [quote']) ∧ Scan.isTagQuote quote = true ∧
    Scan.isTagQuote quote' = true ∧ path ≠ [] ∧ ∀ c ∈ path, Scan.isTagQuote c = false

/-- What follows the clause of an import. -/
def fromPattern : Pattern :=
  .gap ++ (.text "from" ++ (.gap ++ pathPattern))

variable {behind part rest old kept captured : List Char} {offset : Nat}

theorem fits_gap_iff : Pattern.gap.Fits behind part rest ↔ part ≠ [] ∧ ∀ c ∈ part, isBlank c = true := by
  rw [← List.length_pos_iff]
  rfl

theorem keeps_pathPattern_iff : pathPattern.Keeps behind part rest old kept ↔ IsQuoted kept part := by
  have hnot (path : List Char) : (∀ c ∈ path, (!Scan.isTagQuote c) = true) ↔
      ∀ c ∈ path, Scan.isTagQuote c = false := by
    simp
  constructor
  · rintro ⟨_, _, _, rfl, ⟨_, path, _, rfl, ⟨⟨quote, rfl, hquote⟩, rfl⟩, ⟨hlength, hpath⟩, rfl⟩,
      ⟨quote', rfl, hquote'⟩, rfl⟩
    exact ⟨quote, quote', rfl, hquote, hquote', List.length_pos_iff.1 hlength, (hnot _).1 hpath⟩
  · rintro ⟨quote, quote', rfl, hquote, hquote', hne, hpath⟩
    exact ⟨[quote] ++ kept, [quote'], kept, rfl, ⟨[quote], kept, old, rfl, ⟨⟨quote, rfl, hquote⟩, rfl⟩,
      ⟨List.length_pos_iff.2 hne, (hnot kept).2 hpath⟩, rfl⟩, ⟨quote', rfl, hquote'⟩, rfl⟩

theorem fits_pathPattern {path : List Char} (h : IsQuoted path part) (behind rest : List Char) :
    pathPattern.Fits behind part rest := by
  have hkeeps : pathPattern.Keeps behind part rest [] path := keeps_pathPattern_iff.2 h
  exact hkeeps.fits

theorem keeps_fromPattern_iff : fromPattern.Keeps behind part rest old kept ↔
    ∃ link quoted, part = link ++ quoted ∧ IsLink link ∧ IsQuoted kept quoted := by
  constructor
  · rintro ⟨gap, _, _, rfl, ⟨hgap, rfl⟩, ⟨word, _, _, rfl, hword, ⟨gap', quoted, _, rfl, ⟨hgap', rfl⟩, hquoted⟩⟩⟩
    obtain ⟨hfits, rfl⟩ := (Pattern.keeps_iff_of_captureless (by decide)).1 hword
    obtain rfl := Pattern.fits_chars hfits
    obtain ⟨hne, hblanks⟩ := fits_gap_iff.1 hgap
    obtain ⟨hne', hblanks'⟩ := fits_gap_iff.1 hgap'
    exact ⟨gap ++ ("from".toList ++ gap'), quoted, by simp only [List.append_assoc],
      ⟨gap, gap', rfl, hne, hne', hblanks, hblanks'⟩, keeps_pathPattern_iff.1 hquoted⟩
  · rintro ⟨_, quoted, rfl, ⟨gap, gap', rfl, hne, hne', hgap, hgap'⟩, hquoted⟩
    have hword : (Pattern.text "from").Keeps (gap.reverse ++ behind) "from".toList (gap' ++ quoted ++ rest) old old :=
      (Pattern.keeps_iff_of_captureless (by decide)).2 ⟨Pattern.fits_chars_self _ _ _, rfl⟩
    exact ⟨gap, "from".toList ++ (gap' ++ quoted), old, by simp only [List.append_assoc],
      ⟨fits_gap_iff.2 ⟨hne, hgap⟩, rfl⟩, "from".toList, gap' ++ quoted, old, rfl, hword,
      gap', quoted, old, rfl, ⟨fits_gap_iff.2 ⟨hne', hgap'⟩, rfl⟩, keeps_pathPattern_iff.2 hquoted⟩

theorem fits_fromPattern {link quoted path : List Char} (hlink : IsLink link)
    (hquoted : IsQuoted path quoted) (behind rest : List Char) :
    fromPattern.Fits behind (link ++ quoted) rest := by
  have hkeeps : fromPattern.Keeps behind (link ++ quoted) rest [] path :=
    keeps_fromPattern_iff.2 ⟨link, quoted, rfl, hlink, hquoted⟩
  exact hkeeps.fits

/-- A match of the pattern for imports with a clause. -/
structure ClauseMatch (gap clause link quoted part rest captured : List Char) : Prop where
  part_eq : part = "import".toList ++ (gap ++ (clause ++ (link ++ quoted)))
  gap_ne : gap ≠ []
  gap_blank : ∀ c ∈ gap, isBlank c = true
  isLink : IsLink link
  isQuoted : IsQuoted captured quoted
  /-- The path is taken from the first place that has one. -/
  first : ∀ front c back, clause = front ++ c :: back → ∀ link' quoted' path rest',
    c :: (back ++ (link ++ (quoted ++ rest))) = link' ++ (quoted' ++ rest') → IsLink link' → ¬IsQuoted path quoted'

theorem exists_clauseMatch (h : importPattern.Finds behind offset part rest captured) :
    ∃ gap clause link quoted, ClauseMatch gap clause link quoted part rest captured := by
  have hrun (spot : Spot) : importPattern.matchAt? spot = Pattern.edge.run (fun word =>
      (Pattern.text "import").run (fun blank => Pattern.gap.run
        (fun clause => (Pattern.few fun _ => true).run fromPattern.matchAt? clause) blank) word) spot := rfl
  have hmatch := h.matchAt
  rw [hrun] at hmatch
  obtain ⟨_, text, _, htext, ⟨⟨rfl, -⟩, rfl⟩, hmatch⟩ := Pattern.keeps_of_run hmatch
  obtain ⟨word, text', _, htext', hword, hmatch⟩ := Pattern.keeps_of_run hmatch
  obtain ⟨gap, text'', _, htext'', ⟨hgap, rfl⟩, hmatch⟩ := Pattern.keeps_of_run hmatch
  -- The clause takes as little as it can: what follows it is matched nowhere before.
  obtain ⟨clause, tail, htail, hmatch, hfirst⟩ := Pattern.creep_eq_some_first hmatch
  obtain ⟨found, rest', kept, hfound, hkeeps, hlast⟩ := Pattern.keeps_of_run hmatch
  obtain ⟨link, quoted, rfl, hlink, hquoted⟩ := keeps_fromPattern_iff.1 hkeeps
  obtain ⟨hfits, -⟩ := (Pattern.keeps_iff_of_captureless (by decide)).1 hword
  obtain rfl := Pattern.fits_chars hfits
  obtain ⟨hne, hblanks⟩ := fits_gap_iff.1 hgap
  have hspot := Option.some.inj hlast
  obtain rfl : rest' = rest := congrArg Spot.ahead hspot
  obtain rfl : kept = captured := congrArg Spot.captured hspot
  obtain rfl : tail = link ++ quoted ++ rest' := hfound
  obtain rfl : text'' = clause ++ (link ++ quoted ++ rest') := htail
  obtain rfl : text' = gap ++ (clause ++ (link ++ quoted ++ rest')) := htext''
  obtain rfl : text = "import".toList ++ (gap ++ (clause ++ (link ++ quoted ++ rest'))) := htext'
  have htext : part ++ rest' = "import".toList ++ (gap ++ (clause ++ (link ++ quoted ++ rest'))) := htext
  refine ⟨gap, clause, link, quoted, ?_, hne, hblanks, hlink, hquoted, ?_⟩
  · apply List.append_cancel_right
    rw [htext]
    simp only [List.append_assoc]
  · intro front c back hclause link' quoted' path other hother hlink' hquoted'
    have hnone := hfirst front c back hclause
    rw [← Option.not_isSome_iff_eq_none] at hnone
    exact hnone (Pattern.isSome_matchAt?_iff.2 ⟨link' ++ quoted', other, by simpa using hother,
      fits_fromPattern hlink' hquoted' _ _⟩)

/-- A match of the pattern for imports without a clause. -/
structure BareMatch (gap quoted part captured : List Char) : Prop where
  part_eq : part = "import".toList ++ (gap ++ quoted)
  gap_blank : ∀ c ∈ gap, isBlank c = true
  isQuoted : IsQuoted captured quoted

theorem exists_bareMatch (h : bareImportPattern.Finds behind offset part rest captured) :
    ∃ gap quoted, BareMatch gap quoted part captured := by
  obtain ⟨_, quoted, _, rfl, ⟨_, gap, _, rfl, ⟨_, word, _, rfl, ⟨⟨rfl, -⟩, rfl⟩, hword⟩, ⟨-, hgap⟩, rfl⟩, hquoted⟩ :=
    h.keeps
  obtain ⟨hfits, -⟩ := (Pattern.keeps_iff_of_captureless (by decide)).1 hword
  obtain rfl := Pattern.fits_chars hfits
  refine ⟨gap, quoted, ?_, hgap, keeps_pathPattern_iff.1 hquoted⟩
  simp only [List.nil_append, List.append_assoc]

end ComponentBuilder.Guard
