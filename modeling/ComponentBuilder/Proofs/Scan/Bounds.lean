import ComponentBuilder.Proofs.Scan.Search

/-!
# Where searches end and fail

Every search comes to an end, whatever the text.  When it finds its construct, the place it tells is inside the
text and the last character of the construct stands there.  Otherwise no front of the text from its beginning on
is such a construct, and the fault names the place of a construct that was opened there or later.
-/

namespace ComponentBuilder.Markup.Scan

open Text

/-! ## Faults -/

/-- The places that a construct keeps for its faults. -/
def Frame.places : Frame → List Nat
  | .lineComment => []
  | .elementTag _ opened _ tagOpened => [opened, tagOpened]
  | .quoted _ opened | .blockComment _ opened | .tag opened | .expression _ opened | .element _ opened
  | .parentheses _ opened => [opened]

theorem Continues.mem_places {offset place : Nat} {top next : Frame} (h : Continues offset top next)
    (hplace : place ∈ next.places) : place ∈ top.places ∨ place = offset + 1 := by
  cases h with
  | same | blockComment | expression | parentheses => exact .inl hplace
  | tagOpened | tagEnded => simp_all [Frame.places]

theorem Opens.mem_places {offset place : Nat} {frame : Frame} (h : Opens offset frame)
    (hplace : place ∈ frame.places) : offset ≤ place ∧ place ≤ offset + 1 := by
  cases h with
  | lineComment => cases hplace
  | quoted | blockComment | expression | elementTag =>
      simp only [Frame.places, List.mem_cons, List.not_mem_nil, or_false] at hplace
      omega

theorem Continues.ne_lineComment {offset : Nat} {top next : Frame} (h : Continues offset top next)
    (htop : top ≠ .lineComment) : next ≠ .lineComment := by
  cases h with
  | same => exact htop
  | blockComment | expression | parentheses | tagOpened | tagEnded => simp

/-- Constructs with places from `low` to `high`, the outermost of which is no comment on a line. -/
structure Anchored (low high : Nat) (frames : List Frame) : Prop where
  places : ∀ frame ∈ frames, ∀ place ∈ frame.places, low ≤ place ∧ place ≤ high
  bottom : frames.getLast? ≠ some .lineComment

variable {low high offset : Nat} {behind text : List Char} {fault : ParseError}

/-- A step keeps its constructs anchored, its own place included. -/
theorem Anchored.stepped {top : Frame} {frames outer : List Frame} (h : Anchored low offset (top :: outer))
    (hlow : low ≤ offset) (hframes : Stepped offset top frames) : Anchored low (offset + 1) (frames ++ outer) := by
  have hkept (frame : Frame) (hframe : frame ∈ top :: outer) (place : Nat) (hplace : place ∈ frame.places) :
      low ≤ place ∧ place ≤ offset + 1 := by
    have := h.places frame hframe place hplace
    omega
  have hlast {next : Frame} (hnext : top ≠ .lineComment → next ≠ .lineComment) :
      (next :: outer).getLast? ≠ some .lineComment := by
    cases outer with
    | nil => simpa using hnext (by simpa using h.bottom)
    | cons first outer => simpa using h.bottom
  cases hframes with
  | ended =>
      refine ⟨fun frame hframe => hkept frame (.tail _ hframe), ?_⟩
      cases outer with
      | nil => simp
      | cons first outer => simpa using h.bottom
  | @continued next hnext =>
      refine ⟨fun frame hframe place hplace => ?_, hlast hnext.ne_lineComment⟩
      rcases List.mem_cons.1 hframe with rfl | hframe
      · rcases hnext.mem_places hplace with hplace | rfl
        · exact hkept top List.mem_cons_self place hplace
        · omega
      · exact hkept frame (.tail _ hframe) place hplace
  | @opened frame hopens =>
      refine ⟨fun other hother place hplace => ?_, by simpa using hlast id⟩
      rcases List.mem_cons.1 hother with rfl | hother
      · have := hopens.mem_places hplace
        omega
      · exact hkept other hother place hplace

/-- A fault that names a place from `low` to `high`, of the family of malformed tags. -/
structure FaultWithin (low high : Nat) (fault : ParseError) : Prop where
  family : fault.family = .malformedTag
  place : ∃ place, fault.position = some place ∧ low ≤ place ∧ place ≤ high

theorem FaultWithin.mono {low' high' : Nat} (h : FaultWithin low high fault) (hlow : low' ≤ low)
    (hhigh : high ≤ high') : FaultWithin low' high' fault := by
  obtain ⟨hfamily, place, hplace, hfirst, hlast⟩ := h
  exact ⟨hfamily, place, hplace, by omega, by omega⟩

/-- A text that ends inside of anchored constructs gives a fault at one of their places. -/
theorem Anchored.faultWithin {frames : List Frame} (h : Anchored low high frames) (hne : frames ≠ []) :
    FaultWithin low high (unfinished frames) := by
  induction frames with
  | nil => exact absurd rfl hne
  | cons top outer ih =>
      have hplace {place : Nat} (hmem : place ∈ top.places) := h.places top List.mem_cons_self place hmem
      cases top with
      | lineComment =>
          have houter : outer ≠ [] := by
            rintro rfl
            exact h.bottom rfl
          refine ih ⟨fun frame hframe => h.places frame (.tail _ hframe), ?_⟩ houter
          obtain ⟨first, outer, rfl⟩ := List.exists_cons_of_ne_nil houter
          simpa using h.bottom
      | elementTag depth opened closing tagOpened =>
          exact ⟨rfl, tagOpened, rfl, hplace (by simp [Frame.places])⟩
      | quoted _ opened | blockComment _ opened | tag opened | expression _ opened | element _ opened
      | parentheses _ opened => exact ⟨rfl, opened, rfl, hplace (by simp [Frame.places])⟩

/-- A scan fails only where its text ends, with a fault at the place of a construct that is still open. -/
theorem faultWithin_of_run {frames : List Frame} (hframes : Anchored low offset frames) (hlow : low ≤ offset)
    (h : run frames behind offset text = .error fault) : FaultWithin low (offset + text.length) fault := by
  induction text generalizing frames behind offset with
  | nil =>
      cases frames with
      | nil => cases h
      | cons top outer =>
          cases h
          exact hframes.faultWithin (List.cons_ne_nil _ _)
  | cons c text ih =>
      cases frames with
      | nil => cases h
      | cons top outer =>
          rw [run] at h
          have hnext := hframes.stepped hlow (stepped top behind offset c text)
          exact (ih hnext (by omega) h).mono le_rfl (by rw [List.length_cons]; omega)

/-! ## Searches -/

theorem anchored_singleton {top : Frame} (hplaces : top.places = [low]) (hle : low ≤ high) :
    Anchored low high [top] := by
  constructor
  · intro frame hframe place hplace
    rw [List.mem_singleton.1 hframe, hplaces, List.mem_singleton] at hplace
    omega
  · cases top with
    | lineComment => cases hplaces
    | _ => simp

theorem faultWithin_of_front {top : Frame} (hplaces : top.places = [offset])
    (h : front top offset text = .error fault) : FaultWithin offset (offset + text.length) fault := by
  unfold front at h
  cases hrun : run [top] [] offset text with
  | ok cut => simp [hrun, Except.map] at h
  | error other =>
      simp only [hrun, Except.map, Except.error.injEq] at h
      exact h ▸ faultWithin_of_run (anchored_singleton hplaces le_rfl) le_rfl hrun

namespace Search

variable {search : Search}

theorem faultWithin_of_scan (h : search.scan offset text = .error fault) :
    FaultWithin offset (offset + text.length) fault := by
  cases search with
  | tag =>
      rw [scan, Scan.tag] at h
      cases hrun : run [.tag offset] [] offset text with
      | ok cut => simp [hrun, Except.map] at h
      | error other =>
          simp only [hrun, Except.map, Except.error.injEq] at h
          exact h ▸ faultWithin_of_run (anchored_singleton rfl le_rfl) le_rfl hrun
  | expression =>
      rw [scan] at h
      unfold Scan.expression at h
      split at h
      · next rest =>
          cases hrun : run [.expression 0 offset] ['\x7b'] (offset + 1) rest with
          | ok cut => simp [hrun] at h
          | error other =>
              simp only [hrun, Except.error.injEq] at h
              have hwithin := faultWithin_of_run (anchored_singleton rfl (Nat.le_succ _)) (Nat.le_succ _) hrun
              exact h ▸ hwithin.mono le_rfl (by rw [List.length_cons]; omega)
      · simp only [Except.error.injEq] at h
        exact h ▸ ⟨rfl, offset, rfl, le_rfl, Nat.le_add_right _ _⟩
  | element =>
      rw [scan, element_eq_front] at h
      exact faultWithin_of_front rfl h
  | parentheses =>
      rw [scan, parentheses_eq_front] at h
      exact faultWithin_of_front rfl h

/-- The last character of what a search finds. -/
def last : Search → Char
  | tag | element => '>'
  | expression => '\x7d'
  | parentheses => ')'

theorem Reads.getLast?_eq {found : List Char} (h : search.Reads found) : found.getLast? = some search.last := by
  cases search with
  | tag =>
      obtain ⟨content, -, rfl⟩ := h
      simp [last]
  | expression => exact IsExpression.getLast?_eq h
  | element | parentheses => exact getLast?_of_advance [] rfl h

/-- Braces and parentheses open before they close. -/
theorem Reads.two_le_length {found : List Char} (h : search.Reads found)
    (hsearch : search = expression ∨ search = parentheses) : 2 ≤ found.length := by
  have hlast := h.getLast?_eq
  cases found with
  | nil => cases hlast
  | cons c found =>
      cases found with
      | cons d found => simp
      | nil =>
          obtain rfl : c = search.last := by simpa using hlast
          rcases hsearch with rfl | rfl
          · obtain ⟨inside, hfound⟩ := IsExpression.eq_cons h
            cases hfound
          · simp [Reads, last, step, scriptOpening?, isQuote, grave] at h

/-- Where a search of a text may end: at the last character of what it seeks, or right after an element. -/
def Stops (text : String) (start place : Nat) : Search → Prop
  | tag => start ≤ place ∧ place < text.length ∧ text.toList[place]? = some '>'
  | expression => start < place ∧ place < text.length ∧ text.toList[place]? = some '\x7d'
  | element => start < place ∧ place ≤ text.length ∧ text.toList[place - 1]? = some '>'
  | parentheses => start < place ∧ place < text.length ∧ text.toList[place]? = some ')'

theorem stops_of_found {text : String} {start place : Nat} {found rest : List Char}
    (htext : text.toList.drop start = found ++ rest) (hfound : search.Reads found)
    (hplace : search.past place = start + found.length) : search.Stops text start place := by
  have hpos := List.length_pos_iff.2 hfound.ne_nil
  have hlength := congrArg List.length htext
  rw [List.length_drop, List.length_append, String.length_toList] at hlength
  have hlast : text.toList[search.past place - 1]? = some search.last := by
    obtain ⟨front, rfl⟩ := List.getLast?_eq_some_iff.1 hfound.getLast?_eq
    rw [hplace, List.length_append, List.length_singleton, ← Nat.add_assoc, Nat.add_sub_cancel,
      ← List.getElem?_drop, htext]
    simp
  cases search with
  | tag =>
      rw [past] at hplace
      exact ⟨by omega, by omega, hlast⟩
  | expression =>
      have htwo := hfound.two_le_length (.inl rfl)
      rw [past] at hplace
      exact ⟨by omega, by omega, hlast⟩
  | parentheses =>
      have htwo := hfound.two_le_length (.inr rfl)
      rw [past] at hplace
      exact ⟨by omega, by omega, hlast⟩
  | element =>
      rw [past] at hplace
      exact ⟨by omega, by omega, hlast⟩

end Search

end ComponentBuilder.Markup.Scan
