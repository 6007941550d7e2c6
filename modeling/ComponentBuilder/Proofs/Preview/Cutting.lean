import ComponentBuilder.Preview.Document
import Mathlib.Data.List.MinMax
import Mathlib.Data.List.Lemmas

/-!
# Cutting templates

Filling a template replaces its markers and nothing else.  A cut names the pieces of a template: from left to
right the longest marker that begins at a point, or the one character there.  The filled template holds the
values of the markers and the characters in the order of the pieces, whatever the values hold themselves.
-/

namespace ComponentBuilder.Preview

/-! ## Pieces -/

/-- A piece of a template. -/
inductive Piece where
  | character (c : Char)
  | marker (name : String)
deriving DecidableEq, Repr

namespace Piece

def name? : Piece → Option String
  | character _ => none
  | marker name => some name

/-- What stands in the template. -/
def source : Piece → List Char
  | character c => [c]
  | marker name => name.toList

/-- What stands in the filled template. -/
def value (markers : Markers) : Piece → List Char
  | character c => [c]
  | marker name => ((markers.lookup name).getD "").toList

end Piece

/-- The template of some pieces. -/
def written (pieces : List Piece) : List Char :=
  pieces.flatMap Piece.source

/-- The filled template of some pieces. -/
def filled (markers : Markers) (pieces : List Piece) : List Char :=
  pieces.flatMap (Piece.value markers)

/-- The names of markers. -/
abbrev Markers.names (markers : Markers) : List String :=
  markers.map Prod.fst

/-- A template cut from left to right, with the longest marker wherever one begins. -/
inductive IsCut (names : List String) : List Piece → Prop where
  | nil : IsCut names []
  | character {c : Char} {rest : List Piece} (hnone : ∀ name ∈ names, ¬name.toList <+: c :: written rest)
      (hrest : IsCut names rest) : IsCut names (.character c :: rest)
  | marker {name : String} {rest : List Piece} (hname : name ∈ names)
      (hlongest : ∀ other ∈ names, other.toList <+: name.toList ++ written rest → other.length ≤ name.length)
      (hrest : IsCut names rest) : IsCut names (.marker name :: rest)

/-! ## The marker at a point -/

section Point

variable {markers : Markers} {text : List Char}

theorem mem_longestFirst {marker : String × String} : marker ∈ longestFirst markers ↔ marker ∈ markers :=
  (List.mergeSort_perm markers _).mem_iff

theorem pairwise_longestFirst (markers : Markers) :
    (longestFirst markers).Pairwise fun a b => b.1.length ≤ a.1.length := by
  have hsorted := @List.pairwise_mergeSort _ (fun a b : String × String => decide (b.1.length ≤ a.1.length))
    (fun a b c hab hbc => by simp only [decide_eq_true_eq] at *; omega)
    (fun a b => by simp only [Bool.or_eq_true, decide_eq_true_eq]; omega) markers
  exact hsorted.imp fun h => by simpa using h

theorem markerAt?_eq_none (h : ∀ name ∈ markers.names, ¬name.toList <+: text) :
    markerAt? (longestFirst markers) text = none := by
  unfold markerAt?
  rw [List.find?_eq_none]
  intro marker hmarker hstart
  exact h marker.1 (List.mem_map_of_mem (mem_longestFirst.1 hmarker)) (List.isPrefixOf_iff_prefix.1 hstart)

/-- Where a marker begins, the longest is taken. -/
theorem markerAt?_eq_some (hdistinct : markers.names.Nodup) {name : String} (hname : name ∈ markers.names)
    (hstart : name.toList <+: text)
    (hlongest : ∀ other ∈ markers.names, other.toList <+: text → other.length ≤ name.length) :
    markerAt? (longestFirst markers) text = some (name, (markers.lookup name).getD "") := by
  obtain ⟨⟨key, value⟩, hmem, hkey⟩ := List.mem_map.1 hname
  change key = name at hkey
  rw [hkey] at hmem
  rw [lookup_of_mem hdistinct hmem, Option.getD_some]
  cases hfound : markerAt? (longestFirst markers) text with
  | none =>
      have hnot := List.find?_eq_none.1 hfound _ (mem_longestFirst.2 hmem)
      exact absurd (List.isPrefixOf_iff_prefix.2 hstart) hnot
  | some found =>
      obtain ⟨hbegins, front, rest, hsplit, hfront⟩ := List.find?_eq_some_iff_append.1 hfound
      have hplace := mem_longestFirst.2 hmem
      rw [hsplit, List.mem_append, List.mem_cons] at hplace
      rcases hplace with hbefore | rfl | hafter
      · have hnot := hfront _ hbefore
        rw [List.isPrefixOf_iff_prefix.2 hstart] at hnot
        cases hnot
      · rfl
      · -- A marker that was found before the longest one is as long, and so it is the same.
        have hsorted := pairwise_longestFirst markers
        rw [hsplit] at hsorted
        have hlonger : name.length ≤ found.1.length :=
          (List.pairwise_cons.1 (List.pairwise_append.1 hsorted).2.1).1 _ hafter
        have hmember : found ∈ markers :=
          mem_longestFirst.1 (hsplit ▸ List.mem_append_right front List.mem_cons_self)
        have hbegins := List.isPrefixOf_iff_prefix.1 hbegins
        have hshorter := hlongest found.1 (List.mem_map_of_mem hmember) hbegins
        have hsame : found.1 = name := by
          apply String.toList_inj.1
          apply (List.prefix_of_prefix_length_le hbegins hstart ?_).eq_of_length
          · simp only [String.length_toList]
            omega
          · simp only [String.length_toList]
            omega
        have hvalue := lookup_of_mem hdistinct hmember
        rw [hsame, lookup_of_mem hdistinct hmem] at hvalue
        exact congrArg some (Prod.ext hsame (Option.some.inj hvalue).symm)

end Point

/-! ## Filling -/

section Filling

variable {markers : Markers} {pieces : List Piece}

@[simp]
theorem written_cons (piece : Piece) (rest : List Piece) : written (piece :: rest) = piece.source ++ written rest :=
  rfl

@[simp]
theorem filled_cons (piece : Piece) (rest : List Piece) :
    filled markers (piece :: rest) = piece.value markers ++ filled markers rest :=
  rfl

theorem filled_append (front rest : List Piece) :
    filled markers (front ++ rest) = filled markers front ++ filled markers rest :=
  List.flatMap_append

theorem fillFrom_skip (seen front rest : List Char) :
    fillFrom markers front.length seen (front ++ rest) = fillFrom markers 0 seen rest := by
  induction front with
  | nil => rfl
  | cons c front ih =>
      rw [List.length_cons, List.cons_append, fillFrom]
      exact ih

theorem fillFrom_written (hdistinct : markers.names.Nodup) (hnonempty : ∀ name ∈ markers.names, name ≠ "")
    (hcut : IsCut markers.names pieces) (seen : List Char) :
    fillFrom (longestFirst markers) 0 seen (written pieces) = seen.reverse ++ filled markers pieces := by
  induction hcut generalizing seen with
  | nil =>
      have hnone : markerAt? (longestFirst markers) [] = none := by
        apply markerAt?_eq_none
        intro name hname hstart
        exact hnonempty name hname (String.toList_eq_nil_iff.1 (List.prefix_nil.1 hstart))
      simp [written, filled, fillFrom, hnone]
  | @character c rest hnone hrest ih =>
      have hstep : fillFrom (longestFirst markers) 0 seen (c :: written rest) =
          fillFrom (longestFirst markers) 0 (c :: seen) (written rest) := by
        simp only [fillFrom, markerAt?_eq_none hnone]
      rw [written_cons, Piece.source, List.singleton_append, hstep, ih]
      simp [Piece.value]
  | @marker name rest hname hlongest hrest ih =>
      have hfound := markerAt?_eq_some hdistinct hname (List.prefix_append name.toList (written rest)) hlongest
      cases hchars : name.toList with
      | nil => exact absurd (String.toList_eq_nil_iff.1 hchars) (hnonempty name hname)
      | cons c tail =>
          have hlength : name.length = tail.length + 1 := by
            rw [← String.length_toList, hchars, List.length_cons]
          rw [hchars, List.cons_append] at hfound
          rw [written_cons, Piece.source, hchars, List.cons_append, fillFrom, hfound]
          simp only [hlength, fillFrom_skip, ih]
          simp [Piece.value]

/-- A filled template consists of the characters and the values of its cut. -/
theorem fill_of_isCut {names : List String} (hnames : markers.names = names) (hdistinct : names.Nodup)
    (hnonempty : ∀ name ∈ names, name ≠ "") (hcut : IsCut names pieces) {template : String}
    (htemplate : template.toList = written pieces) : (fill template markers).toList = filled markers pieces := by
  subst hnames
  rw [fill, htemplate, fillFrom_written hdistinct hnonempty hcut, String.toList_ofList]
  rfl

/-- Markers that a template does not have make no difference. -/
theorem filled_of_not_mem {more : Markers} (h : ∀ name ∈ more.names, Piece.marker name ∉ pieces) :
    filled (markers ++ more) pieces = filled markers pieces := by
  apply List.flatMap_congr
  intro piece hpiece
  cases piece with
  | character c => rfl
  | marker name =>
      have hmore : more.lookup name = none := by
        rw [List.lookup_eq_none_iff]
        intro marker hmarker
        simp only [bne_iff_ne, ne_eq]
        rintro rfl
        exact h _ (List.mem_map_of_mem hmarker) hpiece
      simp only [Piece.value, List.lookup_append, hmore, Option.or_none]

/-- The pieces of a text without markers. -/
def plain (text : String) : List Piece :=
  text.toList.map .character

theorem filled_plain (text : String) : filled markers (plain text) = text.toList := by
  rw [filled, plain, List.flatMap_map]
  exact List.flatMap_singleton' text.toList

/-- A marker that stands once stands nowhere around its place. -/
theorem not_mem_around {front middle rest : List Piece}
    (hdistinct : ((front ++ middle ++ rest).filterMap Piece.name?).Nodup) {name : String}
    (hname : .marker name ∈ middle) : .marker name ∉ front ∧ .marker name ∉ rest := by
  have hmem {pieces : List Piece} (h : .marker name ∈ pieces) : name ∈ pieces.filterMap Piece.name? :=
    List.mem_filterMap.2 ⟨_, h, rfl⟩
  rw [List.filterMap_append, List.filterMap_append, List.append_assoc] at hdistinct
  obtain ⟨-, hlater, hfront⟩ := List.nodup_append.1 hdistinct
  obtain ⟨-, -, hrest⟩ := List.nodup_append.1 hlater
  exact ⟨fun h => hfront _ (hmem h) _ (List.mem_append_left _ (hmem hname)) rfl,
    fun h => hrest _ (hmem hname) _ (hmem h) rfl⟩

end Filling

/-! ## Every template has a cut -/

section Cut

/-- The longest of some names that a text begins with. -/
def nameAt? (names : List String) (text : List Char) : Option String :=
  (names.filter fun name => name.toList.isPrefixOf text).argmax String.length

/-- Cut a template; the first `skip` characters belong to the last marker. -/
def cut (names : List String) : Nat → List Char → List Piece
  | _, [] => []
  | skip + 1, _ :: rest => cut names skip rest
  | 0, c :: rest =>
      match nameAt? names (c :: rest) with
      | none => .character c :: cut names 0 rest
      | some name => .marker name :: cut names (name.length - 1) rest

variable {names : List String} {text : List Char}

theorem not_prefix_of_nameAt? (h : nameAt? names text = none) : ∀ name ∈ names, ¬name.toList <+: text := by
  intro name hname hstart
  have hempty := List.argmax_eq_none.1 h
  have hmem : name ∈ names.filter fun name => name.toList.isPrefixOf text :=
    List.mem_filter.2 ⟨hname, List.isPrefixOf_iff_prefix.2 hstart⟩
  rw [hempty] at hmem
  cases hmem

theorem prefix_of_nameAt? {name : String} (h : nameAt? names text = some name) :
    name ∈ names ∧ name.toList <+: text ∧
      ∀ other ∈ names, other.toList <+: text → other.length ≤ name.length := by
  obtain ⟨hname, hstart⟩ := List.mem_filter.1 (List.argmax_mem h)
  refine ⟨hname, List.isPrefixOf_iff_prefix.1 hstart, fun other hother hbegins => ?_⟩
  exact List.le_of_mem_argmax (List.mem_filter.2 ⟨hother, List.isPrefixOf_iff_prefix.2 hbegins⟩) h

theorem cut_spec (hnonempty : ∀ name ∈ names, name ≠ "") (skip : Nat) (text : List Char) :
    written (cut names skip text) = text.drop skip ∧ IsCut names (cut names skip text) := by
  induction text generalizing skip with
  | nil => exact ⟨by simp [cut, written], .nil⟩
  | cons c rest ih =>
      cases skip with
      | succ skip => exact ih skip
      | zero =>
          cases hname : nameAt? names (c :: rest) with
          | none =>
              obtain ⟨hwritten, hcut⟩ := ih 0
              rw [List.drop_zero] at hwritten
              simp only [cut, hname]
              refine ⟨by simp [hwritten, Piece.source], .character ?_ hcut⟩
              rw [hwritten]
              exact not_prefix_of_nameAt? hname
          | some name =>
              obtain ⟨hwritten, hcut⟩ := ih (name.length - 1)
              obtain ⟨hmem, hstart, hlongest⟩ := prefix_of_nameAt? hname
              have hlength : name.length = name.length - 1 + 1 := by
                have hpositive : name.length ≠ 0 := fun h => hnonempty name hmem (String.length_eq_zero_iff.1 h)
                omega
              have hsplit : name.toList ++ written (cut names (name.length - 1) rest) = c :: rest := by
                have htail := List.prefix_iff_eq_append.1 hstart
                rw [String.length_toList, hlength, List.drop_succ_cons] at htail
                rw [hwritten]
                exact htail
              simp only [cut, hname]
              refine ⟨hsplit, .marker hmem ?_ hcut⟩
              rw [hsplit]
              exact hlongest

theorem written_cut (hnonempty : ∀ name ∈ names, name ≠ "") (text : List Char) :
    written (cut names 0 text) = text :=
  (cut_spec hnonempty 0 text).1

theorem isCut_cut (hnonempty : ∀ name ∈ names, name ≠ "") (text : List Char) : IsCut names (cut names 0 text) :=
  (cut_spec hnonempty 0 text).2

/-- A cut that looks for names only where a text has the character they begin with. -/
def cutMarked (mark : Char) (names : List String) : Nat → List Char → List Piece
  | _, [] => []
  | skip + 1, _ :: rest => cutMarked mark names skip rest
  | 0, c :: rest =>
      if c = mark then
        match nameAt? names (c :: rest) with
        | none => .character c :: cutMarked mark names 0 rest
        | some name => .marker name :: cutMarked mark names (name.length - 1) rest
      else .character c :: cutMarked mark names 0 rest

theorem cut_eq_cutMarked {mark : Char} (h : ∀ name ∈ names, name.toList.head? = some mark) (skip : Nat)
    (text : List Char) : cut names skip text = cutMarked mark names skip text := by
  induction text generalizing skip with
  | nil => cases skip <;> rfl
  | cons c rest ih =>
      cases skip with
      | succ skip => exact ih skip
      | zero =>
          by_cases hc : c = mark
          · rw [cut, cutMarked, if_pos hc, ih]
            cases nameAt? names (c :: rest) with
            | none => rfl
            | some name => exact congrArg _ (ih _)
          · have hnone : nameAt? names (c :: rest) = none := by
              rw [nameAt?, List.argmax_eq_none, List.filter_eq_nil_iff]
              intro name hname hstart
              obtain ⟨more, hmore⟩ := List.isPrefixOf_iff_prefix.1 hstart
              have hhead := congrArg List.head? hmore
              rw [List.head?_append, h name hname] at hhead
              exact hc (Option.some.inj hhead).symm
            simp only [cut, cutMarked, if_neg hc, hnone, ih]

end Cut

end ComponentBuilder.Preview
