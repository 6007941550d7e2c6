import ComponentBuilder.Guard.Validator
import ComponentBuilder.Proofs.Guard.Handlers
import ComponentBuilder.Proofs.Scan.Bounds

/-!
# The second walk over a tag

The rule on handlers scans each opening tag twice: once for its end, and once more from place to place of the
whole source to blank out its expressions.  The second walk looks for quotes and for the ends of expressions
without a guard of its own, so a quote that is not there or an expression that does not end would be a failure
of the whole check.  The walk takes the pieces of the tag as the first scan has found them, one piece at a turn;
so it finds all that it looks for and stops at the end of the tag.
-/

namespace ComponentBuilder.Guard

open Text Markup Scan

/-! ## Walking -/

/-- Why a walk fails. -/
inductive WalkFault where
  /-- The text is over before the place. -/
  | textOver (place : Nat)
  /-- No quote like the one at the place comes after it. -/
  | quoteNotFound (quote : Char) (place : Nat)
  /-- The expression at a brace does not end. -/
  | expression (fault : ParseError)

/-- How far a walk has come: the parts before expressions, the beginning of the current part, and the place. -/
structure Walk where
  parts : List (List Char)
  segment : Nat
  place : Nat

namespace Walk

def start (place : Nat) : Walk :=
  ⟨[], place, place⟩

/-- The text from one place of a source to another. -/
def between (source : String) (first last : Nat) : List Char :=
  (source.toList.take last).drop first

/-- The first place from `start` on at which a character stands. -/
def placeOf? (source : String) (c : Char) (start : Nat) : Option Nat :=
  ((source.toList.drop start).findIdx? (· == c)).map (start + ·)

/-- One turn of a walk: over a string, over an expression, or over any other character. -/
def step (source : String) (walk : Walk) : Except WalkFault Walk :=
  match source.toList[walk.place]? with
  | none => .error (.textOver walk.place)
  | some c =>
      if isTagQuote c then
        match placeOf? source c (walk.place + 1) with
        | none => .error (.quoteNotFound c walk.place)
        | some close => .ok { walk with place := close + 1 }
      else if c == '\x7b' then
        match findExpressionEnd source walk.place with
        | .error fault => .error (.expression fault)
        | .ok last => .ok ⟨walk.parts ++ [between source walk.segment walk.place], last + 1, last + 1⟩
      else .ok { walk with place := walk.place + 1 }

theorem lt_of_placeOf? {source : String} {c : Char} {start place : Nat}
    (h : placeOf? source c start = some place) : start ≤ place := by
  obtain ⟨index, -, rfl⟩ := Option.map_eq_some_iff.1 h
  exact Nat.le_add_right start index

theorem place_lt_of_step {source : String} {walk next : Walk} (h : walk.step source = .ok next) :
    walk.place < next.place := by
  unfold step at h
  split at h
  · cases h
  · next c _ =>
      split_ifs at h
      · cases hclose : placeOf? source c (walk.place + 1) with
        | none => simp [hclose] at h
        | some close =>
            have := lt_of_placeOf? hclose
            simp only [hclose, Except.ok.injEq] at h
            subst h
            show walk.place < close + 1
            omega
      · cases hlast : findExpressionEnd source walk.place with
        | error fault => simp [hlast] at h
        | ok last =>
            have hsearch : Search.expression.find source walk.place = .ok last := hlast
            obtain ⟨found, rest, htext, hfound, hplace⟩ := Search.find_eq_ok_iff.1 hsearch
            have hstops := Search.stops_of_found htext hfound hplace
            simp only [hlast, Except.ok.injEq] at h
            subst h
            show walk.place < last + 1
            exact Nat.lt_succ_of_lt hstops.1
      · simp only [Except.ok.injEq] at h
        subst h
        exact Nat.lt_succ_self walk.place

/-- Walk on until the place `last` is reached or passed. -/
def reach (source : String) (last : Nat) (walk : Walk) : Except WalkFault Walk :=
  if walk.place < last then
    match _hstep : walk.step source with
    | .error fault => .error fault
    | .ok next => next.reach source last
  else .ok walk
termination_by last - walk.place
decreasing_by
  have := place_lt_of_step _hstep
  omega

/-- The text that was walked over, up to a place, with a blank for each expression. -/
def text (source : String) (walk : Walk) (last : Nat) : List Char :=
  [' '].intercalate (walk.parts ++ [between source walk.segment last])

/-! ## The turns of a walk -/

variable {source : String} {walk : Walk} {seen rest : List Char}

theorem between_self (source : String) (place : Nat) : between source place place = [] :=
  List.drop_eq_nil_iff.2 (List.length_take_le _ _)

theorem between_append {part : List Char} {first : Nat} (hsource : source.toList = seen ++ (part ++ rest))
    (hfirst : first ≤ seen.length) :
    between source first (seen.length + part.length) = between source first seen.length ++ part := by
  have htake : source.toList.take (seen.length + part.length) = seen ++ part := by
    rw [hsource, ← List.append_assoc, ← List.length_append, List.take_left']
    rfl
  have hseen : source.toList.take seen.length = seen := by
    rw [hsource, List.take_left']
    rfl
  rw [between, between, htake, hseen, List.drop_append_of_le_length hfirst]

theorem intercalate_concat (parts : List (List Char)) (part : List Char) :
    [' '].intercalate (parts ++ [part]) = parts.flatMap (· ++ [' ']) ++ part := by
  rw [intercalate_append_cons, List.flatMap_nil, List.append_nil]

/-- A walk that stands after the text `seen`, with its current part before it. -/
structure Stands (walk : Walk) (seen : List Char) : Prop where
  place : walk.place = seen.length
  segment : walk.segment ≤ seen.length

/-- A turn of a walk over a part of the source, and what it adds to the text with expressions blanked out. -/
structure Passes (source : String) (walk : Walk) (seen part blanked : List Char) (next : Walk) : Prop where
  step : walk.step source = .ok next
  stands : next.Stands (seen ++ part)
  text : next.text source next.place = walk.text source walk.place ++ blanked

theorem passes_of_step {part : List Char} (hwalk : walk.Stands seen)
    (hsource : source.toList = seen ++ (part ++ rest))
    (h : walk.step source = .ok { walk with place := seen.length + part.length }) :
    Passes source walk seen part part { walk with place := seen.length + part.length } := by
  refine ⟨h, ⟨List.length_append.symm, ?_⟩, ?_⟩
  · rw [List.length_append]
    exact Nat.le_add_right_of_le hwalk.segment
  · rw [text, between_append hsource hwalk.segment, intercalate_concat, text, intercalate_concat, hwalk.place,
      List.append_assoc]

theorem getElem?_place {c : Char} (hwalk : walk.Stands seen) (hsource : source.toList = seen ++ c :: rest) :
    source.toList[walk.place]? = some c := by
  rw [hsource, hwalk.place]
  simp

theorem passes_plain {c : Char} (hwalk : walk.Stands seen) (hsource : source.toList = seen ++ c :: rest)
    (hquote : isTagQuote c = false) (hbrace : c ≠ '\x7b') :
    Passes source walk seen [c] [c] { walk with place := seen.length + 1 } := by
  have hpart : source.toList = seen ++ ([c] ++ rest) := hsource
  refine passes_of_step hwalk hpart ?_
  rw [step, getElem?_place hwalk hsource]
  simp [hquote, hbrace, hwalk.place]

theorem passes_quoted {quote : Char} {value : List Char} (hwalk : walk.Stands seen)
    (hsource : source.toList = seen ++ (quote :: (value ++ quote :: rest))) (hquote : isTagQuote quote = true)
    (hvalue : quote ∉ value) :
    Passes source walk seen (quote :: (value ++ [quote])) (quote :: (value ++ [quote]))
      { walk with place := seen.length + (quote :: (value ++ [quote])).length } := by
  have hdrop : source.toList.drop (seen.length + 1) = value ++ quote :: rest := by
    rw [hsource, ← List.drop_drop, List.drop_left']
    · rfl
    · rfl
  have hnone : value.findIdx? (· == quote) = none := by
    rw [List.findIdx?_eq_none_iff]
    intro c hc
    simpa using fun heq : c = quote => hvalue (heq ▸ hc)
  have hplace : placeOf? source quote (walk.place + 1) = some (seen.length + 1 + value.length) := by
    rw [placeOf?, hwalk.place, hdrop, List.findIdx?_append, hnone]
    simp [List.findIdx?_cons]
  have hpart : source.toList = seen ++ (quote :: (value ++ [quote]) ++ rest) := by
    rw [hsource]
    simp
  refine passes_of_step hwalk hpart ?_
  rw [step, getElem?_place hwalk hsource]
  simp only [hquote, if_true, hplace, List.length_cons, List.length_append, List.length_nil]
  congr 2
  omega

theorem passes_braced {found : List Char} (hwalk : walk.Stands seen)
    (hsource : source.toList = seen ++ (found ++ rest)) (hfound : IsExpression found) :
    Passes source walk seen found [' '] ⟨walk.parts ++ [between source walk.segment walk.place],
      seen.length + found.length, seen.length + found.length⟩ := by
  obtain ⟨inside, rfl⟩ := hfound.eq_cons
  have hsearch : Search.expression.find source walk.place = .ok (seen.length + inside.length) := by
    apply Search.find_eq_ok_iff.2
    refine ⟨_, rest, ?_, hfound, ?_⟩
    · rw [hsource, hwalk.place, List.drop_left']
      rfl
    · rw [Search.past, hwalk.place, List.length_cons]
      rfl
  have hend : findExpressionEnd source walk.place = .ok (seen.length + inside.length) := hsearch
  refine ⟨?_, ⟨by simp, by simp⟩, ?_⟩
  · rw [step, getElem?_place hwalk (by simpa using hsource)]
    simp only [hend]
    rfl
  · rw [text, between_self, intercalate_concat, List.append_nil, List.flatMap_append, text, intercalate_concat]
    simp

/-! ## Whole walks -/

theorem reach_of_step {last : Nat} {next : Walk} (hlast : walk.place < last) (h : walk.step source = .ok next) :
    walk.reach source last = next.reach source last := by
  rw [reach, if_pos hlast]
  split
  · next fault hfault =>
      rw [h] at hfault
      cases hfault
  · next other hother =>
      rw [h] at hother
      cases hother
      rfl

theorem Passes.reach {part out : List Char} {next done : Walk} {last : Nat}
    (h : Passes source walk seen part out next) (hwalk : walk.Stands seen) (hpart : part ≠ [])
    (hlast : (seen ++ part).length ≤ last) (hdone : next.reach source last = .ok done) :
    walk.reach source last = .ok done := by
  have hpos := List.length_pos_iff.2 hpart
  rw [List.length_append] at hlast
  rw [reach_of_step _ h.step, hdone]
  rw [hwalk.place]
  omega

/-- A walk over the inside of a tag gets to its end and no further, and has blanked out its expressions. -/
theorem exists_reach_of_blanks {content blanked : List Char} (h : Blanks content blanked) {last : Nat}
    (hwalk : walk.Stands seen) (hsource : source.toList = seen ++ (content ++ rest))
    (hlast : (seen ++ content).length = last) :
    ∃ done, walk.reach source last = .ok done ∧ done.place = last ∧
      done.text source last = walk.text source walk.place ++ blanked := by
  -- One turn of the walk for each piece of the tag; each time the walk stands after what it has passed.
  induction h generalizing walk seen with
  | nil =>
      rw [List.append_nil, ← hwalk.place] at hlast
      refine ⟨walk, ?_, hlast, by rw [hlast, List.append_nil]⟩
      rw [reach, if_neg (by omega)]
  | @plain c content blanked hquote hbrace _ ih =>
      have hpasses := passes_plain hwalk hsource hquote hbrace
      obtain ⟨done, hdone, hplace, htext⟩ := ih hpasses.stands (by simp [hsource]) (by simp [← hlast])
      refine ⟨done, hpasses.reach hwalk (by simp) (by simp [← hlast]) hdone, hplace, ?_⟩
      rw [htext, hpasses.text, List.append_assoc, List.singleton_append]
  | @quoted quote value content blanked hquote hvalue _ ih =>
      have hpart : source.toList = seen ++ (quote :: (value ++ quote :: (content ++ rest))) := by
        rw [hsource]
        simp
      have hpasses := passes_quoted hwalk hpart hquote hvalue
      obtain ⟨done, hdone, hplace, htext⟩ := ih hpasses.stands (by simp [hsource]) (by simp [← hlast])
      refine ⟨done, hpasses.reach hwalk (by simp) (by simp [← hlast]) hdone, hplace, ?_⟩
      rw [htext, hpasses.text]
      simp
  | @braced found content blanked hfound _ ih =>
      have hpart : source.toList = seen ++ (found ++ (content ++ rest)) := by
        rw [hsource, List.append_assoc]
      have hpasses := passes_braced hwalk hpart hfound
      have hreads : Search.expression.Reads found := hfound
      obtain ⟨done, hdone, hplace, htext⟩ := ih hpasses.stands (by simp [hsource]) (by simp [← hlast])
      refine ⟨done, hpasses.reach hwalk hreads.ne_nil (by simp [← hlast]) hdone, hplace, ?_⟩
      rw [htext, hpasses.text, List.append_assoc, List.singleton_append]

theorem text_start (source : String) (place : Nat) : (start place).text source place = [] := by
  simp [text, start, between_self]

theorem exists_blanks_of_tagInside {content : List Char} (h : TagInside content) : ∃ blanked, Blanks content blanked := by
  induction h with
  | nil => exact ⟨[], .nil⟩
  | @plain c rest hquote hbrace _ _ ih =>
      obtain ⟨blanked, hblanked⟩ := ih
      exact ⟨c :: blanked, .plain hquote hbrace hblanked⟩
  | quoted hquote hvalue _ ih =>
      obtain ⟨blanked, hblanked⟩ := ih
      exact ⟨_, .quoted hquote hvalue hblanked⟩
  | braced hsource _ ih =>
      obtain ⟨blanked, hblanked⟩ := ih
      exact ⟨' ' :: blanked, .braced hsource hblanked⟩

/-- The walk over a tag that ends stops at its end, and reads its attribute text. -/
theorem exists_reach_of_tagEnd {start last : Nat} (h : findTagEnd source start = .ok last) :
    ∃ done, (Walk.start start).reach source last = .ok done ∧ done.place = last ∧
      attributeText? (source.toList.drop start) = some (done.text source last) := by
  have hsearch : Search.tag.find source start = .ok last := h
  obtain ⟨found, rest, htext, ⟨content, hcontent, rfl⟩, hplace⟩ := Search.find_eq_ok_iff.1 hsearch
  obtain ⟨blanked, hblanked⟩ := exists_blanks_of_tagInside hcontent
  have hstart : start ≤ source.toList.length := by
    by_contra hover
    rw [List.drop_eq_nil_of_le (by omega)] at htext
    simp at htext
  have hseen : (source.toList.take start).length = start := by
    rw [List.length_take]
    omega
  have hstands : (Walk.start start).Stands (source.toList.take start) := ⟨hseen.symm, hseen.ge⟩
  have hsource : source.toList = source.toList.take start ++ (content ++ '>' :: rest) := by
    conv_lhs => rw [← List.take_append_drop start source.toList, htext]
    simp
  have hlast : (source.toList.take start ++ content).length = last := by
    simp only [Search.past, List.length_append, List.length_singleton] at hplace
    rw [List.length_append, hseen]
    omega
  obtain ⟨done, hdone, hend, hread⟩ := exists_reach_of_blanks hblanked hstands hsource hlast
  refine ⟨done, hdone, hend, ?_⟩
  have hscan : Scan.tag 0 (source.toList.drop start) = .ok (content, rest) :=
    tag_eq_ok_iff.2 ⟨hcontent, by simp [htext]⟩
  rw [attributeText?, hscan]
  show blankExpressions? content = _
  rw [blankExpressions?_of_blanks hblanked, hread]
  show some blanked = some ((Walk.start start).text source start ++ blanked)
  rw [text_start, List.nil_append]

end Walk

/-! ## The report of a walking guard -/

/-- The attribute text of the tag whose name ends at a place, walked over when the tag ends. -/
def walkedText? (source : String) (start : Nat) : Except WalkFault (Option (List Char)) :=
  match findTagEnd source start with
  | .error _ => .ok none
  | .ok last => do
      let walk ← (Walk.start start).reach source last
      return some (walk.text source last)

/-- The places after the name of each opening tag, in order. -/
def nameEnds (source : String) : List Nat :=
  (afterTagNames source.toList).map fun rest => source.toList.length - rest.length

/-- The attribute text of every opening tag that ends, as the walks read it. -/
def walkedTexts (source : String) : Except WalkFault (List (List Char)) := do
  let texts ← (nameEnds source).mapM (walkedText? source)
  return texts.filterMap id

/-- What a rule finds in a source, when the rule on handlers walks. -/
def Rule.walk (rule : Rule) (source : String) : Except WalkFault (List Violation) :=
  match rule with
  | inlineHandler => do
      let texts ← walkedTexts source
      let names := distinct (texts.flatMap fun text => (handlerPattern.captures text).map String.ofList)
      return names.map .handlerString
  | rule => .ok (rule.check source.toList)

/-- The report of a check against every rule that applies, each of them walking. -/
def walkReport (strictness : Strictness) (source : String) : Except WalkFault Report := do
  let findings ← strictness.rules.mapM fun rule => do
    let violations ← rule.walk source
    return (rule, violations)
  return ⟨findings.filter (!·.2.isEmpty)⟩

theorem suffix_of_mem_afterTagNames {text rest : List Char} (h : rest ∈ afterTagNames text) : rest <:+ text := by
  induction text with
  | nil => cases h
  | cons c text ih =>
      rw [afterTagNames] at h
      split_ifs at h
      · rcases List.mem_cons.1 h with rfl | h
        · exact (List.dropWhile_suffix _).trans (List.suffix_cons c text)
        · exact (ih h).trans (List.suffix_cons c text)
      · exact (ih h).trans (List.suffix_cons c text)

theorem map_drop_nameEnds (source : String) :
    (nameEnds source).map source.toList.drop = afterTagNames source.toList := by
  rw [nameEnds, List.map_map]
  conv_rhs => rw [← List.map_id (afterTagNames source.toList)]
  apply List.map_congr_left
  intro rest hrest
  exact (List.suffix_iff_eq_drop.1 (suffix_of_mem_afterTagNames hrest)).symm

/-- A walk reads the attribute text of its tag, whatever the source is. -/
theorem walkedText?_eq (source : String) (start : Nat) :
    walkedText? source start = .ok (attributeText? (source.toList.drop start)) := by
  cases hend : findTagEnd source start with
  | ok last =>
      obtain ⟨done, hdone, -, htext⟩ := Walk.exists_reach_of_tagEnd hend
      rw [walkedText?, hend, htext]
      simp only [hdone]
      rfl
  | error fault =>
      cases hscan : Scan.tag 0 (source.toList.drop start) with
      | error other => rw [walkedText?, hend, attributeText?, hscan]
      | ok found =>
          -- Where a tag ends does not depend on the place it stands at, so it would have ended there too.
          have hplace : Scan.tag start (source.toList.drop start) = .ok found :=
            tag_eq_ok_iff.2 (tag_eq_ok_iff.1 hscan)
          rw [findTagEnd, hplace] at hend
          cases hend

theorem walkedTexts_eq (source : String) : walkedTexts source = .ok (tagAttributeTexts source.toList) := by
  have hread : walkedText? source = fun start => pure (attributeText? (source.toList.drop start)) := by
    funext start
    exact walkedText?_eq source start
  rw [walkedTexts, hread, List.mapM_pure, tagAttributeTexts, ← map_drop_nameEnds]
  show Except.ok (List.filterMap id _) = _
  rw [List.filterMap_map, List.filterMap_map]
  rfl

theorem Rule.walk_eq (rule : Rule) (source : String) : rule.walk source = .ok (rule.check source.toList) := by
  cases rule with
  | inlineHandler =>
      rw [Rule.walk, walkedTexts_eq]
      rfl
  | dangerousSink | scriptTag | inlineStyle | componentWhitelist | importWhitelist => rfl

end ComponentBuilder.Guard
