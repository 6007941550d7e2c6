import ComponentBuilder.Markup.Scan
import Mathlib.Tactic

/-!
# Advancing over a part of a text

`Scan.run` goes on until its stack is empty.  `advance` reads a given part of the text and tells the
stack it leaves, so that reading a concatenation is reading one part after the other.  What a stack
does to the part depends on the constructs alone: their places, the text after the part and the text
behind a wall do not matter.  A successful scan is therefore the same wherever its text stands.
-/

namespace ComponentBuilder.Markup.Scan

open Text

/--
The stack left by reading `part`, before the text `ahead`; none when the stack is empty too early.
-/
def advance : List Frame → List Char → Nat → List Char → List Char → Option (List Frame)
  | frames, _, _, [], _ => some frames
  | [], _, _, _ :: _, _ => none
  | top :: outer, behind, offset, c :: part, ahead =>
      advance (step top behind offset c (part ++ ahead) ++ outer) (c :: behind) (offset + 1) part ahead

/-! ## Composition -/

@[simp] theorem advance_nil (frames : List Frame) (behind : List Char) (offset : Nat)
    (ahead : List Char) : advance frames behind offset [] ahead = some frames := by
  cases frames <;> rfl

@[simp] theorem advance_cons (top : Frame) (outer : List Frame) (behind : List Char) (offset : Nat)
    (c : Char) (part ahead : List Char) :
    advance (top :: outer) behind offset (c :: part) ahead =
      advance (step top behind offset c (part ++ ahead) ++ outer) (c :: behind) (offset + 1)
        part ahead := rfl

theorem advance_append (frames : List Frame) (behind : List Char) (offset : Nat)
    (first second ahead : List Char) :
    advance frames behind offset (first ++ second) ahead =
      (advance frames behind offset first (second ++ ahead)).bind fun middle =>
        advance middle (first.reverse ++ behind) (offset + first.length) second ahead := by
  induction first generalizing frames behind offset with
  | nil => simp
  | cons c first ih =>
      cases frames with
      | nil => rfl
      | cons top outer =>
          simp only [List.cons_append, advance_cons, List.append_assoc, List.reverse_cons,
            List.length_cons, ih]
          simp [Nat.add_assoc, Nat.add_comm 1]

/-- Reading one part and then the next. -/
theorem advance_trans {frames middle last : List Frame} {behind first second ahead : List Char}
    {offset : Nat} (h₁ : advance frames behind offset first (second ++ ahead) = some middle)
    (h₂ : advance middle (first.reverse ++ behind) (offset + first.length) second ahead = some last) :
    advance frames behind offset (first ++ second) ahead = some last := by
  rw [advance_append, h₁]
  exact h₂

/-- Constructs below the ones that are read stay as they are. -/
theorem advance_outer {frames last : List Frame} {behind part ahead : List Char} {offset : Nat}
    (h : advance frames behind offset part ahead = some last) (outer : List Frame) :
    advance (frames ++ outer) behind offset part ahead = some (last ++ outer) := by
  induction part generalizing frames behind offset with
  | nil => simp_all
  | cons c part ih =>
      cases frames with
      | nil => simp [advance] at h
      | cons top rest =>
          simp only [List.cons_append, advance_cons] at h ⊢
          have := ih h
          rwa [List.append_assoc] at this

/-- A scan goes on with what reading the first part leaves. -/
theorem run_of_advance {frames last : List Frame} {behind part ahead : List Char} {offset : Nat}
    (h : advance frames behind offset part ahead = some last) :
    run frames behind offset (part ++ ahead) =
      run last (part.reverse ++ behind) (offset + part.length) ahead := by
  induction part generalizing frames behind offset with
  | nil => simp_all
  | cons c part ih =>
      cases frames with
      | nil => simp [advance] at h
      | cons top outer =>
          rw [List.cons_append, run, ih h]
          simp [Nat.add_assoc, Nat.add_comm 1]

/-- What a successful scan consumed empties its stack. -/
theorem advance_of_run {frames : List Frame} {behind text : List Char} {offset : Nat} {cut : Cut}
    (h : run frames behind offset text = .ok cut) :
    ∃ part, text = part ++ cut.rest ∧ cut.behind = part.reverse ++ behind ∧
      advance frames behind offset part cut.rest = some [] := by
  induction text generalizing frames behind offset with
  | nil =>
      cases frames with
      | nil =>
          cases h
          exact ⟨[], rfl, rfl, rfl⟩
      | cons top outer => simp [run] at h
  | cons c text ih =>
      cases frames with
      | nil =>
          cases h
          exact ⟨[], rfl, rfl, rfl⟩
      | cons top outer =>
          rw [run] at h
          obtain ⟨part, htext, hbehind, hpart⟩ := ih h
          refine ⟨c :: part, by rw [htext]; rfl, by simp [hbehind], ?_⟩
          rw [advance_cons, ← htext]
          exact hpart

theorem run_nil (behind text : List Char) (offset : Nat) :
    run [] behind offset text = .ok ⟨behind, text⟩ := by
  cases text <;> rfl

/-- A part that empties the stack is what the scan consumes. -/
theorem run_eq_ok {frames : List Frame} {behind part ahead : List Char} {offset : Nat}
    (h : advance frames behind offset part ahead = some []) :
    run frames behind offset (part ++ ahead) = .ok ⟨part.reverse ++ behind, ahead⟩ := by
  rw [run_of_advance h, run_nil]

/-- A successful scan ends the constructs on top before it looks at those below. -/
theorem advance_of_run_append {frames outer : List Frame} {behind text : List Char} {offset : Nat}
    {cut : Cut} (h : run (frames ++ outer) behind offset text = .ok cut) :
    ∃ part rest, text = part ++ rest ∧ advance frames behind offset part rest = some [] ∧
      run outer (part.reverse ++ behind) (offset + part.length) rest = .ok cut := by
  induction text generalizing frames behind offset with
  | nil =>
      cases frames with
      | nil => exact ⟨[], [], rfl, rfl, h⟩
      | cons top frames => simp [run] at h
  | cons c text ih =>
      cases frames with
      | nil => exact ⟨[], c :: text, rfl, rfl, h⟩
      | cons top frames =>
          rw [List.cons_append, run, ← List.append_assoc] at h
          obtain ⟨part, rest, htext, hpart, hrest⟩ := ih h
          refine ⟨c :: part, rest, by rw [htext]; rfl, ?_, ?_⟩
          · rw [advance_cons, ← htext]
            exact hpart
          · simpa [Nat.add_assoc, Nat.add_comm 1] using hrest

/-- Constructs that are ended one after the other split the text that ends them. -/
theorem exists_split_of_advance {frames outer : List Frame} {behind part ahead : List Char} {offset : Nat}
    (h : advance (frames ++ outer) behind offset part ahead = some []) :
    ∃ first second, part = first ++ second ∧ advance frames behind offset first (second ++ ahead) = some [] ∧
      advance outer (first.reverse ++ behind) (offset + first.length) second ahead = some [] := by
  obtain ⟨first, rest, htext, hfirst, hrest⟩ := advance_of_run_append (run_eq_ok h)
  obtain ⟨second, hsecond, -, houter⟩ := advance_of_run hrest
  rw [hsecond, ← List.append_assoc] at htext
  refine ⟨first, second, List.append_cancel_right htext, ?_, houter⟩
  rwa [hsecond] at hfirst

/-! ## What a step can do -/

/-- What a character makes of a construct that goes on. -/
inductive Continues (offset : Nat) : Frame → Frame → Prop
  | same (top : Frame) : Continues offset top top
  | blockComment (part part' : CommentPart) (opened : Nat) :
      Continues offset (.blockComment part opened) (.blockComment part' opened)
  | expression (depth depth' opened : Nat) :
      Continues offset (.expression depth opened) (.expression depth' opened)
  | parentheses (depth depth' : Int) (opened : Nat) :
      Continues offset (.parentheses depth opened) (.parentheses depth' opened)
  | tagOpened (depth opened : Nat) (closing : Bool) :
      Continues offset (.element depth opened) (.elementTag depth opened closing (offset + 1))
  | tagEnded (depth depth' opened : Nat) (closing : Bool) (tagOpened : Nat) :
      Continues offset (.elementTag depth opened closing tagOpened) (.element depth' opened)

/-- A construct that may be opened inside of another one. -/
inductive Opens (offset : Nat) : Frame → Prop
  | quoted (quote : Char) : Opens offset (.quoted quote offset)
  | lineComment : Opens offset .lineComment
  | blockComment : Opens offset (.blockComment .opening offset)
  | expression : Opens offset (.expression 0 offset)
  | elementTag (closing : Bool) : Opens offset (.elementTag 0 offset closing (offset + 1))

/-- What may take the place of a construct when one of its characters is read. -/
inductive Stepped (offset : Nat) (top : Frame) : List Frame → Prop
  | ended : Stepped offset top []
  | continued {next : Frame} (h : Continues offset top next) : Stepped offset top [next]
  | opened {frame : Frame} (h : Opens offset frame) : Stepped offset top [frame, top]

theorem stepped_same (offset : Nat) (top : Frame) : Stepped offset top [top] :=
  .continued (.same top)

theorem stepped_afterElementTag (offset depth opened : Nat) (closing selfClosing : Bool) (tagOpened : Nat) :
    Stepped offset (.elementTag depth opened closing tagOpened)
      (afterElementTag depth opened closing selfClosing) := by
  unfold afterElementTag
  split_ifs
  · exact .ended
  · exact .continued (.tagEnded ..)
  · exact .ended
  · exact .continued (.tagEnded ..)
  · exact .continued (.tagEnded ..)

theorem stepped_scriptOpening {top : Frame} {behind ahead : List Char} {offset : Nat} {c : Char}
    {frames : List Frame} (h : scriptOpening? top behind offset c ahead = some frames) :
    Stepped offset top frames := by
  unfold scriptOpening? at h
  split_ifs at h
  · cases h
    exact .opened (.quoted c)
  · cases h
    exact .opened (.elementTag _)

/-- Every step ends its construct, goes on with it or opens another one inside of it. -/
theorem stepped (top : Frame) (behind : List Char) (offset : Nat) (c : Char) (ahead : List Char) :
    Stepped offset top (step top behind offset c ahead) := by
  cases top with
  | lineComment | quoted =>
      simp only [step]
      split_ifs
      · exact .ended
      · exact stepped_same ..
  | blockComment part opened =>
      cases part with
      | opening => exact .continued (.blockComment ..)
      | body =>
          simp only [step]
          split_ifs
          · exact .continued (.blockComment ..)
          · exact stepped_same ..
      | closing => exact .ended
  | tag opened =>
      simp only [step]
      split_ifs
      · exact .opened (.quoted c)
      · exact .opened .expression
      · exact .ended
      · exact stepped_same ..
  | element depth opened =>
      simp only [step]
      split_ifs
      · exact .opened .expression
      · exact .continued (.tagOpened ..)
      · exact stepped_same ..
  | elementTag depth opened closing tagOpened =>
      simp only [step]
      split_ifs
      · exact .opened (.quoted c)
      · exact .opened .expression
      · exact stepped_afterElementTag ..
      · exact stepped_same ..
  | expression depth opened =>
      simp only [step]
      cases hopening : scriptOpening? (.expression depth opened) behind offset c ahead with
      | some frames => exact stepped_scriptOpening hopening
      | none =>
          dsimp only
          split_ifs
          · exact .opened .lineComment
          · exact .opened .blockComment
          · exact .continued (.expression ..)
          · cases depth with
            | zero => exact .ended
            | succ depth => exact .continued (.expression ..)
          · exact stepped_same ..
  | parentheses depth opened =>
      simp only [step]
      cases hopening : scriptOpening? (.parentheses depth opened) behind offset c ahead with
      | some frames => exact stepped_scriptOpening hopening
      | none =>
          dsimp only
          split_ifs
          · exact .opened .expression
          · exact .continued (.parentheses ..)
          · exact .ended
          · exact .continued (.parentheses ..)
          · exact stepped_same ..

/-- The character that a construct ends with; the end of a block comment is told one character before. -/
def Frame.last? : Frame → Option Char
  | .quoted quote _ => some quote
  | .lineComment => some '\n'
  | .blockComment .. => none
  | .tag _ | .element .. | .elementTag .. => some '>'
  | .expression .. => some '\x7d'
  | .parentheses .. => some ')'

theorem Continues.last?_eq {offset : Nat} {top next : Frame} (h : Continues offset top next) :
    next.last? = top.last? := by
  cases h <;> rfl

theorem eq_last_of_step_eq_nil {top : Frame} {behind ahead : List Char} {offset : Nat} {c last : Char}
    (h : step top behind offset c ahead = []) (hlast : top.last? = some last) : c = last := by
  by_contra hc
  cases top with
  | blockComment => simp [Frame.last?] at hlast
  | lineComment | quoted | tag | element | elementTag =>
      simp only [Frame.last?, Option.some.injEq] at hlast
      subst hlast
      simp only [step] at h
      split_ifs at h <;> simp_all
  | expression | parentheses =>
      simp only [Frame.last?, Option.some.injEq] at hlast
      subst hlast
      simp only [step, scriptOpening?] at h
      split_ifs at h
      simp_all

/-- A part that ends all its constructs ends with the last character of the outermost one. -/
theorem getLast?_of_advance (inner : List Frame) {bottom : Frame} {last : Char} {behind part ahead : List Char}
    {offset : Nat} (hbottom : bottom.last? = some last)
    (h : advance (inner ++ [bottom]) behind offset part ahead = some []) : part.getLast? = some last := by
  induction part generalizing inner bottom behind offset with
  | nil => simp at h
  | cons c part ih =>
      -- Unless the part is over, its last character is that of what is left of it.
      have hrest (inner' : List Frame) {bottom' : Frame} (hbottom' : bottom'.last? = some last)
          (h : advance (inner' ++ [bottom']) (c :: behind) (offset + 1) part ahead = some []) :
          (c :: part).getLast? = some last := by
        rw [List.getLast?_cons, ih inner' hbottom' h]
        rfl
      cases inner with
      | cons top inner =>
          rw [List.cons_append, advance_cons, ← List.append_assoc] at h
          exact hrest _ hbottom h
      | nil =>
          rw [List.nil_append, advance_cons, List.append_nil] at h
          have hstepped := stepped bottom behind offset c (part ++ ahead)
          generalize hstep : step bottom behind offset c (part ++ ahead) = frames at h hstepped
          cases hstepped with
          | ended =>
              cases part with
              | nil =>
                  rw [eq_last_of_step_eq_nil hstep hbottom]
                  rfl
              | cons d part => simp [advance] at h
          | continued hnext => exact hrest [] (hnext.last?_eq.trans hbottom) h
          | opened hopens => exact hrest [_] hbottom h

/-! ## Places -/

/-- A construct with its place forgotten. -/
def Frame.placeless : Frame → Frame
  | .quoted quote _ => .quoted quote 0
  | .lineComment => .lineComment
  | .blockComment part _ => .blockComment part 0
  | .tag _ => .tag 0
  | .expression depth _ => .expression depth 0
  | .element depth _ => .element depth 0
  | .elementTag depth _ closing _ => .elementTag depth 0 closing 0
  | .parentheses depth _ => .parentheses depth 0

theorem afterElementTag_placeless (depth opened : Nat) (closing selfClosing : Bool) :
    (afterElementTag depth opened closing selfClosing).map Frame.placeless =
      afterElementTag depth 0 closing selfClosing := by
  unfold afterElementTag
  split_ifs <;> rfl

/-- Places decide nothing. -/
theorem step_placeless (top : Frame) (behind : List Char) (offset : Nat) (c : Char)
    (ahead : List Char) :
    (step top behind offset c ahead).map Frame.placeless =
      (step top.placeless behind 0 c ahead).map Frame.placeless := by
  cases top with
  | blockComment part opened =>
      cases part with
      | body =>
          simp only [step, Frame.placeless]
          split_ifs <;> rfl
      | opening | closing => rfl
  | expression depth opened =>
      simp only [step, Frame.placeless, scriptOpening?]
      split_ifs <;> first | rfl | (cases depth <;> rfl)
  | elementTag depth opened closing tagOpened =>
      simp only [step, Frame.placeless]
      split_ifs <;> first | rfl | simp only [afterElementTag_placeless]
  | parentheses depth opened =>
      simp only [step, Frame.placeless, scriptOpening?]
      split_ifs <;> rfl
  | lineComment => rfl
  | quoted | tag | element =>
      simp only [step, Frame.placeless]
      split_ifs <;> rfl

/-! ## The text around a part -/

/-- The end of the last construct does not depend on what follows it. -/
theorem step_eq_nil_of_step_eq_nil {top : Frame} {behind : List Char} {offset : Nat} {c : Char}
    {ahead : List Char} (h : step top behind offset c ahead = []) (ahead' : List Char) :
    step top behind offset c ahead' = [] := by
  cases top with
  | lineComment | quoted => exact h
  | blockComment part opened =>
      cases part with
      | body =>
          simp only [step] at h
          split_ifs at h
      | opening => simp [step] at h
      | closing => rfl
  | tag | elementTag => exact h
  | element =>
      simp only [step] at h
      split_ifs at h
  | expression depth opened =>
      simp only [step, scriptOpening?] at h ⊢
      have hb : c = '}' := by
        by_contra hc
        split_ifs at h
        simp_all
      subst hb
      simpa using h
  | parentheses depth opened =>
      simp only [step, scriptOpening?] at h ⊢
      have hb : c = ')' := by
        by_contra hc
        split_ifs at h
        simp_all
      subst hb
      simpa using h

theorem opensTag_congr {ahead ahead' : List Char} (h : ahead.head? = ahead'.head?) :
    opensTag ahead = opensTag ahead' := by
  cases ahead <;> cases ahead' <;> simp_all [opensTag]

theorem opensClosingTag_congr {ahead ahead' : List Char} (h : ahead.head? = ahead'.head?) :
    opensClosingTag ahead = opensClosingTag ahead' := by
  cases ahead with
  | nil =>
      cases ahead' with
      | nil => rfl
      | cons d rest' => simp at h
  | cons c rest =>
      cases ahead' with
      | nil => simp at h
      | cons d rest' =>
          simp only [List.head?_cons, Option.some.injEq] at h
          subst h
          by_cases hslash : c = '/'
          · subst hslash
            rfl
          · simp [opensClosingTag, hslash]

/-- Whether a construct asks what stands behind a character. -/
def Frame.looksBack : Frame → Bool
  | .expression .. | .elementTag .. | .parentheses .. => true
  | _ => false

/-- A step asks the text before and after a character only these questions. -/
theorem step_congr {top : Frame} {behind behind' ahead ahead' : List Char} {offset : Nat} {c : Char}
    (hahead : ahead.head? = ahead'.head?)
    (hbehind : top.looksBack = true →
      admitsMarkup behind = admitsMarkup behind' ∧ endsSelfClosing behind = endsSelfClosing behind') :
    step top behind offset c ahead = step top behind' offset c ahead' := by
  have htag := opensTag_congr hahead
  have hclosing := opensClosingTag_congr hahead
  cases top with
  | expression | elementTag | parentheses =>
      obtain ⟨hadmits, hends⟩ := hbehind rfl
      simp only [step, scriptOpening?, hahead, htag, hclosing, hadmits, hends]
  | quoted | lineComment | blockComment | tag | element =>
      simp only [step, hahead, htag, hclosing]

/-- A character that no look at the text behind passes. -/
def isWall (c : Char) : Bool :=
  !isBlank c && !"nruter".toList.contains c

/-- Two texts, given in reverse, that agree up to a wall. -/
def Alike (behind behind' : List Char) : Prop :=
  ∃ seen wall rest rest', isWall wall = true ∧
    behind = seen ++ wall :: rest ∧ behind' = seen ++ wall :: rest'

theorem Alike.of_wall {wall : Char} (h : isWall wall = true) (behind behind' : List Char) :
    Alike (wall :: behind) (wall :: behind') :=
  ⟨[], wall, behind, behind', h, rfl, rfl⟩

theorem Alike.cons {behind behind' : List Char} (h : Alike behind behind') (c : Char) :
    Alike (c :: behind) (c :: behind') := by
  obtain ⟨seen, wall, rest, rest', hwall, rfl, rfl⟩ := h
  exact ⟨c :: seen, wall, rest, rest', hwall, rfl, rfl⟩

theorem isPrefixOf_append_cons {word : List Char} {wall : Char} (h : wall ∉ word)
    (seen rest : List Char) : word.isPrefixOf (seen ++ wall :: rest) = word.isPrefixOf seen := by
  induction word generalizing seen with
  | nil => simp
  | cons w word ih =>
      simp only [List.mem_cons, not_or] at h
      cases seen with
      | nil =>
          have hne : (w == wall) = false := by simpa using Ne.symm h.1
          simp [List.isPrefixOf, hne]
      | cons s seen => simp [List.isPrefixOf_cons_cons, ih h.2]

/-- A wall hides what lies behind it. -/
theorem dropWhile_append_wall {wall : Char} (h : isWall wall = true) (seen rest : List Char) :
    (seen ++ wall :: rest).dropWhile isBlank = seen.dropWhile isBlank ++ wall :: rest := by
  have hblank : isBlank wall = false := by
    simp only [isWall, Bool.and_eq_true, Bool.not_eq_true'] at h
    exact h.1
  rw [List.dropWhile_append]
  split
  · next hnil => simp_all
  · rfl

theorem Alike.admitsMarkup_eq {behind behind' : List Char} (h : Alike behind behind') :
    admitsMarkup behind = admitsMarkup behind' := by
  obtain ⟨seen, wall, rest, rest', hwall, rfl, rfl⟩ := h
  have hword : wall ∉ "nruter".toList := by
    simp only [isWall, Bool.and_eq_true, Bool.not_eq_true'] at hwall
    simpa using hwall.2
  unfold admitsMarkup
  rw [dropWhile_append_wall hwall, dropWhile_append_wall hwall]
  cases hseen : seen.dropWhile isBlank with
  | nil =>
      have hfirst := fun rest => isPrefixOf_append_cons hword [] rest
      simp only [List.nil_append] at hfirst ⊢
      rw [hfirst, hfirst]
  | cons c kept =>
      simp only [List.cons_append]
      have hfirst := fun rest => isPrefixOf_append_cons hword (c :: kept) rest
      simp only [List.cons_append] at hfirst
      rw [hfirst, hfirst]

theorem Alike.endsSelfClosing_eq {behind behind' : List Char} (h : Alike behind behind') :
    endsSelfClosing behind = endsSelfClosing behind' := by
  obtain ⟨seen, wall, rest, rest', hwall, rfl, rfl⟩ := h
  unfold endsSelfClosing
  rw [dropWhile_append_wall hwall, dropWhile_append_wall hwall]
  cases seen.dropWhile isBlank with
  | nil =>
      by_cases hslash : wall = '/'
      · subst hslash; rfl
      · simp [hslash]
  | cons c kept =>
      by_cases hslash : c = '/'
      · subst hslash; rfl
      · simp [hslash]

/-! ## Locality -/

/-- Constructs that look back do so only up to a wall. -/
def Sheltered (frames : List Frame) (behind behind' : List Char) : Prop :=
  (∀ frame ∈ frames, frame.looksBack = false) ∨ Alike behind behind'

/-- The constructs that a step opens are sheltered by the character that opens them. -/
theorem sheltered_step {top : Frame} {outer : List Frame} {behind behind' ahead : List Char}
    {offset : Nat} {c : Char} (h : Sheltered (top :: outer) behind behind') :
    Sheltered (step top behind offset c ahead ++ outer) (c :: behind) (c :: behind') := by
  rcases h with hfree | halike
  · have htop := hfree top (by simp)
    have houter : ∀ frame ∈ outer, frame.looksBack = false := fun frame hf => hfree frame (by simp [hf])
    by_cases hbrace : c = '\x7b'
    · exact .inr (.of_wall (by subst hbrace; decide) _ _)
    by_cases hangle : c = '<'
    · exact .inr (.of_wall (by subst hangle; decide) _ _)
    left
    have hstep : ∀ frame ∈ step top behind offset c ahead, frame.looksBack = false := by
      cases top with
      | expression | elementTag | parentheses => simp [Frame.looksBack] at htop
      | blockComment part opened =>
          cases part with
          | body =>
              simp only [step]
              split_ifs <;> simp [Frame.looksBack]
          | opening | closing => simp [step, Frame.looksBack]
      | element => simp [step, hbrace, hangle, Frame.looksBack]
      | quoted | lineComment | tag =>
          simp only [step, beq_iff_eq, hbrace, if_false]
          split_ifs <;> simp [Frame.looksBack]
    intro frame hf
    rcases List.mem_append.1 hf with hf | hf
    · exact hstep frame hf
    · exact houter frame hf
  · exact .inr (halike.cons c)

/--
Reading a part depends on the constructs alone, and on what follows the part only as far as one
character; when the part ends all constructs, not even on that.
-/
theorem advance_local {frames frames' last : List Frame} {behind behind' part ahead ahead' : List Char}
    {offset : Nat} (offset' : Nat)
    (hframes : frames.map Frame.placeless = frames'.map Frame.placeless)
    (hshelter : Sheltered frames behind behind')
    (hahead : last = [] ∨ ahead.head? = ahead'.head?)
    (h : advance frames behind offset part ahead = some last) :
    ∃ last', advance frames' behind' offset' part ahead' = some last' ∧
      last.map Frame.placeless = last'.map Frame.placeless := by
  induction part generalizing frames frames' behind behind' offset offset' with
  | nil =>
      rw [advance_nil, Option.some.injEq] at h
      exact ⟨frames', advance_nil .., h ▸ hframes⟩
  | cons c part ih =>
      cases frames with
      | nil => simp [advance] at h
      | cons top outer =>
          cases frames' with
          | nil => simp at hframes
          | cons top' outer' =>
              simp only [List.map_cons, List.cons.injEq] at hframes
              rw [advance_cons] at h
              have hlook : top.looksBack = true →
                  admitsMarkup behind = admitsMarkup behind' ∧
                    endsSelfClosing behind = endsSelfClosing behind' := by
                intro htop
                rcases hshelter with hfree | halike
                · simp [hfree top (by simp)] at htop
                · exact ⟨halike.admitsMarkup_eq, halike.endsSelfClosing_eq⟩
              -- The step is the same unless it is the last one and leaves no construct.
              have hstep : (step top behind offset c (part ++ ahead)).map Frame.placeless =
                  (step top' behind' offset' c (part ++ ahead')).map Frame.placeless := by
                have hsame : step top behind offset c (part ++ ahead) =
                    step top behind' offset c (part ++ ahead') := by
                  rcases hahead with hlast | hhead
                  · cases part with
                    | nil =>
                        rw [advance_nil, Option.some.injEq, hlast, List.append_eq_nil_iff] at h
                        have hnone := h.1
                        rw [hnone, ← step_congr rfl hlook,
                          step_eq_nil_of_step_eq_nil hnone ([] ++ ahead')]
                    | cons d part => exact step_congr rfl hlook
                  · apply step_congr _ hlook
                    cases part <;> simp [hhead]
                rw [hsame, step_placeless top, step_placeless top', hframes.1]
              have hnext : (step top behind offset c (part ++ ahead) ++ outer).map Frame.placeless =
                  (step top' behind' offset' c (part ++ ahead') ++ outer').map Frame.placeless := by
                rw [List.map_append, List.map_append, hstep, hframes.2]
              exact ih (offset' + 1) hnext (sheltered_step hshelter) h

/-- A part that ends all its constructs does so wherever it stands. -/
theorem advance_local_nil {frames frames' : List Frame} {behind behind' part ahead : List Char}
    {offset : Nat} (hframes : frames.map Frame.placeless = frames'.map Frame.placeless)
    (hshelter : Sheltered frames behind behind')
    (h : advance frames behind offset part ahead = some []) (offset' : Nat) (ahead' : List Char) :
    advance frames' behind' offset' part ahead' = some [] := by
  have hahead : ([] : List Frame) = [] ∨ ahead.head? = ahead'.head? := .inl rfl
  obtain ⟨last', hlast, hmap⟩ := advance_local offset' hframes hshelter hahead h
  rw [List.map_nil, eq_comm, List.map_eq_nil_iff] at hmap
  rw [hlast, hmap]

end ComponentBuilder.Markup.Scan
