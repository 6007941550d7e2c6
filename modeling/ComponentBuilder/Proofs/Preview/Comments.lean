import ComponentBuilder.Preview.Binding
import ComponentBuilder.Proofs.Text.Occurrence
import ComponentBuilder.Proofs.Text.Replacing

/-!
# Comments as blanks

Between the parts of an import clause stand blanks and comments.  The reader puts a blank in place of every
comment first: where nothing else has a slash this leaves the parts as they are, with blanks between them.
-/

namespace ComponentBuilder.Preview

open Text

/-! ## Taking comments out -/

/-- A text whose slashes all belong to comments, and the text with a blank for every comment. -/
inductive Uncommented : List Char → List Char → Prop
  | nil : Uncommented [] []
  | character {c : Char} {rest out : List Char} (hc : c ≠ '/') (hrest : Uncommented rest out) :
      Uncommented (c :: rest) (c :: out)
  | block {body rest out : List Char} (hbody : ¬['*', '/'] <:+: body) (hrest : Uncommented rest out) :
      Uncommented ('/' :: '*' :: (body ++ '*' :: '/' :: rest)) (' ' :: out)
  | line {body rest out : List Char} (hbody : '\n' ∉ body) (hend : Stops (· != '\n') rest)
      (hrest : Uncommented rest out) : Uncommented ('/' :: '/' :: (body ++ rest)) (' ' :: out)

variable {behind body rest text out : List Char} {offset : Nat}

theorem matchAt?_comment_of_ne {c : Char} (hc : c ≠ '/') :
    comment.matchAt? ⟨behind, offset, c :: rest, []⟩ = none := by
  simp [comment, Pattern.matchAt?, Pattern.run_append, Pattern.run, Pattern.text, Pattern.chars, hc]

/-- A block goes to the first mark that closes it. -/
theorem matchAt?_comment_block (h : ¬['*', '/'] <:+: body) :
    comment.matchAt? ⟨behind, offset, '/' :: '*' :: (body ++ '*' :: '/' :: rest), []⟩ =
      some (Pattern.after behind offset ('/' :: '*' :: (body ++ ['*', '/'])) rest []) := by
  have hopen : Pattern.text "/*" = Pattern.chars ['/', '*'] := by simp [Pattern.text]
  have hclose : Pattern.text "*/" = Pattern.chars ['*', '/'] := by simp [Pattern.text]
  have hblock : (Pattern.text "/*" ++ .few (fun _ => true) ++ .text "*/").run some
      ⟨behind, offset, ['/', '*'] ++ (body ++ (['*', '/'] ++ rest)), []⟩ =
        some (Pattern.after behind offset ('/' :: '*' :: (body ++ ['*', '/'])) rest []) := by
    rw [hopen, hclose, Pattern.run_append, Pattern.run_append, Pattern.run_chars]
    refine Pattern.creep_append (fun _ _ => rfl) ?_ ?_
    · intro a b hsplit hb
      rw [Option.eq_none_iff_forall_ne_some]
      intro last hlast
      obtain ⟨part, more, -, htext, hfits, -⟩ := Pattern.fits_of_run hlast
      obtain rfl := Pattern.fits_chars hfits
      apply h
      rw [hsplit]
      -- the mark would begin in the body, and of its two characters only the first could be the last there
      obtain ⟨c, b, rfl⟩ := List.exists_cons_of_ne_nil hb
      obtain ⟨rfl, hrest⟩ := List.cons.inj htext
      cases b with
      | nil => simp at hrest
      | cons d b =>
          obtain ⟨rfl, -⟩ := List.cons.inj hrest
          exact ⟨a, b, by simp⟩
    · rw [Pattern.after, Pattern.run_chars]
      simp [Pattern.after]
      omega
  rw [comment, Pattern.matchAt?, Pattern.run]
  have htext : '/' :: '*' :: (body ++ '*' :: '/' :: rest) = ['/', '*'] ++ (body ++ (['*', '/'] ++ rest)) := rfl
  rw [htext, hblock]

/-- A line comment goes to the end of its line. -/
theorem matchAt?_comment_line (h : '\n' ∉ body) (hend : Stops (· != '\n') rest) :
    comment.matchAt? ⟨behind, offset, '/' :: '/' :: (body ++ rest), []⟩ =
      some (Pattern.after behind offset ('/' :: '/' :: body) rest []) := by
  have hopen : Pattern.text "//" = Pattern.chars ['/', '/'] := by simp [Pattern.text]
  have hblock : (Pattern.text "/*" ++ .few (fun _ => true) ++ .text "*/").run some
      ⟨behind, offset, '/' :: '/' :: (body ++ rest), []⟩ = none := by
    simp [Pattern.run_append, Pattern.run, Pattern.text, Pattern.chars, Spot.next]
  have hline : (Pattern.text "//" ++ .many 0 (· != '\n')).run some
      ⟨behind, offset, ['/', '/'] ++ (body ++ rest), []⟩ =
        some (Pattern.after behind offset ('/' :: '/' :: body) rest []) := by
    rw [hopen, Pattern.run_append, Pattern.run_chars]
    refine Pattern.run_many (Nat.zero_le _) (fun c hc => ?_) hend ?_
    · rw [bne_iff_ne]
      rintro rfl
      exact h hc
    · simp [Pattern.after]
      omega
  rw [comment, Pattern.matchAt?, Pattern.run, hblock]
  exact hline

theorem Uncommented.pieced_cutFrom (h : Uncommented text out) (plain : List Char) (hits : List Pattern.Hit)
    (behind : List Char) (offset : Nat) :
    Pattern.pieced [' '] (comment.cutFrom 0 plain hits behind offset text).1
        (comment.cutFrom 0 plain hits behind offset text).2 =
      Pattern.pieced [' '] hits.reverse plain.reverse ++ out := by
  induction h generalizing plain hits behind offset with
  | nil => rw [Pattern.cutFrom, List.append_nil]
  | character hc _ ih =>
      rw [Pattern.cutFrom, matchAt?_comment_of_ne hc]
      dsimp only
      rw [ih]
      simp [Pattern.pieced]
  | @block body rest out hbody _ ih =>
      have hmatch := @matchAt?_comment_block behind body rest offset hbody
      have htext : '*' :: (body ++ '*' :: '/' :: rest) = '*' :: (body ++ ['*', '/']) ++ rest := by simp
      rw [htext] at hmatch ⊢
      rw [Pattern.cutFrom_of_match hmatch, ih]
      simp [Pattern.pieced]
  | @line body rest out hbody hend _ ih =>
      have hmatch := @matchAt?_comment_line behind body rest offset hbody hend
      have htext : '/' :: (body ++ rest) = '/' :: body ++ rest := rfl
      rw [htext] at hmatch ⊢
      rw [Pattern.cutFrom_of_match hmatch, ih]
      simp [Pattern.pieced]

/-- The reader puts a blank in place of every comment. -/
theorem Uncommented.replace_eq (h : Uncommented text out) : comment.replace (fun _ => [' ']) text = out := by
  have hpieced := h.pieced_cutFrom [] [] [] 0
  rw [List.reverse_nil, List.reverse_nil] at hpieced
  exact hpieced

/-! ## Layout -/

/-- A character that ends a line. -/
def lineBreaks : List Char :=
  ['\n', '\r', '\u2028', '\u2029']

/-- Blanks and comments between the parts of a clause; a comment to the end of its line has the line's end
behind it. -/
inductive Layout : List Char → Prop
  | nil : Layout []
  | blank {c : Char} {rest : List Char} (hblank : isBlank c = true) (hrest : Layout rest) : Layout (c :: rest)
  | block {body rest : List Char} (hbody : ¬['*', '/'] <:+: body) (hrest : Layout rest) :
      Layout ('/' :: '*' :: (body ++ '*' :: '/' :: rest))
  | line {body ending rest : List Char} (hbody : ∀ c ∈ body, c ∉ lineBreaks)
      (hending : ending = ['\n'] ∨ ending = ['\r', '\n']) (hrest : Layout rest) :
      Layout ('/' :: '/' :: (body ++ (ending ++ rest)))

/-- Layout behind the last part, where a comment may go on to the end. -/
inductive LastLayout : List Char → Prop
  | closed {text : List Char} (h : Layout text) : LastLayout text
  | line {text body : List Char} (h : Layout text) (hbody : ∀ c ∈ body, c ∉ lineBreaks) :
      LastLayout (text ++ '/' :: '/' :: body)

/-- Blanks alone. -/
def Blanks (text : List Char) : Prop :=
  ∀ c ∈ text, isBlank c = true

theorem blanks_nil : Blanks [] := List.forall_mem_nil _

/-- Where this text stands in front of another one, taking comments out leaves the given one. -/
def Uncomments (text out : List Char) : Prop :=
  ∀ rest left, Uncommented rest left → Uncommented (text ++ rest) (out ++ left)

theorem Uncomments.append {first second out out' : List Char} (hfirst : Uncomments first out)
    (hsecond : Uncomments second out') : Uncomments (first ++ second) (out ++ out') := by
  intro rest left hrest
  rw [List.append_assoc, List.append_assoc]
  exact hfirst _ _ (hsecond _ _ hrest)

theorem uncomments_self (h : '/' ∉ text) : Uncomments text text := by
  intro rest left hrest
  induction text with
  | nil => exact hrest
  | cons c text ih =>
      rw [List.mem_cons, not_or] at h
      exact .character (Ne.symm h.1) (ih h.2)

theorem Uncomments.uncommented (h : Uncomments text out) : Uncommented text out := by
  have hend := h _ _ .nil
  rwa [List.append_nil, List.append_nil] at hend

/-- Layout gives way to blanks, and to none only where it is empty. -/
theorem Layout.exists_uncomments (h : Layout text) :
    ∃ blanks, Blanks blanks ∧ (text ≠ [] → blanks ≠ []) ∧ Uncomments text blanks := by
  have hspace {blanks : List Char} (hblanks : Blanks blanks) : Blanks (' ' :: blanks) :=
    List.forall_mem_cons.2 ⟨by decide, hblanks⟩
  induction h with
  | nil => exact ⟨[], by simp [Blanks], fun h => h, fun _ _ hrest => hrest⟩
  | @blank c rest hblank _ ih =>
      obtain ⟨blanks, hblanks, -, hout⟩ := ih
      have hc : c ≠ '/' := by
        rintro rfl
        exact absurd hblank (by decide)
      exact ⟨c :: blanks, List.forall_mem_cons.2 ⟨hblank, hblanks⟩, by simp,
        fun _ _ hrest => .character hc (hout _ _ hrest)⟩
  | @block body rest hbody _ ih =>
      obtain ⟨blanks, hblanks, -, hout⟩ := ih
      refine ⟨' ' :: blanks, hspace hblanks, by simp, fun more left hmore => ?_⟩
      have hblock := Uncommented.block hbody (hout _ _ hmore)
      simpa using hblock
  | @line body ending rest hbody hending _ ih =>
      obtain ⟨blanks, hblanks, -, hout⟩ := ih
      have hbreak {c : Char} (hc : c ∈ lineBreaks) : c ∉ body := fun hmem => hbody c hmem hc
      refine ⟨' ' :: '\n' :: blanks, hspace (List.forall_mem_cons.2 ⟨by decide, hblanks⟩), by simp,
        fun more left hmore => ?_⟩
      have hnext : Uncommented ('\n' :: (rest ++ more)) ('\n' :: (blanks ++ left)) := .character (by decide) (hout _ _ hmore)
      have hstop : Stops (· != '\n') ('\n' :: (rest ++ more)) := by simp [stops_cons]
      -- a carriage return before the end of the line is still the comment's
      rcases hending with rfl | rfl
      · have hline := Uncommented.line (hbreak (by decide)) hstop hnext
        simpa using hline
      · have hbody' : '\n' ∉ body ++ ['\r'] := by
          simp [hbreak (show '\n' ∈ lineBreaks by decide)]
        have hline := Uncommented.line hbody' hstop hnext
        simpa using hline

theorem LastLayout.exists_uncommented (h : LastLayout text) : ∃ blanks, Blanks blanks ∧ Uncommented text blanks := by
  cases h with
  | closed h =>
      obtain ⟨blanks, hblanks, -, hout⟩ := h.exists_uncomments
      exact ⟨blanks, hblanks, hout.uncommented⟩
  | @line text body h hbody =>
      obtain ⟨blanks, hblanks, -, hout⟩ := h.exists_uncomments
      have hline := @Uncommented.line body [] [] (fun hmem => hbody _ hmem (by decide)) (stops_nil _) .nil
      rw [List.append_nil] at hline
      exact ⟨blanks ++ [' '], List.forall_mem_append.2 ⟨hblanks, by simp [isBlank]⟩, hout _ _ hline⟩

end ComponentBuilder.Preview
