import ComponentBuilder.Proofs.Text.Replacing

/-!
# What a replacement keeps

A replacement goes over a text from left to right: it takes a match and puts a word in its place, or it keeps
a character at which no match begins.  What was to be read in the text can be told from the matches that are
taken and from the text that is left, as long as nothing to be read reaches over the ends of a match.
-/

namespace ComponentBuilder.Text

/-! ## Words in a text -/

/-- The number of places at which a word stands in a text. -/
def times (word : List Char) : List Char → Nat
  | [] => 0
  | c :: rest => (if word.isPrefixOf (c :: rest) then 1 else 0) + times word rest

theorem times_cons (word : List Char) (c : Char) (rest : List Char) :
    times word (c :: rest) = (if word <+: c :: rest then 1 else 0) + times word rest := by
  simp only [times, List.isPrefixOf_iff_prefix]

theorem times_eq_zero_iff {word text : List Char} (hword : word ≠ []) :
    times word text = 0 ↔ ¬word <:+: text := by
  induction text with
  | nil => simp [times, hword]
  | cons c rest ih =>
      rw [times_cons, Nat.add_eq_zero_iff, ih, List.infix_cons_iff, not_or]
      simp

/-- No occurrence of a word begins in one text and ends in the one after it. -/
def Severed (word front back : List Char) : Prop :=
  ∀ x y, word = x ++ y → x ≠ [] → y ≠ [] → x <:+ front → ¬y <+: back

theorem Severed.of_cons {word front back : List Char} {c : Char} (h : Severed word (c :: front) back) :
    Severed word front back := by
  intro x y hword hx hy hfront
  exact h x y hword hx hy (hfront.trans (List.suffix_cons c front))

theorem Severed.prefix_append_iff {word front back : List Char} (h : Severed word front back) (hfront : front ≠ [])
    (hword : word ≠ []) : word <+: front ++ back ↔ word <+: front := by
  constructor
  · intro hprefix
    rcases List.prefix_or_prefix_of_prefix hprefix (List.prefix_append front back) with hinside | ⟨more, rfl⟩
    · exact hinside
    · rw [List.prefix_append_right_inj] at hprefix
      by_cases hmore : more = []
      · rw [hmore, List.append_nil]
      · exact absurd hprefix (h front more rfl hfront hmore (List.suffix_rfl))
  · intro hprefix
    exact hprefix.trans (List.prefix_append front back)

theorem Severed.times_append {word front back : List Char} (h : Severed word front back) (hword : word ≠ []) :
    times word (front ++ back) = times word front + times word back := by
  induction front with
  | nil => simp [times]
  | cons c front ih =>
      have hhere := h.prefix_append_iff (List.cons_ne_nil c front) hword
      rw [List.cons_append] at hhere
      rw [List.cons_append, times_cons, times_cons, ih h.of_cons, Nat.add_assoc]
      simp only [hhere]

/-- A word does not reach over a text that ends in a character that the word lacks. -/
theorem severed_of_getLast {word front back : List Char} {c : Char} (hlast : front.getLast? = some c)
    (hc : c ∉ word) : Severed word front back := by
  rintro x y rfl hx - ⟨before, rfl⟩ -
  apply hc
  rw [List.getLast?_append_of_ne_nil _ hx] at hlast
  exact List.mem_append_left y (List.mem_of_getLast? hlast)

namespace Pattern

/-! ## Reading a pattern's matches off the pattern -/

/-- The least number of characters that a match takes. -/
def least : Pattern → Nat
  | .one _ => 1
  | .many least _ => least
  | .seq first second => first.least + second.least
  | .either first second => min first.least second.least
  | .capture body => body.least
  | .nothing | .few _ | .edge | .lineStart | .ahead _ | .notBehind _ => 0

theorem least_le_length {p : Pattern} {behind part rest : List Char} (h : p.Fits behind part rest) :
    p.least ≤ part.length := by
  induction p generalizing behind part rest with
  | nothing | few | edge | lineStart | ahead | notBehind => exact Nat.zero_le _
  | one ok =>
      obtain ⟨c, rfl, -⟩ := h
      exact Nat.le_refl 1
  | many least ok => exact h.1
  | seq first second hfirst hsecond =>
      obtain ⟨a, b, rfl, ha, hb⟩ := h
      have hlengths := Nat.add_le_add (hfirst ha) (hsecond hb)
      rwa [← List.length_append] at hlengths
  | either first second hfirst hsecond =>
      rcases h with h | h
      · exact (Nat.min_le_left _ _).trans (hfirst h)
      · exact (Nat.min_le_right _ _).trans (hsecond h)
  | capture body hbody => exact hbody h

/-- The part of a pattern that is matched first. -/
def leading : Pattern → Pattern
  | .seq first _ => first.leading
  | p => p

theorem exists_leading {p : Pattern} {behind part rest : List Char} (h : p.Fits behind part rest) :
    ∃ a b, part = a ++ b ∧ p.leading.Fits behind a (b ++ rest) := by
  induction p generalizing part rest with
  | seq first second hfirst _ =>
      obtain ⟨a, b, rfl, ha, -⟩ := h
      obtain ⟨front, back, rfl, hfront⟩ := hfirst ha
      exact ⟨front, back ++ b, by simp, by simpa [leading] using hfront⟩
  | nothing | one | many | few | either | capture | edge | lineStart | ahead | notBehind =>
      exact ⟨part, [], by simp, h⟩

/-- Every match that takes something ends in a character that passes the test. -/
def Closes (ok : Char → Bool) : Pattern → Prop
  | .one keep | .many _ keep | .few keep => ∀ c, keep c = true → ok c = true
  | .seq first second => second.Closes ok ∧ (0 < second.least ∨ first.Closes ok)
  | .either first second => first.Closes ok ∧ second.Closes ok
  | .capture body => body.Closes ok
  | .nothing | .edge | .lineStart | .ahead _ | .notBehind _ => True

theorem Closes.getLast {ok : Char → Bool} {p : Pattern} (h : p.Closes ok) {behind part rest : List Char}
    (hfits : p.Fits behind part rest) {c : Char} (hlast : part.getLast? = some c) : ok c = true := by
  induction p generalizing behind part rest with
  | nothing | edge | lineStart | ahead | notBehind =>
      simp only [Fits] at hfits
      simp_all
  | one keep =>
      obtain ⟨d, rfl, hd⟩ := hfits
      obtain rfl : d = c := by simpa using hlast
      exact h d hd
  | many least keep => exact h c (hfits.2 c (List.mem_of_getLast? hlast))
  | few keep => exact h c (hfits c (List.mem_of_getLast? hlast))
  | seq first second hfirst hsecond =>
      obtain ⟨a, b, rfl, ha, hb⟩ := hfits
      by_cases hnil : b = []
      · subst hnil
        rcases h.2 with hleast | hends
        · exact absurd (least_le_length hb) (Nat.not_le.2 hleast)
        · exact hfirst hends ha (by simpa using hlast)
      · rw [List.getLast?_append_of_ne_nil _ hnil] at hlast
        exact hsecond h.1 hb hlast
  | either first second hfirst hsecond =>
      rcases hfits with hfits | hfits
      · exact hfirst h.1 hfits hlast
      · exact hsecond h.2 hfits hlast
  | capture body hbody => exact hbody h hfits hlast

/-! ## Going over a text -/

/-- The matches that a replacement takes from a text after what is `behind`, and the text that it leaves. -/
inductive Rewrites (p : Pattern) (word : List Char) :
    List Char → List Char → List (List Char) → List Char → Prop
  | nil (behind : List Char) : Rewrites p word behind [] [] []
  | keep {behind rest out : List Char} {taken : List (List Char)} {c : Char}
      (none : ∀ part after, c :: rest = part ++ after → ¬p.Fits behind part after)
      (more : Rewrites p word (c :: behind) rest taken out) :
      Rewrites p word behind (c :: rest) taken (c :: out)
  | take {behind part rest out : List Char} {taken : List (List Char)} (nonempty : part ≠ [])
      (fits : p.Fits behind part rest) (more : Rewrites p word (part.reverse ++ behind) rest taken out) :
      Rewrites p word behind (part ++ rest) (part :: taken) (word ++ out)

variable {p : Pattern} {word behind text out : List Char} {taken : List (List Char)}

theorem rewrites_cutFrom (hp : ∀ behind rest, ¬p.Fits behind [] rest) (text plain : List Char) (hits : List Hit)
    (behind : List Char) (offset : Nat) :
    ∃ taken out, p.Rewrites word behind text taken out ∧
      (p.cutFrom 0 plain hits behind offset text).1.map Hit.matched = hits.reverse.map Hit.matched ++ taken ∧
      pieced word (p.cutFrom 0 plain hits behind offset text).1 (p.cutFrom 0 plain hits behind offset text).2 =
        pieced word hits.reverse plain.reverse ++ out := by
  -- By length, as after a match both go on behind all that it took.
  induction hlength : text.length using Nat.strong_induction_on generalizing text plain hits behind offset with
  | _ length ih =>
      subst hlength
      cases text with
      | nil => exact ⟨[], [], .nil behind, by simp [cutFrom], by simp [cutFrom]⟩
      | cons c rest =>
          cases hmatch : p.matchAt? ⟨behind, offset, c :: rest, []⟩ with
          | none =>
              obtain ⟨taken, out, hrewrites, hmatched, hpieced⟩ :=
                ih rest.length (Nat.lt_succ_self _) rest (c :: plain) hits (c :: behind) (offset + 1) rfl
              refine ⟨taken, c :: out, .keep ?_ hrewrites, ?_, ?_⟩
              · intro part more hsplit hfits
                have hsome := (@isSome_matchAt?_iff p behind _ [] offset).2 ⟨part, more, hsplit, hfits⟩
                rw [hmatch] at hsome
                cases hsome
              · rw [cutFrom, hmatch]
                exact hmatched
              · rw [cutFrom, hmatch]
                dsimp only
                rw [hpieced]
                simp [pieced]
          | some last =>
              obtain ⟨part, more, captured, htext, rfl, hfinds⟩ := exists_finds hmatch
              cases part with
              | nil => exact absurd hfinds.keeps.fits (hp behind more)
              | cons d part =>
                  obtain ⟨rfl, rfl⟩ := List.cons.inj htext
                  rw [List.append_eq] at hmatch ih ⊢
                  have hlater : more.length < (c :: (part ++ more)).length := by
                    rw [List.length_cons, List.length_append]
                    omega
                  obtain ⟨taken, out, hrewrites, hmatched, hpieced⟩ := ih more.length hlater more []
                    (⟨plain.reverse, c :: part, captured⟩ :: hits) (part.reverse ++ c :: behind)
                    (offset + 1 + part.length) rfl
                  refine ⟨(c :: part) :: taken, word ++ out,
                    .take (List.cons_ne_nil c part) hfinds.keeps.fits (by simpa using hrewrites), ?_, ?_⟩
                  · rw [cutFrom_of_match hmatch, hmatched]
                    simp
                  · rw [cutFrom_of_match hmatch, hpieced]
                    simp [pieced]

/-- Replacing the matches of a pattern that takes something goes over the text. -/
theorem rewrites_replace (hp : ∀ behind rest, ¬p.Fits behind [] rest) (word text : List Char) :
    p.Rewrites word [] text ((p.hits text).map Hit.matched) (p.replace (fun _ => word) text) := by
  obtain ⟨taken, out, hrewrites, hmatched, hpieced⟩ := @rewrites_cutFrom p word hp text [] [] [] 0
  rw [List.reverse_nil, List.map_nil, List.nil_append] at hmatched
  rw [List.reverse_nil, List.reverse_nil] at hpieced
  have hout : p.replace (fun _ => word) text = out := hpieced
  rw [hout, hits, cut, hmatched]
  exact hrewrites

namespace Rewrites

theorem length_add_le (h : p.Rewrites word behind text taken out)
    (hlonger : ∀ ⦃behind part rest⦄, p.Fits behind part rest → word.length < part.length) :
    out.length + taken.length ≤ text.length := by
  induction h with
  | nil => exact Nat.le_refl 0
  | keep none more ih =>
      simp only [List.length_cons]
      omega
  | take nonempty fits more ih =>
      have hshorter := hlonger fits
      simp only [List.length_cons, List.length_append]
      omega

/-- Where nothing is taken the pattern does not occur. -/
theorem not_fits_of_nil (h : p.Rewrites word behind text [] out) {front part rest : List Char}
    (htext : text = front ++ (part ++ rest)) (hpart : part ≠ []) : ¬p.Fits (front.reverse ++ behind) part rest := by
  generalize htaken : [] = taken at h
  induction h generalizing front with
  | nil =>
      have hnil := List.append_eq_nil_iff.1 (List.append_eq_nil_iff.1 htext.symm).2
      exact absurd hnil.1 hpart
  | keep none more ih =>
      cases front with
      | nil => exact none part rest htext
      | cons d front =>
          obtain ⟨rfl, hrest⟩ := List.cons.inj htext
          simpa using ih hrest htaken
  | take => cases htaken

/-- Where the pattern does not occur the text stays. -/
theorem eq_self (h : p.Rewrites word behind text taken out)
    (hnone : ∀ front part rest, text = front ++ (part ++ rest) → ¬p.Fits (front.reverse ++ behind) part rest) :
    out = text := by
  induction h with
  | nil => rfl
  | @keep behind rest out taken c none more ih =>
      rw [ih fun front part after hsplit => by simpa using hnone (c :: front) part after (by rw [hsplit]; rfl)]
  | take nonempty fits more ih => exact absurd fits (hnone [] _ _ rfl)

/-- Where no match begins the text is kept. -/
theorem exists_keep {c : Char} {rest : List Char} (h : p.Rewrites word behind (c :: rest) taken out)
    (hnone : ∀ part after, c :: rest = part ++ after → ¬p.Fits behind part after) :
    ∃ more, out = c :: more ∧ p.Rewrites word (c :: behind) rest taken more := by
  generalize htext : c :: rest = text at h
  cases h with
  | nil => cases htext
  | keep none more =>
      obtain ⟨rfl, rfl⟩ := List.cons.inj htext
      exact ⟨_, rfl, more⟩
  | take nonempty fits more => exact absurd fits (hnone _ _ htext)

/-! ## Reading over the beginning of a match -/

variable {whole : List Char}

/-- What begins before a match and goes on over its beginning is not read in the text. -/
def Bars (p : Pattern) (whole : List Char) : Prop :=
  ∀ ⦃behind part rest x y⦄, p.Fits behind part rest → whole = x ++ y → x ≠ [] → y ≠ [] →
    x.reverse <+: behind → ¬y <+: part ++ rest

/-- What begins before a match and goes on over its beginning is not read in the text that is left. -/
def BarsOut (p : Pattern) (word whole : List Char) : Prop :=
  ∀ ⦃behind part rest taken out x y⦄, p.Fits behind part rest →
    p.Rewrites word (part.reverse ++ behind) rest taken out → whole = x ++ y → x ≠ [] → y ≠ [] →
    x.reverse <+: behind → ¬y <+: word ++ out

theorem prefix_of_prefix_out (h : p.Rewrites word behind text taken out) (hbars : BarsOut p word whole)
    {x y : List Char} (hwhole : whole = x ++ y) (hx : x ≠ []) (hbehind : x.reverse <+: behind)
    (hy : y <+: out) : y <+: text := by
  induction h generalizing x y with
  | nil => exact hy
  | @keep behind rest out taken c none more ih =>
      cases y with
      | nil => exact List.nil_prefix
      | cons d y =>
          obtain ⟨rfl, htail⟩ := List.cons_prefix_cons.1 hy
          rw [List.cons_prefix_cons]
          refine ⟨rfl, @ih (x ++ [d]) y (by simp [hwhole]) (by simp) ?_ htail⟩
          simpa using hbehind
  | take nonempty fits more ih =>
      by_cases hnil : y = []
      · rw [hnil]
        exact List.nil_prefix
      · exact absurd hy (hbars fits more hwhole hx hnil hbehind)

theorem prefix_out_of_prefix (h : p.Rewrites word behind text taken out) (hbars : Bars p whole)
    {x y : List Char} (hwhole : whole = x ++ y) (hx : x ≠ []) (hbehind : x.reverse <+: behind)
    (hy : y <+: text) : y <+: out := by
  induction h generalizing x y with
  | nil => exact hy
  | @keep behind rest out taken c none more ih =>
      cases y with
      | nil => exact List.nil_prefix
      | cons d y =>
          obtain ⟨rfl, htail⟩ := List.cons_prefix_cons.1 hy
          rw [List.cons_prefix_cons]
          refine ⟨rfl, @ih (x ++ [d]) y (by simp [hwhole]) (by simp) ?_ htail⟩
          simpa using hbehind
  | take nonempty fits more ih =>
      by_cases hnil : y = []
      · rw [hnil]
        exact List.nil_prefix
      · exact absurd hy (hbars fits hwhole hx hnil hbehind)

theorem prefix_keep_iff {c : Char} {rest more : List Char} (h : p.Rewrites word (c :: behind) rest taken more)
    (hbars : Bars p whole) (hbarsOut : BarsOut p word whole) (hwhole : whole ≠ []) :
    whole <+: c :: rest ↔ whole <+: c :: more := by
  obtain ⟨d, tail, rfl⟩ := List.exists_cons_of_ne_nil hwhole
  rw [List.cons_prefix_cons, List.cons_prefix_cons, and_congr_right_iff]
  rintro rfl
  have hd : [d].reverse <+: d :: behind := List.prefix_append [d] behind
  constructor
  · exact h.prefix_out_of_prefix hbars (List.singleton_append).symm (List.cons_ne_nil d []) hd
  · exact h.prefix_of_prefix_out hbarsOut (List.singleton_append).symm (List.cons_ne_nil d []) hd

/-- A word that reaches over no end of a match stands as often in the text as in the matches that are taken
and in the text that is left. -/
theorem times_add_sum (h : p.Rewrites word behind text taken out) (hwhole : whole ≠ [])
    (hbars : Bars p whole) (hbarsOut : BarsOut p word whole)
    (hclose : ∀ ⦃behind part rest⦄, p.Fits behind part rest → Severed whole part rest)
    (hword : ∀ back, Severed whole word back) (hnone : ¬whole <:+: word) :
    times whole out + (taken.map (times whole)).sum = times whole text := by
  induction h with
  | nil => rfl
  | @keep behind rest out taken c none more ih =>
      rw [times_cons, times_cons, ← ih]
      simp only [more.prefix_keep_iff hbars hbarsOut hwhole]
      omega
  | @take behind part rest out taken nonempty fits more ih =>
      rw [(hword out).times_append hwhole, (hclose fits).times_append hwhole, List.map_cons, List.sum_cons, ← ih,
        (times_eq_zero_iff hwhole).2 hnone]
      omega

/-- What stands behind a place where no word goes on in the text that is left stands so in the text too, and no
match begins there. -/
theorem exists_standing (h : p.Rewrites word behind text taken out) (hwhole : whole ≠ [])
    (hbarsOut : BarsOut p word whole) (hinside : ∀ x y back, word = x ++ y → y ≠ [] → ¬whole <+: y ++ back)
    (hclose : ∀ ⦃behind part rest⦄, p.Fits behind part rest → part.getLast?.any isWord = false)
    {seen front back : List Char} (hout : out = front ++ (whole ++ back))
    (hseen : seen.head?.any isWord = false → behind.head?.any isWord = false)
    (hfront : (front.reverse ++ seen).head?.any isWord = false) :
    ∃ front back, text = front ++ (whole ++ back) ∧ (front.reverse ++ behind).head?.any isWord = false ∧
      ∀ part after, whole ++ back = part ++ after → ¬p.Fits (front.reverse ++ behind) part after := by
  induction h generalizing seen front with
  | nil =>
      have hnil := List.append_eq_nil_iff.1 (List.append_eq_nil_iff.1 hout.symm).2
      exact absurd hnil.1 hwhole
  | @keep behind rest out taken c none more ih =>
      cases front with
      | nil =>
          obtain ⟨d, tail, rfl⟩ := List.exists_cons_of_ne_nil hwhole
          obtain ⟨rfl, rfl⟩ := List.cons.inj hout
          have htail : tail <+: rest :=
            more.prefix_of_prefix_out hbarsOut (List.singleton_append).symm (List.cons_ne_nil c [])
              (List.prefix_append [c] behind) (List.prefix_append tail back)
          obtain ⟨after, rfl⟩ := htail
          exact ⟨[], after, rfl, hseen hfront, none⟩
      | cons d front =>
          obtain ⟨rfl, hmore⟩ := List.cons.inj hout
          obtain ⟨front', back', rfl, hnonword, hnone⟩ :=
            @ih (c :: seen) front hmore (fun hc => hc) (by simpa using hfront)
          exact ⟨c :: front', back', rfl, by simpa using hnonword, by simpa using hnone⟩
  | @take behind part rest out taken nonempty fits more ih =>
      have hlast : (part.reverse ++ behind).head?.any isWord = false := by
        rw [List.head?_append_of_ne_nil _ (by simpa using nonempty), List.head?_reverse]
        exact hclose fits
      rcases List.append_eq_append_iff.1 hout with ⟨front', rfl, hmore⟩ | ⟨inner, rfl, hinner⟩
      · obtain ⟨front', back', rfl, hnonword, hnone⟩ :=
          @ih (word.reverse ++ seen) front' hmore (fun _ => hlast) (by simpa using hfront)
        exact ⟨part ++ front', back', by simp, by simpa using hnonword, by simpa using hnone⟩
      · by_cases hnil : inner = []
        · subst hnil
          rw [List.append_nil] at *
          obtain ⟨front', back', rfl, hnonword, hnone⟩ :=
            @ih (front.reverse ++ seen) [] hinner.symm (fun _ => hlast) (by simpa using hfront)
          exact ⟨part ++ front', back', by simp, by simpa using hnonword, by simpa using hnone⟩
        · exact absurd ⟨back, hinner⟩ (hinside front inner out rfl hnil)

end Rewrites

end Pattern

end ComponentBuilder.Text
