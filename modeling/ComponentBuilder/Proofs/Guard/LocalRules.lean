import ComponentBuilder.Guard.Validator
import ComponentBuilder.Proofs.Guard.PatternChecks
import ComponentBuilder.Proofs.Text.Captures
import ComponentBuilder.Proofs.Text.Span

/-!
# The rules that look within a tag

Sinks, script tags, styles and capitalised tags are local findings.  A rule on them is silent exactly when
nothing of their kinds is found in the text.
-/

namespace ComponentBuilder

open Text

namespace Guard

/-! ## Sinks, script tags and styles -/

theorem local_of_mem_sinks : ∀ sink ∈ sinks, Local sink.2.Fits := by
  have hchecks : ∀ sink ∈ sinks, sink.2.takes = true ∧ sink.2.contextual = true ∧
      sink.2.avoids '>' = true ∧ sink.2.avoids '/' = true ∧ sink.2.avoids '<' = true := by
    decide
  intro sink hsink
  obtain ⟨htakes, hcontext, hclose, hslash, hopen⟩ := hchecks sink hsink
  exact Pattern.local_of_avoids htakes hcontext hclose hslash hopen

theorem local_stylePattern : Local stylePattern.Fits :=
  Pattern.local_of_avoids (by decide) (by decide) (by decide) (by decide) (by decide)

theorem local_tagPattern {tag : String} (hclose : (tagPattern tag).avoids '>' = true)
    (hslash : (tagPattern tag).avoids '/' = true) (hcontext : (tagPattern tag).contextual = true)
    (hopen : (Pattern.anyCase tag).avoids '<' = true) : Local (tagPattern tag).Fits := by
  refine Pattern.local_of_blind rfl rfl hcontext hclose hslash ?_
  rintro behind part rest ⟨first, last, rfl, ⟨front, name, rfl, ⟨bracket, blanks, rfl, ⟨c, rfl, -⟩, hblanks⟩,
    hname⟩, rfl, -⟩
  have hblank : '<' ∉ blanks := by
    intro hmem
    exact absurd (hblanks.2 _ hmem) (by decide)
  have htag := Pattern.not_mem_of_avoids hopen hname
  simp [hblank, htag]

/-! ## Capitalised tags -/

/-- A character of a tag's name, as the rules read it. -/
def isTagWord (c : Char) : Bool :=
  isWord c || c == '.'

/-- A capitalised tag, read to the end of its name, that is not in the vocabulary. -/
def StrangeTag : Finding :=
  fun _ part rest => ∃ c name, part = '<' :: c :: name ∧ c.isUpper = true ∧
    (∀ d ∈ name, isTagWord d = true) ∧ Stops isTagWord rest ∧
    Vocabulary.tags.contains (String.ofList (c :: name)) = false

theorem isTagWord_of_isUpper {c : Char} (h : c.isUpper = true) : isTagWord c = true := by
  have halpha : c.isAlpha = true := Bool.or_eq_true_iff.2 (.inl h)
  simp [isTagWord, isWord_of_isAlpha halpha]

theorem isTagWord_eq_false_of_isBoundary {c : Char} (h : isBoundary c = true) :
    isTagWord c = false := by
  simp only [isBoundary, Bool.or_eq_true, beq_iff_eq] at h
  rcases h with ((rfl | rfl) | rfl) | rfl <;> decide

theorem not_mem_tagName {c d : Char} {name : List Char} (hupper : c.isUpper = true)
    (hname : ∀ d ∈ name, isTagWord d = true) (hd : isBoundary d = true) : d ∉ c :: name := by
  intro hmem
  rcases List.mem_cons.1 hmem with rfl | hmem
  · simp only [isBoundary, Bool.or_eq_true, beq_iff_eq] at hd
    rcases hd with ((rfl | rfl) | rfl) | rfl <;> exact absurd hupper (by decide)
  · have hinside := hname d hmem
    rw [isTagWord_eq_false_of_isBoundary hd] at hinside
    cases hinside

theorem local_strangeTag : Local StrangeTag := by
  refine ⟨?_, ?_, ?_, ?_⟩
  · rintro behind part rest ⟨c, name, rfl, -⟩
    simp
  · rintro behind part rest ⟨c, name, rfl, hupper, hname, -⟩
    have hnot := fun d => @not_mem_tagName c d name hupper hname
    exact ⟨by simpa using hnot '>' rfl, by simpa using hnot '/' rfl, hnot '<' rfl⟩
  · rintro behind behind' part rest rest' ⟨c, name, rfl, hupper, hname, hstops, htags⟩ - hrest
    refine ⟨c, name, rfl, hupper, hname, ?_, htags⟩
    have hany := Pattern.any_eq_of_sameSide (fun c => @isTagWord_eq_false_of_isBoundary c) hrest
    have hnone : rest.head?.any isTagWord = false := by
      cases hhead : rest.head? with
      | none => rfl
      | some d => exact hstops d hhead
    intro d hd
    rw [hnone, hd] at hany
    exact hany.symm
  · intro behind part rest behind' h
    exact h

theorem componentPattern_eq : componentPattern =
    .seq (.one (· == '<')) (.capture (.seq (.one Char.isUpper) (.many 0 isTagWord))) := rfl

theorem matchAt?_componentPattern {behind rest name : List Char} {c : Char} {offset : Nat}
    (hupper : c.isUpper = true) (hname : ∀ d ∈ name, isTagWord d = true)
    (hrest : Stops isTagWord rest) :
    componentPattern.matchAt? ⟨behind, offset, '<' :: c :: (name ++ rest), []⟩ =
      some (Pattern.after behind offset ('<' :: c :: name) rest (c :: name)) := by
  have htake := takeWhile_append_stops hname hrest
  have hdrop := dropWhile_append_stops hname hrest
  have hretreat {α : Type} (k : Spot → Option α) (extra : Nat) (spot : Spot) (result : α)
      (hk : k spot = some result) : Pattern.retreat k extra spot = some result := by
    cases extra with
    | zero => exact hk
    | succ extra => rw [Pattern.retreat, hk]
  rw [componentPattern_eq]
  simp only [Pattern.matchAt?, Pattern.run, Spot.skipWhile, Pattern.skipFrom_eq, Spot.next, List.head?_cons,
    Option.any_some, beq_self_eq_true, if_true, hupper, htake, hdrop, Nat.zero_le]
  apply hretreat
  have hcount : offset + 1 + 1 + name.length - (offset + 1) = (c :: name).length := by
    rw [List.length_cons]
    omega
  have hcaptured : (c :: (name ++ rest)).take (c :: name).length = c :: name := List.take_left
  simp only [Pattern.after, Spot.textTo, hcount, hcaptured]
  simp [Nat.add_assoc, Nat.add_comm 2]

theorem matchAt?_componentPattern_eq_none {behind text : List Char} {offset : Nat}
    (h : ∀ c rest, text = '<' :: c :: rest → c.isUpper = false) :
    componentPattern.matchAt? ⟨behind, offset, text, []⟩ = none := by
  cases hmatch : componentPattern.matchAt? ⟨behind, offset, text, []⟩ with
  | none => rfl
  | some last =>
      obtain ⟨part, rest, rfl, hfits⟩ :=
        Pattern.isSome_matchAt?_iff.1 (Option.isSome_of_eq_some hmatch)
      rw [componentPattern_eq] at hfits
      obtain ⟨front, back, rfl, ⟨bracket, rfl, hbracket⟩, ⟨upper, name, rfl, ⟨c, rfl, hupper⟩, -⟩⟩ := hfits
      obtain rfl : bracket = '<' := by simpa using hbracket
      rw [h c (name ++ rest) rfl] at hupper
      cases hupper

/-- The capitalised tags that are captured are those of the text. -/
theorem mem_capturesFrom_componentPattern {captured behind text : List Char} {offset : Nat} :
    captured ∈ componentPattern.capturesFrom 0 behind offset text ↔
      ∃ a c name rest, text = a ++ '<' :: c :: (name ++ rest) ∧ captured = c :: name ∧
        c.isUpper = true ∧ (∀ d ∈ name, isTagWord d = true) ∧ Stops isTagWord rest := by
  induction hlength : text.length using Nat.strongRecOn generalizing text behind offset with
  | _ length ih =>
    by_cases htag : ∃ c rest, text = '<' :: c :: rest ∧ c.isUpper = true
    · obtain ⟨c, tail, rfl, hupper⟩ := htag
      obtain ⟨name, rest, rfl, hname, hrest⟩ : ∃ name rest, tail = name ++ rest ∧
          (∀ d ∈ name, isTagWord d = true) ∧ Stops isTagWord rest :=
        ⟨tail.takeWhile isTagWord, tail.dropWhile isTagWord, (List.takeWhile_append_dropWhile).symm,
          fun d hd => List.mem_takeWhile_imp hd, stops_dropWhile isTagWord tail⟩
      have hmatch := @matchAt?_componentPattern behind rest name c offset hupper hname hrest
      have hcaptures := @Pattern.capturesFrom_of_match _ behind ('<' :: c :: name) rest _ offset
        (by simp) hmatch
      simp only [List.cons_append] at hcaptures
      rw [hcaptures, List.mem_cons, ih rest.length (by simp at hlength; omega) rfl]
      constructor
      · rintro (rfl | ⟨a, d, more, back, rfl, hcaptured⟩)
        · exact ⟨[], c, name, rest, rfl, rfl, hupper, hname, hrest⟩
        · exact ⟨'<' :: c :: (name ++ a), d, more, back, by simp, hcaptured⟩
      · rintro ⟨a, d, more, back, htext, rfl, hd, hmore, hback⟩
        cases a with
        | nil =>
            obtain ⟨-, rfl, heq⟩ : '<' = '<' ∧ c = d ∧ name ++ rest = more ++ back := by simpa using htext
            have hsame := congrArg (List.takeWhile isTagWord) heq
            rw [takeWhile_append_stops hname hrest, takeWhile_append_stops hmore hback] at hsame
            exact .inl (by rw [hsame])
        | cons e a =>
            have htail : (c :: name) ++ rest = a ++ '<' :: d :: (more ++ back) := (List.cons.inj htext).2
            rcases List.append_eq_append_iff.1 htail with ⟨inner, rfl, hinner⟩ | ⟨inner, hinner, hrest'⟩
            · exact .inr ⟨inner, d, more, back, hinner, rfl, hd, hmore, hback⟩
            · cases inner with
              | nil => exact .inr ⟨[], d, more, back, hrest'.symm, rfl, hd, hmore, hback⟩
              | cons f inner =>
                  obtain rfl : '<' = f := (List.cons.inj hrest').1
                  have hangle := not_mem_tagName hupper hname (rfl : isBoundary '<' = true)
                  rw [hinner] at hangle
                  simp at hangle
    · have hnone : ∀ c rest, text = '<' :: c :: rest → c.isUpper = false := by
        intro c rest htext
        by_contra hupper
        exact htag ⟨c, rest, htext, by simpa using hupper⟩
      cases text with
      | nil => simp [Pattern.capturesFrom]
      | cons c text =>
          rw [Pattern.capturesFrom_of_none (matchAt?_componentPattern_eq_none hnone),
            ih text.length (by simp at hlength; omega) rfl]
          constructor
          · rintro ⟨a, d, name, rest, rfl, hcaptured⟩
            exact ⟨c :: a, d, name, rest, rfl, hcaptured⟩
          · rintro ⟨a, d, name, rest, htext, rfl, hd, hname, hrest⟩
            cases a with
            | nil =>
                have hupper := hnone d (name ++ rest) htext
                rw [hd] at hupper
                cases hupper
            | cons e a => exact ⟨a, d, name, rest, (List.cons.inj htext).2, rfl, hd, hname, hrest⟩

/-! ## What the local rules find -/

/-- The rules whose findings stay within a tag. -/
def Rule.staysLocal : Rule → Bool
  | .dangerousSink | .scriptTag | .inlineStyle | .componentWhitelist => true
  | .inlineHandler | .importWhitelist => false

/-- The kinds of findings of a local rule. -/
def Rule.findings : Rule → List Finding
  | .dangerousSink => sinks.map fun sink => sink.2.Fits
  | .scriptTag => [(tagPattern "script").Fits, (tagPattern "iframe").Fits]
  | .inlineStyle => [stylePattern.Fits]
  | .componentWhitelist => [StrangeTag]
  | .inlineHandler | .importWhitelist => []

theorem local_of_mem_findings {rule : Rule} : ∀ find ∈ rule.findings, Local find := by
  cases rule with
  | inlineHandler | importWhitelist => simp [Rule.findings]
  | dangerousSink =>
      intro find hfind
      obtain ⟨sink, hsink, rfl⟩ := List.mem_map.1 hfind
      exact local_of_mem_sinks sink hsink
  | scriptTag =>
      intro find hfind
      simp only [Rule.findings, List.mem_cons, List.not_mem_nil, or_false] at hfind
      rcases hfind with rfl | rfl
      · exact local_tagPattern (by decide) (by decide) (by decide) (by decide)
      · exact local_tagPattern (by decide) (by decide) (by decide) (by decide)
  | inlineStyle =>
      intro find hfind
      obtain rfl := List.mem_singleton.1 hfind
      exact local_stylePattern
  | componentWhitelist =>
      intro find hfind
      obtain rfl := List.mem_singleton.1 hfind
      exact local_strangeTag

theorem occurs_eq_false_iff {p : Pattern} {text : List Char} :
    p.occurs text = false ↔ ¬Found p.Fits text := by
  rw [← Bool.not_eq_true, Pattern.occurs_iff]
  rfl

/-- A local rule is silent exactly when none of its findings is in the text. -/
theorem check_eq_nil_iff {rule : Rule} (h : rule.staysLocal = true) {text : List Char} :
    rule.check text = [] ↔ ∀ find ∈ rule.findings, ¬Found find text := by
  cases rule with
  | inlineHandler | importWhitelist => cases h
  | dangerousSink =>
      have hnone : Rule.dangerousSink.check text = [] ↔
          ∀ sink ∈ sinks, sink.2.occurs text = false := by
        simp [Rule.check]
      rw [hnone]
      constructor
      · intro hsinks find hfind
        obtain ⟨sink, hsink, rfl⟩ := List.mem_map.1 hfind
        exact occurs_eq_false_iff.1 (hsinks sink hsink)
      · intro hfindings sink hsink
        exact occurs_eq_false_iff.2 (hfindings _ (List.mem_map_of_mem hsink))
  | scriptTag =>
      simp [Rule.check, Rule.findings, ← occurs_eq_false_iff]
  | inlineStyle =>
      simp [Rule.check, Rule.findings, ← occurs_eq_false_iff]
  | componentWhitelist =>
      have hnone : Rule.componentWhitelist.check text = [] ↔
          ∀ captured ∈ componentPattern.capturesFrom 0 [] 0 text,
            Vocabulary.tags.contains (String.ofList captured) = true := by
        simp only [Rule.check, List.map_eq_nil_iff, List.filter_eq_nil_iff, componentNames, mem_distinct,
          List.mem_map, ← Pattern.captures_eq]
        simp
      rw [hnone]
      constructor
      · intro hcaptured find hfind hfound
        obtain rfl := List.mem_singleton.1 hfind
        obtain ⟨a, part, rest, rfl, c, name, rfl, hupper, hname, hrest, htags⟩ := hfound
        have hknown := hcaptured (c :: name)
          (mem_capturesFrom_componentPattern.2 ⟨a, c, name, rest, rfl, rfl, hupper, hname, hrest⟩)
        rw [htags] at hknown
        cases hknown
      · intro hfindings captured hcaptured
        obtain ⟨a, c, name, rest, rfl, rfl, hupper, hname, hrest⟩ :=
          mem_capturesFrom_componentPattern.1 hcaptured
        by_contra hstrange
        rw [Bool.not_eq_true] at hstrange
        exact hfindings StrangeTag List.mem_cons_self
          ⟨a, '<' :: c :: name, rest, rfl, c, name, rfl, hupper, hname, hrest, hstrange⟩

end Guard

end ComponentBuilder
