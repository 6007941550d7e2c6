import ComponentBuilder.Agent.LoosePlan
import ComponentBuilder.Proofs.Agent.Spacing
import ComponentBuilder.Proofs.History.Saved
import ComponentBuilder.Proofs.Json.Literal
import ComponentBuilder.Proofs.Number.Shortest
import ComponentBuilder.Proofs.Text.Captures

/-!
# Plans from loosely shaped answers

Every answer stands for a plan, whatever the kinds of its fields are, except an answer whose own intent is a text
of blanks: it holds, so the intent that was asked for does not stand in for it, and no plan has a blank intent.
-/

namespace ComponentBuilder

open Schema

namespace Text

theorem isEmpty_strip_iff {text : String} : (strip text).isEmpty = true ↔ ∀ c ∈ text.toList, isBlank c = true := by
  rw [String.isEmpty_iff, ← String.toList_inj, strip, String.toList_ofList]
  constructor
  · intro h
    obtain ⟨before, after, htext, hbefore, hafter⟩ := Agent.exists_trim_eq text.toList
    change trim text.toList = [] at h
    rw [h, List.nil_append] at htext
    intro c hc
    rw [htext] at hc
    exact (List.mem_append.1 hc).elim (hbefore c) (hafter c)
  · exact trim_eq_nil

end Text

namespace Agent.LoosePlan

variable {data : Json} {asked : String} {names : List String} {plan : Plan}

/-! ## Texts of an answer -/

/-- The texts that an answer gives under the first of the names that it has. -/
def given (data : Json) (names : List String) : List Json :=
  match names.findSome? data.field? with
  | some (.arr items) => items.map written
  | some (.str s) => [.str s]
  | some .torn => [.torn]
  | _ => []

/-- Of the given texts those are listed that are not blank. -/
theorem listed_eq (data : Json) (names : List String) : listed data names = (given data names).filter hasText := by
  unfold listed given
  cases names.findSome? data.field? with
  | none => rfl
  | some value => cases value <;> rfl

theorem written_cases (value : Json) :
    value = .torn ∧ written value = .torn ∨ value ≠ .torn ∧ written value = .str value.displayText := by
  cases value <;> simp [written]

theorem given_cases {value : Json} (h : value ∈ given data names) : value = .torn ∨ ∃ s, value = .str s := by
  unfold given at h
  split at h
  · obtain ⟨item, -, rfl⟩ := List.mem_map.1 h
    exact (written_cases item).imp And.right fun hitem => ⟨_, hitem.2⟩
  · exact .inr ⟨_, List.mem_singleton.1 h⟩
  · exact .inl (List.mem_singleton.1 h)
  · cases h

theorem hasText_str {s : String} : hasText (.str s) = true ↔ ∃ c ∈ s.toList, Text.isBlank c = false := by
  rw [hasText, Bool.not_eq_true', ← Bool.not_eq_true, Text.isEmpty_strip_iff]
  push Not
  simp only [Bool.not_eq_true]

/-- A double is written with a digit, a sign or a letter in front. -/
theorem exists_solid_displayText (x : Double) : ∃ c ∈ x.displayText.toList, Text.isBlank c = false := by
  have hlaid : ∃ c ∈ (NumberStyle.display.layOut x.shortest).toList, Text.isBlank c = false := by
    obtain ⟨c, rest, htext, hdigit⟩ := Double.head_layOut .display x.shortest
    exact ⟨c, by rw [htext]; exact List.mem_cons_self, Text.isBlank_eq_false_of_isDigit hdigit⟩
  have hsigned {text : String} (h : ∃ c ∈ text.toList, Text.isBlank c = false) :
      ∃ c ∈ (x.signed text).toList, Text.isBlank c = false := by
    obtain ⟨c, hc, hsolid⟩ := h
    refine ⟨c, ?_, hsolid⟩
    unfold Double.signed
    split
    · rw [String.toList_append]
      exact List.mem_append_right _ hc
    · exact hc
  unfold Double.displayText
  split
  · exact ⟨'n', by decide, by decide⟩
  · split
    · exact hsigned hlaid
    · exact hsigned ⟨'i', by decide, by decide⟩

/-- What holds without being a text has a notation that is not blank. -/
theorem exists_solid_notated {value : Json} (hholds : value.holds = true) (hstr : ∀ s, value ≠ .str s) :
    ∃ c ∈ value.notated, Text.isBlank c = false := by
  cases value with
  | null => cases hholds
  | bool b =>
      cases b with
      | false => cases hholds
      | true => exact ⟨'T', by decide, by decide⟩
  | int n =>
      obtain ⟨c, chars, htext, hc⟩ := Json.head_toString n
      refine ⟨c, by rw [Json.notated, htext]; exact List.mem_cons_self, ?_⟩
      rcases hc with rfl | hdigit
      · decide
      · exact Text.isBlank_eq_false_of_isDigit hdigit
  | double x =>
      rw [Json.notated]
      exact exists_solid_displayText x
  | str s => exact absurd rfl (hstr s)
  | torn => exact ⟨'\'', by decide, by decide⟩
  | arr items =>
      refine ⟨'[', ?_, by decide⟩
      cases items <;> simp [Json.notated]
  | obj fields =>
      refine ⟨'\x7b', ?_, by decide⟩
      cases fields <;> simp [Json.notated]

theorem hasText_written {value : Json} (hholds : value.holds = true) (hstr : ∀ s, value ≠ .str s) :
    hasText (written value) = true := by
  have hsolid : hasText (.str (String.ofList value.notated)) = true := by
    rw [hasText_str, String.toList_ofList]
    exact exists_solid_notated hholds hstr
  cases value with
  | str s => exact absurd rfl (hstr s)
  | torn => rfl
  | _ => exact hsolid

/-! ## Checks of texts -/

theorem string_eq_accepted_iff {value : Json} {s : String} : string value = .accepted s ↔ value = .str s := by
  cases value <;> simp [string, Checked.refuse]

theorem list_string_eq_accepted_iff {values : List Json} {texts : List String} :
    list string (.arr values) = .accepted texts ↔ values = texts.map .str := by
  constructor
  · have hitems {place : Nat} (h : itemsFrom (fun _ => string) place values = .accepted texts) :
        values = texts.map .str := by
      induction values generalizing place texts with
      | nil =>
          cases h
          rfl
      | cons value values ih =>
          obtain ⟨_, rest, hfirst, hrest, rfl⟩ := Checked.seq_eq_accepted h
          obtain ⟨s, hs, rfl⟩ := Checked.map_eq_accepted hfirst
          rw [string_eq_accepted_iff.1 (Checked.within_eq_accepted hs), ih hrest, List.map_cons]
    exact hitems
  · rintro rfl
    exact Plan.list_string texts

/-- An intent of nothing but blanks is refused. -/
theorem checkIntent_of_blank {s : String} (hne : s ≠ "") (h : hasText (.str s) = false) :
    Plan.checkIntent (.str s) = .refuse (.rejected "Plan intent cannot be empty") := by
  rw [hasText, Bool.not_eq_false'] at h
  have hlength : ¬ s.length < 1 := fun hshort => hne (String.length_eq_zero_iff.1 (Nat.lt_one_iff.1 hshort))
  simp only [Plan.checkIntent, sizedString, string, Checked.bind_accepted, Option.any_none, Bool.false_eq_true,
    if_false, hlength, h, if_true]

/-! ## Plans -/

/-- An answer has an intent of its own that is nothing but blanks. -/
def BlankIntent (data : Json) : Prop :=
  ∃ s, data.field "intent" = .str s ∧ s ≠ "" ∧ Text.strip s = ""

/-- None of the texts that a plan takes from an answer is torn. -/
structure Whole (data : Json) : Prop where
  intent : data.field "intent" ≠ .torn
  steps : .torn ∉ given data ["steps"]
  layoutStrategy : text data ["layoutStrategy", "layout_strategy"] ≠ .torn
  explanation : text data ["explanation"] ≠ .torn

/-- The names that an answer gives for components. -/
def givenNames (data : Json) : List String :=
  (given data ["components", "componentsToUse"]).filterMap Json.str?

/-- A plan holds what an answer gives, and the intent that was asked for where the answer's own does not hold. -/
structure Follows (plan : Plan) (data : Json) (asked : String) : Prop where
  intent : plan.intent =
    Text.strip (if (data.field "intent").holds then (data.field "intent").displayText else asked)
  stripped : Text.strip plan.intent = plan.intent
  nonempty : plan.intent ≠ ""
  steps : plan.steps.map .str = (given data ["steps"]).filter hasText
  solid : ∀ step ∈ plan.steps, Text.strip step ≠ ""
  components : ∀ name, name ∈ plan.components ↔ name ∈ Vocabulary.planComponents ∧ name ∈ givenNames data
  distinct : plan.components.Nodup
  order : plan.components.Pairwise fun a b => (givenNames data).idxOf a < (givenNames data).idxOf b
  layoutStrategy : .str plan.layoutStrategy = text data ["layoutStrategy", "layout_strategy"]
  explanation : .str plan.explanation = text data ["explanation"]

theorem plan_eq (data : Json) (asked : String) : LoosePlan.plan data asked =
    Plan.mk <$> (Plan.checkIntent (intent data asked)).within (.key "intent")
      <*> (list string (.arr (listed data ["steps"]))).within (.key "steps")
      <*> (Plan.checkComponents (.arr ((knownComponents
          (listed data ["components", "componentsToUse"])).map .str))).within (.key "components")
      <*> (string (text data ["layoutStrategy", "layout_strategy"])).within (.key "layout_strategy")
      <*> (string (text data ["explanation"])).within (.key "explanation") :=
  rfl

/-- The components of a plan are the given names that pass a test, each where it comes first. -/
theorem knownComponents_listed (data : Json) :
    knownComponents (listed data ["components", "componentsToUse"]) =
      Text.distinct ((givenNames data).filter fun name =>
        Vocabulary.planComponents.contains name && hasText (.str name)) := by
  have hfilter (values : List Json) : (values.filter hasText).filterMap Json.str? =
      (values.filterMap Json.str?).filter fun name => hasText (.str name) := by
    rw [List.filterMap_filter, List.filter_filterMap]
    congr 1
    funext value
    cases value <;> simp [Json.str?, Option.filter]
  rw [knownComponents, listed_eq, hfilter, List.filter_filter, givenNames]

theorem mem_knownComponents {name : String} :
    name ∈ knownComponents (listed data ["components", "componentsToUse"]) ↔
      name ∈ Vocabulary.planComponents ∧ name ∈ givenNames data := by
  have hsolid : ∀ name ∈ Vocabulary.planComponents, hasText (.str name) = true := by decide
  rw [knownComponents_listed, Text.mem_distinct, List.mem_filter, Bool.and_eq_true, List.contains_iff_mem]
  exact ⟨fun ⟨hgiven, hknown, _⟩ => ⟨hknown, hgiven⟩, fun ⟨hknown, hgiven⟩ => ⟨hgiven, hknown, hsolid name hknown⟩⟩

theorem checkComponents_knownComponents (data : Json) :
    Plan.checkComponents (.arr ((knownComponents (listed data ["components", "componentsToUse"])).map .str)) =
      .accepted (knownComponents (listed data ["components", "componentsToUse"])) :=
  Plan.checkComponents_of_mem fun _ hname => (mem_knownComponents.1 hname).1

/-- Without torn texts a list is a list of strings. -/
theorem exists_listed_eq (h : .torn ∉ given data names) :
    ∃ texts : List String, listed data names = texts.map .str := by
  rw [listed_eq]
  have hall : ∀ value ∈ (given data names).filter hasText, ∃ s, value = Json.str s := by
    intro value hvalue
    have hgiven := List.mem_of_mem_filter hvalue
    rcases given_cases hgiven with rfl | hstr
    · exact absurd hgiven h
    · exact hstr
  generalize (given data names).filter hasText = values at hall
  induction values with
  | nil => exact ⟨[], rfl⟩
  | cons value values ih =>
      obtain ⟨s, rfl⟩ := hall value List.mem_cons_self
      obtain ⟨texts, htexts⟩ := ih fun other hother => hall other (List.mem_cons_of_mem _ hother)
      exact ⟨s :: texts, by rw [htexts, List.map_cons]⟩

theorem exists_text_eq (h : text data names ≠ .torn) : ∃ s, text data names = .str s := by
  unfold text at h ⊢
  cases hfield : names.findSome? data.field? with
  | none => exact ⟨"", rfl⟩
  | some value =>
      rw [hfield] at h
      dsimp only at h ⊢
      split
      · next hholds =>
          rw [if_pos hholds] at h
          rcases written_cases value with ⟨-, htorn⟩ | ⟨-, hstr⟩
          · exact absurd htorn h
          · exact ⟨_, hstr⟩
      · exact ⟨"", rfl⟩

/-- The intent of an answer is torn, or all blanks, or not blank. -/
theorem intent_cases (data : Json) {asked : String} (hasked : Text.strip asked ≠ "") :
    data.field "intent" = .torn ∧ intent data asked = .torn ∨
      BlankIntent data ∧ (∃ s, s ≠ "" ∧ Text.strip s = "" ∧ intent data asked = .str s) ∨
      data.field "intent" ≠ .torn ∧ ¬BlankIntent data ∧
        ∃ s, intent data asked = .str s ∧ (Text.strip s).isEmpty = false ∧
          s = if (data.field "intent").holds then (data.field "intent").displayText else asked := by
  have hempty {text : String} : text ≠ "" → text.isEmpty = false := by simp
  unfold intent BlankIntent
  generalize data.field "intent" = own
  by_cases hholds : own.holds = true
  · rw [if_pos hholds, if_pos hholds]
    rcases written_cases own with ⟨htorn, hwritten⟩ | ⟨htorn, hwritten⟩
    · exact .inl ⟨htorn, hwritten⟩
    · by_cases hstr : ∃ s, own = .str s
      · obtain ⟨s, rfl⟩ := hstr
        have hne : s ≠ "" := by
          rintro rfl
          cases hholds
        by_cases hblank : Text.strip s = ""
        · exact .inr (.inl ⟨⟨s, rfl, hne, hblank⟩, s, hne, hblank, hwritten⟩)
        · refine .inr (.inr ⟨htorn, ?_, s, hwritten, hempty hblank, rfl⟩)
          rintro ⟨other, hother, -, hstrip⟩
          cases hother
          exact hblank hstrip
      · have htext := hasText_written hholds fun s hs => hstr ⟨s, hs⟩
        rw [hwritten, hasText, Bool.not_eq_true'] at htext
        exact .inr (.inr ⟨htorn, fun ⟨s, hs, _⟩ => hstr ⟨s, hs⟩, _, hwritten, htext, rfl⟩)
  · rw [if_neg hholds, if_neg hholds]
    refine .inr (.inr ⟨?_, ?_, asked, rfl, hempty hasked, rfl⟩)
    · rintro rfl
      exact hholds rfl
    · rintro ⟨s, rfl, hne, -⟩
      exact hholds (by simpa [Json.holds] using hne)

/-- Where a plan is accepted, no text that it takes is torn. -/
theorem whole_of_accepted (h : LoosePlan.plan data asked = .accepted plan) : Whole data := by
  rw [plan_eq] at h
  obtain ⟨_, explanation, hrest, hexplanation, -⟩ := Checked.seq_eq_accepted h
  obtain ⟨_, layout, hrest, hlayout, -⟩ := Checked.seq_eq_accepted hrest
  obtain ⟨_, names, hrest, -, -⟩ := Checked.seq_eq_accepted hrest
  obtain ⟨_, steps, hrest, hsteps, -⟩ := Checked.seq_eq_accepted hrest
  obtain ⟨own, hown, -⟩ := Checked.map_eq_accepted hrest
  rw [listed_eq] at hsteps
  have hsteps := list_string_eq_accepted_iff.1 (Checked.within_eq_accepted hsteps)
  refine ⟨?_, ?_, ?_, ?_⟩
  · intro htorn
    rw [intent, htorn] at hown
    cases hown
  · intro htorn
    have hmem : Json.torn ∈ steps.map .str := by
      rw [← hsteps]
      exact List.mem_filter.2 ⟨htorn, rfl⟩
    obtain ⟨s, -, hs⟩ := List.mem_map.1 hmem
    cases hs
  · rw [string_eq_accepted_iff.1 (Checked.within_eq_accepted hlayout)]
    exact Json.noConfusion
  · rw [string_eq_accepted_iff.1 (Checked.within_eq_accepted hexplanation)]
    exact Json.noConfusion

/-- Without torn texts a plan is accepted as soon as its intent is. -/
theorem Whole.exists_plan_eq (h : Whole data) (asked : String) : ∃ steps layout explanation,
    steps.map .str = listed data ["steps"] ∧ .str layout = text data ["layoutStrategy", "layout_strategy"] ∧
      .str explanation = text data ["explanation"] ∧
      LoosePlan.plan data asked =
        (fun own => ⟨own, steps, knownComponents (listed data ["components", "componentsToUse"]), layout,
          explanation⟩) <$> (Plan.checkIntent (LoosePlan.intent data asked)).within (.key "intent") := by
  obtain ⟨steps, hsteps⟩ := exists_listed_eq h.steps
  obtain ⟨layout, hlayout⟩ := exists_text_eq h.layoutStrategy
  obtain ⟨explanation, hexplanation⟩ := exists_text_eq h.explanation
  refine ⟨steps, layout, explanation, hsteps.symm, hlayout.symm, hexplanation.symm, ?_⟩
  rw [plan_eq, hsteps, hlayout, hexplanation, Plan.list_string, checkComponents_knownComponents]
  cases (Plan.checkIntent (LoosePlan.intent data asked)).within (.key "intent") <;> rfl

/-- An answer whose own intent is nothing but blanks is refused for that alone. -/
theorem Whole.plan_of_blankIntent (h : Whole data) (hasked : Text.strip asked ≠ "") (hintent : BlankIntent data) :
    LoosePlan.plan data asked = .refused [⟨.rejected "Plan intent cannot be empty", [.key "intent"]⟩] := by
  obtain ⟨steps, layout, explanation, -, -, -, hplan⟩ := h.exists_plan_eq asked
  rcases intent_cases data hasked with ⟨htorn, -⟩ | ⟨-, s, hne, hstrip, hown⟩ | ⟨-, hnot, -⟩
  · exact absurd htorn h.intent
  · rw [hplan, hown, checkIntent_of_blank hne (by rw [hasText, hstrip]; rfl)]
    rfl
  · exact absurd hintent hnot

/-- No text that is listed as a step is blank. -/
theorem strip_ne_of_mem_steps {steps : List String} (h : steps.map .str = (given data names).filter hasText)
    {step : String} (hstep : step ∈ steps) : Text.strip step ≠ "" := by
  have hmem : Json.str step ∈ (given data names).filter hasText := by
    rw [← h]
    exact List.mem_map_of_mem hstep
  simpa [hasText] using (List.mem_filter.1 hmem).2

/-- Any other answer stands for a plan that holds what it gives. -/
theorem Whole.exists_follows (h : Whole data) (hasked : Text.strip asked ≠ "") (hintent : ¬BlankIntent data) :
    ∃ plan, LoosePlan.plan data asked = .accepted plan ∧ Follows plan data asked := by
  obtain ⟨steps, layout, explanation, hsteps, hlayout, hexplanation, hplan⟩ := h.exists_plan_eq asked
  rcases intent_cases data hasked with ⟨htorn, -⟩ | ⟨hblank, -⟩ | ⟨-, -, s, hown, hsolid, hs⟩
  · exact absurd htorn h.intent
  · exact absurd hblank hintent
  · rw [hown, Plan.checkIntent_of_strip hsolid] at hplan
    rw [listed_eq] at hsteps
    have horder : (knownComponents (listed data ["components", "componentsToUse"])).Pairwise
        fun a b => (givenNames data).idxOf a < (givenNames data).idxOf b := by
      rw [knownComponents_listed]
      exact Text.pairwise_distinct _ _
    exact ⟨_, hplan, {
      intent := by rw [hs]
      stripped := Text.strip_strip s
      nonempty := by simpa using hsolid
      steps := hsteps
      solid := fun _ => strip_ne_of_mem_steps hsteps
      components := fun _ => mem_knownComponents
      distinct := horder.imp fun hlt heq => absurd (heq ▸ hlt) (lt_irrefl _)
      order := horder
      layoutStrategy := hlayout
      explanation := hexplanation }⟩

/-- An answer whose fields have other kinds, another name and superfluous entries. -/
def looseAnswer : Json :=
  .obj [("intent", .int 5), ("steps", .arr [.str "one", .str "  ", .null]),
    ("componentsToUse", .arr [.str "Stack", .str "Nope", .str "Card", .str "Stack"]), ("explanation", .bool false)]

end Agent.LoosePlan

end ComponentBuilder
