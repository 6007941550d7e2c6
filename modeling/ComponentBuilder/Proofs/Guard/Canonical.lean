import ComponentBuilder.Proofs.Guard.Neutral

/-!
# What the guard finds in canonical code

What the rules find in canonical code they find in the text of the tree.  When the source passed the guard, that
is a string handler or an import that the markup spells, or something in an opening tag as the writer spells it.
-/

namespace ComponentBuilder.Guard

open Text Markup

theorem validate_ok_iff {strictness : Strictness} {source : String} :
    (validate strictness source).ok = true ↔ ∀ rule ∈ strictness.rules, rule.check source.toList = [] := by
  simp [validate, Report.ok, List.filter_eq_nil_iff]

/-- A report lists what every rule finds, in the order of the rules. -/
theorem violations_validate (strictness : Strictness) (source : String) :
    (validate strictness source).violations = strictness.rules.flatMap fun rule => rule.check source.toList := by
  have hfilter (findings : List (Rule × List Violation)) :
      (findings.filter (!·.2.isEmpty)).flatMap Prod.snd = findings.flatMap Prod.snd := by
    induction findings with
    | nil => rfl
    | cons finding findings ih =>
        rw [List.filter_cons, List.flatMap_cons, ← ih]
        split
        · rw [List.flatMap_cons]
        · next hempty =>
            have hnone : finding.2 = [] := by simpa using hempty
            rw [hnone, List.nil_append]
  rw [validate, Report.violations, hfilter, List.flatMap_map]

theorem validate_ok_iff_violations {strictness : Strictness} {source : String} :
    (validate strictness source).ok = true ↔ (validate strictness source).violations = [] := by
  rw [validate_ok_iff, violations_validate, List.flatMap_eq_nil_iff]

/-- What has to be so of the text of a tree for its canonical code to pass the guard after its source did. -/
structure WritesClean (strictness : Strictness) (root : Node) : Prop where
  /-- Nothing is in an opening tag as the writer spells it. -/
  tags : ∀ rule ∈ strictness.rules, rule.staysLocal = true →
    ∀ node ∈ root.descendants, rule.check (openingText node) = []
  handlers : Rule.inlineHandler.check root.render = []
  imports : strictness = .strict → Rule.importWhitelist.check root.render = []

/-- Canonical code of a source that passed the guard passes it exactly when the tree writes clean. -/
theorem validate_canonical_iff {strictness : Strictness} {name : Nat → String} {source : String}
    {canonical : Canonical} (haccepted : (validate strictness source).ok = true)
    (htransform : transform name defaultComponent source = .ok canonical) :
    (validate strictness canonical.code).ok = true ↔ WritesClean strictness canonical.tree := by
  unfold transform at htransform
  cases hread : readModule name source with
  | error fault => simp [hread] at htransform
  | ok root =>
      obtain rfl : ⟨root, moduleText root defaultComponent⟩ = canonical := by simpa [hread] using htransform
      unfold readModule at hread
      cases hbody : returnBody source.toList with
      | error fault => simp [hbody] at hread
      | ok body =>
          rw [hbody] at hread
          rw [validate_ok_iff] at haccepted ⊢
          simp only [check_moduleText]
          constructor
          · intro hroot
            refine ⟨fun rule hrule hlocal => ?_, ?_, ?_⟩
            · exact (check_render_eq_nil_iff hlocal (haccepted rule hrule) hbody hread).1 (hroot rule hrule)
            · apply hroot
              cases strictness <;> decide
            · rintro rfl
              exact hroot _ (by decide)
          · intro hclean rule hrule
            cases hlocal : rule.staysLocal with
            | true =>
                exact (check_render_eq_nil_iff hlocal (haccepted rule hrule) hbody hread).2
                  (hclean.tags rule hrule hlocal)
            | false =>
                cases rule with
                | inlineHandler => exact hclean.handlers
                | importWhitelist =>
                    apply hclean.imports
                    cases strictness with
                    | strict => rfl
                    | permissive => exact absurd hrule (by decide)
                | dangerousSink | scriptTag | inlineStyle | componentWhitelist => cases hlocal

end ComponentBuilder.Guard
