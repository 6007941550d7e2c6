import ComponentBuilder.Proofs.Build.Outcome
import ComponentBuilder.Proofs.Guard.Canonical

/-!
# What a build stores

The guard looks at code as it was generated, and what is stored is the canonical code of its tree.  That passes
the guard, too, exactly when the tree writes clean; code that cannot be read is stored as it passed.
-/

namespace ComponentBuilder.Guard

instance (strictness : Strictness) (root : Markup.Node) : Decidable (WritesClean strictness root) :=
  decidable_of_iff (_ ∧ _ ∧ _) ⟨fun ⟨tags, handlers, imports⟩ => ⟨tags, handlers, imports⟩,
    fun h => ⟨h.tags, h.handlers, h.imports⟩⟩

end ComponentBuilder.Guard

namespace ComponentBuilder.Build

open Agent (Agents)
open Agent.Prompt (PreviousPlan)
open Guard (Strictness validate WritesClean)
open History (Mint Store)
open Markup (Canonical Node)

variable {σ : Type}

/-! ## Builds on a closed store -/

theorem addMessage_of_closed {store : Store} (hclosed : store.closed = true) (file : Option String)
    (message : History.Message) : (store.addMessage file message).2 = .error .closed := by
  simp only [Store.addMessage, Store.write, hclosed, if_true]
  rfl

theorem produce_of_closed (agents : Agents σ) (strictness : Strictness) (mint : Mint) (file prompt : String)
    (previous : Option PreviousPlan) {site : Site σ} (hclosed : site.store.closed = true) :
    ((produce agents strictness mint file prompt previous).run.run site).1 = .error (.store .closed) := by
  have hsay : ((say mint 0 file .user prompt).run.run site).1 = .error (.store .closed) := by
    unfold say inStore
    exact congrArg (Except.mapError Fault.store) (addMessage_of_closed hclosed (some file) _)
  unfold produce
  rw [Part.run_bind, hsay]

/-! ## The code of a product -/

/-- Whatever the state of the store, what a build produces is sound. -/
theorem sound_of_run {agents : Agents σ} {strictness : Strictness} {mint : Mint} {file : Option String}
    {prompt : String} {previous : Option PreviousPlan} {site : Site σ} {product : Product}
    (hrun : (run agents strictness mint file prompt previous site).1 = .ok product) :
    product.Sound strictness mint (site.store.fileName file) (Agent.cleanPrompt prompt) := by
  cases hempty : (Agent.cleanPrompt prompt).isEmpty with
  | true =>
      rw [run_of_empty agents strictness mint file prompt previous site hempty] at hrun
      cases hrun
  | false =>
      rw [run_of_nonempty agents strictness mint file prompt previous site hempty] at hrun
      cases hclosed : site.store.closed with
      | true =>
          rw [produce_of_closed agents strictness mint _ _ previous hclosed] at hrun
          cases hrun
      | false =>
          have hleaves := produce_leads agents strictness mint (Agent.cleanPrompt prompt) previous hclosed
            (site.store.fileName_fileName file) fun fault => by rw [hrun]; nofun
          rw [hrun] at hleaves
          exact hleaves.2.1

/-- Code that passed the guard is stored as code that passes it exactly when its tree, if it can be read,
writes clean. -/
theorem Product.Sound.accepted_iff {product : Product} {strictness : Strictness} {mint : Mint}
    {file prompt : String} (h : product.Sound strictness mint file prompt) :
    (validate strictness product.code).ok = true ↔ ∀ root ∈ product.tree, WritesClean strictness root := by
  have haccepted := h.accepted
  rw [h.code, h.tree]
  unfold canonical?
  cases htransform : Markup.transform (fun n => mint.node [n]) Markup.defaultComponent product.rawCode with
  | error fault => simpa [Except.toOption] using haccepted
  | ok canonical =>
      simpa [Except.toOption] using Guard.validate_canonical_iff haccepted htransform

/--
The code that a build stores passes the guard exactly when its tree, if it can be read, writes clean: the
source, which the guard did accept, need not have been spelled as the writer spells it.  The same is so of any
source that passed the guard and its canonical code.
-/
theorem stored_code_accepted_iff (agents : Agents σ) (strictness : Strictness) (mint : Mint)
    (file : Option String) (prompt : String) (previous : Option PreviousPlan) (site : Site σ) :
    (∀ product, (run agents strictness mint file prompt previous site).1 = .ok product →
      ((validate strictness product.code).ok = true ↔ ∀ root ∈ product.tree, WritesClean strictness root)) ∧
    (∀ name source canonical, (validate strictness source).ok = true →
      Markup.transform name Markup.defaultComponent source = .ok canonical →
      ((validate strictness canonical.code).ok = true ↔ WritesClean strictness canonical.tree)) :=
  ⟨fun _ hrun => (sound_of_run hrun).accepted_iff,
    fun _ _ _ haccepted htransform => Guard.validate_canonical_iff haccepted htransform⟩

/-- The sample is stored as code that passes, and so is the canonical code of a source of its own. -/
theorem stored_code_accepted_sample :
    (∃ product,
      (run sampleAgents .strict (History.numberedMint 1) none " a  page " none sampleSite).1 = .ok product ∧
      (validate .strict product.code).ok = true) ∧
    (∃ canonical,
      Markup.transform Nat.repr Markup.defaultComponent "return (<p title=hi>ho</p>)" = .ok canonical ∧
      (validate .strict canonical.code).ok = true) := by
  have hproduct : ((run sampleAgents .strict (History.numberedMint 1) none " a  page " none
      sampleSite).1.toOption.any fun product => decide (∀ root ∈ product.tree, WritesClean .strict root)) =
      true := by
    decide +kernel
  have haccepted : (validate .strict "return (<p title=hi>ho</p>)").ok = true := by
    decide +kernel
  have hcanonical : ((Markup.transform Nat.repr Markup.defaultComponent
      "return (<p title=hi>ho</p>)").toOption.any fun canonical =>
      decide (WritesClean .strict canonical.tree)) = true := by
    decide +kernel
  obtain ⟨hstored, htransformed⟩ := stored_code_accepted_iff sampleAgents .strict (History.numberedMint 1)
    none " a  page " none sampleSite
  constructor
  · generalize (run sampleAgents .strict (History.numberedMint 1) none " a  page " none
      sampleSite).1 = result at hproduct hstored
    cases result with
    | error fault => cases hproduct
    | ok product => exact ⟨product, rfl, (hstored product rfl).2 (of_decide_eq_true hproduct)⟩
  · have hiff (canonical) := htransformed Nat.repr "return (<p title=hi>ho</p>)" canonical haccepted
    generalize Markup.transform Nat.repr Markup.defaultComponent
      "return (<p title=hi>ho</p>)" = result at hcanonical hiff
    cases result with
    | error fault => cases hcanonical
    | ok canonical => exact ⟨canonical, rfl, (hiff canonical rfl).2 (of_decide_eq_true hcanonical)⟩

/-! ## A handler that is not quoted -/

/-- A button whose handler is given without quotes. -/
def unquotedHandler : String := "return (<button onClick=alert(1)>Go</button>)"

/-- Agents that generate a button whose handler is not quoted. -/
def unquotingAgents : Agents Unit :=
  { sampleAgents with generate := fun _ _ _ state => ⟨.ok unquotedHandler, state, {}⟩ }

/-- The guard looks for quoted handlers, and the writer quotes them: a build stores code that it rejects. -/
theorem stored_code_rejected :
    ∃ product,
      (run unquotingAgents .strict (History.numberedMint 1) none "a page" none sampleSite).1 = .ok product ∧
      (validate .strict product.rawCode).ok = true ∧ (validate .strict product.code).ok = false := by
  have hunclean : ((run unquotingAgents .strict (History.numberedMint 1) none "a page" none
      sampleSite).1.toOption.any fun product => decide (¬∀ root ∈ product.tree, WritesClean .strict root)) =
      true := by
    decide +kernel
  have hsound := @sound_of_run _ unquotingAgents .strict (History.numberedMint 1) none "a page" none sampleSite
  generalize (run unquotingAgents .strict (History.numberedMint 1) none "a page" none sampleSite).1 = result
    at hunclean hsound
  cases result with
  | error fault => cases hunclean
  | ok product =>
      have hproduct := hsound rfl
      refine ⟨product, rfl, hproduct.accepted, Bool.eq_false_iff.2 fun hpasses => ?_⟩
      exact of_decide_eq_true hunclean (hproduct.accepted_iff.1 hpasses)

end ComponentBuilder.Build
