import ComponentBuilder.Proofs.Build.Part
import ComponentBuilder.Proofs.History.Observation

/-!
# All or nothing

A build that succeeds appends one version and the two messages of the exchange to its file.  A build that ends
with a fault leaves the prompt and nothing else, whichever part it came from.  Either way no other file
changes, and the outcome is counted once.
-/

namespace ComponentBuilder.Build

open Agent (Agents)
open Agent.Prompt (PreviousPlan)
open History (Message Mint Store Version Workspace)
open Markup (Node)

variable {σ : Type}

/-! ## What the agents came to -/

/-- A product holds what the agents answered, each in the state that the one before it left. -/
structure Answered (agents : Agents σ) (prompt : String) (previous : Option PreviousPlan)
    (previousCode : Option String) (state : σ) (product : Product) : Prop where
  plan : (agents.plan prompt previous state).result = .ok product.plan
  rawCode :
    let planned := (agents.plan prompt previous state).state
    (agents.generate prompt product.plan previousCode planned).result = .ok product.rawCode
  explanation :
    let planned := (agents.plan prompt previous state).state
    let generated := (agents.generate prompt product.plan previousCode planned).state
    (agents.explain prompt product.plan previous generated).result = .ok product.explanation

/-- A product whose code passed the guard and whose tree and code are the canonical ones, if there are any. -/
structure Product.Sound (product : Product) (strictness : Guard.Strictness) (mint : Mint)
    (file prompt : String) : Prop where
  accepted : (Guard.validate strictness product.rawCode).ok = true
  tree : product.tree = (canonical? mint product.rawCode).map (·.tree)
  code : product.code = ((canonical? mint product.rawCode).map (·.code)).getD product.rawCode
  version : product.version =
    ⟨mint.version [], file, prompt, product.plan, product.code, product.tree, product.explanation, mint.now⟩

/-! ## The messages of a build -/

/-- The message that holds the prompt. -/
def question (mint : Mint) (prompt : String) : Message :=
  ⟨mint.message [0], .user, prompt, mint.now⟩

/-- The message that answers it. -/
def reply (mint : Mint) (product : Product) : Message :=
  ⟨mint.message [1], .assistant, answer product.plan product.explanation, mint.now⟩

/-- The workspace of a file after a build that succeeded. -/
def extended (workspace : Workspace) (mint : Mint) (prompt : String) (product : Product) : Workspace :=
  ((workspace.say (question mint prompt)).append product.version).say (reply mint product)

/-! ## The parts of a build together -/

/-- What a build leaves in the store. -/
def Leaves (agents : Agents σ) (strictness : Guard.Strictness) (mint : Mint) (file prompt : String)
    (previous : Option PreviousPlan) (site : Site σ) : Except Fault Product → Store → Prop
  | .ok product, after =>
      Answered agents prompt previous (previousCode? site.store file) site.state product ∧
        product.Sound strictness mint file prompt ∧
        site.store.Replaced after file (extended (site.store.opened file) mint prompt product)
  | .error _, after =>
      site.store.Replaced after file ((site.store.opened file).say (question mint prompt))

/-- A message changes neither whether a file has a version nor its code. -/
theorem previousCode?_of_say {store after : Store} {file : String} {message : Message}
    (hname : store.fileName (some file) = file)
    (h : store.Replaced after file ((store.opened file).say message)) :
    previousCode? after file = previousCode? store file := by
  have hafter : after.fileName (some file) = file := (h.fileName _).trans hname
  unfold previousCode?
  rw [after.current?_eq_opened, after.code_eq_opened, store.current?_eq_opened, store.code_eq_opened, hafter,
    hname, h.opened]
  rfl

theorem produce_leads (agents : Agents σ) (strictness : Guard.Strictness) (mint : Mint)
    {file : String} (prompt : String) (previous : Option PreviousPlan) {site : Site σ}
    (hopen : site.store.closed = false) (hname : site.store.fileName (some file) = file) :
    (produce agents strictness mint file prompt previous).Leads site
      fun result after => Leaves agents strictness mint file prompt previous site result after.store := by
  refine Part.leads_bind (Part.leads_say hopen hname ?_)
  intro asked hasked
  refine Part.leads_bind (Part.leads_get ?_)
  simp only [previousCode?_of_say hname hasked]
  refine Part.leads_bind (Part.leads_byAgent ?_)
  intro trace
  cases hplan : (agents.plan prompt previous site.state).result with
  | error failure => exact hasked
  | ok plan =>
  refine Part.leads_bind (Part.leads_byAgent ?_)
  intro trace
  dsimp only
  cases hcode : (agents.generate prompt plan (previousCode? site.store file)
    (agents.plan prompt previous site.state).state).result with
  | error failure => exact hasked
  | ok rawCode =>
  refine Part.leads_bind (Part.leads_byAgent ?_)
  intro trace
  dsimp only
  cases hexplanation : (agents.explain prompt plan previous (agents.generate prompt plan
    (previousCode? site.store file) (agents.plan prompt previous site.state).state).state).result with
  | error failure => exact hasked
  | ok explanation =>
  refine Part.leads_bind (Part.leads_check ?_ fun _ => hasked)
  intro haccepted trace
  refine Part.leads_bind (Part.leads_structured ?_)
  intro trace
  have hasked' : asked.fileName (some file) = file := (hasked.fileName _).trans hname
  refine Part.leads_bind (Part.leads_addVersion (hasked.closed.trans hopen) hasked' ?_)
  intro added hadded
  refine Part.leads_bind (Part.leads_say ((hadded.closed.trans hasked.closed).trans hopen)
    ((hadded.fileName _).trans hasked') ?_)
  intro after hafter
  refine Part.leads_pure ⟨⟨hplan, hcode, hexplanation⟩, ⟨haccepted, rfl, rfl, ?_⟩, ?_⟩
  · simp only [Store.newVersion, hasked']
  · have hreplaced := (hasked.trans hadded).trans hafter
    rw [hadded.opened, hasked.opened] at hreplaced
    exact hreplaced

/-! ## What a build shows -/

/-- A file shows one more version, which is current, and the two messages of the exchange. -/
structure Extends (before after : Store) (file : Option String) (mint : Mint) (prompt : String)
    (product : Product) : Prop where
  versions : after.versions file = before.versions file ++ [product.version]
  cursor : (after.workspace? file).bind Workspace.cursor = some product.version.id
  current : product.version.id ∉ (before.versions file).map Version.id →
    after.current? file = some product.version
  code : after.code file = product.code
  messages : after.messages file = before.messages file ++ [question mint prompt, reply mint product]

/-- No file shows another version or other code, and one shows these messages more. -/
structure Abandons (before after : Store) (file : Option String) (said : List Message) : Prop where
  versions (other : Option String) : after.versions other = before.versions other
  current (other : Option String) : after.current? other = before.current? other
  code (other : Option String) : after.code other = before.code other
  messages : after.messages file = before.messages file ++ said

theorem Abandons.refl (store : Store) (file : Option String) : Abandons store store file [] :=
  ⟨fun _ => rfl, fun _ => rfl, fun _ => rfl, (List.append_nil _).symm⟩

section Replaced

variable {before after : Store} {file : Option String}

theorem abandons_of_say {message : Message}
    (h : before.Replaced after (before.fileName file)
      ((before.opened (before.fileName file)).say message)) :
    Abandons before after file [message] := by
  have hopened (name : String) : (after.opened name) =
      if name = before.fileName file then (before.opened name).say message else before.opened name := by
    by_cases hname : name = before.fileName file
    · rw [if_pos hname, hname, h.opened]
    · simp only [Store.opened, h.get?_eq, hname, if_false, h.defaultCode]
  refine ⟨fun other => ?_, fun other => ?_, fun other => ?_, ?_⟩
  · rw [after.versions_eq_opened, before.versions_eq_opened, h.fileName, hopened]
    split <;> rfl
  · rw [after.current?_eq_opened, before.current?_eq_opened, h.fileName, hopened]
    split <;> rfl
  · rw [after.code_eq_opened, before.code_eq_opened, h.fileName, hopened]
    split <;> rfl
  · rw [after.messages_eq_opened, before.messages_eq_opened, h.fileName, h.opened, Workspace.messages_say]

theorem sameOn_of_replaced {other : Option String} {workspace : Workspace}
    (h : before.Replaced after (before.fileName file) workspace)
    (hother : before.fileName other ≠ before.fileName file) : after.SameOn before other := by
  apply Store.sameOn_of_get?_eq h.defaultFile h.defaultCode
  rw [h.fileName, h.get?_eq, if_neg hother]

theorem extends_of_replaced {mint : Mint} {prompt : String} {product : Product}
    (hcode : product.version.code = product.code)
    (h : before.Replaced after (before.fileName file)
      (extended (before.opened (before.fileName file)) mint prompt product)) :
    Extends before after file mint prompt product := by
  refine ⟨?_, ?_, fun hfresh => ?_, ?_, ?_⟩
  · rw [after.versions_eq_opened, before.versions_eq_opened, h.fileName, h.opened]
    rfl
  · rw [Store.workspace?, h.fileName, h.get?_eq, if_pos rfl]
    rfl
  · rw [before.versions_eq_opened] at hfresh
    rw [after.current?_eq_opened, h.fileName, h.opened]
    exact Workspace.current?_append hfresh
  · rw [after.code_eq_opened, h.fileName, h.opened]
    exact hcode
  · rw [after.messages_eq_opened, before.messages_eq_opened, h.fileName, h.opened]
    simp [extended]

end Replaced

/-! ## Outcomes -/

/-- The outcome that a result is counted as. -/
def status : Except Fault Product → String
  | .ok _ => "success"
  | .error fault =>
      match fault.family with
      | .quota => "rate_limited"
      | .upstream => "upstream_error"
      | .other => "failed"

theorem outcomes_outcomeEvents (result : Except Fault Product) :
    outcomes { events := outcomeEvents result } = [status result] := by
  cases result with
  | ok product => rfl
  | error fault =>
      cases hfamily : fault.family <;>
        simp [outcomes, outcomeEvents, Fault.events, status, outcome?, hfamily]

theorem tree_eq_none_iff {mint : Mint} {rawCode : String} :
    (canonical? mint rawCode).map (·.tree) = none ↔
      ∃ fault, Markup.transform (fun n => mint.node [n]) Markup.defaultComponent rawCode = .error fault := by
  unfold canonical?
  cases Markup.transform (fun n => mint.node [n]) Markup.defaultComponent rawCode with
  | ok canonical => simp [Except.toOption]
  | error fault => simp [Except.toOption]

section Run

variable (agents : Agents σ) (strictness : Guard.Strictness) (mint : Mint) (file : Option String)
  (prompt : String) (previous : Option PreviousPlan) (site : Site σ)

theorem run_of_empty (h : (Agent.cleanPrompt prompt).isEmpty = true) :
    run agents strictness mint file prompt previous site = (.error .emptyPrompt, site) := by
  simp only [run, h, if_true]

theorem run_of_nonempty (h : (Agent.cleanPrompt prompt).isEmpty = false) :
    let produced := (produce agents strictness mint (site.store.fileName file) (Agent.cleanPrompt prompt)
      previous).run.run site
    run agents strictness mint file prompt previous site =
      (produced.1, { produced.2 with
        trace := produced.2.trace ++ { events := outcomeEvents produced.1 } }) := by
  simp only [run, h, Bool.false_eq_true, if_false]
  rcases (produce agents strictness mint (site.store.fileName file) (Agent.cleanPrompt prompt)
    previous).run.run site with ⟨result, ended⟩
  rfl

/--
A build on an open store that can be saved either succeeds, and then the guard accepted the generated code,
and the file has one version more, which is current, and the messages of the exchange; or it ends with a
fault, and then no version and no code changed, and the conversation has at most the prompt more.  No other
file changes, and the outcome is counted once unless nothing was left of the prompt.
-/
theorem run_all_or_nothing (hopen : site.store.closed = false)
    (hsaved : ∀ fault,
      (run agents strictness mint file prompt previous site).1 ≠ .error (.store (.unsaved fault))) :
    let cleaned := Agent.cleanPrompt prompt
    let name := site.store.fileName file
    let ended := run agents strictness mint file prompt previous site
    (∀ product, ended.1 = .ok product →
      cleaned.isEmpty = false ∧
      Answered agents cleaned previous (previousCode? site.store name) site.state product ∧
      product.Sound strictness mint name cleaned ∧
      (product.tree = none ↔ ∃ fault,
        Markup.transform (fun n => mint.node [n]) Markup.defaultComponent product.rawCode = .error fault) ∧
      Extends site.store ended.2.store file mint cleaned product) ∧
    (∀ fault, ended.1 = .error fault →
      Abandons site.store ended.2.store file (if cleaned.isEmpty then [] else [question mint cleaned])) ∧
    (∀ other, site.store.fileName other ≠ name → ended.2.store.SameOn site.store other) ∧
    (AgentsCountNone agents → outcomes ended.2.trace =
      outcomes site.trace ++ if cleaned.isEmpty then [] else [status ended.1]) := by
  intro cleaned name ended
  have hname : site.store.fileName (some name) = name := site.store.fileName_fileName file
  cases hempty : cleaned.isEmpty with
  | true =>
      have hended : ended = (.error .emptyPrompt, site) :=
        run_of_empty agents strictness mint file prompt previous site hempty
      rw [hended]
      refine ⟨nofun, fun fault _ => .refl site.store file, fun other _ => ⟨rfl, rfl, rfl, rfl, Iff.rfl⟩, ?_⟩
      intro _
      exact (List.append_nil _).symm
  | false =>
      have hended : ended = _ := run_of_nonempty agents strictness mint file prompt previous site hempty
      have hresult : ended.1 = ((produce agents strictness mint name cleaned previous).run.run site).1 := by
        rw [hended]
      have hstore : ended.2.store =
          ((produce agents strictness mint name cleaned previous).run.run site).2.store := by rw [hended]
      have hleaves := produce_leads agents strictness mint cleaned previous hopen hname
        fun fault => by rw [← hresult]; exact hsaved fault
      rw [← hresult, ← hstore] at hleaves
      refine ⟨?_, ?_, ?_, ?_⟩
      · intro product hproduct
        rw [hproduct] at hleaves
        obtain ⟨hanswered, hsound, hreplaced⟩ := hleaves
        refine ⟨rfl, hanswered, hsound, ?_, extends_of_replaced ?_ hreplaced⟩
        · rw [hsound.tree]
          exact tree_eq_none_iff
        · rw [hsound.version]
      · intro fault hfault
        rw [hfault] at hleaves
        exact abandons_of_say hleaves
      · intro other hother
        cases hcase : ended.1 with
        | ok product =>
            rw [hcase] at hleaves
            exact sameOn_of_replaced hleaves.2.2 hother
        | error fault =>
            rw [hcase] at hleaves
            exact sameOn_of_replaced hleaves hother
      · intro hnone
        have htrace := uncounted_produce hnone strictness mint name cleaned previous site
        rw [hresult, hended, outcomes_append, outcomes_outcomeEvents, htrace]
        rfl

end Run

/-- Agents with fixed answers. -/
def sampleAgents : Agents Unit where
  plan _ _ state := ⟨.ok { intent := "a page" }, state, {}⟩
  generate _ _ _ state := ⟨.ok "return (<p>hi</p>)", state, {}⟩
  explain _ _ _ state := ⟨.ok "done", state, {}⟩

/-- An empty store that is kept. -/
def sampleSite : Site Unit where
  store := { shelf := some { path := "state.json" } }
  state := ()

theorem ne_unsaved_of_tree {result : Except Fault Product}
    (h : (result.toOption.any fun product => product.tree.isSome) = true) (fault : History.SaveFault) :
    result ≠ .error (.store (.unsaved fault)) := by
  intro hresult
  rw [hresult] at h
  cases h

theorem run_all_or_nothing_sample :
    let ended := run sampleAgents .permissive (History.numberedMint 1) none " a  page " none sampleSite
    (∃ product, ended.1 = .ok product ∧ product.tree.isSome = true ∧
      Extends sampleSite.store ended.2.store none (History.numberedMint 1) "a page" product) ∧
      outcomes ended.2.trace = ["success"] := by
  have hok : ((run sampleAgents .permissive (History.numberedMint 1) none " a  page " none
      sampleSite).1.toOption.any fun product => product.tree.isSome) = true := by decide +kernel
  have hcleaned : Agent.cleanPrompt " a  page " = "a page" := by decide +kernel
  have hcounted : AgentsCountNone sampleAgents :=
    ⟨fun _ _ _ => rfl, fun _ _ _ _ => rfl, fun _ _ _ _ => rfl⟩
  have hrun := run_all_or_nothing sampleAgents .permissive (History.numberedMint 1) none " a  page " none
    sampleSite rfl (ne_unsaved_of_tree hok)
  rw [hcleaned] at hrun
  generalize run sampleAgents .permissive (History.numberedMint 1) none " a  page " none sampleSite = ended
    at hok hrun
  obtain ⟨result, after⟩ := ended
  obtain ⟨hsucceeds, -, -, hcounts⟩ := hrun
  cases result with
  | error fault => cases hok
  | ok product =>
      exact ⟨⟨product, rfl, hok, (hsucceeds product rfl).2.2.2.2⟩, hcounts hcounted⟩

end ComponentBuilder.Build
