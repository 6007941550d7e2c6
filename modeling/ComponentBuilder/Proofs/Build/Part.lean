import ComponentBuilder.Build
import ComponentBuilder.Proofs.History.Change

/-!
# Parts of builds

How a part of a build ends: `Part.Leads` follows a part from its site to what holds after it, with every
fault on the way, as long as the store can be saved.  Whether a part counts outcomes of builds is followed
apart from that, by `Part.Uncounted`.
-/

namespace ComponentBuilder.Build

open Agent (Action Agents)
open History (Message Mint Speaker Store StoreFault Version)
open Markup (Node)

variable {σ α β : Type}

/-- The canonical form of code, unless the code cannot be read. -/
def canonical? (mint : Mint) (code : String) : Option Markup.Canonical :=
  (Markup.transform (fun n => mint.node [n]) Markup.defaultComponent code).toOption

namespace Part

/-- What holds when a part is over, unless the store could not be saved. -/
def Leads (part : Part σ α) (site : Site σ) (post : Except Fault α → Site σ → Prop) : Prop :=
  (∀ fault, (part.run.run site).1 ≠ .error (.store (.unsaved fault))) →
    post (part.run.run site).1 (part.run.run site).2

variable {part : Part σ α} {next : α → Part σ β} {site : Site σ}

theorem run_bind : (part >>= next).run.run site = match (part.run.run site).1 with
    | .ok a => (next a).run.run (part.run.run site).2
    | .error fault => (.error fault, (part.run.run site).2) := by
  rw [ExceptT.run_bind, StateT.run_bind]
  rcases part.run.run site with ⟨_ | _, _⟩ <;> rfl

theorem leads_bind {post : Except Fault β → Site σ → Prop}
    (h : part.Leads site fun result middle => match result with
      | .ok a => (next a).Leads middle post
      | .error fault => post (.error fault) middle) :
    (part >>= next).Leads site post := by
  intro hsaved
  cases hresult : (part.run.run site).1 with
  | ok a =>
      rw [run_bind, hresult] at hsaved ⊢
      have hfirst := h fun fault => by rw [hresult]; nofun
      rw [hresult] at hfirst
      exact hfirst hsaved
  | error fault =>
      rw [run_bind, hresult] at hsaved ⊢
      have hfirst := h fun unsaved => by rw [hresult]; simpa using hsaved unsaved
      rw [hresult] at hfirst
      exact hfirst

theorem leads_pure {a : α} {post : Except Fault α → Site σ → Prop} (h : post (.ok a) site) :
    (pure a : Part σ α).Leads site post :=
  fun _ => h

theorem leads_get {post : Except Fault (Site σ) → Site σ → Prop} (h : post (.ok site) site) :
    (get : Part σ (Site σ)).Leads site post :=
  fun _ => h

/-! ## Parts that use the store -/

theorem leads_inStore {operation : Store → Store.Outcome α} {post : Except Fault α → Site σ → Prop}
    (h : (∀ fault, (operation site.store).2 ≠ .error (.unsaved fault)) →
      post ((operation site.store).2.mapError .store) { site with store := (operation site.store).1 }) :
    (inStore operation).Leads site post := by
  intro hsaved
  apply h
  intro fault hfault
  apply hsaved fault
  have hresult : ((inStore operation).run.run site).1 =
      (operation site.store).2.mapError (Fault.store) := rfl
  rw [hresult, hfault]
  rfl

/-- Writing to an open store that can be saved has a result. -/
theorem leads_write {operation : Store → Store.Outcome α} {name : String}
    {a : α} {post : Except Fault α → Site σ → Prop}
    (change : History.Workspace → History.Workspace) (hopen : site.store.closed = false)
    (hwrite : operation site.store =
      ((site.store.write name change).1, (site.store.write name change).2.map fun _ => a))
    (h : ∀ after, site.store.Replaced after name (change (site.store.opened name)) →
      post (.ok a) { site with store := after }) :
    (inStore operation).Leads site post := by
  apply leads_inStore
  rw [hwrite]
  intro hsaved
  rcases Store.write_result hopen name change with hok | ⟨fault, hfailed⟩
  · rw [hok]
    exact h _ (Store.replaced_write hopen name change)
  · exact absurd (by simp only [hfailed, Except.map]) (hsaved fault)

theorem leads_say {mint : Mint} {number : Nat} {file content : String} {speaker : Speaker}
    {post : Except Fault Message → Site σ → Prop} (hopen : site.store.closed = false)
    (hname : site.store.fileName (some file) = file)
    (h : ∀ after, site.store.Replaced after file
        ((site.store.opened file).say ⟨mint.message [number], speaker, content, mint.now⟩) →
      post (.ok ⟨mint.message [number], speaker, content, mint.now⟩) { site with store := after }) :
    (say mint number file speaker content).Leads site post := by
  refine leads_write (·.say ⟨mint.message [number], speaker, content, mint.now⟩) hopen ?_ h
  rw [Store.addMessage, hname]

theorem leads_addVersion {version : Store → Version} {file : String}
    {post : Except Fault Version → Site σ → Prop} (hopen : site.store.closed = false)
    (hfile : (version site.store).file = file)
    (h : ∀ after, site.store.Replaced after file ((site.store.opened file).append (version site.store)) →
      post (.ok (version site.store)) { site with store := after }) :
    (inStore fun store => store.addVersion (version store)).Leads site post := by
  refine leads_write (·.append (version site.store)) hopen ?_ h
  rw [Store.addVersion, hfile]

/-! ## Parts that leave the store alone -/

theorem leads_byAgent {act : σ → Action σ α} {post : Except Fault α → Site σ → Prop}
    (h : ∀ trace, post ((act site.state).result.mapError .agent)
      { site with state := (act site.state).state, trace := trace }) :
    (byAgent act).Leads site post :=
  fun _ => h _

theorem leads_count {events : List Metrics.Event} {post : Except Fault Unit → Site σ → Prop}
    (h : ∀ trace, post (.ok ()) { site with trace := trace }) : (count events).Leads site post :=
  fun _ => h _

theorem leads_check {strictness : Guard.Strictness} {code : String} {post : Except Fault Unit → Site σ → Prop}
    (haccepted : (Guard.validate strictness code).ok = true →
      ∀ trace, post (.ok ()) { site with trace := trace })
    (hrejected : ∀ trace,
      post (.error (.rejected (Guard.validate strictness code))) { site with trace := trace }) :
    (check strictness code).Leads site post := by
  unfold check
  apply leads_bind
  apply leads_count
  intro trace
  cases hok : (Guard.validate strictness code).ok with
  | true => exact fun _ => haccepted hok trace
  | false => exact fun _ => hrejected trace

theorem leads_structured {mint : Mint} {code : String}
    {post : Except Fault (Option Node × String) → Site σ → Prop}
    (h : ∀ trace, post (.ok ((canonical? mint code).map (·.tree), ((canonical? mint code).map (·.code)).getD code))
      { site with trace := trace }) :
    (structured mint code).Leads site post := by
  unfold canonical? at h
  unfold structured
  cases hcode : Markup.transform (fun n => mint.node [n]) Markup.defaultComponent code with
  | ok canonical =>
      rw [hcode] at h
      exact leads_pure (h site.trace)
  | error fault =>
      rw [hcode] at h
      apply leads_bind
      apply leads_count
      intro trace
      exact leads_pure (h trace)

end Part

/-! ## Counting outcomes -/

/-- The outcome of a build that an event counts, if it counts one. -/
def outcome? : Metrics.Event → Option String
  | .generation status => some status
  | _ => none

/-- The outcomes of builds that are counted in a trace. -/
def outcomes (trace : Agent.Trace) : List String :=
  trace.events.filterMap outcome?

theorem outcomes_append (first second : Agent.Trace) :
    outcomes (first ++ second) = outcomes first ++ outcomes second :=
  List.filterMap_append

/-- Agents count no outcomes of builds: that is left to the build. -/
structure AgentsCountNone (agents : Agents σ) : Prop where
  plan : ∀ prompt previous state, outcomes (agents.plan prompt previous state).trace = []
  generate : ∀ prompt plan code state, outcomes (agents.generate prompt plan code state).trace = []
  explain : ∀ prompt plan previous state, outcomes (agents.explain prompt plan previous state).trace = []

section Models

open Agent (CallPolicy Line Models Role)

theorem outcomes_attempt (policy : CallPolicy) (now : Int) (prompt : String) (retries made : Nat)
    (line : Line) : outcomes (policy.attempt now prompt retries made line).trace = [] := by
  induction retries generalizing made line with
  | zero =>
      unfold CallPolicy.attempt
      split
      · rfl
      · dsimp only
        split
        · rfl
        · split
          · rfl
          · split <;> rfl
  | succ retries ih =>
      unfold CallPolicy.attempt
      split
      · rfl
      · dsimp only
        split
        · rfl
        · split
          · rfl
          · split
            · rfl
            · split
              · rfl
              · rw [outcomes_append, outcomes_append, ih]
                rfl

theorem outcomes_ask (role : Role) (prompt : Except Json.PrintError String) (models : Models) :
    outcomes (models.ask role prompt).trace = [] := by
  cases prompt with
  | error _ => rfl
  | ok prompt => exact outcomes_attempt (models.policy role) models.now prompt _ _ _

/-- Neither models nor templates count outcomes of builds. -/
theorem agentsCountNone_ofModels : AgentsCountNone Agents.ofModels where
  plan prompt previous state := by
    unfold Agents.ofModels
    dsimp only
    split
    · unfold Agent.planByModel
      split
      · rfl
      · exact outcomes_ask .planner _ state
    · unfold Agents.ofTemplates Agent.planByTemplate
      dsimp only
      split <;> rfl
  generate prompt plan code state := by
    unfold Agents.ofModels
    dsimp only
    split
    · exact outcomes_ask .generator _ state
    · rfl
  explain prompt plan previous state := by
    unfold Agents.ofModels
    dsimp only
    split
    · exact outcomes_ask .explainer _ state
    · rfl

end Models

namespace Part

/-- A part counts no outcomes of builds. -/
def Uncounted (part : Part σ α) : Prop :=
  ∀ site, outcomes (part.run.run site).2.trace = outcomes site.trace

theorem uncounted_bind {part : Part σ α} {next : α → Part σ β} (h : part.Uncounted)
    (hnext : ∀ a, (next a).Uncounted) : (part >>= next).Uncounted := by
  intro site
  rw [run_bind]
  cases (part.run.run site).1 with
  | ok a => exact (hnext a _).trans (h site)
  | error fault => exact h site

theorem uncounted_pure {a : α} : (pure a : Part σ α).Uncounted :=
  fun _ => rfl

theorem uncounted_get : (get : Part σ (Site σ)).Uncounted :=
  fun _ => rfl

theorem uncounted_inStore {operation : Store → Store.Outcome α} : (inStore operation : Part σ α).Uncounted :=
  fun _ => rfl

theorem uncounted_say {mint : Mint} {number : Nat} {file content : String} {speaker : Speaker} :
    (say mint number file speaker content : Part σ Message).Uncounted :=
  uncounted_inStore

theorem uncounted_byAgent {act : σ → Action σ α} (h : ∀ state, outcomes (act state).trace = []) :
    (byAgent act).Uncounted := by
  intro site
  have htrace : ((byAgent act).run.run site).2.trace = site.trace ++ (act site.state).trace := rfl
  rw [htrace, outcomes_append, h, List.append_nil]

theorem uncounted_count {events : List Metrics.Event} (h : events.filterMap outcome? = []) :
    (count events : Part σ Unit).Uncounted := by
  intro site
  have htrace : ((count events).run.run site).2.trace = site.trace ++ { events := events } := rfl
  have hevents : outcomes { events := events } = [] := h
  rw [htrace, outcomes_append, hevents, List.append_nil]

theorem uncounted_check {strictness : Guard.Strictness} {code : String} :
    (check strictness code : Part σ Unit).Uncounted := by
  have hreport : (Guard.validate strictness code).events.filterMap outcome? = [] := by
    simp [Guard.Report.events, List.filterMap_eq_nil_iff, outcome?]
  unfold check
  apply uncounted_bind (uncounted_count hreport)
  intro _
  split
  · exact fun _ => rfl
  · exact uncounted_pure

theorem uncounted_structured {mint : Mint} {code : String} :
    (structured mint code : Part σ (Option Node × String)).Uncounted := by
  unfold structured
  split
  · exact uncounted_pure
  · exact uncounted_bind (uncounted_count rfl) fun _ => uncounted_pure

end Part

/-- The parts of a build before its end count no outcome. -/
theorem uncounted_produce {agents : Agents σ} (h : AgentsCountNone agents) (strictness : Guard.Strictness)
    (mint : Mint) (file prompt : String) (previous : Option Agent.Prompt.PreviousPlan) :
    (produce agents strictness mint file prompt previous).Uncounted := by
  apply Part.uncounted_bind Part.uncounted_say
  intro _
  apply Part.uncounted_bind Part.uncounted_get
  intro site
  apply Part.uncounted_bind (Part.uncounted_byAgent (h.plan _ _))
  intro plan
  apply Part.uncounted_bind (Part.uncounted_byAgent (h.generate _ _ _))
  intro rawCode
  apply Part.uncounted_bind (Part.uncounted_byAgent (h.explain _ _ _))
  intro explanation
  apply Part.uncounted_bind Part.uncounted_check
  intro _
  apply Part.uncounted_bind Part.uncounted_structured
  intro _
  apply Part.uncounted_bind Part.uncounted_inStore
  intro version
  exact Part.uncounted_bind Part.uncounted_say fun _ => Part.uncounted_pure

end ComponentBuilder.Build
