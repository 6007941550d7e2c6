import ComponentBuilder.Agent.Agents
import ComponentBuilder.Agent.CleanPrompt
import ComponentBuilder.Guard.Validator
import ComponentBuilder.History.Store
import ComponentBuilder.Markup.Module

/-!
# Builds

From a prompt to a version.  The cleaned prompt is stored as a message, then a plan, code and an
explanation are asked for; code that the guard accepts is brought into canonical form, or kept as it
is when it cannot be read, and stored as a version with a message that answers the prompt.

A build that ends early leaves the prompt in the conversation and no version.
-/

namespace ComponentBuilder

namespace Build

open Agent (Action Agents Failure Trace)
open Agent.Prompt (PreviousPlan)
open History (Message Mint Speaker Store StoreFault Version)
open Markup (Node)

/-- Why a build did not succeed. -/
inductive Fault where
  /-- Nothing is left of the prompt. -/
  | emptyPrompt
  /-- An agent had no result. -/
  | agent (failure : Failure)
  /-- The guard rejected the code. -/
  | rejected (report : Guard.Report)
  /-- The store refused. -/
  | store (fault : StoreFault)

namespace Fault

/-- The kind of a fault. -/
def kind : Fault → String
  | emptyPrompt => "ValueError"
  | agent failure => failure.kind
  | rejected _ => "ValidationViolation"
  | store fault => fault.kind

/-- The wording of a fault, unless it lies in its kind. -/
def message? : Fault → Option String
  | emptyPrompt => some "Prompt is empty after sanitising"
  | agent failure => some failure.message
  | rejected report => some report.rejection
  | store fault => fault.message?

/-- The family of a fault. -/
def family : Fault → Failure.Family
  | agent failure => failure.family
  | _ => .other

/-- What is counted when a build ends with a fault. -/
def events (fault : Fault) : List Metrics.Event :=
  match fault.family with
  | .quota => [.generation "rate_limited"]
  | .upstream => [.generation "upstream_error"]
  | .other => [.generation "failed", .failure fault.kind "pipeline"]

end Fault

/-- What a build produced. -/
structure Product where
  plan : Plan
  /-- The code that was stored. -/
  code : String
  /-- The code as it was generated. -/
  rawCode : String
  explanation : String
  version : Version
  /-- The tree of the code, unless it could not be read. -/
  tree : Option Node

/-- Where builds happen: the store, the state of the agents, and what is seen of builds. -/
structure Site (σ : Type) where
  store : Store
  state : σ
  trace : Trace := {}

/-- A part of a build.  What it changed at the site stays changed when it ends with a fault. -/
abbrev Part (σ α : Type) := ExceptT Fault (StateM (Site σ)) α

variable {σ α : Type}

/-- Count events. -/
def count (events : List Metrics.Event) : Part σ Unit :=
  modify fun site => { site with trace := site.trace ++ { events := events } }

/-- An operation of the store as a part of a build. -/
def inStore (operation : Store → Store.Outcome α) : Part σ α :=
  ExceptT.mk fun site =>
    let (store, result) := operation site.store
    (result.mapError .store, { site with store := store })

/-- What an agent does as a part of a build. -/
def byAgent (act : σ → Action σ α) : Part σ α :=
  ExceptT.mk fun site =>
    let action := act site.state
    (action.result.mapError .agent,
      { site with state := action.state, trace := site.trace ++ action.trace })

/-- Append a message about a file. -/
def say (mint : Mint) (number : Nat) (file : String) (speaker : Speaker) (content : String) :
    Part σ Message :=
  inStore (·.addMessage (some file) ⟨mint.message [number], speaker, content, mint.now⟩)

/-- The code at the cursor of a file, if it has a version. -/
def previousCode? (store : Store) (file : String) : Option String :=
  (store.current? (some file)).map fun _ => store.code (some file)

/-- Let only code pass that the guard accepts. -/
def check (strictness : Guard.Strictness) (code : String) : Part σ Unit := do
  let report := Guard.validate strictness code
  count report.events
  if !report.ok then throw (.rejected report)

/-- The tree of code and its canonical form; code that cannot be read stays as it is. -/
def structured (mint : Mint) (code : String) : Part σ (Option Node × String) :=
  match Markup.transform (fun n => mint.node [n]) Markup.defaultComponent code with
  | .ok canonical => pure (some canonical.tree, canonical.code)
  | .error fault => do
      count [.parseFallback fault.family.label]
      pure (none, code)

/-- The message that answers a prompt. -/
def answer (plan : Plan) (explanation : String) : String :=
  plan.summary ++ "\n\n---\n" ++ explanation

/-- Build from a clean prompt. -/
def produce (agents : Agents σ) (strictness : Guard.Strictness) (mint : Mint) (file prompt : String)
    (previous : Option PreviousPlan) : Part σ Product := do
  let _ ← say mint 0 file .user prompt
  let previousCode := previousCode? (← get).store file
  let plan ← byAgent (agents.plan prompt previous)
  let rawCode ← byAgent (agents.generate prompt plan previousCode)
  let explanation ← byAgent (agents.explain prompt plan previous)
  check strictness rawCode
  let (tree, code) ← structured mint rawCode
  let version ← inStore fun store =>
    store.addVersion (store.newVersion mint [] (some file) prompt plan code tree explanation)
  let _ ← say mint 1 file .assistant (answer plan explanation)
  return ⟨plan, code, rawCode, explanation, version, tree⟩

/-- What is counted when a build ends. -/
def outcomeEvents : Except Fault Product → List Metrics.Event
  | .ok _ => [.generation "success"]
  | .error fault => fault.events

/-- Build from a prompt; none is counted when nothing is left of the prompt after cleaning. -/
def run (agents : Agents σ) (strictness : Guard.Strictness) (mint : Mint) (file : Option String)
    (prompt : String) (previous : Option PreviousPlan) (site : Site σ) :
    Except Fault Product × Site σ :=
  let cleaned := Agent.cleanPrompt prompt
  if cleaned.isEmpty then (.error .emptyPrompt, site)
  else
    let (result, site) :=
      (produce agents strictness mint (site.store.fileName file) cleaned previous).run.run site
    (result, { site with trace := site.trace ++ { events := outcomeEvents result } })

end Build

end ComponentBuilder
