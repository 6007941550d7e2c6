import ComponentBuilder.Agent.Caller
import ComponentBuilder.Agent.Template

/-!
# Agents

A planner, a generator and an explainer.  Each may change a state that all three share, such as the
models they call; what they do is otherwise free.  Agents that have a model ask it and read its
answer, agents without one answer from templates.
-/

namespace ComponentBuilder

namespace Agent

open Prompt (PreviousPlan)

/-- The roles of agents. -/
inductive Role where
  | planner
  | generator
  | explainer
deriving DecidableEq, Repr

/-- The name of a role. -/
def Role.name : Role → String
  | planner => "planner"
  | generator => "generator"
  | explainer => "explainer"

/-- What an agent does: its result, the state after it, and what is seen of it. -/
structure Action (σ α : Type) where
  result : Except Failure α
  state : σ
  trace : Trace := {}

/-- Read the result of an action further. -/
def Action.read {σ α β : Type} (action : Action σ α) (f : α → Except Failure β) : Action σ β where
  result := action.result.bind f
  state := action.state
  trace := action.trace

/-- A planner, a generator and an explainer over a shared state. -/
structure Agents (σ : Type) where
  plan (request : String) (previous : Option PreviousPlan) : σ → Action σ Plan
  generate (request : String) (plan : Plan) (previousCode : Option String) : σ → Action σ String
  explain (request : String) (plan : Plan) (previous : Option PreviousPlan) : σ → Action σ String

/-- The models that agents call, at a time. -/
structure Models where
  /-- The roles that have a model. -/
  active : Role → Bool
  policy : Role → CallPolicy
  script : Role → Script
  breaker : Role → Breaker
  /-- Whether there is one breaker for all roles. -/
  oneBreaker : Bool
  now : Int

namespace Models

/-- The models after a call of a role. -/
def after (models : Models) (role : Role) (line : Line) : Models :=
  { models with
    script := fun r => if r = role then line.script else models.script r
    breaker := fun r => if models.oneBreaker || r = role then line.breaker else models.breaker r }

/-- Ask the model of a role. -/
def ask (role : Role) (prompt : Except Json.PrintError String) (models : Models) :
    Action Models String :=
  match prompt with
  | .error e => ⟨.error (.unprintable e), models, {}⟩
  | .ok prompt =>
      let call := (models.policy role).call models.now prompt
        ⟨models.script role, models.breaker role⟩
      ⟨call.result, models.after role call.line, call.trace⟩

end Models

/-- The plan in an answer to a request. -/
def readPlan (request answer : String) : Except Failure Plan :=
  match Json.embedded true answer with
  | .error e => .error (.unusablePlan (.unread e))
  | .ok fields =>
      match LoosePlan.plan (.obj fields) request with
      | .accepted plan => .ok plan
      | .refused issues => .error (.unusablePlan (.invalid issues))

/-- The code in an answer. -/
def readCode (answer : String) : Except Failure String :=
  let code := Text.stripFences answer
  if code.isEmpty then .error .noCode else .ok code

/-- Plan by asking the model. -/
def planByModel (request : String) (previous : Option PreviousPlan) (models : Models) :
    Action Models Plan :=
  if (Text.strip request).isEmpty then ⟨.error .emptyIntent, models, {}⟩
  else (models.ask .planner (Prompt.planner request previous)).read (readPlan request)

/-- Generate code by asking the model. -/
def generateByModel (request : String) (plan : Plan) (previousCode : Option String)
    (models : Models) : Action Models String :=
  (models.ask .generator (Prompt.generator request plan.toPublicJson previousCode)).read readCode

/-- Explain by asking the model. -/
def explainByModel (request : String) (plan : Plan) (previous : Option PreviousPlan)
    (models : Models) : Action Models String :=
  (models.ask .explainer (Prompt.explainer request plan.toPublicJson previous)).read fun answer =>
    .ok (Text.strip answer)

/-- Plan from the template. -/
def planByTemplate {σ : Type} (request : String) (previous : Option PreviousPlan) (state : σ) :
    Action σ Plan :=
  match Template.plan? request previous with
  | some plan => ⟨.ok plan, state, {}⟩
  | none => ⟨.error .emptyIntent, state, {}⟩

/-- Agents that answer from templates. -/
def Agents.ofTemplates (σ : Type) : Agents σ where
  plan := planByTemplate
  generate _ plan _ state := ⟨.ok (Template.code plan), state, {}⟩
  explain request plan previous state := ⟨.ok (Template.explanation request plan previous), state, {}⟩

/-- Agents that ask the models of their roles, or answer from templates where there is none. -/
def Agents.ofModels : Agents Models where
  plan request previous models :=
    if models.active .planner then planByModel request previous models
    else (ofTemplates Models).plan request previous models
  generate request plan previousCode models :=
    if models.active .generator then generateByModel request plan previousCode models
    else (ofTemplates Models).generate request plan previousCode models
  explain request plan previous models :=
    if models.active .explainer then explainByModel request plan previous models
    else (ofTemplates Models).explain request plan previous models

end Agent

end ComponentBuilder
