import ComponentBuilder.Agent.Agents
import ComponentBuilder.Agent.ModelCache
import ComponentBuilder.Guard.Validator
import ComponentBuilder.History.Snapshot
import ComponentBuilder.Settings

/-!
# Assembly

How settings determine the parts of the builder.  With a key for the provider every agent calls a
model, through one breaker; without one all agents answer from templates.
-/

namespace ComponentBuilder

namespace Settings

open Agent

/-- Whether the agents call models. -/
def usesModels (settings : Settings) : Bool :=
  !settings.apiKey.isEmpty

/-- The strictness of the guard. -/
def strictness (settings : Settings) : Guard.Strictness :=
  Guard.Strictness.ofFlag settings.strictValidation

/-- How a role calls its model. -/
def policy (settings : Settings) (role : Role) : CallPolicy where
  role := role.name
  retries := settings.retryAttempts.toNat
  pause := settings.retryInitialDelay

/-- The breaker in front of the models. -/
def breaker (settings : Settings) : Breaker where
  limit := settings.breakerFailMax
  rest := settings.breakerResetTimeout

/-- The configuration of the model of a role: the planner answers with objects. -/
def modelConfig (settings : Settings) (role : Role) : Schema.Checked ModelConfig :=
  ModelConfig.ofFields none
    [("model_name", .str settings.model), ("api_key", .str settings.apiKey),
      ("temperature", .double settings.temperature), ("max_tokens", .int settings.maxTokens),
      ("json_mode", .bool (role == .planner))]

/-- The models of the given roles, loaded one after the other. -/
def loadModels (settings : Settings) :
    List Role → ModelCache → Schema.Checked (ModelCache × List ProviderCall)
  | [], cache => .accepted (cache, [])
  | role :: roles, cache =>
      (settings.modelConfig role).bind fun config =>
        let loading := cache.load config false
        (loadModels settings roles loading.cache).map fun later =>
          (later.1, loading.calls ++ later.2)

/-- The roles in the order in which their agents are made. -/
def roles : List Role :=
  [.planner, .generator, .explainer]

/-- What the provider is told when the agents are made. -/
def providerCalls (settings : Settings) : Schema.Checked (List ProviderCall) :=
  if settings.usesModels then (settings.loadModels roles {}).map Prod.snd else .accepted []

/--
Make the parts in a data directory that holds nothing: the store first, which needs the place of its
snapshot, and then the agents, for which the provider is called.
-/
def assemble (settings : Settings) :
    Except History.LoadFault (Schema.Checked (List ProviderCall)) :=
  if settings.snapshotIsDirectory then .error .directory else .ok settings.providerCalls

end Settings

end ComponentBuilder
