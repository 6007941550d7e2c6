import ComponentBuilder.Agent.ModelConfig

/-!
# Loaded models

A model is loaded once for its name, its answer format and its temperature, and kept until all models
are dropped.  Loading tells the provider the key first and then the parameters of the model.
-/

namespace ComponentBuilder

namespace Agent

/-- What the provider is told. -/
inductive ProviderCall where
  /-- The key of the account. -/
  | configure (key : Option String)
  /-- The parameters of a model. -/
  | model (config : ModelConfig)
  /-- A prompt for a model. -/
  | prompt (text : String)
deriving Repr

/-- A loaded model: when it was loaded, counting from zero, and its configuration. -/
structure LoadedModel where
  number : Nat
  config : ModelConfig
deriving Repr

/-- The loaded models by key, and how many were loaded so far. -/
structure ModelCache where
  models : Keyed LoadedModel := .empty
  loads : Nat := 0

namespace ModelCache

/-- The key under which a model is kept. -/
def key (config : ModelConfig) : String :=
  config.modelName ++ ":" ++ (if config.jsonMode then "True" else "False") ++ ":" ++
    config.temperature.displayText

/-- Loading a model: the model or nothing, the cache after it, and what the provider was told. -/
structure Loading where
  model : Option LoadedModel
  cache : ModelCache
  calls : List ProviderCall

/-- Load a model, or take the one that is kept; `refused` says that the provider refuses it. -/
def load (cache : ModelCache) (config : ModelConfig) (refused : Bool) : Loading :=
  match cache.models.get? (key config) with
  | some model => ⟨some model, cache, []⟩
  | none =>
      if refused then ⟨none, cache, [.configure config.apiKey]⟩
      else
        let model : LoadedModel := ⟨cache.loads, config⟩
        ⟨some model, ⟨cache.models.set (key config) model, cache.loads + 1⟩,
          [.configure config.apiKey, .model config]⟩

/-- The wording for a model that the provider refuses. -/
def refusalMessage (config : ModelConfig) : String :=
  "Failed to load " ++ config.modelName

/-- Drop all models. -/
def unload (cache : ModelCache) : ModelCache :=
  { cache with models := .empty }

/-- What is asked of the loaded models. -/
inductive Call where
  | load (config : ModelConfig) (refused : Bool)
  | unload

/-- The loaded models after a call. -/
def perform (cache : ModelCache) : Call → ModelCache
  | .load config refused => (cache.load config refused).cache
  | .unload => cache.unload

/-- The loaded models after calls made one after the other. -/
def after (cache : ModelCache) (calls : List Call) : ModelCache :=
  calls.foldl perform cache

end ModelCache

/-- The parameters of a model as its provider sees them, in the order of their names. -/
def ModelConfig.parameters (config : ModelConfig) : Json :=
  .obj [("max_output_tokens", .int config.maxTokens),
    ("response_mime_type", if config.jsonMode then .str "application/json" else .null),
    ("temperature", .double config.temperature), ("top_k", .int config.topK),
    ("top_p", .double config.topP)]

end Agent

end ComponentBuilder
