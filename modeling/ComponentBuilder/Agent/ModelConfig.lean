import ComponentBuilder.Schema.Shape

/-!
# Configuration of a model

Which model is called, with which credentials and how it generates.
-/

namespace ComponentBuilder

namespace Agent

open Schema

/-- The configuration of a model. -/
structure ModelConfig where
  modelName : String
  apiKey : Option String
  temperature : Double
  maxTokens : Int
  topP : Double
  topK : Int
  jsonMode : Bool
deriving DecidableEq, Repr

namespace ModelConfig

/-- The model that is called when none is named. -/
def defaultModel : String := "gemini-2.0-flash"

/-- A configuration from fields; the key of the environment counts when none is given. -/
def ofFields (environmentKey : Option String) (fields : List (String × Json)) :
    Checked ModelConfig :=
  let unit : Bounds := { least := some 0, most := some 1 }
  ModelConfig.mk <$> optional ["model_name"] defaultModel string fields
    <*> (optional ["api_key"] none (nullable string) fields).map (·.or environmentKey)
    <*> optional ["temperature"] (Double.ofDecimal false 2 (-1))
      (numberWithin { least := some 0, most := some 2 }) fields
    <*> optional ["max_tokens"] 8192 (integerWithin { least := some 1, most := some 65536 }) fields
    <*> optional ["top_p"] (Double.ofDecimal false 95 (-2)) (numberWithin unit) fields
    <*> optional ["top_k"] 40 (integerWithin { least := some 1, most := some 100 }) fields
    <*> optional ["json_mode"] false bool fields

/-- A configuration as a record. -/
def toJson (config : ModelConfig) : Json :=
  .obj [("model_name", .str config.modelName), ("api_key", (config.apiKey.map Json.str).getD .null),
    ("temperature", .double config.temperature), ("max_tokens", .int config.maxTokens),
    ("top_p", .double config.topP), ("top_k", .int config.topK), ("json_mode", .bool config.jsonMode)]

end ModelConfig

end Agent

end ComponentBuilder
