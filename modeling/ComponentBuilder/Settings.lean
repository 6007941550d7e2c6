import ComponentBuilder.Schema.Shape

/-!
# Settings

The settings of the builder, from given values, from variables of the environment and from defaults,
in this order.  A given value has the name of its setting, in any case; the variable of a setting is
its name after `BUILDER_`, in any case too.
-/

namespace ComponentBuilder

open Schema

/-- The settings of the builder. -/
structure Settings where
  host : String
  port : Int
  apiKey : String
  model : String
  temperature : Double
  maxTokens : Int
  retryAttempts : Int
  retryInitialDelay : Double
  breakerFailMax : Int
  breakerResetTimeout : Int
  strictValidation : Bool
  maxPromptLength : Int
  dataDir : String
  snapshotName : String
  defaultFile : String
  watchdogSeconds : Double
  logLevel : String
  jsonLogs : Bool

namespace Settings

/-- The steps of a path that lead anywhere. -/
def pathSteps (path : String) : List String :=
  ((Text.split '/' path.toList).map String.ofList).filter fun step => step != "" && step != "."

/-- The slashes a path begins with: exactly two stay two, any other number counts as one. -/
def pathRoot (path : String) : String :=
  match (path.toList.takeWhile (· == '/')).length with
  | 0 => ""
  | 2 => "//"
  | _ => "/"

/-- The path with the given root and steps. -/
def pathOf (root : String) (steps : List String) : String :=
  let text := root ++ "/".intercalate steps
  if text.isEmpty then "." else text

/-- A path without empty steps. -/
def normalPath (path : String) : String :=
  pathOf (pathRoot path) (pathSteps path)

/-- A path below another; an absolute one stands for itself. -/
def joinPath (base path : String) : String :=
  if (pathRoot path).isEmpty then pathOf (pathRoot base) (pathSteps base ++ pathSteps path)
  else normalPath path

/-- A path. -/
def path : Json → Checked String
  | .str s => .accepted (normalPath s)
  | _ => .refuse .notPath

/-- A variable of the environment; of several in different case the last one counts. -/
def fromEnvironment? (env : List (String × String)) (name : String) : Option String :=
  (env.reverse.find? fun entry => Text.lowerAscii entry.1 == "builder_" ++ name).map Prod.snd

/-- A given value by its name; of several in different case the first one counts. -/
def given? (given : List (String × Json)) (name : String) : Option Json :=
  (given.find? fun entry => Text.lowerAscii entry.1 == name).map Prod.snd

/-- The names of all settings in order. -/
def names : List String :=
  ["host", "port", "gemini_api_key", "gemini_model", "gemini_temperature", "gemini_max_tokens",
    "retry_attempts", "retry_initial_delay", "breaker_fail_max", "breaker_reset_timeout",
    "strict_validation", "max_prompt_length", "data_dir", "snapshot_name", "default_file",
    "preview_watchdog_seconds", "log_level", "json_logs"]

/-- The fields that are given: those of `given`, and below them the variables of the environment. -/
def sources (env : List (String × String)) (given : List (String × Json)) :
    List (String × Json) :=
  names.filterMap fun name =>
    match given? given name with
    | some value => some (name, value)
    | none => (fromEnvironment? env name).map fun text => (name, .str text)

/-- The settings from an environment and given values. -/
def load (env : List (String × String)) (given : List (String × Json)) : Checked Settings :=
  let fields := sources env given
  let positive : Bounds := { above := some 0 }
  let natural : Bounds := { least := some 0 }
  Settings.mk <$> optional ["host"] "0.0.0.0" string fields
    <*> optional ["port"] 5001 integer fields
    <*> optional ["gemini_api_key"] ((env.lookup "GEMINI_API_KEY").getD "") string fields
    <*> optional ["gemini_model"] "gemini-2.0-flash" string fields
    <*> optional ["gemini_temperature"] (Double.ofDecimal false 2 (-1))
      (numberWithin { least := some 0, most := some 2 }) fields
    <*> optional ["gemini_max_tokens"] 8192 (integerWithin positive) fields
    <*> optional ["retry_attempts"] 3 (integerWithin natural) fields
    <*> optional ["retry_initial_delay"] (Double.ofInt 2) (numberWithin natural) fields
    <*> optional ["breaker_fail_max"] 5 (integerWithin positive) fields
    <*> optional ["breaker_reset_timeout"] 30 (integerWithin positive) fields
    <*> optional ["strict_validation"] true bool fields
    <*> optional ["max_prompt_length"] 10000 (integerWithin positive) fields
    <*> optional ["data_dir"] "db" path fields
    <*> optional ["snapshot_name"] "state.json" string fields
    <*> optional ["default_file"] "App.tsx" string fields
    <*> optional ["preview_watchdog_seconds"] (Double.ofInt 10) (numberWithin natural) fields
    <*> optional ["log_level"] "INFO" string fields
    <*> optional ["json_logs"] false bool fields

/-- The path of the stored snapshot. -/
def snapshotPath (settings : Settings) : String :=
  joinPath settings.dataDir settings.snapshotName

/-- Whether the snapshot has the place of the data directory or of a directory above it. -/
def snapshotIsDirectory (settings : Settings) : Bool :=
  (pathSteps settings.snapshotName).all (· == "..")

/-- The settings as a record in the order of their names. -/
def toJson (settings : Settings) : Json :=
  .obj [("host", .str settings.host), ("port", .int settings.port),
    ("gemini_api_key", .str settings.apiKey), ("gemini_model", .str settings.model),
    ("gemini_temperature", .double settings.temperature),
    ("gemini_max_tokens", .int settings.maxTokens),
    ("retry_attempts", .int settings.retryAttempts),
    ("retry_initial_delay", .double settings.retryInitialDelay),
    ("breaker_fail_max", .int settings.breakerFailMax),
    ("breaker_reset_timeout", .int settings.breakerResetTimeout),
    ("strict_validation", .bool settings.strictValidation),
    ("max_prompt_length", .int settings.maxPromptLength),
    ("data_dir", .str settings.dataDir), ("snapshot_name", .str settings.snapshotName),
    ("default_file", .str settings.defaultFile),
    ("preview_watchdog_seconds", .double settings.watchdogSeconds),
    ("log_level", .str settings.logLevel), ("json_logs", .bool settings.jsonLogs)]

end Settings

end ComponentBuilder
