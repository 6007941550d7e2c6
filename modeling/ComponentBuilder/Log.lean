import ComponentBuilder.Json.Value
import ComponentBuilder.Text.Basic

/-!
# Log records

An event is logged with fields and with the fields of the scopes around it.  Secrets are masked and
long texts are cut before a record is written, and records below the level of the log are dropped.
The time of a record and the error that it is about are not written as fields.
-/

namespace ComponentBuilder

namespace Log

/-- The fields of an event. -/
abbrev Fields := List (String × Json)

/-- The longest text that is written in full. -/
def maxLength : Nat := 500

/-- The fields that hold secrets. -/
def secretFields : List String :=
  ["api_key", "gemini_api_key", "authorization", "token"]

/-- The text in place of a secret. -/
def mask : String := "***"

/-- A field without its secret; an empty one has none. -/
def maskField (field : String × Json) : String × Json :=
  if secretFields.contains field.1 && field.2.holds then (field.1, .str mask) else field

/-- A text that is not too long, or its beginning with its length. -/
def clipText (text : String) : String :=
  if maxLength < text.length then
    Text.clip maxLength text ++ "... (" ++ toString text.length ++ " chars)"
  else text

/-- A field with a text that is not too long; the event itself is never cut. -/
def clipField (field : String × Json) : String × Json :=
  match field with
  | (name, .str text) => if name == "event" then field else (name, .str (clipText text))
  | field => field

/-- The fields of an event as they are written. -/
def writable (fields : Fields) : Fields :=
  fields.map fun field => clipField (maskField field)

/-- How grave an event is. -/
inductive Level where
  | unset
  | debug
  | info
  | warning
  | error
  | critical
deriving DecidableEq, Repr

namespace Level

/-- The number of a level. -/
def number : Level → Nat
  | unset => 0
  | debug => 10
  | info => 20
  | warning => 30
  | error => 40
  | critical => 50

/-- The name of a level. -/
def name : Level → String
  | unset => "notset"
  | debug => "debug"
  | info => "info"
  | warning => "warning"
  | error => "error"
  | critical => "critical"

/-- What a name stands for that is known to the log but names no level. -/
inductive Misnomer where
  /-- The format of plain records. -/
  | format
  /-- The styles in which formats are written. -/
  | styles
deriving DecidableEq, Repr

/-- The format of plain records in the style of percent signs. -/
def plainFormat : String := "%(levelname)s:%(name)s:%(message)s"

/-- The entry of a style of formats: its mark, the name of its class and its plain format. -/
def styleEntry (mark name format : String) : String :=
  "'" ++ mark ++ "': (<class 'logging." ++ name ++ "'>, '" ++ format ++ "')"

/-- The table of the styles of formats. -/
def styleTable : String :=
  "\x7b" ++ ", ".intercalate
    [styleEntry "%" "PercentStyle" plainFormat,
      styleEntry "\x7b" "StrFormatStyle" "\x7blevelname\x7d:\x7bname\x7d:\x7bmessage\x7d",
      styleEntry "$" "StringTemplateStyle"
        "$\x7blevelname\x7d:$\x7bname\x7d:$\x7bmessage\x7d"] ++ "\x7d"

/-- The kind of the refusal of a name. -/
def Misnomer.kind : Misnomer → String
  | format => "ValueError"
  | styles => "TypeError"

/-- The wording of the refusal of a name. -/
def Misnomer.message : Misnomer → String
  | format => "Unknown level: '" ++ plainFormat ++ "'"
  | styles => "Level not an integer or a valid string: " ++ styleTable

/-- The level of a name in capitals. -/
def ofCapitals (name : String) : Except Misnomer Level :=
  match name with
  | "NOTSET" => .ok unset
  | "DEBUG" => .ok debug
  | "WARN" => .ok warning
  | "WARNING" => .ok warning
  | "ERROR" => .ok error
  | "CRITICAL" => .ok critical
  | "FATAL" => .ok critical
  | "BASIC_FORMAT" => .error .format
  | "_STYLES" => .error .styles
  | _ => .ok info

/-- The level of a name in any case; an unknown name counts as `info`. -/
def ofName (name : String) : Except Misnomer Level :=
  ofCapitals (Text.upper name)

/-- The level at which a method logs. -/
def ofMethod (method : String) : Level :=
  match method with
  | "debug" => debug
  | "warn" => warning
  | "warning" => warning
  | "err" => error
  | "error" => error
  | "exception" => error
  | "fatal" => critical
  | "critical" => critical
  | _ => info

end Level

/-- A log: its level and the fields of the scopes that are entered. -/
structure Logger where
  level : Level
  scope : Keyed Json := .empty

namespace Logger

/-- The number of the level of libraries that log too much. -/
def noisyNumber (logger : Logger) : Nat :=
  max logger.level.number Level.warning.number

/-- Enter a scope. -/
def enter (logger : Logger) (fields : Fields) : Logger :=
  { logger with scope := fields.foldl (fun m field => m.set field.1 field.2) logger.scope }

/-- Leave all scopes. -/
def leave (logger : Logger) : Logger :=
  { logger with scope := .empty }

/-- The fields that a record takes out: its time and the error that it is about. -/
def takenOut : List String := ["timestamp", "exc_info"]

/-- The fields of a record of an event. -/
def record (logger : Logger) (source : String) (level : Level) (event : String) (fields : Fields) :
    Fields :=
  let all := fields ++ [("event", .str event), ("logger", .str source), ("level", .str level.name)]
  let found := (all.foldl (fun m field => m.set field.1 field.2) logger.scope).entries
  writable (found.filter fun field => !takenOut.contains field.1)

/-- The record of an event, unless it is below the level of the log. -/
def record? (logger : Logger) (source : String) (level : Level) (event : String)
    (fields : Fields) : Option Fields :=
  if level.number < logger.level.number then none
  else some (logger.record source level event fields)

end Logger

end Log

end ComponentBuilder
