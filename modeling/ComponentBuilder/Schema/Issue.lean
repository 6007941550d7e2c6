import ComponentBuilder.Json.Value
import ComponentBuilder.Text.Basic

/-!
# Findings of a check

Checking a JSON value against an expected shape either accepts it as a typed value or refuses it with
a list of issues.  Independent parts are all checked, and their issues are listed in order.
-/

namespace ComponentBuilder

namespace Schema

/-- One step on the way to a part of a value. -/
inductive Place where
  | key (name : String)
  | index (number : Nat)
deriving DecidableEq, Repr

/-- What is wrong with a part of a value. -/
inductive Cause where
  | missing
  | notPermitted
  | notString
  | tornString
  | tooShort (least : Nat)
  | tooLong (most : Nat)
  | notList
  | notObject
  | notRecord (name : String)
  | notFields
  | notBool
  | unreadableBool
  | notInteger
  | unreadableInteger
  | oversizedInteger
  | fractionalInteger
  | notFinite
  | notNumber
  | unreadableNumber
  | notPath
  | above (most : Int)
  | below (least : Int)
  | notAbove (limit : Int)
  | notLiteral (expected : String)
  | notMember (members : List String)
  | notTimestamp
  | unreadableTimestamp (detail : String)
  | unreadableDate (detail : String)
  | notJson
  | rejected (reason : String)
deriving DecidableEq, Repr

namespace Cause

/-- The words joined with commas and an `or` before the last. -/
def alternatives : List String → String
  | [] => ""
  | [word] => word
  | words => ", ".intercalate words.dropLast ++ " or " ++ words.getLastD ""

/-- The name of a cause. -/
def label : Cause → String
  | missing => "missing"
  | notPermitted => "extra_forbidden"
  | notString => "string_type"
  | tornString => "string_unicode"
  | tooShort _ => "string_too_short"
  | tooLong _ => "string_too_long"
  | notList => "list_type"
  | notObject => "dict_type"
  | notRecord _ => "model_type"
  | notFields => "model_attributes_type"
  | notBool => "bool_type"
  | unreadableBool => "bool_parsing"
  | notInteger => "int_type"
  | unreadableInteger => "int_parsing"
  | oversizedInteger => "int_parsing_size"
  | fractionalInteger => "int_from_float"
  | notFinite => "finite_number"
  | notNumber => "float_type"
  | unreadableNumber => "float_parsing"
  | notPath => "path_type"
  | above _ => "less_than_equal"
  | below _ => "greater_than_equal"
  | notAbove _ => "greater_than"
  | notLiteral _ => "literal_error"
  | notMember _ => "enum"
  | notTimestamp => "datetime_type"
  | unreadableTimestamp _ => "datetime_parsing"
  | unreadableDate _ => "datetime_from_date_parsing"
  | notJson => "json_invalid"
  | rejected _ => "value_error"

/-- A count of characters. -/
def characters (count : Nat) : String :=
  toString count ++ (if count = 1 then " character" else " characters")

/-- The wording of a cause. -/
def message : Cause → String
  | missing => "Field required"
  | notPermitted => "Extra inputs are not permitted"
  | notString => "Input should be a valid string"
  | tornString => "Input should be a valid string, unable to parse raw data as a unicode string"
  | tooShort least => "String should have at least " ++ characters least
  | tooLong most => "String should have at most " ++ characters most
  | notList => "Input should be a valid list"
  | notObject => "Input should be a valid dictionary"
  | notRecord name => "Input should be a valid dictionary or instance of " ++ name
  | notFields => "Input should be a valid dictionary or object to extract fields from"
  | notBool => "Input should be a valid boolean"
  | unreadableBool => "Input should be a valid boolean, unable to interpret input"
  | notInteger => "Input should be a valid integer"
  | unreadableInteger => "Input should be a valid integer, unable to parse string as an integer"
  | oversizedInteger => "Unable to parse input string as an integer, exceeded maximum size"
  | fractionalInteger => "Input should be a valid integer, got a number with a fractional part"
  | notFinite => "Input should be a finite number"
  | notNumber => "Input should be a valid number"
  | unreadableNumber => "Input should be a valid number, unable to parse string as a number"
  | notPath => "Input is not a valid path for <class 'pathlib.Path'>"
  | above most => "Input should be less than or equal to " ++ toString most
  | below least => "Input should be greater than or equal to " ++ toString least
  | notAbove limit => "Input should be greater than " ++ toString limit
  | notLiteral expected => "Input should be '" ++ expected ++ "'"
  | notMember members => "Input should be " ++ alternatives (members.map ("'" ++ · ++ "'"))
  | notTimestamp => "Input should be a valid datetime"
  | unreadableTimestamp detail => "Input should be a valid datetime, " ++ detail
  | unreadableDate detail => "Input should be a valid datetime or date, " ++ detail
  | notJson => "JSON decode error"
  | rejected reason => "Value error, " ++ reason

end Cause

/-- A cause and the place at which it was found, from the outside in. -/
structure Issue where
  cause : Cause
  place : List Place := []
deriving DecidableEq, Repr

/-- The outcome of a check. -/
inductive Checked (α : Type) where
  | accepted (value : α)
  | refused (issues : List Issue)
deriving Repr

namespace Checked

variable {α β : Type}

/-- Refuse for one cause. -/
def refuse (cause : Cause) : Checked α :=
  .refused [⟨cause, []⟩]

/-- Apply a function to an accepted value. -/
def map (f : α → β) : Checked α → Checked β
  | accepted value => accepted (f value)
  | refused issues => refused issues

/-- Check an accepted value further. -/
def bind (checked : Checked α) (f : α → Checked β) : Checked β :=
  match checked with
  | accepted value => f value
  | refused issues => refused issues

/-- Bring two independent checks together; the issues of both are kept. -/
def apply (f : Checked (α → β)) (x : Checked α) : Checked β :=
  match f, x with
  | accepted f, accepted x => accepted (f x)
  | accepted _, refused issues => refused issues
  | refused issues, accepted _ => refused issues
  | refused issues, refused more => refused (issues ++ more)

instance : Applicative Checked where
  pure := accepted
  seq f x := apply f (x ())

/-- Say that a check was made at a place inside a value. -/
def within (place : Place) : Checked α → Checked α
  | accepted value => accepted value
  | refused issues => refused (issues.map fun issue => { issue with place := place :: issue.place })

/-- The accepted value. -/
def value? : Checked α → Option α
  | accepted value => some value
  | refused _ => none

end Checked

end Schema

end ComponentBuilder
