import ComponentBuilder.Json.Diagnosis
import ComponentBuilder.Request
import ComponentBuilder.Service.Response

/-!
# Bodies of requests

A body is read as JSON and checked against the fields that a resource expects.  The answer to a body
that is refused lists all issues with their places; it quotes the parts that are refused, so it cannot
be written when one of them holds a double that is not finite or a torn string.
-/

namespace ComponentBuilder

namespace Service

open Schema

/-- An issue as clients are told of it. -/
def jsonIssue (issue : Issue) : Json :=
  .obj [("type", .str issue.cause.label),
    ("loc", .arr (issue.place.map fun
      | .key name => .str name
      | .index number => .int number)),
    ("msg", .str issue.cause.message)]

/-- The answer to issues in a body. -/
def refusal (issues : List Issue) : Response :=
  .object 422 [("detail", .arr (issues.map jsonIssue))]

/-- The part of a value at a place. -/
def partAt (value : Json) : List Place → Json
  | [] => value
  | .key name :: rest => partAt (value.field name) rest
  | .index number :: rest => partAt ((value.items[number]?).getD .null) rest

/-- The part of a value that an issue quotes: what lacks a field, or what is refused. -/
def quotedPart (value : Json) (issue : Issue) : Json :=
  partAt value (if issue.cause = .missing then issue.place.dropLast else issue.place)

mutual

/-- Whether a value can be quoted: its doubles are finite and none of its strings is torn. -/
def isQuotable : Json → Bool
  | .double x => x.isFinite
  | .torn => false
  | .arr items => allQuotable items
  | .obj fields => allQuotableFields fields
  | _ => true

/-- Whether all values of a list can be quoted. -/
def allQuotable : List Json → Bool
  | [] => true
  | item :: rest => isQuotable item && allQuotable rest

/-- Whether the values of all fields can be quoted. -/
def allQuotableFields : List (String × Json) → Bool
  | [] => true
  | (_, value) :: rest => isQuotable value && allQuotableFields rest

end

/-- The answer to issues in a value. -/
def refuseValue (value : Json) (issues : List Issue) : Response :=
  if issues.all fun issue => isQuotable (quotedPart value issue) then
    refusal (issues.map fun issue => { issue with place := .key "body" :: issue.place })
  else .failure

/-- Check the fields of a value. -/
def checkFields {α : Type} (check : List (String × Json) → Checked α) (value : Json) :
    Except Response α :=
  let checked :=
    match value with
    | .obj fields => check fields
    | _ => .refuse .notFields
  match checked with
  | .accepted request => .ok request
  | .refused issues => .error (refuseValue value issues)

/-- What a body asks for; an empty one counts as missing. -/
def readRequest {α : Type} (check : List (String × Json) → Checked α) (body : String) :
    Except Response α :=
  if body.isEmpty then .error (refusal [⟨.missing, [.key "body"]⟩])
  else
    match Json.readBody body with
    | .ok value => checkFields check value
    | .error (.malformed offset) =>
        .error (refusal [⟨.notJson, [.key "body", .index offset]⟩])
    | .error .excessive => .error (.detail 400 "There was an error parsing the body")

end Service

end ComponentBuilder
