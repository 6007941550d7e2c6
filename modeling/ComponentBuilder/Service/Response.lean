import ComponentBuilder.Build
import ComponentBuilder.Preview.Document

/-!
# Responses

What the service answers with, and which faults lead to which answers: faults of the request are the
client's, failures of models are those of a gateway, and what is left is a failure of the service.
-/

namespace ComponentBuilder

namespace Service

/-- What a response holds. -/
inductive Content where
  | json (value : Json)
  | page (document : Preview.Document)
  | text (text : String)
  /-- Counters as lines of the text exposition format. -/
  | exposition (lines : List String)

/-- The media type of what a response holds. -/
def Content.mediaType : Content → String
  | json _ => "application/json"
  | page _ => "text/html; charset=utf-8"
  | text _ => "text/plain; charset=utf-8"
  | exposition _ => "text/plain; version=1.0.0; charset=utf-8"

/-- A response. -/
structure Response where
  status : Nat
  content : Content
  headers : List (String × String) := []

namespace Response

/-- A response that holds fields. -/
def object (status : Nat) (fields : List (String × Json)) : Response where
  status := status
  content := .json (.obj fields)

/-- An answer to a request that succeeded. -/
def ok (value : Json) : Response where
  status := 200
  content := .json value

/-- A response that says what went wrong. -/
def error (status : Nat) (message : String) (more : List (String × Json) := []) : Response :=
  object status (("error", .str message) :: more)

/-- A response that says in one word why nothing was done. -/
def detail (status : Nat) (message : String) : Response :=
  object status [("detail", .str message)]

/-- No path of the service. -/
def notFound : Response :=
  detail 404 "Not Found"

/-- A path of the service with another method. -/
def notAllowed : Response :=
  detail 405 "Method Not Allowed"

/-- A failure of the service itself. -/
def failure : Response where
  status := 500
  content := .text "Internal Server Error"

/-- Strings as an array. -/
def strings (texts : List String) : Json :=
  .arr (texts.map .str)

/-- The answer to rejected code. -/
def ofReport (report : Guard.Report) : Response :=
  error 422 report.rejection
    [("violations", strings report.messages), ("rules", strings report.ruleNames)]

/-- The answer to code that cannot be read. -/
def ofParseError (fault : Markup.ParseError) : Response :=
  error 422 fault.message [("type", .str fault.family.label)]

/-- The answer to a failure of an agent. -/
def ofFailure (failure : Agent.Failure) : Response :=
  match failure.family with
  | .quota => error 429 failure.message
  | .upstream => error 502 failure.message [("role", (failure.role?.map Json.str).getD .null)]
  | .other =>
      if failure.kind == "ValueError" then error 400 failure.message else Response.failure

/-- The answer to a fault of the store. -/
def ofStoreFault : History.StoreFault → Response
  | .unknownVersion id _ => error 404 "Version not found" [("id", .str id)]
  | _ => failure

/-- The answer to a fault of a build. -/
def ofFault : Build.Fault → Response
  | .agent failure => ofFailure failure
  | .rejected report => ofReport report
  | .store fault => ofStoreFault fault
  | .emptyPrompt => error 400 (Build.Fault.emptyPrompt.message?.getD "")

end Response

end Service

end ComponentBuilder
