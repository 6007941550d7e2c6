import ComponentBuilder.Json.Embedded
import ComponentBuilder.Schema.Issue

/-!
# Failures of agents

Why a planner, a generator or an explainer has no result.
-/

namespace ComponentBuilder

namespace Agent

/-- What is wrong with a plan that a model wrote. -/
inductive PlanFault where
  /-- It holds no object. -/
  | unread (error : Json.EmbeddedError)
  /-- It breaks the rules for plans. -/
  | invalid (issues : List Schema.Issue)
deriving DecidableEq, Repr

/-- The wording of a fault; a mark stands for issues, which are listed apart. -/
def PlanFault.message : PlanFault → String
  | unread error => error.message
  | invalid _ => "<validation>"

/-- The families of failures that callers tell apart, whatever a failure is called. -/
inductive Failure.Family where
  /-- A provider refused calls for reasons of quota. -/
  | quota
  /-- A model gave no result for any other reason. -/
  | upstream
  | other
deriving DecidableEq, Repr

/-- Why an agent has no result. -/
inductive Failure where
  /-- There was nothing to plan. -/
  | emptyIntent
  /-- A plan could not be written into a prompt. -/
  | unprintable (error : Json.PrintError)
  /-- A model wrote no plan. -/
  | unusablePlan (fault : PlanFault)
  /-- A model wrote no code. -/
  | noCode
  /-- Calls of a role are suspended. -/
  | suspended (role : String)
  /-- The provider refused a call for reasons of quota once too often. -/
  | quota (role reason : String)
  /-- A call went wrong. -/
  | broken (role reason : String)
  /-- The factor of the next pause is no double. -/
  | overlongPause
  /-- Anything else. -/
  | other (family : Failure.Family) (kind reason : String)
deriving DecidableEq, Repr

namespace Failure

/-- The kind of a failure. -/
def kind : Failure → String
  | emptyIntent => "ValueError"
  | unprintable _ => "TypeError"
  | quota _ _ => "RateLimitError"
  | overlongPause => "OverflowError"
  | other _ kind _ => kind
  | _ => "UpstreamGenerationError"

/-- The wording of a failure. -/
def message : Failure → String
  | emptyIntent => "Cannot plan an empty intent"
  | unprintable error => error.message
  | unusablePlan fault => "Planner returned an unusable plan: " ++ fault.message
  | noCode => "Generator returned no code"
  | suspended role => role ++ " unavailable: circuit breaker open"
  | quota role reason => "Quota Exceeded for " ++ role ++ ": " ++ reason
  | broken role reason => role ++ " failed: " ++ reason
  | overlongPause => "int too large to convert to float"
  | other _ _ reason => reason

/-- The family of a failure. -/
def family : Failure → Family
  | emptyIntent | unprintable _ | overlongPause => .other
  | unusablePlan _ | noCode | suspended _ | broken _ _ => .upstream
  | quota _ _ => .quota
  | other family _ _ => family

/-- The role whose model is to blame, if any. -/
def role? : Failure → Option String
  | unusablePlan _ => some "planner"
  | noCode => some "generator"
  | suspended role => some role
  | quota role _ => some role
  | broken role _ => some role
  | _ => none

/-- The issues of a plan that breaks the rules. -/
def issues : Failure → List Schema.Issue
  | unusablePlan (.invalid issues) => issues
  | _ => []

end Failure

end Agent

end ComponentBuilder
