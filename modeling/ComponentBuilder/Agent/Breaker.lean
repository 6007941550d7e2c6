/-!
# Circuit breakers

A breaker counts failures in a row.  The failure that reaches its limit opens it; while it is open
calls are refused, until a time has passed after which one call is let through on trial.  Success
closes the breaker and clears the count.
-/

namespace ComponentBuilder

namespace Agent

/-- A circuit breaker; times are in seconds. -/
structure Breaker where
  /-- How many failures in a row open it. -/
  limit : Int
  /-- How long it stays open. -/
  rest : Int
  /-- The failures since the last success. -/
  failures : Nat := 0
  /-- When it opened last, as long as it is open. -/
  openedAt : Option Int := none
deriving DecidableEq, Repr

namespace Breaker

/-- Whether a call may be made. -/
inductive Admission where
  /-- The breaker is closed. -/
  | granted
  /-- The breaker has rested; the call decides. -/
  | onTrial
  /-- The breaker is open. -/
  | refused
deriving DecidableEq, Repr

/-- Whether a call may be made at a time. -/
def admission (breaker : Breaker) (now : Int) : Admission :=
  match breaker.openedAt with
  | none => .granted
  | some opened => if now < opened + breaker.rest then .refused else .onTrial

/-- The breaker after a successful call. -/
def succeed (breaker : Breaker) : Breaker :=
  { breaker with failures := 0, openedAt := none }

/-- The breaker after a failed call at a time. -/
def fail (breaker : Breaker) (now : Int) : Breaker :=
  let failures := breaker.failures + 1
  let opens := breaker.openedAt.isSome || breaker.limit ≤ (failures : Int)
  { breaker with failures := failures, openedAt := if opens then some now else none }

/-- Whether the breaker is open. -/
def isOpen (breaker : Breaker) : Bool :=
  breaker.openedAt.isSome

/-- The word for the state of a breaker. -/
def label (breaker : Breaker) : String :=
  if breaker.isOpen then "open" else "closed"

end Breaker

end Agent

end ComponentBuilder
