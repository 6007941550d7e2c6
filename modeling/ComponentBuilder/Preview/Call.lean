import ComponentBuilder.Preview.Session

/-!
# Calls of a preview session

The calls that a host makes of a session, each with the reading of the clock that it takes, and what a
sequence of calls makes of a session.
-/

namespace ComponentBuilder

namespace Preview

/-- A call of a session. -/
inductive Call where
  | load (now : Double) (source : Json)
  | report (generation : Int) (state message : String)
  | checkWatchdog (now : Double)
  | reset

namespace Call

/-- Whether a call gives a session another document, or none. -/
def turns : Call → Bool
  | load _ _ | reset => true
  | report _ _ _ | checkWatchdog _ => false

/-- The time of a load. -/
def loadTime? : Call → Option Double
  | load now _ => some now
  | _ => none

/-- Whether a call loads a document. -/
def isLoad (call : Call) : Bool :=
  call.loadTime?.isSome

/-- Whether a call looks at the clock for a document that is late. -/
def isWatch : Call → Bool
  | checkWatchdog _ => true
  | _ => false

end Call

namespace Session

/-- Make a call: the session afterwards, and whether it was changed by a call that says so. -/
def perform (session : Session) : Call → Session × Option Bool
  | .load now source => ((session.load now source).1, none)
  | .report generation state message =>
      let (next, changed) := session.report generation state message
      (next, some changed)
  | .checkWatchdog now =>
      let (next, fired) := session.checkWatchdog now
      (next, some fired)
  | .reset => (session.reset, none)

/-- The session after calls made one after the other. -/
def after (session : Session) (calls : List Call) : Session :=
  calls.foldl (fun session call => (session.perform call).1) session

/-- The state of a session, and its state after each of the calls made one after the other. -/
def states (session : Session) : List Call → List State
  | [] => [session.state]
  | call :: rest => session.state :: (session.perform call).1.states rest

/-- How many of the calls made one after the other fail a document that is late. -/
def firings (session : Session) : List Call → Nat
  | [] => 0
  | call :: rest =>
      let (next, answer) := session.perform call
      (if call.isWatch && answer == some true then 1 else 0) + next.firings rest

end Session

end Preview

end ComponentBuilder
