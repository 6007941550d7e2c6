import ComponentBuilder.Preview.Document

/-!
# Preview sessions

A session follows one preview frame.  Every load replaces the document and counts a generation;
reports of older generations are ignored, and a watchdog fails a document that does not mount in
time.
-/

namespace ComponentBuilder

namespace Preview

/-- What a preview frame is doing. -/
inductive State where
  | idle
  | compiling
  | mounted
  | compileError
  | runtimeError
deriving DecidableEq, Repr

namespace State

/-- The name of a state in reports. -/
def label : State → String
  | idle => "idle"
  | compiling => "compiling"
  | mounted => "mounted"
  | compileError => "compile_error"
  | runtimeError => "runtime_error"

/-- All states. -/
def all : List State :=
  [idle, compiling, mounted, compileError, runtimeError]

/-- The state of a name. -/
def ofLabel? (label : String) : Option State :=
  all.find? (·.label == label)

/-- Whether a report may take a session from one state to another. -/
def admits : State → State → Bool
  | compiling, mounted => true
  | compiling, compileError => true
  | compiling, runtimeError => true
  | mounted, runtimeError => true
  | _, _ => false

end State

/-- A preview frame as its host sees it. -/
structure Session where
  /-- How long a document may take to mount; no watch is kept when absent or zero. -/
  watchdog : Option Double
  state : State := .idle
  generation : Int := 0
  message : String := ""
  startedAt : Option Double := none
deriving DecidableEq, Repr

namespace Session

/-- Load a source at a time: the session afterwards and the document. -/
def load (session : Session) (now : Double) (source : Json) : Session × Document :=
  let generation := session.generation + 1
  ({ session with
      generation := generation
      state := .compiling
      message := ""
      startedAt := some now },
    compile source generation)

/-- Take a report into account: the session afterwards and whether it changed. -/
def report (session : Session) (generation : Int) (state message : String) : Session × Bool :=
  match State.ofLabel? state with
  | none => (session, false)
  | some state =>
      if generation = session.generation && session.state.admits state then
        ({ session with state := state, message := message }, true)
      else (session, false)

/-- The time allowed for mounting, when a watch is kept. -/
def deadline? (session : Session) : Option Double :=
  session.watchdog.filter (!·.isZero)

/-- Fail a document that has been compiling for too long: the session and whether it was failed. -/
def checkWatchdog (session : Session) (now : Double) : Session × Bool :=
  match session.deadline?, session.state, session.startedAt with
  | some allowed, .compiling, some started =>
      if (now.sub started).lt allowed then (session, false)
      else
        ({ session with
            state := .runtimeError
            message := "Preview timed out after " ++ allowed.generalText ++ "s" }, true)
  | _, _, _ => (session, false)

/-- Drop the document. -/
def reset (session : Session) : Session :=
  { session with state := .idle, message := "", startedAt := none }

end Session

end Preview

end ComponentBuilder
