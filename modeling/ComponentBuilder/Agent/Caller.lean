import ComponentBuilder.Agent.Breaker
import ComponentBuilder.Agent.Failure
import ComponentBuilder.Metrics
import ComponentBuilder.Text.CharClass

/-!
# Calls of a model

A call goes through a circuit breaker.  When the provider refuses it for reasons of quota, it is made
again after a pause that doubles every time, up to a number of times; any other failure ends it, and so does
a pause whose factor is no double any more.
-/

namespace ComponentBuilder

namespace Agent

/-- An error that a provider raises. -/
structure ProviderError where
  kind : String
  text : String
  /-- Further data of the error. -/
  fields : List (String × Json) := []
deriving Repr

namespace ProviderError

/-- The fields that may hold the status of a response. -/
def statusFields : List String :=
  ["status", "status_code", "code"]

/-- The words of a refusal for reasons of quota. -/
def quotaWords : List String :=
  ["429", "quota exceeded", "rate limit", "resource exhausted", "resourceexhausted"]

/-- Whether a value is the status of a refusal for reasons of quota. -/
def isQuotaStatus : Json → Bool
  | .int n => n == 429
  | .double x => x == Double.ofInt 429
  | _ => false

/-- Whether the provider refused a call for reasons of quota. -/
def isQuota (error : ProviderError) : Bool :=
  error.kind == "RateLimitError" ||
    statusFields.any (fun name => (error.fields.lookup name).any isQuotaStatus) ||
    quotaWords.any fun words =>
      Text.occursIn words (Text.lowerAscii (error.kind ++ " " ++ error.text))

end ProviderError

/-- What a model answers. -/
inductive Reply where
  /-- A value; a text as such. -/
  | value (value : Json)
  /-- A message that may have content. -/
  | message (content : Option String)
  /-- An error. -/
  | error (error : ProviderError)

/-- The text of an answer: a text or the content of a message, else how the answer displays. -/
def Reply.text : Reply → Except ProviderError String
  | value v => .ok v.displayText
  | message content =>
      match content with
      | some text => .ok (if text.isEmpty then "<message>" else text)
      | none => .ok "<message>"
  | error e => .error e

/-- A model that answers from a script and then has nothing left to say. -/
abbrev Script := List Reply

/-- The answer to the next prompt, and the script after it. -/
def Script.next : Script → Reply × Script
  | [] => (.error ⟨"RuntimeError", "script exhausted", []⟩, [])
  | reply :: rest => (reply, rest)

/-- What is seen of calls from outside. -/
structure Trace where
  /-- The prompts that reached the model. -/
  prompts : List String := []
  /-- The pauses between attempts, in seconds. -/
  pauses : List Double := []
  /-- What is counted. -/
  events : List Metrics.Event := []
deriving Repr

namespace Trace

/-- One trace after another. -/
def append (first second : Trace) : Trace where
  prompts := first.prompts ++ second.prompts
  pauses := first.pauses ++ second.pauses
  events := first.events ++ second.events

instance : Append Trace := ⟨append⟩

@[simp] theorem prompts_append (first second : Trace) :
    (first ++ second).prompts = first.prompts ++ second.prompts := rfl

@[simp] theorem pauses_append (first second : Trace) :
    (first ++ second).pauses = first.pauses ++ second.pauses := rfl

@[simp] theorem events_append (first second : Trace) :
    (first ++ second).events = first.events ++ second.events := rfl

end Trace

/-- How a role calls its model. -/
structure CallPolicy where
  role : String
  /-- How often a call refused for reasons of quota is made again. -/
  retries : Nat
  /-- The first pause, in seconds. -/
  pause : Double

/-- A model behind a breaker. -/
structure Line where
  script : Script
  breaker : Breaker

/-- A call: its result, the line after it, and its trace. -/
structure Call where
  result : Except Failure String
  line : Line
  trace : Trace

namespace CallPolicy

/-- The count of a call by its outcome. -/
def counted (policy : CallPolicy) (status : String) : Metrics.Event :=
  .modelCall policy.role status

/-- An attempt that the breaker stops, before or after it reached the model. -/
def stopped (policy : CallPolicy) (line : Line) (prompts : List String) : Call where
  result := .error (.suspended policy.role)
  line := line
  trace := { prompts := prompts, events := [policy.counted "breaker_open"] }

/-- The pause after a number of retries: the first pause times a power of two, as long as that is a double. -/
def pauseAfter? (policy : CallPolicy) (made : Nat) : Option Double :=
  let factor := Double.ofInt (Int.pow 2 made)
  if factor.isFinite then some (policy.pause.mul factor) else none

/-- Make a call at a time, after `made` retries and with `retries` left. -/
def attempt (policy : CallPolicy) (now : Int) (prompt : String) :
    (retries : Nat) → (made : Nat) → Line → Call
  | retries, made, line =>
      match line.breaker.admission now with
      | .refused => policy.stopped line []
      | _ =>
          let (reply, script) := line.script.next
          match reply.text with
          | .ok text => {
              result := .ok text
              line := ⟨script, line.breaker.succeed⟩
              trace := { prompts := [prompt], events := [policy.counted "success"] } }
          | .error error =>
              let line : Line := ⟨script, line.breaker.fail now⟩
              if line.breaker.isOpen then policy.stopped line [prompt]
              else if !error.isQuota then {
                result := .error (.broken policy.role error.text)
                line := line
                trace := { prompts := [prompt], events := [policy.counted "error"] } }
              else
                let refused : Trace :=
                  { prompts := [prompt], events := [policy.counted "rate_limited"] }
                match retries with
                | 0 => ⟨.error (.quota policy.role error.text), line, refused⟩
                | retries + 1 =>
                    match policy.pauseAfter? made with
                    | none => ⟨.error .overlongPause, line, refused⟩
                    | some pause =>
                        let later := policy.attempt now prompt retries (made + 1) line
                        { later with trace := refused ++ { pauses := [pause] } ++ later.trace }
termination_by structural retries => retries

/-- Make a call at a time. -/
def call (policy : CallPolicy) (now : Int) (prompt : String) (line : Line) : Call :=
  policy.attempt now prompt policy.retries 0 line

end CallPolicy

end Agent

end ComponentBuilder
