import ComponentBuilder.Json.Damaged
import ComponentBuilder.Text.Fence

/-!
# Objects inside prose

Language models wrap the object they were asked for in fences and prose.  The object is taken from
the first opening to the last closing brace of the fenced text and read strictly; what cannot be read
may be repaired.
-/

namespace ComponentBuilder

namespace Json

/-- Why no object was found. -/
inductive EmbeddedError where
  /-- No braces enclose anything. -/
  | noObject (text : String)
  /-- The text between the braces is malformed. -/
  | malformed
  /-- The text between the braces cannot be repaired. -/
  | beyondRepair
  /-- The repaired text stands for something else. -/
  | otherKind (kind : String)
deriving DecidableEq, Repr

/-- How much of a text a message shows. -/
def shownLength : Nat := 200

/-- The wording of a failure to find an object. -/
def EmbeddedError.message : EmbeddedError → String
  | noObject text => "No JSON object found in text: " ++ Text.clip shownLength text
  | malformed => "Invalid JSON"
  | beyondRepair => "JSON repair failed"
  | otherKind kind => "Expected object, got " ++ kind

/-- The text from the first opening brace to the last closing brace; empty when there is none. -/
def braced (text : List Char) : List Char :=
  ((text.dropWhile (· != '{')).reverse.dropWhile (· != '}')).reverse

/-- Strict reading: as deep as the text goes, integers of any size. -/
def strict? (text : List Char) : Option Json :=
  read? (wideLimits text) text

/-- Lenient reading: doubles need not be finite, strings may be torn, and damage is repaired. -/
def lenient? (text : List Char) : Option Json :=
  (read? { wideLimits text with nonFinite := true, halves := true } text).or (Damaged.read? text)

/-- The object embedded in a text. -/
def embedded (repair : Bool) (text : String) : Except EmbeddedError (List (String × Json)) :=
  let candidate := braced (Text.fencedBody text.toList)
  if candidate.isEmpty then .error (.noObject text)
  else
    match strict? candidate with
    | some (.obj fields) => .ok fields
    | some other => .error (.otherKind other.kindWord)
    | none =>
        if !repair then .error .malformed
        else
          match lenient? candidate with
          | some (.obj fields) => .ok fields
          | some other => .error (.otherKind other.kindWord)
          | none => .error .beyondRepair

end Json

end ComponentBuilder
