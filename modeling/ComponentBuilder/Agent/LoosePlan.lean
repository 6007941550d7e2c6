import ComponentBuilder.Agent.Prompt
import ComponentBuilder.Json.Display

/-!
# Loosely shaped plans

A language model answers with a plan whose fields may have other kinds, other names or superfluous
entries.  Whatever can be taken as text is taken as text, components outside the vocabulary are
dropped, and the request stands in for a missing intent.
-/

namespace ComponentBuilder

namespace Agent

namespace LoosePlan

/-- A value as a text; a torn one stays torn. -/
def written : Json → Json
  | .torn => .torn
  | value => .str value.displayText

/-- Whether a text is not blank. -/
def hasText : Json → Bool
  | .str s => !(Text.strip s).isEmpty
  | _ => true

/-- A value as a list of texts that are not blank: a text, or an array of anything. -/
def texts : Json → List Json
  | .str s => [Json.str s].filter hasText
  | .torn => [.torn]
  | .arr items => (items.map written).filter hasText
  | _ => []

/-- The value of the first of the fields that is there; none counts as an empty array. -/
def listed (data : Json) (names : List String) : List Json :=
  texts ((names.findSome? data.field?).getD (.arr []))

/-- The value of the first of the fields that is there, as a text; what does not hold is empty. -/
def text (data : Json) (names : List String) : Json :=
  match names.findSome? data.field? with
  | some value => if value.holds then written value else .str ""
  | none => .str ""

/-- The intent for a plan: the answer's own if it holds, or else the one that was asked for. -/
def intent (data : Json) (asked : String) : Json :=
  if (data.field "intent").holds then written (data.field "intent") else .str asked

/-- The components of the vocabulary among some texts, each once. -/
def knownComponents (names : List Json) : List String :=
  Text.distinct ((names.filterMap Json.str?).filter Vocabulary.planComponents.contains)

/-- The fields of a plan that an answer stands for. -/
def fields (data : Json) (asked : String) : List (String × Json) :=
  [("intent", intent data asked), ("steps", .arr (listed data ["steps"])),
    ("components", .arr ((knownComponents (listed data ["components", "componentsToUse"])).map .str)),
    ("layout_strategy", text data ["layoutStrategy", "layout_strategy"]),
    ("explanation", text data ["explanation"])]

/-- The plan that an answer stands for, given the intent that was asked for. -/
def plan (data : Json) (asked : String) : Schema.Checked Plan :=
  Plan.ofFields (fields data asked)

end LoosePlan

end Agent

end ComponentBuilder
