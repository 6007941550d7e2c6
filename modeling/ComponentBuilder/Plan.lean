import ComponentBuilder.Schema.Shape
import ComponentBuilder.Vocabulary

/-!
# Build plans

What is to be built: the intent, the steps, the components it uses, how the page is laid out and why.
An intent is never blank, and the components belong to the vocabulary.
-/

namespace ComponentBuilder

/-- A build plan. -/
structure Plan where
  intent : String
  steps : List String := []
  components : List String := []
  layoutStrategy : String := ""
  explanation : String := ""
deriving DecidableEq, Repr, Inhabited

namespace Plan

open Schema

/-- The intent of a plan: not blank, kept without the blanks around it. -/
def checkIntent (value : Json) : Checked String :=
  (sizedString 1 none value).bind fun s =>
    let stripped := Text.strip s
    if stripped.isEmpty then .refuse (.rejected "Plan intent cannot be empty")
    else .accepted stripped

/-- Components of the vocabulary. -/
def checkComponents (value : Json) : Checked (List String) :=
  (list string value).bind fun names =>
    let unknown := names.filter (!Vocabulary.planComponents.contains ·)
    if unknown.isEmpty then .accepted names
    else
      .refuse (.rejected ("Components outside the whitelist: " ++ ", ".intercalate unknown))

/-- A plan from the fields of an object. -/
def ofFields (fields : List (String × Json)) : Checked Plan :=
  Plan.mk <$> required ["intent"] checkIntent fields
    <*> optional ["steps"] [] (list string) fields
    <*> optional ["components"] [] checkComponents fields
    <*> optional ["layoutStrategy", "layout_strategy"] "" string fields
    <*> optional ["explanation"] "" string fields

/-- A plan from a JSON value. -/
def ofJson (value : Json) : Checked Plan :=
  record "Plan" ofFields value

/-- A plan as stored, with the given name for the layout strategy. -/
def toJsonWith (layoutName : String) (plan : Plan) : Json :=
  .obj [("intent", .str plan.intent), ("steps", .arr (plan.steps.map .str)),
    ("components", .arr (plan.components.map .str)), (layoutName, .str plan.layoutStrategy),
    ("explanation", .str plan.explanation)]

/-- A plan as stored. -/
def toJson (plan : Plan) : Json :=
  plan.toJsonWith "layout_strategy"

/-- A plan as models and clients see it. -/
def toPublicJson (plan : Plan) : Json :=
  plan.toJsonWith "layoutStrategy"

/-- The summary for the conversation. -/
def summary (plan : Plan) : String :=
  "### Design Plan\n**Intent**: " ++ plan.intent ++ "\n**Steps**:\n" ++
    "\n".intercalate (plan.steps.map ("- " ++ ·)) ++ "\n\n**Layout Strategy**: " ++
    plan.layoutStrategy ++ "\n**Components**: " ++ ", ".intercalate plan.components

end Plan

end ComponentBuilder
