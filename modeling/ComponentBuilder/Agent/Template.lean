import ComponentBuilder.Agent.LoosePlan

/-!
# Answers without a model

The plan, the code and the explanation that are used when no model is configured.
-/

namespace ComponentBuilder

namespace Agent

namespace Template

open Prompt (PreviousPlan)

/-- The components of every plan. -/
def components : List String :=
  ["Container", "Stack", "Card", "Button"]

/-- The components of a plan that follows an earlier one: those of the earlier one come first. -/
def componentsAfter (previous : Option PreviousPlan) : List String :=
  match previous with
  | some (field :: fields) =>
      let earlier := (LoosePlan.listed (.obj (field :: fields)) ["components"]).filterMap Json.str?
      (Text.distinct (earlier ++ components)).filter Vocabulary.planComponents.contains
  | _ => components

/-- The plan for an intent; a blank intent has none. -/
def plan? (intent : String) (previous : Option PreviousPlan) : Option Plan :=
  let stripped := Text.strip intent
  if stripped.isEmpty then none
  else some {
    intent := stripped
    steps := ["Analyze request context", "Map to component library components",
      "Define state and prop requirements"]
    components := componentsAfter previous
    layoutStrategy := "Single centered column: Container wrapping a Stack of Cards"
    explanation := "Template plan (no model configured)" }

/-- The characters that mean something in markup. -/
def markupSigns : List Char :=
  ['{', '}', '<', '>']

/-- An intent without the characters that mean something in markup. -/
def title (intent : String) : String :=
  String.ofList (intent.toList.filter fun c => !markupSigns.contains c)

/-- The lines of the code before the heading. -/
def opening : List String :=
  ["", "export default function App() \x7b", "  return (", "    <Container className=\"py-12\">",
    "      <Stack gap=\x7b6\x7d>", "        <Card padding=\"lg\">"]

/-- The lines of the code after the heading. -/
def closing : List String :=
  ["          <p className=\"text-gray-600 mb-6\">" ++
      "This component was generated based on your request.</p>",
    "          <Button variant=\"primary\">Learn More</Button>", "        </Card>",
    "      </Stack>", "    </Container>", "  );", "\x7d", ""]

/-- The code for a plan: a card that shows the intent. -/
def code (plan : Plan) : String :=
  "\n".intercalate (["import React from 'react';"] ++ components.map Vocabulary.importLine ++
    opening ++
    ["          <h2 className=\"text-2xl font-bold mb-4\">" ++ title plan.intent ++ "</h2>"] ++
    closing)

/-- The explanation of a plan. -/
def explanation (request : String) (plan : Plan) (previous : Option PreviousPlan) : String :=
  let verb :=
    match previous with
    | some (_ :: _) => "updated the"
    | _ => "generated a new"
  let used := ", ".intercalate plan.components
  "I've " ++ verb ++ " component to satisfy your request: \"" ++ request ++ "\". It uses " ++
    (if used.isEmpty then "plain markup" else used) ++ " from the design system."

end Template

end Agent

end ComponentBuilder
