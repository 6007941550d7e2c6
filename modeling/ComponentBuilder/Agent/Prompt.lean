import ComponentBuilder.Json.Printer
import ComponentBuilder.Plan

/-!
# Prompts

What the models are asked.  A prompt has up to three sections: the standing orders of the role, the
context, which may be missing, and the request.
-/

namespace ComponentBuilder

namespace Agent

namespace Prompt

/-- The fields of a plan made earlier, as they were sent in. -/
abbrev PreviousPlan := List (String × Json)

/-- Join lines. -/
def lines (texts : List String) : String :=
  "\n".intercalate texts

/-- The vocabulary, with the path of every component. -/
def vocabulary : String :=
  lines (["Components: " ++ ", ".intercalate Vocabulary.components,
    "Layout primitives: " ++ ", ".intercalate Vocabulary.layoutPrimitives,
    "Icons (from '" ++ Vocabulary.iconPackage ++ "'): " ++ ", ".intercalate Vocabulary.icons,
    "Import paths:"] ++
    (Vocabulary.layoutPrimitives ++ Vocabulary.components).map fun name =>
      "  " ++ Vocabulary.importLine name)

/-- What the planner is told before the vocabulary. -/
def planningRole : List String :=
  [
    "You are the planning stage of a UI builder.",
    "Turn the user's request into a structured build plan.",
    "",
    "=== VOCABULARY ==="
  ]

/-- What the planner is told after the vocabulary. -/
def planningOutput : List String :=
  [
    "",
    "=== OUTPUT ===",
    "Output ONLY a JSON object, no markdown:",
    "\x7b",
    "  \"intent\": \"one sentence describing what the user wants\",",
    "  \"steps\": [\"ordered implementation steps\"],",
    "  \"components\": [\"component names, ONLY from the vocabulary above\"],",
    "  \"layoutStrategy\": \"how the page is laid out with the layout primitives\",",
    "  \"explanation\": \"short rationale\"",
    "\x7d",
    "",
    "When a previous plan is given, treat the request as an incremental change:",
    "keep what still applies and describe only the resulting full plan."
  ]

/-- What the generator is told before the vocabulary. -/
def codingRole : List String :=
  [
    "You are the code generation stage of a UI builder.",
    "Write ONE React function component in TSX implementing the plan.",
    "",
    "=== VOCABULARY ==="
  ]

/-- What the generator is told after the vocabulary. -/
def codingRules : List String :=
  [
    "",
    "=== RULES ===",
    "- Output ONLY the module source, no markdown fences, no commentary",
    "- `import React from 'react';` plus imports from the paths above only",
    "- `export default function App() \x7b return ( ... ); \x7d` with a single root element",
    "- Style with Tailwind CSS classes; inline style=\x7b\x7b...\x7d\x7d is forbidden",
    "- No dangerouslySetInnerHTML, innerHTML, eval, new Function, <script> or <iframe>",
    "- No HTML string event handlers (onclick=\"...\"); use React handlers",
    "- Capitalised tags must come from the vocabulary"
  ]

/-- What the explainer is told. -/
def explainingRole : List String :=
  [
    "You are the explanation stage of a UI builder.",
    "In two to four sentences of plain prose, tell the user what was built or",
    "changed and why, referring to the plan. No code, no markdown headings."
  ]

/-- The standing orders of the planner. -/
def plannerOrders : String :=
  lines (planningRole ++ [vocabulary] ++ planningOutput)

/-- The standing orders of the generator. -/
def generatorOrders : String :=
  lines (codingRole ++ [vocabulary] ++ codingRules)

/-- The standing orders of the explainer. -/
def explainerOrders : String :=
  lines explainingRole

/-- A prompt in sections; an empty context has none. -/
def sections (orders context request : String) : String :=
  lines ([orders] ++ (if context.isEmpty then [] else ["\n=== CONTEXT ===\n" ++ context]) ++
    ["\n=== REQUEST ===\n" ++ request])

/-- A section of the context that shows a plan. -/
def planText (title : String) (plan : Json) : Except Json.PrintError String :=
  (plan.print .indented).map fun text => title ++ ":\n" ++ text

/-- The section that shows an earlier plan, if there is one with any fields. -/
def previousText (previous : Option PreviousPlan) : Except Json.PrintError (Option String) :=
  match previous with
  | some (field :: fields) => (planText "Previous plan" (.obj (field :: fields))).map some
  | _ => .ok none

/-- What the planner is asked. -/
def planner (request : String) (previous : Option PreviousPlan) : Except Json.PrintError String :=
  (previousText previous).map fun context =>
    sections plannerOrders (context.getD "") request ++ "\n\nPlan JSON:"

/-- What the generator is asked; empty code counts as none. -/
def generator (request : String) (plan : Json) (previousCode : Option String) :
    Except Json.PrintError String :=
  (planText "Plan" plan).map fun context =>
    let code := previousCode.getD ""
    let current :=
      if code.isEmpty then ""
      else "\n\nCurrent code (modify it, keep what still applies):\n" ++ code
    sections generatorOrders (context ++ current) request ++ "\n\nComponent source:"

/-- What the explainer is asked. -/
def explainer (request : String) (plan : Json) (previous : Option PreviousPlan) :
    Except Json.PrintError String :=
  match planText "Plan" plan, previousText previous with
  | .ok context, .ok earlier =>
      .ok (sections explainerOrders
        (context ++ ((earlier.map ("\n\n" ++ ·)).getD "")) request)
  | .error e, _ => .error e
  | _, .error e => .error e

end Prompt

end Agent

end ComponentBuilder
