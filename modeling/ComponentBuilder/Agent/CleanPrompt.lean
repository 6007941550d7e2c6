import ComponentBuilder.Text.Pattern

/-!
# Clean prompts

Before a prompt reaches a model, phrases that try to give the model other orders are replaced by a
mark, in whatever case they are written, and white space is reduced to single blanks.
-/

namespace ComponentBuilder

namespace Agent

open Text

/-- The mark in place of a phrase. -/
def cleanedMark : String :=
  "[CLEANED]"

/-- The phrases that are replaced, in the order in which they are looked for. -/
def suspectPhrases : List String :=
  ["ignore previous instructions", "ignore all instructions", "system prompt", "override",
    "act as a", "forget your", "you are now", "disregard"]

/-- Replace every occurrence of a phrase by the mark. -/
def neutralise (text : List Char) (phrase : String) : List Char :=
  (Pattern.anyCase phrase).replace (fun _ => cleanedMark.toList) text

/-- Replace every run of blanks by one blank. -/
def singleBlanks (text : List Char) : List Char :=
  Pattern.gap.replace (fun _ => [' ']) text

/-- A prompt as characters, without suspect phrases and superfluous blanks. -/
def cleanChars (prompt : List Char) : List Char :=
  singleBlanks (trim (suspectPhrases.foldl neutralise prompt))

/-- A prompt without suspect phrases and superfluous blanks. -/
def cleanPrompt (prompt : String) : String :=
  String.ofList (cleanChars prompt.toList)

end Agent

end ComponentBuilder
