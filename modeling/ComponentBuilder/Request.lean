import ComponentBuilder.Preview.Session
import ComponentBuilder.Schema.Shape

/-!
# Requests

What clients may ask for.  The requests to generate, to roll back and to work on a source accept no
fields besides their own; names of files must not be blank nor lead out of their directory.
-/

namespace ComponentBuilder

namespace Request

open Schema

/-- The longest prompt. -/
def maxPrompt : Nat := 10000

/-- The longest source. -/
def maxSource : Nat := 256 * 1024

/-- The longest name of a file. -/
def maxFileName : Nat := 255

/-- Whether a path has a step up. -/
def climbs (path : String) : Bool :=
  (Text.split '/' path.toList).contains ['.', '.']

/-- The name of a file, kept without the blanks around it. -/
def fileName (value : Json) : Checked String :=
  (sizedString 0 (some maxFileName) value).bind fun s =>
    let stripped := Text.strip s
    if stripped.isEmpty then .refuse (.rejected "File name cannot be empty")
    else if climbs stripped then .refuse (.rejected "File name cannot traverse directories")
    else .accepted stripped

/-- A prompt, kept without the blanks around it. -/
def prompt (value : Json) : Checked String :=
  (sizedString 1 (some maxPrompt) value).bind fun s =>
    let stripped := Text.strip s
    if stripped.isEmpty then .refuse (.rejected "Prompt cannot be empty") else .accepted stripped

/-- A request to generate. -/
structure Generate where
  prompt : String
  file : Option String
  previousPlan : Option (List (String × Json))

/-- A request to roll a file back. -/
structure Rollback where
  id : String
  file : Option String

/-- A request to work on a source. -/
structure Source where
  code : String

/-- A report from a preview document. -/
structure Status where
  generation : Int
  state : String
  message : String

/-- The optional name of a file among fields. -/
def fileField (fields : List (String × Json)) : Checked (Option String) :=
  optional ["file"] none (nullable fileName) fields

/-- A request to generate, from fields. -/
def Generate.ofFields (fields : List (String × Json)) : Checked Generate :=
  (fun prompt file previousPlan _ => ⟨prompt, file, previousPlan⟩)
    <$> required ["prompt"] Request.prompt fields
    <*> fileField fields
    <*> optional ["previousPlan", "previous_plan"] none (nullable object) fields
    <*> noOthers [["prompt"], ["file"], ["previousPlan", "previous_plan"]] fields

/-- A request to roll a file back, from fields. -/
def Rollback.ofFields (fields : List (String × Json)) : Checked Rollback :=
  (fun id file _ => ⟨id, file⟩)
    <$> required ["id"] (sizedString 1 none) fields
    <*> fileField fields
    <*> noOthers [["id"], ["file"]] fields

/-- A request to work on a source, from fields. -/
def Source.ofFields (fields : List (String × Json)) : Checked Source :=
  (fun code _ => ⟨code⟩)
    <$> required ["code"] (sizedString 0 (some maxSource)) fields
    <*> noOthers [["code"]] fields

/-- The name of a state of a preview. -/
def stateName : Json → Checked String
  | .str s =>
      if (Preview.State.ofLabel? s).isSome then .accepted s
      else .refuse (.notMember (Preview.State.all.map Preview.State.label))
  | _ => .refuse (.notMember (Preview.State.all.map Preview.State.label))

/-- A report from a preview document, from fields. -/
def Status.ofFields (fields : List (String × Json)) : Checked Status :=
  Status.mk <$> required ["generation"] (integerWithin { least := some 0 }) fields
    <*> required ["state"] stateName fields
    <*> optional ["message"] "" anyString fields

end Request

end ComponentBuilder
