import ComponentBuilder.History.Timestamp
import ComponentBuilder.Markup.Stored
import ComponentBuilder.Plan

/-!
# Records of a file

The conversation about a file and the versions of its code.  A workspace holds both, with the cursor
that says which version is current and the code at the cursor.
-/

namespace ComponentBuilder

namespace History

open Markup Schema

/--
What an operation gives to the records it makes: identifiers, each by the place of the record among
those of the operation, and the time.
-/
structure Mint where
  version : List Nat → String
  message : List Nat → String
  node : List Nat → String
  now : Timestamp

/-- Who speaks in a conversation. -/
inductive Speaker where
  | user
  | assistant
  | system
deriving DecidableEq, Repr

namespace Speaker

/-- The name of a speaker. -/
def label : Speaker → String
  | user => "user"
  | assistant => "assistant"
  | system => "system"

/-- All speakers. -/
def all : List Speaker :=
  [user, assistant, system]

/-- The speaker of a name. -/
def ofLabel? (name : String) : Option Speaker :=
  all.find? fun speaker => speaker.label == name

/-- The speaker of a stored name. -/
def ofJson : Json → Checked Speaker
  | .str name =>
      match ofLabel? name with
      | some speaker => .accepted speaker
      | none => .refuse (.notMember (all.map label))
  | _ => .refuse (.notMember (all.map label))

end Speaker

/-- A message of a conversation. -/
structure Message where
  id : String
  speaker : Speaker
  content : String
  timestamp : Timestamp

/-- A version: accepted code with what it was made from. -/
structure Version where
  id : String
  file : String
  prompt : String
  plan : Plan
  code : String
  tree : Option Node
  explanation : String
  timestamp : Timestamp

/-- What is kept about a file. -/
structure Workspace where
  name : String
  messages : List Message := []
  versions : List Version := []
  cursor : Option String := none
  code : String

namespace Message

/-- A message as stored. -/
def toJson (message : Message) : Json :=
  .obj [("id", .str message.id), ("role", .str message.speaker.label),
    ("content", .str message.content), ("timestamp", .str message.timestamp.text)]

/-- A stored message at a place. -/
def ofJson (mint : Mint) (place : List Nat) (value : Json) : Checked Message :=
  record "ChatMessage" (fun fields =>
    Message.mk <$> optional ["id"] (mint.message place) string fields
      <*> required ["role"] Speaker.ofJson fields
      <*> required ["content"] string fields
      <*> optional ["timestamp"] mint.now Timestamp.ofJson fields) value

end Message

namespace Version

/-- A version as stored. -/
def toJson (version : Version) : Json :=
  .obj [("id", .str version.id), ("file", .str version.file), ("prompt", .str version.prompt),
    ("plan", version.plan.toJson), ("code", .str version.code),
    ("tree", (version.tree.map Node.toJson).getD .null),
    ("explanation", .str version.explanation), ("timestamp", .str version.timestamp.text)]

/-- A stored version at a place. -/
def ofJson (mint : Mint) (place : List Nat) (value : Json) : Checked Version :=
  record "Version" (fun fields =>
    Version.mk <$> optional ["id"] (mint.version place) string fields
      <*> required ["file"] string fields
      <*> required ["prompt"] string fields
      <*> required ["plan"] Plan.ofJson fields
      <*> required ["code"] string fields
      <*> optional ["tree"] none
        (nullable (Node.ofJson fun inner => mint.node (place ++ inner))) fields
      <*> optional ["explanation"] "" string fields
      <*> optional ["timestamp"] mint.now Timestamp.ofJson fields) value

end Version

namespace Workspace

/-- The version of an identifier. -/
def find? (workspace : Workspace) (id : String) : Option Version :=
  workspace.versions.find? fun version => version.id == id

/-- The version at the cursor. -/
def current? (workspace : Workspace) : Option Version :=
  workspace.cursor.bind workspace.find?

/-- Move the cursor to a version. -/
def moveTo (workspace : Workspace) (version : Version) : Workspace :=
  { workspace with cursor := some version.id, code := version.code }

/-- Append a version and move the cursor to it. -/
def append (workspace : Workspace) (version : Version) : Workspace :=
  { workspace with versions := workspace.versions ++ [version] }.moveTo version

/-- Append a message. -/
def say (workspace : Workspace) (message : Message) : Workspace :=
  { workspace with messages := workspace.messages ++ [message] }

/-! What the changes of a workspace do to its parts. -/

@[simp] theorem versions_moveTo (workspace : Workspace) (version : Version) :
    (workspace.moveTo version).versions = workspace.versions := rfl

@[simp] theorem messages_moveTo (workspace : Workspace) (version : Version) :
    (workspace.moveTo version).messages = workspace.messages := rfl

@[simp] theorem cursor_moveTo (workspace : Workspace) (version : Version) :
    (workspace.moveTo version).cursor = some version.id := rfl

@[simp] theorem code_moveTo (workspace : Workspace) (version : Version) :
    (workspace.moveTo version).code = version.code := rfl

@[simp] theorem versions_append (workspace : Workspace) (version : Version) :
    (workspace.append version).versions = workspace.versions ++ [version] := rfl

@[simp] theorem messages_append (workspace : Workspace) (version : Version) :
    (workspace.append version).messages = workspace.messages := rfl

@[simp] theorem cursor_append (workspace : Workspace) (version : Version) :
    (workspace.append version).cursor = some version.id := rfl

@[simp] theorem code_append (workspace : Workspace) (version : Version) :
    (workspace.append version).code = version.code := rfl

@[simp] theorem messages_say (workspace : Workspace) (message : Message) :
    (workspace.say message).messages = workspace.messages ++ [message] := rfl

@[simp] theorem versions_say (workspace : Workspace) (message : Message) :
    (workspace.say message).versions = workspace.versions := rfl

@[simp] theorem cursor_say (workspace : Workspace) (message : Message) :
    (workspace.say message).cursor = workspace.cursor := rfl

@[simp] theorem code_say (workspace : Workspace) (message : Message) :
    (workspace.say message).code = workspace.code := rfl

/-- A version that is found has the identifier that was looked for. -/
theorem id_of_find? {workspace : Workspace} {id : String} {version : Version}
    (h : workspace.find? id = some version) : version.id = id := by
  simpa using List.find?_some h

/-- A version of a new identifier is current once it was appended. -/
theorem current?_append {workspace : Workspace} {version : Version}
    (h : version.id ∉ workspace.versions.map Version.id) :
    (workspace.append version).current? = some version := by
  have hnone : workspace.versions.find? (fun other => other.id == version.id) = none := by
    rw [List.find?_eq_none]
    intro other hother hid
    exact h (List.mem_map.2 ⟨other, hother, by simpa using hid⟩)
  simp [current?, find?, hnone]

/-- A workspace as stored. -/
def toJson (workspace : Workspace) : Json :=
  .obj [("name", .str workspace.name), ("messages", .arr (workspace.messages.map Message.toJson)),
    ("versions", .arr (workspace.versions.map Version.toJson)),
    ("cursor", (workspace.cursor.map Json.str).getD .null), ("code", .str workspace.code)]

/-- A stored workspace at a place. -/
def ofJson (mint : Mint) (place : List Nat) (value : Json) : Checked Workspace :=
  record "FileWorkspace" (fun fields =>
    Workspace.mk <$> required ["name"] string fields
      <*> optional ["messages"] [] (listAt fun n => Message.ofJson mint (place ++ [n])) fields
      <*> optional ["versions"] [] (listAt fun n => Version.ofJson mint (place ++ [n])) fields
      <*> optional ["cursor"] none (nullable string) fields
      <*> required ["code"] string fields) value

end Workspace

end History

end ComponentBuilder
