import ComponentBuilder.History.Snapshot

/-!
# The store

The workspaces of all files.  Versions are only ever appended; going back to an earlier version moves
the cursor, so no version is lost.  Every change is saved when the store keeps a snapshot, after it
was made: a change stays even when it could not be saved.
-/

namespace ComponentBuilder

namespace History

open Markup

/-- The code of a file without versions. -/
def starterCode : String :=
  "\n".intercalate
    ["import React from 'react';", "", "export default function App() \x7b", "  return (",
      "    <div className=\"p-8\">", "      <h1 className=\"text-4xl font-bold\">Hello World</h1>",
      "      <p className=\"mt-4 text-gray-600\">Start building your amazing project.</p>",
      "    </div>", "  );", "\x7d", ""]

/-- The store. -/
structure Store where
  workspaces : Workspaces := .empty
  /-- The file that is meant when none is named. -/
  defaultFile : String := "App.tsx"
  /-- The code of a file without versions. -/
  defaultCode : String := starterCode
  closed : Bool := false
  /-- Where a snapshot is kept, if any. -/
  shelf : Option Shelf := none

/-- Why an operation did not succeed. -/
inductive StoreFault where
  | closed
  | unknownVersion (id file : String)
  | unknownSpeaker (name : String)
  | unsaved (fault : SaveFault)
deriving DecidableEq, Repr

namespace StoreFault

/-- The kind of a fault. -/
def kind : StoreFault → String
  | closed => "RuntimeError"
  | unknownVersion _ _ => "VersionNotFound"
  | unknownSpeaker _ => "ValueError"
  | unsaved fault => fault.kind

/-- The wording of a fault, unless it lies in its kind. -/
def message? : StoreFault → Option String
  | closed => some "ProjectStore is closed"
  | unknownVersion id file => some ("Version " ++ id ++ " not found for " ++ file)
  | unknownSpeaker name => some (Json.unknownMember name "Role")
  | unsaved fault => fault.message?

end StoreFault

namespace Store

/-- The store after an operation, and its result. -/
abbrev Outcome (α : Type) := Store × Except StoreFault α

/-- The name of a file; none and the empty one mean the default file. -/
def fileName (store : Store) (file : Option String) : String :=
  match file with
  | some name => if name.isEmpty then store.defaultFile else name
  | none => store.defaultFile

/-- The workspace of a file. -/
def workspace? (store : Store) (file : Option String) : Option Workspace :=
  store.workspaces.get? (store.fileName file)

/-! ## Reading -/

/-- All workspaces as one document. -/
def snapshot (store : Store) : Json :=
  History.snapshot store.workspaces

/-- The version at the cursor of a file. -/
def current? (store : Store) (file : Option String) : Option Version :=
  (store.workspace? file).bind Workspace.current?

/-- The versions of a file in the order in which they were added. -/
def versions (store : Store) (file : Option String) : List Version :=
  ((store.workspace? file).map Workspace.versions).getD []

/-- The messages about a file in order. -/
def messages (store : Store) (file : Option String) : List Message :=
  ((store.workspace? file).map Workspace.messages).getD []

/-- The code at the cursor of a file. -/
def code (store : Store) (file : Option String) : String :=
  ((store.workspace? file).map Workspace.code).getD store.defaultCode

/-- The names of all files, sorted. -/
def files (store : Store) : List String :=
  Text.sorted store.workspaces.keys

/-! ## Saving and loading -/

/-- Save the store, when it keeps a snapshot. -/
def save (store : Store) : Outcome Unit :=
  match store.shelf with
  | none => (store, .ok ())
  | some shelf =>
      let (shelf, result) := shelf.save store.snapshot
      ({ store with shelf := some shelf }, result.mapError .unsaved)

/-- Replace the contents by those of a document, or of the saved one when none is given. -/
def load (store : Store) (mint : Mint) (document : Option Json) : Store × Except LoadFault Unit :=
  let found : Except LoadFault (Option Json) :=
    match document, store.shelf with
    | some document, _ => .ok (some document)
    | none, some shelf => shelf.read
    | none, none => .ok none
  match found.bind fun document => readSnapshot mint (document.getD .null) with
  | .ok workspaces => ({ store with workspaces := workspaces }, .ok ())
  | .error fault => (store, .error fault)

/-- Save the store for the last time. -/
def close (store : Store) : Outcome Unit :=
  if store.closed then (store, .ok ())
  else
    match store.save with
    | (store, .ok ()) => ({ store with closed := true }, .ok ())
    | (store, .error fault) => (store, .error fault)

/-! ## Writing -/

/-- Change the workspace of a file, which is made when it is not there, and save the store. -/
def write (store : Store) (name : String) (change : Workspace → Workspace) : Outcome Unit :=
  if store.closed then (store, .error .closed)
  else
    let workspace := (store.workspaces.get? name).getD { name := name, code := store.defaultCode }
    save { store with workspaces := store.workspaces.set name (change workspace) }

/-- Append a version and move the cursor to it. -/
def addVersion (store : Store) (version : Version) : Outcome Version :=
  let (store, result) := store.write version.file (·.append version)
  (store, result.map fun _ => version)

/-- Move the cursor of a file to one of its versions. -/
def rollback (store : Store) (file : Option String) (id : String) : Outcome Version :=
  let name := store.fileName file
  match (store.workspace? file).bind (·.find? id) with
  | none => (store, .error (.unknownVersion id name))
  | some version =>
      let (store, result) := store.write name (·.moveTo version)
      (store, result.map fun _ => version)

/-- Append a message to the conversation about a file. -/
def addMessage (store : Store) (file : Option String) (message : Message) : Outcome Message :=
  let (store, result) := store.write (store.fileName file) (·.say message)
  (store, result.map fun _ => message)

/-- Forget a file with its history; the result says whether there was one. -/
def deleteFile (store : Store) (name : String) : Outcome Bool :=
  if store.workspaces.contains name then
    let (store, result) := save { store with workspaces := store.workspaces.erase name }
    (store, result.map fun _ => true)
  else (store, .ok false)

/-- Forget all files. -/
def reset (store : Store) : Outcome Unit :=
  save { store with workspaces := .empty }

/-- Make a version of a file. -/
def newVersion (store : Store) (mint : Mint) (place : List Nat) (file : Option String)
    (prompt : String) (plan : Plan) (code : String) (tree : Option Node) (explanation : String) :
    Version where
  id := mint.version place
  file := store.fileName file
  prompt := prompt
  plan := plan
  code := code
  tree := tree
  explanation := explanation
  timestamp := mint.now

/-- Make a message of the speaker of a name. -/
def newMessage (mint : Mint) (place : List Nat) (speaker content : String) :
    Except StoreFault Message :=
  match Speaker.ofLabel? speaker with
  | some speaker => .ok ⟨mint.message place, speaker, content, mint.now⟩
  | none => .error (.unknownSpeaker speaker)

end Store

end History

end ComponentBuilder
