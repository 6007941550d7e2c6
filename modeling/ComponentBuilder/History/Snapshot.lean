import ComponentBuilder.History.Record
import ComponentBuilder.Json.Display
import ComponentBuilder.Json.Reader

/-!
# Snapshots

All workspaces as one document, and the file that keeps it.  Saving replaces the file as a whole;
loading checks every workspace and refuses the document for the first one that is not well formed.
-/

namespace ComponentBuilder

namespace History

open Schema

/-- The workspaces by name. -/
abbrev Workspaces := Keyed Workspace

/-- The number of the form of snapshots. -/
def snapshotForm : Int := 1

/-- All workspaces as one document. -/
def snapshot (workspaces : Workspaces) : Json :=
  .obj [("format", .int snapshotForm), ("files", .arr (workspaces.values.map Workspace.toJson))]

/-- Why nothing was loaded. -/
inductive LoadFault where
  /-- The document has no fields. -/
  | noFields (kind : String)
  /-- The workspaces are no list. -/
  | noList (kind : String)
  /-- A workspace is not well formed. -/
  | invalid (issues : List Issue)
  /-- The file holds no document. -/
  | malformed
  /-- The file holds a document of another kind. -/
  | notObject (path : String)
  /-- There is a directory in the place of the file. -/
  | directory
deriving DecidableEq, Repr

namespace LoadFault

/-- The kind of a fault. -/
def kind : LoadFault → String
  | noFields _ => "AttributeError"
  | noList _ => "TypeError"
  | invalid _ => "ValidationError"
  | malformed => "JSONParseError"
  | notObject _ => "ValueError"
  | directory => "IsADirectoryError"

/-- The wording of a fault, unless it lies in its issues or its kind alone. -/
def message? : LoadFault → Option String
  | noFields kind => some ("'" ++ kind ++ "' object has no attribute 'get'")
  | noList kind => some ("'" ++ kind ++ "' object is not iterable")
  | invalid _ => none
  | malformed => some "Invalid JSON"
  | notObject path => some ("Snapshot " ++ path ++ " is not a JSON object")
  | directory => none

end LoadFault

/-- The workspaces of stored ones, up to the first that is not well formed. -/
def workspacesFrom (mint : Mint) : Nat → Workspaces → List Json → Except LoadFault Workspaces
  | _, found, [] => .ok found
  | number, found, value :: rest =>
      match Workspace.ofJson mint [number] value with
      | .accepted workspace =>
          workspacesFrom mint (number + 1) (found.set workspace.name workspace) rest
      | .refused issues => .error (.invalid issues)

/-- The stored workspaces of a document; one that does not hold has none. -/
def storedWorkspaces (document : Json) : Except LoadFault (List Json) :=
  if !document.holds then .ok []
  else
    match document with
    | .obj fields =>
        match (fields.lookup "files").getD (.arr []) with
        | .arr items => .ok items
        | .obj fields => .ok (fields.map fun field => .str field.1)
        | .str text => .ok (text.toList.map fun c => .str (String.singleton c))
        | other => .error (.noList other.kindWord)
    | other => .error (.noFields other.kindWord)

/-- The workspaces of a document. -/
def readSnapshot (mint : Mint) (document : Json) : Except LoadFault Workspaces :=
  (storedWorkspaces document).bind (workspacesFrom mint 0 .empty)

/-- What is in the place of the file. -/
inductive SavedFile where
  | missing
  | document (text : String)
  | directory
deriving DecidableEq, Repr

/-- The place of the file that keeps a snapshot. -/
structure Shelf where
  path : String
  /-- Whether the directory of the file is there. -/
  folder : Bool := false
  file : SavedFile := .missing
deriving DecidableEq, Repr

/-- Why nothing was saved. -/
inductive SaveFault where
  | unprintable (error : Json.PrintError)
  /-- There is a directory in the place of the file. -/
  | directory
deriving DecidableEq, Repr

namespace SaveFault

/-- The kind of a fault. -/
def kind : SaveFault → String
  | unprintable _ => "TypeError"
  | directory => "IsADirectoryError"

/-- The wording of a fault, unless it lies in its kind. -/
def message? : SaveFault → Option String
  | unprintable error => some error.message
  | directory => none

end SaveFault

namespace Shelf

/-- The saved document, if there is one. -/
def read (shelf : Shelf) : Except LoadFault (Option Json) :=
  match shelf.file with
  | .missing => .ok none
  | .directory => .error .directory
  | .document text =>
      match Json.read? Json.storedLimits text.toList with
      | some (.obj fields) => .ok (some (.obj fields))
      | some _ => .error (.notObject shelf.path)
      | none => .error .malformed

/-- Save a document; the directory is made even when the document is not saved. -/
def save (shelf : Shelf) (document : Json) : Shelf × Except SaveFault Unit :=
  let shelf := { shelf with folder := true }
  match document.print .indented with
  | .error e => (shelf, .error (.unprintable e))
  | .ok text =>
      match shelf.file with
      | .directory => (shelf, .error .directory)
      | _ => ({ shelf with file := .document text }, .ok ())

end Shelf

end History

end ComponentBuilder
