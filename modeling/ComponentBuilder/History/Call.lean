import ComponentBuilder.History.Store

/-!
# Calls of a store

The calls that change a store, each with the mint of the records it makes, and the record of what a
sequence of calls answered.
-/

namespace ComponentBuilder

namespace History

open Markup

/-- A call that may change a store. -/
inductive Call where
  | addVersion (file : Option String) (prompt : String) (plan : Plan) (code : String)
      (tree : Option Node) (explanation : String)
  | addMessage (file : Option String) (speaker content : String)
  | rollback (file : Option String) (id : String)
  | deleteFile (name : String)
  | reset

/-- What a call that succeeded gives back. -/
inductive Answer where
  | version (version : Version)
  | message (message : Message)
  /-- Whether there was a file. -/
  | removed (found : Bool)
  | done

/-- A call with its mint and what came of it. -/
structure Entry where
  mint : Mint
  call : Call
  answer : Except StoreFault Answer

/-- The file that a call is about, unless it is about all of them. -/
def Call.target? (store : Store) : Call → Option String
  | addVersion file _ _ _ _ _ | addMessage file _ _ | rollback file _ => some (store.fileName file)
  | deleteFile name => some name
  | reset => none

namespace Store

/-- Read the result of an operation as an answer. -/
def Outcome.answered {α : Type} (outcome : Outcome α) (f : α → Answer) : Outcome Answer :=
  (outcome.1, outcome.2.map f)

/-- Make a call. -/
def perform (store : Store) (mint : Mint) : Call → Outcome Answer
  | .addVersion file prompt plan code tree explanation =>
      (store.addVersion
        (store.newVersion mint [] file prompt plan code tree explanation)).answered .version
  | .addMessage file speaker content =>
      match newMessage mint [] speaker content with
      | .ok message => (store.addMessage file message).answered .message
      | .error fault => (store, .error fault)
  | .rollback file id => (store.rollback file id).answered .version
  | .deleteFile name => (store.deleteFile name).answered .removed
  | .reset => store.reset.answered fun _ => .done

/-- Make calls one after the other, and record them. -/
def run (store : Store) : List (Mint × Call) → Store × List Entry
  | [] => (store, [])
  | (mint, call) :: rest =>
      let (next, answer) := store.perform mint call
      let (last, log) := next.run rest
      (last, ⟨mint, call, answer⟩ :: log)

end Store

end History

end ComponentBuilder
