import ComponentBuilder.Proofs.History.Change
import ComponentBuilder.Proofs.History.Ledger
import Mathlib.Data.String.Basic

/-!
# A store keeps the history of every file

The workspace of every file is the one that the record of the calls tells: `remembered` writes it down, one
call keeps it so, and so does every sequence of calls.
-/

namespace ComponentBuilder.History

open Markup

/-! ## The workspace that a record tells -/

/-- The workspace of a file after its last visit, with the code of a file that was never visited. -/
def workspaceOf (store : Store) (name : String) (messages : List Message)
    (versions visited : List Version) : Workspace where
  name := name
  messages := messages
  versions := versions
  cursor := visited.getLast?.map Version.id
  code := (visited.getLast?.map Version.code).getD store.defaultCode

/-- The workspace of a file as the record tells it: there is one when there is something in it. -/
def remembered (store : Store) (name : String) (log : List Entry) : Option Workspace :=
  if addedTo store name log = [] ∧ saidAbout store name log = [] then none
  else some (workspaceOf store name (saidAbout store name log) (addedTo store name log)
    (visitedIn store name log))

/-- A store is what a record of calls on a first store tells. -/
structure Store.Follows (store first : Store) (log : List Entry) : Prop where
  opened : store.closed = false
  defaultFile : store.defaultFile = first.defaultFile
  defaultCode : store.defaultCode = first.defaultCode
  workspaces (name : String) : store.workspaces.get? name = remembered first name log
  /-- Only versions that were added are visited. -/
  visited {name : String} {version : Version} :
    version ∈ visitedIn first name log → version ∈ addedTo first name log

/-- Whether nothing went wrong with saving what a call changed. -/
def Entry.isSaved (entry : Entry) : Bool :=
  match entry.answer with
  | .error (.unsaved _) => false
  | _ => true

theorem Entry.ne_of_isSaved {entry : Entry} (h : entry.isSaved = true) (fault : SaveFault) :
    entry.answer ≠ .error (.unsaved fault) := by
  intro hanswer
  simp [isSaved, hanswer] at h

variable {store first : Store} {log : List Entry} {name : String}

theorem remembered_nil : remembered first name [] = none := by
  simp [remembered, addedTo, saidAbout, recent]

theorem remembered_of_forgets {entry : Entry} (h : entry.forgets name = true) :
    remembered first name (log ++ [entry]) = none := by
  simp [remembered, addedTo, saidAbout, recent_concat_of_forgets h]

namespace Store.Follows

theorem fileName (h : store.Follows first log) (file : Option String) :
    store.fileName file = first.fileName file := by
  simp only [Store.fileName, h.defaultFile]

/-- The workspace that a change of a file finds. -/
theorem opened_eq (h : store.Follows first log) (name : String) :
    store.opened name = workspaceOf first name (saidAbout first name log) (addedTo first name log)
      (visitedIn first name log) := by
  unfold Store.opened
  rw [h.workspaces, remembered]
  split
  · next hnone =>
      have hvisited : visitedIn first name log = [] := by
        apply List.eq_nil_iff_forall_not_mem.2
        intro version hversion
        have hadded := h.visited hversion
        rw [hnone.1] at hadded
        cases hadded
      simp [workspaceOf, hnone, hvisited, h.defaultCode]
  · rfl

theorem mem_of_find? (h : store.Follows first log) {file : Option String} {id : String} {version : Version}
    (hfound : (store.workspace? file).bind (·.find? id) = some version) :
    version ∈ addedTo first (first.fileName file) log := by
  obtain ⟨workspace, hworkspace, hversion⟩ := Option.bind_eq_some_iff.1 hfound
  rw [Store.workspace?, h.fileName, h.workspaces, remembered] at hworkspace
  split at hworkspace
  · cases hworkspace
  · cases hworkspace
    exact List.mem_of_find?_eq_some hversion

end Store.Follows

variable {entry : Entry}

/-- An entry that leaves a file alone. -/
theorem remembered_of_silent (hforgets : entry.forgets name = false)
    (hadded : entry.added? first name = none) (hsaid : entry.said? first name = none)
    (hvisited : entry.visited? first name = none) :
    remembered first name (log ++ [entry]) = remembered first name log := by
  simp only [remembered, addedTo_concat hforgets, saidAbout_concat hforgets, visitedIn_concat hforgets, hadded,
    hsaid, hvisited, Option.toList_none, List.append_nil]

/-- An entry after which there is something in a file. -/
theorem remembered_of_touched (hforgets : entry.forgets name = false)
    (h : addedTo first name log ++ (entry.added? first name).toList ≠ [] ∨
      saidAbout first name log ++ (entry.said? first name).toList ≠ []) :
    remembered first name (log ++ [entry]) =
      some (workspaceOf first name (saidAbout first name log ++ (entry.said? first name).toList)
        (addedTo first name log ++ (entry.added? first name).toList)
        (visitedIn first name log ++ (entry.visited? first name).toList)) := by
  rw [remembered, addedTo_concat hforgets, saidAbout_concat hforgets, visitedIn_concat hforgets, if_neg]
  intro hnone
  exact h.elim (absurd hnone.1) (absurd hnone.2)

/-! ## One call -/

namespace Store.Follows

theorem newMessage_eq_ok {mint : Mint} {speaker content : String} {message : Message}
    (h : Store.newMessage mint [] speaker content = .ok message) (name : String) (file : Option String)
    (hfile : first.fileName file = name) (answer : Answer) :
    Entry.said? first name ⟨mint, .addMessage file speaker content, .ok answer⟩ = some message := by
  unfold Store.newMessage at h
  simp only [Entry.said?, if_pos hfile]
  split at h
  · next found hfound =>
      cases h
      rw [hfound]
      rfl
  · cases h

theorem left_eq (h : store.Follows first log) (mint : Mint) (call : Call) (name : String) :
    (store.left (store.effect mint call)).get? name =
      remembered first name (log ++ [⟨mint, call, (store.effect mint call).map Prod.fst⟩]) := by
  cases call with
  | reset => exact (remembered_of_forgets rfl).symm
  | deleteFile other =>
      simp only [Store.effect]
      by_cases hname : other = name
      · subst hname
        rw [remembered_of_forgets (by simp [Entry.forgets])]
        split
        · simp [Store.left, Keyed.get?_erase]
        · next hnone => simpa [Store.left, Keyed.contains] using hnone
      · rw [remembered_of_silent (by simp [Entry.forgets, hname]) rfl rfl rfl, ← h.workspaces]
        split
        · simp [Store.left, Keyed.get?_erase, Ne.symm hname]
        · rfl
  | addVersion file prompt plan code tree explanation =>
      simp only [Store.effect, Store.left, Keyed.get?_set, Except.map, h.fileName]
      by_cases hname : name = first.fileName file
      · subst hname
        rw [if_pos rfl, remembered_of_touched rfl (.inl (by simp [Entry.added?])), h.opened_eq]
        simp [Workspace.append, Workspace.moveTo, workspaceOf, Entry.added?, Entry.said?, Entry.visited?,
          Store.newVersion, h.fileName]
      · have hother : first.fileName file ≠ name := Ne.symm hname
        rw [if_neg hname, h.workspaces, remembered_of_silent rfl (by simp [Entry.added?, hother]) rfl
          (by simp [Entry.visited?, Entry.added?, hother])]
  | addMessage file speaker content =>
      simp only [Store.effect]
      cases hmessage : Store.newMessage mint [] speaker content with
      | error fault => exact (h.workspaces name).trans (remembered_of_silent rfl rfl rfl rfl).symm
      | ok message =>
          simp only [Store.left, Keyed.get?_set, Except.map, h.fileName]
          by_cases hname : name = first.fileName file
          · subst hname
            have hsaid := newMessage_eq_ok hmessage (first.fileName file) file rfl (.message message)
            rw [if_pos rfl, remembered_of_touched rfl (.inr (by simp [hsaid])), h.opened_eq, hsaid]
            simp [Workspace.say, workspaceOf, Entry.added?, Entry.visited?]
          · have hother : first.fileName file ≠ name := Ne.symm hname
            rw [if_neg hname, h.workspaces, remembered_of_silent rfl rfl (by simp [Entry.said?, hother]) rfl]
  | rollback file id =>
      simp only [Store.effect]
      cases hfound : (store.workspace? file).bind (·.find? id) with
      | none => exact (h.workspaces name).trans (remembered_of_silent rfl rfl rfl rfl).symm
      | some version =>
          simp only [Store.left, Keyed.get?_set, Except.map, h.fileName]
          by_cases hname : name = first.fileName file
          · subst hname
            have hadded := h.mem_of_find? hfound
            rw [if_pos rfl, remembered_of_touched rfl (.inl ?_), h.opened_eq]
            · simp [Workspace.moveTo, workspaceOf, Entry.added?, Entry.said?, Entry.visited?]
            · exact List.append_ne_nil_of_left_ne_nil (List.ne_nil_of_mem hadded) _
          · have hother : first.fileName file ≠ name := Ne.symm hname
            rw [if_neg hname, h.workspaces, remembered_of_silent rfl rfl rfl (by simp [Entry.visited?, hother])]

theorem visited_concat (h : store.Follows first log) (mint : Mint) (call : Call) {version : Version}
    (hvisited : version ∈
      visitedIn first name (log ++ [⟨mint, call, (store.effect mint call).map Prod.fst⟩])) :
    version ∈ addedTo first name (log ++ [⟨mint, call, (store.effect mint call).map Prod.fst⟩]) := by
  generalize hentry : Entry.mk mint call ((store.effect mint call).map Prod.fst) = entry at hvisited ⊢
  cases hforgets : entry.forgets name with
  | true => simp [visitedIn, recent_concat_of_forgets hforgets] at hvisited
  | false =>
      rw [visitedIn_concat hforgets, List.mem_append, Option.mem_toList] at hvisited
      rw [addedTo_concat hforgets, List.mem_append, Option.mem_toList]
      rcases hvisited with hbefore | hnow
      · exact .inl (h.visited hbefore)
      · subst hentry
        cases call with
        | addMessage | deleteFile | reset => simp [Entry.visited?] at hnow
        | addVersion file prompt plan code tree explanation => exact .inr hnow
        | rollback file id =>
            left
            simp only [Store.effect] at hnow
            cases hfound : (store.workspace? file).bind (·.find? id) with
            | none => simp [hfound, Except.map, Entry.visited?] at hnow
            | some found =>
                simp only [hfound, Except.map, Entry.visited?, Option.ite_none_right_eq_some,
                  Option.some.injEq] at hnow
                obtain ⟨rfl, rfl⟩ := hnow
                exact h.mem_of_find? hfound

/-- One call whose changes were saved. -/
theorem perform (h : store.Follows first log) (mint : Mint) (call : Call)
    (hsaved : ∀ fault, (store.perform mint call).2 ≠ .error (.unsaved fault)) :
    (store.perform mint call).1.Follows first (log ++ [⟨mint, call, (store.perform mint call).2⟩]) := by
  rw [Store.perform_eq h.opened] at hsaved ⊢
  rw [Store.settle_result hsaved]
  refine ⟨?_, ?_, ?_, ?_, h.visited_concat mint call⟩
  · rw [Store.settle_closed, h.opened]
  · rw [Store.settle_defaultFile, h.defaultFile]
  · rw [Store.settle_defaultCode, h.defaultCode]
  · intro name
    rw [Store.settle_workspaces]
    exact h.left_eq mint call name

/-! ## A sequence of calls -/

theorem run (h : store.Follows first log) (calls : List (Mint × Call))
    (hsaved : ∀ entry ∈ (store.run calls).2, entry.isSaved = true) :
    (store.run calls).1.Follows first (log ++ (store.run calls).2) := by
  induction calls generalizing store log with
  | nil => simpa [Store.run] using h
  | cons step calls ih =>
      obtain ⟨mint, call⟩ := step
      rw [Store.run_cons] at hsaved ⊢
      have hfirst := h.perform mint call (Entry.ne_of_isSaved (hsaved _ List.mem_cons_self))
      have hrest := ih hfirst fun entry hentry => hsaved entry (List.mem_cons_of_mem _ hentry)
      simpa using hrest

theorem of_empty (hempty : store.workspaces = .empty) (hopen : store.closed = false) :
    store.Follows store [] where
  opened := hopen
  defaultFile := rfl
  defaultCode := rfl
  workspaces name := by rw [hempty, remembered_nil, Keyed.get?_empty]
  visited h := by simp [visitedIn, recent] at h

end Store.Follows

theorem map_call_run (store : Store) (calls : List (Mint × Call)) :
    ((store.run calls).2.map fun entry => (entry.mint, entry.call)) = calls := by
  induction calls generalizing store with
  | nil => rfl
  | cons step calls ih => exact congrArg (step :: ·) (ih _)

/-! ## What is seen of a store -/

namespace Store.Follows

theorem versions_eq (h : store.Follows first log) (file : Option String) :
    store.versions file = addedTo first (first.fileName file) log := by
  rw [Store.versions_eq_opened, h.fileName, h.opened_eq]
  rfl

theorem messages_eq (h : store.Follows first log) (file : Option String) :
    store.messages file = saidAbout first (first.fileName file) log := by
  rw [Store.messages_eq_opened, h.fileName, h.opened_eq]
  rfl

theorem find?_eq_some_of_nodup {versions : List Version} (hids : (versions.map Version.id).Nodup)
    {version : Version} (hversion : version ∈ versions) :
    versions.find? (fun other => other.id == version.id) = some version := by
  induction versions with
  | nil => cases hversion
  | cons head rest ih =>
      rw [List.map_cons, List.nodup_cons] at hids
      rcases List.mem_cons.1 hversion with rfl | hrest
      · simp
      · have hne : (head.id == version.id) = false := by
          simp only [beq_eq_false_iff_ne]
          intro hid
          exact hids.1 (hid ▸ List.mem_map_of_mem hrest)
        rw [List.find?_cons, hne]
        exact ih hids.2 hrest

theorem current_eq (h : store.Follows first log)
    (hids : ∀ name, ((addedTo first name log).map Version.id).Nodup) (file : Option String) :
    store.current? file = (visitedIn first (first.fileName file) log).getLast? := by
  rw [Store.current?_eq_opened, h.fileName, h.opened_eq, Workspace.current?, workspaceOf]
  dsimp only
  cases hlast : (visitedIn first (first.fileName file) log).getLast? with
  | none => rfl
  | some version =>
      exact find?_eq_some_of_nodup (hids _) (h.visited (List.mem_of_getLast? hlast))

theorem code_eq (h : store.Follows first log) (file : Option String) :
    store.code file =
      ((visitedIn first (first.fileName file) log).getLast?.map Version.code).getD first.defaultCode := by
  rw [Store.code_eq_opened, h.fileName, h.opened_eq]
  rfl

/-- Every version that was added to a file was also visited. -/
theorem mem_visitedIn {version : Version}
    (h : version ∈ addedTo first name log) : version ∈ visitedIn first name log := by
  obtain ⟨⟨mint, call, answer⟩, hentry, hadded⟩ := List.mem_filterMap.1 h
  refine List.mem_filterMap.2 ⟨_, hentry, ?_⟩
  cases call with
  | addMessage | rollback | deleteFile | reset => cases hadded
  | addVersion file prompt plan code tree explanation =>
      cases answer with
      | error fault => cases hadded
      | ok answer => exact hadded

end Store.Follows

end ComponentBuilder.History
