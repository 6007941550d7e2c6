import ComponentBuilder.History.Call

/-!
# What a call changes

A call on an open store is refused, or answers without a change, or leaves other workspaces behind and
saves them.  `effect` says which of these it is before anything is saved.  Saving touches nothing but the
shelf, so what holds of the effects holds of the store.
-/

namespace ComponentBuilder.History

/-- Whether a call forgets files. -/
def Call.isForgetting : Call → Bool
  | deleteFile _ | reset => true
  | _ => false

namespace Store

open Markup

/-! ## Saving and writing -/

@[simp] theorem save_workspaces (store : Store) : store.save.1.workspaces = store.workspaces := by
  unfold save
  split <;> rfl

@[simp] theorem save_defaultFile (store : Store) : store.save.1.defaultFile = store.defaultFile := by
  unfold save
  split <;> rfl

@[simp] theorem save_defaultCode (store : Store) : store.save.1.defaultCode = store.defaultCode := by
  unfold save
  split <;> rfl

@[simp] theorem save_closed (store : Store) : store.save.1.closed = store.closed := by
  unfold save
  split <;> rfl

/-- Saving succeeds, or it fails for want of a written form or a place. -/
theorem save_result (store : Store) :
    store.save.2 = .ok () ∨ ∃ fault, store.save.2 = .error (.unsaved fault) := by
  unfold save
  cases store.shelf with
  | none => exact .inl rfl
  | some shelf =>
      cases hresult : (shelf.save store.snapshot).2 with
      | ok _ => exact .inl (congrArg (Except.mapError StoreFault.unsaved) hresult)
      | error fault => exact .inr ⟨fault, congrArg (Except.mapError StoreFault.unsaved) hresult⟩

/-- The workspace of a file as a change of it finds it. -/
def opened (store : Store) (name : String) : Workspace :=
  (store.workspaces.get? name).getD { name := name, code := store.defaultCode }

/-- Save other workspaces. -/
def commit (store : Store) (workspaces : Workspaces) : Outcome Unit :=
  save { store with workspaces := workspaces }

theorem commit_result (store : Store) (workspaces : Workspaces) :
    (store.commit workspaces).2 = .ok () ∨
      ∃ fault, (store.commit workspaces).2 = .error (.unsaved fault) :=
  save_result _

theorem write_of_open {store : Store} (h : store.closed = false) (name : String)
    (change : Workspace → Workspace) :
    store.write name change =
      store.commit (store.workspaces.set name (change (store.opened name))) := by
  unfold write
  rw [if_neg (by simp [h])]
  rfl

/-! ## Reading the workspace of a file -/

section Reading

variable (store : Store) (file : Option String)

/-- A file that is not there reads as a new one. -/
theorem read_opened {α : Type} (f : Workspace → α) :
    ((store.workspace? file).map f).getD
        (f { name := store.fileName file, code := store.defaultCode }) =
      f (store.opened (store.fileName file)) := by
  unfold workspace? opened
  cases store.workspaces.get? (store.fileName file) <;> rfl

theorem versions_eq_opened : store.versions file = (store.opened (store.fileName file)).versions :=
  store.read_opened file Workspace.versions

theorem messages_eq_opened : store.messages file = (store.opened (store.fileName file)).messages :=
  store.read_opened file Workspace.messages

theorem code_eq_opened : store.code file = (store.opened (store.fileName file)).code :=
  store.read_opened file Workspace.code

theorem current?_eq_opened : store.current? file = (store.opened (store.fileName file)).current? := by
  have hread := store.read_opened file Workspace.current?
  rw [← hread, current?]
  cases store.workspace? file <;> rfl

/-- The name that a file resolves to resolves to itself. -/
theorem fileName_fileName : store.fileName (some (store.fileName file)) = store.fileName file := by
  have hdefault : store.fileName (some store.defaultFile) = store.defaultFile := ite_self _
  cases file with
  | none => exact hdefault
  | some name =>
      cases hempty : name.isEmpty with
      | true =>
          have hname : store.fileName (some name) = store.defaultFile := if_pos hempty
          rw [hname, hdefault]
      | false =>
          have hname : store.fileName (some name) = name := if_neg (by simp [hempty])
          rw [hname, hname]

end Reading

/-- A store whose workspace of one file is another one. -/
structure Replaced (store after : Store) (name : String) (workspace : Workspace) : Prop where
  get?_eq (other : String) :
    after.workspaces.get? other = if other = name then some workspace else store.workspaces.get? other
  closed : after.closed = store.closed
  defaultFile : after.defaultFile = store.defaultFile
  defaultCode : after.defaultCode = store.defaultCode

theorem replaced_write {store : Store} (h : store.closed = false) (name : String)
    (change : Workspace → Workspace) :
    store.Replaced (store.write name change).1 name (change (store.opened name)) := by
  rw [write_of_open h, commit]
  refine ⟨fun other => ?_, save_closed _, save_defaultFile _, save_defaultCode _⟩
  rw [save_workspaces, Keyed.get?_set]

/-- Writing succeeds unless the store cannot be saved. -/
theorem write_result {store : Store} (h : store.closed = false) (name : String)
    (change : Workspace → Workspace) :
    (store.write name change).2 = .ok () ∨
      ∃ fault, (store.write name change).2 = .error (.unsaved fault) := by
  rw [write_of_open h]
  exact commit_result store _

namespace Replaced

variable {store middle after : Store} {name : String} {workspace other : Workspace}

theorem trans (h : store.Replaced middle name other) (h' : middle.Replaced after name workspace) :
    store.Replaced after name workspace where
  get?_eq key := by
    rw [h'.get?_eq, h.get?_eq]
    split <;> rfl
  closed := h'.closed.trans h.closed
  defaultFile := h'.defaultFile.trans h.defaultFile
  defaultCode := h'.defaultCode.trans h.defaultCode

theorem fileName (h : store.Replaced after name workspace) (file : Option String) :
    after.fileName file = store.fileName file := by
  simp only [Store.fileName, h.defaultFile]

theorem opened (h : store.Replaced after name workspace) : after.opened name = workspace := by
  simp [Store.opened, h.get?_eq]

end Replaced

/-! ## Effects of calls -/

/-- What a call on an open store comes to: its answer and the workspaces it leaves, if it changes any. -/
def effect (store : Store) (mint : Mint) : Call → Except StoreFault (Answer × Option Workspaces)
  | .addVersion file prompt plan code tree explanation =>
      let version := store.newVersion mint [] file prompt plan code tree explanation
      .ok (.version version, some (store.workspaces.set (store.fileName file)
        ((store.opened (store.fileName file)).append version)))
  | .addMessage file speaker content =>
      match newMessage mint [] speaker content with
      | .error fault => .error fault
      | .ok message => .ok (.message message, some (store.workspaces.set (store.fileName file)
          ((store.opened (store.fileName file)).say message)))
  | .rollback file id =>
      match (store.workspace? file).bind (·.find? id) with
      | none => .error (.unknownVersion id (store.fileName file))
      | some version => .ok (.version version, some (store.workspaces.set (store.fileName file)
          ((store.opened (store.fileName file)).moveTo version)))
  | .deleteFile name =>
      if store.workspaces.contains name then .ok (.removed true, some (store.workspaces.erase name))
      else .ok (.removed false, none)
  | .reset => .ok (.done, some .empty)

/-- Carry an effect out. -/
def settle (store : Store) : Except StoreFault (Answer × Option Workspaces) → Outcome Answer
  | .error fault => (store, .error fault)
  | .ok (answer, none) => (store, .ok answer)
  | .ok (answer, some workspaces) =>
      let (store, result) := store.commit workspaces
      (store, result.map fun _ => answer)

theorem map_map_result {α β : Type} (result : Except StoreFault Unit) (a : α) (f : α → β) :
    (result.map fun _ => a).map f = result.map fun _ => f a := by
  cases result <;> rfl

/-- Forgetting does not look whether the store is closed. -/
theorem perform_of_isForgetting {call : Call} (h : call.isForgetting = true) (store : Store) (mint : Mint) :
    store.perform mint call = store.settle (store.effect mint call) := by
  cases call with
  | deleteFile name =>
      simp only [perform, deleteFile, effect]
      split
      · simp only [Outcome.answered, map_map_result, settle, commit]
      · rfl
  | reset => simp only [perform, reset, Outcome.answered, effect, settle, commit]
  | addVersion | addMessage | rollback => cases h

theorem perform_eq {store : Store} (h : store.closed = false) (mint : Mint) (call : Call) :
    store.perform mint call = store.settle (store.effect mint call) := by
  cases call with
  | addVersion file prompt plan code tree explanation =>
      simp only [perform, addVersion, newVersion, write_of_open h, Outcome.answered, map_map_result, effect,
        settle]
  | addMessage file speaker content =>
      simp only [perform, effect]
      cases newMessage mint [] speaker content with
      | error fault => rfl
      | ok message => simp only [addMessage, write_of_open h, Outcome.answered, map_map_result, settle]
  | rollback file id =>
      simp only [perform, rollback, effect]
      cases (store.workspace? file).bind (·.find? id) with
      | none => rfl
      | some version => simp only [write_of_open h, Outcome.answered, map_map_result, settle]
  | deleteFile | reset => exact perform_of_isForgetting rfl store mint

theorem write_of_closed {store : Store} (h : store.closed = true) (name : String)
    (change : Workspace → Workspace) : store.write name change = (store, .error .closed) := by
  unfold write
  rw [if_pos h]

/-- The effect of a call that forgets files, or finds the store open, is carried out. -/
theorem perform_eq_settle {store : Store} {call : Call}
    (h : store.closed = false ∨ call.isForgetting = true) (mint : Mint) :
    store.perform mint call = store.settle (store.effect mint call) :=
  h.elim (fun hopen => perform_eq hopen mint call) fun hcall => perform_of_isForgetting hcall store mint

/-- A call on a closed store that forgets nothing is refused. -/
theorem perform_of_closed {store : Store} (h : store.closed = true) (mint : Mint) {call : Call}
    (hcall : call.isForgetting = false) :
    ∃ fault, store.perform mint call = (store, .error fault) ∧ ∀ reason, fault ≠ .unsaved reason := by
  cases call with
  | addVersion file prompt plan code tree explanation =>
      refine ⟨.closed, ?_, nofun⟩
      simp only [perform, addVersion, write_of_closed h]
      rfl
  | addMessage file speaker content =>
      cases hmessage : newMessage mint [] speaker content with
      | error fault =>
          obtain rfl : fault = .unknownSpeaker speaker := by
            unfold newMessage at hmessage
            split at hmessage <;> cases hmessage
            rfl
          exact ⟨.unknownSpeaker speaker, by rw [perform, hmessage], nofun⟩
      | ok message =>
          refine ⟨.closed, ?_, nofun⟩
          simp only [perform, hmessage, addMessage, write_of_closed h]
          rfl
  | rollback file id =>
      cases hfound : (store.workspace? file).bind (·.find? id) with
      | none =>
          refine ⟨.unknownVersion id (store.fileName file), ?_, nofun⟩
          simp only [perform, rollback, hfound]
          rfl
      | some version =>
          refine ⟨.closed, ?_, nofun⟩
          simp only [perform, rollback, hfound, write_of_closed h]
          rfl
  | deleteFile | reset => cases hcall

/-- The workspaces after an effect. -/
def left (store : Store) : Except StoreFault (Answer × Option Workspaces) → Workspaces
  | .ok (_, some workspaces) => workspaces
  | _ => store.workspaces

variable {store : Store} {change : Except StoreFault (Answer × Option Workspaces)}

@[simp] theorem settle_workspaces : (store.settle change).1.workspaces = store.left change := by
  match change with
  | .error _ | .ok (_, none) => rfl
  | .ok (_, some workspaces) => exact save_workspaces _

@[simp] theorem settle_defaultFile : (store.settle change).1.defaultFile = store.defaultFile := by
  match change with
  | .error _ | .ok (_, none) => rfl
  | .ok (_, some workspaces) => exact save_defaultFile _

@[simp] theorem settle_defaultCode : (store.settle change).1.defaultCode = store.defaultCode := by
  match change with
  | .error _ | .ok (_, none) => rfl
  | .ok (_, some workspaces) => exact save_defaultCode _

@[simp] theorem settle_closed : (store.settle change).1.closed = store.closed := by
  match change with
  | .error _ | .ok (_, none) => rfl
  | .ok (_, some workspaces) => exact save_closed _

/-- When nothing went wrong with saving, a call answers as its effect says. -/
theorem settle_result (h : ∀ fault, (store.settle change).2 ≠ .error (.unsaved fault)) :
    (store.settle change).2 = change.map Prod.fst := by
  match change with
  | .error _ | .ok (_, none) => rfl
  | .ok (answer, some workspaces) =>
      have hresult : (store.settle (.ok (answer, some workspaces))).2 =
          (store.commit workspaces).2.map fun _ => answer := rfl
      rw [hresult] at h ⊢
      rcases store.commit_result workspaces with hsaved | ⟨fault, hfailed⟩
      · rw [hsaved]
        rfl
      · exact absurd (by rw [hfailed]; rfl) (h fault)

/-- Carrying an effect out fails because the effect is a fault, or because saving does. -/
theorem settle_error_cases {fault : StoreFault} (h : (store.settle change).2 = .error fault) :
    change = .error fault ∨ ∃ answer workspaces reason, change = .ok (answer, some workspaces) ∧
      fault = .unsaved reason ∧ (store.commit workspaces).2 = .error fault := by
  match change with
  | .error other =>
      cases h
      exact .inl rfl
  | .ok (answer, none) => cases h
  | .ok (answer, some workspaces) =>
      rcases store.commit_result workspaces with hsaved | ⟨reason, hfailed⟩
      · simp [settle, hsaved, Except.map] at h
      · obtain rfl : .unsaved reason = fault := by simpa [settle, hfailed, Except.map] using h
        exact .inr ⟨answer, workspaces, reason, rfl, rfl, hfailed⟩

/-! ## Calls one after the other -/

theorem run_cons (store : Store) (mint : Mint) (call : Call) (rest : List (Mint × Call)) :
    store.run ((mint, call) :: rest) =
      (((store.perform mint call).1.run rest).1,
        ⟨mint, call, (store.perform mint call).2⟩ :: ((store.perform mint call).1.run rest).2) :=
  rfl

end Store

end ComponentBuilder.History
