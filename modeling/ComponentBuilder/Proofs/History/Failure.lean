import ComponentBuilder.Proofs.History.Observation

/-!
# What a failed call leaves behind

A call that is refused leaves the store as it is.  A call whose change could not be saved has already made
it: the store then reads as if the change had been saved, while the file keeps what it held.  So a failed
call is invisible exactly when it was refused or asked for what is there already.
-/

namespace ComponentBuilder

theorem assign_of_lookup {α : Type} {key : String} {value : α} {entries : List (String × α)}
    (h : entries.lookup key = some value) : assign key value entries = entries := by
  induction entries with
  | nil => cases h
  | cons entry rest ih =>
      obtain ⟨k, v⟩ := entry
      by_cases hk : k = key
      · subst hk
        obtain rfl : v = value := by simpa using h
        simp [assign]
      · have hne : (key == k) = false := by simpa using Ne.symm hk
        rw [List.lookup_cons, hne] at h
        simp [assign, hk, ih h]

/-- An assignment shows in the values unless the key had a value that shows alike. -/
theorem map_snd_assign_eq {α β : Type} {f : α → β} {key : String} {value : α}
    {entries : List (String × α)}
    (h : (assign key value entries).map (fun entry => f entry.2) = entries.map fun entry => f entry.2) :
    ∃ old, entries.lookup key = some old ∧ f old = f value := by
  induction entries with
  | nil => simp [assign] at h
  | cons entry rest ih =>
      obtain ⟨k, v⟩ := entry
      by_cases hk : k = key
      · subst hk
        refine ⟨v, by simp, ?_⟩
        simp only [assign, if_true, List.map_cons, List.cons.injEq] at h
        exact h.1.symm
      · have hne : (key == k) = false := by simpa using Ne.symm hk
        simp only [assign, hk, if_false, List.map_cons, List.cons.injEq, true_and] at h
        rw [List.lookup_cons, hne]
        exact ih h

namespace Keyed

variable {α : Type} {m : Keyed α} {key : String} {value : α}

theorem set_of_get? (h : m.get? key = some value) : m.set key value = m :=
  ext (assign_of_lookup h)

theorem length_erase_lt (h : m.contains key = true) : (m.erase key).entries.length < m.entries.length := by
  obtain ⟨value, hvalue⟩ := Option.isSome_iff_exists.1 h
  rw [erase, List.length_filter_lt_length_iff_exists]
  exact ⟨(key, value), mem_of_get? hvalue, by simp⟩

end Keyed

namespace History

open Markup

/-! ## Calls that ask for what is there -/

/-- A call asks for what is there already. -/
def Call.IsIdle (store : Store) : Call → Prop
  | rollback file id => ∃ workspace version, store.workspace? file = some workspace ∧
      workspace.find? id = some version ∧ workspace.cursor = some id ∧ workspace.code = version.code
  | deleteFile name => store.workspaces.get? name = none
  | reset => store.workspaces = .empty
  | addVersion _ _ _ _ _ _ | addMessage _ _ _ => False

namespace Workspace

variable {workspace : Workspace}

/-- A workspace that is stored alike has as many records, the same cursor and the same code. -/
theorem of_toJson_eq {other : Workspace} (h : workspace.toJson = other.toJson) :
    workspace.messages.length = other.messages.length ∧ workspace.versions.length = other.versions.length ∧
      workspace.cursor = other.cursor ∧ workspace.code = other.code := by
  simp only [toJson, Json.obj.injEq, List.cons.injEq, Prod.mk.injEq, Json.arr.injEq, Json.str.injEq,
    true_and, and_true] at h
  obtain ⟨-, hmessages, hversions, hcursor, hcode⟩ := h
  refine ⟨by simpa using congrArg List.length hmessages, by simpa using congrArg List.length hversions, ?_,
    hcode⟩
  cases hold : workspace.cursor <;> cases hnew : other.cursor <;> simp_all

end Workspace

namespace Store

variable {store : Store}

theorem snapshot_eq_iff {workspaces other : Workspaces} :
    History.snapshot workspaces = History.snapshot other ↔
      workspaces.entries.map (fun entry => entry.2.toJson) =
        other.entries.map fun entry => entry.2.toJson := by
  simp [History.snapshot, Keyed.values, Function.comp_def]

/-- A changed workspace shows in the snapshot unless the file had one that is stored alike. -/
theorem exists_opened_of_snapshot_eq {name : String} {workspace : Workspace}
    (h : History.snapshot (store.workspaces.set name workspace) = store.snapshot) :
    store.workspaces.get? name = some (store.opened name) ∧
      (store.opened name).toJson = workspace.toJson := by
  obtain ⟨old, hold, halike⟩ := map_snd_assign_eq (snapshot_eq_iff.1 h)
  have hget : store.workspaces.get? name = some old := hold
  rw [opened, hget, Option.getD_some]
  exact ⟨rfl, halike⟩

variable {mint : Mint} {call : Call} {fault : StoreFault}

/-- A call whose change does not show in the snapshot asks for what is there. -/
theorem isIdle_of_snapshot_eq {answer : Answer} {workspaces : Workspaces}
    (heffect : store.effect mint call = .ok (answer, some workspaces))
    (h : History.snapshot workspaces = store.snapshot) : call.IsIdle store := by
  cases call with
  | addVersion file prompt plan code tree explanation =>
      simp only [effect, Except.ok.injEq, Prod.mk.injEq, Option.some.injEq] at heffect
      obtain ⟨-, rfl⟩ := heffect
      -- One more record makes its list longer, and the lists are stored.
      obtain ⟨-, hlength, -, -⟩ := Workspace.of_toJson_eq (exists_opened_of_snapshot_eq h).2
      simp at hlength
  | addMessage file speaker content =>
      simp only [effect] at heffect
      split at heffect
      · cases heffect
      · simp only [Except.ok.injEq, Prod.mk.injEq, Option.some.injEq] at heffect
        obtain ⟨-, rfl⟩ := heffect
        obtain ⟨hlength, -, -, -⟩ := Workspace.of_toJson_eq (exists_opened_of_snapshot_eq h).2
        simp at hlength
  | rollback file id =>
      simp only [effect] at heffect
      split at heffect
      · cases heffect
      · next version hfound =>
          simp only [Except.ok.injEq, Prod.mk.injEq, Option.some.injEq] at heffect
          obtain ⟨-, rfl⟩ := heffect
          obtain ⟨hget, halike⟩ := exists_opened_of_snapshot_eq h
          obtain ⟨-, -, hcursor, hcode⟩ := Workspace.of_toJson_eq halike
          have hworkspace : store.workspace? file = some (store.opened (store.fileName file)) := hget
          rw [hworkspace, Option.bind_some] at hfound
          refine ⟨_, version, hworkspace, hfound, ?_, hcode⟩
          rw [hcursor, Workspace.cursor_moveTo, Workspace.id_of_find? hfound]
  | deleteFile name =>
      simp only [effect] at heffect
      split at heffect
      · next hthere =>
          simp only [Except.ok.injEq, Prod.mk.injEq, Option.some.injEq] at heffect
          obtain ⟨-, rfl⟩ := heffect
          have hlength := congrArg List.length (snapshot_eq_iff.1 h)
          rw [List.length_map, List.length_map] at hlength
          exact absurd hlength (Keyed.length_erase_lt hthere).ne
      · cases heffect
  | reset =>
      simp only [effect, Except.ok.injEq, Prod.mk.injEq, Option.some.injEq] at heffect
      obtain ⟨-, rfl⟩ := heffect
      have hnone := snapshot_eq_iff.1 h.symm
      exact Keyed.ext (List.map_eq_nil_iff.1 hnone)

/-- A call that asks for what is there leaves the workspaces as they are. -/
theorem left_of_isIdle (h : call.IsIdle store) (mint : Mint) :
    store.left (store.effect mint call) = store.workspaces := by
  cases call with
  | addVersion | addMessage => exact h.elim
  | rollback file id =>
      obtain ⟨workspace, version, hworkspace, hfound, hcursor, hcode⟩ := h
      have hget : store.workspaces.get? (store.fileName file) = some workspace := hworkspace
      have hsame : workspace.moveTo version = workspace := by
        rw [Workspace.moveTo, Workspace.id_of_find? hfound, ← hcursor, ← hcode]
      simp only [effect, hworkspace, Option.bind_some, hfound, left, opened, hget, Option.getD_some, hsame]
      exact Keyed.set_of_get? hget
  | deleteFile name =>
      have hmissing : store.workspaces.contains name = false := by
        rw [Keyed.contains, h, Option.isSome_none]
      rw [effect, hmissing]
      rfl
  | reset => exact h.symm

/-! ## Failed calls -/

/-- What is not saved is not in the place of the file. -/
theorem save_file (h : store.save.2 = .error fault) :
    store.save.1.shelf.map Shelf.file = store.shelf.map Shelf.file := by
  unfold save at h ⊢
  cases hshelf : store.shelf with
  | none => simp [hshelf] at h
  | some shelf =>
      simp only [hshelf, Shelf.save] at h ⊢
      cases hprint : store.snapshot.print .indented with
      | error e => rfl
      | ok text =>
          simp only [hprint] at h ⊢
          cases hfile : shelf.file with
          | directory => simp [hfile]
          | missing | document => simp [hfile, Except.mapError] at h

theorem ne_unsaved_of_effect (h : store.effect mint call = .error fault) (reason : SaveFault) :
    fault ≠ .unsaved reason := by
  rintro rfl
  cases call with
  | addVersion | reset => cases h
  | addMessage file speaker content =>
      simp only [effect, newMessage] at h
      split at h
      · next hmessage =>
          split at hmessage <;> cases hmessage
          cases h
      · cases h
  | rollback file id =>
      simp only [effect] at h
      split at h <;> cases h
  | deleteFile name =>
      simp only [effect] at h
      split at h <;> cases h

/-- A failed call was refused, or its change was made and could not be saved. -/
theorem perform_error_cases (h : (store.perform mint call).2 = .error fault) :
    ((store.perform mint call).1 = store ∧ ∀ reason, fault ≠ .unsaved reason) ∨
      ∃ answer workspaces reason, (store.closed = false ∨ call.isForgetting = true) ∧
        store.effect mint call = .ok (answer, some workspaces) ∧ fault = .unsaved reason ∧
        (store.commit workspaces).2 = .error fault := by
  by_cases hheard : store.closed = false ∨ call.isForgetting = true
  · rw [perform_eq_settle hheard] at h ⊢
    rcases settle_error_cases h with heffect | ⟨answer, workspaces, reason, hfailed⟩
    · rw [heffect]
      exact .inl ⟨rfl, ne_unsaved_of_effect heffect⟩
    · exact .inr ⟨answer, workspaces, reason, hheard, hfailed⟩
  · rw [not_or, Bool.not_eq_false, Bool.not_eq_true] at hheard
    obtain ⟨refusal, hperform, hne⟩ := perform_of_closed hheard.1 mint hheard.2
    rw [hperform] at h ⊢
    cases h
    exact .inl ⟨rfl, hne⟩

/-- What a call does to the workspaces does not depend on where they are kept. -/
theorem effect_shelf (store : Store) (shelf : Option Shelf) (mint : Mint) (call : Call) :
    ({ store with shelf := shelf } : Store).effect mint call = store.effect mint call := by
  cases call <;> rfl

theorem sameOn_of_workspaces_eq {after : Store} (hworkspaces : after.workspaces = store.workspaces)
    (hfile : after.defaultFile = store.defaultFile) (hcode : after.defaultCode = store.defaultCode)
    (file : Option String) : after.SameOn store file :=
  sameOn_of_get?_eq hfile hcode (by simp only [fileName, hfile, hworkspaces])

end Store

/--
After a failed call the store shows what it showed before, the snapshot and everything about every file,
exactly when the call was refused or asked for what is there already.  A refusal leaves the store itself
unchanged.  A call that could not be saved leaves the workspaces as in a store that saves nothing, where it
succeeds, and leaves the file as it is: the store runs ahead of the file.
-/
theorem failed_call_invisible_iff (store : Store) (mint : Mint) (call : Call) {fault : StoreFault}
    (hfailed : (store.perform mint call).2 = .error fault) :
    let after := (store.perform mint call).1
    ((after.snapshot = store.snapshot ∧ ∀ file, after.SameOn store file) ↔
      (∀ reason, fault ≠ .unsaved reason) ∨ call.IsIdle store) ∧
    ((∀ reason, fault ≠ .unsaved reason) → after = store) ∧
    ∀ reason, fault = .unsaved reason →
      after.workspaces = (({ store with shelf := none } : Store).perform mint call).1.workspaces ∧
        after.shelf.map Shelf.file = store.shelf.map Shelf.file := by
  intro after
  rcases Store.perform_error_cases hfailed with ⟨hsame, hrefused⟩ |
    ⟨answer, workspaces, reason, hheard, heffect, rfl, hunsaved⟩
  · have hafter : after = store := hsame
    refine ⟨iff_of_true ?_ (.inl hrefused), fun _ => hafter, fun reason hreason =>
      absurd hreason (hrefused reason)⟩
    rw [hafter]
    exact ⟨rfl, fun file => Store.sameOn_of_workspaces_eq rfl rfl rfl file⟩
  · have hafter : after = (store.commit workspaces).1 := by
      simp only [after, Store.perform_eq_settle hheard, heffect, Store.settle]
    have hleft : after.workspaces = workspaces := by rw [hafter, Store.commit, Store.save_workspaces]
    refine ⟨⟨fun hshows => .inr ?_, fun h => ?_⟩, fun h => absurd rfl (h reason), fun _ _ => ⟨?_, ?_⟩⟩
    · apply Store.isIdle_of_snapshot_eq heffect
      rw [← hleft]
      exact hshows.1
    · have hidle := h.resolve_left fun hrefused => hrefused reason rfl
      have hkept : after.workspaces = store.workspaces := by
        rw [hleft, ← Store.left_of_isIdle hidle mint, heffect]
        rfl
      refine ⟨by rw [Store.snapshot, Store.snapshot, hkept], fun file => ?_⟩
      apply Store.sameOn_of_workspaces_eq hkept <;> rw [hafter, Store.commit]
      · exact Store.save_defaultFile _
      · exact Store.save_defaultCode _
    · have hunkept := @Store.perform_eq_settle { store with shelf := none } call hheard mint
      rw [hleft, hunkept, Store.settle_workspaces, Store.effect_shelf, heffect]
      rfl
    · rw [hafter]
      exact Store.save_file hunsaved

/-- A store whose file has a directory in its place. -/
def blockedStore : Store where
  shelf := some { path := "state.json", file := .directory }

theorem failed_call_invisible_blocked :
    let call : Call := .addVersion none "p" { intent := "a page" } "a" none ""
    let after := (blockedStore.perform (numberedMint 1) call).1
    (blockedStore.perform (numberedMint 1) call).2 = .error (.unsaved .directory) ∧
      ((after.snapshot = blockedStore.snapshot ∧ ∀ file, after.SameOn blockedStore file) ↔
        (∀ reason, StoreFault.unsaved .directory ≠ .unsaved reason) ∨ call.IsIdle blockedStore) := by
  intro call after
  have hfailed : (blockedStore.perform (numberedMint 1) call).2 = .error (.unsaved .directory) := rfl
  exact ⟨hfailed, (failed_call_invisible_iff blockedStore (numberedMint 1) call hfailed).1⟩

/-- The code of a version that could not be saved is read as if it had been. -/
theorem failed_call_visible :
    let after := (blockedStore.perform (numberedMint 1)
      (.addVersion none "p" { intent := "a page" } "a" none "")).1
    (blockedStore.perform (numberedMint 1)
        (.addVersion none "p" { intent := "a page" } "a" none "")).2 = .error (.unsaved .directory) ∧
      after.code none = "a" ∧ after.code none ≠ blockedStore.code none ∧
      after.shelf.map Shelf.file = blockedStore.shelf.map Shelf.file :=
  ⟨rfl, rfl, by decide +kernel, rfl⟩

end History

end ComponentBuilder
