import ComponentBuilder.Proofs.History.Observation

/-!
# What a closed store still does

Closing saves the store for the last time.  From then on it refuses every call that would add to a history or
move a cursor, but files are still forgotten, and what is left is saved over what was kept.  So a closed
store is frozen exactly as long as nobody forgets one of its files.
-/

namespace ComponentBuilder.History

/-! ## Closing -/

/-- A shelf that has taken a document takes it again without a change. -/
theorem Shelf.save_save {shelf : Shelf} {document : Json} (h : (shelf.save document).2 = .ok ()) :
    (shelf.save document).1.save document = ((shelf.save document).1, .ok ()) := by
  unfold save at h ⊢
  cases hprint : document.print .indented with
  | error e => simp [hprint] at h
  | ok text =>
      simp only [hprint] at h ⊢
      cases hfile : shelf.file with
      | directory => simp [hfile] at h
      | missing | document => rfl

namespace Store

variable {store : Store}

/-- What is kept of a store is what the store holds. -/
def IsFlushed (store : Store) : Prop :=
  ∀ shelf, store.shelf = some shelf → shelf.save store.snapshot = (shelf, .ok ())

theorem IsFlushed.save_eq (h : store.IsFlushed) : store.save = (store, .ok ()) := by
  obtain ⟨workspaces, defaultFile, defaultCode, closed, shelf⟩ := store
  cases shelf with
  | none => rfl
  | some shelf => simp only [save, h shelf rfl, Except.mapError]

theorem isFlushed_of_save (h : store.save.2 = .ok ()) : store.save.1.IsFlushed := by
  intro kept hkept
  cases hshelf : store.shelf with
  | none => simp [save, hshelf] at hkept
  | some shelf =>
      simp only [save, hshelf, Option.some.injEq] at h hkept ⊢
      have hsaved : (shelf.save store.snapshot).2 = .ok () := by
        cases hresult : (shelf.save store.snapshot).2 with
        | ok _ => rfl
        | error fault => simp [hresult, Except.mapError] at h
      rw [← hkept]
      exact Shelf.save_save hsaved

theorem closed_isFlushed_of_close (hopen : store.closed = false) (hclose : store.close.2 = .ok ()) :
    store.close.1.closed = true ∧ store.close.1.IsFlushed := by
  have hflushed := @isFlushed_of_save store
  unfold close at hclose ⊢
  rw [if_neg (by simp [hopen])] at hclose ⊢
  cases hsave : store.save with
  | mk after result =>
      rw [hsave] at hclose hflushed
      cases result with
      | ok _ => exact ⟨rfl, hflushed rfl⟩
      | error fault => cases hclose

/-! ## One call on a closed store -/

/-- The entries of a store without those of the files that are gone. -/
structure Loses (store after : Store) (gone : String → Bool) : Prop where
  closed : after.closed = store.closed
  entries : after.workspaces.entries = store.workspaces.entries.filter fun entry => !gone entry.1

theorem loses_perform (hclosed : store.closed = true) (mint : Mint) (call : Call) :
    store.Loses (store.perform mint call).1
      fun name => Entry.forgets name ⟨mint, call, (store.perform mint call).2⟩ := by
  cases hcall : call.isForgetting with
  | false =>
      obtain ⟨fault, hperform, -⟩ := perform_of_closed hclosed mint hcall
      rw [hperform]
      refine ⟨rfl, ?_⟩
      cases call with
      | addVersion | addMessage | rollback => simp [Entry.forgets]
      | deleteFile | reset => cases hcall
  | true =>
      rw [perform_of_isForgetting hcall]
      refine ⟨settle_closed, ?_⟩
      rw [settle_workspaces]
      cases call with
      | addVersion | addMessage | rollback => cases hcall
      | reset => simp [effect, left, Entry.forgets, Keyed.empty]
      | deleteFile name =>
          simp only [effect, Entry.forgets]
          split
          · simp [left, Keyed.erase, bne, BEq.comm]
          · next hmissing =>
              refine (List.filter_eq_self.2 fun entry hentry => ?_).symm
              have hne : name ≠ entry.1 := by
                rintro rfl
                exact hmissing (Keyed.isSome_get?_iff.2 (List.mem_map_of_mem hentry))
              simpa using hne

/-- A call that forgets no file of a closed store leaves the store as it is. -/
theorem perform_of_not_forgets (hclosed : store.closed = true) (hflushed : store.IsFlushed) (mint : Mint)
    (call : Call)
    (h : ∀ name ∈ store.files, Entry.forgets name ⟨mint, call, (store.perform mint call).2⟩ = false) :
    (store.perform mint call).1 = store := by
  cases hcall : call.isForgetting with
  | false =>
      obtain ⟨fault, hperform, -⟩ := perform_of_closed hclosed mint hcall
      rw [hperform]
  | true =>
      cases call with
      | addVersion | addMessage | rollback => cases hcall
      | deleteFile name =>
          have hmissing : store.workspaces.contains name = false := by
            rw [← Bool.not_eq_true]
            intro hthere
            have hforgets := h name (mem_files_iff.2 hthere)
            simp [Entry.forgets] at hforgets
          rw [perform, deleteFile, hmissing]
          rfl
      | reset =>
          have hempty : store.workspaces = .empty := by
            refine Keyed.ext (List.eq_nil_iff_forall_not_mem.2 fun entry hentry => ?_)
            have hthere := Keyed.isSome_get?_iff.2 (List.mem_map_of_mem hentry)
            exact Bool.noConfusion (h entry.1 (mem_files_iff.2 hthere))
          have hstore : ({ store with workspaces := .empty } : Store) = store := by rw [← hempty]
          rw [perform, reset, hstore, hflushed.save_eq]
          rfl

/-! ## Any calls on a closed store -/

theorem loses_run (hclosed : store.closed = true) (calls : List (Mint × Call)) :
    store.Loses (store.run calls).1 fun name => (store.run calls).2.any (Entry.forgets name) := by
  induction calls generalizing store with
  | nil => exact ⟨rfl, (List.filter_eq_self.2 fun _ _ => rfl).symm⟩
  | cons step calls ih =>
      obtain ⟨mint, call⟩ := step
      have hfirst := loses_perform hclosed mint call
      have hrest := ih (hfirst.closed.trans hclosed)
      rw [run_cons]
      refine ⟨hrest.closed.trans hfirst.closed, ?_⟩
      rw [hrest.entries, hfirst.entries, List.filter_filter]
      simp only [List.any_cons, Bool.not_or, Bool.and_comm]

/-- Calls that forget nothing are answered with a fault. -/
theorem refused_of_mem_run (hclosed : store.closed = true) (calls : List (Mint × Call)) :
    ∀ entry ∈ (store.run calls).2, entry.call.isForgetting = false →
      ∃ fault, entry.answer = .error fault := by
  induction calls generalizing store with
  | nil => exact fun _ hentry => nomatch hentry
  | cons step calls ih =>
      obtain ⟨mint, call⟩ := step
      rw [run_cons]
      intro entry hentry hcall
      rcases List.mem_cons.1 hentry with rfl | hentry
      · obtain ⟨fault, hperform, -⟩ := perform_of_closed hclosed mint hcall
        exact ⟨fault, congrArg Prod.snd hperform⟩
      · exact ih ((loses_perform hclosed mint call).closed.trans hclosed) entry hentry hcall

/-- Calls that forget no file of a closed store leave the store as it is. -/
theorem run_of_not_forgets (hclosed : store.closed = true) (hflushed : store.IsFlushed)
    (calls : List (Mint × Call))
    (h : ∀ entry ∈ (store.run calls).2, ∀ name ∈ store.files, entry.forgets name = false) :
    (store.run calls).1 = store := by
  induction calls with
  | nil => rfl
  | cons step calls ih =>
      obtain ⟨mint, call⟩ := step
      rw [run_cons] at h ⊢
      have hfirst := perform_of_not_forgets hclosed hflushed mint call (h _ List.mem_cons_self)
      rw [hfirst] at h ⊢
      exact ih fun entry hentry => h entry (List.mem_cons_of_mem _ hentry)

/-- A lost file shows in the snapshot. -/
theorem Loses.not_gone {after : Store} {gone : String → Bool} (h : store.Loses after gone)
    (hsnapshot : after.snapshot = store.snapshot) : ∀ name ∈ store.files, gone name = false := by
  have hlength : after.workspaces.entries.length = store.workspaces.entries.length := by
    have hvalues : after.workspaces.values.map Workspace.toJson =
        store.workspaces.values.map Workspace.toJson := by
      simpa [snapshot, History.snapshot] using hsnapshot
    simpa [Keyed.values] using congrArg List.length hvalues
  rw [h.entries, List.length_filter_eq_length_iff] at hlength
  intro name hname
  obtain ⟨entry, hentry, rfl⟩ := List.mem_map.1 (Keyed.isSome_get?_iff.1 (mem_files_iff.1 hname))
  simpa using hlength entry hentry

end Store

/--
A closed store, whatever is called on it, keeps its contents and what was saved of them exactly when no call
forgets one of its files; every other call is refused; and a file is there as it was until it is forgotten.
-/
theorem closed_store_frozen_iff (store : Store) (hopen : store.closed = false)
    (hclose : store.close.2 = .ok ()) (calls : List (Mint × Call)) :
    let closed := store.close.1
    let last := (closed.run calls).1
    let log := (closed.run calls).2
    ((last.snapshot = closed.snapshot ∧ last.shelf = closed.shelf) ↔
      ∀ entry ∈ log, ∀ name ∈ closed.files, entry.forgets name = false) ∧
    (∀ entry ∈ log, entry.call.isForgetting = false → ∃ fault, entry.answer = .error fault) ∧
    ∀ name, last.workspaces.get? name =
      if log.any (Entry.forgets name) then none else closed.workspaces.get? name := by
  intro closed last log
  obtain ⟨hclosed, hflushed⟩ := Store.closed_isFlushed_of_close hopen hclose
  have hloses := Store.loses_run hclosed calls
  refine ⟨⟨fun hkept entry hentry name hname => ?_, fun hnone => ?_⟩,
    Store.refused_of_mem_run hclosed calls, fun name => ?_⟩
  · exact Bool.eq_false_iff.2 (List.any_eq_false.1 (hloses.not_gone hkept.1 name hname) entry hentry)
  · have hlast : last = closed := Store.run_of_not_forgets hclosed hflushed calls hnone
    rw [hlast]
    exact ⟨rfl, rfl⟩
  · rw [Keyed.get?, hloses.entries, lookup_filter fun name => !log.any (Entry.forgets name)]
    cases log.any (Entry.forgets name) <;> rfl

/-- A store with a file, and a place for its snapshot. -/
def filledStore : Store :=
  (({ shelf := some { path := "state.json" } } : Store).perform (numberedMint 1)
    (.addVersion (some "A.tsx") "p" { intent := "a page" } "a" none "")).1

theorem closed_store_frozen_filled :
    let closed := filledStore.close.1
    let calls : List (Mint × Call) := [(numberedMint 2, .addMessage (some "A.tsx") "user" "more"),
      (numberedMint 3, .deleteFile "B.tsx")]
    filledStore.closed = false ∧ filledStore.close.2 = .ok () ∧
      (((closed.run calls).1.snapshot = closed.snapshot ∧ (closed.run calls).1.shelf = closed.shelf) ↔
        ∀ entry ∈ (closed.run calls).2, ∀ name ∈ closed.files, entry.forgets name = false) := by
  intro closed calls
  have hopen : filledStore.closed = false := rfl
  have hclose : filledStore.close.2 = .ok () := by decide +kernel
  exact ⟨hopen, hclose, (closed_store_frozen_iff filledStore hopen hclose calls).1⟩

/-- A file of a closed store is forgotten, without a fault, and what was saved of it is gone. -/
theorem closed_store_forgets :
    let closed := filledStore.close.1
    let after := (closed.perform (numberedMint 2) (.deleteFile "A.tsx")).1
    closed.closed = true ∧
      (closed.perform (numberedMint 2) (.deleteFile "A.tsx")).2 = .ok (.removed true) ∧
      after.files ≠ closed.files ∧ after.shelf ≠ closed.shelf :=
  ⟨rfl, rfl, by decide +kernel, by decide +kernel⟩

end ComponentBuilder.History
