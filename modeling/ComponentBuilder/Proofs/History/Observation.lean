import ComponentBuilder.Proofs.History.Refinement

/-!
# What a store shows of its history

The versions, the conversation, the current version and the code of every file after any sequence of calls,
as the record of the calls tells them; when going back to a version succeeds; and that a call on one file
shows in no other.
-/

namespace ComponentBuilder

namespace Text

theorem sorted_perm (texts : List String) : (sorted texts).Perm texts :=
  List.mergeSort_perm texts _

/-- Sorted texts without repetitions ascend strictly. -/
theorem pairwise_sorted {texts : List String} (h : texts.Nodup) : (sorted texts).Pairwise (· < ·) := by
  have hle : (sorted texts).Pairwise (· ≤ ·) := by
    have hsorted := @List.pairwise_mergeSort _ (fun a b => !before b a)
      (fun a b c hab hbc => by
        simp only [before, Bool.not_eq_true', decide_eq_false_iff_not, not_lt] at *
        exact le_trans hab hbc)
      (fun a b => by
        simp only [before, Bool.or_eq_true, Bool.not_eq_true', decide_eq_false_iff_not, not_lt]
        exact le_total a b) texts
    refine hsorted.imp fun hab => ?_
    simpa only [before, Bool.not_eq_true', decide_eq_false_iff_not, not_lt] using hab
  have hne : (sorted texts).Pairwise (· ≠ ·) := (sorted_perm texts).nodup_iff.2 h
  exact (hle.and hne).imp fun hab => lt_of_le_of_ne hab.1 hab.2

end Text

namespace History

open Markup

/-! ## Going back -/

namespace Store

variable {store : Store} {file : Option String} {id : String}

theorem find?_eq_none_iff :
    (store.workspace? file).bind (·.find? id) = none ↔ id ∉ (store.versions file).map Version.id := by
  unfold versions
  cases store.workspace? file with
  | none => simp
  | some workspace => simp [Workspace.find?]

theorem rollback_of_not_mem (h : id ∉ (store.versions file).map Version.id) :
    store.rollback file id = (store, .error (.unknownVersion id (store.fileName file))) := by
  rw [rollback, find?_eq_none_iff.2 h]

theorem mem_of_rollback {version : Version} (h : (store.rollback file id).2 = .ok version) :
    version ∈ store.versions file ∧ version.id = id := by
  unfold rollback at h
  cases hfound : (store.workspace? file).bind (·.find? id) with
  | none => simp [hfound] at h
  | some found =>
      simp only [hfound] at h
      obtain rfl : found = version := by
        cases hwritten : (store.write (store.fileName file) (·.moveTo found)).2 with
        | ok _ => simpa [hwritten, Except.map] using h
        | error fault => simp [hwritten, Except.map] at h
      obtain ⟨workspace, hworkspace, hversion⟩ := Option.bind_eq_some_iff.1 hfound
      refine ⟨?_, Workspace.id_of_find? hversion⟩
      rw [versions, hworkspace]
      exact List.mem_of_find?_eq_some hversion

/-- Going back succeeds exactly to the versions of the file, unless it cannot be saved. -/
theorem rollback_eq_ok_iff (hopen : store.closed = false)
    (hsaved : ∀ fault, (store.rollback file id).2 ≠ .error (.unsaved fault)) :
    (∃ version, (store.rollback file id).2 = .ok version) ↔ id ∈ (store.versions file).map Version.id := by
  constructor
  · rintro ⟨version, hversion⟩
    by_contra hnot
    rw [rollback_of_not_mem hnot] at hversion
    cases hversion
  · intro hmem
    cases hfound : (store.workspace? file).bind (·.find? id) with
    | none => exact absurd hmem (find?_eq_none_iff.1 hfound)
    | some version =>
        simp only [rollback, hfound, write_of_open hopen] at hsaved ⊢
        rcases store.commit_result (store.workspaces.set (store.fileName file)
          ((store.opened (store.fileName file)).moveTo version)) with hok | ⟨fault, hfailed⟩
        · exact ⟨version, by rw [hok]; rfl⟩
        · exact absurd (by rw [hfailed]; rfl) (hsaved fault)

/-! ## Other files -/

/-- Two stores show the same of a file. -/
structure SameOn (store other : Store) (file : Option String) : Prop where
  versions : store.versions file = other.versions file
  messages : store.messages file = other.messages file
  current : store.current? file = other.current? file
  code : store.code file = other.code file
  listed : store.fileName file ∈ store.files ↔ other.fileName file ∈ other.files

theorem mem_files_iff {name : String} : name ∈ store.files ↔ (store.workspaces.get? name).isSome = true := by
  rw [files, (Text.sorted_perm _).mem_iff, Keyed.isSome_get?_iff]

theorem sameOn_of_get?_eq {other : Store} (hfile : store.defaultFile = other.defaultFile)
    (hcode : store.defaultCode = other.defaultCode)
    (h : store.workspaces.get? (store.fileName file) = other.workspaces.get? (store.fileName file)) :
    store.SameOn other file := by
  have hname : store.fileName file = other.fileName file := by simp only [fileName, hfile]
  have hworkspace : store.workspace? file = other.workspace? file := by
    rw [workspace?, workspace?, h, hname]
  refine ⟨?_, ?_, ?_, ?_, ?_⟩
  · rw [Store.versions, Store.versions, hworkspace]
  · rw [Store.messages, Store.messages, hworkspace]
  · rw [current?, current?, hworkspace]
  · rw [Store.code, Store.code, hworkspace, hcode]
  · rw [mem_files_iff, mem_files_iff, h, hname]

theorem get?_left_of_ne {mint : Mint} {call : Call} {target name : String}
    (htarget : call.target? store = some target) (hname : name ≠ target) :
    (store.left (store.effect mint call)).get? name = store.workspaces.get? name := by
  cases call with
  | reset => cases htarget
  | deleteFile other =>
      obtain rfl : other = target := by simpa [Call.target?] using htarget
      simp only [effect]
      split
      · simp [left, Keyed.get?_erase, hname]
      · rfl
  | addVersion file prompt plan code tree explanation =>
      obtain rfl : store.fileName file = target := by simpa [Call.target?] using htarget
      simp [effect, left, Keyed.get?_set, hname]
  | addMessage file speaker content =>
      obtain rfl : store.fileName file = target := by simpa [Call.target?] using htarget
      simp only [effect]
      split
      · rfl
      · simp [left, Keyed.get?_set, hname]
  | rollback file id =>
      obtain rfl : store.fileName file = target := by simpa [Call.target?] using htarget
      simp only [effect]
      split
      · rfl
      · simp [left, Keyed.get?_set, hname]

/-- A call on one file shows in no other. -/
theorem perform_sameOn (hopen : store.closed = false) (mint : Mint) {call : Call} {target : String}
    (htarget : call.target? store = some target) (hfile : store.fileName file ≠ target) :
    (store.perform mint call).1.SameOn store file := by
  rw [perform_eq hopen]
  have hname : (store.settle (store.effect mint call)).1.fileName file = store.fileName file := by
    simp only [fileName, settle_defaultFile]
  apply sameOn_of_get?_eq (settle_defaultFile) settle_defaultCode
  rw [settle_workspaces, hname]
  exact get?_left_of_ne htarget hfile

end Store

/-! ## Every sequence of calls -/

/-- A store shows of a file what the record of calls on a first store tells. -/
structure Store.Shows (store first : Store) (log : List Entry) (file : Option String) : Prop where
  versions : store.versions file = addedTo first (first.fileName file) log
  messages : store.messages file = saidAbout first (first.fileName file) log
  current : store.current? file = (visitedIn first (first.fileName file) log).getLast?
  code : store.code file = ((store.current? file).map Version.code).getD first.defaultCode
  unvisited : store.current? file = none ↔ store.versions file = []
  ofFile : ∀ version ∈ store.versions file, version.file = first.fileName file

theorem Store.Follows.shows {store first : Store} {log : List Entry} (h : store.Follows first log)
    (hids : ∀ name, ((addedTo first name log).map Version.id).Nodup) (file : Option String) :
    store.Shows first log file := by
  have hversions := h.versions_eq file
  have hcurrent := h.current_eq hids file
  refine ⟨hversions, h.messages_eq file, hcurrent, ?_, ?_, ?_⟩
  · rw [h.code_eq, hcurrent]
  · rw [hcurrent, hversions, List.getLast?_eq_none_iff]
    constructor
    · intro hvisited
      apply List.eq_nil_iff_forall_not_mem.2
      intro version hversion
      have hmem := mem_visitedIn hversion
      rw [hvisited] at hmem
      cases hmem
    · intro hadded
      apply List.eq_nil_iff_forall_not_mem.2
      intro version hversion
      have hmem := h.visited hversion
      rw [hadded] at hmem
      cases hmem
  · intro version hversion
    rw [hversions] at hversion
    exact file_of_mem_addedTo hversion

theorem Store.Follows.mem_files {store first : Store} {log : List Entry} (h : store.Follows first log)
    (name : String) :
    name ∈ store.files ↔ addedTo first name log ≠ [] ∨ saidAbout first name log ≠ [] := by
  rw [mem_files_iff, h.workspaces, remembered]
  split
  · next hnone => simp [hnone]
  · next hsome => simpa using Decidable.not_and_iff_or_not.1 hsome

/-- A mint whose records bear a number. -/
def numberedMint (number : Nat) : Mint where
  version _ := "ver_" ++ toString number
  message _ := "msg_" ++ toString number
  node _ := "node_" ++ toString number
  now := ⟨2026, 1, 2, 3, 4, 5, 0, some 0, by decide⟩

/-- Two versions, a way back, a third version, and a second file that is forgotten and begun again. -/
def sampleCalls : List (Mint × Call) :=
  let plan : Plan := { intent := "a page" }
  [(numberedMint 1, .addVersion none "p" plan "one" none ""),
    (numberedMint 2, .addVersion (some "App.tsx") "p" plan "two" none ""),
    (numberedMint 3, .rollback none "ver_1"),
    (numberedMint 4, .addVersion (some "") "p" plan "three" none ""),
    (numberedMint 5, .rollback none "ver_2"),
    (numberedMint 6, .addVersion (some "B.tsx") "p" plan "four" none ""),
    (numberedMint 7, .rollback (some "B.tsx") "ver_1"),
    (numberedMint 8, .deleteFile "B.tsx"),
    (numberedMint 9, .addMessage (some "B.tsx") "user" "again")]

end History

end ComponentBuilder
