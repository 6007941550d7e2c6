import ComponentBuilder.Proofs.History.Observation
import ComponentBuilder.Proofs.History.Saved

/-!
# Restarts

A store that is kept can be begun again at any point: what its shelf holds loads as the workspaces that it
has, whatever the mint of the loading.  Every change saves all workspaces, and a saved snapshot reads back.
What was loaded first and never saved since loads alike only when it names every identifier and time.
-/

namespace ComponentBuilder.History

open Markup

/-! ## Snapshots as texts -/

section Legible

open Json

theorem legibleItems_map {α : Type} {toJson : α → Json} (h : ∀ a, (toJson a).Legible) (records : List α) :
    LegibleItems (records.map toJson) := by
  apply legibleItems_of_forall
  intro item hitem
  obtain ⟨a, -, rfl⟩ := List.mem_map.1 hitem
  exact h a

theorem legible_strings (texts : List String) : (Json.arr (texts.map .str)).Legible :=
  @legibleItems_map _ Json.str (fun _ => trivial) texts

theorem legible_plan (plan : Plan) : plan.toJson.Legible := by
  have hnames : ["intent", "steps", "components", "layout_strategy", "explanation"].Nodup := by decide
  exact ⟨hnames, trivial, legible_strings plan.steps, legible_strings plan.components, trivial, trivial, trivial⟩

theorem legible_message (message : Message) : message.toJson.Legible := by
  have hnames : ["id", "role", "content", "timestamp"].Nodup := by decide
  exact ⟨hnames, trivial, trivial, trivial, trivial, trivial⟩

theorem legible_tree (tree : Option Node) : ((tree.map Node.toJson).getD .null).Legible := by
  cases tree with
  | none => trivial
  | some node => exact node.legible_toJson

theorem legible_version (version : Version) : version.toJson.Legible := by
  have hnames : ["id", "file", "prompt", "plan", "code", "tree", "explanation", "timestamp"].Nodup := by decide
  exact ⟨hnames, trivial, trivial, trivial, legible_plan version.plan, trivial, legible_tree version.tree, trivial,
    trivial, trivial⟩

theorem legible_cursor (cursor : Option String) : ((cursor.map Json.str).getD .null).Legible := by
  cases cursor <;> trivial

theorem legible_workspace (workspace : Workspace) : workspace.toJson.Legible := by
  have hnames : ["name", "messages", "versions", "cursor", "code"].Nodup := by decide
  have hmessages := legibleItems_map legible_message workspace.messages
  have hversions := legibleItems_map legible_version workspace.versions
  exact ⟨hnames, trivial, hmessages, hversions, legible_cursor workspace.cursor, trivial, trivial⟩

theorem legible_snapshot (workspaces : Workspaces) : (snapshot workspaces).Legible := by
  have hnames : ["format", "files"].Nodup := by decide
  have hfiles := legibleItems_map legible_workspace workspaces.values
  exact ⟨hnames, trivial, hfiles, trivial⟩

end Legible

/-! ## What a shelf gives back -/

/-- What loading makes of a shelf. -/
def Shelf.workspaces (shelf : Shelf) (mint : Mint) : Except LoadFault Workspaces :=
  shelf.read.bind fun document => readSnapshot mint (document.getD .null)

theorem Shelf.read_document {shelf : Shelf} {text : String} {fields : List (String × Json)}
    (hfile : shelf.file = .document text)
    (hread : Json.read? Json.storedLimits text.toList = some (.obj fields)) :
    shelf.read = .ok (some (.obj fields)) := by
  simp only [read, hfile, hread]

/-- A saved document is in the place of the file. -/
theorem Shelf.file_save {shelf : Shelf} {document : Json} (hsaved : (shelf.save document).2 = .ok ()) :
    ∃ text, document.print .indented = .ok text ∧ (shelf.save document).1.file = .document text := by
  unfold save at hsaved ⊢
  cases hprint : document.print .indented with
  | error fault => simp [hprint] at hsaved
  | ok text =>
      simp only [hprint] at hsaved ⊢
      refine ⟨text, rfl, ?_⟩
      cases hfile : shelf.file with
      | directory => simp [hfile] at hsaved
      | missing => rfl
      | document old => rfl

/-- A shelf on which a snapshot was saved gives the workspaces back. -/
theorem Shelf.workspaces_save {shelf : Shelf} {workspaces : Workspaces} (hsound : workspaces.Sound)
    (hsaved : (shelf.save (snapshot workspaces)).2 = .ok ()) (mint : Mint) :
    (shelf.save (snapshot workspaces)).1.workspaces mint = .ok workspaces := by
  obtain ⟨text, hprint, hfile⟩ := Shelf.file_save hsaved
  rw [Shelf.workspaces, Shelf.read_document hfile (Json.read?_print (legible_snapshot workspaces) hprint)]
  exact readSnapshot_snapshot mint hsound

/-- A store whose shelf gives its workspaces back, whatever the mint. -/
def Store.Reloads (store : Store) : Prop :=
  ∃ shelf, store.shelf = some shelf ∧ ∀ mint, shelf.workspaces mint = .ok store.workspaces

namespace Store

variable {store : Store}

theorem save_shelf (h : store.shelf.isSome = true) : store.save.1.shelf.isSome = true := by
  obtain ⟨shelf, hshelf⟩ := Option.isSome_iff_exists.1 h
  simp [save, hshelf]

theorem save_reloads (hshelf : store.shelf.isSome = true) (hsound : store.workspaces.Sound)
    (hsaved : store.save.2 = .ok ()) : store.save.1.Reloads := by
  obtain ⟨shelf, hshelf⟩ := Option.isSome_iff_exists.1 hshelf
  have hworkspaces := save_workspaces store
  unfold save at hsaved hworkspaces ⊢
  simp only [hshelf] at hsaved hworkspaces ⊢
  refine ⟨_, rfl, fun mint => ?_⟩
  apply Shelf.workspaces_save hsound
  cases hresult : (shelf.save store.snapshot).2 with
  | ok _ => exact hresult
  | error fault => exact absurd ((congrArg (Except.mapError StoreFault.unsaved) hresult).symm.trans hsaved) nofun

/-! ## What a call keeps -/

/-- The plan of a version that a call adds keeps the rules for plans. -/
def HasValidPlan : Call → Prop
  | .addVersion _ _ plan _ _ _ => plan.IsValid
  | _ => True

/-- Whether an answer tells of a change. -/
def changed : Except StoreFault Answer → Bool
  | .ok (.removed found) => found
  | .ok _ => true
  | .error _ => false

theorem name_opened (h : store.workspaces.Sound) (name : String) : (store.opened name).name = name := by
  unfold opened
  cases hfound : store.workspaces.get? name with
  | none => rfl
  | some workspace => exact h.name _ (Keyed.mem_of_get? hfound)

theorem isValid_opened (h : store.workspaces.Sound) (name : String) : (store.opened name).IsValid := by
  unfold opened
  cases hfound : store.workspaces.get? name with
  | none =>
      intro version hversion
      cases hversion
  | some workspace => exact h.valid _ (Keyed.mem_of_get? hfound)

theorem sound_set_opened (h : store.workspaces.Sound) {name : String} (change : Workspace → Workspace)
    (hkeeps : ∀ workspace, (change workspace).name = workspace.name)
    (hvalid : (change (store.opened name)).IsValid) :
    Workspaces.Sound (store.workspaces.set name (change (store.opened name))) := by
  have hname := hkeeps (store.opened name)
  rw [name_opened h] at hname
  generalize change (store.opened name) = workspace at hname hvalid ⊢
  subst hname
  exact h.set hvalid

/-- What a call leaves is sound. -/
theorem sound_left (h : store.workspaces.Sound) (mint : Mint) {call : Call} (hplan : HasValidPlan call) :
    Workspaces.Sound (store.left (store.effect mint call)) := by
  cases call with
  | addVersion file prompt plan code tree explanation =>
      refine sound_set_opened h (·.append _) (fun _ => rfl) ?_
      intro version hversion
      rw [Workspace.versions_append, List.mem_append] at hversion
      rcases hversion with hold | hnew
      · exact isValid_opened h _ version hold
      · rw [List.mem_singleton.1 hnew]
        exact hplan
  | addMessage file speaker content =>
      simp only [effect]
      split
      · exact h
      · exact sound_set_opened h (·.say _) (fun _ => rfl) (isValid_opened h _)
  | rollback file id =>
      simp only [effect]
      split
      · exact h
      · exact sound_set_opened h (·.moveTo _) (fun _ => rfl) (isValid_opened h _)
  | deleteFile name =>
      simp only [effect]
      split
      · exact h.erase name
      · exact h
  | reset => exact .empty

theorem not_changed_of_effect {mint : Mint} {call : Call} {answer : Answer}
    (h : store.effect mint call = .ok (answer, none)) : changed (.ok answer) = false := by
  cases call with
  | addVersion file prompt plan code tree explanation => simp [effect] at h
  | addMessage file speaker content =>
      simp only [effect] at h
      split at h <;> simp at h
  | rollback file id =>
      simp only [effect] at h
      split at h <;> simp at h
  | deleteFile name =>
      simp only [effect] at h
      split at h
      · simp at h
      · obtain rfl : Answer.removed false = answer := by simpa using h
        rfl
  | reset => simp [effect] at h

/-- What every saved call keeps of a store. -/
structure Kept (store : Store) : Prop where
  opened : store.closed = false
  shelved : store.shelf.isSome = true
  sound : store.workspaces.Sound

namespace Kept

/-- A saved call keeps the store, and its shelf is up to date if it was before or the call changed anything. -/
theorem perform (h : store.Kept) (mint : Mint) {call : Call} (hplan : HasValidPlan call)
    (hsaved : ∀ fault, (store.perform mint call).2 ≠ .error (.unsaved fault)) :
    (store.perform mint call).1.Kept ∧
      (store.Reloads ∨ changed (store.perform mint call).2 = true → (store.perform mint call).1.Reloads) := by
  have hsound := sound_left h.sound mint hplan
  rw [perform_eq h.opened] at hsaved ⊢
  cases heffect : store.effect mint call with
  | error fault =>
      rw [settle]
      exact ⟨h, fun hreloads => hreloads.resolve_right (by simp [changed])⟩
  | ok outcome =>
      obtain ⟨answer, left⟩ := outcome
      cases left with
      | none =>
          rw [settle]
          exact ⟨h, fun hreloads => hreloads.resolve_right (by simp [not_changed_of_effect heffect])⟩
      | some workspaces =>
          rw [heffect] at hsaved hsound
          have hcommit : (store.commit workspaces).2 = .ok () := by
            rcases store.commit_result workspaces with hok | ⟨fault, hfailed⟩
            · exact hok
            · exact absurd (by simp only [settle, hfailed, Except.map]) (hsaved fault)
          refine ⟨⟨?_, ?_, ?_⟩, fun _ => ?_⟩
          · exact settle_closed.trans h.opened
          · exact save_shelf h.shelved
          · rw [settle_workspaces]
            exact hsound
          · exact save_reloads h.shelved hsound hcommit

/-- So does a sequence of saved calls. -/
theorem run (h : store.Kept) (calls : List (Mint × Call)) (hplans : ∀ step ∈ calls, HasValidPlan step.2)
    (hsaved : ∀ entry ∈ (store.run calls).2, entry.isSaved = true) :
    (store.run calls).1.Kept ∧
      (store.Reloads ∨ (∃ entry ∈ (store.run calls).2, changed entry.answer = true) →
        (store.run calls).1.Reloads) := by
  induction calls generalizing store with
  | nil => exact ⟨h, fun hreloads => hreloads.resolve_right (by simp [Store.run])⟩
  | cons step calls ih =>
      obtain ⟨mint, call⟩ := step
      rw [Store.run_cons] at hsaved ⊢
      obtain ⟨hkept, hreload⟩ := h.perform mint (hplans _ List.mem_cons_self)
        (Entry.ne_of_isSaved (hsaved _ List.mem_cons_self))
      obtain ⟨hlast, hreloads⟩ := ih hkept (fun step hstep => hplans step (List.mem_cons_of_mem _ hstep))
        fun entry hentry => hsaved entry (List.mem_cons_of_mem _ hentry)
      refine ⟨hlast, fun hchanged => hreloads ?_⟩
      rcases hchanged with hbefore | ⟨entry, hentry, hchange⟩
      · exact .inl (hreload (.inl hbefore))
      · rcases List.mem_cons.1 hentry with rfl | hrest
        · exact .inl (hreload (.inr hchange))
        · exact .inr ⟨entry, hrest, hchange⟩

end Kept

end Store

/-! ## Documents that leave nothing to the mint -/

section Complete

open Schema

/-- A stored message that names its identifier and its time. -/
def MessageComplete (value : Json) : Prop :=
  (value.field? "id").isSome = true ∧ (value.field? "timestamp").isSome = true

/-- A stored version that names its identifier and its time, with a tree that names every element. -/
def VersionComplete (value : Json) : Prop :=
  (value.field? "id").isSome = true ∧ (value.field? "timestamp").isSome = true ∧
    ∀ tree, value.field? "tree" = some tree → NamesElements tree

/-- A stored workspace whose messages and versions are complete. -/
def WorkspaceComplete (value : Json) : Prop :=
  (∀ messages, value.field? "messages" = some messages → ∀ item ∈ messages.items, MessageComplete item) ∧
    ∀ versions, value.field? "versions" = some versions → ∀ item ∈ versions.items, VersionComplete item

/-- A document whose workspaces are complete. -/
def DocumentComplete (document : Json) : Prop :=
  ∀ values, storedWorkspaces document = .ok values → ∀ value ∈ values, WorkspaceComplete value

variable {mint other : Mint} {place : List Nat} {value : Json}

variable (mint other place)

theorem Message.ofJson_complete (h : MessageComplete value) :
    Message.ofJson mint place value = Message.ofJson other place value := by
  refine record_congr fun fields hvalue => ?_
  subst hvalue
  rw [optional_default (other.message place) h.1, optional_default other.now h.2]

theorem Version.ofJson_complete (h : VersionComplete value) :
    Version.ofJson mint place value = Version.ofJson other place value := by
  refine record_congr fun fields hvalue => ?_
  subst hvalue
  rw [optional_default (other.version place) h.1, optional_default other.now h.2.1,
    optional_congr fun tree htree => nullable_congr (Node.ofJson_named (h.2.2 tree htree))]

theorem Workspace.ofJson_complete (h : WorkspaceComplete value) :
    Workspace.ofJson mint place value = Workspace.ofJson other place value := by
  refine record_congr fun fields hvalue => ?_
  subst hvalue
  rw [optional_congr fun messages hmessages => listAt_congr fun item hitem number =>
      Message.ofJson_complete mint other (place ++ [number]) (h.1 messages hmessages item hitem),
    optional_congr fun versions hversions => listAt_congr fun item hitem number =>
      Version.ofJson_complete mint other (place ++ [number]) (h.2 versions hversions item hitem)]

theorem workspacesFrom_complete {values : List Json} (h : ∀ value ∈ values, WorkspaceComplete value)
    (number : Nat) (found : Workspaces) :
    workspacesFrom mint number found values = workspacesFrom other number found values := by
  induction values generalizing number found with
  | nil => rfl
  | cons value rest ih =>
      have hrest := ih fun value hvalue => h value (List.mem_cons_of_mem _ hvalue)
      simp only [workspacesFrom, Workspace.ofJson_complete mint other [number] (h value List.mem_cons_self), hrest]

/-- A complete document is read alike by every mint. -/
theorem readSnapshot_complete {document : Json} (h : DocumentComplete document) :
    readSnapshot mint document = readSnapshot other document := by
  unfold readSnapshot
  cases hvalues : storedWorkspaces document with
  | ok values =>
      simp only [Except.bind]
      exact workspacesFrom_complete mint other (h values hvalues) 0 .empty
  | error fault => simp only [Except.bind]

/-- A shelf whose document, if there is one, is complete. -/
def Shelf.IsComplete (shelf : Shelf) : Prop :=
  ∀ document, shelf.read = .ok (some document) → DocumentComplete document

theorem Shelf.workspaces_complete {shelf : Shelf} (h : shelf.IsComplete) :
    shelf.workspaces mint = shelf.workspaces other := by
  unfold Shelf.workspaces
  cases hread : shelf.read with
  | error fault => simp only [Except.bind]
  | ok found =>
      cases found with
      | none =>
          have hnothing : ∀ mint, readSnapshot mint .null = .ok .empty := fun _ => rfl
          simp only [Except.bind, Option.getD_none, hnothing]
      | some document =>
          simp only [Except.bind]
          exact readSnapshot_complete mint other (h document hread)

end Complete

/-! ## Restarts -/

namespace Store

variable {store : Store} {shelf : Shelf}

theorem load_eq (hshelf : store.shelf = some shelf) (mint : Mint) :
    store.load mint none = match shelf.workspaces mint with
      | .ok workspaces => ({ store with workspaces := workspaces }, .ok ())
      | .error fault => (store, .error fault) := by
  cases store
  cases hshelf
  rfl

theorem kept_load (hopen : store.closed = false) (hshelf : store.shelf = some shelf) {mint : Mint}
    (hload : (store.load mint none).2 = .ok ()) : (store.load mint none).1.Kept := by
  rw [load_eq hshelf] at hload ⊢
  cases hworkspaces : shelf.workspaces mint with
  | error fault => simp [hworkspaces] at hload
  | ok workspaces =>
      refine ⟨hopen, by simp [hshelf], ?_⟩
      unfold Shelf.workspaces at hworkspaces
      cases hread : shelf.read with
      | error fault =>
          rw [hread] at hworkspaces
          cases hworkspaces
      | ok document =>
          rw [hread] at hworkspaces
          exact sound_readSnapshot hworkspaces

theorem reloads_load (hshelf : store.shelf = some shelf) {mint : Mint} (hcomplete : shelf.IsComplete)
    (hload : (store.load mint none).2 = .ok ()) : (store.load mint none).1.Reloads := by
  rw [load_eq hshelf] at hload ⊢
  cases hworkspaces : shelf.workspaces mint with
  | error fault => simp [hworkspaces] at hload
  | ok workspaces =>
      refine ⟨shelf, hshelf, fun other => ?_⟩
      rw [Shelf.workspaces_complete other mint hcomplete]
      exact hworkspaces

end Store

/--
A store that loaded what its shelf held, and whose changes were all saved since, can be begun again on the same
shelf: loading succeeds with any mint, and gives the same workspaces, files and snapshot, and every file shows
the same.  The snapshot that was loaded first has to name every identifier and time, unless something changed
since.
-/
theorem restart_loses_nothing (store : Store) (shelf : Shelf) (hopen : store.closed = false)
    (hshelf : store.shelf = some shelf) (mint : Mint) (hload : (store.load mint none).2 = .ok ())
    (calls : List (Mint × Call)) (hplans : ∀ step ∈ calls, Store.HasValidPlan step.2)
    (hsaved : ∀ entry ∈ ((store.load mint none).1.run calls).2, entry.isSaved = true)
    (hnamed : shelf.IsComplete ∨
      ∃ entry ∈ ((store.load mint none).1.run calls).2, Store.changed entry.answer = true) :
    let last := ((store.load mint none).1.run calls).1
    ∀ fresh : Store, fresh.shelf = last.shelf → fresh.defaultFile = last.defaultFile →
      fresh.defaultCode = last.defaultCode → ∀ mint',
        let again := fresh.load mint' none
        again.2 = .ok () ∧ again.1.workspaces = last.workspaces ∧ again.1.snapshot = last.snapshot ∧
          again.1.files = last.files ∧ ∀ file, again.1.SameOn last file := by
  intro last fresh hfresh hfile hcode mint' again
  obtain ⟨-, hreloads⟩ := (Store.kept_load hopen hshelf hload).run calls hplans hsaved
  obtain ⟨kept, hkept, hworkspaces⟩ := hreloads (hnamed.imp_left fun h => Store.reloads_load hshelf h hload)
  have hagain : again = ({ fresh with workspaces := last.workspaces }, .ok ()) := by
    have hload := Store.load_eq (hfresh.trans hkept) mint'
    rw [hworkspaces mint'] at hload
    exact hload
  rw [hagain]
  refine ⟨rfl, rfl, rfl, rfl, fun file => ?_⟩
  have hstore : ({ fresh with workspaces := last.workspaces } : Store).SameOn last file :=
    Store.sameOn_of_get?_eq hfile hcode rfl
  exact hstore

/-- An element with an attribute of each kind, in an order that is not that of the names. -/
def sampleTree : Node :=
  .mk "node_a" "Card"
    (Keyed.ofList [("open", .flag true), ("title", .text "a \"b\""), ("items", .expression "\x7b[1]\x7d"),
      ("bare", .flag false)])
    [.text "Hello ", .element (.mk "node_b" "br" .empty []), .text "\x7bname\x7d"]

/-- A question, two versions, a way back, and a second file that is forgotten. -/
def sampleEdits : List (Mint × Call) :=
  let plan : Plan := { intent := "a page", components := ["Card"] }
  [(numberedMint 1, .addMessage none "user" "a page, please"),
    (numberedMint 2, .addVersion none "p" plan "one" (some sampleTree) "first"),
    (numberedMint 3, .addVersion (some "App.tsx") "p" plan "two" none ""),
    (numberedMint 4, .rollback none "ver_2"),
    (numberedMint 5, .addMessage (some "B.tsx") "assistant" "again"),
    (numberedMint 6, .deleteFile "B.tsx")]

theorem restart_loses_nothing_sample :
    let store : Store := { shelf := some { path := "state.json" } }
    let last := ((store.load (numberedMint 0) none).1.run sampleEdits).1
    let fresh : Store := { shelf := last.shelf }
    let again := fresh.load (numberedMint 7) none
    again.2 = .ok () ∧ again.1.snapshot = last.snapshot ∧ again.1.SameOn last none ∧
      again.1.code none = "one" ∧ (last.versions none).map Version.id = ["ver_2", "ver_3"] := by
  intro store last fresh again
  have hplans : ∀ step ∈ sampleEdits, Store.HasValidPlan step.2 := by
    intro step hstep
    simp only [sampleEdits, List.mem_cons, List.not_mem_nil, or_false] at hstep
    rcases hstep with rfl | rfl | rfl | rfl | rfl | rfl
    case inr.inl => exact ⟨by decide, by decide, by decide⟩
    case inr.inr.inl => exact ⟨by decide, by decide, by decide⟩
    all_goals exact True.intro
  have hsaved : ∀ entry ∈ ((store.load (numberedMint 0) none).1.run sampleEdits).2, entry.isSaved = true := by
    decide +kernel
  have hnamed : Shelf.IsComplete { path := "state.json" } := fun document hread => nomatch hread
  have hloaded : (store.load (numberedMint 0) none).2 = .ok () := by decide +kernel
  have hfile : "App.tsx" = last.defaultFile := by decide +kernel
  have hcode : starterCode = last.defaultCode := by decide +kernel
  have hone : last.code none = "one" := by decide +kernel
  have hids : (last.versions none).map Version.id = ["ver_2", "ver_3"] := by decide +kernel
  -- The shelf is generalized, for else the checker compares two stores by running both.
  suffices hrestart : ∀ shelf, shelf = last.shelf →
      let again := ({ shelf := shelf } : Store).load (numberedMint 7) none
      again.2 = .ok () ∧ again.1.snapshot = last.snapshot ∧ again.1.SameOn last none ∧
        again.1.code none = "one" ∧ (last.versions none).map Version.id = ["ver_2", "ver_3"] by
    exact hrestart last.shelf rfl
  intro shelf hshelf again
  obtain ⟨hagain, -, hsnapshot, -, hsame⟩ := restart_loses_nothing store { path := "state.json" } rfl rfl
    (numberedMint 0) hloaded sampleEdits hplans hsaved (.inl hnamed) { shelf := shelf } hshelf hfile hcode
    (numberedMint 7)
  exact ⟨hagain, hsnapshot, hsame none, (hsame none).code.trans hone, hids⟩

/-- A snapshot with a message that has a time and no identifier. -/
def unnamedDocument : String :=
  "\x7b\"files\":[\x7b\"name\":\"a.tsx\",\"code\":\"x\",\"messages\":[\x7b\"role\":\"user\",\"content\":\"hi\"," ++
    "\"timestamp\":\"2024-01-02T03:04:05Z\"\x7d]\x7d]\x7d"

/-- An identifier that loading makes is not kept until something changes. -/
theorem restart_mints_again :
    let store : Store := { shelf := some { path := "state.json", file := .document unnamedDocument } }
    let loaded := store.load (numberedMint 1) none
    let last := loaded.1.run [(numberedMint 2, .deleteFile "b.tsx")]
    let again := ({ store with shelf := last.1.shelf } : Store).load (numberedMint 3) none
    loaded.2 = .ok () ∧ (∀ entry ∈ last.2, entry.isSaved = true) ∧ again.2 = .ok () ∧
      (last.1.messages (some "a.tsx")).map Message.id = ["msg_1"] ∧
      (again.1.messages (some "a.tsx")).map Message.id = ["msg_3"] := by
  decide +kernel

end ComponentBuilder.History
