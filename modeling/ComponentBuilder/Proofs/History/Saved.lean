import ComponentBuilder.History.Snapshot
import ComponentBuilder.Proofs.History.Timestamp
import ComponentBuilder.Proofs.Markup.StoredTree

/-!
# Saved records read back

Plans, messages, versions and workspaces read back from what they are stored as, and so do all workspaces
from a snapshot, whatever the mint.  A plan reads back when it keeps the rules for plans, as every plan that
passed the check for plans does.
-/

namespace ComponentBuilder

open Schema

namespace Text

theorem trimEnd_trimEnd (text : List Char) : trimEnd (trimEnd text) = trimEnd text := by
  rw [trimEnd, trimEnd, List.reverse_reverse, List.dropWhile_idempotent]

theorem trim_trim (text : List Char) : trim (trim text) = trim text := by
  obtain ⟨blanks, -, hsplit⟩ := exists_trimEnd_append_blanks (trimStart text)
  have hstops : Stops isBlank (trimStart text) := stops_dropWhile isBlank text
  have hfront : Stops isBlank (trim text) := by
    rw [hsplit] at hstops
    exact hstops.of_append
  rw [trim, trimStart_of_stops hfront]
  exact trimEnd_trimEnd (trimStart text)

theorem strip_strip (text : String) : strip (strip text) = strip text := by
  rw [strip, strip, String.toList_ofList, trim_trim]

end Text

namespace Plan

/--
The rules for plans: the intent has no blanks around it and is not empty, and the components belong to the
vocabulary.
-/
structure IsValid (plan : Plan) : Prop where
  intent : Text.strip plan.intent = plan.intent
  nonempty : plan.intent.isEmpty = false
  components : ∀ name ∈ plan.components, name ∈ Vocabulary.planComponents

theorem list_string (texts : List String) : list string (.arr (texts.map .str)) = .accepted texts :=
  listAt_map fun _ _ _ => rfl

/-- An intent that is not blank is accepted without the blanks around it. -/
theorem checkIntent_of_strip {intent : String} (h : (Text.strip intent).isEmpty = false) :
    checkIntent (.str intent) = .accepted (Text.strip intent) := by
  have hlength : ¬ intent.length < 1 := by
    intro hshort
    rw [String.length_eq_zero_iff.1 (Nat.lt_one_iff.1 hshort)] at h
    cases h
  simp only [checkIntent, sizedString, string, Checked.bind_accepted, Option.any_none, Bool.false_eq_true,
    if_false, hlength, h]

theorem checkIntent_of_isValid {plan : Plan} (h : plan.IsValid) :
    checkIntent (.str plan.intent) = .accepted plan.intent := by
  rw [checkIntent_of_strip (h.intent.symm ▸ h.nonempty), h.intent]

/-- Names of the vocabulary are accepted as components. -/
theorem checkComponents_of_mem {names : List String} (h : ∀ name ∈ names, name ∈ Vocabulary.planComponents) :
    checkComponents (.arr (names.map .str)) = .accepted names := by
  have hunknown : names.filter (!Vocabulary.planComponents.contains ·) = [] := by
    rw [List.filter_eq_nil_iff]
    intro name hname
    simpa using h name hname
  rw [checkComponents, list_string, Checked.bind_accepted, hunknown]
  rfl

/-- A stored plan reads back as the plan. -/
theorem ofJson_toJson {plan : Plan} (h : plan.IsValid) : ofJson plan.toJson = .accepted plan := by
  have hlayout : optional ["layoutStrategy", "layout_strategy"] "" string plan.toJson.fields =
      .accepted plan.layoutStrategy := rfl
  change ofFields plan.toJson.fields = _
  rw [ofFields, required_of_lookup rfl (checkIntent_of_isValid h), optional_of_lookup rfl (list_string plan.steps),
    optional_of_lookup rfl (checkComponents_of_mem h.components), hlayout,
    optional_of_lookup (a := plan.explanation) rfl rfl]
  rfl

theorem of_checkIntent {value : Json} {intent : String} (h : checkIntent value = .accepted intent) :
    Text.strip intent = intent ∧ intent.isEmpty = false := by
  obtain ⟨s, -, hs⟩ := Checked.bind_eq_accepted h
  dsimp only at hs
  split at hs
  · cases hs
  · next hne =>
      rw [Checked.accepted.injEq] at hs
      subst hs
      exact ⟨Text.strip_strip s, by simpa using hne⟩

theorem of_checkComponents {value : Json} {names : List String} (h : checkComponents value = .accepted names) :
    ∀ name ∈ names, name ∈ Vocabulary.planComponents := by
  obtain ⟨found, -, hfound⟩ := Checked.bind_eq_accepted h
  dsimp only at hfound
  split at hfound
  · next hempty =>
      rw [Checked.accepted.injEq] at hfound
      subst hfound
      intro name hname
      rw [List.isEmpty_iff, List.filter_eq_nil_iff] at hempty
      simpa using hempty name hname
  · cases hfound

/-- A plan that passed the check keeps the rules. -/
theorem isValid_of_ofJson {value : Json} {plan : Plan} (h : ofJson value = .accepted plan) : plan.IsValid := by
  cases value with
  | obj fields =>
      obtain ⟨_, _, hf, -, hf'⟩ := Checked.seq_eq_accepted h
      obtain ⟨_, _, hg, -, rfl⟩ := Checked.seq_eq_accepted hf
      obtain ⟨_, names, hk, hnames, rfl⟩ := Checked.seq_eq_accepted hg
      obtain ⟨_, _, hm, -, rfl⟩ := Checked.seq_eq_accepted hk
      obtain ⟨intent, hintent, rfl⟩ := Checked.map_eq_accepted hm
      subst hf'
      obtain ⟨_, hintent⟩ := of_required_accepted hintent
      obtain ⟨hstrip, hnonempty⟩ := of_checkIntent hintent
      refine ⟨hstrip, hnonempty, ?_⟩
      rcases of_optional_accepted hnames with ⟨_, hchecked⟩ | hdefault
      · exact of_checkComponents hchecked
      · subst hdefault
        intro name hname
        cases hname
  | _ => cases h

end Plan

namespace History

/-! ## Messages and versions -/

namespace Speaker

theorem ofJson_label (speaker : Speaker) : ofJson (.str speaker.label) = .accepted speaker := by
  cases speaker <;> rfl

end Speaker

theorem Timestamp.ofJson_text (t : Timestamp) : Timestamp.ofJson (.str t.text) = .accepted t :=
  Timestamp.ofText_text t

/-- A stored message reads back as the message. -/
theorem Message.ofJson_toJson (mint : Mint) (place : List Nat) (message : Message) :
    Message.ofJson mint place message.toJson = .accepted message := by
  rw [toJson, ofJson, record, optional_of_lookup (a := message.id) rfl rfl,
    required_of_lookup rfl message.speaker.ofJson_label, required_of_lookup (a := message.content) rfl rfl,
    optional_of_lookup rfl message.timestamp.ofJson_text]
  rfl

theorem nullable_tree (name : List Nat → String) (tree : Option Markup.Node) :
    nullable (Markup.Node.ofJson name) ((tree.map Markup.Node.toJson).getD .null) = .accepted tree := by
  cases tree with
  | none => rfl
  | some node =>
      rw [Option.map_some, Option.getD_some, node.toJson_eq_obj, nullable]
      · rw [← node.toJson_eq_obj, node.ofJson_toJson]
        rfl
      · intro hnull
        cases hnull

/-- A stored version whose plan keeps the rules reads back as the version. -/
theorem Version.ofJson_toJson (mint : Mint) (place : List Nat) {version : Version} (h : version.plan.IsValid) :
    Version.ofJson mint place version.toJson = .accepted version := by
  rw [toJson, ofJson, record, optional_of_lookup (a := version.id) rfl rfl,
    required_of_lookup (a := version.file) rfl rfl, required_of_lookup (a := version.prompt) rfl rfl,
    required_of_lookup rfl (Plan.ofJson_toJson h), required_of_lookup (a := version.code) rfl rfl,
    optional_of_lookup rfl (nullable_tree _ version.tree),
    optional_of_lookup (a := version.explanation) rfl rfl,
    optional_of_lookup rfl version.timestamp.ofJson_text]
  rfl

theorem Version.isValid_of_ofJson {mint : Mint} {place : List Nat} {value : Json} {version : Version}
    (h : Version.ofJson mint place value = .accepted version) : version.plan.IsValid := by
  cases value with
  | obj fields =>
      obtain ⟨_, _, h₁, -, rfl⟩ := Checked.seq_eq_accepted h
      obtain ⟨_, _, h₂, -, rfl⟩ := Checked.seq_eq_accepted h₁
      obtain ⟨_, _, h₃, -, rfl⟩ := Checked.seq_eq_accepted h₂
      obtain ⟨_, _, h₄, -, rfl⟩ := Checked.seq_eq_accepted h₃
      obtain ⟨_, plan, h₅, hplan, rfl⟩ := Checked.seq_eq_accepted h₄
      obtain ⟨_, _, h₆, -, rfl⟩ := Checked.seq_eq_accepted h₅
      obtain ⟨_, _, h₇, -, rfl⟩ := Checked.seq_eq_accepted h₆
      obtain ⟨_, -, rfl⟩ := Checked.map_eq_accepted h₇
      obtain ⟨_, hchecked⟩ := of_required_accepted hplan
      exact Plan.isValid_of_ofJson hchecked
  | _ => cases h

/-! ## Workspaces -/

namespace Workspace

/-- A workspace whose plans all keep the rules. -/
def IsValid (workspace : Workspace) : Prop :=
  ∀ version ∈ workspace.versions, version.plan.IsValid

theorem nullable_cursor (cursor : Option String) :
    nullable string ((cursor.map Json.str).getD .null) = .accepted cursor := by
  cases cursor <;> rfl

/-- A stored workspace reads back as the workspace. -/
theorem ofJson_toJson (mint : Mint) (place : List Nat) {workspace : Workspace} (h : workspace.IsValid) :
    Workspace.ofJson mint place workspace.toJson = .accepted workspace := by
  have hmessages : listAt (fun n => Message.ofJson mint (place ++ [n]))
      (.arr (workspace.messages.map Message.toJson)) = .accepted workspace.messages :=
    listAt_map fun message _ number => message.ofJson_toJson mint (place ++ [number])
  have hversions : listAt (fun n => Version.ofJson mint (place ++ [n]))
      (.arr (workspace.versions.map Version.toJson)) = .accepted workspace.versions :=
    listAt_map fun version hversion number => Version.ofJson_toJson mint (place ++ [number]) (h version hversion)
  rw [toJson, ofJson, record, required_of_lookup (a := workspace.name) rfl rfl, optional_of_lookup rfl hmessages,
    optional_of_lookup rfl hversions, optional_of_lookup rfl (nullable_cursor workspace.cursor),
    required_of_lookup (a := workspace.code) rfl rfl]
  rfl

theorem isValid_of_ofJson {mint : Mint} {place : List Nat} {value : Json} {workspace : Workspace}
    (h : Workspace.ofJson mint place value = .accepted workspace) : workspace.IsValid := by
  cases value with
  | obj fields =>
      obtain ⟨_, _, h₁, -, rfl⟩ := Checked.seq_eq_accepted h
      obtain ⟨_, _, h₂, -, rfl⟩ := Checked.seq_eq_accepted h₁
      obtain ⟨_, versions, h₃, hversions, rfl⟩ := Checked.seq_eq_accepted h₂
      obtain ⟨_, _, h₄, -, rfl⟩ := Checked.seq_eq_accepted h₃
      obtain ⟨_, -, rfl⟩ := Checked.map_eq_accepted h₄
      intro version hversion
      rcases of_optional_accepted hversions with ⟨_, hchecked⟩ | hdefault
      · obtain ⟨_, _, hversion⟩ := of_listAt_accepted hchecked version hversion
        exact Version.isValid_of_ofJson hversion
      · subst hdefault
        cases hversion
  | _ => cases h

end Workspace

/-! ## Snapshots -/

/-- Workspaces that are kept under their names and whose plans all keep the rules. -/
structure Workspaces.Sound (workspaces : Workspaces) : Prop where
  name : ∀ entry ∈ workspaces.entries, entry.2.name = entry.1
  valid : ∀ entry ∈ workspaces.entries, entry.2.IsValid

theorem workspacesFrom_toJson (mint : Mint) {entries : List (String × Workspace)}
    (hname : ∀ entry ∈ entries, entry.2.name = entry.1) (hvalid : ∀ entry ∈ entries, entry.2.IsValid)
    (number : Nat) (found : Workspaces) :
    workspacesFrom mint number found ((entries.map Prod.snd).map Workspace.toJson) =
      .ok (entries.foldl (fun found entry => found.set entry.1 entry.2) found) := by
  induction entries generalizing number found with
  | nil => rfl
  | cons entry rest ih =>
      have hread := Workspace.ofJson_toJson mint [number] (hvalid entry List.mem_cons_self)
      simp only [List.map_cons, workspacesFrom, hread, hname entry List.mem_cons_self]
      exact ih (fun other hother => hname other (List.mem_cons_of_mem entry hother))
        (fun other hother => hvalid other (List.mem_cons_of_mem entry hother)) (number + 1) _

/-- The workspaces of a snapshot are the ones that it was made of, whatever the mint. -/
theorem readSnapshot_snapshot (mint : Mint) {workspaces : Workspaces} (h : workspaces.Sound) :
    readSnapshot mint (snapshot workspaces) = .ok workspaces := by
  have hread := workspacesFrom_toJson mint h.name h.valid 0 .empty
  have hstored : storedWorkspaces (snapshot workspaces) = .ok (workspaces.values.map Workspace.toJson) := rfl
  rw [readSnapshot, hstored]
  exact hread.trans (congrArg Except.ok workspaces.ofList_entries)

namespace Workspaces.Sound

variable {workspaces : Workspaces}

theorem empty : Workspaces.Sound .empty := by
  constructor
  · intro entry hentry
    cases hentry
  · intro entry hentry
    cases hentry

theorem set (h : workspaces.Sound) {workspace : Workspace} (hvalid : workspace.IsValid) :
    Workspaces.Sound (Keyed.set workspaces workspace.name workspace) := by
  constructor
  · intro entry hentry
    rcases Keyed.mem_entries_set hentry with rfl | hold
    · rfl
    · exact h.name entry hold
  · intro entry hentry
    rcases Keyed.mem_entries_set hentry with rfl | hold
    · exact hvalid
    · exact h.valid entry hold

theorem erase (h : workspaces.Sound) (name : String) : Workspaces.Sound (Keyed.erase workspaces name) := by
  constructor
  · intro entry hentry
    exact h.name entry (List.mem_filter.1 hentry).1
  · intro entry hentry
    exact h.valid entry (List.mem_filter.1 hentry).1

end Workspaces.Sound

/-- What was read from a document is sound. -/
theorem sound_workspacesFrom {mint : Mint} {number : Nat} {found workspaces : Workspaces} {values : List Json}
    (hfound : found.Sound) (h : workspacesFrom mint number found values = .ok workspaces) :
    workspaces.Sound := by
  induction values generalizing number found with
  | nil =>
      cases h
      exact hfound
  | cons value rest ih =>
      rw [workspacesFrom] at h
      split at h
      · next workspace hworkspace =>
          exact ih (hfound.set (Workspace.isValid_of_ofJson hworkspace)) h
      · cases h

theorem sound_readSnapshot {mint : Mint} {document : Json} {workspaces : Workspaces}
    (h : readSnapshot mint document = .ok workspaces) : workspaces.Sound := by
  unfold readSnapshot at h
  cases hstored : storedWorkspaces document with
  | ok values =>
      rw [hstored] at h
      exact sound_workspacesFrom .empty h
  | error fault =>
      rw [hstored] at h
      cases h

end History

end ComponentBuilder
