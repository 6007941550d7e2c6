import ComponentBuilder.History.Call
import Mathlib.Data.List.DropRight

/-!
# The history that a record of calls tells

What a file should hold is read off the record alone: of the entries since the file was last forgotten,
those that added a version to it, those that said something about it, and those that went to one of its
versions.
-/

namespace ComponentBuilder.History

open Markup

namespace Entry

/-- Whether a call forgot a file, alone or with all others. -/
def forgets (name : String) (entry : Entry) : Bool :=
  match entry.call with
  | .deleteFile other => other == name
  | .reset => true
  | _ => false

/-- The version that a call added to a file. -/
def added? (store : Store) (name : String) : Entry → Option Version
  | ⟨mint, .addVersion file prompt plan code tree explanation, .ok _⟩ =>
      if store.fileName file = name then
        some ⟨mint.version [], name, prompt, plan, code, tree, explanation, mint.now⟩
      else none
  | _ => none

/-- The message that a call added to the conversation about a file. -/
def said? (store : Store) (name : String) : Entry → Option Message
  | ⟨mint, .addMessage file speaker content, .ok _⟩ =>
      if store.fileName file = name then
        (Speaker.ofLabel? speaker).map (⟨mint.message [], ·, content, mint.now⟩)
      else none
  | _ => none

/-- The version of a file that a call went to, by adding it or by going back to it. -/
def visited? (store : Store) (name : String) : Entry → Option Version
  | ⟨mint, .addVersion file prompt plan code tree explanation, .ok answer⟩ =>
      added? store name ⟨mint, .addVersion file prompt plan code tree explanation, .ok answer⟩
  | ⟨_, .rollback file _, .ok (.version version)⟩ =>
      if store.fileName file = name then some version else none
  | _ => none

end Entry

/-- The entries since a file was last forgotten. -/
def recent (name : String) (log : List Entry) : List Entry :=
  log.rtakeWhile fun entry => !entry.forgets name

/-- The versions added to a file since it was last forgotten. -/
def addedTo (store : Store) (name : String) (log : List Entry) : List Version :=
  (recent name log).filterMap (Entry.added? store name)

/-- The messages about a file since it was last forgotten. -/
def saidAbout (store : Store) (name : String) (log : List Entry) : List Message :=
  (recent name log).filterMap (Entry.said? store name)

/-- The versions that were gone to in a file since it was last forgotten, the last one being current. -/
def visitedIn (store : Store) (name : String) (log : List Entry) : List Version :=
  (recent name log).filterMap (Entry.visited? store name)

/-- The identifier that is made for the version of a call, if it adds one. -/
def mintedId? : Mint × Call → Option String
  | (mint, .addVersion _ _ _ _ _ _) => some (mint.version [])
  | _ => none

/-- The identifiers made for versions in a sequence of calls. -/
def mintedIds (calls : List (Mint × Call)) : List String :=
  calls.filterMap mintedId?

/-! ## One more entry -/

section Append

variable {store : Store} {name : String} {log : List Entry} {entry : Entry}

theorem recent_concat : recent name (log ++ [entry]) =
    if entry.forgets name then [] else recent name log ++ [entry] := by
  unfold recent
  cases h : entry.forgets name with
  | true => simp [h]
  | false => simp [h]

theorem recent_concat_of_forgets (h : entry.forgets name = true) : recent name (log ++ [entry]) = [] := by
  rw [recent_concat, if_pos h]

theorem filterMap_recent_concat {α : Type} (f : Entry → Option α) (h : entry.forgets name = false) :
    (recent name (log ++ [entry])).filterMap f = (recent name log).filterMap f ++ (f entry).toList := by
  rw [recent_concat, if_neg (by simp [h]), List.filterMap_append]
  cases hentry : f entry <;> simp [hentry]

theorem addedTo_concat (h : entry.forgets name = false) :
    addedTo store name (log ++ [entry]) = addedTo store name log ++ (entry.added? store name).toList :=
  filterMap_recent_concat _ h

theorem saidAbout_concat (h : entry.forgets name = false) :
    saidAbout store name (log ++ [entry]) = saidAbout store name log ++ (entry.said? store name).toList :=
  filterMap_recent_concat _ h

theorem visitedIn_concat (h : entry.forgets name = false) :
    visitedIn store name (log ++ [entry]) =
      visitedIn store name log ++ (entry.visited? store name).toList :=
  filterMap_recent_concat _ h

end Append

/-! ## Identifiers -/

theorem filterMap_sublist_filterMap {α β : Type} {f g : α → Option β} (h : ∀ a, f a = none ∨ f a = g a)
    (items : List α) : (items.filterMap f).Sublist (items.filterMap g) := by
  induction items with
  | nil => exact List.Sublist.refl []
  | cons a items ih =>
      rcases h a with hnone | hsame
      · rw [List.filterMap_cons_none hnone]
        cases hg : g a with
        | none => rwa [List.filterMap_cons_none hg]
        | some b =>
            rw [List.filterMap_cons_some hg]
            exact ih.trans (List.sublist_cons_self b _)
      · cases hg : g a with
        | none =>
            rw [List.filterMap_cons_none hg, List.filterMap_cons_none (hsame.trans hg)]
            exact ih
        | some b =>
            rw [List.filterMap_cons_some hg, List.filterMap_cons_some (hsame.trans hg)]
            exact ih.cons_cons b

theorem id_of_added? {store : Store} {name : String} (entry : Entry) :
    (entry.added? store name).map Version.id = none ∨
      (entry.added? store name).map Version.id = mintedId? (entry.mint, entry.call) := by
  obtain ⟨mint, call, answer⟩ := entry
  cases call with
  | addVersion file prompt plan code tree explanation =>
      cases answer with
      | error fault => exact .inl rfl
      | ok answer =>
          by_cases h : store.fileName file = name
          · exact .inr (by simp [Entry.added?, mintedId?, h])
          · exact .inl (by simp [Entry.added?, h])
  | addMessage | rollback | deleteFile | reset => exact .inl rfl

/-- The identifiers of the versions of a file are among those that were made for the calls. -/
theorem ids_addedTo_sublist (store : Store) (name : String) (log : List Entry) :
    ((addedTo store name log).map Version.id).Sublist
      (mintedIds (log.map fun entry => (entry.mint, entry.call))) := by
  have hrecent : (recent name log).Sublist log := (List.rtakeWhile_suffix _ log).sublist
  rw [addedTo, List.map_filterMap, mintedIds, List.filterMap_map]
  exact (hrecent.filterMap _).trans (filterMap_sublist_filterMap id_of_added? log)

theorem file_of_mem_addedTo {store : Store} {name : String} {log : List Entry} {version : Version}
    (h : version ∈ addedTo store name log) : version.file = name := by
  obtain ⟨⟨mint, call, answer⟩, -, hadded⟩ := List.mem_filterMap.1 h
  cases call with
  | addMessage | rollback | deleteFile | reset => cases hadded
  | addVersion file prompt plan code tree explanation =>
      cases answer with
      | error fault => cases hadded
      | ok answer =>
          simp only [Entry.added?] at hadded
          split at hadded
          · cases hadded
            rfl
          · cases hadded

end ComponentBuilder.History
