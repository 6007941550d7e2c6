import Mathlib.Data.List.Sort
import ComponentBuilder.Markup.Signature

/-!
# What it means for trees to have the same structure

Two trees agree when they have the same tag, give the same names the same values, and have children that
agree place by place; the order of attributes and the identifiers of elements play no part.  Comparing
trees by their signatures decides exactly this.  Sorting the attributes for a signature never fails,
since the names of two attributes differ and decide their order before their values are looked at.
-/

namespace ComponentBuilder

namespace Keyed

/-- Maps with the same values differ in the order of their entries at most. -/
theorem perm_entries_iff {α : Type} {m n : Keyed α} :
    m.entries.Perm n.entries ↔ ∀ key, m.get? key = n.get? key := by
  rw [List.perm_ext_iff_of_nodup m.distinct.of_map n.distinct.of_map]
  constructor
  · intro h key
    ext value
    rw [← mem_entries_iff, ← mem_entries_iff, h]
  · rintro h ⟨key, value⟩
    rw [mem_entries_iff, mem_entries_iff, h]

end Keyed

namespace Markup

/-! ## Trees that agree -/

mutual

/-- Two elements agree in their tags, in what their names stand for and in their children. -/
inductive Node.Agrees : Node → Node → Prop
  | mk {id id' tag : String} {attributes attributes' : Attributes} {children children' : List Child}
      (hattributes : ∀ name, attributes.get? name = attributes'.get? name)
      (hchildren : ChildrenAgree children children') :
      Node.Agrees (.mk id tag attributes children) (.mk id' tag attributes' children')

/-- As many children, which are equal texts or elements that agree. -/
inductive ChildrenAgree : List Child → List Child → Prop
  | nil : ChildrenAgree [] []
  | text {as bs : List Child} (value : String) (hrest : ChildrenAgree as bs) :
      ChildrenAgree (.text value :: as) (.text value :: bs)
  | element {a b : Node} {as bs : List Child} (hfirst : a.Agrees b) (hrest : ChildrenAgree as bs) :
      ChildrenAgree (.element a :: as) (.element b :: bs)

end

theorem agrees_mk_iff {id id' tag tag' : String} {attributes attributes' : Attributes}
    {children children' : List Child} :
    (Node.mk id tag attributes children).Agrees (.mk id' tag' attributes' children') ↔
      tag = tag' ∧ (∀ name, attributes.get? name = attributes'.get? name) ∧
        ChildrenAgree children children' := by
  constructor
  · intro h
    cases h with
    | mk hattributes hchildren => exact ⟨rfl, hattributes, hchildren⟩
  · rintro ⟨rfl, hattributes, hchildren⟩
    exact .mk hattributes hchildren

theorem childrenAgree_text_iff {value value' : String} {as bs : List Child} :
    ChildrenAgree (.text value :: as) (.text value' :: bs) ↔ value = value' ∧ ChildrenAgree as bs := by
  constructor
  · intro h
    cases h with
    | text _ hrest => exact ⟨rfl, hrest⟩
  · rintro ⟨rfl, hrest⟩
    exact .text value hrest

theorem childrenAgree_element_iff {a b : Node} {as bs : List Child} :
    ChildrenAgree (.element a :: as) (.element b :: bs) ↔ a.Agrees b ∧ ChildrenAgree as bs := by
  constructor
  · intro h
    cases h with
    | element hfirst hrest => exact ⟨hfirst, hrest⟩
  · rintro ⟨hfirst, hrest⟩
    exact .element hfirst hrest

/-! ## Attributes sorted by name -/

/-- Order of attributes by their names alone. -/
def EntryLe (a b : String × AttributeValue) : Prop :=
  a.1 ≤ b.1

instance : DecidableRel EntryLe :=
  fun a b => inferInstanceAs (Decidable (a.1 ≤ b.1))

instance : Std.Total EntryLe :=
  ⟨fun a b => String.le_total a.1 b.1⟩

instance : IsTrans (String × AttributeValue) EntryLe :=
  ⟨fun _ _ _ => String.le_trans⟩

theorem before_iff {a b : String × AttributeValue} : Text.before b.1 a.1 = true ↔ ¬EntryLe a b := by
  rw [Text.before, decide_eq_true_iff, EntryLe, String.not_le]

/-- Distinct names leave one sorted arrangement. -/
theorem eq_of_perm_of_sorted {entries sorted sorted' : List (String × AttributeValue)}
    (hdistinct : (entries.map Prod.fst).Nodup) (hperm : sorted.Perm entries) (hperm' : sorted'.Perm entries)
    (hsorted : sorted.Pairwise EntryLe) (hsorted' : sorted'.Pairwise EntryLe) : sorted = sorted' := by
  refine List.Perm.eq_of_pairwise ?_ hsorted hsorted' (hperm.trans hperm'.symm)
  intro a b ha hb hab hba
  have hname : a.1 = b.1 := String.le_antisymm hab hba
  exact List.inj_on_of_nodup_map hdistinct (hperm.subset ha) (hperm'.subset hb) hname

theorem sortedEntries_perm (attributes : Attributes) :
    (sortedEntries attributes).Perm attributes.entries :=
  List.mergeSort_perm attributes.entries _

theorem pairwise_sortedEntries (attributes : Attributes) :
    (sortedEntries attributes).Pairwise EntryLe := by
  have hle : (fun a b : String × AttributeValue => !Text.before b.1 a.1) = fun a b => decide (EntryLe a b) := by
    funext a b
    rw [Bool.eq_iff_iff, Bool.not_eq_true', ← Bool.not_eq_true, before_iff, Classical.not_not,
      decide_eq_true_iff]
  rw [sortedEntries, hle]
  exact List.pairwise_mergeSort' EntryLe attributes.entries

theorem insertionSort_entries (attributes : Attributes) :
    attributes.entries.insertionSort EntryLe = sortedEntries attributes :=
  eq_of_perm_of_sorted attributes.distinct (List.perm_insertionSort EntryLe attributes.entries)
    (sortedEntries_perm attributes) (List.pairwise_insertionSort EntryLe attributes.entries)
    (pairwise_sortedEntries attributes)

theorem sortedEntries_eq_iff_perm {attributes attributes' : Attributes} :
    sortedEntries attributes = sortedEntries attributes' ↔ attributes.entries.Perm attributes'.entries := by
  constructor
  · intro h
    exact (sortedEntries_perm attributes).symm.trans (h ▸ sortedEntries_perm attributes')
  · intro h
    exact eq_of_perm_of_sorted attributes'.distinct ((sortedEntries_perm attributes).trans h)
      (sortedEntries_perm attributes') (pairwise_sortedEntries attributes) (pairwise_sortedEntries attributes')

/-- Sorting forgets the order of attributes and nothing else. -/
theorem sortedEntries_eq_iff {attributes attributes' : Attributes} :
    sortedEntries attributes = sortedEntries attributes' ↔
      ∀ name, attributes.get? name = attributes'.get? name :=
  sortedEntries_eq_iff_perm.trans Keyed.perm_entries_iff

/-! ## Equal signatures -/

mutual

theorem Signature.same_iff (a b : Signature) : a.same b = true ↔ a = b := by
  match a, b with
  | .flag on, .flag on' => simp [Signature.same]
  | .text value, .text value' => simp [Signature.same]
  | .tuple items, .tuple items' => simp [Signature.same, sameItems_iff items items']
  | .flag _, .text _ | .flag _, .tuple _ | .text _, .flag _ | .text _, .tuple _
  | .tuple _, .flag _ | .tuple _, .text _ => simp [Signature.same]

theorem sameItems_iff (as bs : List Signature) : sameItems as bs = true ↔ as = bs := by
  match as, bs with
  | [], [] => simp [sameItems]
  | a :: as, b :: bs => simp [sameItems, a.same_iff b, sameItems_iff as bs]
  | [], _ :: _ | _ :: _, [] => simp [sameItems]

end

/-- The name of its kind keeps a value apart from the values of other kinds. -/
theorem AttributeValue.signature_injective : Function.Injective AttributeValue.signature := by
  intro value value' h
  cases value <;> cases value' <;> simp_all [AttributeValue.signature]

theorem entrySignature_injective : Function.Injective entrySignature := by
  rintro ⟨name, value⟩ ⟨name', value'⟩ h
  simp only [entrySignature, Signature.tuple.injEq, List.cons.injEq, Signature.text.injEq, and_true] at h
  rw [h.1, AttributeValue.signature_injective h.2]

/-! ## Sorting the attributes of an element -/

/-- Comparing two attributes looks at their names alone, and these settle the order. -/
def SettledByNames (a b : String × AttributeValue) : Prop :=
  (entrySignature a).compare (entrySignature b) = ⟨[(.text a.1, .text b.1)], some (Text.before a.1 b.1)⟩

theorem settledByNames_of_ne {a b : String × AttributeValue} (h : a.1 ≠ b.1) : SettledByNames a b := by
  simp [SettledByNames, entrySignature, Signature.compare, compareItems, Signature.same, h]

/-- The names of an element's attributes differ, so no two attributes are compared by their values. -/
theorem settledByNames_entries (attributes : Attributes) :
    attributes.entries.Pairwise fun a b => SettledByNames a b ∧ SettledByNames b a := by
  have hdistinct : attributes.entries.Pairwise fun a b => a.1 ≠ b.1 :=
    List.pairwise_map.1 attributes.distinct
  exact hdistinct.imp fun h => ⟨settledByNames_of_ne h, settledByNames_of_ne h.symm⟩

theorem insert?_entrySignature {entry : String × AttributeValue} {entries : List (String × AttributeValue)}
    (h : ∀ other ∈ entries, other.1 ≠ entry.1) :
    insert? (entrySignature entry) (entries.map entrySignature) =
      some ((entries.orderedInsert EntryLe entry).map entrySignature) := by
  induction entries with
  | nil => rfl
  | cons first rest ih =>
      rw [List.forall_mem_cons] at h
      rw [List.map_cons, insert?, settledByNames_of_ne h.1, ih h.2, List.orderedInsert_cons]
      by_cases hle : EntryLe entry first
      · have hbefore : Text.before first.1 entry.1 = false := by
          rw [← Bool.not_eq_true, before_iff, Classical.not_not]
          exact hle
        simp [hle, hbefore]
      · simp [hle, before_iff.2 hle]

theorem sort?_entrySignature {entries : List (String × AttributeValue)}
    (h : (entries.map Prod.fst).Nodup) :
    sort? (entries.map entrySignature) = some ((entries.insertionSort EntryLe).map entrySignature) := by
  induction entries with
  | nil => rfl
  | cons entry rest ih =>
      obtain ⟨hnew, hdistinct⟩ := List.nodup_cons.1 h
      rw [List.map_cons, sort?, ih hdistinct, List.insertionSort_cons]
      -- What the name is compared with comes from other places, where no name is the same.
      refine insert?_entrySignature fun other hother hname => hnew ?_
      exact hname ▸ List.mem_map_of_mem ((List.perm_insertionSort EntryLe rest).subset hother)

/-- The attributes of an element can be sorted, and their names give the order. -/
theorem sort?_attributes (attributes : Attributes) :
    sort? (attributes.entries.map entrySignature) = some ((sortedEntries attributes).map entrySignature) := by
  rw [sort?_entrySignature attributes.distinct, insertionSort_entries]

/-! ## The signature of a tree -/

mutual

/-- The signature that the sorted attributes of every element give. -/
def Node.signature : Node → Signature
  | .mk _ tag attributes children =>
      .tuple [.text tag, .tuple ((sortedEntries attributes).map entrySignature), .tuple (signatures children)]
termination_by structural node => node

/-- The signatures of children, a text standing for itself. -/
def signatures : List Child → List Signature
  | [] => []
  | .text value :: rest => .text value :: signatures rest
  | .element node :: rest => node.signature :: signatures rest
termination_by structural children => children

end

mutual

/-- Every element has its signature. -/
theorem Node.signature?_eq (node : Node) : node.signature? = some node.signature := by
  match node with
  | .mk id tag attributes children =>
      rw [Node.signature?, sort?_attributes, signatures?_eq children]
      rfl

theorem signatures?_eq (children : List Child) : signatures? children = some (signatures children) := by
  match children with
  | [] => rfl
  | .text value :: rest =>
      rw [signatures?, signatures?_eq rest]
      rfl
  | .element node :: rest =>
      rw [signatures?, node.signature?_eq, signatures?_eq rest]
      rfl

end

theorem Node.signature_ne_text (node : Node) (value : String) : node.signature ≠ .text value := by
  cases node
  simp [Node.signature]

mutual

/-- A signature tells a tree up to identifiers and the order of attributes. -/
theorem Node.signature_eq_iff (a b : Node) : a.signature = b.signature ↔ a.Agrees b := by
  match a, b with
  | .mk id tag attributes children, .mk id' tag' attributes' children' =>
      rw [agrees_mk_iff, ← sortedEntries_eq_iff, ← signatures_eq_iff children children',
        ← (List.map_injective_iff.2 entrySignature_injective).eq_iff]
      simp [Node.signature]

theorem signatures_eq_iff (as bs : List Child) : signatures as = signatures bs ↔ ChildrenAgree as bs := by
  match as, bs with
  | [], [] => exact iff_of_true rfl .nil
  | .text value :: as, .text value' :: bs =>
      rw [childrenAgree_text_iff, ← signatures_eq_iff as bs]
      simp [signatures]
  | .element a :: as, .element b :: bs =>
      rw [childrenAgree_element_iff, ← a.signature_eq_iff b, ← signatures_eq_iff as bs]
      simp [signatures]
  -- A text stands for itself and an element is a tuple, so the two are never taken for each other.
  | .text value :: as, .element b :: bs =>
      refine iff_of_false (fun h => ?_) nofun
      exact b.signature_ne_text value (List.cons.inj h).1.symm
  | .element a :: as, .text value :: bs =>
      refine iff_of_false (fun h => ?_) nofun
      exact a.signature_ne_text value (List.cons.inj h).1
  | [], .text _ :: _ | [], .element _ :: _ | .text _ :: _, [] | .element _ :: _, [] =>
      exact iff_of_false nofun nofun

end

/-! ## The comparison of trees -/

mutual

/-- Elements have the same structure exactly when they agree. -/
theorem Node.sameStructure_iff (a b : Node) : a.sameStructure b = true ↔ a.Agrees b := by
  match a, b with
  | .mk id tag attributes children, .mk id' tag' attributes' children' =>
      rw [agrees_mk_iff, ← sortedEntries_eq_iff, ← sameChildren_iff children children']
      simp [Node.sameStructure, and_assoc]

theorem sameChildren_iff (as bs : List Child) : sameChildren as bs = true ↔ ChildrenAgree as bs := by
  match as, bs with
  | [], [] => exact iff_of_true rfl .nil
  | .text value :: as, .text value' :: bs =>
      rw [childrenAgree_text_iff, ← sameChildren_iff as bs]
      simp [sameChildren]
  | .element a :: as, .element b :: bs =>
      rw [childrenAgree_element_iff, ← a.sameStructure_iff b, ← sameChildren_iff as bs]
      simp [sameChildren]
  | [], .text _ :: _ | [], .element _ :: _ | .text _ :: _, [] | .element _ :: _, []
  | .text _ :: _, .element _ :: _ | .element _ :: _, .text _ :: _ =>
      exact iff_of_false nofun nofun

end

theorem Node.sameStructure_iff_signature (a b : Node) : a.sameStructure b = true ↔ a.signature = b.signature :=
  (a.sameStructure_iff b).trans (a.signature_eq_iff b).symm

/-- Comparing the signatures of two elements has an answer, and it is whether their structure is the same. -/
theorem Node.sameSignature?_eq (a b : Node) : a.sameSignature? b = some (a.sameStructure b) := by
  have hsame : a.signature.same b.signature = a.sameStructure b := by
    rw [Bool.eq_iff_iff, Signature.same_iff, a.sameStructure_iff_signature b]
  rw [Node.sameSignature?, a.signature?_eq, b.signature?_eq, ← hsame]
  rfl

theorem equivalence_sameStructure : Equivalence fun a b : Node => a.sameStructure b = true := by
  simp only [Node.sameStructure_iff_signature]
  exact eq_equivalence.comap Node.signature

example :
    (Node.mk "first" "a" (.ofList [("href", .text "True"), ("x", .flag true)]) [.text "go"]).sameSignature?
        (.mk "second" "a" (.ofList [("x", .flag true), ("href", .text "True")]) [.text "go"]) = some true ∧
      (Node.mk "first" "a" (.ofList [("x", .flag true)]) []).sameSignature?
        (.mk "first" "a" (.ofList [("x", .text "True")]) []) = some false := by
  decide +kernel

end Markup

end ComponentBuilder
