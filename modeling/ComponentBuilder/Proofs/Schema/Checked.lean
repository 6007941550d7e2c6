import ComponentBuilder.Schema.Shape

/-!
# Checks that accept

A check that is put together from several accepts when all of them do, and then every one of them has
accepted.  Lists are accepted item by item.
-/

namespace ComponentBuilder.Schema

variable {α β : Type}

namespace Checked

@[simp] theorem map_accepted (f : α → β) (a : α) : f <$> (accepted a : Checked α) = accepted (f a) := rfl

@[simp] theorem seq_accepted (f : α → β) (a : α) :
    (accepted f : Checked (α → β)) <*> (accepted a : Checked α) = accepted (f a) := rfl

@[simp] theorem within_accepted (place : Place) (a : α) : (accepted a : Checked α).within place = accepted a := rfl

@[simp] theorem bind_accepted (f : α → Checked β) (a : α) : (accepted a : Checked α).bind f = f a := rfl

theorem map_eq_accepted {f : α → β} {x : Checked α} {b : β} (h : f <$> x = accepted b) :
    ∃ a, x = accepted a ∧ f a = b := by
  cases x with
  | accepted a =>
      rw [map_accepted, accepted.injEq] at h
      exact ⟨a, rfl, h⟩
  | refused issues => cases h

theorem seq_eq_accepted {f : Checked (α → β)} {x : Checked α} {b : β} (h : f <*> x = accepted b) :
    ∃ g a, f = accepted g ∧ x = accepted a ∧ g a = b := by
  cases f with
  | accepted g =>
      cases x with
      | accepted a =>
          rw [seq_accepted, accepted.injEq] at h
          exact ⟨g, a, rfl, rfl, h⟩
      | refused issues => cases h
  | refused issues => cases x <;> cases h

theorem within_eq_accepted {place : Place} {x : Checked α} {a : α} (h : x.within place = accepted a) :
    x = accepted a := by
  cases x with
  | accepted b => exact h
  | refused issues => cases h

theorem bind_eq_accepted {x : Checked α} {f : α → Checked β} {b : β} (h : x.bind f = accepted b) :
    ∃ a, x = accepted a ∧ f a = accepted b := by
  cases x with
  | accepted a => exact ⟨a, rfl, h⟩
  | refused issues => cases h

end Checked

/-! ## Fields -/

section Fields

variable {name : String} {default : α} {check : Json → Checked α} {fields : List (String × Json)} {a : α}

theorem required_of_lookup {value : Json} (h : fields.lookup name = some value) (hcheck : check value = .accepted a) :
    required [name] check fields = .accepted a := by
  simp [required, givenField?, h, hcheck]

theorem optional_of_lookup {value : Json} (h : fields.lookup name = some value) (hcheck : check value = .accepted a) :
    optional [name] default check fields = .accepted a := by
  simp [optional, givenField?, h, hcheck]

/-- A field that is there leaves nothing to the default. -/
theorem optional_default (other : α) (h : (fields.lookup name).isSome = true) :
    optional [name] default check fields = optional [name] other check fields := by
  obtain ⟨value, hvalue⟩ := Option.isSome_iff_exists.1 h
  simp [optional, givenField?, hvalue]

/-- What an accepted field holds was checked, or is the default. -/
theorem of_optional_accepted {names : List String} (h : optional names default check fields = .accepted a) :
    (∃ value, check value = .accepted a) ∨ a = default := by
  unfold optional at h
  split at h
  · exact .inl ⟨_, Checked.within_eq_accepted h⟩
  · exact .inr (by simpa using h.symm)

theorem of_required_accepted {names : List String} (h : required names check fields = .accepted a) :
    ∃ value, check value = .accepted a := by
  unfold required at h
  split at h
  · exact ⟨_, Checked.within_eq_accepted h⟩
  · cases h

theorem optional_congr {check' : Json → Checked α}
    (h : ∀ value, fields.lookup name = some value → check value = check' value) :
    optional [name] default check fields = optional [name] default check' fields := by
  cases hfield : fields.lookup name with
  | none => simp [optional, givenField?, hfield]
  | some value => simp [optional, givenField?, hfield, h value hfield]

theorem nullable_congr {check' : Json → Checked α} {value : Json} (h : check value = check' value) :
    nullable check value = nullable check' value := by
  cases value with
  | null => rfl
  | _ => exact congrArg (Checked.map some) h

theorem record_congr {kind : String} {check check' : List (String × Json) → Checked α} {value : Json}
    (h : ∀ fields, value = .obj fields → check fields = check' fields) :
    record kind check value = record kind check' value := by
  cases value with
  | obj fields => exact h fields rfl
  | _ => simp only [record]

end Fields

/-! ## Lists -/

section Lists

variable {check : Nat → Json → Checked α}

/-- Items that are all accepted as what they were made from make up the list. -/
theorem itemsFrom_map {toJson : α → Json} {items : List α}
    (h : ∀ item ∈ items, ∀ place, check place (toJson item) = .accepted item) (place : Nat) :
    itemsFrom check place (items.map toJson) = .accepted items := by
  induction items generalizing place with
  | nil => rfl
  | cons item items ih =>
      rw [List.map_cons, itemsFrom, h item List.mem_cons_self place,
        ih fun other hother => h other (List.mem_cons_of_mem item hother)]
      rfl

theorem listAt_map {toJson : α → Json} {items : List α}
    (h : ∀ item ∈ items, ∀ place, check place (toJson item) = .accepted item) :
    listAt check (.arr (items.map toJson)) = .accepted items :=
  itemsFrom_map h 0

/-- Every item of an accepted list was accepted. -/
theorem of_itemsFrom_accepted {place : Nat} {values : List Json} {items : List α}
    (h : itemsFrom check place values = .accepted items) :
    ∀ item ∈ items, ∃ number value, check number value = .accepted item := by
  induction values generalizing place items with
  | nil =>
      cases h
      intro item hitem
      cases hitem
  | cons value values ih =>
      obtain ⟨g, rest, hg, hrest, hitems⟩ := Checked.seq_eq_accepted h
      obtain ⟨first, hfirst, rfl⟩ := Checked.map_eq_accepted hg
      subst hitems
      intro item hitem
      rcases List.mem_cons.1 hitem with rfl | htail
      · exact ⟨place, value, Checked.within_eq_accepted hfirst⟩
      · exact ih hrest item htail

theorem of_listAt_accepted {value : Json} {items : List α} (h : listAt check value = .accepted items) :
    ∀ item ∈ items, ∃ number value, check number value = .accepted item := by
  cases value with
  | arr values => exact of_itemsFrom_accepted h
  | _ => cases h

/-- A list is checked alike by checks that agree on its items. -/
theorem itemsFrom_congr {check' : Nat → Json → Checked α} {values : List Json}
    (h : ∀ value ∈ values, ∀ place, check place value = check' place value) (place : Nat) :
    itemsFrom check place values = itemsFrom check' place values := by
  induction values generalizing place with
  | nil => rfl
  | cons value values ih =>
      rw [itemsFrom, itemsFrom, h value List.mem_cons_self place,
        ih fun other hother => h other (List.mem_cons_of_mem value hother)]

theorem listAt_congr {check' : Nat → Json → Checked α} {value : Json}
    (h : ∀ item ∈ value.items, ∀ place, check place item = check' place item) :
    listAt check value = listAt check' value := by
  cases value with
  | arr items => exact itemsFrom_congr h 0
  | _ => rfl

end Lists

end ComponentBuilder.Schema
