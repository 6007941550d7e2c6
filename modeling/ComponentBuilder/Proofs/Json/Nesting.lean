import ComponentBuilder.Proofs.Json.Reading
import ComponentBuilder.Text.Fence

/-!
# Depth of values

How deep the containers of a value nest decides whether it can be printed, if nothing else stands in the way, and
no text of a value is shorter than the value is deep.
-/

namespace ComponentBuilder.Json

/-! ## Plain values -/

/-- A text does not hold three backquotes in a row. -/
def Unfenced (text : List Char) : Prop :=
  ¬Text.fence <:+: text

mutual

/--
A value of words, strings, integers of a word and containers, with no name twice in an object and no three
backquotes in a row in a name or a string.
-/
def Plain : Json → Prop
  | .double _ => False
  | .torn => False
  | .int n => fitsWord n = true
  | .str s => Unfenced s.toList
  | .arr items => PlainItems items
  | .obj fields => (fields.map Prod.fst).Nodup ∧ PlainFields fields
  | _ => True
termination_by structural value => value

/-- All items of an array are plain. -/
def PlainItems : List Json → Prop
  | [] => True
  | item :: items => Plain item ∧ PlainItems items
termination_by structural items => items

/-- All fields of an object are plain. -/
def PlainFields : List (String × Json) → Prop
  | [] => True
  | (name, value) :: fields => Unfenced name.toList ∧ Plain value ∧ PlainFields fields
termination_by structural fields => fields

end

mutual

theorem Plain.legible : ∀ {value : Json}, value.Plain → value.Legible
  | .null, _ => trivial
  | .bool _, _ => trivial
  | .int _, _ => trivial
  | .double _, h => h.elim
  | .str _, _ => trivial
  | .torn, _ => trivial
  | .arr _, h => PlainItems.legible h
  | .obj _, h => ⟨h.1, PlainFields.legible h.2⟩

theorem PlainItems.legible : ∀ {items : List Json}, PlainItems items → LegibleItems items
  | [], _ => trivial
  | _ :: _, h => ⟨h.1.legible, PlainItems.legible h.2⟩

theorem PlainFields.legible : ∀ {fields : List (String × Json)}, PlainFields fields → LegibleFields fields
  | [], _ => trivial
  | _ :: _, h => ⟨h.2.1.legible, PlainFields.legible h.2.2⟩

end

/-! ## Nesting -/

mutual

/-- How many containers stand around each other in a value. -/
def nesting : Json → Nat
  | .arr items => nestingItems items + 1
  | .obj fields => nestingFields fields + 1
  | _ => 0
termination_by structural value => value

/-- The deepest nesting among the items of an array. -/
def nestingItems : List Json → Nat
  | [] => 0
  | item :: items => max (nesting item) (nestingItems items)
termination_by structural items => items

/-- The deepest nesting among the fields of an object. -/
def nestingFields : List (String × Json) → Nat
  | [] => 0
  | (_, value) :: fields => max (nesting value) (nestingFields fields)
termination_by structural fields => fields

end

mutual

/-- A plain value is refused for nothing but its depth. -/
theorem Plain.refusal?_eq : ∀ {value : Json} (deep : Nat), value.Plain →
    refusal? deep value = if nesting value ≤ deep then none else some .tooDeep
  | .null, deep, _ => by simp [refusal?, nesting]
  | .bool _, deep, _ => by simp [refusal?, nesting]
  | .int n, deep, h => by
      have hword : fitsWord n = true := h
      simp [refusal?, nesting, hword]
  | .double _, _, h => h.elim
  | .str _, deep, _ => by simp [refusal?, nesting]
  | .torn, _, h => h.elim
  | .arr items, 0, _ => by simp [refusal?, nesting]
  | .arr items, deep + 1, h => by
      rw [refusal?, PlainItems.refusal?_eq deep h]
      simp [nesting]
  | .obj fields, 0, _ => by simp [refusal?, nesting]
  | .obj fields, deep + 1, h => by
      rw [refusal?, PlainFields.refusal?_eq deep h.2]
      simp [nesting]

theorem PlainItems.refusal?_eq : ∀ {items : List Json} (deep : Nat), PlainItems items →
    refusalItems? deep items = if nestingItems items ≤ deep then none else some .tooDeep
  | [], deep, _ => by simp [refusalItems?, nestingItems]
  | item :: items, deep, h => by
      rw [refusalItems?, h.1.refusal?_eq deep, PlainItems.refusal?_eq deep h.2, nestingItems]
      by_cases hitem : nesting item ≤ deep <;> simp [hitem]

theorem PlainFields.refusal?_eq : ∀ {fields : List (String × Json)} (deep : Nat), PlainFields fields →
    refusalFields? deep fields = if nestingFields fields ≤ deep then none else some .tooDeep
  | [], deep, _ => by simp [refusalFields?, nestingFields]
  | (_, value) :: fields, deep, h => by
      rw [refusalFields?, h.2.1.refusal?_eq deep, PlainFields.refusal?_eq deep h.2.2, nestingFields]
      by_cases hvalue : nesting value ≤ deep <;> simp [hvalue]

end

/-- A plain value that is not too deep is printed. -/
theorem Plain.print_eq {value : Json} (h : value.Plain) (layout : Layout) (hdeep : nesting value ≤ printDepth) :
    print layout value = .ok (String.ofList (render layout 0 value)) := by
  rw [print, h.refusal?_eq, if_pos hdeep]

theorem Plain.print_of_deep {value : Json} (h : value.Plain) (layout : Layout) (hdeep : printDepth < nesting value) :
    print layout value = .error .tooDeep := by
  rw [print, h.refusal?_eq, if_neg (Nat.not_le_of_lt hdeep)]

mutual

/-- The text of a value has the brackets of all its containers. -/
theorem nesting_le_length (layout : Layout) : ∀ (value : Json) (level : Nat),
    nesting value ≤ (render layout level value).length
  | .null, _ => Nat.zero_le _
  | .bool _, _ => Nat.zero_le _
  | .int _, _ => Nat.zero_le _
  | .double _, _ => Nat.zero_le _
  | .str _, _ => Nat.zero_le _
  | .torn, _ => Nat.zero_le _
  | .arr [], _ => by simp [nesting, nestingItems, render]
  | .arr (item :: items), level => by
      have hitem := nesting_le_length layout item (level + 1)
      have hitems := nestingItems_le_length layout items (level + 1)
      simp only [nesting, nestingItems, render, List.length_cons, List.length_append]
      omega
  | .obj [], _ => by simp [nesting, nestingFields, render]
  | .obj ((name, value) :: fields), level => by
      have hvalue := nesting_le_length layout value (level + 1)
      have hfields := nestingFields_le_length layout fields (level + 1)
      simp only [nesting, nestingFields, render, List.length_cons, List.length_append]
      omega

theorem nestingItems_le_length (layout : Layout) : ∀ (items : List Json) (level : Nat),
    nestingItems items ≤ (renderItems layout level items).length
  | [], _ => Nat.zero_le _
  | item :: items, level => by
      have hitem := nesting_le_length layout item level
      have hitems := nestingItems_le_length layout items level
      simp only [nestingItems, renderItems, List.length_cons, List.length_append]
      omega

theorem nestingFields_le_length (layout : Layout) : ∀ (fields : List (String × Json)) (level : Nat),
    nestingFields fields ≤ (renderFields layout level fields).length
  | [], _ => Nat.zero_le _
  | (name, value) :: fields, level => by
      have hvalue := nesting_le_length layout value level
      have hfields := nestingFields_le_length layout fields level
      simp only [nestingFields, renderFields, List.length_cons, List.length_append]
      omega

end

/-- The text of a plain value reads back strictly, however deep the value is. -/
theorem Plain.read?_wide {value : Json} (h : value.Plain) (layout : Layout) :
    read? (wideLimits (render layout 0 value)) (render layout 0 value) = some value := by
  have hprint : refusal? (nesting value) value = none := by rw [h.refusal?_eq, if_pos le_rfl]
  have hread := read?_flatMap_render respelling_self (keepsWords_wideLimits (render layout 0 value)) layout
    h.legible hprint (nesting_le_length layout value 0)
  rwa [List.flatMap_singleton'] at hread

end ComponentBuilder.Json
