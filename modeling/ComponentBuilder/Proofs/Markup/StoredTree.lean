import ComponentBuilder.Markup.Stored
import ComponentBuilder.Proofs.Json.Reading
import ComponentBuilder.Proofs.Schema.Checked

/-!
# Stored trees read back

A stored tree reads back as the tree: identifiers, the order of attributes, the kinds of their values, and
texts and elements among the children.  Where every element names its identifier, reading a tree makes up
nothing.
-/

namespace ComponentBuilder.Markup

open Schema

/-! ## Attributes -/

theorem storedAttribute_toJson (value : AttributeValue) : storedAttribute value.toJson = .accepted value := by
  cases value with
  | flag on => rfl
  | text s => rfl
  | expression source => rfl

theorem attributesFrom_map (entries : List (String × AttributeValue)) :
    attributesFrom (entries.map fun entry => (entry.1, entry.2.toJson)) = .accepted entries := by
  induction entries with
  | nil => rfl
  | cons entry rest ih =>
      obtain ⟨name, value⟩ := entry
      rw [List.map_cons, attributesFrom, storedAttribute_toJson, ih]
      rfl

theorem storedAttributes_map (attributes : Attributes) :
    storedAttributes (.obj (attributes.entries.map fun entry => (entry.1, entry.2.toJson))) =
      .accepted attributes := by
  rw [storedAttributes, attributesFrom_map]
  exact congrArg Checked.accepted attributes.ofList_entries

/-! ## Elements and children -/

section Reading

variable (name : List Nat → String)

theorem storedElement_toJson (missing id tag : String) (attributes : Attributes) (children : List Child) :
    storedElement missing [("id", .str id), ("type", .str tag),
        ("attributes", .obj (attributes.entries.map fun entry => (entry.1, entry.2.toJson))),
        ("children", .arr (childrenToJson children))] (.accepted children) =
      .accepted (.mk id tag attributes children) := by
  rw [storedElement, optional_of_lookup (a := id) rfl rfl, required_of_lookup (a := tag) rfl rfl,
    optional_of_lookup rfl (storedAttributes_map attributes)]
  rfl

theorem Node.toJson_eq_obj (node : Node) : node.toJson = .obj node.toJson.fields := by
  cases node
  rw [Node.toJson]
  rfl

mutual

/-- Stored children read back, whatever place they are said to have. -/
theorem childrenFrom_toJson (place : List Nat) :
    ∀ (children : List Child) (number : Nat),
      childrenFrom name place number (childrenToJson children) = .accepted children
  | [], _ => rfl
  | .text value :: rest, number => by
      rw [childrenToJson, childrenFrom, childrenFrom_toJson place rest]
      rfl
  | .element node :: rest, number => by
      rw [childrenToJson, childrenFrom, childrenFrom_toJson place rest, node.toJson_eq_obj, childOf,
        storedElement_fields (place ++ [number]) node]
      rfl

theorem storedElement_fields (place : List Nat) :
    ∀ node : Node, storedElement (name place) node.toJson.fields
      (childrenAmong name place node.toJson.fields) = .accepted node
  | .mk id tag attributes children => by
      rw [Node.toJson, Json.fields]
      have hchildren : childrenAmong name place [("id", .str id), ("type", .str tag),
          ("attributes", .obj (attributes.entries.map fun entry => (entry.1, entry.2.toJson))),
          ("children", .arr (childrenToJson children))] = .accepted children := by
        simp only [childrenAmong, String.reduceEq, if_false, if_true, storedChildren,
          childrenFrom_toJson place children 0, Checked.within_accepted]
      rw [hchildren, storedElement_toJson]

end

/-- A stored tree reads back as the tree. -/
theorem Node.ofJson_toJson (node : Node) : Node.ofJson name node.toJson = .accepted node := by
  rw [node.toJson_eq_obj]
  exact storedElement_fields name [] node

end Reading

/-! ## Texts of stored trees -/

section Legible

open Json

theorem legible_attribute (value : AttributeValue) : value.toJson.Legible := by
  cases value with
  | flag on => trivial
  | text s => trivial
  | expression source =>
      have hnames : ["kind", "source"].Nodup := by decide
      exact ⟨hnames, trivial, trivial, trivial⟩

theorem legible_attributes (attributes : Attributes) :
    (Json.obj (attributes.entries.map fun entry => (entry.1, entry.2.toJson))).Legible := by
  constructor
  · rw [List.map_map]
    exact attributes.distinct
  · apply legibleFields_of_forall
    intro field hfield
    obtain ⟨entry, -, rfl⟩ := List.mem_map.1 hfield
    exact legible_attribute entry.2

mutual

theorem legible_children : ∀ children : List Child, LegibleItems (childrenToJson children)
  | [] => trivial
  | .text _ :: rest => ⟨trivial, legible_children rest⟩
  | .element node :: rest => ⟨node.legible_toJson, legible_children rest⟩

theorem Node.legible_toJson : ∀ node : Node, node.toJson.Legible
  | .mk id tag attributes children => by
      have hnames : ["id", "type", "attributes", "children"].Nodup := by decide
      rw [Node.toJson]
      exact ⟨hnames, trivial, trivial, legible_attributes attributes, legible_children children, trivial⟩

end

end Legible

/-! ## Trees that name every element -/

section Named

mutual

/-- A stored child that is a text or names itself and everything inside. -/
def NamesElements : Json → Prop
  | .obj fields => (fields.lookup "id").isSome = true ∧ AmongNamed fields
  | _ => True
termination_by structural value => value

/-- The children among the fields of an element name themselves. -/
def AmongNamed : List (String × Json) → Prop
  | [] => True
  | (field, value) :: rest => if field = "children" then ItemsNamed value else AmongNamed rest
termination_by structural fields => fields

/-- Stored children name themselves. -/
def ItemsNamed : Json → Prop
  | .arr items => AllNamed items
  | _ => True
termination_by structural value => value

/-- All items name themselves. -/
def AllNamed : List Json → Prop
  | [] => True
  | item :: rest => NamesElements item ∧ AllNamed rest
termination_by structural items => items

end

variable {name other : List Nat → String}

theorem storedElement_named {fields : List (String × Json)} (h : (fields.lookup "id").isSome = true)
    (missing missing' : String) (children : Checked (List Child)) :
    storedElement missing fields children = storedElement missing' fields children := by
  rw [storedElement, optional_default missing' h, storedElement]

mutual

theorem childOf_named : ∀ (value : Json) (place : List Nat), NamesElements value →
    childOf name place value = childOf other place value
  | .obj fields, place, h => by
      rw [childOf, childOf, childrenAmong_named fields place h.2, storedElement_named h.1 (name place)]
  | .null, _, _ | .bool _, _, _ | .int _, _, _ | .double _, _, _ | .str _, _, _ | .torn, _, _
  | .arr _, _, _ => rfl

theorem childrenAmong_named : ∀ (fields : List (String × Json)) (place : List Nat), AmongNamed fields →
    childrenAmong name place fields = childrenAmong other place fields
  | [], _, _ => rfl
  | (field, value) :: rest, place, h => by
      rw [AmongNamed] at h
      rw [childrenAmong, childrenAmong]
      by_cases hfield : field = "children"
      · rw [if_pos hfield] at h ⊢
        rw [if_pos hfield, storedChildren_named value place h]
      · rw [if_neg hfield] at h ⊢
        rw [if_neg hfield]
        exact childrenAmong_named rest place h

theorem storedChildren_named : ∀ (value : Json) (place : List Nat), ItemsNamed value →
    storedChildren name place value = storedChildren other place value
  | .arr items, place, h => childrenFrom_named items place 0 h
  | .null, _, _ | .bool _, _, _ | .int _, _, _ | .double _, _, _ | .str _, _, _ | .torn, _, _
  | .obj _, _, _ => rfl

theorem childrenFrom_named : ∀ (items : List Json) (place : List Nat) (number : Nat), AllNamed items →
    childrenFrom name place number items = childrenFrom other place number items
  | [], _, _, _ => rfl
  | item :: rest, place, number, h => by
      rw [childrenFrom, childrenFrom, childOf_named item (place ++ [number]) h.1,
        childrenFrom_named rest place (number + 1) h.2]

end

/-- A tree whose elements name themselves reads alike whatever names are made up. -/
theorem Node.ofJson_named {value : Json} (h : NamesElements value) :
    Node.ofJson name value = Node.ofJson other value := by
  cases value with
  | obj fields =>
      rw [Node.ofJson, Node.ofJson, record, record, childrenAmong_named fields [] h.2,
        storedElement_named h.1 (name [])]
  | _ => rfl

end Named

end ComponentBuilder.Markup
