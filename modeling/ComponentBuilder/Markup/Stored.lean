import ComponentBuilder.Markup.Tree
import ComponentBuilder.Schema.Shape

/-!
# Stored trees

Trees as JSON values.  An element is an object with its identifier, tag, attributes and children; a
child that is a text is a string.  A truth value and a string stand for themselves as values of
attributes, and an expression is an object that holds its source.
-/

namespace ComponentBuilder

namespace Markup

open Schema

/-- The word that marks an expression among the values of attributes. -/
def expressionKind : String := "expression"

/-- The value of an attribute as stored. -/
def AttributeValue.toJson : AttributeValue → Json
  | .flag on => .bool on
  | .text value => .str value
  | .expression source => .obj [("kind", .str expressionKind), ("source", .str source)]

mutual

/-- An element as stored. -/
def Node.toJson : Node → Json
  | .mk id tag attributes children =>
      .obj [("id", .str id), ("type", .str tag),
        ("attributes", .obj (attributes.entries.map fun entry => (entry.1, entry.2.toJson))),
        ("children", .arr (childrenToJson children))]
termination_by structural node => node

/-- Children as stored. -/
def childrenToJson : List Child → List Json
  | [] => []
  | .text value :: rest => .str value :: childrenToJson rest
  | .element node :: rest => node.toJson :: childrenToJson rest
termination_by structural children => children

end

/-- The mark of an expression, which may be left out. -/
def expressionMark : Json → Checked Unit
  | .str s => if s = expressionKind then .accepted () else .refuse (.notLiteral expressionKind)
  | _ => .refuse (.notLiteral expressionKind)

/-- A stored expression. -/
def storedExpression (value : Json) : Checked AttributeValue :=
  record "Expression" (fun fields =>
    (fun _ source => AttributeValue.expression source)
      <$> optional ["kind"] () expressionMark fields
      <*> required ["source"] string fields) value

/-- What speaks against each of several readings of one value, each under its own name. -/
def eachRefused (readings : List (String × List Issue)) : Checked AttributeValue :=
  .refused (readings.flatMap fun reading => reading.2.map fun issue =>
    { issue with place := .key reading.1 :: issue.place })

/-- The issues of a check. -/
def issuesOf {α : Type} : Checked α → List Issue
  | .accepted _ => []
  | .refused issues => issues

/--
A stored value of an attribute: a string or a truth value as it is, else an expression, else what can
be taken for a truth value.
-/
def storedAttribute : Json → Checked AttributeValue
  | .str s => .accepted (.text s)
  | value =>
      match storedExpression value, bool value with
      | .accepted expression, _ => .accepted expression
      | _, .accepted on => .accepted (.flag on)
      | expression, flag =>
          eachRefused [("bool", issuesOf flag), ("Expression", issuesOf expression),
            ("str", [⟨.notString, []⟩])]

/-- Stored attributes in order. -/
def attributesFrom : List (String × Json) → Checked (List (String × AttributeValue))
  | [] => .accepted []
  | (name, value) :: rest =>
      (fun value rest => (name, value) :: rest)
        <$> (storedAttribute value).within (.key name) <*> attributesFrom rest

/-- The stored attributes of an element. -/
def storedAttributes : Json → Checked Attributes
  | .obj fields => (attributesFrom fields).map Keyed.ofList
  | _ => .refuse .notObject

/-- An element from its fields, its children already read. -/
def storedElement (missingId : String) (fields : List (String × Json))
    (children : Checked (List Child)) : Checked Node :=
  Node.mk <$> optional ["id"] missingId string fields
    <*> required ["type"] string fields
    <*> optional ["attributes"] .empty storedAttributes fields
    <*> children

/-- A stored child that is neither a text nor a well-formed element. -/
def childRefused (issues : List Issue) : Checked Child :=
  .refused ((issues.map fun issue => { issue with place := .key "Node" :: issue.place }) ++
    [⟨.notString, [.key "str"]⟩])

/-- A child that is an element. -/
def storedChild : Checked Node → Checked Child
  | .accepted node => .accepted (.element node)
  | .refused issues => childRefused issues

mutual

/--
The stored children among the fields of an element at a place in its tree; `name` gives an
identifier to the elements that have none, by their place.
-/
def childrenAmong (name : List Nat → String) (place : List Nat) :
    List (String × Json) → Checked (List Child)
  | [] => .accepted []
  | (field, value) :: rest =>
      if field = "children" then (storedChildren name place value).within (.key "children")
      else childrenAmong name place rest
termination_by structural fields => fields

/-- Stored children. -/
def storedChildren (name : List Nat → String) (place : List Nat) : Json → Checked (List Child)
  | .arr items => childrenFrom name place 0 items
  | _ => .refuse .notList
termination_by structural value => value

/-- Stored children from a number on. -/
def childrenFrom (name : List Nat → String) (place : List Nat) (number : Nat) :
    List Json → Checked (List Child)
  | [] => .accepted []
  | item :: rest =>
      List.cons <$> (childOf name (place ++ [number]) item).within (.index number)
        <*> childrenFrom name place (number + 1) rest
termination_by structural items => items

/-- One stored child at a place in the tree. -/
def childOf (name : List Nat → String) (place : List Nat) : Json → Checked Child
  | .str s => .accepted (.text s)
  | .obj fields => storedChild (storedElement (name place) fields (childrenAmong name place fields))
  | _ => childRefused [⟨.notRecord "Node", []⟩]
termination_by structural value => value

end

/-- A stored tree. -/
def Node.ofJson (name : List Nat → String) (value : Json) : Checked Node :=
  record "Node" (fun fields => storedElement (name []) fields (childrenAmong name [] fields)) value

/-- Identifiers that spell out the place of an element in its tree. -/
def placeName (place : List Nat) : String :=
  "node_" ++ ".".intercalate (place.map toString)

end Markup

end ComponentBuilder
