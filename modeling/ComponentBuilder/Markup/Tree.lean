import ComponentBuilder.Keyed
import ComponentBuilder.Text.Basic

/-!
# Trees of elements

An element has a tag, attributes in order, and children that are texts and elements; the empty tag
marks a fragment.  Every element carries an identifier that names it for a display and has no meaning:
two trees have the same structure when they agree in everything else, the order of attributes aside.
-/

namespace ComponentBuilder

namespace Markup

/-- The value of an attribute. -/
inductive AttributeValue where
  /-- A truth value; an attribute without a value is true. -/
  | flag (on : Bool)
  /-- A string. -/
  | text (value : String)
  /-- A braced expression, kept as it was written with its braces. -/
  | expression (source : String)
deriving DecidableEq, Repr

/-- The attributes of an element in the order of their names' first use. -/
abbrev Attributes := Keyed AttributeValue

mutual

/-- An element: identifier, tag, attributes and children. -/
inductive Node where
  | mk (id tag : String) (attributes : Attributes) (children : List Child)

/-- What stands between the tags of an element. -/
inductive Child where
  /-- Text, braced expressions included. -/
  | text (value : String)
  /-- An element. -/
  | element (node : Node)

end

instance : Inhabited Node := ⟨.mk "" "" .empty []⟩

namespace Node

/-- The identifier of an element. -/
def id : Node → String
  | mk id _ _ _ => id

/-- The tag of an element, empty for a fragment. -/
def tag : Node → String
  | mk _ tag _ _ => tag

/-- The attributes of an element. -/
def attributes : Node → Attributes
  | mk _ _ attributes _ => attributes

/-- The children of an element. -/
def children : Node → List Child
  | mk _ _ _ children => children

/-- Whether the element is a fragment. -/
def isFragment (node : Node) : Bool :=
  node.tag.isEmpty

end Node

/-- The element of a child that is one. -/
def Child.element? : Child → Option Node
  | .text _ => none
  | .element node => some node

/-- The children that are elements, in order. -/
def Node.elementChildren (node : Node) : List Node :=
  node.children.filterMap Child.element?

mutual

/-- The element and all elements inside it, each before its children. -/
def Node.descendants : Node → List Node
  | node@(.mk _ _ _ children) => node :: descendantsOf children
termination_by structural node => node

/-- The elements among some children and inside them. -/
def descendantsOf : List Child → List Node
  | [] => []
  | .text _ :: rest => descendantsOf rest
  | .element node :: rest => node.descendants ++ descendantsOf rest
termination_by structural children => children

end

/-- Attributes in the order of their names, for comparing. -/
def sortedEntries (attributes : Attributes) : List (String × AttributeValue) :=
  attributes.entries.mergeSort fun a b => !Text.before b.1 a.1

mutual

/-- Whether two elements have the same tag, the same attributes and children that agree in turn. -/
def Node.sameStructure : Node → Node → Bool
  | .mk _ tag attributes children, .mk _ tag' attributes' children' =>
      tag == tag' && sortedEntries attributes == sortedEntries attributes' &&
        sameChildren children children'
termination_by structural node => node

/-- Whether two lists of children agree place by place. -/
def sameChildren : List Child → List Child → Bool
  | [], [] => true
  | .text a :: as, .text b :: bs => a == b && sameChildren as bs
  | .element a :: as, .element b :: bs => a.sameStructure b && sameChildren as bs
  | _, _ => false
termination_by structural children => children

end

end Markup

end ComponentBuilder
