import ComponentBuilder.Markup.Tree

/-!
# Trees as nested tuples

What a tree says without its identifiers, as one value to compare by: a tuple of the tag, the sorted
attributes and the children, where a child that is an element is a tuple of the same form.  An attribute
is a tuple of its name and its value, and a value stands there with the name of its kind, since the
content alone would not tell a string from an expression.

Sorting compares tuples by their first difference.  A truth value, a text and a tuple have no order
among each other, so a sort that comes to compare two of them has no result.
-/

namespace ComponentBuilder.Markup

/-- What trees are compared by: truth values and texts in nested tuples. -/
inductive Signature where
  | flag (on : Bool)
  | text (value : String)
  | tuple (items : List Signature)

mutual

/-- Whether two signatures are equal: of one kind, with the same content. -/
def Signature.same : Signature → Signature → Bool
  | .flag on, .flag on' => on == on'
  | .text value, .text value' => value == value'
  | .tuple items, .tuple items' => sameItems items items'
  | _, _ => false
termination_by structural signature => signature

/-- Whether two tuples are equal item by item. -/
def sameItems : List Signature → List Signature → Bool
  | [], [] => true
  | a :: as, b :: bs => a.same b && sameItems as bs
  | _, _ => false
termination_by structural items => items

end

/-- What comparing two signatures comes to. -/
structure Comparison where
  /-- The pairs that were looked at, in order; two tuples are looked at item by item. -/
  met : List (Signature × Signature)
  /-- Whether the first comes before the second; no answer where the two have no order. -/
  before? : Option Bool

mutual

/-- Compare two signatures for their order. -/
def Signature.compare : Signature → Signature → Comparison
  | .flag on, .flag on' => ⟨[(.flag on, .flag on')], some (!on && on')⟩
  | .text value, .text value' => ⟨[(.text value, .text value')], some (Text.before value value')⟩
  | .tuple items, .tuple items' => compareItems items items'
  | a, b => ⟨[(a, b)], none⟩
termination_by structural signature => signature

/-- Compare two tuples: their first different items decide, and a front comes before the whole. -/
def compareItems : List Signature → List Signature → Comparison
  | [], items => ⟨[], some (!items.isEmpty)⟩
  | _ :: _, [] => ⟨[], some false⟩
  | a :: as, b :: bs =>
      let first := a.compare b
      if a.same b then
        let later := compareItems as bs
        ⟨first.met ++ later.met, later.before?⟩
      else first
termination_by structural items => items

end

/-- Insert an item into sorted ones, behind those that come before it. -/
def insert? (item : Signature) : List Signature → Option (List Signature)
  | [] => some [item]
  | first :: rest => do
      if ← (first.compare item).before? then
        return first :: (← insert? item rest)
      else
        return item :: first :: rest

/-- Sort signatures, equal ones in the order they have. -/
def sort? : List Signature → Option (List Signature)
  | [] => some []
  | item :: rest => do insert? item (← sort? rest)

/-- The value of an attribute with the name of its kind. -/
def AttributeValue.signature : AttributeValue → Signature
  | .flag on => .tuple [.text "bool", .flag on]
  | .text value => .tuple [.text "str", .text value]
  | .expression source => .tuple [.text "expr", .text source]

/-- An attribute: its name and its value. -/
def entrySignature (entry : String × AttributeValue) : Signature :=
  .tuple [.text entry.1, entry.2.signature]

mutual

/-- The signature of an element, which has none when its attributes cannot be sorted. -/
def Node.signature? : Node → Option Signature
  | .mk _ tag attributes children => do
      let sorted ← sort? (attributes.entries.map entrySignature)
      let inside ← signatures? children
      return .tuple [.text tag, .tuple sorted, .tuple inside]
termination_by structural node => node

/-- The signatures of children; a text stands for itself. -/
def signatures? : List Child → Option (List Signature)
  | [] => some []
  | .text value :: rest => do
      return .text value :: (← signatures? rest)
  | .element node :: rest => do
      let first ← node.signature?
      return first :: (← signatures? rest)
termination_by structural children => children

end

/-- Whether two elements have equal signatures, when both have one. -/
def Node.sameSignature? (a b : Node) : Option Bool := do
  let first ← a.signature?
  let second ← b.signature?
  return first.same second

end ComponentBuilder.Markup
