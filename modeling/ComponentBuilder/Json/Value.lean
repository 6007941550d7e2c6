import ComponentBuilder.Keyed
import ComponentBuilder.Number.Digits

/-!
# JSON values

Null, truth values, integers of any size, doubles, strings, arrays and objects.  An object is the list
of its fields in order; the readers keep the first place and the last value of a repeated name.  Texts
can also spell strings that hold half of a surrogate pair; all of them are one value, which is only
carried along.
-/

namespace ComponentBuilder

/-- A JSON value. -/
inductive Json where
  | null
  | bool (value : Bool)
  | int (value : Int)
  | double (value : Double)
  | str (value : String)
  /-- A string that holds half of a surrogate pair. -/
  | torn
  | arr (items : List Json)
  | obj (fields : List (String × Json))
deriving Repr, Inhabited

namespace Json

/-- Whether an integer fits a signed or an unsigned word of sixty-four bits. -/
def fitsWord (n : Int) : Bool :=
  -9223372036854775808 ≤ n && n < 18446744073709551616

/-- An object with the given fields, a repeated name keeping its first place and its last value. -/
def ofFields (fields : List (String × Json)) : Json :=
  .obj (Keyed.ofList fields).entries

/-- The value of a field; nothing when the value is no object or has no such field. -/
def field? (value : Json) (name : String) : Option Json :=
  match value with
  | .obj fields => fields.lookup name
  | _ => none

/-- The field of an object, a missing one counting as null. -/
def field (value : Json) (name : String) : Json :=
  (value.field? name).getD .null

/-- The text of a string value. -/
def str? : Json → Option String
  | .str s => some s
  | _ => none

/-- The integer of an integer value. -/
def int? : Json → Option Int
  | .int n => some n
  | _ => none

/-- The truth value of a truth value. -/
def bool? : Json → Option Bool
  | .bool b => some b
  | _ => none

/-- The items of an array; none for any other value. -/
def items : Json → List Json
  | .arr items => items
  | _ => []

/-- The fields of an object; none for any other value. -/
def fields : Json → List (String × Json)
  | .obj fields => fields
  | _ => []

/-- Whether the value is null. -/
def isNull : Json → Bool
  | .null => true
  | _ => false

/--
Whether a value counts as true where a truth value is wanted: null, false, zero and everything empty
do not.
-/
def holds : Json → Bool
  | .null => false
  | .bool b => b
  | .int n => n != 0
  | .double x => !x.isZero
  | .str s => !s.isEmpty
  | .torn => true
  | .arr items => !items.isEmpty
  | .obj fields => !fields.isEmpty

mutual

/-- Equality of values as data. -/
def same : Json → Json → Bool
  | .null, .null => true
  | .bool a, .bool b => a == b
  | .int a, .int b => a == b
  | .double a, .double b => a == b
  | .str a, .str b => a == b
  | .torn, .torn => true
  | .arr a, .arr b => sameItems a b
  | .obj a, .obj b => sameFields a b
  | _, _ => false

/-- Equality of arrays, item by item. -/
def sameItems : List Json → List Json → Bool
  | [], [] => true
  | a :: as, b :: bs => same a b && sameItems as bs
  | _, _ => false

/-- Equality of objects, field by field in order. -/
def sameFields : List (String × Json) → List (String × Json) → Bool
  | [], [] => true
  | (m, a) :: as, (n, b) :: bs => m == n && same a b && sameFields as bs
  | _, _ => false

end

end Json

end ComponentBuilder
