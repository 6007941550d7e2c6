import ComponentBuilder.Json.Value

/-!
# Writing JSON

The compact form and the form indented by two blanks.  Strings are quoted with the shortest escapes;
every character from the blank on except the quote and the backslash stands for itself.  Integers
must fit sixty-four bits, containers may nest 254 deep, and torn strings have no written form.
-/

namespace ComponentBuilder

namespace Json

/-- The lower-case hexadecimal digit of a number below sixteen. -/
def hexDigit (n : Nat) : Char :=
  if n < 10 then Char.ofNat (48 + n) else Char.ofNat (87 + n)

/-- The escape of a control character by its code point. -/
def controlEscape (n : Nat) : List Char :=
  ['\\', 'u', '0', '0', hexDigit (n / 16), hexDigit (n % 16)]

/-- The text of a character inside a string. -/
def escapeChar (c : Char) : List Char :=
  if c = '"' then ['\\', '"']
  else if c = '\\' then ['\\', '\\']
  else if 32 ≤ c.toNat then [c]
  else if c = '\n' then ['\\', 'n']
  else if c = '\r' then ['\\', 'r']
  else if c = '\t' then ['\\', 't']
  else if c.toNat = 8 then ['\\', 'b']
  else if c.toNat = 12 then ['\\', 'f']
  else controlEscape c.toNat

/-- A quoted string. -/
def quote (s : List Char) : List Char :=
  '"' :: (s.flatMap escapeChar ++ ['"'])

/-- The text of a double: its shortest digits, and null when it is not finite. -/
def doubleText (x : Double) : String :=
  if x.isFinite then x.shortestText .document else "null"

/-- How containers are laid out. -/
inductive Layout where
  /-- Without any white space. -/
  | compact
  /-- One item a line, indented by two blanks a level; empty containers stay closed. -/
  | indented
deriving DecidableEq, Repr

/-- The break before an item at a level of nesting. -/
def Layout.lineBreak (layout : Layout) (level : Nat) : List Char :=
  match layout with
  | .compact => []
  | .indented => '\n' :: List.replicate (2 * level) ' '

/-- The text between a field's name and its value. -/
def Layout.colon : Layout → List Char
  | .compact => [':']
  | .indented => [':', ' ']

mutual

/-- The text of a value inside `level` containers. -/
def render (layout : Layout) : Nat → Json → List Char
  | _, .null => "null".toList
  | _, .bool true => "true".toList
  | _, .bool false => "false".toList
  | _, .int n => (toString n).toList
  | _, .double x => (doubleText x).toList
  | _, .str s => quote s.toList
  | _, .torn => quote ['\ufffd']
  | _, .arr [] => ['[', ']']
  | level, .arr (item :: items) =>
      '[' :: (layout.lineBreak (level + 1) ++ render layout (level + 1) item ++
        renderItems layout (level + 1) items ++ layout.lineBreak level ++ [']'])
  | _, .obj [] => ['{', '}']
  | level, .obj ((name, value) :: fields) =>
      '{' :: (layout.lineBreak (level + 1) ++ quote name.toList ++ layout.colon ++
        render layout (level + 1) value ++ renderFields layout (level + 1) fields ++
        layout.lineBreak level ++ ['}'])

/-- The text of the items after the first. -/
def renderItems (layout : Layout) : Nat → List Json → List Char
  | _, [] => []
  | level, item :: items =>
      ',' :: (layout.lineBreak level ++ render layout level item ++ renderItems layout level items)

/-- The text of the fields after the first. -/
def renderFields (layout : Layout) : Nat → List (String × Json) → List Char
  | _, [] => []
  | level, (name, value) :: fields =>
      ',' :: (layout.lineBreak level ++ quote name.toList ++ layout.colon ++
        render layout level value ++ renderFields layout level fields)

end

/-- Why a value has no text. -/
inductive PrintError where
  /-- An integer does not fit sixty-four bits. -/
  | integerRange
  /-- Containers nest too deep. -/
  | tooDeep
  /-- A string holds half of a surrogate pair. -/
  | tornString
deriving DecidableEq, Repr

/-- The wording of a refusal to print. -/
def PrintError.message : PrintError → String
  | .integerRange => "Integer exceeds 64-bit range"
  | .tooDeep => "Recursion limit reached"
  | .tornString => "str is not valid UTF-8: surrogates not allowed"

/-- How deep containers may nest in a printed text. -/
def printDepth : Nat := 254

mutual

/-- The first reason, in the order of the text, why a value cannot be printed. -/
def refusal? : Nat → Json → Option PrintError
  | _, .int n => if fitsWord n then none else some .integerRange
  | _, .torn => some .tornString
  | 0, .arr _ => some .tooDeep
  | 0, .obj _ => some .tooDeep
  | depth + 1, .arr items => refusalItems? depth items
  | depth + 1, .obj fields => refusalFields? depth fields
  | _, _ => none

/-- The first reason among the items of an array. -/
def refusalItems? : Nat → List Json → Option PrintError
  | _, [] => none
  | depth, item :: items => (refusal? depth item).or (refusalItems? depth items)

/-- The first reason among the fields of an object. -/
def refusalFields? : Nat → List (String × Json) → Option PrintError
  | _, [] => none
  | depth, (_, value) :: fields => (refusal? depth value).or (refusalFields? depth fields)

end

/-- The text of a value in a layout. -/
def print (layout : Layout) (value : Json) : Except PrintError String :=
  match refusal? printDepth value with
  | some e => .error e
  | none => .ok (String.ofList (render layout 0 value))

/-- The text of a value in a layout, whatever its size. -/
def text (layout : Layout) (value : Json) : String :=
  String.ofList (render layout 0 value)

end Json

end ComponentBuilder
