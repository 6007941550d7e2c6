import ComponentBuilder.Json.Reader

/-!
# Where a text stops being JSON

Bodies of requests are read with infinite doubles, torn strings and integers of any size, up to a
nesting and a number of digits that no client needs.  A text that is no JSON is refused with the offset
of its first fault: the place at which another token was expected, the opening quote of a string
without an end, or the escape that is none.
-/

namespace ComponentBuilder

namespace Json

/-- Why a text was not read. -/
inductive ReadFault where
  /-- The text is no JSON from an offset on. -/
  | malformed (offset : Nat)
  /-- Containers nest too deep, or an integer has too many digits. -/
  | excessive
deriving DecidableEq, Repr

namespace Diagnosis

open Reader (isSpace skipSpace hexValue?)

/-- Why a check ended. -/
inductive Stop where
  /-- The text is no JSON where this rest of it begins. -/
  | fault (rest : List Char)
  | excessive
deriving DecidableEq, Repr

/-- The outcome of a check: the rest of the text after what was checked. -/
abbrev Outcome := Except Stop (List Char)

/-- How deep containers may nest. -/
def maxDepth : Nat := 950

/-- Characters that may follow a backslash alone. -/
def plainEscapes : List Char :=
  ['"', '\\', '/', 'b', 'f', 'n', 'r', 't']

/-- Whether a text begins with the four digits of an escape and does not end after them. -/
def hasFourDigits : List Char → Bool
  | a :: b :: c :: d :: _ :: _ => [a, b, c, d].all fun x => (hexValue? x).isSome
  | _ => false

/-- The rest after a string, read after its opening quote, with which `opening` begins. -/
def stringRest (opening : List Char) : List Char → Outcome
  | [] => .error (.fault opening)
  | '"' :: rest => .ok rest
  | '\\' :: 'u' :: rest =>
      if hasFourDigits rest then stringRest opening (rest.drop 4) else .error (.fault ('u' :: rest))
  | '\\' :: c :: rest =>
      if plainEscapes.contains c then stringRest opening rest
      else .error (.fault ('\\' :: c :: rest))
  | c :: rest => if c.toNat < 32 then .error (.fault (c :: rest)) else stringRest opening rest
termination_by text => text.length
decreasing_by all_goals simp <;> omega

/-- The rest after a fraction, if one follows. -/
def fractionRest : List Char → List Char
  | '.' :: c :: rest => if c.isDigit then rest.dropWhile Char.isDigit else '.' :: c :: rest
  | rest => rest

/-- The rest after a sign, if one follows. -/
def signRest : List Char → List Char
  | '+' :: rest => rest
  | '-' :: rest => rest
  | rest => rest

/-- The rest after an exponent, if one follows. -/
def exponentRest : List Char → List Char
  | [] => []
  | c :: rest =>
      if (c == 'e' || c == 'E') && ((signRest rest).head?.any Char.isDigit) then
        (signRest rest).dropWhile Char.isDigit
      else c :: rest

/-- The rest after a number whose digits begin a text; `whole` is all of it. -/
def digitsRest (whole : List Char) : List Char → Outcome
  | [] => .error (.fault whole)
  | c :: rest =>
      if !c.isDigit then .error (.fault whole)
      else
        let more := if c == '0' then [] else rest.takeWhile Char.isDigit
        let after := if c == '0' then rest else rest.dropWhile Char.isDigit
        let last := exponentRest (fractionRest after)
        if last.length = after.length && maxDigits < more.length + 1 then .error .excessive
        else .ok last

/-- The rest after a number. -/
def numberRest (text : List Char) : Outcome :=
  match text with
  | '-' :: rest => digitsRest text rest
  | _ => digitsRest text text

/-- The rest after a fixed word, if the text begins with one. -/
def wordRest? (text : List Char) : Option (List Char) :=
  (["null", "true", "false", "NaN", "Infinity", "-Infinity"].find? fun word =>
    word.toList.isPrefixOf text).map fun word => text.drop word.length

mutual

/-- The rest after a value inside `depth` fewer containers than allowed. -/
def valueRest : Nat → Nat → List Char → Outcome
  | 0, _, text => .error (.fault text)
  | fuel + 1, depth, text =>
      match text with
      | '"' :: rest => stringRest text rest
      | '{' :: rest =>
          match depth, skipSpace rest with
          | 0, _ => .error .excessive
          | _, '}' :: rest => .ok rest
          | depth + 1, rest => fieldsRest fuel depth rest
      | '[' :: rest =>
          match depth, skipSpace rest with
          | 0, _ => .error .excessive
          | _, ']' :: rest => .ok rest
          | depth + 1, rest => itemsRest fuel depth rest
      | text =>
          match wordRest? text with
          | some rest => .ok rest
          | none => numberRest text

/-- The rest after the items of an array and its end. -/
def itemsRest : Nat → Nat → List Char → Outcome
  | 0, _, text => .error (.fault text)
  | fuel + 1, depth, text =>
      match valueRest fuel depth text with
      | .error stop => .error stop
      | .ok rest =>
          match skipSpace rest with
          | ']' :: rest => .ok rest
          | ',' :: rest => itemsRest fuel depth (skipSpace rest)
          | rest => .error (.fault rest)

/-- The rest after the fields of an object and its end. -/
def fieldsRest : Nat → Nat → List Char → Outcome
  | 0, _, text => .error (.fault text)
  | fuel + 1, depth, text =>
      match text with
      | '"' :: name =>
          match stringRest text name with
          | .error stop => .error stop
          | .ok rest =>
              match skipSpace rest with
              | ':' :: rest =>
                  match valueRest fuel depth (skipSpace rest) with
                  | .error stop => .error stop
                  | .ok rest =>
                      match skipSpace rest with
                      | '}' :: rest => .ok rest
                      | ',' :: rest => fieldsRest fuel depth (skipSpace rest)
                      | rest => .error (.fault rest)
              | rest => .error (.fault rest)
      | text => .error (.fault text)

end

/-- Check that a text is one value. -/
def check (text : List Char) : Except Stop Unit :=
  match valueRest (2 * text.length + 2) maxDepth (skipSpace text) with
  | .error stop => .error stop
  | .ok rest => if (skipSpace rest).isEmpty then .ok () else .error (.fault (skipSpace rest))

end Diagnosis

/-- Reading of bodies: large integers, infinite doubles and torn strings. -/
def bodyLimits : ReadLimits where
  depth := Diagnosis.maxDepth
  wideIntegers := true
  nonFinite := true
  halves := true

/-- The value of a body, after a byte order mark if there is one. -/
def readBody (body : String) : Except ReadFault Json :=
  let text :=
    match body.toList with
    | c :: rest => if c.toNat = 0xFEFF then rest else c :: rest
    | [] => []
  match Diagnosis.check text with
  | .error (.fault rest) => .error (.malformed (text.length - rest.length))
  | .error .excessive => .error .excessive
  | .ok () =>
      match read? bodyLimits text with
      | some value => .ok value
      | none => .error .excessive

end Json

end ComponentBuilder
