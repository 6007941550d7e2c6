import ComponentBuilder.Json.Value

/-!
# Reading JSON

A strict reader: one value with white space around it, no leading zeros, no control characters in
strings, no escapes of half of a surrogate pair, and no numbers beyond the largest finite double.  How
large integers and deep nesting are treated is a parameter, and so are halves of pairs: where they are
allowed, a string that holds one is a torn string.
-/

namespace ComponentBuilder

namespace Json

/-- What a reader accepts beyond the grammar. -/
structure ReadLimits where
  /-- How deep containers may nest. -/
  depth : Nat
  /--
  Whether integers of more than sixty-four bits stay integers, up to a number of digits, instead of
  becoming doubles.
  -/
  wideIntegers : Bool
  /-- Whether doubles may be infinite, as too large numbers are, or no number. -/
  nonFinite : Bool := false
  /-- Whether escapes may stand for half of a surrogate pair. -/
  halves : Bool := false

/-- The most digits of an integer that may exceed sixty-four bits. -/
def maxDigits : Nat := 4300

namespace Reader

/-- White space between tokens. -/
def isSpace (c : Char) : Bool :=
  c == ' ' || c == '\n' || c == '\r' || c == '\t'

/-- The rest after white space. -/
def skipSpace (text : List Char) : List Char :=
  text.dropWhile isSpace

/-- The value of a hexadecimal digit. -/
def hexValue? (c : Char) : Option Nat :=
  if '0' ≤ c && c ≤ '9' then some (c.toNat - 48)
  else if 'a' ≤ c && c ≤ 'f' then some (c.toNat - 87)
  else if 'A' ≤ c && c ≤ 'F' then some (c.toNat - 55)
  else none

/-- The number that four hexadecimal digits stand for. -/
def hexFour? : List Char → Option (Nat × List Char)
  | a :: b :: c :: d :: rest =>
      match hexValue? a, hexValue? b, hexValue? c, hexValue? d with
      | some a, some b, some c, some d => some (((a * 16 + b) * 16 + c) * 16 + d, rest)
      | _, _, _, _ => none
  | _ => none

/-- The character of an escape of four digits, or of two such escapes that form a pair. -/
def unicodeEscape? (text : List Char) : Option (Char × List Char) :=
  match hexFour? text with
  | none => none
  | some (high, rest) =>
      if 0xD800 ≤ high && high < 0xDC00 then
        match rest with
        | '\\' :: 'u' :: rest =>
            match hexFour? rest with
            | some (low, rest) =>
                if 0xDC00 ≤ low && low < 0xE000 then
                  some (Char.ofNat (0x10000 + (high - 0xD800) * 1024 + (low - 0xDC00)), rest)
                else none
            | none => none
        | _ => none
      else if 0xDC00 ≤ high && high < 0xE000 then none
      else some (Char.ofNat high, rest)

/-- The character of an escape, read after its backslash. -/
def escape? : List Char → Option (Char × List Char)
  | '"' :: rest => some ('"', rest)
  | '\\' :: rest => some ('\\', rest)
  | '/' :: rest => some ('/', rest)
  | 'b' :: rest => some ('\x08', rest)
  | 'f' :: rest => some ('\x0c', rest)
  | 'n' :: rest => some ('\n', rest)
  | 'r' :: rest => some ('\r', rest)
  | 't' :: rest => some ('\t', rest)
  | 'u' :: rest => unicodeEscape? rest
  | _ => none

/-- The rest after an escape of half of a surrogate pair, read after its backslash. -/
def half? : List Char → Option (List Char)
  | 'u' :: rest =>
      match hexFour? rest with
      | some (n, rest) => if 0xD800 ≤ n && n < 0xE000 then some rest else none
      | none => none
  | _ => none

/-- A string as it was read. -/
structure Read where
  /-- Its text, with a replacement character for every half of a pair. -/
  text : String
  /-- Whether it holds half of a pair. -/
  isTorn : Bool

/-- The value of a string. -/
def Read.value (read : Read) : Json :=
  if read.isTorn then .torn else .str read.text

/--
A string after its opening quote, and the text after it; `seen` is its reversed text so far, and
`torn` tells whether that holds half of a pair.
-/
def stringFuel (halves torn : Bool) (seen : List Char) :
    Nat → List Char → Option (Read × List Char)
  | 0, _ => none
  | _ + 1, [] => none
  | fuel + 1, c :: rest =>
      if c == '"' then some (⟨String.ofList seen.reverse, torn⟩, rest)
      else if c == '\\' then
        match escape? rest, half? rest with
        | some (d, rest), _ => stringFuel halves torn (d :: seen) fuel rest
        | none, some rest =>
            if halves then stringFuel halves true ('\ufffd' :: seen) fuel rest else none
        | none, none => none
      else if c.toNat < 32 then none
      else stringFuel halves torn (c :: seen) fuel rest

/-- A string after its opening quote, and the text after it. -/
def string? (limits : ReadLimits) (text : List Char) : Option (Read × List Char) :=
  stringFuel limits.halves false [] (text.length + 1) text

/-- The digits in front, as a number with their count, and the rest. -/
def digitsFrom (value count : Nat) : List Char → Nat × Nat × List Char
  | [] => (value, count, [])
  | c :: rest =>
      if c.isDigit then digitsFrom (value * 10 + (c.toNat - 48)) (count + 1) rest
      else (value, count, c :: rest)

/-- The fraction of a number, if one follows: the value with its digits appended, and their count. -/
def fraction? (value : Nat) : List Char → Option (Nat × Nat × Bool × List Char)
  | '.' :: rest =>
      let (value, count, rest) := digitsFrom value 0 rest
      if count = 0 then none else some (value, count, true, rest)
  | rest => some (value, 0, false, rest)

/-- The exponent of a number, if one follows. -/
def exponent? (text : List Char) : Option (Int × Bool × List Char) :=
  match text with
  | c :: rest =>
      if c == 'e' || c == 'E' then
        let (negative, rest) :=
          match rest with
          | '-' :: rest => (true, rest)
          | '+' :: rest => (false, rest)
          | rest => (false, rest)
        let (value, count, rest) := digitsFrom 0 0 rest
        if count = 0 then none
        else some (if negative then -(value : Int) else value, true, rest)
      else some (0, false, c :: rest)
  | [] => some (0, false, [])

/-- An integer of so many digits, as it is read within the limits. -/
def integerValue? (limits : ReadLimits) (digits : Nat) (n : Int) : Option Json :=
  if limits.wideIntegers then if maxDigits < digits then none else some (.int n)
  else if fitsWord n then some (.int n)
  else
    let x := Double.ofInt n
    if x.isFinite then some (.double x) else none

/-- Whether a number is negative, and what follows its sign. -/
def sign : List Char → Bool × List Char
  | '-' :: rest => (true, rest)
  | rest => (false, rest)

/-- A number, read from its first character on. -/
def number? (limits : ReadLimits) (text : List Char) : Option (Json × List Char) :=
  let (negative, rest) := sign text
  let (whole, count, rest') := digitsFrom 0 0 rest
  if count = 0 || (rest.head? == some '0' && 1 < count) then none
  else
    match fraction? whole rest' with
    | none => none
    | some (value, places, hasPoint, rest) =>
        match exponent? rest with
        | none => none
        | some (power, hasExponent, rest) =>
            if hasPoint || hasExponent then
              let x := Double.ofDecimal negative value (power - places)
              if x.isFinite || limits.nonFinite then some (.double x, rest) else none
            else
              (integerValue? limits count (if negative then -(value : Int) else value)).map
                fun number => (number, rest)

/-- A fixed word. -/
def word? (word : List Char) (value : Json) (text : List Char) : Option (Json × List Char) :=
  if word.isPrefixOf text then some (value, text.drop word.length) else none

/-- A word for a double that is not finite. -/
def nonFinite? (text : List Char) : Option (Json × List Char) :=
  let infinite (negative : Bool) : Json := .double (Double.withSign negative Double.infiniteBits)
  (word? "NaN".toList (.double (Double.withSign false Double.undefinedBits)) text).or
    ((word? "Infinity".toList (infinite false) text).or
      (word? "-Infinity".toList (infinite true) text))

/-- The name of a field and the colon after it. -/
def fieldName? (limits : ReadLimits) (text : List Char) : Option (Read × List Char) :=
  match skipSpace text with
  | '"' :: rest =>
      match string? limits rest with
      | some (name, rest) =>
          match skipSpace rest with
          | ':' :: rest => some (name, rest)
          | _ => none
      | none => none
  | _ => none

mutual

/-- A value inside `depth` fewer containers than allowed. -/
def valueFuel (limits : ReadLimits) : Nat → Nat → List Char → Option (Json × List Char)
  | 0, _, _ => none
  | fuel + 1, depth, text =>
      match skipSpace text with
      | [] => none
      | c :: rest =>
          if c == '"' then (string? limits rest).map fun found => (found.1.value, found.2)
          else if c == '{' then
            match depth with
            | 0 => none
            | depth + 1 =>
                match skipSpace rest with
                | '}' :: rest => some (.obj [], rest)
                | rest => fieldsFuel limits fuel depth .empty rest
          else if c == '[' then
            match depth with
            | 0 => none
            | depth + 1 =>
                match skipSpace rest with
                | ']' :: rest => some (.arr [], rest)
                | rest => itemsFuel limits fuel depth [] rest
          else if c == 't' then word? "true".toList (.bool true) (c :: rest)
          else if c == 'f' then word? "false".toList (.bool false) (c :: rest)
          else if c == 'n' then word? "null".toList .null (c :: rest)
          else if limits.nonFinite then (number? limits (c :: rest)).or (nonFinite? (c :: rest))
          else number? limits (c :: rest)

/-- The items of an array up to its end, those read so far in reverse. -/
def itemsFuel (limits : ReadLimits) :
    Nat → Nat → List Json → List Char → Option (Json × List Char)
  | 0, _, _, _ => none
  | fuel + 1, depth, seen, text =>
      match valueFuel limits fuel depth text with
      | none => none
      | some (item, rest) =>
          match skipSpace rest with
          | ',' :: rest => itemsFuel limits fuel depth (item :: seen) rest
          | ']' :: rest => some (.arr (item :: seen).reverse, rest)
          | _ => none

/--
The fields of an object up to its end, after those read so far; a field with a torn name holds a torn
string.
-/
def fieldsFuel (limits : ReadLimits) :
    Nat → Nat → Keyed Json → List Char → Option (Json × List Char)
  | 0, _, _, _ => none
  | fuel + 1, depth, seen, text =>
      match fieldName? limits text with
      | none => none
      | some (name, rest) =>
          match valueFuel limits fuel depth rest with
          | none => none
          | some (value, rest) =>
              let found := seen.set name.text (if name.isTorn then .torn else value)
              match skipSpace rest with
              | ',' :: rest => fieldsFuel limits fuel depth found rest
              | '}' :: rest => some (.obj found.entries, rest)
              | _ => none

end

end Reader

/-- The value a whole text stands for. -/
def read? (limits : ReadLimits) (text : List Char) : Option Json :=
  match Reader.valueFuel limits (2 * text.length + 2) limits.depth text with
  | some (value, rest) => if (Reader.skipSpace rest).isEmpty then some value else none
  | none => none

/-- Reading of stored documents: 1024 levels, large integers become doubles. -/
def storedLimits : ReadLimits := { depth := 1024, wideIntegers := false }

/-- Reading without limits. -/
def wideLimits (text : List Char) : ReadLimits := { depth := text.length, wideIntegers := true }

end Json

end ComponentBuilder
