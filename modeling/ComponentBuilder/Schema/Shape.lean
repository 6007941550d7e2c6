import ComponentBuilder.Schema.Issue

/-!
# Shapes of values

Checks for strings, truth values, numbers, lists and records.  Truth values and numbers may also be
given in the spellings that configuration uses: words for truth values, digits for numbers.
-/

namespace ComponentBuilder

namespace Schema

variable {α : Type}

/-- A string. -/
def string : Json → Checked String
  | .str s => .accepted s
  | .torn => .refuse .tornString
  | _ => .refuse .notString

/-- Any string; a torn one reads as the replacement character. -/
def anyString : Json → Checked String
  | .torn => .accepted "\ufffd"
  | value => string value

/-- A string of at least `least` and at most `most` characters. -/
def sizedString (least : Nat) (most : Option Nat) (value : Json) : Checked String :=
  (string value).bind fun s =>
    if most.any (· < s.length) then .refuse (.tooLong (most.getD 0))
    else if s.length < least then .refuse (.tooShort least)
    else .accepted s

/-- A value or null. -/
def nullable (check : Json → Checked α) : Json → Checked (Option α)
  | .null => .accepted none
  | value => (check value).map some

/-- Words that mean true. -/
def trueWords : List String := ["1", "on", "t", "true", "y", "yes"]

/-- Words that mean false. -/
def falseWords : List String := ["0", "off", "f", "false", "n", "no"]

/-- Whether an integer fits a signed word of sixty-four bits. -/
def fitsSigned (n : Int) : Bool :=
  -9223372036854775808 ≤ n && n < 9223372036854775808

/-- Whether a double is an integer between the ends of a signed word, the ends themselves left out. -/
def isWordSized (x : Double) : Bool :=
  x.isIntegral && -9223372036854775808 < x.truncate && x.truncate < 9223372036854775808

/-- The truth value that an integer stands for. -/
def boolOfInt (n : Int) : Checked Bool :=
  if n = 1 then .accepted true
  else if n = 0 then .accepted false
  else .refuse .unreadableBool

/-- A truth value, a word for one, or zero or one; numbers beyond a word are no candidates. -/
def bool : Json → Checked Bool
  | .bool b => .accepted b
  | .str s =>
      let word := Text.lowerAscii s
      if trueWords.contains word then .accepted true
      else if falseWords.contains word then .accepted false
      else .refuse .unreadableBool
  | .int n => if fitsSigned n then boolOfInt n else .refuse .notBool
  | .double x => if isWordSized x then boolOfInt x.truncate else .refuse .notBool
  | _ => .refuse .notBool

/-- White space around a number: the blanks except the four information separators. -/
def isPadding (c : Char) : Bool :=
  Text.isBlank c && !(28 ≤ c.toNat && c.toNat ≤ 31)

/-- Drop white space at both ends. -/
def unpadded (text : String) : List Char :=
  ((text.toList.dropWhile isPadding).reverse.dropWhile isPadding).reverse

/-- The digits in front of a text, and the rest. -/
def leadingDigits (text : List Char) : List Char × List Char :=
  Text.spanWhile Char.isDigit text

/-- The value of a text of digits. -/
def plainDigits (digits : List Char) : Nat :=
  digits.foldl (fun n c => n * 10 + (c.toNat - 48)) 0

/-- Drop a plus sign in front; no minus sign may follow it. -/
def withoutPlus? : List Char → Option (List Char)
  | '+' :: '-' :: _ => none
  | '+' :: rest => some rest
  | text => some text

/--
Drop the zeros in front of an integer, and underscores among them; one stays where no digit follows.
What follows the zeros must go on with a digit, a point or a minus sign.
-/
def withoutZeros? : List Char → Option (List Char)
  | [] => none
  | c :: rest =>
      if c == '0' then
        let (run, after) := Text.spanWhile (fun d => d == '0' || d == '_') rest
        let last := run.getLastD '0'
        match after with
        | [] => some [last]
        | d :: _ =>
            if d == '.' then some (last :: after)
            else if d.isDigit || d == '-' then some after
            else none
      else if c.isDigit || c == '-' then some (c :: rest)
      else none

/-- Drop a point with zeros, at least one, and nothing else after it. -/
def withoutFraction (text : List Char) : List Char :=
  match text.dropWhile (· != '.') with
  | _ :: zeros =>
      if !zeros.isEmpty && zeros.all (· == '0') then text.takeWhile (· != '.') else text
  | [] => text

/-- A text without its underscores, each of which must stand alone between other characters. -/
def withoutUnderscores? (text : List Char) : Option (List Char) :=
  let parts := Text.split '_' text
  if parts.all (!·.isEmpty) then some parts.flatten else none

/-- The bare form of an integer's text: digits, with a minus sign in front of a negative one. -/
def bareInteger? (text : List Char) : Option (List Char) :=
  ((withoutPlus? text).bind withoutZeros?).map fun digits =>
    let whole := withoutFraction digits
    (withoutUnderscores? whole).getD whole

/-- How many digits an integer may have as a text. -/
def maxDigits : Nat := 4300

/-- The integer of a text in bare form, which has no zeros in front. -/
def plainInteger (text : List Char) : Checked Int :=
  let negative := text.head? == some '-'
  let (digits, rest) := leadingDigits (if negative then text.tail else text)
  if maxDigits < digits.length && digits.head? != some '0' then .refuse .oversizedInteger
  else if digits.isEmpty || !rest.isEmpty || (digits.head? == some '0' && 1 < digits.length) then
    .refuse .unreadableInteger
  else
    let n : Int := plainDigits digits
    .accepted (if negative then -n else n)

/-- The integer of a text: white space around it, a sign, digits and a fraction of zeros. -/
def integerOfText (text : String) : Checked Int :=
  match bareInteger? (unpadded text) with
  | some bare => plainInteger bare
  | none => .refuse .unreadableInteger

/-- An integer, a truth value as zero or one, an integral number or a text of digits. -/
def integer : Json → Checked Int
  | .int n => .accepted n
  | .bool b => .accepted (if b then 1 else 0)
  | .double x =>
      if !x.isFinite then .refuse .notFinite
      else if !x.isIntegral then .refuse .fractionalInteger
      else if isWordSized x then .accepted x.truncate
      else .refuse .oversizedInteger
  | .str s => integerOfText s
  | _ => .refuse .notInteger

/-- The exponent of a number text; no text counts as zero. -/
def exponentValue? : List Char → Option Int
  | [] => some 0
  | c :: rest =>
      if c == 'e' || c == 'E' then
        let (negative, digits) :=
          match rest with
          | '-' :: rest => (true, rest)
          | '+' :: rest => (false, rest)
          | rest => (false, rest)
        if digits.isEmpty || !digits.all Char.isDigit then none
        else some (if negative then -(plainDigits digits : Int) else plainDigits digits)
      else none

/-- The number of an unsigned text. -/
def unsignedNumber? (negative : Bool) (text : List Char) : Option Double :=
  let word := Text.lowerAscii (String.ofList text)
  if word == "nan" then some (Double.withSign negative Double.undefinedBits)
  else if word == "inf" || word == "infinity" then some (Double.withSign negative Double.infiniteBits)
  else
    let (whole, rest) := leadingDigits text
    let (fraction, rest) :=
      match rest with
      | '.' :: rest => leadingDigits rest
      | rest => ([], rest)
    if whole.isEmpty && fraction.isEmpty then none
    else
      (exponentValue? rest).map fun power =>
        Double.ofDecimal negative (plainDigits (whole ++ fraction)) (power - fraction.length)

/-- The number of a text: a sign, digits, a fraction and an exponent. -/
def signedNumber? : List Char → Option Double
  | '-' :: rest => unsignedNumber? true rest
  | '+' :: rest => unsignedNumber? false rest
  | rest => unsignedNumber? false rest

/--
The number of a text: with white space around it, or else without the underscores that group its
digits.
-/
def numberValue? (text : String) : Option Double :=
  (signedNumber? (unpadded text)).or
    ((withoutUnderscores? text.toList).bind signedNumber?)

/-- A number, a truth value as zero or one, or the text of a number; integers must not be too large. -/
def number : Json → Checked Double
  | .double x => .accepted x
  | .int n =>
      let x := Double.ofInt n
      if x.isFinite then .accepted x else .refuse .notNumber
  | .bool b => .accepted (Double.ofInt (if b then 1 else 0))
  | .str s =>
      match numberValue? s with
      | some x => .accepted x
      | none => .refuse .unreadableNumber
  | _ => .refuse .notNumber

/-- Limits of a number. -/
structure Bounds where
  most : Option Int := none
  least : Option Int := none
  above : Option Int := none

/-- An integer within bounds. -/
def integerWithin (bounds : Bounds) (value : Json) : Checked Int :=
  (integer value).bind fun n =>
    if bounds.most.any (· < n) then .refuse (.above (bounds.most.getD 0))
    else if bounds.least.any (n < ·) then .refuse (.below (bounds.least.getD 0))
    else if bounds.above.any (n ≤ ·) then .refuse (.notAbove (bounds.above.getD 0))
    else .accepted n

/-- A number within bounds; what is no number is outside every bound. -/
def numberWithin (bounds : Bounds) (value : Json) : Checked Double :=
  (number value).bind fun x =>
    if bounds.most.any fun most => !x.le (Double.ofInt most) then
      .refuse (.above (bounds.most.getD 0))
    else if bounds.least.any fun least => !(Double.ofInt least).le x then
      .refuse (.below (bounds.least.getD 0))
    else .accepted x

/-- The checks of the items of a list from a place on. -/
def itemsFrom (check : Nat → Json → Checked α) : Nat → List Json → Checked (List α)
  | _, [] => .accepted []
  | place, item :: rest =>
      List.cons <$> (check place item).within (.index place) <*> itemsFrom check (place + 1) rest

/-- A list of items, whose check may depend on their place. -/
def listAt (check : Nat → Json → Checked α) : Json → Checked (List α)
  | .arr items => itemsFrom check 0 items
  | _ => .refuse .notList

/-- A list of items. -/
def list (check : Json → Checked α) : Json → Checked (List α) :=
  listAt fun _ => check

/-- An object with any fields. -/
def object : Json → Checked (List (String × Json))
  | .obj fields => .accepted fields
  | _ => .refuse .notObject

/-- The fields of a record of the given name. -/
def record (name : String) (check : List (String × Json) → Checked α) : Json → Checked α
  | .obj fields => check fields
  | _ => .refuse (.notRecord name)

/-- The field given under the first of several names that is there, with that name. -/
def givenField? (names : List String) (fields : List (String × Json)) : Option (String × Json) :=
  names.findSome? fun name => (fields.lookup name).map (name, ·)

/-- A field that must be there, under one of several names. -/
def required (names : List String) (check : Json → Checked α) (fields : List (String × Json)) :
    Checked α :=
  match givenField? names fields with
  | some (name, value) => (check value).within (.key name)
  | none => .refused [⟨.missing, [.key (names.headD "")]⟩]

/-- A field that has a default, under one of several names. -/
def optional (names : List String) (default : α) (check : Json → Checked α)
    (fields : List (String × Json)) : Checked α :=
  match givenField? names fields with
  | some (name, value) => (check value).within (.key name)
  | none => .accepted default

/-- Refuse every field that none of the expected ones was read from. -/
def noOthers (expected : List (List String)) (fields : List (String × Json)) : Checked Unit :=
  let read := expected.filterMap fun names => (givenField? names fields).map Prod.fst
  let others := (fields.map Prod.fst).filter (!read.contains ·)
  if others.isEmpty then .accepted ()
  else .refused (others.map fun name => ⟨.notPermitted, [.key name]⟩)

end Schema

end ComponentBuilder
