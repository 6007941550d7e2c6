import ComponentBuilder.Json.Printer
import ComponentBuilder.Text.Basic

/-!
# Values in running text

How a value reads inside a message or a plan: a string as it is, everything else in a notation with
the words `None`, `True` and `False`.  Strings inside arrays and objects are quoted, with single
quotes unless only those occur in them.
-/

namespace ComponentBuilder

namespace Json

/-- The last `width` hexadecimal digits of a number. -/
def hexDigits : Nat → Nat → List Char
  | 0, _ => []
  | width + 1, n => hexDigits width (n / 16) ++ [hexDigit (n % 16)]

/-- The escape of a character by its code point, as short as the code point allows. -/
def codeEscape (n : Nat) : List Char :=
  if n < 0x100 then '\\' :: 'x' :: hexDigits 2 n
  else if n < 0x10000 then '\\' :: 'u' :: hexDigits 4 n
  else '\\' :: 'U' :: hexDigits 8 n

/-- A character between the given quotes. -/
def quotedChar (mark c : Char) : List Char :=
  if c = mark || c = '\\' then ['\\', c]
  else if c = '\n' then ['\\', 'n']
  else if c = '\r' then ['\\', 'r']
  else if c = '\t' then ['\\', 't']
  else if Text.isPrintable c then [c]
  else codeEscape c.toNat

/-- The quote for a string: single, or double when the string holds only single ones. -/
def quoteMark (s : List Char) : Char :=
  if s.contains '\'' && !s.contains '"' then '"' else '\''

/-- A quoted string. -/
def quotedText (s : List Char) : List Char :=
  let mark := quoteMark s
  mark :: (s.flatMap (quotedChar mark) ++ [mark])

mutual

/-- The notation of a value. -/
def notated : Json → List Char
  | .null => "None".toList
  | .bool true => "True".toList
  | .bool false => "False".toList
  | .int n => (toString n).toList
  | .double x => x.displayText.toList
  | .str s => quotedText s.toList
  | .torn => quotedText ['\ufffd']
  | .arr [] => ['[', ']']
  | .arr (item :: items) => '[' :: (notated item ++ notatedItems items ++ [']'])
  | .obj [] => ['{', '}']
  | .obj ((name, value) :: fields) =>
      '{' :: (quotedText name.toList ++ [':', ' '] ++ notated value ++ notatedFields fields ++ ['}'])

/-- The notation of the items after the first. -/
def notatedItems : List Json → List Char
  | [] => []
  | item :: items => ',' :: ' ' :: (notated item ++ notatedItems items)

/-- The notation of the fields after the first. -/
def notatedFields : List (String × Json) → List Char
  | [] => []
  | (name, value) :: fields =>
      ',' :: ' ' :: (quotedText name.toList ++ [':', ' '] ++ notated value ++ notatedFields fields)

end

/-- The word for the kind of a value. -/
def kindWord : Json → String
  | .null => "NoneType"
  | .bool _ => "bool"
  | .int _ => "int"
  | .double _ => "float"
  | .str _ => "str"
  | .torn => "str"
  | .arr _ => "list"
  | .obj _ => "dict"

/-- A value in running text. -/
def displayText : Json → String
  | .str s => s
  | .torn => "\ufffd"
  | value => String.ofList (notated value)

/-- The refusal of a text that names no member of a kind. -/
def unknownMember (text kind : String) : String :=
  String.ofList (quotedText text.toList) ++ " is not a valid " ++ kind

end Json

end ComponentBuilder
