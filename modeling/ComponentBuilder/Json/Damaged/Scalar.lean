import ComponentBuilder.Json.Damaged.Quotation

/-!
# Words and numbers of damaged texts

Truth values and null in any case, numbers, and strings with or without quotes.  What only begins like
a word or a number is a string.
-/

namespace ComponentBuilder

namespace Json

namespace Damaged

/-! ## Words -/

/-- Whether a word may end in front of a text. -/
def endsWord (rest : List Char) : Bool :=
  rest.isEmpty || rest.head?.any Text.isBlank || startsWith [',', ']', '}', ':'] rest ||
    beginsComment rest

/-- The value of a word for a truth value or null in front, in any case, and the text after it. -/
def word? (text : List Char) : Option (Json × List Char) :=
  ([("true", .bool true), ("false", .bool false), ("null", .null), ("none", .null)].find? fun word =>
    Text.lowerAscii (String.ofList (text.take word.1.length)) == word.1 &&
      endsWord (text.drop word.1.length)).map fun word => (word.2, text.drop word.1.length)

/-- A string, or a word, which a text is read as inside a container. -/
def string (context : Context) (text : List Char) : Json × List Char :=
  if startsWith ['#', '/'] text then (.str "", skipComment context text)
  else
    let quoted (left right : Char) (rest : List Char) : Json × List Char :=
      let (s, rest) := quotedString ⟨false, left, right, false⟩ context rest
      (.str s, rest)
    match text.dropWhile fun c => !quotes.contains c && !Text.isAlphanumeric c with
    | [] => (.str "", [])
    | c :: rest =>
        if c == '\'' then quoted '\'' '\'' rest
        else if c == '\u201c' then quoted '\u201c' '\u201d' rest
        else if quotes.contains c then quoted '"' '"' rest
        else
          match (if context.head? == some .key then none else word? (c :: rest)) with
          | some found => found
          | none =>
              let (s, rest) := stringBody ⟨true, '"', '"', false⟩ context (c :: rest)
              (.str s, rest)

/-! ## Numbers -/

/-- A character that may occur in a number. -/
def isNumberChar (c : Char) : Bool :=
  c.isDigit || ['-', '.', 'e', 'E', '/', ',', '_'].contains c

/-- The value of a text of number characters; one that is no number, or too long, stays a text. -/
def numberOf (text : List Char) : Json :=
  let digits := text.filter (· != '_')
  let whole := if startsWith ['-'] digits then digits.tail else digits
  if !whole.isEmpty && whole.all Char.isDigit then
    let n : Int := whole.foldl (fun n c => n * 10 + (c.toNat - 48)) 0
    if maxDigits < whole.length then .str (String.ofList digits)
    else .int (if startsWith ['-'] digits then -n else n)
  else
    let pointed := whole.dropWhile Char.isDigit
    let places := if startsWith ['.'] pointed then pointed.tail.takeWhile Char.isDigit else []
    let tail := if startsWith ['.'] pointed then pointed.tail.dropWhile Char.isDigit else pointed
    let front := whole.takeWhile Char.isDigit
    let value := (front ++ places).foldl (fun n c => n * 10 + (c.toNat - 48)) 0
    match (if (front ++ places).isEmpty then none else Reader.exponent? tail) with
    | some (power, _, []) =>
        .double (Double.ofDecimal (startsWith ['-'] digits) value (power - places.length))
    | _ => .str (String.ofList digits)

/-- A number, or the text that a number turns out to be the front of. -/
def number (context : Context) (text : List Char) : Json × List Char :=
  let (front, rest) := Text.spanWhile
    (fun c => isNumberChar c && (context.head? != some .item || c != ',')) text
  if rest.head?.any Text.isLetter then string context (text.drop (front.count '_'))
  else if front.getLast?.any ['-', 'e', 'E', '/', ','].contains then
    (numberOf front.dropLast, front.getLast?.toList ++ rest)
  else (numberOf front, rest)

end Damaged

end Json

end ComponentBuilder
