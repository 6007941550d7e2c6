import ComponentBuilder.Json.Reader
import ComponentBuilder.Json.Damaged.Filler

/-!
# Strings of damaged texts

Quotes may be missing, doubled, of the wrong kind, or part of a string without being escaped.  The
reader looks ahead for the next quote, colon, comma or brace to decide whether a character ends a
string or belongs to it.
-/

namespace ComponentBuilder

namespace Json

namespace Damaged

/-- How a string began. -/
structure Opening where
  /-- No quote stood in front of it. -/
  bare : Bool
  /-- The quote that begins a string. -/
  left : Char
  /-- The quote that ends it. -/
  right : Char
  /-- Two quotes stood in front of it. -/
  doubled : Bool

/-! ## Where strings end -/

/--
Whether a comma or brace, which the text begins with, ends the value of a field because its closing
quote is missing.
-/
def quoteIsMissing (opening : Opening) (seen rest : List Char) : Bool :=
  match seek [opening.right] rest with
  | _ :: after =>
      let next := skipBlanks after
      if rest.head? == some '\\' || next.isEmpty || startsWith [',', '}'] next then false
      else
        match seek [opening.left] next with
        | [] => false
        | _ :: name => (skipBlanks name).head?.all (· == ':')
  | [] =>
      if !(seek [':'] rest).isEmpty then true
      else
        let next := skipBlanks rest
        let brace := seek ['}'] next
        if rest.head? == some '\\' || brace.length < next.length then false
        else brace.isEmpty || !seen.contains '{'

/-- Whether a text begins with a name without quotes and a colon. -/
def beginsName (text : List Char) : Bool :=
  let name := skipBlanks text
  let isPart (c : Char) : Bool := Text.isAlphanumeric c || c == '_' || c == '-'
  name.head?.any (fun c => Text.isLetter c || c == '_') &&
    startsWith [':'] (skipBlanks (name.dropWhile isPart))

/-- Whether nothing but a fence may follow the brace that ends an object. -/
def closesAll (rest : List Char) : Bool :=
  let next := skipBlanks rest
  next.isEmpty || ['`', '`', '`'].isPrefixOf next

/-- Whether a bracket, before which a list is open, ends a string because its quote is missing. -/
def bracketEnds (opening : Opening) (rest : List Char) : Bool :=
  (seek [opening.right] rest).isEmpty

/-- Whether a colon ends the name of a field because its closing quote is missing. -/
def colonEnds (opening : Opening) (rest : List Char) : Bool :=
  match seek [opening.left] rest with
  | [] => true
  | _ :: name =>
      match seek [opening.right] name with
      | [] => false
      | _ :: after => startsWith [',', '}'] (skipBlanks after)

/-- What a closing quote turns out to be. -/
inductive Closing where
  /-- The end of the string. -/
  | ends
  /-- The beginning of the next name, before which the string ended. -/
  | nextName
  /-- The first of two closing quotes. -/
  | doubled
  /-- A part of the string. -/
  | inside
  /-- A part of the string, the first of a pair. -/
  | insidePair
deriving DecidableEq, Repr

/-- The text from the first character on that may end what follows a closing quote. -/
def afterQuote (opening : Opening) (context : Context) (commaCounts : Bool) :
    List Char → List Char
  | [] => []
  | c :: rest =>
      let commaCounts := commaCounts && !Text.isLetter c
      if c == opening.right || c == opening.left then c :: rest
      else if (context.contains .key && (c == ':' || c == '}')) ||
          (context.contains .value && c == '}') ||
          (context.contains .item && (c == ']' || c == ',')) ||
          (commaCounts && context.head? == some .value && c == ',') then c :: rest
      else afterQuote opening context commaCounts rest

/-- The text from the first character on that decides whether a colon follows a quote. -/
def untilColon (right : Char) (before : Char) : List Char → List Char
  | [] => []
  | c :: rest =>
      if c == ':' || c == ',' || c == ']' || c == '}' || (c == right && before != '\\') then c :: rest
      else untilColon right c rest

/--
Whether the quotes that follow up to a closing bracket come in pairs; `fuel` is at least the length
of the text.
-/
def pairedQuotes (right : Char) : Nat → List Char → Bool
  | 0, _ => true
  | fuel + 1, text =>
      match seek [right, ']'] text with
      | [] => false
      | c :: rest =>
          if c != right then false
          else
            match seek [right, ']'] rest with
            | [] => true
            | d :: rest => if d == right then pairedQuotes right fuel rest else true

/-- What a quote with the text `after` it is, when the next quote stands before any mark. -/
def betweenQuotes (opening : Opening) (context : Context) (after next : List Char) : Closing :=
  let gap := after.take (after.length - next.length)
  if Text.isAllBlank gap || gap.getLast? == some '\\' then .ends
  else
    match context.head? with
    | some .value =>
        let tail := skipBlanks next.tail
        let name := seek [opening.right] ((seek [opening.left] tail.tail).drop 2)
        let beyond := skipBlanks name.tail
        if startsWith [','] tail && startsWith [':'] beyond then .inside
        else
          let following := seek [opening.right] (if startsWith [','] tail then beyond else tail).tail
          if startsWith [':'] (untilColon opening.right opening.right following.tail) then .ends
          else .insidePair
    | some .item =>
        if pairedQuotes opening.right next.length next.tail then .insidePair else .ends
    | some .key => .inside
    | none => .ends

/-- What a closing quote with the text `after` it is. -/
def closing (opening : Opening) (context : Context) (unmatched : Bool) (after : List Char) :
    Closing :=
  if opening.doubled && startsWith [opening.right] after then .doubled
  else if opening.bare && context.head? == some .value then
    match after.dropWhile fun c => c != opening.right && c != opening.left with
    | _ :: tail => if startsWith [':'] (skipBlanks tail) then .nextName else .ends
    | [] => .ends
  else if unmatched then .insidePair
  else
    match afterQuote opening context true after with
    | [] => .ends
    | c :: rest =>
        if c == ',' && context.head? == some .value then
          let quote := seek [opening.right] rest
          if startsWith ['}', ','] (skipBlanks quote.tail) then .inside else .ends
        else if c == opening.right then betweenQuotes opening context after (c :: rest)
        else .ends

/-! ## Strings -/

/-- The character that an escape stands for. -/
def escaped (c : Char) : Char :=
  if c == 't' then '\t' else if c == 'n' then '\n' else if c == 'r' then '\r'
  else if c == 'b' then '\x08' else c

/-- The character of an escape by code point, with the text after its digits. -/
def codePoint? (width : Nat) (text : List Char) : Option (Char × List Char) :=
  let digits := text.take width
  if digits.length == width && digits.all fun c => (Reader.hexValue? c).isSome then
    let n := digits.foldl (fun n c => n * 16 + (Reader.hexValue? c).getD 0) 0
    some (Char.ofNat n, text.drop width)
  else none

/--
The character that an escape of a backslash stands for: a run of backslashes is one, and a quote
behind it takes its place.
-/
def escapedBackslash (right : Char) (text : List Char) : Char × List Char :=
  match text.dropWhile (· == '\\') with
  | c :: rest => if c == right then (c, rest) else ('\\', c :: rest)
  | [] => ('\\', [])

/-- The text after a backslash that was read last, with the character it stands for, if any. -/
def escape? (right : Char) : List Char → Option (Char × List Char)
  | [] => none
  | c :: rest =>
      if c == '\\' then some (escapedBackslash right rest)
      else if c == right || c == 't' || c == 'n' || c == 'r' || c == 'b' then some (escaped c, rest)
      else if c == 'u' then (Reader.unicodeEscape? rest).or (codePoint? 4 rest)
      else if c == 'x' then codePoint? 2 rest
      else if quotes.contains c then some (c, rest)
      else none

/-- Whether a string ends in front of the character `c`, before its closing quote. -/
def endsBefore (opening : Opening) (context : Context) (seen : List Char) (c : Char)
    (rest : List Char) : Bool :=
  (opening.bare && context.head? == some .key && (c == ':' || Text.isBlank c)) ||
  (opening.bare && context.head? == some .item && (c == ']' || c == ',')) ||
  (opening.bare && context.head? == some .value && c == ',' && beginsName rest) ||
  (context.head? == some .value && (c == ',' || c == '}') && seen.head? != some opening.right &&
    quoteIsMissing opening seen rest) ||
  (context.head? == some .value && c == '}' && closesAll rest) ||
  (c == ']' && context.contains .item && seen.head? != some opening.right &&
    bracketEnds opening rest)

/--
The characters of a string, latest first, and the text from where it ends: its closing quote, or a
character in front of which it ended.
-/
def stringFrom (opening : Opening) (context : Context) :
    Nat → Bool → List Char → List Char → List Char × List Char
  | 0, _, seen, text => (seen, text)
  | _ + 1, _, seen, [] => (seen, [])
  | fuel + 1, unmatched, seen, c :: rest =>
      if c == opening.right then (seen, c :: rest)
      else if endsBefore opening context seen c rest then (seen, c :: rest)
      else
        match (if c == '\\' then escape? opening.right rest else none) with
        | some (d, rest) => stringFrom opening context fuel unmatched (d :: seen) rest
        | none =>
            match rest with
            | [] => (c :: seen, [])
            | next :: after =>
                if next == ':' && !opening.bare && context.head? == some .key &&
                    colonEnds opening after then (c :: seen, rest)
                else if next == opening.right && c != '\\' then
                  match closing opening context unmatched after with
                  | .ends => (c :: seen, rest)
                  | .nextName => (c :: seen, c :: rest)
                  | .doubled => (c :: seen, after)
                  | .inside => stringFrom opening context fuel unmatched (next :: c :: seen) after
                  | .insidePair =>
                      stringFrom opening context fuel (!unmatched) (next :: c :: seen) after
                else stringFrom opening context fuel unmatched (c :: seen) rest

/-- Drop blanks from the front of reversed characters. -/
def dropBlanks (seen : List Char) : List Char :=
  seen.dropWhile Text.isBlank

/-- A string after its beginning; a quote that stood there and belongs to it is `kept`. -/
def stringBody (opening : Opening) (context : Context) (text : List Char)
    (kept : List Char := []) : String × List Char :=
  let (seen, rest) := stringFrom opening context (text.length + 1) (!kept.isEmpty) kept text
  let afterName := skipBlanks rest
  if opening.bare && context.head? == some .key && rest.head?.any Text.isBlank &&
      !startsWith [':', ','] afterName then ("", afterName)
  else
    let closed := startsWith [opening.right] rest
    let seen :=
      if !closed || opening.bare || seen.head? == some '\n' then dropBlanks seen else seen
    (String.ofList seen.reverse, if closed then rest.tail else rest)

/-- Whether the next quote of a text ends a string, or none does. -/
def endsFirst (opening : Opening) (context : Context) (text : List Char) : Bool :=
  match seek [opening.right] text with
  | [] => true
  | _ :: after =>
      let next := skipBlanks after
      match context.head? with
      | some .key => startsWith [':'] next
      | some .value => next.isEmpty || startsWith [',', '}'] next
      | some .item => startsWith [',', ']'] next
      | none => true

/-- A quoted string after its first quote, which may be the first of two. -/
def quotedString (opening : Opening) (context : Context) (text : List Char) :
    String × List Char :=
  match text with
  | c :: rest =>
      if c != opening.left || !quotes.contains c then stringBody opening context text
      else if (context.head? == some .key && startsWith [':'] rest) ||
          (context.head? == some .value && startsWith [',', '}'] rest) ||
          (context.head? == some .item && startsWith [',', ']'] rest) then ("", rest)
      else if startsWith [opening.left] rest then ("", text)
      else if startsWith [opening.right] (seek [opening.right] rest).tail then
        stringBody { opening with doubled := true } context rest
      else
        let next := skipBlanks rest
        if startsWith (quotes ++ ['{', '[']) next then ("", rest)
        else if startsWith [',', ']', '}'] next then stringBody opening context text
        else if endsFirst opening context rest then stringBody opening context rest
        else stringBody opening context rest [c]
  | [] => stringBody opening context []

end Damaged

end Json

end ComponentBuilder
