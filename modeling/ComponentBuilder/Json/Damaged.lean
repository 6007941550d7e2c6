import ComponentBuilder.Json.Display
import ComponentBuilder.Json.Damaged.Scalar

/-!
# Reading damaged JSON

A lenient reader for objects as language models write them: commas, quotes and brackets may be missing
or doubled, comments may stand between tokens, and words may be left unquoted.  It never refuses a
text for its form; it gives up only on containers that nest too deep.
-/

namespace ComponentBuilder

namespace Json

namespace Damaged

/-! ## Values -/

/-- An empty text, array or object. -/
def isHollow : Json → Bool
  | .str s => s.isEmpty
  | .arr items => items.isEmpty
  | .obj fields => fields.isEmpty
  | _ => false

/-- Whether an item that ends before `rest` is nothing but dots without quotes. -/
def isEllipsis (text rest : List Char) : Bool :=
  text.take (text.length - rest.length) == ['.', '.', '.']

/-- Whether a text in an array is the name of a field, so that an object's brace is missing. -/
def namesField (text : List Char) : Bool :=
  match text with
  | quote :: rest => startsWith [':'] (skipBlanks (seek [quote] rest).tail)
  | [] => false

/-- The name of a field: the first text that is not empty, or an empty one before a colon or brace. -/
def fieldName (context : Context) : Nat → List Char → String × List Char × List Char
  | 0, text => ("", text, text)
  | fuel + 1, text =>
      if text.isEmpty || startsWith ['}'] text then ("", text, text)
      else
        let (key, rest) := string context text
        let name := key.displayText
        if name.isEmpty then
          let rest := skipFiller context rest
          if startsWith [':', '}'] rest then ("", text, rest) else fieldName context fuel rest
        else (name, text, rest)

/-- The text of the next field, without a colon that stands before it. -/
def beforeName (context : Context) (text : List Char) : List Char :=
  let next := skipFiller context text
  if startsWith [':'] next then next.tail else next

/-- The text after a value in an object, without the comma or a quote too many. -/
def withoutMark (text : List Char) : List Char :=
  if startsWith [',', '\'', '"'] text then text.tail else text

/-- Whether a comma and then a quoted text follow, as between two fields in order. -/
def leadsToQuote (text : List Char) : Bool :=
  match text with
  | ',' :: rest => startsWith quotes (skipBlanks rest)
  | _ => false

/-- The text after an item of an array, without blanks, comments and commas. -/
def afterItem (context : Context) (text : List Char) : List Char :=
  skipIdle context (· == ',') (text.length + 1) text

/-- The text after an array that continues another, without blanks, comments and a comma. -/
def afterRows (context : Context) (text : List Char) : List Char :=
  let rest := skipFiller context text
  skipFiller context (if startsWith [','] rest then rest.tail else rest)

/-- What a nested object takes of the budget for nesting. -/
def objectWeight : Nat := 4

/-- What a nested array takes of the budget for nesting. -/
def arrayWeight : Nat := 3

/-- The array in a last field, which another array may continue. -/
def lastArray? (found : Keyed Json) : Option (String × List Json) :=
  match found.entries.getLast? with
  | some (name, .arr items) => some (name, items)
  | _ => none

/-- The common length of the arrays among some items, when they have one and it is not zero. -/
def rowLength? (items : List Json) : Option Nat :=
  match items.filterMap fun item => match item with
      | .arr row => some row.length
      | _ => none with
  | [] => none
  | length :: lengths => if length != 0 && lengths.all (· == length) then some length else none

/-- Items in rows of a length, which divides their number; `fuel` is at least the number of rows. -/
def rows (length : Nat) : Nat → List Json → List Json
  | 0, _ => []
  | _ + 1, [] => []
  | fuel + 1, items => .arr (items.take length) :: rows length fuel (items.drop length)

/-- Items of which those after the last array are put into rows of a length, if they fill them. -/
def inRows (length : Nat) (items : List Json) : List Json :=
  let isRow (item : Json) : Bool := match item with
    | .arr _ => true
    | _ => false
  let loose := (items.reverse.takeWhile (!isRow ·)).reverse
  if loose.length % length != 0 then items
  else (items.reverse.dropWhile (!isRow ·)).reverse ++ rows length loose.length loose

/--
The items of an array that another one continues.  To a table whose rows have one length more rows are
added, and to any other array items; an array that holds only an array adds the inner one.
-/
def continued (items more : List Json) : List Json :=
  match rowLength? items with
  | some length =>
      let isTable := more.all fun item => match item with
        | .arr _ => true
        | _ => false
      inRows length items ++ (if isTable then more else [.arr more])
  | none =>
      items ++ match more with
        | [.arr inner] => inner
        | more => more

mutual

/-- The next value of a text; what can begin no value is passed over. -/
def value (context : Context) : Nat → Nat → List Char → Option (Json × List Char)
  | 0, _, _ => none
  | _ + 1, _, [] => some (.str "", [])
  | fuel + 1, budget, c :: rest =>
      if c == '{' then
        if budget < objectWeight then none else object context fuel (budget - objectWeight) rest
      else if c == '[' then
        if budget < arrayWeight then none else array context fuel (budget - arrayWeight) rest
      else if c == '}' && context.head? == some .value then some (.str "", c :: rest)
      else if !context.isEmpty && (quotes.contains c || Text.isLetter c) then
        some (string context (c :: rest))
      else if !context.isEmpty && (c.isDigit || c == '-' || c == '.') then
        some (number context (c :: rest))
      else if c == '#' || c == '/' then
        if context.isEmpty then value context fuel budget (skipComment context (c :: rest))
        else some (.str "", skipComment context (c :: rest))
      else value context fuel budget rest

/--
An object after its opening brace.  One without fields is the array of the items in it, and stays an
empty object where there are none.
-/
def object (context : Context) : Nat → Nat → List Char → Option (Json × List Char)
  | 0, _, _ => none
  | fuel + 1, budget, text =>
      match fields context fuel budget false .empty text with
      | none => none
      | some (found, rest) =>
          if found.entries.isEmpty && 2 < text.length + 1 - rest.length then
            if budget < arrayWeight then none
            else
              match array context fuel (budget - arrayWeight) text with
              | some (.arr [], _) => afterObject context fuel budget found rest.tail
              | read => read
          else afterObject context fuel budget found rest.tail

/-- An object and what belongs to it after its closing brace: a brace too many, or more fields. -/
def afterObject (context : Context) :
    Nat → Nat → Keyed Json → List Char → Option (Json × List Char)
  | 0, _, _, _ => none
  | fuel + 1, budget, found, rest =>
      if context.head? == some .item && startsWith ['}'] rest then
        some (.obj found.entries, rest.tail)
      else if !context.isEmpty then some (.obj found.entries, rest)
      else
        let next := skipBlanks rest
        if startsWith [','] next && startsWith quotes (skipBlanks next.tail) then
          match object context fuel budget (skipBlanks next.tail) with
          | some (.obj more, rest) =>
              some (.obj (more.foldl (fun m field => m.set field.1 field.2) found).entries, rest)
          | some (_, rest) => some (.obj found.entries, rest)
          | none => none
        else some (.obj found.entries, next)

/--
The fields of an object after those found so far, and the text from its closing brace on, which is put
in where it is missing.  Whatever stands in the place of a colon counts as one.

Inside an array a name that repeats an earlier one begins another object, because a brace is likely
missing in front of it.  A field in order replaces the earlier one instead: its name is quoted,
`parted` says that only a comma and blanks stand in front of it, and a colon follows.
-/
def fields (context : Context) :
    Nat → Nat → Bool → Keyed Json → List Char → Option (Keyed Json × List Char)
  | 0, _, _, _, _ => none
  | fuel + 1, budget, parted, found, text =>
      match text with
      | [] => some (found, [])
      | c :: rest =>
          if c == '}' then some (found, c :: rest)
          else
            match beforeName context (c :: rest), lastArray? found with
            | '[' :: rest, some (last, items) =>
                match array (.key :: context) fuel budget rest with
                | none => none
                | some (more, rest) =>
                    fields context fuel budget (leadsToQuote (skipFiller context rest))
                      (found.set last (.arr (continued items more.items))) (afterRows context rest)
            | text, _ =>
                let (name, start, rest) := fieldName (.key :: context) text.length text
                let inOrder :=
                  parted && start.length == text.length && startsWith [':'] (skipBlanks rest)
                let rest := skipFiller (.key :: context) rest
                if context.contains .item && found.contains name && !inOrder then
                  some (found, '}' :: '{' :: start)
                else if rest.isEmpty || startsWith ['}'] rest then
                  fields context fuel budget false found rest
                else
                  match fieldValue context fuel budget (skipFiller (.value :: context) rest.tail) with
                  | none => none
                  | some (v, rest) =>
                      let next := withoutMark rest
                      if startsWith [']'] next && context.contains .item then
                        some (found.set name v, '}' :: next)
                      else
                        fields context fuel budget (leadsToQuote rest) (found.set name v)
                          (skipFiller context next)

/-- The value of a field, which may be missing, and the text from the mark after it on. -/
def fieldValue (context : Context) : Nat → Nat → List Char → Option (Json × List Char)
  | 0, _, _ => none
  | fuel + 1, budget, text =>
      if startsWith [',', '}'] text then some (.str "", text)
      else value (.value :: context) fuel budget text

/-- An array after its opening bracket. -/
def array (context : Context) : Nat → Nat → List Char → Option (Json × List Char)
  | 0, _, _ => none
  | fuel + 1, budget, text =>
      let inner := .item :: context
      match items inner fuel budget [] (skipFiller inner text) with
      | none => none
      | some (found, rest) => some (.arr found.reverse, rest.tail)

/-- The items of an array up to a closing bracket or brace, those found so far in reverse. -/
def items (context : Context) :
    Nat → Nat → List Json → List Char → Option (List Json × List Char)
  | 0, _, _, _ => none
  | fuel + 1, budget, found, text =>
      if text.isEmpty || startsWith [']', '}'] text then some (found, text)
      else
        let next :=
          if startsWith quotes text then
            if namesField text then object context fuel budget text
            else some (string context text)
          else value context fuel budget text
        match next with
        | none => none
        | some (v, rest) =>
            if isHollow v && !startsWith [']', ','] rest then
              items context fuel budget found (afterItem context rest.tail)
            else if isEllipsis text rest then
              items context fuel budget found (afterItem context rest)
            else items context fuel budget (v :: found) (afterItem context rest)

end

/-! ## Several values -/

mutual

/-- Whether two values have the same kinds of parts under the same names. -/
def alike : Json → Json → Bool
  | .null, .null => true
  | .bool _, .bool _ => true
  | .int _, .int _ => true
  | .double _, .double _ => true
  | .str _, .str _ => true
  | .arr a, .arr b => alikeItems a b
  | .obj a, .obj b => a.length == b.length && alikeFields a b
  | _, _ => false

/-- Whether two arrays have parts of the same kinds. -/
def alikeItems : List Json → List Json → Bool
  | [], [] => true
  | a :: as, b :: bs => alike a b && alikeItems as bs
  | _, _ => false

/-- Whether every field has a counterpart of its kind among other fields. -/
def alikeFields : List (String × Json) → List (String × Json) → Bool
  | [], _ => true
  | (name, a) :: as, others =>
      (match others.lookup name with
        | some b => alike a b
        | none => false) && alikeFields as others

end

/-- Whether a comma and another container follow, as in an array whose brackets are missing. -/
def isListed (text : List Char) : Bool :=
  match skipFiller [] text with
  | ',' :: rest => startsWith ['{', '['] (skipFiller [] rest)
  | _ => false

/--
The values that follow the first one, latest first: a value that looks like the one before it takes
its place, unless a comma parts the two, and so does any value that follows an empty one.
-/
def valuesFrom (budget : Nat) : Nat → Bool → List Json → List Char → Option (List Json)
  | 0, _, found, _ => some found
  | fuel + 1, parted, found, text =>
      match text with
      | [] => some found
      | _ =>
          match value [] (8 * text.length + 16) budget text with
          | none => none
          | some (v, rest) =>
              let listed := isListed rest
              if isHollow v then valuesFrom budget fuel (parted || listed) found rest.tail
              else
                let kept :=
                  match found with
                  | last :: earlier =>
                      if (alike last v && !parted) || isHollow last then earlier else found
                  | [] => []
                valuesFrom budget fuel listed (v :: kept) rest

/-- The budget for nesting in a damaged text. -/
def maxNesting : Nat := 970

/-- What a damaged text stands for: its value, or an array of its values. -/
def read? (text : List Char) : Option Json :=
  match value [] (8 * text.length + 16) maxNesting text with
  | none => none
  | some (first, rest) =>
      (valuesFrom maxNesting (rest.length + 1) (isListed rest) [first] rest).map fun found =>
        match found with
        | [only] => only
        | found => .arr found.reverse

end Damaged

end Json

end ComponentBuilder
