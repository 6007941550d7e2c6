import ComponentBuilder.Markup.Scan
import ComponentBuilder.Markup.Tree

/-!
# Reading the attributes of a tag

The text between a tag's name and its end is a list of items: spreads, names with or without a value,
and tokens that are no names and stand for themselves.  A later item with the name of an earlier one
replaces its value.
-/

namespace ComponentBuilder

namespace Markup

open Text

namespace AttributeList

/-- A character of an attribute's name. -/
def isNameChar (c : Char) : Bool :=
  isWord c || c == '-' || c == ':' || c == '.' || c == '$'

/-- What is left to read of a list of attributes, with its offset in the list. -/
structure Rest where
  offset : Nat
  text : List Char

/-- The rest after blanks. -/
def Rest.trim (rest : Rest) : Rest :=
  let (blanks, text) := spanWhile isBlank rest.text
  ⟨rest.offset + blanks.length, text⟩

/-- The longest front of the rest whose characters pass `keep`, and what is left. -/
def Rest.span (rest : Rest) (keep : Char → Bool) : List Char × Rest :=
  let (front, text) := spanWhile keep rest.text
  (front, ⟨rest.offset + front.length, text⟩)

/-- The braced expression in front, and what is left. -/
def Rest.expression (rest : Rest) : Except ParseError (List Char × Rest) :=
  match Scan.expression rest.offset rest.text with
  | .error e => .error e
  | .ok (source, text) => .ok (source, ⟨rest.offset + source.length, text⟩)

/-- An entry and the rest after it. -/
abbrev Step := Except ParseError ((String × AttributeValue) × Rest)

/-- The value of the named attribute, read from the first character after the equals sign on. -/
def readValue (name : String) (rest : Rest) : Step :=
  let rest := rest.trim
  match rest.text with
  | [] => .error ⟨.attributeWithoutValue name, none⟩
  | c :: _ =>
      if Scan.isTagQuote c then
        let (value, after) := (⟨rest.offset + 1, rest.text.tail⟩ : Rest).span (· != c)
        if after.text.isEmpty then .error ⟨.unterminatedValue name, some rest.offset⟩
        else .ok ((name, .text (String.ofList value)), ⟨after.offset + 1, after.text.tail⟩)
      else if c == '{' then
        match rest.expression with
        | .error e => .error e
        | .ok (source, after) => .ok ((name, .expression (String.ofList source)), after)
      else
        let (value, after) := rest.span (!isBlank ·)
        .ok ((name, .text (String.ofList value)), after)

/-- The item in front, which does not begin with a blank. -/
def readItem (rest : Rest) : Step :=
  if rest.text.head? == some '{' then
    match rest.expression with
    | .error e => .error e
    | .ok (source, after) => .ok ((String.ofList source, .flag true), after)
  else
    let (name, after) := rest.span isNameChar
    if name.isEmpty then
      let (token, after) := rest.span (!isBlank ·)
      .ok ((String.ofList token, .flag true), after)
    else
      let value := after.trim
      if value.text.head? == some '=' then
        readValue (String.ofList name) ⟨value.offset + 1, value.text.tail⟩
      else
        .ok ((String.ofList name, .flag true), after)

/-- Read items until nothing but blanks is left; every item takes one unit of `fuel`. -/
def readFuel : Nat → Attributes → Rest → Except ParseError Attributes
  | 0, attributes, _ => .ok attributes
  | fuel + 1, attributes, rest =>
      let rest := rest.trim
      if rest.text.isEmpty then .ok attributes
      else
        match readItem rest with
        | .error e => .error e
        | .ok (entry, after) => readFuel fuel (attributes.set entry.1 entry.2) after

/-- The attributes a text lists. -/
def read (text : List Char) : Except ParseError Attributes :=
  readFuel (text.length + 1) .empty ⟨0, text⟩

end AttributeList

end Markup

end ComponentBuilder
