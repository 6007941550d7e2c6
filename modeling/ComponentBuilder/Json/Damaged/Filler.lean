import ComponentBuilder.Text.Basic

/-!
# What stands between tokens

Blanks and comments of a damaged text, and the search for a mark that is not escaped.  How far a line
comment reaches depends on its place: it ends before a character that ends a container around it.
-/

namespace ComponentBuilder

namespace Json

namespace Damaged

/-- What a piece of text is read as. -/
inductive Role where
  | key
  | value
  | item
deriving DecidableEq, Repr

/-- The roles of the containers around a place, the innermost first. -/
abbrev Context := List Role

/-- The quotes a string may begin with. -/
def quotes : List Char := ['"', '\'', '\u201c', '\u201d']

/-- Drop blanks in front. -/
def skipBlanks (text : List Char) : List Char :=
  Text.trimStart text

/--
The text from the first of the given characters on that is not escaped; `escaped` tells whether an odd
number of backslashes stands in front of the text.
-/
def seekFrom (marks : List Char) : Bool → List Char → List Char
  | _, [] => []
  | escaped, c :: rest =>
      if c == '\\' then seekFrom marks (!escaped) rest
      else if marks.contains c && !escaped then c :: rest
      else seekFrom marks false rest

/-- The text from the first of the given characters on; an escaped one does not count. -/
def seek (marks : List Char) (text : List Char) : List Char :=
  seekFrom marks false text

/-- Whether a text begins with one of the given characters. -/
def startsWith (marks : List Char) (text : List Char) : Bool :=
  text.head?.any marks.contains

/-! ## Comments -/

/-- The text after a line comment: up to its line's end, or to a character that ends a container. -/
def skipLineComment (context : Context) (text : List Char) : List Char :=
  text.dropWhile fun c =>
    !(c == '\n' || c == '\r' || (c == ']' && context.contains .item) ||
      (c == '}' && context.contains .value) || (c == ':' && context.contains .key))

/-- The text after a comment, or after the character that could have begun one. -/
def skipComment (context : Context) : List Char → List Char
  | '/' :: '*' :: '/' :: rest => rest
  | '/' :: '*' :: rest =>
      match Text.find? ['*', '/'] rest with
      | some (_, tail) => tail.drop 2
      | none => []
  | '/' :: '/' :: rest => skipLineComment context rest
  | '/' :: rest => rest
  | text => skipLineComment context text

/-- Whether a text begins with a comment. -/
def beginsComment : List Char → Bool
  | '#' :: _ => true
  | '/' :: '/' :: _ => true
  | '/' :: '*' :: _ => true
  | _ => false

/--
The text after blanks, comments and characters that a test lets pass; `fuel` is at least the length
of the text.
-/
def skipIdle (context : Context) (passes : Char → Bool) : Nat → List Char → List Char
  | 0, text => text
  | fuel + 1, text =>
      let rest := text.dropWhile fun c => Text.isBlank c || passes c
      if beginsComment rest then skipIdle context passes fuel (skipComment context rest) else rest

/-- The text after blanks and comments. -/
def skipFiller (context : Context) (text : List Char) : List Char :=
  skipIdle context (fun _ => false) (text.length + 1) text

end Damaged

end Json

end ComponentBuilder
