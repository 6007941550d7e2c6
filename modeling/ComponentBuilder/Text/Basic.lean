import ComponentBuilder.Text.CharClass

/-!
# Texts as lists of characters

Trimming, searching, cutting and replacing on lists of characters, and the same operations on strings
where the library passes strings around.
-/

namespace ComponentBuilder

namespace Text

/-- Drop blanks in front. -/
def trimStart (text : List Char) : List Char :=
  text.dropWhile isBlank

/-- Drop blanks at the end. -/
def trimEnd (text : List Char) : List Char :=
  (text.reverse.dropWhile isBlank).reverse

/-- Drop blanks at both ends. -/
def trim (text : List Char) : List Char :=
  trimEnd (trimStart text)

/-- A text that holds nothing but blanks. -/
def isAllBlank (text : List Char) : Bool :=
  text.all isBlank

/--
Split off what comes before the first occurrence of `needle`: the reversed front `seen` grows until
the rest begins with the needle.
-/
def findFrom (needle : List Char) (seen : List Char) : List Char → Option (List Char × List Char)
  | [] => if needle.isEmpty then some (seen.reverse, []) else none
  | c :: rest =>
      if needle.isPrefixOf (c :: rest) then some (seen.reverse, c :: rest)
      else findFrom needle (c :: seen) rest

/-- The text before the first occurrence of `needle`, and the text from that occurrence on. -/
def find? (needle text : List Char) : Option (List Char × List Char) :=
  findFrom needle [] text

/-- Whether `needle` occurs in `text`. -/
def contains (needle text : List Char) : Bool :=
  (find? needle text).isSome

/-- The pieces of a text between separators, with the current piece kept in reverse. -/
def splitFrom (separator : Char) (piece : List Char) : List Char → List (List Char)
  | [] => [piece.reverse]
  | c :: rest =>
      if c = separator then piece.reverse :: splitFrom separator [] rest
      else splitFrom separator (c :: piece) rest

/-- The pieces of a text between occurrences of one separator; at least one piece. -/
def split (separator : Char) (text : List Char) : List (List Char) :=
  splitFrom separator [] text

/-- Cut a text at the first character that fails `keep`. -/
def spanFrom (keep : Char → Bool) (seen : List Char) : List Char → List Char × List Char
  | [] => (seen.reverse, [])
  | c :: rest => if keep c then spanFrom keep (c :: seen) rest else (seen.reverse, c :: rest)

/-- The longest front whose characters all pass `keep`, and the rest. -/
def spanWhile (keep : Char → Bool) (text : List Char) : List Char × List Char :=
  spanFrom keep [] text

/-- Take `front` off the beginning of `text` when it is there. -/
def dropFront (front text : List Char) : List Char :=
  if front.isPrefixOf text then text.drop front.length else text

/-- Replace every character by a text. -/
def substitute (f : Char → List Char) (text : List Char) : List Char :=
  text.flatMap f

/-- Keep the first occurrence of every value. -/
def distinct {α : Type} [BEq α] (items : List α) : List α :=
  (items.foldl (fun seen item => if seen.contains item then seen else item :: seen) []).reverse

/-- Drop blanks at both ends of a string. -/
def strip (text : String) : String :=
  String.ofList (trim text.toList)

/-- The first `count` characters of a string. -/
def clip (count : Nat) (text : String) : String :=
  String.ofList (text.toList.take count)

/-- Whether `needle` occurs in the string `text`. -/
def occursIn (needle text : String) : Bool :=
  contains needle.toList text.toList

/-- Join strings with a separator. -/
def join (separator : String) (pieces : List String) : String :=
  separator.intercalate pieces

/-- Order of strings by code points. -/
def before (a b : String) : Bool :=
  decide (a < b)

/-- Sort strings by code points. -/
def sorted (texts : List String) : List String :=
  texts.mergeSort fun a b => !before b a

end Text

end ComponentBuilder
