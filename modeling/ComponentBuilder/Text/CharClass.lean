import ComponentBuilder.Text.ClassTable
import ComponentBuilder.Text.PrintableTable
import ComponentBuilder.Text.UpperTable

/-!
# Character classes

Blank characters, letters and word characters, and the two case mappings the library needs.  Inside
ASCII every class is a plain comparison; outside, letters and alphanumerics are looked up in the
ranges of `ClassTable`.
-/

namespace ComponentBuilder

namespace Text

/-- What is said of the characters of a text is decided one by one, and not over all characters. -/
instance (priority := 2000) decidableForallMem (text : List Char) (p : Char → Prop) [DecidablePred p] :
    Decidable (∀ c ∈ text, p c) :=
  List.decidableBAll p text

/-- White space: the Unicode property `White_Space` and the four separators U+001C to U+001F. -/
def isBlank (c : Char) : Bool :=
  let n := c.toNat
  (9 ≤ n && n ≤ 13) || (28 ≤ n && n ≤ 32) || n == 0x85 || n == 0xA0 || n == 0x1680 ||
    (0x2000 ≤ n && n ≤ 0x200A) || n == 0x2028 || n == 0x2029 || n == 0x202F || n == 0x205F ||
    n == 0x3000

/--
Number of edges at or below `n` among positions `low` to `high`, plus `low`, found by halving.

Every step halves the distance, so `fuel` above the logarithm of the number of edges is enough.
-/
def edgesUpTo (edges : Array Nat) (n : Nat) : Nat → Nat → Nat → Nat
  | 0, low, _ => low
  | fuel + 1, low, high =>
      if low < high then
        let middle := (low + high) / 2
        if edges.getD middle 0 ≤ n then
          edgesUpTo edges n fuel (middle + 1) high
        else
          edgesUpTo edges n fuel low middle
      else
        low

/-- Membership in a class kept as its edges: an odd number of edges lie at or below `n`. -/
def withinEdges (edges : Array Nat) (n : Nat) : Bool :=
  edgesUpTo edges n edges.size 0 edges.size % 2 == 1

/-- A letter of any script. -/
def isLetter (c : Char) : Bool :=
  if c.toNat < 128 then c.isAlpha else withinEdges ClassTable.letterEdges c.toNat

/-- A letter, a digit of any kind or an underscore. -/
def isWord (c : Char) : Bool :=
  if c.toNat < 128 then c.isAlphanum || c == '_'
  else withinEdges ClassTable.alphanumericEdges c.toNat

/-- A letter or a digit of any kind. -/
def isAlphanumeric (c : Char) : Bool :=
  isWord c && c != '_'

/-- A character that leaves a mark on the page, or the blank. -/
def isPrintable (c : Char) : Bool :=
  if c.toNat < 128 then 32 ≤ c.toNat && c.toNat < 127
  else withinEdges PrintableTable.edges c.toNat

/-- A letter of the English alphabet. -/
def isAsciiLetter (c : Char) : Bool :=
  c.isAlpha

/-- The first character of an identifier: an English letter, an underscore or a dollar sign. -/
def isNameStart (c : Char) : Bool :=
  c.isAlpha || c == '_' || c == '$'

/-- A later character of an identifier: a word character or a dollar sign. -/
def isNameRest (c : Char) : Bool :=
  isWord c || c == '$'

/--
Whether `c` is the lower-case English letter `letter` when case is ignored.

Besides the capital, the long s counts as an s, and the dotted capital and dotless small i count as
an i; the Kelvin sign counts as a k.
-/
def sameLetter (letter c : Char) : Bool :=
  c.toLower == letter ||
    (letter == 's' && c.toNat == 0x17F) ||
    (letter == 'i' && (c.toNat == 0x130 || c.toNat == 0x131)) ||
    (letter == 'k' && c.toNat == 0x212A)

/-- The run of `UpperTable.runs` that holds code point `n`. -/
def upperRun? (n : Nat) : Option UpperTable.Run :=
  UpperTable.runs.find? fun run =>
    run.first ≤ n && n ≤ run.last && (n - run.first) % run.stride == 0

/-- Full upper case of one character, which may be several characters. -/
def upperChar (c : Char) : List Char :=
  if c.toNat < 128 then [c.toUpper]
  else
    match UpperTable.expansions.lookup c.toNat with
    | some codes => codes.map Char.ofNat
    | none =>
        match upperRun? c.toNat with
        | some run => [Char.ofNat ((c.toNat : Int) + run.shift).toNat]
        | none => [c]

/-- Full upper case of a text. -/
def upper (text : String) : String :=
  String.ofList (text.toList.flatMap upperChar)

/-- Lower case of the English letters; every other character stays. -/
def lowerAscii (text : String) : String :=
  String.ofList (text.toList.map Char.toLower)

/-- White space as core's ASCII test sees it is blank. -/
theorem isBlank_of_isWhitespace {c : Char} (h : c.isWhitespace = true) : isBlank c = true := by
  simp only [Char.isWhitespace, Bool.or_eq_true, decide_eq_true_eq] at h
  rcases h with ((rfl | rfl) | rfl) | rfl <;> decide

end Text

end ComponentBuilder
