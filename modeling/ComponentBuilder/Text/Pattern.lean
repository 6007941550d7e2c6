import ComponentBuilder.Text.Basic

/-!
# Text patterns

A small language of patterns over characters: repetition of one character class, sequence, ordered
choice, one captured part, and tests of the surroundings that consume nothing.  Matching tries the
choices in order and backtracks, so the first way of matching wins; `Pattern.run` passes every way in
turn to a continuation, and `Pattern.ends` lists the same ways.
-/

namespace ComponentBuilder

namespace Text

/--
A place in a text, with the part captured on the way there.

`behind` holds what was read, latest character first, and `offset` its length.
-/
structure Spot where
  behind : List Char
  offset : Nat
  ahead : List Char
  captured : List Char := []

namespace Spot

/-- The place before the first character. -/
def start (text : List Char) : Spot where
  behind := []
  offset := 0
  ahead := text

/-- The place one character on, when there is one. -/
def next (spot : Spot) : Spot :=
  match spot.ahead with
  | [] => spot
  | c :: rest => { spot with behind := c :: spot.behind, offset := spot.offset + 1, ahead := rest }

/-- The place one character back, when there is one. -/
def back (spot : Spot) : Spot :=
  match spot.behind with
  | [] => spot
  | c :: rest => { spot with behind := rest, offset := spot.offset - 1, ahead := c :: spot.ahead }

/-- Whether exactly one of the two neighbouring characters is a word character. -/
def atEdge (spot : Spot) : Bool :=
  let left := spot.behind.head?.any isWord
  let right := spot.ahead.head?.any isWord
  left != right

/-- Whether a line begins here. -/
def atLineStart (spot : Spot) : Bool :=
  match spot.behind with
  | [] => true
  | c :: _ => c == '\n'

/-- The text between this place and a later one. -/
def textTo (spot later : Spot) : List Char :=
  spot.ahead.take (later.offset - spot.offset)

/-- Move over characters while they pass `ok`, counting them. -/
def skipFrom (ok : Char → Bool) (captured : List Char) (count : Nat) (behind : List Char)
    (offset : Nat) : List Char → Nat × Spot
  | [] => (count, ⟨behind, offset, [], captured⟩)
  | c :: rest =>
      if ok c then skipFrom ok captured (count + 1) (c :: behind) (offset + 1) rest
      else (count, ⟨behind, offset, c :: rest, captured⟩)

/-- Move over the longest run of characters that pass `ok`; the count is the length of the run. -/
def skipWhile (ok : Char → Bool) (spot : Spot) : Nat × Spot :=
  skipFrom ok spot.captured 0 spot.behind spot.offset spot.ahead

end Spot

/-- Patterns over characters. -/
inductive Pattern where
  /-- The empty text. -/
  | nothing
  /-- One character that passes the test. -/
  | one (ok : Char → Bool)
  /-- As many characters that pass the test as possible, at least `least`. -/
  | many (least : Nat) (ok : Char → Bool)
  /-- As few characters that pass the test as possible. -/
  | few (ok : Char → Bool)
  /-- One pattern after the other. -/
  | seq (first second : Pattern)
  /-- The first pattern, or else the second. -/
  | either (first second : Pattern)
  /-- A pattern whose text is kept. -/
  | capture (body : Pattern)
  /-- A place between a word character and something else. -/
  | edge
  /-- The beginning of a line. -/
  | lineStart
  /-- A place at which the pattern would match. -/
  | ahead (body : Pattern)
  /-- A place that does not follow a character that passes the test. -/
  | notBehind (ok : Char → Bool)

namespace Pattern

/-- One pattern after the other, written `p ++ q`. -/
instance : Append Pattern where
  append := seq

/-- The given characters, one after the other. -/
def chars : List Char → Pattern
  | [] => nothing
  | [c] => one (· == c)
  | c :: rest => seq (one (· == c)) (chars rest)

/-- The given text. -/
def text (s : String) : Pattern :=
  chars s.toList

/-- The given lower-case text with the case of letters ignored. -/
def anyCase (s : String) : Pattern :=
  s.toList.foldr (fun c p => seq (one fun d => if c.isAlpha then sameLetter c d else c == d) p)
    nothing

/-- One of the given texts, tried in order. -/
def oneOf : List String → Pattern
  | [] => one fun _ => false
  | [s] => text s
  | s :: rest => either (text s) (oneOf rest)

/-- The pattern, or else nothing. -/
def optional (p : Pattern) : Pattern :=
  either p nothing

/-- Any run of blanks. -/
def blanks : Pattern :=
  many 0 isBlank

/-- A run of at least one blank. -/
def gap : Pattern :=
  many 1 isBlank

/-- An identifier. -/
def name : Pattern :=
  seq (one isNameStart) (many 0 isNameRest)

variable {α : Type}

/-- Try a place and then up to `extra` places before it, one character at a time. -/
def retreat (k : Spot → Option α) : Nat → Spot → Option α
  | 0, spot => k spot
  | extra + 1, spot =>
      match k spot with
      | some result => some result
      | none => retreat k extra spot.back

/-- Try a place and then the places after it, as long as the characters between pass `ok`. -/
def creep (ok : Char → Bool) (k : Spot → Option α) (captured : List Char) (behind : List Char)
    (offset : Nat) : List Char → Option α
  | [] => k ⟨behind, offset, [], captured⟩
  | c :: rest =>
      match k ⟨behind, offset, c :: rest, captured⟩ with
      | some result => some result
      | none => if ok c then creep ok k captured (c :: behind) (offset + 1) rest else none

/-- Pass the ends of the matches that begin at a place to `k`, in order, until it answers. -/
def run : Pattern → {α : Type} → (Spot → Option α) → Spot → Option α
  | .nothing, _, k, spot => k spot
  | .one ok, _, k, spot => if spot.ahead.head?.any ok then k spot.next else none
  | .many least ok, _, k, spot =>
      let (count, last) := spot.skipWhile ok
      if least ≤ count then retreat k (count - least) last else none
  | .few ok, _, k, spot => creep ok k spot.captured spot.behind spot.offset spot.ahead
  | .seq first second, _, k, spot => first.run (fun middle => second.run k middle) spot
  | .either first second, _, k, spot =>
      match first.run k spot with
      | some result => some result
      | none => second.run k spot
  | .capture body, _, k, spot =>
      body.run (fun last => k { last with captured := spot.textTo last }) spot
  | .edge, _, k, spot => if spot.atEdge then k spot else none
  | .lineStart, _, k, spot => if spot.atLineStart then k spot else none
  | .ahead body, _, k, spot => if (body.run some spot).isSome then k spot else none
  | .notBehind ok, _, k, spot => if spot.behind.head?.any ok then none else k spot

/-- The end of the match that begins at a place. -/
def matchAt? (p : Pattern) (spot : Spot) : Option Spot :=
  p.run some spot

/-- Whether the whole text matches. -/
def matchesAll (p : Pattern) (text : List Char) : Bool :=
  (p.run (fun last => if last.ahead.isEmpty then some () else none) (Spot.start text)).isSome

/-- One match in a text: what lies between the match before it and this one, and its own text. -/
structure Hit where
  before : List Char
  matched : List Char
  captured : List Char

/--
The matches found from a place on, each beginning at or after the end of the one before.

`skip` characters of the match found last are still to be passed over, `plain` is the reversed text
since then, and `hits` are the matches found so far, latest first.
-/
def cutFrom (p : Pattern) (skip : Nat) (plain : List Char) (hits : List Hit) (behind : List Char)
    (offset : Nat) : List Char → List Hit × List Char
  | [] => (hits.reverse, plain.reverse)
  | c :: rest =>
      match skip with
      | skip + 1 => cutFrom p skip [] hits (c :: behind) (offset + 1) rest
      | 0 =>
          let spot : Spot := { behind := behind, offset := offset, ahead := c :: rest }
          match p.matchAt? spot with
          | none => cutFrom p 0 (c :: plain) hits (c :: behind) (offset + 1) rest
          | some last =>
              cutFrom p (last.offset - offset - 1) []
                (⟨plain.reverse, spot.textTo last, last.captured⟩ :: hits)
                (c :: behind) (offset + 1) rest

/-- All matches in a text from left to right, and the text after the last one. -/
def cut (p : Pattern) (text : List Char) : List Hit × List Char :=
  cutFrom p 0 [] [] [] 0 text

/-- All matches in a text from left to right. -/
def hits (p : Pattern) (text : List Char) : List Hit :=
  (p.cut text).1

/-- The captured parts of all matches. -/
def captures (p : Pattern) (text : List Char) : List (List Char) :=
  (p.hits text).map Hit.captured

/-- Replace every match by a text made from it. -/
def replace (p : Pattern) (f : Hit → List Char) (text : List Char) : List Char :=
  let (found, tail) := p.cut text
  found.flatMap (fun hit => hit.before ++ f hit) ++ tail

/-- The pieces of a text between matches. -/
def splitBy (p : Pattern) (text : List Char) : List (List Char) :=
  let (found, tail) := p.cut text
  found.map Hit.before ++ [tail]

/-- The place of the first match at or after a place, and where that match ends. -/
def searchFrom (p : Pattern) (behind : List Char) (offset : Nat) : List Char → Option (Spot × Spot)
  | [] =>
      let spot : Spot := ⟨behind, offset, [], []⟩
      (p.matchAt? spot).map (spot, ·)
  | c :: rest =>
      let spot : Spot := ⟨behind, offset, c :: rest, []⟩
      match p.matchAt? spot with
      | some last => some (spot, last)
      | none => searchFrom p (c :: behind) (offset + 1) rest

/-- The first match in a text: where it begins and where it ends. -/
def search? (p : Pattern) (text : List Char) : Option (Spot × Spot) :=
  searchFrom p [] 0 text

/-- Whether the pattern matches somewhere in a text. -/
def occurs (p : Pattern) (text : List Char) : Bool :=
  (p.search? text).isSome

end Pattern

end Text

end ComponentBuilder
