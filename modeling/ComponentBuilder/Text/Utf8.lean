/-!
# UTF-8 with replacement

Bytes are decoded as UTF-8; every longest piece that is no beginning of a character, or one that is
not continued, becomes one replacement character.  Decoding goes byte by byte, so that bytes may come
mixed with characters that are already there.
-/

namespace ComponentBuilder

namespace Text

namespace Utf8

/-- The character in place of bytes that are none. -/
def replacement : Char :=
  '\uFFFD'

/-- A character of which some bytes are still to come. -/
structure Pending where
  /-- How many bytes are to come. -/
  left : Nat
  /-- The bits read so far as a number. -/
  value : Nat
  /-- The least byte that may come next. -/
  least : Nat := 0x80
  /-- The largest byte that may come next. -/
  most : Nat := 0xBF
deriving DecidableEq, Repr

/-- What the first byte of a longer character announces. -/
def announced? (byte : Nat) : Option Pending :=
  if 0xC2 ≤ byte && byte ≤ 0xDF then some { left := 1, value := byte - 0xC0 }
  else if byte = 0xE0 then some { left := 2, value := 0, least := 0xA0 }
  else if byte = 0xED then some { left := 2, value := 0xD, most := 0x9F }
  else if 0xE1 ≤ byte && byte ≤ 0xEF then some { left := 2, value := byte - 0xE0 }
  else if byte = 0xF0 then some { left := 3, value := 0, least := 0x90 }
  else if byte = 0xF4 then some { left := 3, value := 4, most := 0x8F }
  else if 0xF1 ≤ byte && byte ≤ 0xF3 then some { left := 3, value := byte - 0xF0 }
  else none

/-- Decoded text in reverse, and the character that is being read. -/
structure Decoder where
  seen : List Char := []
  pending : Option Pending := none
deriving DecidableEq, Repr

namespace Decoder

/-- Give up the character that is being read. -/
def flush (decoder : Decoder) : Decoder :=
  match decoder.pending with
  | some _ => { seen := replacement :: decoder.seen }
  | none => decoder

/-- Read the first byte of a character. -/
def first (decoder : Decoder) (byte : Nat) : Decoder :=
  if byte < 0x80 then { seen := Char.ofNat byte :: decoder.seen }
  else
    match announced? byte with
    | some pending => { decoder with pending := some pending }
    | none => { seen := replacement :: decoder.seen }

/-- Read a byte. -/
def byte (decoder : Decoder) (byte : Nat) : Decoder :=
  match decoder.pending with
  | none => decoder.first byte
  | some pending =>
      if pending.least ≤ byte && byte ≤ pending.most then
        let value := pending.value * 64 + (byte - 0x80)
        if pending.left ≤ 1 then { seen := Char.ofNat value :: decoder.seen }
        else { decoder with pending := some { left := pending.left - 1, value := value } }
      else decoder.flush.first byte

/-- Read a character that is no byte. -/
def char (decoder : Decoder) (c : Char) : Decoder :=
  { seen := c :: decoder.flush.seen }

/-- The decoded text. -/
def text (decoder : Decoder) : String :=
  String.ofList decoder.flush.seen.reverse

end Decoder

end Utf8

end Text

end ComponentBuilder
