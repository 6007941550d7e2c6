import ComponentBuilder.Json.Reader
import ComponentBuilder.Text.Basic
import ComponentBuilder.Text.Utf8

/-!
# Targets of requests

A target is a reference to a resource: a path, after which a query or a fragment may follow.  Its
path is made plain in two steps: steps up and empty steps are taken out of it, then its escapes are
resolved, once for the reference and once more for the path that it names.
-/

namespace ComponentBuilder

namespace Service

namespace Target

open Text

/-- Resolve the escapes of a text, after what was decoded before. -/
def unescapeFrom (decoder : Utf8.Decoder) : List Char → Utf8.Decoder
  | '%' :: high :: low :: rest =>
      match Json.Reader.hexValue? high, Json.Reader.hexValue? low with
      | some h, some l => unescapeFrom (decoder.byte (h * 16 + l)) rest
      | _, _ => unescapeFrom (decoder.byte 0x25) (high :: low :: rest)
  | c :: rest => unescapeFrom (if c.toNat < 0x80 then decoder.byte c.toNat else decoder.char c) rest
  | [] => decoder
termination_by text => text.length

/-- Resolve the escapes of a text; a percent sign that begins none stands for itself. -/
def unescape (text : String) : String :=
  (unescapeFrom {} text.toList).text

/-- Take the steps of a path one after the other; those taken so far are in reverse. -/
def walk : List (List Char) → List (List Char) → List (List Char)
  | taken, [] => taken.reverse
  | taken, step :: rest =>
      if step = ['.'] then walk taken rest
      else if step = ['.', '.'] then
        walk (if taken = [[]] then taken else taken.tail) rest
      else walk (step :: taken) rest

/-- A path without steps that lead nowhere or up. -/
def resolved (path : List Char) : List Char :=
  ['/'].intercalate (walk [] (split '/' path))

/-- A reference without the name of a host in front. -/
def withoutHost : List Char → List Char
  | '/' :: '/' :: rest => rest.dropWhile fun c => !(c == '/' || c == '?' || c == '#')
  | reference => reference

/-- The path of a target. -/
def path (target : String) : String :=
  let raw := (withoutHost target.toList).takeWhile fun c => !(c == '?' || c == '#')
  let rooted := '/' :: raw.dropWhile (· == '/')
  unescape (unescape (String.ofList (resolved rooted)))

end Target

end Service

end ComponentBuilder
