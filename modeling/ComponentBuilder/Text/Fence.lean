import ComponentBuilder.Text.Basic

/-!
# Fenced code

A fence is a line that begins a code block with three backquotes; the block ends at the next three
backquotes.
-/

namespace ComponentBuilder

namespace Text

/-- Three backquotes. -/
def fence : List Char :=
  ['\x60', '\x60', '\x60']

/--
The lines inside the first fence, up to the fence that closes it or to the end.  A text without a
fence, or whose fence has no line after it, is taken as a whole.
-/
def fencedBody (text : List Char) : List Char :=
  match find? fence text with
  | none => trim text
  | some (_, opened) =>
      match find? ['\n'] opened with
      | none => trim text
      | some (_, lines) =>
          match find? fence lines.tail with
          | none => trim lines.tail
          | some (body, _) => trim body

/-- The lines inside the first fence of a string. -/
def stripFences (text : String) : String :=
  String.ofList (fencedBody text.toList)

end Text

end ComponentBuilder
