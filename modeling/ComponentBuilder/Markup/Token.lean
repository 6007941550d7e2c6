import ComponentBuilder.Markup.AttributeList

/-!
# Tokens of markup

Markup is cut from left to right into opening tags, closing tags and text; a braced expression counts
as text.  A cut that fails part of the way keeps the tokens before the fault, since a reader may find
something wrong with them first.
-/

namespace ComponentBuilder

namespace Markup

open Text

/-- A piece of markup. -/
inductive Token where
  /-- A run of text or a braced expression. -/
  | text (piece : List Char)
  /-- An opening tag, or an empty element when it is self-closing. -/
  | opening (tag : String) (attributes : Attributes) (selfClosing : Bool)
  /-- A closing tag and its offset. -/
  | closing (tag : String) (offset : Nat)
deriving DecidableEq

/-- Tokens, and the fault that ended the cut if it did not reach the end. -/
structure TokenCut where
  tokens : List Token
  fault : Option ParseError
deriving DecidableEq

namespace Token

/-- A character of a tag's name after the first. -/
def isTagChar (c : Char) : Bool :=
  isWord c || c == '.' || c == ':' || c == '-' || c == '$'

/-- The name a tag begins with, blanks in front dropped, and the rest of the tag. -/
def tagName (content : List Char) : List Char × List Char :=
  match trimStart content with
  | [] => ([], [])
  | c :: rest =>
      if isNameStart c then
        let (name, rest) := spanWhile isTagChar rest
        (c :: name, rest)
      else ([], c :: rest)

/-- The token of an opening tag, from what stands between its angle brackets. -/
def ofOpening (content : List Char) : Except ParseError Token :=
  let stripped := trimEnd content
  let selfClosing := stripped.getLast? == some '/'
  let (name, rest) := tagName (if selfClosing then stripped.dropLast else content)
  match AttributeList.read rest with
  | .error e => .error e
  | .ok attributes => .ok (.opening (String.ofList name) attributes selfClosing)

/-- Whether what follows an angle bracket makes it open a tag; so does the end of the text. -/
def opensElement : List Char → Bool
  | [] => true
  | c :: _ => isLetter c || c == '_' || c == '$' || c == '>'

/-- A token, the number of characters it takes, and the text after it. -/
abbrev Found := Except ParseError (Token × Nat × List Char)

/-- The token in front of a text that is not empty, `offset` being its place. -/
def first (offset : Nat) (c : Char) (rest : List Char) : Found :=
  if c == '<' && rest.head? == some '/' then
    match Scan.tag (offset + 2) rest.tail with
    | .error e => .error e
    | .ok (content, after) =>
        .ok (.closing (String.ofList (trim content)) offset, content.length + 3, after)
  else if c == '<' && opensElement rest then
    match Scan.tag (offset + 1) rest with
    | .error e => .error e
    | .ok (content, after) =>
        match ofOpening content with
        | .error e => .error e
        | .ok token => .ok (token, content.length + 2, after)
  else if c == '{' then
    match Scan.expression offset (c :: rest) with
    | .error e => .error e
    | .ok (source, after) => .ok (.text source, source.length, after)
  else
    let (run, after) := spanWhile (fun d => d != '<' && d != '{') rest
    .ok (.text (c :: run), run.length + 1, after)

/-- Cut a text, each token taking one unit of `fuel`; `seen` holds the tokens so far in reverse. -/
def cutFuel : Nat → List Token → Nat → List Char → TokenCut
  | 0, seen, _, _ => ⟨seen.reverse, none⟩
  | _ + 1, seen, _, [] => ⟨seen.reverse, none⟩
  | fuel + 1, seen, offset, c :: rest =>
      match first offset c rest with
      | .error e => ⟨seen.reverse, some e⟩
      | .ok (token, size, after) => cutFuel fuel (token :: seen) (offset + size) after

/-- Cut a text into tokens. -/
def cut (text : List Char) : TokenCut :=
  cutFuel (text.length + 1) [] 0 text

end Token

end Markup

end ComponentBuilder
