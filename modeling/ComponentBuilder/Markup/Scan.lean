import ComponentBuilder.Markup.ParseError
import ComponentBuilder.Text.Basic

/-!
# Finding where a construct ends

Tags, elements, braced expressions and parentheses nest in each other, and each has its own rules for
quotes and comments.  The scan reads a text once from left to right and keeps a stack of the
constructs it is inside of; it stops when the stack is empty.  In script text (expressions and
parentheses) quotes open strings, and an angle bracket opens markup only after a character that
cannot end an operand.  In the text of an element quotes mean nothing.
-/

namespace ComponentBuilder

namespace Markup

open Text

namespace Scan

/-- The grave accent, which quotes template strings. -/
def grave : Char := '\x60'

/-- The progress of a block comment. -/
inductive CommentPart where
  /-- The star that opens the comment is still to be read. -/
  | opening
  /-- The text of the comment. -/
  | body
  /-- The slash that ends the comment is still to be read. -/
  | closing
deriving DecidableEq, Repr

/-- A construct the scan is inside of, with the offset at which it began. -/
inductive Frame where
  /-- A string that ends at the next `quote`. -/
  | quoted (quote : Char) (opened : Nat)
  /-- A comment that ends with the line. -/
  | lineComment
  /-- A comment that ends with a star and a slash. -/
  | blockComment (part : CommentPart) (opened : Nat)
  /-- A tag, after its opening angle bracket. -/
  | tag (opened : Nat)
  /-- A braced expression with `depth` more braces open inside it. -/
  | expression (depth : Nat) (opened : Nat)
  /-- The text of an element with `depth` elements open. -/
  | element (depth : Nat) (opened : Nat)
  /-- A tag inside an element; `closing` tells a closing tag from the others. -/
  | elementTag (depth : Nat) (opened : Nat) (closing : Bool) (tagOpened : Nat)
  /-- Parentheses, with the number of opening ones less that of closing ones so far. -/
  | parentheses (depth : Int) (opened : Nat)
deriving DecidableEq, Repr

/-- Whether what follows an angle bracket makes it the beginning of a tag. -/
def opensTag : List Char → Bool
  | [] => false
  | c :: _ => isLetter c || c == '/' || c == '>' || c == '_' || c == '$'

/-- Whether what follows an angle bracket makes the tag a closing one. -/
def opensClosingTag : List Char → Bool
  | '/' :: _ => true
  | _ => false

/-- The characters after which an angle bracket in script text opens markup. -/
def isMarkupLeader (c : Char) : Bool :=
  c == '(' || c == '{' || c == '[' || c == ',' || c == ';' || c == '=' || c == '?' || c == ':' ||
    c == '&' || c == '|' || c == '!' || c == '>'

/--
Whether markup may begin after the script text `behind`, given in reverse: at the beginning, after a
leader, or after the word `return`; blanks between do not count.
-/
def admitsMarkup (behind : List Char) : Bool :=
  match behind.dropWhile isBlank with
  | [] => true
  | c :: rest => isMarkupLeader c || "nruter".toList.isPrefixOf (c :: rest)

/-- Whether the tag read so far, given in reverse, ends in the slash of a self-closing tag. -/
def endsSelfClosing (behind : List Char) : Bool :=
  match behind.dropWhile isBlank with
  | '/' :: _ => true
  | _ => false

/-- A quote of script text: single, double or grave. -/
def isQuote (c : Char) : Bool :=
  c == '"' || c == '\'' || c == grave

/-- A quote of a tag: single or double. -/
def isTagQuote (c : Char) : Bool :=
  c == '"' || c == '\''

/-- The constructs after a tag inside an element has ended. -/
def afterElementTag (depth opened : Nat) (closing selfClosing : Bool) : List Frame :=
  if closing then
    if depth ≤ 1 then [] else [.element (depth - 1) opened]
  else if selfClosing then
    if depth = 0 then [] else [.element depth opened]
  else
    [.element (depth + 1) opened]

/-- Constructs that script text opens whatever it stands in; `none` for an ordinary character. -/
def scriptOpening? (top : Frame) (behind : List Char) (offset : Nat) (c : Char)
    (ahead : List Char) : Option (List Frame) :=
  if isQuote c then some [.quoted c offset, top]
  else if c == '<' && opensTag ahead && admitsMarkup behind then
    some [.elementTag 0 offset (opensClosingTag ahead) (offset + 1), top]
  else none

/--
Read one character inside the innermost construct: the constructs that take its place.

`behind` is the text read so far in reverse, `ahead` the text after the character.
-/
def step (top : Frame) (behind : List Char) (offset : Nat) (c : Char) (ahead : List Char) :
    List Frame :=
  match top with
  | .quoted quote _ => if c == quote then [] else [top]
  | .lineComment => if c == '\n' then [] else [top]
  | .blockComment part opened =>
      match part with
      | .opening => [.blockComment .body opened]
      | .body =>
          if c == '*' && ahead.head? == some '/' then [.blockComment .closing opened] else [top]
      | .closing => []
  | .tag _ =>
      if isTagQuote c then [.quoted c offset, top]
      else if c == '{' then [.expression 0 offset, top]
      else if c == '>' then []
      else [top]
  | .expression depth opened =>
      match scriptOpening? top behind offset c ahead with
      | some frames => frames
      | none =>
          if c == '/' && ahead.head? == some '/' then [.lineComment, top]
          else if c == '/' && ahead.head? == some '*' then [.blockComment .opening offset, top]
          else if c == '{' then [.expression (depth + 1) opened]
          else if c == '}' then
            match depth with
            | 0 => []
            | depth + 1 => [.expression depth opened]
          else [top]
  | .element depth opened =>
      if c == '{' then [.expression 0 offset, top]
      else if c == '<' && opensTag ahead then
        [.elementTag depth opened (opensClosingTag ahead) (offset + 1)]
      else [top]
  | .elementTag depth opened closing _ =>
      if isTagQuote c then [.quoted c offset, top]
      else if c == '{' then [.expression 0 offset, top]
      else if c == '>' then afterElementTag depth opened closing (endsSelfClosing behind)
      else [top]
  | .parentheses depth opened =>
      match scriptOpening? top behind offset c ahead with
      | some frames => frames
      | none =>
          if c == '{' then [.expression 0 offset, top]
          else if c == '(' then [.parentheses (depth + 1) opened]
          else if c == ')' then
            if depth - 1 = 0 then [] else [.parentheses (depth - 1) opened]
          else [top]

/-- The fault of a text that ends inside the given constructs, innermost first. -/
def unfinished : List Frame → ParseError
  | [] => ⟨.tagNotClosed, none⟩
  | .lineComment :: outer => unfinished outer
  | .quoted quote opened :: _ => ⟨.unterminatedString quote, some opened⟩
  | .blockComment _ opened :: _ => ⟨.unterminatedComment, some opened⟩
  | .tag opened :: _ => ⟨.tagNotClosed, some opened⟩
  | .elementTag _ _ _ tagOpened :: _ => ⟨.tagNotClosed, some tagOpened⟩
  | .element _ opened :: _ => ⟨.elementNotClosed, some opened⟩
  | .expression _ opened :: _ => ⟨.unbalancedBraces, some opened⟩
  | .parentheses _ opened :: _ => ⟨.unbalancedParentheses, some opened⟩

/-- Where a scan stopped: the text it read, in reverse, and the text it left. -/
structure Cut where
  behind : List Char
  rest : List Char
deriving DecidableEq, Repr

/-- Read on until every construct on the stack has ended. -/
def run : List Frame → List Char → Nat → List Char → Except ParseError Cut
  | [], behind, _, rest => .ok ⟨behind, rest⟩
  | frames, _, _, [] => .error (unfinished frames)
  | top :: outer, behind, offset, c :: rest =>
      run (step top behind offset c rest ++ outer) (c :: behind) (offset + 1) rest

/--
The rest of a tag, up to and without its closing angle bracket, and the text after the bracket.

`offset` is the place of the text in the whole source.
-/
def tag (offset : Nat) (text : List Char) : Except ParseError (List Char × List Char) :=
  match run [.tag offset] [] offset text with
  | .error e => .error e
  | .ok cut => .ok (cut.behind.tail.reverse, cut.rest)

/-- The braced expression a text begins with, braces included, and the text after it. -/
def expression (offset : Nat) (text : List Char) : Except ParseError (List Char × List Char) :=
  match text with
  | '{' :: rest =>
      match run [.expression 0 offset] ['{'] (offset + 1) rest with
      | .error e => .error e
      | .ok cut => .ok (cut.behind.reverse, cut.rest)
  | _ => .error ⟨.notAnExpression, some offset⟩

/-- The text up to the end of the next element, and the text after it. -/
def element (offset : Nat) (text : List Char) : Except ParseError (List Char × List Char) :=
  match run [.element 0 offset] [] offset text with
  | .error e => .error e
  | .ok cut => .ok (cut.behind.reverse, cut.rest)

/-- The text up to the parenthesis that balances the first one, included, and the text after it. -/
def parentheses (offset : Nat) (text : List Char) : Except ParseError (List Char × List Char) :=
  match run [.parentheses 0 offset] [] offset text with
  | .error e => .error e
  | .ok cut => .ok (cut.behind.reverse, cut.rest)

/-- The offset of the angle bracket that closes the tag read from `start` on. -/
def findTagEnd (source : String) (start : Nat) : Except ParseError Nat :=
  (tag start (source.toList.drop start)).map fun found => start + found.1.length

/-- The offset of the brace that closes the expression at `start`. -/
def findExpressionEnd (source : String) (start : Nat) : Except ParseError Nat :=
  (expression start (source.toList.drop start)).map fun found => start + found.1.length - 1

/-- The offset just after the element at or after `start`. -/
def skipElement (source : String) (start : Nat) : Except ParseError Nat :=
  (element start (source.toList.drop start)).map fun found => start + found.1.length

/-- The offset of the parenthesis that balances the first one at or after `start`. -/
def findClosingParenthesis (source : String) (start : Nat) : Except ParseError Nat :=
  (parentheses start (source.toList.drop start)).map fun found => start + found.1.length - 1

end Scan

end Markup

end ComponentBuilder
