/-!
# Faults of component source

Why a component source has no tree.  Every fault belongs to one of five families, has a wording, and
may name the offset at which it was found.
-/

namespace ComponentBuilder

namespace Markup

/-- What is wrong with the source. -/
inductive ParseCause where
  /-- A string opened by `quote` has no closing quote. -/
  | unterminatedString (quote : Char)
  /-- A block comment is never closed. -/
  | unterminatedComment
  /-- The text ends inside a tag. -/
  | tagNotClosed
  /-- The text ends inside an element. -/
  | elementNotClosed
  /-- An expression was asked for where no brace opens. -/
  | notAnExpression
  /-- The text ends inside a braced expression. -/
  | unbalancedBraces
  /-- The text ends inside parentheses. -/
  | unbalancedParentheses
  /-- An attribute ends after its equals sign. -/
  | attributeWithoutValue (name : String)
  /-- A quoted attribute value has no closing quote. -/
  | unterminatedValue (name : String)
  /-- The text ends and the element is still open. -/
  | neverClosed (tag : String)
  /-- A closing tag stands where no element is open. -/
  | nothingOpen (tag : String)
  /-- A closing tag names another element than the one that is open. -/
  | wrongClosing (expected found : String)
  /-- No element stands at the top level. -/
  | noRoot
  /-- Several elements stand at the top level. -/
  | severalRoots (tags : List String)
  /-- A module has no returned markup. -/
  | missingReturn
deriving DecidableEq, Repr

/-- The families of faults. -/
inductive ParseFamily where
  | malformedTag
  | mismatchedTag
  | noRootFound
  | multipleRoots
  | missingReturn
deriving DecidableEq, Repr

/-- The name of a family, as reports and counters show it. -/
def ParseFamily.label : ParseFamily → String
  | .malformedTag => "MalformedTag"
  | .mismatchedTag => "MismatchedTag"
  | .noRootFound => "NoRootFound"
  | .multipleRoots => "MultipleRoots"
  | .missingReturn => "MissingReturn"

namespace ParseCause

/-- The family a cause belongs to. -/
def family : ParseCause → ParseFamily
  | .neverClosed _ | .nothingOpen _ | .wrongClosing _ _ => .mismatchedTag
  | .noRoot => .noRootFound
  | .severalRoots _ => .multipleRoots
  | .missingReturn => .missingReturn
  | _ => .malformedTag

/-- The wording of a cause, without its place. -/
def wording : ParseCause → String
  | .unterminatedString quote => "Unterminated " ++ quote.toString ++ " string"
  | .unterminatedComment => "Unterminated comment"
  | .tagNotClosed => "Tag not closed"
  | .elementNotClosed => "Element not closed"
  | .notAnExpression => "Expression must start with '\x7b'"
  | .unbalancedBraces => "Unbalanced braces in expression"
  | .unbalancedParentheses => "Unbalanced parentheses"
  | .attributeWithoutValue name => "Attribute '" ++ name ++ "' has no value"
  | .unterminatedValue name => "Unterminated value for attribute '" ++ name ++ "'"
  | .neverClosed tag => "Element <" ++ (if tag.isEmpty then "<>" else tag) ++ "> is never closed"
  | .nothingOpen tag => "Closing tag </" ++ tag ++ "> has no open element"
  | .wrongClosing expected found =>
      "Expected </" ++ expected ++ "> but found </" ++ found ++ ">"
  | .noRoot => "Failed to parse JSX structure: no root element found"
  | .severalRoots tags =>
      "Expected one root element, found " ++ toString tags.length ++ ": " ++
        ", ".intercalate (tags.map fun tag => "<" ++ tag ++ ">")
  | .missingReturn => "Could not find a 'return (' statement in generated code"

end ParseCause

/-- A fault with the offset at which it was found, when one is known. -/
structure ParseError where
  cause : ParseCause
  position : Option Nat := none
deriving DecidableEq, Repr

namespace ParseError

/-- The family of a fault. -/
def family (e : ParseError) : ParseFamily :=
  e.cause.family

/-- The wording of a fault, with its place when one is known. -/
def message (e : ParseError) : String :=
  match e.position with
  | none => e.cause.wording
  | some offset => e.cause.wording ++ " (at offset " ++ toString offset ++ ")"

end ParseError

end Markup

end ComponentBuilder
