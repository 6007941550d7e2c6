import ComponentBuilder.Markup.Token

/-!
# Reading fragments

A fragment is one element with text around it.  The reader goes over the tokens with the stack of
elements that are open; text is collected until a tag comes and kept as a child of the innermost open
element, and dropped where none is open.
-/

namespace ComponentBuilder

namespace Markup

/-- An element whose closing tag has not been read, with its children so far in reverse. -/
structure OpenElement where
  id : String
  tag : String
  attributes : Attributes
  children : List Child

/-- The element that an open element becomes when it is closed. -/
def OpenElement.close (element : OpenElement) : Node :=
  .mk element.id element.tag element.attributes element.children.reverse

/-- How far a reader has come. -/
structure Reading where
  /-- The open elements, innermost first. -/
  stack : List OpenElement
  /-- The finished elements at the top level, latest first. -/
  roots : List Node
  /-- The pieces of text since the last tag, latest first. -/
  text : List (List Char)
  /-- How many elements have been opened. -/
  opened : Nat

namespace Reading

/-- Nothing read yet. -/
def start : Reading where
  stack := []
  roots := []
  text := []
  opened := 0

/-- Put the collected text among the children of the innermost open element. -/
def flush (state : Reading) : Reading :=
  let collected := state.text.reverse.flatten
  match state.stack with
  | [] => { state with text := [] }
  | top :: outer =>
      if collected.isEmpty then { state with text := [] }
      else
        { state with
          text := []
          stack := { top with children := .text (String.ofList collected) :: top.children } :: outer }

/-- Put a finished element in its place. -/
def place (state : Reading) (node : Node) : Reading :=
  match state.stack with
  | [] => { state with roots := node :: state.roots }
  | top :: outer =>
      { state with stack := { top with children := .element node :: top.children } :: outer }

/-- Read one token; `name` gives the identifier of the element opened at each count. -/
def step (name : Nat → String) (state : Reading) : Token → Except ParseError Reading
  | .text piece => .ok { state with text := piece :: state.text }
  | .opening tag attributes selfClosing =>
      let state := state.flush
      let id := name state.opened
      let state := { state with opened := state.opened + 1 }
      if selfClosing then .ok (state.place (.mk id tag attributes []))
      else .ok { state with stack := ⟨id, tag, attributes, []⟩ :: state.stack }
  | .closing tag offset =>
      let state := state.flush
      match state.stack with
      | [] => .error ⟨.nothingOpen tag, some offset⟩
      | top :: outer =>
          if tag = top.tag then .ok ({ state with stack := outer }.place top.close)
          else .error ⟨.wrongClosing top.tag tag, some offset⟩

/-- Read tokens one after the other. -/
def steps (name : Nat → String) : Reading → List Token → Except ParseError Reading
  | state, [] => .ok state
  | state, token :: rest =>
      match state.step name token with
      | .error e => .error e
      | .ok state => steps name state rest

/-- The one element of a fragment whose tokens have all been read. -/
def finish (state : Reading) : Except ParseError Node :=
  match state.stack with
  | top :: _ => .error ⟨.neverClosed top.tag, none⟩
  | [] =>
      match state.roots with
      | [root] => .ok root
      | [] => .error ⟨.noRoot, none⟩
      | roots => .error ⟨.severalRoots (roots.reverse.map Node.tag), none⟩

end Reading

namespace Fragment

/-- The identifiers given to the elements of a fragment when nobody asks for others. -/
def plainName (count : Nat) : String :=
  "node_" ++ toString count

/--
The root element of a fragment; `name` gives the identifier of the element opened at each count.

A fault in the tokens before the end of the cut comes before the fault that ended the cut.
-/
def read (name : Nat → String) (text : List Char) : Except ParseError Node :=
  let cut := Token.cut text
  match Reading.start.steps name cut.tokens with
  | .error e => .error e
  | .ok state =>
      match cut.fault with
      | some e => .error e
      | none => state.finish

/-- The root element of a fragment. -/
def parse (source : String) : Except ParseError Node :=
  read plainName source.toList

end Fragment

end Markup

end ComponentBuilder
