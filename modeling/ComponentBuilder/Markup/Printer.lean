import ComponentBuilder.Markup.Tree

/-!
# Writing markup

The canonical text of a tree: one blank before each attribute, an element without children closed in
place, and every other element, fragments in any case, as a pair of tags.
-/

namespace ComponentBuilder

namespace Markup

/-- A string value in quotes: double ones, or single ones when only double quotes are inside. -/
def quoteValue (value : List Char) : List Char :=
  if value.contains '"' && !value.contains '\'' then '\'' :: (value ++ ['\''])
  else '"' :: (value ++ ['"'])

/-- The text of an attribute. -/
def renderAttribute (name : String) : AttributeValue → List Char
  | .flag true => name.toList
  | .flag false => name.toList ++ "=\x7bfalse\x7d".toList
  | .expression source => name.toList ++ '=' :: source.toList
  | .text value => name.toList ++ '=' :: quoteValue value.toList

/-- The text of all attributes, each with a blank in front. -/
def renderAttributes (attributes : Attributes) : List Char :=
  attributes.entries.flatMap fun entry => ' ' :: renderAttribute entry.1 entry.2

mutual

/-- The text of an element. -/
def Node.render : Node → List Char
  | .mk _ tag attributes children =>
      '<' :: (tag.toList ++ renderAttributes attributes ++
        if children.isEmpty && !tag.isEmpty then " />".toList
        else '>' :: (renderChildren children ++ "</".toList ++ tag.toList ++ ['>']))
termination_by structural node => node

/-- The text of children, one after the other. -/
def renderChildren : List Child → List Char
  | [] => []
  | .text value :: rest => value.toList ++ renderChildren rest
  | .element node :: rest => node.render ++ renderChildren rest
termination_by structural children => children

end

/-- The canonical text of a tree. -/
def Node.text (node : Node) : String :=
  String.ofList node.render

end Markup

end ComponentBuilder
