import Whisker.Template.Node

/-! The outline of a document: one line for each node, indented by depth. -/

namespace Whisker.Node

def enclosureTitle : Enclosure → String
  | .plain => "SectionNode"
  | .inverted => "InvertedSectionNode"
  | .block => "BlockNode"
  | .parent => "ParentNode"

/-- At most fifty characters of a text, quoted. -/
def preview (content : Text) : Text :=
  Text.quoted (if content.length > 50 then content.take 50 ++ "...".toList else content)

/-- A title and a name in quotes. -/
def titled (title : String) (name : Text) : Text :=
  title.toList ++ "('".toList ++ name ++ "')".toList

/-- The line of a node by itself. -/
def headline : Node → Text
  | .text content => "TextNode(".toList ++ preview content ++ [')']
  | .variable name escaped _ =>
    "VariableNode('".toList ++ name ++ "', escaped=".toList ++
      (if escaped then "True" else "False").toList ++ [')']
  | .comment _ => "CommentNode".toList
  | .delimiterChange _ => "DelimiterNode".toList
  | .pragma call _ => titled "PragmaNode" call.name
  | .inclusion name _ => titled "PartialNode" name
  | .enclosure kind name .. => titled (enclosureTitle kind) name

mutual

def outlineLines (depth : Nat) : Node → List Text
  | node@(.enclosure _ _ children ..) =>
    (List.replicate (2 * depth) ' ' ++ headline node) :: forestLines (depth + 1) children
  | node => [List.replicate (2 * depth) ' ' ++ headline node]

def forestLines (depth : Nat) : List Node → List Text
  | [] => []
  | node :: nodes => outlineLines depth node ++ forestLines depth nodes

end

/-- The outline of a whole document. -/
def outline (document : List Node) : Text := Text.join ['\n'] (forestLines 0 document)

end Whisker.Node
