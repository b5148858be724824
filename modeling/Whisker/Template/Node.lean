import Whisker.Template.Tag
import Whisker.Template.Token.Scan

/-! Documents: templates as trees of nodes. -/

namespace Whisker

inductive Node where
  | text (content : Text)
  | variable (name : Text) (escaped : Bool) (place : Place)
  | comment (content : Text)
  | delimiterChange (next : Delimiters)
  | pragma (call : PragmaCall) (place : Place)
  /-- The indent is there when the tag is alone on its line. -/
  | inclusion (name : Text) (indent : Option Text)
  /-- `body` is the source between the tags. -/
  | enclosure (kind : Enclosure) (name : Text) (children : List Node) (body : Text)
      (delimiters : Delimiters) (place : Place) (indent : Text)

namespace Node

/-! ## From tokens -/

/-- An enclosure whose closing tag has not come yet. The nodes before it and those inside it are
kept in reverse. -/
structure Opened where
  kind : Enclosure
  name : Text
  token : Token
  before : List Node

/-- The node between an opening tag and the closing token; `children` are in reverse. -/
def enclose (source : Text) (opened : Opened) (closing : Token) (children : List Node) : Node :=
  let start := opened.token
  let body := (source.drop start.stop).take (closing.place.offset - start.stop)
  .enclosure opened.kind opened.name children.reverse body start.delimiters start.place
    (start.indent.getD [])

/-- Builds the tree with a stack of enclosures still open. `nodes` are the finished nodes of the
innermost one, in reverse. -/
def grow (source : Text) :
    List Token → List Opened → List Node → Except TemplateError (List Node)
  | [], [], nodes => .ok nodes.reverse
  | [], opened :: _, _ => .error ⟨.unclosedSection opened.name, opened.token.place⟩
  | token :: tokens, stack, nodes =>
    match token.lexeme with
    | .text content => grow source tokens stack (.text content :: nodes)
    | .variable name => grow source tokens stack (.variable name true token.place :: nodes)
    | .raw name => grow source tokens stack (.variable name false token.place :: nodes)
    | .comment content => grow source tokens stack (.comment content :: nodes)
    | .delimiterChange next => grow source tokens stack (.delimiterChange next :: nodes)
    | .inclusion name => grow source tokens stack (.inclusion name token.indent :: nodes)
    | .pragma content =>
      match PragmaCall.ofText? content with
      | some call => grow source tokens stack (.pragma call token.place :: nodes)
      | none => .error ⟨.blankPragma, token.place⟩
    | .opening kind name => grow source tokens (⟨kind, name, token, nodes⟩ :: stack) []
    | .closing name =>
      match stack with
      | [] => .error ⟨.closingWithoutOpening name, token.place⟩
      | opened :: stack =>
        if opened.name = name then
          grow source tokens stack (enclose source opened token nodes :: opened.before)
        else
          let start := opened.token.place
          .error ⟨.closedByOther opened.name start.line start.column name, token.place⟩

/-- The document of a tokenized source. -/
def ofTokens (source : Text) (tokens : List Token) : Except TemplateError (List Node) :=
  grow source tokens [] []

/-- The document of a source, read with the delimiters `d`. -/
def parse (d : Delimiters) (source : Text) : Except TemplateError (List Node) := do
  let tokens ← Token.scan d source
  ofTokens source tokens

end Node

end Whisker
