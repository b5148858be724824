import Whisker.Template.Place
import Whisker.Template.Tag
import Whisker.Text.Quoted

/-! Tokens: stretches of text and tags, with their places in the source. -/

namespace Whisker

/-- The tags that open something which a closing tag ends. -/
inductive Enclosure where
  | plain
  | inverted
  | block
  | parent
deriving DecidableEq, Repr

/-- What a token says. -/
inductive Lexeme where
  | text (content : Text)
  | variable (name : Text)
  /-- A variable whose value is not escaped. -/
  | raw (name : Text)
  | opening (kind : Enclosure) (name : Text)
  | closing (name : Text)
  | inclusion (name : Text)
  | comment (content : Text)
  | delimiterChange (next : Delimiters)
  | pragma (content : Text)
deriving DecidableEq

namespace Lexeme

/-- The text of a stretch, or what a tag says after its sigil. -/
def value : Lexeme → Text
  | .text content => content
  | .variable name => name
  | .raw name => name
  | .opening _ name => name
  | .closing name => name
  | .inclusion name => name
  | .comment content => content
  | .delimiterChange next => next.text
  | .pragma content => content

def kindName : Lexeme → String
  | .text _ => "TEXT"
  | .variable _ => "VARIABLE"
  | .raw _ => "RAW_VARIABLE"
  | .opening .plain _ => "SECTION_OPEN"
  | .opening .inverted _ => "INVERTED_OPEN"
  | .opening .block _ => "BLOCK_OPEN"
  | .opening .parent _ => "PARENT_OPEN"
  | .closing _ => "SECTION_CLOSE"
  | .inclusion _ => "PARTIAL"
  | .comment _ => "COMMENT"
  | .delimiterChange _ => "DELIMITER_CHANGE"
  | .pragma _ => "PRAGMA"

def isText : Lexeme → Bool
  | .text _ => true
  | _ => false

/-- Whether the tag vanishes together with its line when it is alone on it. -/
def standsAlone : Lexeme → Bool
  | .text _ => false
  | .variable _ => false
  | .raw _ => false
  | _ => true

end Lexeme

/-- The lexeme itself ends before `stop`. The token covers the source from `rawStart` to
`rawStop`, which is more when the rest of the line belongs to it. -/
structure Token where
  lexeme : Lexeme
  place : Place
  stop : Nat
  rawStart : Nat
  rawStop : Nat
  /-- The blanks before a tag that is alone on its line. -/
  indent : Option Text
  /-- The pair in force for a tag; the standard one for text. -/
  delimiters : Delimiters
deriving DecidableEq

namespace Token

def isStandalone (t : Token) : Bool := t.indent.isSome

/-- A stretch of text at `place`. -/
def ofText (place : Place) (content : Text) : Token :=
  let stop := place.offset + content.length
  ⟨.text content, place, stop, place.offset, stop, none, .standard⟩

/-- The kind, the quoted value and the place of a token in one line. -/
def describe (t : Token) : String :=
  s!"Token({t.lexeme.kindName}, {(Text.quoted t.lexeme.value).string}, " ++
    s!"{t.place.line}:{t.place.column})"

end Token

end Whisker
