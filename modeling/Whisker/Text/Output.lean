import Whisker.Text.Basic

/-! What becomes of rendered output: the escaping for HTML and the indentation of lines. -/

namespace Whisker.Text

/-! ## Escaping

The five special characters become entities. -/

/-- How one character is written in escaped text. -/
def entity : Char → Text
  | '&' => "&amp;".toList
  | '<' => "&lt;".toList
  | '>' => "&gt;".toList
  | '"' => "&quot;".toList
  | '\'' => "&#39;".toList
  | c => [c]

def replaceChar (c : Char) (replacement : Text) (t : Text) : Text :=
  t.flatMap fun d => if d = c then replacement else [d]

/-- Replaces the ampersand first, so that the entities of the later replacements stay whole. -/
def escapeHtml (t : Text) : Text :=
  ['&', '<', '>', '"', '\''].foldl (fun t c => replaceChar c (entity c) t) t

/-! ## Lines

Every vertical break ends a line here, and a carriage return with its line feed is one break. -/

def isBreak (c : Char) : Bool :=
  let n := c.toNat
  (0x0a ≤ n && n ≤ 0x0d) || (0x1c ≤ n && n ≤ 0x1e) || n == 0x85 || n == 0x2028 || n == 0x2029

/-- The lines of a text, each with the break that ends it; a last line may have none. -/
def lines : Text → List Text
  | [] => []
  | '\r' :: '\n' :: rest => ['\r', '\n'] :: lines rest
  | c :: rest =>
    if isBreak c then [c] :: lines rest
    else match lines rest with
      | [] => [[c]]
      | line :: more => (c :: line) :: more

/-- Puts `indent` before each line. -/
def indentLines (indent t : Text) : Text := (lines t).flatMap (indent ++ ·)

end Whisker.Text
