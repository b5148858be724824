import Whisker.Template.Fault
import Whisker.Template.Token

/-! Scanning a source text into tokens. The scan keeps the rest of the source, the place where the
rest starts and the delimiters in force. -/

namespace Whisker.Token

/-! ## Tags -/

/-- A pair of new delimiters from the content of a change tag, equality signs included. -/
def delimitersOfChange? (content : Text) : Option Delimiters :=
  if 2 ≤ content.length && content.getLast? = some '=' then
    match Text.words ((content.drop 1).dropLast) with
    | [opening, closing] =>
      if opening.contains '=' || closing.contains '=' then none
      else Delimiters.ofTexts? opening closing
    | _ => none
  else none

def named (make : Text → Lexeme) (name : Text) : Except Fault Lexeme :=
  if name.isEmpty then .error .emptyTagName else .ok (make name)

/-- The lexeme of a tag with the given trimmed content. -/
def lexemeOfContent (content : Text) : Except Fault Lexeme :=
  let body := Text.strip (content.drop 1)
  match content.head? with
  | some '#' => named (.opening .plain) body
  | some '^' => named (.opening .inverted) body
  | some '$' => named (.opening .block) body
  | some '<' => named (.opening .parent) body
  | some '/' => named .closing body
  | some '>' => named .inclusion body
  | some '&' => named .raw body
  | some '!' => .ok (.comment body)
  | some '%' => named .pragma body
  | some '=' =>
    match delimitersOfChange? content with
    | some next => .ok (.delimiterChange next)
    | none => .error (.malformedDelimiterChange content)
  | _ => named .variable content

/-- What stands between the opening mark of a tag and the rest of the source. -/
structure Reading where
  lexeme : Lexeme
  source : Text
  rest : Text

/-- Reads a tag of which the opening mark is already gone. A brace after that mark asks for one
before the closing mark. -/
def readTag (d : Delimiters) (t : Text) : Except Fault Reading :=
  match t with
  | '{' :: inner =>
    let mark := '}' :: d.closing
    match Text.cut? mark inner with
    | none => .error (.unclosedTag mark)
    | some (content, rest) => do
      let lexeme ← named .raw (Text.strip content)
      .ok ⟨lexeme, '{' :: content ++ mark, rest⟩
  | _ =>
    match Text.cut? d.closing t with
    | none => .error (.unclosedTag d.closing)
    | some (content, rest) => do
      let lexeme ← lexemeOfContent (Text.strip content)
      .ok ⟨lexeme, content ++ d.closing, rest⟩

theorem eq_of_readTag {d : Delimiters} {t : Text} {r : Reading} (h : readTag d t = .ok r) :
    t = r.source ++ r.rest := by
  unfold readTag at h
  simp only [bind, Except.bind] at h
  split at h
  · split at h
    · cases h
    · next hc =>
      split at h <;> cases h
      simp [Text.eq_of_cut? hc]
  · split at h
    · cases h
    · next hc =>
      split at h <;> cases h
      simpa using Text.eq_of_cut? hc

/-! ## Tags alone on their line -/

/-- Only spaces and tabs may surround a tag that stands alone. -/
def isPad (c : Char) : Bool := c = ' ' || c = '\t'

/-- The text up to its last line feed, and the rest of it. -/
def splitLastLine : Text → Text × Text
  | [] => ([], [])
  | c :: t =>
    let (lines, last) := splitLastLine t
    if lines.isEmpty && c ≠ '\n' then ([], c :: last) else (c :: lines, last)

/-- The padding and the line break that end a line, and the rest of the source. -/
def lineTail? (t : Text) : Option (Text × Text) :=
  let pad := t.takeWhile isPad
  match t.dropWhile isPad with
  | [] => some (pad, [])
  | '\n' :: rest => some (pad ++ ['\n'], rest)
  | '\r' :: '\n' :: rest => some (pad ++ ['\r', '\n'], rest)
  | _ => none

/-- The surroundings of a tag that is alone on its line. -/
structure Line where
  /-- The text before the line. -/
  above : Text
  indent : Text
  tail : Text
  below : Text

/-- The line of a tag between `before`, which starts at `p`, and `rest`, if nothing else is on
it. -/
def aloneOnLine? (p : Place) (before rest : Text) : Option Line :=
  let (above, indent) := splitLastLine before
  if (above.isEmpty && p.column ≠ 1) || !indent.all isPad then none
  else (lineTail? rest).map fun (tail, below) => ⟨above, indent, tail, below⟩

theorem eq_of_lineTail? {t tail below : Text} (h : lineTail? t = some (tail, below)) :
    t = tail ++ below := by
  have ht := (List.takeWhile_append_dropWhile (p := isPad) (l := t)).symm
  unfold lineTail? at h
  simp only at h
  split at h <;> cases h <;> rename_i hd <;> rw [hd] at ht <;> simpa using ht

theorem eq_of_aloneOnLine? {p : Place} {before rest : Text} {l : Line}
    (h : aloneOnLine? p before rest = some l) : rest = l.tail ++ l.below := by
  unfold aloneOnLine? at h
  simp only at h
  split at h
  · cases h
  · obtain ⟨⟨tail, below⟩, ht, rfl⟩ := Option.map_eq_some_iff.mp h
    exact eq_of_lineTail? ht

/-! ## The scan -/

/-- The token of a stretch of text, if it is not empty. -/
def textTokens (p : Place) (t : Text) : List Token := if t.isEmpty then [] else [ofText p t]

/-- The tokens up to and including a tag, and what the scan goes on with. -/
structure Step where
  tokens : List Token
  delimiters : Delimiters
  place : Place
  rest : Text

def nextDelimiters (d : Delimiters) : Lexeme → Delimiters
  | .delimiterChange next => next
  | _ => d

/-- The step over a tag that has been read, between `before` and the rest. -/
def step (d : Delimiters) (p : Place) (before : Text) (r : Reading) : Step :=
  let place := p.after before
  let tag := d.opening ++ r.source
  let stop := place.offset + tag.length
  let alone := if r.lexeme.standsAlone then aloneOnLine? p before r.rest else none
  match alone with
  | some line =>
    let token : Token := ⟨r.lexeme, place, stop, place.offset - line.indent.length,
      stop + line.tail.length, some line.indent, d⟩
    ⟨textTokens p line.above ++ [token], nextDelimiters d r.lexeme,
      (place.after tag).after line.tail, line.below⟩
  | none =>
    let token : Token := ⟨r.lexeme, place, stop, place.offset, stop, none, d⟩
    ⟨textTokens p before ++ [token], nextDelimiters d r.lexeme, place.after tag, r.rest⟩

theorem length_step_le (d : Delimiters) (p : Place) (before : Text) (r : Reading) :
    (step d p before r).rest.length ≤ r.rest.length := by
  unfold step
  simp only
  split
  · next line h =>
    split at h
    · have := congrArg List.length (eq_of_aloneOnLine? h)
      simp only [List.length_append] at this
      simp only
      omega
    · cases h
  · exact Nat.le_refl _

theorem length_step_lt {d : Delimiters} {p : Place} {t before inner : Text} {r : Reading}
    (hc : Text.cut? d.opening t = some (before, inner)) (hr : readTag d inner = .ok r) :
    (step d p before r).rest.length < t.length := by
  have h₁ := Text.length_of_cut? hc
  have h₂ := congrArg List.length (eq_of_readTag hr)
  have h₃ := length_step_le d p before r
  have h₄ := List.length_pos_iff.mpr d.opening_ne_nil
  simp only [List.length_append] at h₂
  omega

/-- The tokens of a source that starts at `p`, scanned from the delimiters `d` on. -/
def scanFrom (d : Delimiters) (p : Place) (t : Text) : Except TemplateError (List Token) :=
  match hc : Text.cut? d.opening t with
  | none => .ok (textTokens p t)
  | some (before, inner) =>
    match hr : readTag d inner with
    | .error fault => .error ⟨fault, p.after before⟩
    | .ok reading =>
      let s := step d p before reading
      have := length_step_lt hc hr (p := p)
      match scanFrom s.delimiters s.place s.rest with
      | .error e => .error e
      | .ok more => .ok (s.tokens ++ more)
termination_by t.length

def scan (d : Delimiters) (t : Text) : Except TemplateError (List Token) := scanFrom d .start t

end Whisker.Token
