import Whisker.Text.Basic

/-! Paths: an anchor and the names below it. -/

namespace Whisker

/-- The anchor is empty for a relative path. -/
structure Path where
  anchor : Text
  parts : List Text
deriving DecidableEq

namespace Path

/-- Splits at slashes. Empty names and single dots say nothing; exactly two slashes in front are an
anchor of their own. -/
def ofText (t : Text) : Path :=
  let slashes := (t.takeWhile (· = '/')).length
  let anchor := if slashes = 0 then [] else if slashes = 2 then ['/', '/'] else ['/']
  ⟨anchor, (Text.pieces (· = '/') t).filter fun part => !part.isEmpty && part ≠ ['.']⟩

def isAbsolute (p : Path) : Bool := !p.anchor.isEmpty

/-- The path `q` as seen from `p`. -/
def join (p q : Path) : Path := if q.isAbsolute then q else ⟨p.anchor, p.parts ++ q.parts⟩

def text (p : Path) : Text :=
  if p.anchor.isEmpty && p.parts.isEmpty then ['.']
  else p.anchor ++ Text.join ['/'] p.parts

def name? (p : Path) : Option Text := p.parts.getLast?

def parent (p : Path) : Path := ⟨p.anchor, p.parts.dropLast⟩

/-- Replaces the last name by the only one that a text says; a slash at the end of it is not
allowed. -/
def withName? (p : Path) (t : Text) : Option Path :=
  match ofText t with
  | ⟨[], [name]⟩ =>
    if t.getLast? = some '/' then none else some ⟨p.anchor, p.parts.dropLast ++ [name]⟩
  | _ => none

/-- Follows the parts, so that two dots lead to the parent. All anchors lead to one root. -/
def normalize (p : Path) : Path :=
  ⟨p.anchor.take 1, p.parts.foldl (fun parts part =>
    if part = ['.', '.'] then parts.dropLast else parts ++ [part]) []⟩

end Path

end Whisker
