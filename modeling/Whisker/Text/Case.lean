import Whisker.Text.Case.Tables

/-! Letter case: upper, lower and title case of whole texts. A character may map to several, and
a sigma that ends a word has a lower case of its own. -/

namespace Whisker.Text

namespace Case

def mapped (sequences : List (Nat × List Nat)) (shifts : List Shift) (c : Char) : Text :=
  match sequences.lookup c.toNat with
  | some codes => codes.map Char.ofNat
  | none => [shift shifts c]

def upper (c : Char) : Text := mapped upperSequences upperShifts c

def title (c : Char) : Text := mapped titleSequences titleShifts c

def isCased (c : Char) : Bool := inRanges casedRanges c

/-- Whether the nearest character that is not looked through is a cased letter. -/
def nextIsCased (t : Text) : Bool :=
  ((t.dropWhile (inRanges ignorableRanges)).head?).any isCased

/-- The lower case of `c` between the reversed text `before` and the text `after`. -/
def lower (before : Text) (c : Char) (after : Text) : Text :=
  if c = 'Σ' then
    if nextIsCased before && !nextIsCased after then ['ς'] else ['σ']
  else mapped lowerSequences lowerShifts c

/-- Replaces each character by its image under `f`, which sees the reversed text before the
character and the text after it. -/
def mapInContext (f : Text → Char → Text → Text) : Text → Text → Text
  | _, [] => []
  | before, c :: after => f before c after ++ mapInContext f (c :: before) after

end Case

def upper (t : Text) : Text := t.flatMap Case.upper

def lower (t : Text) : Text := Case.mapInContext Case.lower [] t

/-- The first character in title case, the others in lower case. -/
def capitalize (t : Text) : Text :=
  Case.mapInContext
    (fun before c after => if before.isEmpty then Case.title c else Case.lower before c after) [] t

/-- Each cased letter in lower case after another one and in title case elsewhere. -/
def title (t : Text) : Text :=
  Case.mapInContext
    (fun before c after =>
      if before.head?.any Case.isCased then Case.lower before c after else Case.title c) [] t

end Whisker.Text
