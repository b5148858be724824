import Whisker.Entries
import Whisker.Text.Characters

/-! What makes up a tag: the pair of marks between which it stands, and the name and the parameters
that a pragma tag holds. -/

namespace Whisker

/-! ## Delimiters -/

/-- Each mark has a character that is not blank. -/
structure Delimiters where
  opening : Text
  closing : Text
  opening_ink : Text.hasInk opening = true
  closing_ink : Text.hasInk closing = true
deriving DecidableEq

namespace Delimiters

def ofTexts? (opening closing : Text) : Option Delimiters :=
  if ho : Text.hasInk opening = true then
    if hc : Text.hasInk closing = true then some ⟨opening, closing, ho, hc⟩ else none
  else none

/-- Double braces. -/
def standard : Delimiters := ⟨['{', '{'], ['}', '}'], by decide, by decide⟩

/-- The opening mark and the closing one. -/
def texts (d : Delimiters) : List Text := [d.opening, d.closing]

/-- The pair in one text, with a space between the marks. -/
def text (d : Delimiters) : Text := d.opening ++ ' ' :: d.closing

theorem opening_ne_nil (d : Delimiters) : d.opening ≠ [] := Text.ne_nil_of_hasInk d.opening_ink

theorem closing_ne_nil (d : Delimiters) : d.closing ≠ [] := Text.ne_nil_of_hasInk d.closing_ink

end Delimiters

/-! ## Pragma tags -/

structure PragmaCall where
  name : Text
  params : Entries Text
deriving DecidableEq

namespace PragmaCall

/-- A parameter `key=value`; without the sign the value is empty. -/
def param (word : Text) : Text × Text := (Text.cut? ['='] word).getD (word, [])

/-- The first word is the name. A blank text is no call. -/
def ofText? (t : Text) : Option PragmaCall :=
  match Text.words t with
  | [] => none
  | name :: params => some ⟨name, Entries.ofPairs (params.map param)⟩

end PragmaCall

end Whisker
