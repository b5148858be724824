import Whisker.Text.Basic

/-! Places in a source text: the offset, and the line and column that a reader sees. -/

namespace Whisker

/-- Lines and columns count from one. Only a line feed starts a new line. -/
structure Place where
  offset : Nat
  line : Nat
  column : Nat
deriving DecidableEq, Repr

namespace Place

def start : Place := ⟨0, 1, 1⟩

def next (p : Place) (c : Char) : Place :=
  if c = '\n' then ⟨p.offset + 1, p.line + 1, 1⟩ else ⟨p.offset + 1, p.line, p.column + 1⟩

/-- The place behind `t`, which starts at `p`. -/
def after (p : Place) (t : Text) : Place := t.foldl next p

@[simp] theorem after_nil (p : Place) : p.after [] = p := rfl

@[simp] theorem after_cons (p : Place) (c : Char) (t : Text) :
    p.after (c :: t) = (p.next c).after t := rfl

theorem after_append (p : Place) (s t : Text) : p.after (s ++ t) = (p.after s).after t :=
  List.foldl_append

@[simp] theorem offset_after (p : Place) (t : Text) :
    (p.after t).offset = p.offset + t.length := by
  induction t generalizing p with
  | nil => rfl
  | cons c t ih =>
    rw [after_cons, ih, next]
    split <;> simp <;> omega

end Place

end Whisker
