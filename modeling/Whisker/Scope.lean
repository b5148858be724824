import Whisker.View.Lookup

/-! Scopes: the frames in which names are resolved, innermost first. -/

namespace Whisker

/-- A value in scope, perhaps with a label, under which it is found before anything inside it. -/
structure Frame where
  value : Value
  label : Option Text

abbrev Scope := List Frame

namespace Scope

def ofView (view : Value) : Scope := [⟨view, none⟩]

def push (value : Value) (label : Option Text) (scope : Scope) : Scope := ⟨value, label⟩ :: scope

/-- The innermost value. -/
def top (scope : Scope) : Value :=
  match scope with
  | [] => .missing
  | frame :: _ => frame.value

def describe (scope : Scope) : String := s!"ContextStack(depth={scope.length})"

/-- An iterator stands for the tuple of its items. -/
def settle (v : Value) : Run Value :=
  match v with
  | .iterator id items => return .tuple (← Run.meetIterator id items)
  | v => return v

/-- The value of a name without dots: the innermost frame that has the label or defines the
name. -/
def resolveHead (depth : Nat) (name : Text) : Scope → Run Value
  | [] => return .missing
  | frame :: frames => do
    if frame.label = some name then return frame.value
    match ← frame.value.lookup depth name with
    | .missing => resolveHead depth name frames
    | v => return v

/-- Follows names strictly inside a value. -/
def descend (depth : Nat) (v : Value) : List Text → Run Value
  | [] => return v
  | name :: names => do
    if v.isMissing then return v
    let inner ← (← settle v).lookup depth name
    descend depth inner names

/-- The value of a name. A single dot is the innermost value; otherwise the part before the first
dot is looked for in all frames, and the other parts inside what was found. -/
def resolve (depth : Nat) (scope : Scope) (name : Text) : Run Value := do
  if name = ['.'] then settle scope.top
  else match Text.pieces (· = '.') name with
    | [] => return .missing
    | head :: rest => settle (← descend depth (← resolveHead depth head scope) rest)

/-- The value at which a name ends. This may be an iterator. -/
def reach (depth : Nat) (scope : Scope) (name : Text) : Run Value := do
  if name = ['.'] then return scope.top
  match Text.pieces (· = '.') name with
  | [] => return .missing
  | head :: rest => descend depth (← resolveHead depth head scope) rest

theorem resolve_eq_settle (depth : Nat) (scope : Scope) (name : Text) :
    scope.resolve depth name = scope.reach depth name >>= settle := by
  unfold resolve reach
  split
  · rfl
  · split
    · rfl
    · rw [bind_assoc]

end Scope

end Whisker
