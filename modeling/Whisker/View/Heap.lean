import Whisker.Failure
import Whisker.View.Value

/-! What values remember, and reading values item by item. -/

namespace Whisker

/-- How often each function was called, and which iterators were read. -/
structure Heap where
  nextIdentity : Nat
  calls : List (Nat × Nat)
  drained : List Nat

namespace Heap

/-- The heap before anything was called or read. Values built earlier have the identities below
`nextIdentity`. -/
def fresh (nextIdentity : Nat) : Heap := ⟨nextIdentity, [], []⟩

def callsOf (heap : Heap) (id : Nat) : Nat := (heap.calls.lookup id).getD 0

/-- Counts one more call of a function. -/
def count (heap : Heap) (id : Nat) : Heap :=
  { heap with calls := (id, heap.callsOf id + 1) :: heap.calls.filter (·.1 ≠ id) }

def drain (heap : Heap) (id : Nat) : Heap :=
  { heap with drained := id :: heap.drained.filter (· ≠ id) }

end Heap

/-! ## Lengths -/

namespace Object

/-- The end of the lengths that an object can report. -/
def lengthEnd : Int := 9223372036854775808

/-- The length that an object reports, if it reports one. -/
def size? (o : Object) : Except Failure (Option Nat) :=
  match o.length with
  | none => .ok none
  | some n =>
    if n < 0 then .error .negativeLength
    else if lengthEnd ≤ n then .error .lengthTooLarge
    else .ok (some n.toNat)

/-- The most items that there is room for. -/
def mostItems : Nat := 68719476736

/-- The items of an object. Room is made for as many as its length promises. -/
def readItems (o : Object) : Except Failure (Option (List Value)) :=
  match o.items with
  | none => .ok none
  | some items =>
    match o.size? with
    | .error e => .error e
    | .ok promised => if promised.any (mostItems < ·) then .error .outOfMemory else .ok (some items)

theorem items_of_readItems {o : Object} {vs : List Value}
    (h : o.readItems = .ok (some vs)) : o.items = some vs := by
  rw [readItems] at h
  split at h
  · cases h
  · rename_i items hi
    rw [hi]
    split at h
    · cases h
    · split at h
      · cases h
      · cases h
        rfl

end Object

/-! ## Reading -/

/-- Steps that read values. A failed step keeps its effects. -/
abbrev Reading := ExceptT Failure (StateM Heap)

namespace Reading

def ofResult {α : Type} (result : Except Failure α) : Reading α := ExceptT.mk (pure result)

/-- Reads an iterator: the first reader gets the items. -/
def iterator (id : Identity) (items : List Value) : Reading (List Value) :=
  match id with
  | none => return items
  | some id => modifyGet fun heap =>
    if heap.drained.contains id then ([], heap) else (items, heap.drain id)

/-- The items of a value that can be read item by item. -/
def items? (v : Value) : Reading (Option (List Value)) :=
  match v with
  | .iterator id items => some <$> iterator id items
  | .object o => ofResult o.readItems
  | v => return v.items?

end Reading

end Whisker
