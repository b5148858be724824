import Whisker.Text.Numeral
import Whisker.View.Call

/-! Looking up a name inside one value. -/

namespace Whisker.Value

/-! ## Items -/

/-- Digits behind any number of minus signs ask for an item. -/
def asksForItem (key : Text) : Bool :=
  let digits := key.dropWhile (· = '-')
  !digits.isEmpty && digits.all Text.isDigit

/-- The item at an index; negative indices count from the end. -/
def itemAt? (items : List Value) (i : Int) : Option Value :=
  if i < 0 then (if -i ≤ items.length then items[(items.length + i).toNat]? else none)
  else items[i.toNat]?

theorem mem_of_itemAt? {items : List Value} {i : Int} {v : Value} (h : itemAt? items i = some v) :
    v ∈ items := by
  rw [itemAt?] at h
  split at h
  · split at h
    · exact List.mem_of_getElem? h
    · cases h
  · exact List.mem_of_getElem? h

/-- The item that a numeric key names. -/
def item (items : List Value) (key : Text) : Run Value :=
  match Text.readInteger 10 key with
  | .ok i => return (itemAt? items i).getD .missing
  | .error .malformed => throw (.badNumeral 10 key)
  | .error (.tooLong digits) => throw (.numeralTooLong digits)

/-! ## Members -/

/-- Whether a failure says that there is no such member. -/
def saysNoMember : Failure → Bool
  | .noSuchMember _ => true
  | .raised kind _ => kind = "AttributeError".toList
  | _ => false

/-- A public member. A method that needs no arguments is called, any other one is the value. -/
def publicMember (depth : Nat) (v : Value) (key : Text) : Run Value :=
  if key.head? = some '_' then return .missing
  else do
    let found ← tryCatch (member depth v key) fun e =>
      if saysNoMember e then return .missing else throw e
    match found with
    | .function f _ true =>
      if f.arity.acceptsNone then found.call depth cannotRender [] else return found
    | _ => return found

/-- What a key names inside a value: an entry of a dictionary, an item of a sequence, or a public
member. -/
def lookup (depth : Nat) (v : Value) (key : Text) : Run Value :=
  match v with
  | .dict entries => return (Entries.get? entries key).getD .missing
  | .null | .bool _ | .int _ | .float _ | .text _ | .bytes _ | .buffer _ => return .missing
  | .list items | .tuple items => if asksForItem key then item items key else return .missing
  | .record _ fields =>
    if asksForItem key then item (fields.map (·.2)) key else publicMember depth v key
  | _ => publicMember depth v key

end Whisker.Value
