import Whisker.View.Value

/-! Building values: each iterator and function that has no identity yet gets the next one. -/

namespace Whisker

/-- Hands out identities in order. -/
abbrev Builder := StateM Nat

namespace Builder

def identity : Identity → Builder Identity
  | some id => pure (some id)
  | none => modifyGet fun next => (some next, next + 1)

end Builder

def Function.build : Function → Builder Function
  | .mk id arity body => do return .mk (← Builder.identity id) arity body

def Method.build : Method → Builder Method
  | .bound f => do return .bound (← f.build)
  | .static f => do return .static (← f.build)

namespace Value

mutual

def build : Value → Builder Value
  | .list items => do return .list (← buildItems items)
  | .tuple items => do return .tuple (← buildItems items)
  | .record name fields => do return .record name (← buildEntries fields)
  | .dict entries => do return .dict (← buildEntries entries)
  | .iterator id items => do
    let items ← buildItems items
    return .iterator (← Builder.identity id) items
  | .subView template view => do return .subView template (← build view)
  | .function f receiver bound => do
    let receiver ← match receiver with
      | some receiver => some <$> build receiver
      | none => pure none
    return .function (← f.build) receiver bound
  | .object o => do return .object (← buildObject o)
  | v => pure v

def buildObject : Object → Builder Object
  | .mk attributes methods properties items length call printed => do
    let attributes ← buildEntries attributes
    let methods ← methods.mapM fun (name, method) => do return (name, ← method.build)
    let properties ← properties.mapM fun (name, f) => do return (name, ← f.build)
    let items ← match items with
      | some items => some <$> buildItems items
      | none => pure none
    let call ← call.mapM Function.build
    return .mk attributes methods properties items length call printed

def buildItems : List Value → Builder (List Value)
  | [] => pure []
  | item :: items => do
    let item ← build item
    return item :: (← buildItems items)

def buildEntries : List (Text × Value) → Builder (List (Text × Value))
  | [] => pure []
  | (name, value) :: entries => do
    let value ← build value
    return (name, value) :: (← buildEntries entries)

end

end Value

end Whisker
