import Whisker.Entries
import Whisker.Number.Shortest

/-! View data: what templates are rendered against. Scalars and collections are plain data;
iterators and functions have an identity, because they remember how they were used. -/

namespace Whisker

/-- Values have no identity until they are built; a built one keeps its identity wherever it is
shared. -/
abbrev Identity := Option Nat

/-- The positional arguments that a function accepts. -/
inductive Arity where
  | exactly (n : Nat)
  | any
  /-- One argument that may be left out. -/
  | optional
  /-- No positional arguments, but any named ones. -/
  | named
  /-- One named argument that may be left out. -/
  | namedOptional
  /-- One named argument that must be given, which no call here does. -/
  | namedRequired
  | oneOrTwo
deriving DecidableEq

namespace Arity

def acceptsNone : Arity → Bool
  | .exactly n => n = 0
  | .any | .optional | .named | .namedOptional => true
  | .namedRequired | .oneOrTwo => false

end Arity

mutual

inductive Value where
  /-- The mark of a name that was not found. -/
  | missing
  | null
  | bool (b : Bool)
  | int (i : Int)
  | float (x : Binary64)
  | text (t : Text)
  | bytes (content : List UInt8)
  /-- Bytes that can change; in sections these count as a list of numbers. -/
  | buffer (content : List UInt8)
  | list (items : List Value)
  | tuple (items : List Value)
  /-- A tuple with a name for each item. -/
  | record (name : Text) (fields : List (Text × Value))
  | dict (entries : List (Text × Value))
  /-- Yields its items once, to the first reader. It has no members; the attributes in which a
  generator tells its state are not modelled. -/
  | iterator (id : Identity) (items : List Value)
  /-- A view with a template of its own. -/
  | subView (template : Text) (view : Value)
  /-- A function; `bound` says that it is a method looked up on its receiver. -/
  | function (f : Function) (receiver : Option Value) (bound : Bool)
  /-- The function that a section lambda gets for rendering texts. It works during the call only; a
  lambda that keeps it for later is not modelled. -/
  | renderer
  | object (o : Object)

/-- A plain object. -/
inductive Object where
  | mk (attributes : List (Text × Value)) (methods : List (Text × Method))
      (properties : List (Text × Function)) (items : Option (List Value)) (length : Option Int)
      (call : Option Function) (printed : Text)

inductive Method where
  /-- Bound to the object, or to its class. -/
  | bound (f : Function)
  | static (f : Function)

inductive Function where
  | mk (id : Identity) (arity : Arity) (body : Expr)

/-- The body of a function. It can make anything of texts, but it has no branches on other data, and
it renders texts in no other way than by `render`. -/
inductive Expr where
  /-- A value built anew at each evaluation. -/
  | literal (v : Value)
  | argument (i : Nat)
  /-- The number of calls of the function so far, this one included. -/
  | callCount
  | concat (parts : List Expr)
  | upper (e : Expr)
  | reverse (e : Expr)
  /-- What any other function makes of a text. -/
  | compute (f : Text → Text) (e : Expr)
  /-- What the function's second argument makes of a text. -/
  | render (e : Expr)
  | member (name : Text)
  | lambda (arity : Arity) (body : Expr)
  | raise (kind message : Text)

end

instance : Inhabited Value := ⟨.missing⟩

namespace Function

def id : Function → Identity
  | .mk id _ _ => id

def arity : Function → Arity
  | .mk _ arity _ => arity

def body : Function → Expr
  | .mk _ _ body => body

end Function

namespace Object

def attributes : Object → List (Text × Value)
  | .mk attributes .. => attributes

def methods : Object → List (Text × Method)
  | .mk _ methods .. => methods

def properties : Object → List (Text × Function)
  | .mk _ _ properties .. => properties

def items : Object → Option (List Value)
  | .mk _ _ _ items .. => items

def length : Object → Option Int
  | .mk _ _ _ _ length .. => length

def call : Object → Option Function
  | .mk _ _ _ _ _ call _ => call

def printed : Object → Text
  | .mk _ _ _ _ _ _ printed => printed

end Object

namespace Value

def isMissing : Value → Bool
  | .missing => true
  | _ => false

def isCallable : Value → Bool
  | .function .. | .renderer => true
  | .object o => o.call.isSome
  | _ => false

/-- What counts as nothing: marks of absence, zero, and whatever is empty. -/
def isNothing : Value → Bool
  | .missing | .null => true
  | .bool b => !b
  | .int i => i = 0
  | .float x => x.isZero
  | .text t => t.isEmpty
  | .bytes content | .buffer content => content.isEmpty
  | .list items | .tuple items => items.isEmpty
  | .record _ fields => fields.isEmpty
  | .dict entries => entries.isEmpty
  | .object o => o.length = some 0
  | .iterator .. | .subView .. | .function .. | .renderer => false

/-- A number in a list of its own for each byte. -/
def ofBytes (content : List UInt8) : List Value := content.map fun b => .int b.toNat

/-- The items of a value that can be read item by item any number of times. -/
def items? : Value → Option (List Value)
  | .list items => some items
  | .tuple items => some items
  | .record _ fields => some (fields.map (·.2))
  | .buffer content => some (ofBytes content)
  | .object o => o.items
  | _ => none

/-- The name of the kind of value, as messages give it. -/
def kindName : Value → Text
  | .missing => "Missing".toList
  | .null => "NoneType".toList
  | .bool _ => "bool".toList
  | .int _ => "int".toList
  | .float _ => "float".toList
  | .text _ => "str".toList
  | .bytes _ => "bytes".toList
  | .buffer _ => "bytearray".toList
  | .list _ => "list".toList
  | .tuple _ => "tuple".toList
  | .record name _ => name
  | .dict _ => "dict".toList
  | .iterator .. => "iterator".toList
  | .subView .. => "SubView".toList
  | .function _ _ bound => if bound then "method".toList else "function".toList
  | .renderer => "function".toList
  | .object _ => "object".toList

end Value

end Whisker
