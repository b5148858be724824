import Whisker.Run
import Whisker.Text.Case

/-! Calls of the functions of a view, and the members of its objects. -/

namespace Whisker

namespace Arity

/-- What an argument is when it is left out. -/
def standIn : Value := .text ['#']

/-- The positional arguments that the body sees, if the call fits. -/
def bind? : Arity → List Value → Option (List Value)
  | .exactly n, args => if args.length = n then some args else none
  | .any, args => some args
  | .optional, [] => some [standIn]
  | .optional, [arg] => some [arg]
  | .optional, _ => none
  | .named, args => if args.isEmpty then some [] else none
  | .namedOptional, args => if args.isEmpty then some [] else none
  | .namedRequired, _ => none
  | .oneOrTwo, [arg] => some [arg, standIn]
  | .oneOrTwo, [arg, other] => some [arg, other]
  | .oneOrTwo, _ => none

theorem mem_of_bind? {arity : Arity} {args bound : List Value} (h : arity.bind? args = some bound) :
    ∀ v ∈ bound, v ∈ args ∨ v = standIn := by
  revert h
  fun_cases bind? arity args with
  | _ => rintro ⟨⟩ <;> simp +contextual

end Arity

/-- What the body of a function sees of its call and of the world. -/
structure Call where
  args : List Value
  count : Nat
  receiver : Option Value
  /-- Looks up a member of an object. -/
  member : Value → Text → Run Value
  /-- Renders a text where the function was called. -/
  render : Text → Run Text

namespace Call

def argument (c : Call) (i : Nat) : Run Value :=
  match c.args[i]? with
  | some v => return v
  | none => throw .noSuchArgument

end Call

namespace Expr

mutual

def eval (c : Call) : Expr → Run Value
  | .literal v => Run.build v
  | .argument i => c.argument i
  | .callCount => return .int c.count
  | .concat parts => return .text (← evalTexts c parts)
  | .upper e => return .text (Text.upper (← eval c e).toText)
  | .reverse e => return .text (← eval c e).toText.reverse
  | .compute f e => return .text (f (← eval c e).toText)
  | .render e => do
    let function ← c.argument 1
    match function, ← eval c e with
    | .renderer, .text t => return .text (← c.render t)
    | _, _ => throw .unfit
  | .member name =>
    match c.receiver with
    | some receiver => c.member receiver name
    | none => throw (.noSuchMember name)
  | .lambda arity body => Run.build (.function (.mk none arity body) c.receiver false)
  | .raise kind message => throw (.raised kind message)

/-- The texts of the values one after another. -/
def evalTexts (c : Call) : List Expr → Run Text
  | [] => return []
  | e :: es => do
    let t := (← eval c e).toText
    return t ++ (← evalTexts c es)

end

end Expr

namespace Function

/-- Calls a function. Only a call that fits is counted. -/
def invoke (member : Value → Text → Run Value) (render : Text → Run Text)
    (receiver : Option Value) (args : List Value) (f : Function) : Run Value :=
  match f.arity.bind? args with
  | none => throw .unfit
  | some args => do
    let count ← Run.countCall f.id
    f.body.eval ⟨args, count, receiver, member, render⟩

end Function

namespace Value

/-- Outside a section no text can be rendered. -/
def cannotRender (_ : Text) : Run Text := throw .unfit

/-- A member of a value by name. Properties are evaluated, methods are bound to their object. -/
def member : Nat → Value → Text → Run Value
  | 0, _, _ => throw .tooDeep
  | depth + 1, v, name =>
    match v with
    | .object o =>
      match Entries.get? o.properties name, Entries.get? o.attributes name,
        Entries.get? o.methods name with
      | some f, _, _ => f.invoke (member depth) cannotRender (some v) []
      | none, some value, _ => return value
      | none, none, some (.bound f) => return .function f (some v) true
      | none, none, some (.static f) => return .function f none false
      | none, none, none => throw (.noSuchMember name)
    | .record _ fields =>
      match Entries.get? fields name with
      | some field => return field
      | none => throw (.noSuchMember name)
    | .subView template view =>
      if name = "template".toList then return .text template
      else if name = "view".toList then return view
      else throw (.noSuchMember name)
    | _ => throw (.noSuchMember name)

/-- Calls a value. -/
def call (depth : Nat) (render : Text → Run Text) (args : List Value) (v : Value) : Run Value :=
  match v with
  | .function f receiver _ => f.invoke (member depth) render receiver args
  | .object o =>
    match o.call with
    | some f => f.invoke (member depth) render (some v) args
    | none => throw .unfit
  | _ => throw .unfit

theorem call_of_not_isCallable {v : Value} (h : v.isCallable = false) (depth : Nat)
    (render : Text → Run Text) (args : List Value) : v.call depth render args = throw .unfit := by
  cases v with
  | function => cases h
  | object o =>
      have ho : o.call = none := Option.isNone_iff_eq_none.mp (Option.isSome_eq_false_iff.mp h)
      rw [call, ho]
  | _ => rfl

end Value

end Whisker
