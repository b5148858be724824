import Whisker.Scope

/-! Sessions with stacks of frames. A stack and all copies of it share what they remember of
iterators, so that a session has one store. -/

namespace Whisker.Scope

inductive Action where
  | push (value : Value) (label : Option Text)
  | pop
  /-- Ends a block for which a frame was pushed. -/
  | leave
  | copy (name : Text)
  | top
  | resolve (name : Text)

/-- An action on the stack of a name. -/
structure Step where
  stack : Text
  action : Action

inductive Answer where
  | depth (n : Nat)
  | frame (frame : Frame)
  | value (v : Value)
  | done
  /-- There is no stack of the name. -/
  | unknown

structure Session where
  scopes : Entries Scope
  store : Store

namespace Session

def put (session : Session) (name : Text) (scope : Scope) : Session :=
  { session with scopes := session.scopes.put name scope }

def perform (depth : Nat) (session : Session) (step : Step) : Except Failure Answer × Session :=
  match session.scopes.get? step.stack with
  | none => (.ok .unknown, session)
  | some scope =>
    match step.action with
    | .push value label =>
      let scope := scope.push value label
      (.ok (.depth scope.length), session.put step.stack scope)
    | .pop =>
      match scope with
      | [] => (.error .emptyStack, session)
      | frame :: scope => (.ok (.frame frame), session.put step.stack scope)
    | .leave =>
      match scope with
      | [] => (.error .emptyStack, session)
      | _ :: scope => (.ok .done, session.put step.stack scope)
    | .copy name => (.ok (.depth scope.length), session.put name scope)
    | .top => (.ok (.value scope.top), session)
    | .resolve name =>
      let outcome := (scope.resolve depth name).run session.store
      (outcome.1.map .value, { session with store := outcome.2 })

/-- The session after steps, whatever became of them. -/
def after (depth : Nat) (session : Session) (steps : List Step) : Session :=
  steps.foldl (fun session step => (session.perform depth step).2) session

end Session

end Whisker.Scope
