import Whisker.Proofs.Run.Yields

/-! What looking names up leaves as it is. It builds values, counts calls and comes to iterators; an
invariant of the store that these three keep is kept by any look at a view. -/

namespace Whisker

/-- A step that keeps an invariant of the store, where it fails too. -/
abbrev Run.Leaves {α : Type} (I : Store → Prop) (x : Run α) : Prop := Run.Yields I (fun _ => True) x

open Run (Leaves Yields yielding)

/-- An invariant that calls keep. -/
structure Store.Durable (I : Store → Prop) : Prop where
  build (v : Value) : Leaves I (Run.build v)
  countCall (id : Identity) : Leaves I (Run.countCall id)

/-- An invariant that looking at values keeps. -/
structure Store.Lasting (I : Store → Prop) : Prop extends Store.Durable I where
  meet (id : Identity) (items : List Value) : Leaves I (Run.meetIterator id items)

variable {I : Store → Prop}

/-! ## Accord -/

theorem Store.Durable.looks (hI : Store.Durable I) : (yielding I).Looks .anything where
  build {v} _ := ((hI.build v).mono fun v _ => v.within_anything).same
  countCall {id} _ := (hI.countCall id).same
  tryCatch h hf := .tryCatch h fun e => hf e (Yields.throw e)

theorem Store.Lasting.names (hI : Store.Lasting I) : (yielding I).Names fun _ => True :=
  hI.looks.names fun id items => (hI.meet id items).same

/-! ## Steps -/

namespace Value

theorem call_leaves (hI : Store.Durable I) (depth : Nat) {render : Text → Run Text}
    (hr : ∀ t, Leaves I (render t)) (args : List Value) (v : Value) :
    Leaves I (v.call depth render args) :=
  .ofSame (hI.looks.call (fun t => (hr t).same) depth args v)

theorem lookup_leaves (hI : Store.Durable I) (depth : Nat) (v : Value) (key : Text) :
    Leaves I (lookup depth v key) :=
  .ofSame (lookup_same inherited_true trivial
    (v.publicMember_same hI.looks depth v.within_anything key).any)

end Value

namespace Scope

variable (hI : Store.Lasting I)
include hI

theorem settle_leaves (v : Value) : Leaves I (settle v) := .ofSame (hI.names.settle trivial)

theorem reach_leaves (depth : Nat) (scope : Scope) (name : Text) :
    Leaves I (reach depth scope name) :=
  .ofSame (hI.names.reach (fun _ _ => trivial) depth name)

theorem resolve_leaves (depth : Nat) (scope : Scope) (name : Text) :
    Leaves I (resolve depth scope name) :=
  .ofSame (hI.names.resolve (fun _ _ => trivial) depth name)

end Scope

end Whisker
