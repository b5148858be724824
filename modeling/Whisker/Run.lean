import Whisker.Library.Loader
import Whisker.View.Build
import Whisker.View.Heap
import Whisker.View.Printed

/-! Runs: what rendering remembers from one step to the next, and steps that may fail. A failed step
keeps its effects. -/

namespace Whisker

structure Store where
  heap : Heap
  /-- The items of the iterators that were met in this rendering. -/
  met : List (Nat × List Value)
  warnings : List String
  loader : Loader

/-- The store before anything was rendered. -/
def Store.fresh (heap : Heap) (loader : Loader) : Store := ⟨heap, [], [], loader⟩

abbrev Run := ExceptT Failure (StateM Store)

namespace Run

def load {α : Type} (step : Loading α) : Run α :=
  ExceptT.mk fun store =>
    let (result, loader) := step.run store.loader
    (result, { store with loader })

theorem run_load {α : Type} (step : Loading α) (store : Store) :
    (load step).run store =
      ((step.run store.loader).1, { store with loader := (step.run store.loader).2 }) :=
  rfl

def read {α : Type} (step : Reading α) : Run α :=
  ExceptT.mk fun store =>
    let (result, heap) := step.run store.heap
    (result, { store with heap })

/-- Gives the value and its parts identities. -/
def build (v : Value) : Run Value :=
  modifyGet fun store =>
    let (v, next) := (v.build).run store.heap.nextIdentity
    (v, { store with heap := { store.heap with nextIdentity := next } })

/-- Counts a call and tells how many there were, this one included. A function that was never built
has no count. -/
def countCall : Identity → Run Nat
  | none => return 1
  | some id => modifyGet fun store =>
    let heap := store.heap.count id
    (heap.callsOf id, { store with heap })

/-- The items of an iterator as this rendering first met it. -/
def meetIterator (id : Identity) (items : List Value) : Run (List Value) :=
  match id with
  | none => return items
  | some n => do
    match (← get).met.lookup n with
    | some known => return known
    | none =>
      let items ← read (Reading.iterator id items)
      modify fun store => { store with met := (n, items) :: store.met }
      return items

theorem mem_of_lookup {n : Nat} {known : List Value} {met : List (Nat × List Value)}
    (h : met.lookup n = some known) : (n, known) ∈ met := by
  rw [List.lookup_eq_findSome?] at h
  obtain ⟨entry, he, hf⟩ := List.exists_of_findSome?_eq_some h
  obtain ⟨hn, rfl⟩ : n = entry.1 ∧ entry.2 = known := by simpa using hf
  rw [hn]
  exact he

/-- An iterator that was met is not read again. -/
theorem run_meetIterator (n : Nat) (items : List Value) (store : Store) :
    (meetIterator (some n) items).run store =
      match store.met.lookup n with
      | some known => (.ok known, store)
      | none =>
        let got := if store.heap.drained.contains n then ([], store.heap)
          else (items, store.heap.drain n)
        (.ok got.1, { store with heap := got.2, met := (n, got.1) :: store.met }) := by
  have hget : (meetIterator (some n) items).run store =
      (match store.met.lookup n with
        | some known => return known
        | none => do
          let items ← read (Reading.iterator (some n) items)
          modify fun store => { store with met := (n, items) :: store.met }
          return items : Run (List Value)).run store := rfl
  rw [hget]
  cases store.met.lookup n <;> rfl

def warn (message : String) : Run Unit :=
  modify fun store => { store with warnings := store.warnings ++ [message] }

/-- Runs a step that has met no iterator yet; what it meets is forgotten afterwards. -/
def afresh {α : Type} (step : Run α) : Run α :=
  ExceptT.mk fun store =>
    let (result, after) := step.run { store with met := [] }
    (result, { after with met := store.met })

end Run

end Whisker
