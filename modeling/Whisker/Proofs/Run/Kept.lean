import Whisker.Proofs.Render.Steady

/-! Invariants of loaders. What loading keeps, a rendering keeps from beginning to end, because
nothing else in it comes near the loader. -/

namespace Whisker

open Fallible (Related)

variable {lib : Library} {c : Contents} {kept : Loader → Prop}

/-- A store of the library with an invariant of its loader, in which the items of iterators are
allowed. -/
structure Store.Keeping (lib : Library) (c : Contents) (kept : Loader → Prop) (store : Store) :
    Prop where
  serves : store.loader.Serves lib
  kept : kept store.loader
  met : ∀ entry ∈ store.met, ∀ v ∈ entry.2, v.Within c

/-- The same store twice. -/
def Store.Twice (lib : Library) (c : Contents) (kept : Loader → Prop) (s t : Store) : Prop :=
  s = t ∧ s.Keeping lib c kept

namespace Run

variable {α β : Type} {K : α → Prop}

/-- A step that gives allowed values and keeps to the invariant is steady. -/
theorem steady_twice {x : Run α} (h : ∀ store : Store, store.Keeping lib c kept →
    (x.run store).2.Keeping lib c kept ∧ ∀ a, (x.run store).1 = .ok a → K a) :
    Fallible.Steady (Store.Twice lib c kept) K x := by
  rintro s _ ⟨rfl, hs⟩
  obtain ⟨ha, hK⟩ := h s hs
  refine ⟨?_, rfl, ha⟩
  cases hx : (x.run s).1 with
  | ok a => exact .ok ⟨rfl, hK a hx⟩
  | error e => exact .error e

/-- A rendering cannot tell a store from itself, and keeps what loading keeps. -/
theorem blind_twice (hc : ∀ next, c.Lasts next) : Blind lib c (Store.Twice lib c kept) kept where
  load {α β Q step result} hk h := by
    rintro s _ ⟨rfl, hs⟩
    obtain ⟨hv, hl⟩ := h s.loader hs.serves
    refine ⟨?_, rfl, hl, hk s.loader hs.kept, hs.met⟩
    rw [run_load]
    generalize (step.run s.loader).1 = x at hv
    cases hv with
    | ok hQ => exact .ok ⟨_, rfl, hQ, hQ⟩
    | error e => exact .error e
  build {v} h := by
    refine steady_twice fun store hs => ⟨⟨hs.serves, hs.kept, hs.met⟩, ?_⟩
    rintro _ ⟨⟩
    exact (Value.build_keeps v h _ (hc _)).1
  countCall {id} _ := by
    refine steady_twice fun store hs => ?_
    cases id with
    | none => exact ⟨hs, fun _ _ => trivial⟩
    | some n => exact ⟨⟨hs.serves, hs.kept, hs.met⟩, fun _ _ => trivial⟩
  meet {id items} _ h := by
    refine steady_twice fun store hs => ?_
    cases id with
    | none =>
        refine ⟨hs, ?_⟩
        rintro _ ⟨⟩
        exact h
    | some n =>
        rw [run_meetIterator]
        cases hl : store.met.lookup n with
        | some known =>
            refine ⟨hs, ?_⟩
            rintro _ ⟨⟩
            exact hs.met _ (mem_of_lookup hl)
        | none =>
            have hgot : ∀ v ∈ (if store.heap.drained.contains n then ([], store.heap)
                else (items, store.heap.drain n)).1, v.Within c := by
              split
              · simp
              · exact h
            refine ⟨⟨hs.serves, hs.kept, List.forall_mem_cons.mpr ⟨hgot, hs.met⟩⟩, ?_⟩
            rintro _ ⟨⟩
            exact hgot
  warn message := steady_twice fun store hs =>
    ⟨⟨hs.serves, hs.kept, hs.met⟩, fun _ _ => trivial⟩
  afresh {α K step t} _ h := by
    rintro s _ ⟨rfl, hs⟩
    obtain ⟨hv, -, ha⟩ := h { s with met := [] } _ ⟨rfl, hs.serves, hs.kept, by simp⟩
    exact ⟨hv, rfl, ha.serves, ha.kept, hs.met⟩

end Run

/-- Where the functions of the engine bring nothing that is not allowed, a rendering keeps what
loading keeps. -/
theorem Render.document_keeps (hc : ∀ next, c.Lasts next) {stage : Stage}
    (hk : Loading.AllKeep kept c.template stage.partials) (hu : stage.Uses (Value.Within c))
    (depth : Nat) {view : Value} (hv : view.Within c) (nodes : List Node) {store : Store}
    (hs : store.Keeping lib c kept) :
    ((document stage depth view nodes).run store).2.Keeping lib c kept :=
  (document_steady (Run.blind_twice hc) hk hu depth hv nodes store store ⟨rfl, hs⟩).2.2

end Whisker
