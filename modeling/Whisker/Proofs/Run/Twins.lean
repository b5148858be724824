import Whisker.Proofs.View.Finds
import Whisker.Proofs.View.Uncalled

/-! Twins: two steps that do the same to any store in which iterators have given nothing to call. -/

namespace Whisker

open Run (Pairing Yields OnHeap)
open Fallible (Related)

/-- A store of the library whose iterators gave such values. -/
structure Store.Calm (lib : Library) (V : Value → Prop) (store : Store) : Prop where
  serves : store.loader.Serves lib
  met : ∀ entry ∈ store.met, V (.tuple entry.2)

/-- The same calm store. -/
def Store.Twins (lib : Library) (V : Value → Prop) (store other : Store) : Prop :=
  store = other ∧ store.Calm lib V

namespace Run

variable {lib : Library} {V : Value → Prop} {α β : Type} {K : α → Prop}

theorem Yields.steady {x : Run α} (h : Yields (Store.Calm lib V) K x) :
    Fallible.Steady (Store.Twins lib V) K x := by
  rintro store _ ⟨rfl, hs⟩
  obtain ⟨hafter, hK⟩ := h store hs
  refine ⟨?_, rfl, hafter⟩
  cases hr : (x.run store).1 with
  | ok a => exact .ok ⟨rfl, hK a hr⟩
  | error e => exact .error e

theorem OnHeap.yields {x : Run α} (h : OnHeap x)
    (hK : ∀ store a, (x.run store).1 = .ok a → K a) : Yields (Store.Calm lib V) K x := by
  intro store hs
  refine ⟨?_, hK store⟩
  rw [h store]
  exact ⟨hs.serves, hs.met⟩

theorem afresh_twins {Q : α → β → Prop} {x : Run α} {y : Run β}
    (h : Related (Store.Twins lib V) Q x y) :
    Related (Store.Twins lib V) Q (Run.afresh x) (Run.afresh y) := by
  rintro store _ ⟨rfl, hs⟩
  have hstart : Store.Calm lib V { store with met := [] } := ⟨hs.serves, by simp⟩
  obtain ⟨hQ, hsame, hafter⟩ := h _ _ ⟨rfl, hstart⟩
  refine ⟨hQ, ?_, hafter.serves, hs.met⟩
  exact congrArg (fun after : Store => { after with met := store.met }) hsame

/-- Two steps that do the same to calm stores. -/
def twinning (lib : Library) (V : Value → Prop) : Pairing where
  Holds := Related (Store.Twins lib V)
  pure := .pure
  throw _ := .throw _
  bind := .bind
  afresh := afresh_twins

theorem load_twins {γ : Type} {Q : α → γ → Prop} {step : Loading α} {result : Except Failure γ}
    (h : Loading.Gives lib Q step result) :
    Fallible.Steady (Store.Twins lib V) (fun a => ∃ b, result = .ok b ∧ Q a b) (Run.load step) := by
  refine Yields.steady fun store hs => ?_
  obtain ⟨hserves, hK⟩ := Yields.load h store hs.serves
  exact ⟨⟨hserves, hs.met⟩, hK⟩

theorem warn_twins (message : String) :
    Related (Store.Twins lib V) (· = ·) (Run.warn message) (Run.warn message) := by
  rintro store _ ⟨rfl, hs⟩
  exact ⟨.ok rfl, rfl, hs.serves, hs.met⟩

theorem meetIterator_yields (hdrained : V (.tuple [])) (id : Identity) {items : List Value}
    (h : V (.tuple items)) :
    Yields (Store.Calm lib V) (fun vs => V (.tuple vs)) (Run.meetIterator id items) := by
  cases id with
  | none => exact .pure h
  | some n =>
      intro store hs
      rw [YieldsAt, run_meetIterator]
      cases hl : store.met.lookup n with
      | some known =>
          refine ⟨hs, ?_⟩
          rintro _ ⟨⟩
          exact hs.met _ (mem_of_lookup hl)
      | none =>
          dsimp only
          split
          · refine ⟨⟨hs.serves, List.forall_mem_cons.mpr ⟨hdrained, hs.met⟩⟩, ?_⟩
            rintro _ ⟨⟩
            exact hdrained
          · refine ⟨⟨hs.serves, List.forall_mem_cons.mpr ⟨h, hs.met⟩⟩, ?_⟩
            rintro _ ⟨⟩
            exact h

end Run

/-! ## Names -/

namespace Value.Uncalled

variable {lib : Library} {template : Text → Prop} {V : Value → Prop} (U : Uncalled template V)
include U

theorem finds : (Run.twinning lib V).Finds fun v w => v = w ∧ V v where
  missing := ⟨rfl, U.missing⟩
  isMissing_eq h := by rw [h.1]
  lookup := by
    rintro v _ ⟨rfl, hv⟩ depth key
    exact ((lookup_onHeap depth v key).yields (U.lookup hv depth key)).steady
  settle := by
    rintro v _ ⟨rfl, hv⟩
    cases v with
    | iterator id items =>
        apply Yields.steady
        exact .bind (Run.meetIterator_yields U.drained id (U.tuple hv)) fun vs hvs => .pure hvs
    | _ => exact .pure ⟨rfl, hv⟩

end Value.Uncalled

end Whisker
