import Whisker.Proofs.View.Identity
import Whisker.Proofs.View.Steady

/-! Stores that a rendering cannot tell apart: their loaders serve one library, through caches that
may differ, and their heaps remember the same of the identities that it can meet. -/

namespace Whisker

open Fallible (Related)

structure Store.Alike (P : Nat → Prop) (lib : Library) (s t : Store) : Prop where
  heap : Heap.Alike P s.heap t.heap
  met : s.met = t.met
  items : ∀ entry ∈ s.met, ∀ v ∈ entry.2, v.Within (.identities P)
  warnings : s.warnings = t.warnings
  left : s.loader.Serves lib
  right : t.loader.Serves lib

namespace Run

/-- A step that cannot tell such stores apart, and gives values of which `K` holds. -/
abbrev Steady {α : Type} (P : Nat → Prop) (lib : Library) (K : α → Prop) (step : Run α) : Prop :=
  Fallible.Steady (Store.Alike P lib) K step

variable {α β : Type} {P : Nat → Prop} {lib : Library} {K : α → Prop}

/-! ## Steps -/

theorem load_related {Q : α → β → Prop} {step : Loading α} {result : Except Failure β}
    (h : Loading.Gives lib Q step result) :
    Related (Store.Alike P lib) (fun a a' => ∃ b, result = .ok b ∧ Q a b ∧ Q a' b) (load step)
      (load step) := by
  intro s t hst
  obtain ⟨hv, hs⟩ := h s.loader hst.left
  obtain ⟨hv', ht⟩ := h t.loader hst.right
  refine ⟨?_, hst.heap, hst.met, hst.items, hst.warnings, hs, ht⟩
  rw [run_load, run_load]
  generalize (step.run s.loader).1 = x at hv
  generalize (step.run t.loader).1 = y at hv'
  cases hv with
  | ok hQ =>
      cases hv' with
      | ok hQ' => exact .ok ⟨_, rfl, hQ, hQ'⟩
  | error e =>
      cases hv' with
      | error => exact .error e

/-- Loading what the library has succeeds on every store that serves it. -/
theorem run_load_of_gives {Q : α → β → Prop} {step : Loading α} {result : Except Failure β}
    (h : Loading.Gives lib Q step result) {b : β} (hr : result = .ok b) {store : Store}
    (hs : store.loader.Serves lib) :
    ∃ a loader, (load step).run store = (.ok a, { store with loader }) ∧ Q a b ∧
      loader.Serves lib := by
  obtain ⟨hv, hl⟩ := h store.loader hs
  rw [hr] at hv
  rw [run_load]
  generalize (step.run store.loader).1 = x at hv
  cases hv with
  | ok hQ => exact ⟨_, _, rfl, hQ, hl⟩

theorem build_steady {v : Value} (h : v.Within (.identities P)) :
    Steady P lib (Value.Within (.identities P)) (build v) := by
  refine .modifyGet fun s t hst => ?_
  obtain ⟨hv, hle⟩ :=
    Value.build_keeps v h s.heap.nextIdentity (Contents.lasts_identities hst.heap.fresh)
  rw [← hst.heap.next]
  refine ⟨rfl, hv, ⟨rfl, ?_, fun n hn => ?_⟩, hst.met, hst.items, hst.warnings, hst.left,
    hst.right⟩
  · exact fun n hn => hst.heap.fresh n (Nat.le_trans hle hn)
  · exact ⟨(hst.heap.same n hn).calls, (hst.heap.same n hn).drained⟩

theorem countCall_steady {id : Identity} (h : id.IsIn P) :
    Steady P lib (fun _ => True) (countCall id) := by
  cases id with
  | none => exact .pure trivial
  | some n =>
      refine .modifyGet fun s t hst => ?_
      have hh := hst.heap.count (h n rfl)
      exact ⟨(hh.same n (h n rfl)).calls, trivial, hh, hst.met, hst.items, hst.warnings, hst.left,
        hst.right⟩

theorem meetIterator_steady {id : Identity} {items : List Value} (hid : id.IsIn P)
    (h : ∀ v ∈ items, v.Within (.identities P)) :
    Steady P lib (fun vs => ∀ v ∈ vs, v.Within (.identities P)) (meetIterator id items) := by
  cases id with
  | none => exact .pure h
  | some n =>
      refine .get fun s t hst => ⟨by rw [hst.met], ?_⟩
      cases hf : s.met.lookup n with
      | some known => exact .pure (hst.items (n, known) (mem_of_lookup hf))
      | none =>
          have hread : Steady P lib (fun vs => ∀ v ∈ vs, v.Within (.identities P))
              (read (Reading.iterator (some n) items)) := by
            intro s t hst
            obtain ⟨hv, hh⟩ := Reading.iterator_steady hid h s.heap t.heap hst.heap
            exact ⟨hv, hh, hst.met, hst.items, hst.warnings, hst.left, hst.right⟩
          refine .bind hread fun vs hvs => ?_
          refine .bind (K := fun _ => True) (.modifyGet fun s t hst => ?_) fun _ _ =>
            .pure hvs
          exact ⟨rfl, trivial, hst.heap, congrArg (_ :: ·) hst.met,
            List.forall_mem_cons.mpr ⟨hvs, hst.items⟩, hst.warnings, hst.left, hst.right⟩

theorem warn_steady (message : String) : Steady P lib (fun _ => True) (warn message) := by
  refine .modifyGet fun s t hst => ?_
  exact ⟨rfl, trivial, hst.heap, hst.met, hst.items, congrArg (· ++ [message]) hst.warnings,
    hst.left, hst.right⟩

theorem afresh_steady {step : Run α} (h : Steady P lib K step) : Steady P lib K (afresh step) := by
  intro s t hst
  obtain ⟨hv, ha⟩ := h { s with met := [] } { t with met := [] }
    ⟨hst.heap, rfl, by simp, hst.warnings, hst.left, hst.right⟩
  exact ⟨hv, ha.heap, hst.met, hst.items, ha.warnings, ha.left, ha.right⟩

/-- No part of a rendering can tell alike stores apart. -/
theorem blind_alike (P : Nat → Prop) (lib : Library) :
    Blind lib (.identities P) (Store.Alike P lib) fun _ => True where
  load _ := load_related
  build := build_steady
  countCall := countCall_steady
  meet := meetIterator_steady
  warn := warn_steady
  afresh _ := afresh_steady

end Run

end Whisker
