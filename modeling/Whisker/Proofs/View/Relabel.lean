import Whisker.Proofs.Run.Relabel
import Whisker.Proofs.View.Calls
import Whisker.Proofs.View.Resolve

/-! Calls, names, sections and filters under other names for failures. Looking at a view never fails
for the length of a chain, and a call fails for it only where the text that it renders does. -/

namespace Whisker

open Fallible (relabel relabel_bind relabel_throw run_relabel run_tryCatch Related Fixed)

variable {g : Failure → Failure}

/-! ## Accord -/

/-- The second step is the first one with its failures under other names. -/
def Run.relabeling (hg : Failure.Spares g) : Run.Accord where
  Holds Q x y := Related (· = ·) Q (relabel g x) y
  pure := .pure
  throw {_ _ _ e} he := by
    rw [relabel_throw, hg e he]
    exact .throw e
  bind h hf := by
    rw [relabel_bind]
    exact .bind h hf

variable (hg : Failure.Spares g)

namespace Run.relabeling

variable {α : Type} {K : α → Prop} {x y : Run α}

theorem same (h : relabel g x = y) : (relabeling hg).Same (fun _ => True) x y := by
  rintro store _ rfl
  rw [h]
  refine ⟨?_, rfl⟩
  cases (y.run store).1 with
  | ok a => exact .ok ⟨rfl, trivial⟩
  | error e => exact .error e

theorem throw {e : Failure} (h : g e = e) :
    (relabeling hg).Same K (MonadExcept.throw e) (MonadExcept.throw e) := by
  change Related _ _ (relabel g (MonadExcept.throw e)) _
  rw [relabel_throw, h]
  exact .throw e

theorem eq (h : (relabeling hg).Same K x y) : relabel g x = y := by
  apply ExceptT.ext
  funext store
  obtain ⟨hv, hs⟩ := h store store rfl
  exact Prod.ext (hv.mono fun _ _ hab => hab.1).eq hs

end Run.relabeling

include hg

open Run (relabeling)

theorem Run.relabeling_looks : (relabeling hg).Looks .anything where
  build {v} _ := (relabeling.same hg (build_fixed v)).mono fun v _ => v.within_anything
  countCall {id} _ := relabeling.same hg (countCall_fixed id)
  tryCatch {_ _ x _} h hf := by
    have hfixed : Fixed g x := relabeling.eq hg h
    rintro store _ rfl
    rw [run_relabel, run_tryCatch]
    rcases hx : x.run store with ⟨e | a, after⟩
    · have he : g e = e := hfixed.run_fst (congrArg Prod.fst hx)
      exact hf e (relabeling.throw hg he) after after rfl
    · obtain ⟨hv, -⟩ := h store store rfl
      rw [run_relabel, hx] at hv
      exact ⟨hv, rfl⟩

theorem Run.relabeling_names : (relabeling hg).Names fun _ => True :=
  (relabeling_looks hg).names fun id items => relabeling.same hg (meetIterator_fixed id items)

/-! ## Calls and names -/

/-- Of what a call does only the rendering of a text has other failures. -/
theorem Value.call_relabel (depth : Nat) (render : Text → Run Text) (args : List Value)
    (v : Value) :
    relabel g (v.call depth render args) = v.call depth (fun t => relabel g (render t)) args :=
  Run.relabeling.eq hg
    ((Run.relabeling_looks hg).call (fun _ => Run.relabeling.same hg rfl) depth args v)

theorem Value.call_fixed (depth : Nat) (args : List Value) (v : Value) :
    Fixed g (v.call depth cannotRender args) :=
  Run.relabeling.eq hg ((Run.relabeling_looks hg).call cannotRender_same depth args v)

theorem Scope.resolve_fixed (depth : Nat) (scope : Scope) (name : Text) :
    Fixed g (scope.resolve depth name) :=
  Run.relabeling.eq hg ((Run.relabeling_names hg).resolve (fun _ _ => trivial) depth name)

/-! ## Sections and filters -/

theorem SectionValue.ofValue_fixed (v : Value) : Fixed g (ofValue v) := by
  have hread : Fixed g (Run.read (Reading.items? v)) := by
    refine Fixed.of_run fun store e he => ?_
    exact hg e (Failure.not_isInclusionTooDeep (Reading.items?_flat v store.heap e he))
  unfold ofValue
  split
  · exact .pure _
  · split
    · exact .pure _
    · exact .pure _
    · exact .pure _
    · exact .pure _
    · exact .pure _
    · exact .pure _
    · refine .bind hread fun found => ?_
      cases found <;> exact .pure _

namespace Filter

theorem apply_fixed (depth : Nat) (own : Entries Value) (name : Text) (v : Value) :
    Fixed g (apply depth own name v) := by
  unfold apply
  split
  · exact Value.call_fixed hg depth _ _
  · rename_i f hf
    exact .ofFlat hg (standard?_flat hf v)
  · exact .throw (hg _ rfl)

theorem applyAll_fixed (depth : Nat) (own : Entries Value) (names : List Text) (v : Value) :
    Fixed g (applyAll depth own names v) :=
  .foldlM (fun v name => apply_fixed hg depth own name v) names v

end Filter

end Whisker
