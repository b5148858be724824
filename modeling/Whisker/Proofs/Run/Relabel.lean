import Whisker.Proofs.Library.Once
import Whisker.Run

/-! Failures under other names. Renaming the failures of a step commutes with how steps are put
together, and a step that has none of those that are renamed stays as it is. -/

namespace Whisker

namespace Fallible

variable {σ α β : Type} (g : Failure → Failure)

/-- The step with other failures in the place of its own. -/
def relabel (x : Fallible σ α) : Fallible σ α :=
  ExceptT.mk fun s => ((x.run s).1.mapError g, (x.run s).2)

theorem run_relabel (x : Fallible σ α) (s : σ) :
    (relabel g x).run s = ((x.run s).1.mapError g, (x.run s).2) := rfl

theorem relabel_pure (a : α) : relabel g (pure a : Fallible σ α) = pure a := rfl

theorem relabel_throw (e : Failure) : relabel g (throw e : Fallible σ α) = throw (g e) := rfl

theorem relabel_bind (x : Fallible σ α) (f : α → Fallible σ β) :
    relabel g (x >>= f) = relabel g x >>= fun a => relabel g (f a) := by
  apply ExceptT.ext
  funext s
  rw [run_relabel, run_bind, run_bind, run_relabel]
  rcases x.run s with ⟨a, t⟩
  cases a with
  | ok a => rfl
  | error e => rfl

theorem relabel_foldlM (f : α → β → Fallible σ α) (items : List β) (a : α) :
    relabel g (items.foldlM f a) = items.foldlM (fun a item => relabel g (f a item)) a := by
  induction items generalizing a with
  | nil => rfl
  | cons item items ih =>
      rw [List.foldlM_cons, List.foldlM_cons, relabel_bind]
      exact bind_congr fun a => ih a

theorem relabel_id (x : Fallible σ α) : relabel id x = x := by
  apply ExceptT.ext
  funext s
  rw [run_relabel]
  rcases x.run s with ⟨a, t⟩
  cases a <;> rfl

/-- Renaming leaves the step as it is. -/
def Fixed (x : Fallible σ α) : Prop := relabel g x = x

variable {g}

namespace Fixed

theorem pure (a : α) : Fixed g (Pure.pure a : Fallible σ α) := relabel_pure g a

theorem throw {e : Failure} (h : g e = e) : Fixed g (MonadExcept.throw e : Fallible σ α) :=
  (relabel_throw g e).trans (congrArg _ h)

theorem bind {x : Fallible σ α} {f : α → Fallible σ β} (h : Fixed g x)
    (hf : ∀ a, Fixed g (f a)) : Fixed g (x >>= f) := by
  rw [Fixed, relabel_bind, h]
  exact bind_congr hf

theorem run_fst {x : Fallible σ α} (h : Fixed g x) {s : σ} {e : Failure}
    (he : (x.run s).1 = .error e) : g e = e := by
  have hrun := congrArg (fun y : Fallible σ α => (y.run s).1) h
  simp only [run_relabel, he] at hrun
  exact Except.error.inj hrun

theorem of_run {x : Fallible σ α} (h : ∀ s e, (x.run s).1 = .error e → g e = e) : Fixed g x := by
  apply ExceptT.ext
  funext s
  rw [run_relabel]
  rcases hx : x.run s with ⟨a, t⟩
  cases a with
  | ok a => rfl
  | error e => rw [Except.mapError, h s e (congrArg Prod.fst hx)]

theorem foldlM {f : α → β → Fallible σ α} (hf : ∀ a item, Fixed g (f a item)) (items : List β)
    (a : α) : Fixed g (items.foldlM f a) := by
  rw [Fixed, relabel_foldlM]
  simp only [fun a item => show relabel g (f a item) = f a item from hf a item]

theorem forM {f : α → Fallible σ Unit} (hf : ∀ item, Fixed g (f item)) (items : List α) :
    Fixed g (items.forM f) := by
  induction items with
  | nil => exact .pure ()
  | cons item items ih => exact .bind (hf item) fun _ => ih

end Fixed

end Fallible

open Fallible (relabel Fixed)

/-- Renaming touches no failure but that of an inclusion for the length of its chain. -/
def Failure.Spares (g : Failure → Failure) : Prop := ∀ e, e.isInclusionTooDeep = false → g e = e

variable {g : Failure → Failure} (hg : Failure.Spares g) {α : Type}

/-! ## Loading -/

section

include hg

theorem Fallible.Fixed.ofFlat {σ : Type} {x : Except Failure α} (h : Flat x) :
    Fixed g (ExceptT.mk (Pure.pure x) : Fallible σ α) := by
  cases x with
  | ok a => exact .pure a
  | error e => exact .throw (hg e (Failure.not_isInclusionTooDeep (h e rfl)))

namespace Loading

theorem build_fixed (d : Delimiters) (t : Text) : Fixed g (build d t) := by
  unfold build
  split
  · exact .throw (hg _ rfl)
  · rfl

theorem resolve_fixed (name : Text) : Fixed g (resolve name) := by
  apply Fixed.of_run
  intro loader e he
  rw [run_resolve] at he
  have hflat := loader.resolver.resolve_flat loader.files name
  exact hg e (Failure.not_isInclusionTooDeep (hflat e he))

theorem ofText_fixed (source : Text) : Fixed g (ofText source) := by
  have hbuild (d : Delimiters) (key : Cache.Key) : Fixed g (do
      let document ← build d source
      store key document
      return document) :=
    .bind (build_fixed hg d source) fun document => .bind (by rfl) fun _ => .pure document
  refine .bind (by rfl) fun loader => .bind (by rfl) fun found => ?_
  cases found with
  | some document => exact .pure document
  | none => exact hbuild _ _

theorem ofName?_fixed (name : Text) : Fixed g (ofName? name) := by
  refine .bind (by rfl) fun loader => .bind (by rfl) fun found => ?_
  cases found with
  | some document => exact .pure _
  | none =>
      refine .bind (resolve_fixed hg name) fun source => ?_
      cases source with
      | none => exact .pure none
      | some source =>
          refine .bind (build_fixed hg _ source) fun document => ?_
          exact .bind (by rfl) fun _ => .pure (some document)

theorem included?_fixed (given : Entries Text) (name : Text) : Fixed g (included? given name) := by
  unfold included?
  split
  · rw [map_eq_pure_bind]
    exact .bind (ofText_fixed hg _) fun document => .pure (some document)
  · exact ofName?_fixed hg name

theorem template_fixed (given : Entries Text) (nameOrText : Text) :
    Fixed g (template given nameOrText) := by
  refine .bind (included?_fixed hg given nameOrText) fun found => ?_
  cases found with
  | some document => exact .pure document
  | none => exact ofText_fixed hg nameOrText

end Loading

end

namespace Run

/-! ## Steps of a rendering -/

theorem load_fixed {step : Loading α} (h : Fixed g step) : Fixed g (load step) := by
  apply Fixed.of_run
  intro store e he
  rw [run_load] at he
  exact h.run_fst he

theorem relabel_afresh (g : Failure → Failure) (x : Run α) :
    relabel g (afresh x) = afresh (relabel g x) := rfl

theorem build_fixed (v : Value) : Fixed g (build v) := rfl

theorem countCall_fixed (id : Identity) : Fixed g (countCall id) := by
  cases id <;> rfl

theorem warn_fixed (message : String) : Fixed g (warn message) := rfl

theorem meetIterator_fixed (id : Identity) (items : List Value) : Fixed g (meetIterator id items) := by
  cases id with
  | none => rfl
  | some n =>
      apply Fixed.of_run
      intro store e he
      rw [run_meetIterator] at he
      cases hl : store.met.lookup n with
      | some known => simp [hl] at he
      | none => simp [hl] at he

end Run

end Whisker
