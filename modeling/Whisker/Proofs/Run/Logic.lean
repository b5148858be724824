import Whisker.Proofs.Library.Loading
import Whisker.Proofs.View.Contents
import Whisker.View.Lookup

/-! A logic of rendering: what holds of the steps that a rendering is made of, and passes from steps
to what is made of them, holds of the rendering. -/

namespace Whisker

namespace Loading

/-- A step that keeps an invariant of loaders, where it fails too. -/
def Keeps {α : Type} (kept : Loader → Prop) (step : Loading α) : Prop :=
  ∀ loader, kept loader → kept (step.run loader).2

/-- Whatever a rendering with these partials loads keeps the invariant. -/
structure AllKeep (kept : Loader → Prop) (template : Text → Prop) (given : Entries Text) :
    Prop where
  build (d : Delimiters) (t : Text) : Keeps kept (Loading.build d t)
  included (name : Text) : Keeps kept (Loading.included? given name)
  template {t : Text} (h : template t) : Keeps kept (Loading.template given t)

theorem allKeep_true (template : Text → Prop) (given : Entries Text) :
    AllKeep (fun _ => True) template given :=
  ⟨fun _ _ _ _ => trivial, fun _ _ _ => trivial, fun _ _ _ => trivial⟩

end Loading

/-- A property of steps at every depth that passes from parts to the whole. `K` holds of the values
that a step gives. What views hold is within `c`; the functions of the engine are in `function`, and
what they are called with and give is in `passed`. Loading keeps `kept`. -/
structure Run.LogicOf (lib : Library) (c : Contents) (function passed : Value → Prop)
    (kept : Loader → Prop) where
  Holds {α : Type} (K : α → Prop) (step : Nat → Run α) : Prop
  pure {α : Type} {K : α → Prop} {a : α} (h : K a) : Holds K fun _ => Pure.pure a
  throw {α : Type} {K : α → Prop} {e : Failure} (h : e ≠ .tooDeep) :
    Holds K fun _ => MonadExcept.throw e
  bind {α β : Type} {K : α → Prop} {L : β → Prop} {step : Nat → Run α}
    {next : Nat → α → Run β} (h : Holds K step) (hn : ∀ a, K a → Holds L fun d => next d a) :
    Holds L fun d => step d >>= next d
  /-- Caches may give other documents for the same, so what follows must not tell them apart. -/
  load {α β γ : Type} {Q : α → β → Prop} {K : γ → Prop} {step : Loading α}
    {result : Except Failure β} {next : Nat → α → Run γ} (hk : Loading.Keeps kept step)
    (h : Loading.Gives lib Q step result) (hr : Conclusive result)
    (hsame : ∀ {a a' b}, Q a b → Q a' b → ∀ d, next d a = next d a')
    (hn : ∀ {a b}, result = .ok b → Q a b → Holds K fun d => next d a) :
    Holds K fun d => Run.load step >>= next d
  meet {id : Identity} {items : List Value} (ho : c.once id items)
    (h : ∀ v ∈ items, v.Within c) :
    Holds (fun vs => ∀ v ∈ vs, v.Within c) fun _ => Run.meetIterator id items
  warn (message : String) : Holds (fun _ => True) fun _ => Run.warn message
  afresh {α : Type} {K : α → Prop} {step : Nat → Run α} {t : Text} (ht : c.template t)
    (h : Holds K step) : Holds K fun d => Run.afresh (step d)
  publicMember {v : Value} (h : v.Within c) (key : Text) :
    Holds (Value.Within c) fun d => v.publicMember d key
  call {f : Value} {render : Nat → Text → Run Text} {args : List Value} (h : f.Within c)
    (hr : ∀ t, Holds (fun _ => True) fun d => render d t) (ha : ∀ v ∈ args, v.Within c) :
    Holds (Value.Within c) fun d => f.call d (render d) args
  apply {f v : Value} (h : function f) (hv : passed v) :
    Holds passed fun d => f.call d Value.cannotRender [v]
  passed_of_within {v : Value} (h : v.Within c) : passed v

/-- A logic that asks nothing of loaders but that they serve. -/
abbrev Run.Logic (lib : Library) (c : Contents) (function passed : Value → Prop) :=
  Run.LogicOf lib c function passed fun _ => True

namespace Run.LogicOf

variable {lib : Library} {c : Contents} {function passed : Value → Prop} {kept : Loader → Prop}
  (L : LogicOf lib c function passed kept) {α β : Type} {K : α → Prop}

theorem ofExcept {x : Except Failure α} (hx : Conclusive x) (h : ∀ a, x = .ok a → K a) :
    L.Holds K fun _ => ExceptT.mk (Pure.pure x) := by
  cases x with
  | ok a => exact L.pure (h a rfl)
  | error e => exact L.throw fun he => hx (by rw [he])

theorem foldlM {f : Nat → α → β → Run α} {items : List β} {a : α} (ha : K a)
    (hf : ∀ item ∈ items, ∀ a, K a → L.Holds K fun d => f d a item) :
    L.Holds K fun d => items.foldlM (f d) a := by
  induction items generalizing a with
  | nil => exact L.pure ha
  | cons item items ih =>
      simp only [List.foldlM_cons]
      refine L.bind (hf item List.mem_cons_self a ha) fun a' ha' => ?_
      exact ih ha' fun item hi => hf item (List.mem_cons_of_mem _ hi)

theorem mapM {f : α → Run β} {items : List α} (hf : ∀ item ∈ items,
    L.Holds (fun _ => True) fun _ => f item) : L.Holds (fun _ => True) fun _ => items.mapM f := by
  induction items with
  | nil => exact L.pure trivial
  | cons item items ih =>
      simp only [List.mapM_cons]
      refine L.bind (hf item List.mem_cons_self) fun b _ => ?_
      refine L.bind (ih fun item hi => hf item (List.mem_cons_of_mem _ hi)) fun bs _ => ?_
      exact L.pure trivial

theorem forM {f : α → Run Unit} {items : List α} (hf : ∀ item, L.Holds (fun _ => True)
    fun _ => f item) : L.Holds (fun _ => True) fun _ => items.forM f := by
  induction items with
  | nil => exact L.pure trivial
  | cons item items ih => exact L.bind (hf item) fun _ _ => ih

end Run.LogicOf

end Whisker
