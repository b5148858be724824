import Mathlib.Data.List.Forall2
import Whisker.Proofs.Fallible
import Whisker.Run

/-! Accords: relations between two steps that pass from their parts to the whole. What holds of one
step on its own is the relation of the step to itself. -/

namespace Whisker.Run

/-- `Q` holds of the values that the two steps give. -/
structure Accord where
  Holds {α β : Type} (Q : α → β → Prop) (x : Run α) (y : Run β) : Prop
  pure {α β : Type} {Q : α → β → Prop} {a : α} {b : β} (h : Q a b) :
    Holds Q (Pure.pure a) (Pure.pure b)
  throw {α β : Type} {Q : α → β → Prop} {e : Failure} (h : e.isInclusionTooDeep = false) :
    Holds Q (MonadExcept.throw e) (MonadExcept.throw e)
  bind {α β γ δ : Type} {Q : α → β → Prop} {R : γ → δ → Prop} {x : Run α} {y : Run β}
    {f : α → Run γ} {g : β → Run δ} (h : Holds Q x y) (hf : ∀ a b, Q a b → Holds R (f a) (g b)) :
    Holds R (x >>= f) (y >>= g)

/-- An accord that passes to steps in a rendering of their own. -/
structure Pairing extends Accord where
  afresh {α β : Type} {Q : α → β → Prop} {x : Run α} {y : Run β} (h : Holds Q x y) :
    Holds Q (Run.afresh x) (Run.afresh y)

namespace Accord

variable (P : Accord) {α β ι κ : Type} {Q : α → β → Prop}

theorem mono {Q' : α → β → Prop} {x : Run α} {y : Run β} (h : P.Holds Q x y)
    (hQ : ∀ a b, Q a b → Q' a b) : P.Holds Q' x y := by
  rw [← bind_pure x, ← bind_pure y]
  exact P.bind h fun a b hab => P.pure (hQ a b hab)

/-- The same value is bound in both. -/
theorem bind_eq {γ δ : Type} {R : γ → δ → Prop} {x y : Run α} {f : α → Run γ} {g : α → Run δ}
    (h : P.Holds (· = ·) x y) (hf : ∀ a, P.Holds R (f a) (g a)) :
    P.Holds R (x >>= f) (y >>= g) := by
  apply P.bind h
  rintro a _ rfl
  exact hf a

theorem foldlM {R : ι → κ → Prop} {f : α → ι → Run α} {g : β → κ → Run β} {items : List ι}
    {items' : List κ} (hi : List.Forall₂ R items items')
    (h : ∀ a b, Q a b → ∀ i j, R i j → P.Holds Q (f a i) (g b j)) {a : α} {b : β} (hab : Q a b) :
    P.Holds Q (items.foldlM f a) (items'.foldlM g b) := by
  induction hi generalizing a b with
  | nil => exact P.pure hab
  | cons hij _ ih =>
      rw [List.foldlM_cons, List.foldlM_cons]
      exact P.bind (h a b hab _ _ hij) fun a b hab => ih hab

theorem forM {f g : ι → Run Unit} {items : List ι} (h : ∀ i, P.Holds (· = ·) (f i) (g i)) :
    P.Holds (· = ·) (items.forM f) (items.forM g) := by
  induction items with
  | nil => exact P.pure rfl
  | cons i items ih => exact P.bind_eq (h i) fun _ => ih

/-- Every step is in accord with itself. -/
def Reflexive : Prop := ∀ {α : Type} (x : Run α), P.Holds (· = ·) x x

/-! ## The same value -/

/-- The two steps give the same value, and `K` holds of it. -/
abbrev Same (K : α → Prop) (x y : Run α) : Prop := P.Holds (fun a b => a = b ∧ K a) x y

namespace Same

variable {P} {K : α → Prop} {L : β → Prop} {x y : Run α}

theorem pure {a : α} (h : K a) : P.Same K (Pure.pure a) (Pure.pure a) := P.pure ⟨rfl, h⟩

theorem throw {e : Failure} (h : e.isInclusionTooDeep = false) :
    P.Same K (MonadExcept.throw e) (MonadExcept.throw e) := P.throw h

theorem bind {f g : α → Run β} (h : P.Same K x y) (hf : ∀ a, K a → P.Same L (f a) (g a)) :
    P.Same L (x >>= f) (y >>= g) := by
  apply P.bind h
  rintro a _ ⟨rfl, ha⟩
  exact hf a ha

theorem mono {K' : α → Prop} (h : P.Same K x y) (hK : ∀ a, K a → K' a) : P.Same K' x y :=
  P.mono h fun a _ hab => hab.imp id (hK a)

theorem any (h : P.Same K x y) : P.Same (fun _ => True) x y := h.mono fun _ _ => trivial

theorem eq (h : P.Same K x y) : P.Holds (· = ·) x y := P.mono h fun _ _ hab => hab.1

theorem foldlM {f g : α → ι → Run α} {items : List ι} {a : α} (ha : K a)
    (hf : ∀ i ∈ items, ∀ a, K a → P.Same K (f a i) (g a i)) :
    P.Same K (items.foldlM f a) (items.foldlM g a) := by
  have hitems : List.Forall₂ (fun i j => i = j ∧ i ∈ items) items items :=
    List.forall₂_same.mpr fun i hi => ⟨rfl, hi⟩
  refine P.foldlM hitems ?_ ⟨rfl, ha⟩
  rintro a _ ⟨rfl, ha⟩ i _ ⟨rfl, hi⟩
  exact hf i hi a ha

theorem mapM {f g : ι → Run β} {items : List ι} (hf : ∀ i ∈ items, P.Same L (f i) (g i)) :
    P.Same (fun bs => ∀ b ∈ bs, L b) (items.mapM f) (items.mapM g) := by
  induction items with
  | nil => exact .pure (by simp)
  | cons i items ih =>
      obtain ⟨hi, hf⟩ := List.forall_mem_cons.mp hf
      rw [List.mapM_cons, List.mapM_cons]
      refine .bind hi fun b hb => .bind (ih hf) fun bs hbs => ?_
      exact .pure (List.forall_mem_cons.mpr ⟨hb, hbs⟩)

end Same

theorem mapM {f g : ι → Run α} {items : List ι} (h : ∀ i ∈ items, P.Holds (· = ·) (f i) (g i)) :
    P.Holds (· = ·) (items.mapM f) (items.mapM g) :=
  (Same.mapM fun i hi => P.mono (h i hi) fun _ _ hab => ⟨hab, trivial⟩).eq

end Accord

/-! ## Excuses -/

variable {α β γ δ : Type} {excused : Failure → Prop} {Q : α → β → Prop} {R : γ → δ → Prop}

/-- From each store the first step has an excused failure, or both end with the same failure or with
values of which `Q` holds, and in the same store. -/
def Excuses (excused : Failure → Prop) (Q : α → β → Prop) (x : Run α) (y : Run β) : Prop :=
  ∀ store, (∃ e, excused e ∧ (x.run store).1 = .error e) ∨
    Agree Q (x.run store).1 (y.run store).1 ∧ (x.run store).2 = (y.run store).2

namespace Excuses

theorem refl (x : Run α) : Excuses excused (· = ·) x x := by
  intro store
  refine .inr ⟨?_, rfl⟩
  cases (x.run store).1 with
  | ok a => exact .ok rfl
  | error e => exact .error e

theorem excuse {e : Failure} (h : excused e) (y : Run β) :
    Excuses excused Q (MonadExcept.throw e) y :=
  fun _ => .inl ⟨e, h, rfl⟩

theorem bind {x : Run α} {y : Run β} {f : α → Run γ} {g : β → Run δ} (h : Excuses excused Q x y)
    (hf : ∀ a b, Q a b → Excuses excused R (f a) (g b)) :
    Excuses excused R (x >>= f) (y >>= g) := by
  intro store
  rw [Fallible.run_bind, Fallible.run_bind]
  have hs := h store
  rcases hx : x.run store with ⟨a, s⟩
  rcases hy : y.run store with ⟨b, t⟩
  rw [hx, hy] at hs
  dsimp only at hs
  obtain ⟨e, he, rfl⟩ | ⟨ha, rfl⟩ := hs
  · exact .inl ⟨e, he, rfl⟩
  · cases ha with
    | ok hQ => exact hf _ _ hQ s
    | error e => exact .inr ⟨.error e, rfl⟩

theorem afresh {x : Run α} {y : Run β} (h : Excuses excused Q x y) :
    Excuses excused Q (Run.afresh x) (Run.afresh y) := by
  intro store
  rcases h { store with met := [] } with hx | ⟨ha, hs⟩
  · exact .inl hx
  · exact .inr ⟨ha, congrArg (fun after : Store => { after with met := store.met }) hs⟩

theorem run_eq {x y : Run α} (h : Excuses excused (· = ·) x y) {store : Store}
    (hx : ∀ e, excused e → (x.run store).1 ≠ .error e) : y.run store = x.run store := by
  obtain ⟨ha, hs⟩ := (h store).resolve_left fun ⟨e, he, hr⟩ => hx e he hr
  exact (Prod.ext ha.eq hs).symm

end Excuses

def excusing (excused : Failure → Prop) : Pairing where
  Holds := Excuses excused
  pure h := fun _ => .inr ⟨.ok h, rfl⟩
  throw _ := fun _ => .inr ⟨.error _, rfl⟩
  bind := .bind
  afresh := .afresh

theorem excusing_reflexive (excused : Failure → Prop) : (excusing excused).Reflexive := .refl

end Whisker.Run
