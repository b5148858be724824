import Whisker.Proofs.Run.Accord

/-! Steps that raise an alarm, or else end as other steps do. -/

namespace Whisker

namespace Run

variable {α β γ δ : Type} {alarm : Failure} {Q : α → β → Prop} {P : γ → δ → Prop}

/-- From this store the first step raises the alarm, or both end with the same failure or with
values of which `Q` holds, and in the same store. -/
def GuardsAt (alarm : Failure) (Q : α → β → Prop) (store : Store) (x : Run α) (y : Run β) : Prop :=
  (x.run store).1 = .error alarm ∨
    Agree Q (x.run store).1 (y.run store).1 ∧ (x.run store).2 = (y.run store).2

def Guards (alarm : Failure) (Q : α → β → Prop) (x : Run α) (y : Run β) : Prop :=
  ∀ store, GuardsAt alarm Q store x y

theorem GuardsAt.bind {store : Store} {x : Run α} {y : Run β} {f : α → Run γ} {g : β → Run δ}
    (h : GuardsAt alarm Q store x y)
    (hf : ∀ a b, Q a b → (x.run store).1 = .ok a → Guards alarm P (f a) (g b)) :
    GuardsAt alarm P store (x >>= f) (y >>= g) := by
  unfold GuardsAt at *
  rw [Fallible.run_bind, Fallible.run_bind]
  rcases hx : x.run store with ⟨a, s⟩
  rcases hy : y.run store with ⟨b, t⟩
  rw [hx] at h hf
  rw [hy] at h
  dsimp only at h hf
  obtain rfl | ⟨ha, rfl⟩ := h
  · exact .inl rfl
  · cases ha with
    | ok hQ => exact hf _ _ hQ rfl s
    | error e => exact .inr ⟨.error e, rfl⟩

namespace Guards

theorem pure {a : α} {b : β} (h : Q a b) : Guards alarm Q (Pure.pure a) (Pure.pure b) :=
  fun _ => .inr ⟨.ok h, rfl⟩

theorem iff_excuses {x : Run α} {y : Run β} :
    Guards alarm Q x y ↔ Excuses (· = alarm) Q x y := by
  simp [Guards, GuardsAt, Excuses]

theorem refl (x : Run α) : Guards alarm (· = ·) x x := iff_excuses.mpr (.refl x)

theorem mono {Q' : α → β → Prop} {x : Run α} {y : Run β} (h : Guards alarm Q x y)
    (hQ : ∀ a b, Q a b → Q' a b) : Guards alarm Q' x y :=
  fun store => (h store).imp_right fun ⟨ha, hs⟩ => ⟨ha.mono hQ, hs⟩

theorem throw (e : Failure) :
    Guards alarm Q (MonadExcept.throw e : Run α) (MonadExcept.throw e : Run β) :=
  fun _ => .inr ⟨.error e, rfl⟩

theorem raise (y : Run β) : Guards alarm Q (MonadExcept.throw alarm : Run α) y := fun _ => .inl rfl

theorem bind {x : Run α} {y : Run β} {f : α → Run γ} {g : β → Run δ} (h : Guards alarm Q x y)
    (hf : ∀ a b, Q a b → Guards alarm P (f a) (g b)) : Guards alarm P (x >>= f) (y >>= g) :=
  fun store => (h store).bind fun a b hQ _ => hf a b hQ

/-- The same step before both. -/
theorem after (x : Run α) {f : α → Run γ} {g : α → Run δ} (hf : ∀ a, Guards alarm P (f a) (g a)) :
    Guards alarm P (x >>= f) (x >>= g) := by
  refine bind (refl x) ?_
  rintro a _ rfl
  exact hf a

theorem afresh {x : Run α} {y : Run β} (h : Guards alarm Q x y) :
    Guards alarm Q (Run.afresh x) (Run.afresh y) := iff_excuses.mpr (iff_excuses.mp h).afresh

/-- Looking at the store before the first step. -/
theorem get {f : Store → Run α} {y : Run β} (h : ∀ store, GuardsAt alarm Q store (f store) y) :
    Guards alarm Q (MonadState.get >>= f) y := by
  intro store
  unfold GuardsAt
  rw [Fallible.run_bind]
  exact h store

theorem run_eq {x y : Run α} (h : Guards alarm (· = ·) x y) {store : Store}
    (hx : (x.run store).1 ≠ .error alarm) : x.run store = y.run store :=
  ((iff_excuses.mp h).run_eq fun _ he => he ▸ hx).symm

end Guards

def guarding (alarm : Failure) : Pairing where
  Holds := Guards alarm
  pure := .pure
  throw _ := .throw _
  bind := .bind
  afresh := .afresh

end Run

end Whisker
