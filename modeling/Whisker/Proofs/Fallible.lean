import Whisker.Failure

/-! Steps on a state that may fail, and two of them side by side: from states that are alike they
end in the same way, in states that are alike again. -/

namespace Whisker

/-- A failed step keeps what it did to the state. -/
abbrev Fallible (σ : Type) := ExceptT Failure (StateM σ)

/-- The failure for want of depth says nothing about what a step would come to. -/
def Conclusive {α : Type} (result : Except Failure α) : Prop := result ≠ .error .tooDeep

namespace Conclusive

variable {α : Type}

theorem ok (a : α) : Conclusive (.ok a) := by simp [Conclusive]

theorem error {e : Failure} (h : e ≠ .tooDeep) : Conclusive (.error e : Except Failure α) := by
  simpa [Conclusive] using h

end Conclusive

/-- The failure of an inclusion for the length of its chain. -/
def Failure.isInclusionTooDeep : Failure → Bool
  | .inclusionTooDeep _ => true
  | _ => false

/-- The failures of a rendering for what is around a node. -/
def Failure.isNesting : Failure → Bool
  | .tooDeep | .inclusionTooDeep _ => true
  | _ => false

theorem Failure.not_isInclusionTooDeep {e : Failure} (h : e.isNesting = false) :
    e.isInclusionTooDeep = false := by
  cases e with
  | inclusionTooDeep => cases h
  | _ => rfl

/-- A result that does not depend on where in a rendering it is wanted. -/
def Flat {α : Type} (result : Except Failure α) : Prop :=
  ∀ e, result = .error e → e.isNesting = false

namespace Flat

variable {α : Type}

theorem ok (a : α) : Flat (.ok a) := nofun

theorem error {e : Failure} (h : e.isNesting = false) : Flat (.error e : Except Failure α) := by
  rintro _ ⟨⟩
  exact h

theorem bind {x : Except Failure α} {f : α → Except Failure β} (h : Flat x)
    (hf : ∀ a, Flat (f a)) : Flat (x >>= f) := by
  cases x with
  | ok a => exact hf a
  | error e => exact error (h e rfl)

theorem map {x : Except Failure α} (h : Flat x) (f : α → β) : Flat (x.map f) := by
  cases x with
  | ok a => exact ok _
  | error e => exact error (h e rfl)

theorem conclusive {x : Except Failure α} (h : Flat x) : Conclusive x := by
  rintro rfl
  cases h _ rfl

end Flat

theorem exists_of_bind_eq_ok {α β : Type} {x : Except Failure α} {f : α → Except Failure β} {b : β}
    (h : x >>= f = .ok b) : ∃ a, x = .ok a ∧ f a = .ok b := by
  cases x with
  | ok a => exact ⟨a, rfl, h⟩
  | error e => cases h

/-- Two results that are the same failure, or values of which `Q` holds. -/
inductive Agree {α β : Type} (Q : α → β → Prop) : Except Failure α → Except Failure β → Prop where
  | ok {a b} (h : Q a b) : Agree Q (.ok a) (.ok b)
  | error (e) : Agree Q (.error e) (.error e)

namespace Agree

variable {α β γ δ : Type} {Q : α → β → Prop} {P : γ → δ → Prop}

theorem mono {Q' : α → β → Prop} {x : Except Failure α} {y : Except Failure β} (h : Agree Q x y)
    (hQ : ∀ a b, Q a b → Q' a b) : Agree Q' x y := by
  cases h with
  | ok h => exact .ok (hQ _ _ h)
  | error e => exact .error e

theorem eq {x y : Except Failure α} (h : Agree (· = ·) x y) : x = y := by
  cases h with
  | ok h => rw [h]
  | error e => rfl

theorem map {x : Except Failure α} {y : Except Failure β} (h : Agree Q x y) {f : α → γ}
    {g : β → δ} (hf : ∀ a b, Q a b → P (f a) (g b)) : Agree P (x.map f) (y.map g) := by
  cases h with
  | ok h => exact .ok (hf _ _ h)
  | error e => exact .error e

end Agree

namespace Fallible

variable {σ α β γ δ : Type}

/-! ## Running -/

theorem run_bind (x : Fallible σ α) (f : α → Fallible σ β) (s : σ) :
    (x >>= f).run s =
      match x.run s with
      | (.ok a, s) => (f a).run s
      | (.error e, s) => (.error e, s) := by
  change ExceptT.bindCont f (x.run s).1 (x.run s).2 = _
  rcases x.run s with ⟨_ | _, _⟩ <;> rfl

theorem exists_of_run_bind {x : Fallible σ α} {f : α → Fallible σ β} {s u : σ} {b : β}
    (h : (x >>= f).run s = (.ok b, u)) :
    ∃ a t, x.run s = (.ok a, t) ∧ (f a).run t = (.ok b, u) := by
  rw [run_bind] at h
  rcases hx : x.run s with ⟨a, t⟩
  rw [hx] at h
  cases a with
  | ok a => exact ⟨a, t, rfl, h⟩
  | error e => cases h

theorem run_tryCatch (x : Fallible σ α) (f : Failure → Fallible σ α) (s : σ) :
    (tryCatch x f).run s =
      match x.run s with
      | (.ok a, s) => (.ok a, s)
      | (.error e, s) => (f e).run s := by
  have h (g : Except Failure α → StateM σ (Except Failure α)) :
      (x.run >>= g) s = g (x.run s).1 (x.run s).2 := rfl
  rw [ExceptT.run_tryCatch]
  refine (h _).trans ?_
  rcases x.run s with ⟨_ | _, _⟩ <;> rfl

/-! ## Side by side -/

def Related (R : σ → σ → Prop) (Q : α → β → Prop) (x : Fallible σ α) (y : Fallible σ β) : Prop :=
  ∀ s t, R s t → Agree Q (x.run s).1 (y.run t).1 ∧ R (x.run s).2 (y.run t).2

namespace Related

variable {R : σ → σ → Prop} {Q : α → β → Prop} {P : γ → δ → Prop}

theorem pure {a : α} {b : β} (h : Q a b) : Related R Q (Pure.pure a) (Pure.pure b) :=
  fun _ _ hR => ⟨.ok h, hR⟩

theorem throw (e : Failure) : Related R Q (MonadExcept.throw e) (MonadExcept.throw e) :=
  fun _ _ hR => ⟨.error e, hR⟩

theorem bind {x : Fallible σ α} {y : Fallible σ β} {f : α → Fallible σ γ} {g : β → Fallible σ δ}
    (h : Related R Q x y) (hf : ∀ a b, Q a b → Related R P (f a) (g b)) :
    Related R P (x >>= f) (y >>= g) := by
  intro s t hR
  obtain ⟨hv, hs⟩ := h s t hR
  rw [run_bind, run_bind]
  rcases hx : x.run s with ⟨a, s'⟩
  rcases hy : y.run t with ⟨b, t'⟩
  rw [hx, hy] at hv hs
  cases hv with
  | ok h => exact hf _ _ h s' t' hs
  | error e => exact ⟨.error e, hs⟩

theorem tryCatch {x : Fallible σ α} {y : Fallible σ β} {f : Failure → Fallible σ α}
    {g : Failure → Fallible σ β} (h : Related R Q x y) (hf : ∀ e, Related R Q (f e) (g e)) :
    Related R Q (MonadExcept.tryCatch x f) (MonadExcept.tryCatch y g) := by
  intro s t hR
  obtain ⟨hv, hs⟩ := h s t hR
  rw [run_tryCatch, run_tryCatch]
  rcases hx : x.run s with ⟨a, s'⟩
  rcases hy : y.run t with ⟨b, t'⟩
  rw [hx, hy] at hv hs
  cases hv with
  | ok h => exact ⟨.ok h, hs⟩
  | error e => exact hf e s' t' hs

end Related

/-! ## One step, from states that are alike -/

/-- A step that cannot tell two states apart; `K` holds of the values that it gives. -/
abbrev Steady (R : σ → σ → Prop) (K : α → Prop) (x : Fallible σ α) : Prop :=
  Related R (fun a b => a = b ∧ K a) x x

namespace Steady

variable {R : σ → σ → Prop} {K : α → Prop} {L : β → Prop}

theorem pure {a : α} (h : K a) : Steady R K (Pure.pure a) := Related.pure ⟨rfl, h⟩

theorem bind {x : Fallible σ α} {f : α → Fallible σ β} (h : Steady R K x)
    (hf : ∀ a, K a → Steady R L (f a)) : Steady R L (x >>= f) := by
  refine Related.bind h ?_
  rintro a _ ⟨rfl, ha⟩
  exact hf a ha

theorem get {f : σ → Fallible σ α} (h : ∀ s t, R s t → f s = f t ∧ Steady R K (f s)) :
    Steady R K (MonadState.get >>= f) := by
  intro s t hR
  obtain ⟨hf, hs⟩ := h s t hR
  rw [run_bind, run_bind]
  change Agree _ ((f s).run s).1 ((f t).run t).1 ∧ R ((f s).run s).2 ((f t).run t).2
  rw [← hf]
  exact hs s t hR

theorem modifyGet {f : σ → α × σ}
    (h : ∀ s t, R s t → (f s).1 = (f t).1 ∧ K (f s).1 ∧ R (f s).2 (f t).2) :
    Steady R K (MonadStateOf.modifyGet f) := by
  intro s t hR
  obtain ⟨hv, hK, hs⟩ := h s t hR
  exact ⟨.ok ⟨hv, hK⟩, hs⟩

end Steady

end Fallible

end Whisker
