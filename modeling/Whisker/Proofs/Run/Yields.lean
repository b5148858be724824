import Whisker.Proofs.Run.Alike

/-! What a step comes to: an invariant of the store, which holds where the step fails too, and a
property of the value that it gives where it does not. -/

namespace Whisker.Run

variable {α β : Type} {I : Store → Prop} {K : α → Prop} {L : β → Prop}

def YieldsAt (I : Store → Prop) (K : α → Prop) (store : Store) (x : Run α) : Prop :=
  I (x.run store).2 ∧ ∀ a, (x.run store).1 = .ok a → K a

def Yields (I : Store → Prop) (K : α → Prop) (x : Run α) : Prop :=
  ∀ store, I store → YieldsAt I K store x

theorem YieldsAt.bind {store : Store} {x : Run α} {f : α → Run β} (h : YieldsAt I K store x)
    (hf : ∀ a, K a → (x.run store).1 = .ok a → Yields I L (f a)) :
    YieldsAt I L store (x >>= f) := by
  obtain ⟨hs, ha⟩ := h
  unfold YieldsAt
  rw [Fallible.run_bind]
  rcases hx : x.run store with ⟨a, s⟩
  rw [hx] at hs ha hf
  cases a with
  | ok a => exact hf a (ha a rfl) rfl s hs
  | error e => exact ⟨hs, by simp⟩

namespace Yields

theorem pure {a : α} (h : K a) : Yields I K (Pure.pure a) := by
  refine fun store hs => ⟨hs, ?_⟩
  rintro _ ⟨⟩
  exact h

theorem throw (e : Failure) : Yields I K (MonadExcept.throw e : Run α) :=
  fun _ hs => ⟨hs, fun _ h => nomatch h⟩

theorem any (x : Run α) : Yields (fun _ => True) (fun _ => True) x :=
  fun _ _ => ⟨trivial, fun _ _ => trivial⟩

theorem mono {x : Run α} {K' : α → Prop} (h : Yields I K x) (hK : ∀ a, K a → K' a) :
    Yields I K' x :=
  fun store hs => (h store hs).imp id fun ha a he => hK a (ha a he)

theorem bind {x : Run α} {f : α → Run β} (h : Yields I K x) (hf : ∀ a, K a → Yields I L (f a)) :
    Yields I L (x >>= f) :=
  fun store hs => (h store hs).bind fun a ha _ => hf a ha

theorem tryCatch {x : Run α} {f : Failure → Run α} (h : Yields I K x)
    (hf : ∀ e, Yields I K (f e)) : Yields I K (MonadExcept.tryCatch x f) := by
  intro store hs
  obtain ⟨hx, ha⟩ := h store hs
  unfold YieldsAt
  rw [Fallible.run_tryCatch]
  rcases hr : x.run store with ⟨a, after⟩
  rw [hr] at hx ha
  cases a with
  | ok a => exact ⟨hx, ha⟩
  | error e => exact hf e after hx

theorem get {f : Store → Run α} (h : ∀ store, I store → YieldsAt I K store (f store)) :
    Yields I K (MonadState.get >>= f) := by
  intro store hs
  unfold YieldsAt
  rw [Fallible.run_bind]
  exact h store hs

end Yields

/-! ## Accord -/

/-- Steps that keep the invariant. The other step only tells what their values stand beside. -/
def yielding (I : Store → Prop) : Accord where
  Holds Q x _ := Yields I (fun a => ∃ b, Q a b) x
  pure h := .pure ⟨_, h⟩
  throw _ := .throw _
  bind h hf := .bind h fun a ⟨b, hab⟩ => hf a b hab

namespace Yields

variable {x y : Run α}

theorem same (h : Yields I K x) : (yielding I).Same K x x := h.mono fun a ha => ⟨a, rfl, ha⟩

theorem ofSame (h : (yielding I).Same K x y) : Yields I K x :=
  Yields.mono h fun _ ⟨_, _, ha⟩ => ha

theorem foldlM {f : α → β → Run α} {items : List β} {a : α} (ha : K a)
    (hf : ∀ a, K a → ∀ item ∈ items, Yields I K (f a item)) : Yields I K (items.foldlM f a) :=
  .ofSame (.foldlM ha fun item hi a ha => (hf a ha item hi).same)

theorem mapM {f : α → Run β} {items : List α} (hf : ∀ item ∈ items, Yields I L (f item)) :
    Yields I (fun bs => ∀ b ∈ bs, L b) (items.mapM f) :=
  .ofSame (.mapM fun item hi => (hf item hi).same)

end Yields

/-! ## Loaders -/

/-- The loader has no document that the library would not give. -/
abbrev Serving (lib : Library) (store : Store) : Prop := store.loader.Serves lib

variable {lib : Library}

theorem alike_self {store : Store} (h : Serving lib store) :
    Store.Alike (fun _ => True) lib store store :=
  ⟨⟨rfl, fun _ _ => trivial, fun n _ => .refl _ n⟩, rfl, fun _ _ v _ => v.within_anything, rfl, h,
    h⟩

namespace Yields

/-- What cannot tell two stores apart leaves the loader in service. -/
theorem ofHolds {step : Nat → Run α}
    (h : ∀ height, (blindly (blind_alike (fun _ => True) lib) height).Holds K step) (depth : Nat) :
    Yields (Serving lib) K (step depth) := by
  intro store hs
  obtain ⟨hv, ha⟩ := h (depth + 1) depth (Nat.lt_succ_self depth) store store (alike_self hs)
  refine ⟨ha.left, fun a he => ?_⟩
  rw [he] at hv
  cases hv with
  | ok hK => exact hK.2

theorem load {Q : α → β → Prop} {step : Loading α} {result : Except Failure β}
    (h : Loading.Gives lib Q step result) :
    Yields (Serving lib) (fun a => ∃ b, result = .ok b ∧ Q a b) (Run.load step) := by
  intro store hs
  obtain ⟨hv, hl⟩ := h store.loader hs
  refine ⟨hl, fun a he => ?_⟩
  change (step.run store.loader).1 = .ok a at he
  rw [he] at hv
  cases hv with
  | ok hQ => exact ⟨_, rfl, hQ⟩

theorem read (step : Reading α) : Yields (Serving lib) (fun _ => True) (Run.read step) :=
  fun _ hs => ⟨hs, fun _ _ => trivial⟩

theorem warn (message : String) : Yields (Serving lib) (fun _ => True) (Run.warn message) :=
  fun _ hs => ⟨hs, fun _ _ => trivial⟩

theorem afresh {x : Run α} (h : Yields (Serving lib) K x) :
    Yields (Serving lib) K (Run.afresh x) :=
  fun store hs => h { store with met := [] } hs

end Yields

end Whisker.Run
