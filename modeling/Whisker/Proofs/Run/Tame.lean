import Whisker.Proofs.Library.Loading
import Whisker.Proofs.Run.Accord
import Whisker.Proofs.View.Passive

/-! Tame steps. Where they fail for the length of a chain of inclusions, the chain is one of given
chains, and they keep the loader in service and the items of all iterators passive. -/

namespace Whisker

/-- If the failure is for the length of a chain, the chain is one of these. -/
def Failure.Reports (chains : List Text → Prop) (e : Failure) : Prop :=
  ∀ names, e = .inclusionTooDeep names → chains names

theorem Failure.reports {chains : List Text → Prop} {e : Failure}
    (h : e.isInclusionTooDeep = false) : e.Reports chains := by
  rintro names rfl
  cases h

theorem Flat.reports {α : Type} {chains : List Text → Prop} {x : Except Failure α} {e : Failure}
    (h : Flat x) (hx : x = .error e) : e.Reports chains :=
  Failure.reports (Failure.not_isInclusionTooDeep (h e hx))

/-- A store from which a rendering of passive views can go on. -/
structure Store.Passive (lib : Library) (store : Store) : Prop where
  serves : store.loader.Serves lib
  met : ∀ entry ∈ store.met, ∀ v ∈ entry.2, v.Passive

namespace Run

variable {lib : Library} {chains : List Text → Prop} {α β : Type} {K : α → Prop} {L : β → Prop}

/-- `K` holds of the value that the step gives, if it gives one. -/
def Tame (lib : Library) (chains : List Text → Prop) (K : α → Prop) (x : Run α) : Prop :=
  ∀ store, store.Passive lib → (x.run store).2.Passive lib ∧
    match (x.run store).1 with
    | .ok a => K a
    | .error e => e.Reports chains

namespace Tame

theorem pure {a : α} (h : K a) : Tame lib chains K (Pure.pure a) := fun _ hs => ⟨hs, h⟩

theorem fail {e : Failure} (h : e.Reports chains) : Tame lib chains K (MonadExcept.throw e) :=
  fun _ hs => ⟨hs, h⟩

theorem throw {e : Failure} (h : e.isInclusionTooDeep = false) :
    Tame lib chains K (MonadExcept.throw e) := fail (Failure.reports h)

theorem bind {x : Run α} {f : α → Run β} (h : Tame lib chains K x)
    (hf : ∀ a, K a → Tame lib chains L (f a)) : Tame lib chains L (x >>= f) := by
  intro store hs
  obtain ⟨ht, hr⟩ := h store hs
  rw [Fallible.run_bind]
  rcases hx : x.run store with ⟨a, after⟩
  rw [hx] at ht hr
  cases a with
  | ok a => exact hf a hr after ht
  | error e => exact ⟨ht, hr⟩

theorem mono {K' : α → Prop} {x : Run α} (h : Tame lib chains K x) (hK : ∀ a, K a → K' a) :
    Tame lib chains K' x := by
  rw [← bind_pure x]
  exact .bind h fun a ha => .pure (hK a ha)

theorem allow {chains' : List Text → Prop} {x : Run α} (h : Tame lib chains K x)
    (hc : ∀ names, chains names → chains' names) : Tame lib chains' K x := by
  intro store hs
  obtain ⟨ht, hr⟩ := h store hs
  refine ⟨ht, ?_⟩
  cases hx : (x.run store).1 with
  | ok a =>
      rw [hx] at hr
      exact hr
  | error e =>
      rw [hx] at hr
      exact fun names he => hc names (hr names he)

theorem any {x : Run α} (h : Tame lib chains K x) : Tame lib chains (fun _ => True) x :=
  h.mono fun _ _ => trivial

theorem tryCatch {x : Run α} {f : Failure → Run α} (h : Tame lib chains K x)
    (hf : ∀ e, e.Reports chains → Tame lib chains K (f e)) :
    Tame lib chains K (MonadExcept.tryCatch x f) := by
  intro store hs
  obtain ⟨ht, hr⟩ := h store hs
  rw [Fallible.run_tryCatch]
  rcases hx : x.run store with ⟨a, after⟩
  rw [hx] at ht hr
  cases a with
  | ok a => exact ⟨ht, hr⟩
  | error e => exact hf e hr after ht

theorem ofExcept {x : Except Failure α} (hx : Flat x) (h : ∀ a, x = .ok a → K a) :
    Tame lib chains K (ExceptT.mk (Pure.pure x)) := by
  intro store hs
  refine ⟨hs, ?_⟩
  cases x with
  | ok a => exact h a rfl
  | error e => exact hx.reports rfl

/-! ## Steps -/

theorem load {Q : α → β → Prop} {step : Loading α} {result : Except Failure β}
    (h : Loading.Gives lib Q step result) (hr : Flat result) :
    Tame lib chains (fun a => ∃ b, result = .ok b ∧ Q a b) (Run.load step) := by
  intro store hs
  obtain ⟨hv, hl⟩ := h store.loader hs.serves
  rw [run_load]
  refine ⟨⟨hl, hs.met⟩, ?_⟩
  generalize (step.run store.loader).1 = x at hv
  cases hv with
  | ok hQ => exact ⟨_, rfl, hQ⟩
  | error e => exact hr.reports rfl

/-- What is done to the heap only. -/
theorem modifyGet {f : Store → α × Store} (h : ∀ store, K (f store).1 ∧
    (f store).2 = { store with heap := (f store).2.heap }) :
    Tame lib chains K (MonadStateOf.modifyGet f) := by
  intro store hs
  obtain ⟨hK, hheap⟩ := h store
  refine ⟨?_, hK⟩
  change (f store).2.Passive lib
  rw [hheap]
  exact ⟨hs.serves, hs.met⟩

theorem read {step : Reading α} (h : ∀ heap, match (step.run heap).1 with
      | .ok a => K a
      | .error e => e.Reports chains) : Tame lib chains K (Run.read step) :=
  fun store hs => ⟨⟨hs.serves, hs.met⟩, h store.heap⟩

theorem build (v : Value) : Tame lib chains (fun w => v.Passive → w.Passive) (Run.build v) := by
  refine .modifyGet fun store => ⟨fun h => ?_, rfl⟩
  exact (v.build_passive h _ (Contents.lasts_identities fun _ _ => trivial)).1

theorem countCall (id : Identity) : Tame lib chains (fun _ => True) (Run.countCall id) := by
  cases id with
  | none => exact .pure trivial
  | some n => exact .modifyGet fun _ => ⟨trivial, rfl⟩

theorem meetIterator (id : Identity) {items : List Value} (h : ∀ v ∈ items, v.Passive) :
    Tame lib chains (fun vs => ∀ v ∈ vs, v.Passive) (Run.meetIterator id items) := by
  cases id with
  | none => exact .pure h
  | some n =>
      intro store hs
      rw [run_meetIterator]
      cases hl : store.met.lookup n with
      | some known => exact ⟨hs, hs.met _ (mem_of_lookup hl)⟩
      | none =>
          dsimp only
          split
          · exact ⟨⟨hs.serves, List.forall_mem_cons.mpr ⟨by simp, hs.met⟩⟩, by simp⟩
          · exact ⟨⟨hs.serves, List.forall_mem_cons.mpr ⟨h, hs.met⟩⟩, h⟩

theorem warn (message : String) : Tame lib chains (fun _ => True) (Run.warn message) :=
  fun _ hs => ⟨⟨hs.serves, hs.met⟩, trivial⟩

theorem afresh {x : Run α} (h : Tame lib chains K x) : Tame lib chains K (Run.afresh x) := by
  intro store hs
  obtain ⟨ht, hr⟩ := h { store with met := [] } ⟨hs.serves, by simp⟩
  exact ⟨⟨ht.serves, hs.met⟩, hr⟩

end Tame

/-! ## Accord -/

/-- Tame steps, each with another that only tells what its values stand beside. -/
def taming (lib : Library) (chains : List Text → Prop) : Pairing where
  Holds Q x _ := Tame lib chains (fun a => ∃ b, Q a b) x
  pure h := .pure ⟨_, h⟩
  throw := .throw
  bind h hf := .bind h fun a ⟨b, hab⟩ => hf a b hab
  afresh := .afresh

namespace Tame

variable {x y : Run α}

theorem same (h : Tame lib chains K x) : (taming lib chains).Same K x x :=
  h.mono fun a ha => ⟨a, rfl, ha⟩

theorem ofSame (h : (taming lib chains).Same K x y) : Tame lib chains K x :=
  Tame.mono h fun _ ⟨_, _, ha⟩ => ha

theorem foldlM {f : α → β → Run α} {items : List β} {a : α} (ha : K a)
    (hf : ∀ item ∈ items, ∀ a, K a → Tame lib chains K (f a item)) :
    Tame lib chains K (items.foldlM f a) :=
  .ofSame (.foldlM ha fun item hi a ha => (hf item hi a ha).same)

theorem forM {f : α → Run Unit} {items : List α}
    (hf : ∀ item, Tame lib chains (fun _ => True) (f item)) :
    Tame lib chains (fun _ => True) (items.forM f) :=
  Tame.mono ((taming lib chains).forM fun item => (hf item).same.eq) fun _ _ => trivial

end Tame

end Run

end Whisker
