import Mathlib
import Whisker.Proofs.Render.Follows
import Whisker.Proofs.Render.Steps

/-! Stores that no rendering of a pure view tells apart. Renderings come from such stores to such
stores, and a look at the view in one of them makes no difference. -/

namespace Whisker

open Run (Follows)

/-- Beyond the identities that were handed out the second run remembers nothing either. -/
theorem Shifting.Alike.untouched_right {S : Shifting} {s t : Store} (h : S.Alike s t) {k : Nat}
    (hk : t.heap.nextIdentity ≤ k) : t.Untouched k := by
  have hstart := h.start_le
  have hnext := h.next
  rw [shift, Ledger.shift_of_le hstart] at hnext
  let n := S.ledger.start + (k - S.other)
  have hn : S.ledger.start ≤ n := Nat.le_add_right _ _
  have hle : s.heap.nextIdentity ≤ n := by omega
  have hshift : S.shift n = k := by
    rw [shift, Ledger.shift_of_le hn]
    omega
  have huntouched := h.untouched n hle
  refine ⟨?_, ?_, ?_⟩
  · rw [← hshift, h.met n hn, huntouched.met]
    rfl
  · rw [← hshift, h.drained n hn]
    exact huntouched.drained
  · rw [← hshift, h.calls n hn]
    exact huntouched.calls

/-- The identities below `bound`, where no sub-view shares an iterator. -/
def Ledger.below (bound : Nat) (held : Nat → List Value) (quiet : Nat → Prop) (others : Prop) :
    Ledger where
  bound := bound
  start := bound
  next := bound
  held := held
  iterators := True
  shared := False
  quiet := quiet
  others := others

theorem Ledger.lt_of_below_has {bound n : Nat} {held : Nat → List Value} {quiet : Nat → Prop}
    {others : Prop} (h : (below bound held quiet others).Has n) : n < bound := by
  simp only [Has, below] at h
  omega

/-- What was built before a rendering of a pure view. -/
structure Inventory where
  bound : Nat
  /-- What each iterator was built with. -/
  held : Nat → List Value
  /-- The functions in the view. They do not look at how often they were called. -/
  quiet : Nat → Prop
  built : ∀ n, ∀ v ∈ held n, v.IsBuilt
  items : ∀ n, n < bound → ∀ v ∈ held n, v.Pure (.below bound held quiet False)

namespace Inventory

variable (I : Inventory)

/-- What may be in a view. An iterator that was made before the rendering may be anywhere in it but
inside the view of a sub-view: that one is rendered with a memory of its own, so that reading the
iterator there would leave nothing for whoever reads it afterwards. -/
def view : Ledger := .below I.bound I.held I.quiet False

/-- What may be in a function of the engine, which has no iterators. -/
def engine : Ledger := (Ledger.below I.bound I.held I.quiet True).inside

/-- A store in which a view can be rendered. -/
structure Ready (lib : Library) (store : Store) : Prop where
  bound_le : I.bound ≤ store.heap.nextIdentity
  items : ∀ n, n < I.bound → ∀ v ∈ store.itemsOf n (I.held n), v.Pure I.view
  untouched : ∀ n, store.heap.nextIdentity ≤ n → store.Untouched n
  serves : store.loader.Serves lib

/-- No view tells the two stores apart. -/
structure Level (s t : Store) : Prop where
  items : ∀ n, n < I.bound → t.itemsOf n (I.held n) = s.itemsOf n (I.held n)
  calls : ∀ n, n < I.bound → ¬ I.quiet n → t.heap.callsOf n = s.heap.callsOf n
  warnings : t.warnings = s.warnings

variable {I} {lib : Library} {s t u : Store}

theorem Level.refl (s : Store) : I.Level s s := ⟨fun _ _ => rfl, fun _ _ _ => rfl, rfl⟩

theorem Level.symm (h : I.Level s t) : I.Level t s :=
  ⟨fun n hn => (h.items n hn).symm, fun n hn hq => (h.calls n hn hq).symm, h.warnings.symm⟩

theorem Level.trans (h : I.Level s t) (h' : I.Level t u) : I.Level s u :=
  ⟨fun n hn => (h'.items n hn).trans (h.items n hn),
    fun n hn hq => (h'.calls n hn hq).trans (h.calls n hn hq), h'.warnings.trans h.warnings⟩

/-! ## Two runs from level stores -/

variable (I) in
/-- The ledger from a store on. -/
def since (others : Prop) (store : Store) : Ledger :=
  { Ledger.below I.bound I.held I.quiet others with
    start := store.heap.nextIdentity
    next := store.heap.nextIdentity }

theorem view_le (others : Prop) (store : Store) : I.view.Le (I.since others store).past :=
  ⟨rfl, rfl, rfl, fun _ h => Ledger.Le.past_has.mpr (Ledger.lt_of_below_has h), id, id, False.elim⟩

theorem engine_le (store : Store) : I.engine.Le (I.since True store).inside.past := by
  refine ⟨rfl, rfl, rfl, fun n hn => ?_, id, id, id⟩
  have hhas : (Ledger.below I.bound I.held I.quiet True).Has n := hn
  exact Ledger.Le.past_has.mpr (Ledger.lt_of_below_has hhas)

section

variable (others : Prop) (hs : I.Ready lib s) (ht : I.Ready lib t)

def shifting : Shifting where
  ledger := I.since others s
  other := t.heap.nextIdentity
  served := fun loader => loader.Serves lib
  left := s
  right := t
  sound := ⟨hs.bound_le, ht.bound_le, I.built⟩
  held := fun _ n hn v hv => (I.items n hn v hv).mono (view_le others s)
  known := fun _ n hn v hv => (hs.items n hn v hv).mono (view_le others s)

variable {others}

theorem Level.alike (h : I.Level s t) : (shifting others hs ht).Alike s t :=
  .ofUntouched trivial rfl rfl hs.untouched ht.untouched (fun _ _ => rfl) h.items h.calls
    (fun _ _ _ _ => rfl) h.warnings hs.serves ht.serves

/-- A step of both runs comes to level stores. -/
theorem Level.step {α β : Type} {Q : Nat → α → β → Prop} {x : Run α} {y : Run β}
    (h : I.Level s t) (hxy : Follows (shifting others hs ht) Q x y s.heap.nextIdentity) :
    I.Ready lib (x.run s).2 ∧ I.Ready lib (y.run t).2 ∧ I.Level (x.run s).2 (y.run t).2 ∧
      Agree (Q (x.run s).2.heap.nextIdentity) (x.run s).1 (y.run t).1 := by
  obtain ⟨hle, hafter, hagree⟩ := hxy s t (h.alike hs ht) (Nat.le_refl _)
  have hleft : ∀ n, n < I.bound → (x.run s).2.itemsOf n (I.held n) = s.itemsOf n (I.held n) :=
    hafter.items_left trivial
  have hright : ∀ n, n < I.bound → (y.run t).2.itemsOf n (I.held n) = s.itemsOf n (I.held n) :=
    hafter.items_right trivial
  have hbound : I.bound ≤ (y.run t).2.heap.nextIdentity := by
    have hother : I.bound ≤ t.heap.nextIdentity := ht.bound_le
    have hstart : s.heap.nextIdentity ≤ (x.run s).2.heap.nextIdentity := hle
    rw [hafter.next, Shifting.shift, Ledger.shift_of_le hstart]
    exact Nat.le_trans hother (Nat.le_add_right _ _)
  refine ⟨⟨Nat.le_trans hs.bound_le hle, fun n hn => ?_, hafter.untouched, hafter.served_left⟩,
    ⟨hbound, fun n hn => ?_, fun n hn => hafter.untouched_right hn, hafter.served_right⟩,
    ⟨fun n hn => ?_, hafter.calls_same, hafter.warnings⟩, hagree⟩
  · rw [hleft n hn]
    exact hs.items n hn
  · rw [hright n hn]
    exact hs.items n hn
  · rw [hleft n hn, hright n hn]

/-- A look at a view, which warns of nothing and calls no function but those in views. -/
theorem Ready.look {α β : Type} {Q : Nat → α → β → Prop} {x : Run α} {y : Run β}
    (hx : Follows (shifting False hs hs) Q x y s.heap.nextIdentity)
    (hw : (x.run s).2.warnings = s.warnings) :
    I.Ready lib (x.run s).2 ∧ I.Level s (x.run s).2 := by
  obtain ⟨-, hafter, -⟩ := hx s s ((Level.refl s).alike hs hs) (Nat.le_refl _)
  refine ⟨((Level.refl s).step hs hs hx).1, hafter.items_left trivial, fun n hn hq => ?_, hw⟩
  exact hafter.calls_left id n hn hq

theorem fits {stage : Stage} (hstage : stage.Uses fun f => f.Pure I.engine) :
    (shifting True hs ht).Fits lib stage where
  served := rfl
  shared := id
  escape f he := (hstage.escape f he).mono (engine_le s)
  filters entry he := (hstage.filters entry he).mono (engine_le s)

end

end Inventory

end Whisker
