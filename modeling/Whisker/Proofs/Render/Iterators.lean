import Whisker.Proofs.Render.Steady
import Whisker.Proofs.View.Identity

/-! One-shot iterators in a rendering. All that is rendered with one memory of what was met gets the
same items of an iterator, those that it held at the start; views with templates of their own have a
memory of their own. -/

namespace Whisker

open Fallible (Related Steady)

/-! ## What iterators hold -/

/-- A value that building leaves as it is. -/
def Value.IsBuilt (v : Value) : Prop := ∀ next, v.build.run next = (v, next)

theorem Value.run_buildItems {items : List Value} (h : ∀ v ∈ items, v.IsBuilt) (next : Nat) :
    (buildItems items).run next = (items, next) := by
  induction items with
  | nil => rfl
  | cons item items ih =>
      obtain ⟨hi, h⟩ := List.forall_mem_cons.mp h
      rw [buildItems, StateT.run_bind, hi next]
      change (buildItems items >>= fun items => pure (item :: items)).run next = _
      rw [StateT.run_bind, ih h]
      rfl

/-- Iterators with an identity below `bound` hold the items that `held` tells. Anything can be
called, but there are no sub-views. -/
def Contents.holding (held : Nat → List Value) (bound : Nat) : Contents :=
  ⟨fun id items => ∀ n, id = some n → n < bound → items = held n, fun _ => True, fun _ => False⟩

/-- Iterators that are built later have other identities. -/
theorem Contents.lasts_holding {held : Nat → List Value} (h : ∀ n, ∀ v ∈ held n, v.IsBuilt)
    {bound next : Nat} (hle : bound ≤ next) : (holding held bound).Lasts next := by
  refine ⟨fun _ _ => trivial, ?_, ?_⟩
  · rintro n hn items _ ⟨⟩ hlt
    omega
  · rintro n items start ho _ ⟨⟩ hlt
    obtain rfl := ho n rfl hlt
    rw [Value.run_buildItems (h n)]

namespace Store

/-- The items that an iterator has for a rendering that comes to it: those that it had before, or
what is left of those that it held. -/
def itemsOf (store : Store) (n : Nat) (held : List Value) : List Value :=
  match store.met.lookup n with
  | some known => known
  | none => if store.heap.drained.contains n then [] else held

/-- Two stores that remember the same of an iterator. -/
structure SameOf (s t : Store) (n : Nat) : Prop where
  met : s.met.lookup n = t.met.lookup n
  drained : n ∈ s.heap.drained ↔ n ∈ t.heap.drained

theorem SameOf.itemsOf_eq {s t : Store} {n : Nat} (h : s.SameOf t n) (held : List Value) :
    s.itemsOf n held = t.itemsOf n held := by
  have hd : s.heap.drained.contains n = t.heap.drained.contains n := by
    rw [Bool.eq_iff_iff, List.contains_iff_mem, List.contains_iff_mem, h.drained]
  rw [itemsOf, itemsOf, h.met, hd]

theorem itemsOf_of_met_eq_nil {store : Store} (h : store.met = []) (n : Nat) (held : List Value) :
    store.itemsOf n held = if store.heap.drained.contains n then [] else held := by
  rw [itemsOf, h]
  rfl

/-- After coming to an iterator a store remembers its items, and has not changed otherwise. -/
structure Came (n : Nat) (held : List Value) (store after : Store) : Prop where
  known : after.met.lookup n = some (store.itemsOf n held)
  drained : n ∈ after.heap.drained ↔ n ∈ store.heap.drained ∨ store.met.lookup n = none
  others : ∀ k, k ≠ n → after.SameOf store k
  next : after.heap.nextIdentity = store.heap.nextIdentity
  calls : after.heap.calls = store.heap.calls
  warnings : after.warnings = store.warnings
  loader : after.loader = store.loader
  met : ∀ entry ∈ after.met, entry ∈ store.met ∨ entry.2 = store.itemsOf n held

/-- What is met with the items that it has goes on having them. -/
theorem Came.itemsOf_eq {n k : Nat} {items held : List Value} {store after : Store}
    (h : Came n items store after) (hk : k = n → items = held) :
    after.itemsOf k held = store.itemsOf k held := by
  by_cases hkn : k = n
  · obtain rfl := hk hkn
    subst hkn
    rw [itemsOf, h.known]
  · exact (h.others k hkn).itemsOf_eq _

end Store

open Store (Came)

theorem Run.run_meetIterator_came (n : Nat) (held : List Value) (store : Store) :
    ∃ after, (meetIterator (some n) held).run store = (.ok (store.itemsOf n held), after) ∧
      Came n held store after := by
  rw [run_meetIterator]
  cases hl : store.met.lookup n with
  | some known =>
      have hn : store.itemsOf n held = known := by rw [Store.itemsOf, hl]
      rw [hn]
      exact ⟨store, rfl, by rw [hn, hl], by simp [hl], fun _ _ => ⟨rfl, Iff.rfl⟩, rfl, rfl, rfl,
        rfl, fun entry he => .inl he⟩
  | none =>
      have hn : store.itemsOf n held = if store.heap.drained.contains n then [] else held := by
        rw [Store.itemsOf, hl]
      have hmet : ∀ entry ∈ (n, store.itemsOf n held) :: store.met,
          entry ∈ store.met ∨ entry.2 = store.itemsOf n held :=
        List.forall_mem_cons.mpr ⟨.inr rfl, fun entry he => .inl he⟩
      have hlookup (k : Nat) (hk : k ≠ n) :
          ((n, store.itemsOf n held) :: store.met).lookup k = store.met.lookup k := by
        rw [List.lookup_cons, beq_false_of_ne hk]
      cases hd : store.heap.drained.contains n with
      | true =>
          rw [hd, if_pos rfl] at hn
          refine ⟨{ store with met := (n, store.itemsOf n held) :: store.met }, ?_,
            List.lookup_cons_self, ?_, fun k hk => ⟨hlookup k hk, Iff.rfl⟩, rfl, rfl, rfl, rfl,
            hmet⟩
          · simp only [hn, if_true]
          · exact iff_of_true (List.contains_iff_mem.mp hd) (.inr hl)
      | false =>
          rw [hd, if_neg Bool.false_ne_true] at hn
          refine ⟨{ store with
            heap := store.heap.drain n, met := (n, store.itemsOf n held) :: store.met }, ?_,
            List.lookup_cons_self, ?_, fun k hk => ⟨hlookup k hk, ?_⟩, rfl, rfl, rfl, rfl, hmet⟩
          · simp [hn]
          · exact iff_of_true ((Heap.mem_drain _ _ _).mpr (.inl rfl)) (.inr hl)
          · rw [Heap.mem_drain]
            exact or_iff_right hk

/-! ## Two renderings side by side -/

/-- Two stores that differ only in which of the iterators below `bound` were met, not in what these
have. -/
structure Store.Likewise (lib : Library) (held items : Nat → List Value) (bound : Nat)
    (s t : Store) : Prop where
  left : ∀ n, n < bound → s.itemsOf n (held n) = items n
  right : ∀ n, n < bound → t.itemsOf n (held n) = items n
  met_beyond : ∀ n, bound ≤ n → s.met.lookup n = t.met.lookup n
  drained_beyond : ∀ n, bound ≤ n → (n ∈ s.heap.drained ↔ n ∈ t.heap.drained)
  bound_le : bound ≤ s.heap.nextIdentity
  next : s.heap.nextIdentity = t.heap.nextIdentity
  calls : s.heap.calls = t.heap.calls
  warnings : s.warnings = t.warnings
  loader : s.loader = t.loader
  serves : s.loader.Serves lib
  met : ∀ entry ∈ s.met, ∀ v ∈ entry.2, v.Within (.holding held bound)

namespace Store.Likewise

variable {lib : Library} {held items : Nat → List Value} {bound : Nat}

theorem load_related {α β : Type} {Q : α → β → Prop} {step : Loading α} {result : Except Failure β}
    (h : Loading.Gives lib Q step result) :
    Related (Likewise lib held items bound) (fun a a' => ∃ b, result = .ok b ∧ Q a b ∧ Q a' b)
      (Run.load step) (Run.load step) := by
  intro s t hst
  obtain ⟨hv, hs⟩ := h s.loader hst.serves
  rw [Run.run_load, Run.run_load, ← hst.loader]
  refine ⟨?_, hst.left, hst.right, hst.met_beyond, hst.drained_beyond, hst.bound_le, hst.next,
    hst.calls, hst.warnings, rfl, hs, hst.met⟩
  generalize (step.run s.loader).1 = x at hv
  cases hv with
  | ok hQ => exact .ok ⟨_, rfl, hQ, hQ⟩
  | error e => exact .error e

theorem build_steady (hbuilt : ∀ n, ∀ v ∈ held n, v.IsBuilt) {v : Value}
    (h : v.Within (.holding held bound)) :
    Steady (Likewise lib held items bound) (Value.Within (.holding held bound)) (Run.build v) := by
  refine .modifyGet fun s t hst => ?_
  obtain ⟨hv, hle⟩ := Value.build_keeps v h _ (Contents.lasts_holding hbuilt hst.bound_le)
  rw [← hst.next]
  exact ⟨rfl, hv, hst.left, hst.right, hst.met_beyond, hst.drained_beyond,
    Nat.le_trans hst.bound_le hle, rfl, hst.calls, hst.warnings, hst.loader, hst.serves, hst.met⟩

theorem countCall_steady (id : Identity) :
    Steady (Likewise lib held items bound) (fun _ => True) (Run.countCall id) := by
  cases id with
  | none => exact .pure trivial
  | some n =>
      refine .modifyGet fun s t hst => ?_
      have hcount : s.heap.callsOf n = t.heap.callsOf n := by
        rw [Heap.callsOf, Heap.callsOf, hst.calls]
      have hcalls : (s.heap.count n).calls = (t.heap.count n).calls := by
        rw [Heap.count, Heap.count, hcount, hst.calls]
      refine ⟨?_, trivial, hst.left, hst.right, hst.met_beyond, hst.drained_beyond, hst.bound_le,
        hst.next, hcalls, hst.warnings, hst.loader, hst.serves, hst.met⟩
      exact congrArg (fun calls => (List.lookup n calls).getD 0) hcalls

/-- Coming to an iterator early, in one of the stores only, makes no difference. -/
theorem came_right {s t after : Store} (h : Likewise lib held items bound s t) {n : Nat}
    (hn : n < bound) (ht : Came n (held n) t after) : Likewise lib held items bound s after := by
  have hsame : ∀ k, bound ≤ k → after.SameOf t k := fun k hk => ht.others k (by omega)
  exact ⟨h.left, fun k hk => (ht.itemsOf_eq (by rintro rfl; rfl)).trans (h.right k hk),
    fun k hk => (h.met_beyond k hk).trans (hsame k hk).met.symm,
    fun k hk => (h.drained_beyond k hk).trans (hsame k hk).drained.symm, h.bound_le,
    h.next.trans ht.next.symm, h.calls.trans ht.calls.symm, h.warnings.trans ht.warnings.symm,
    h.loader.trans ht.loader.symm, h.serves, h.met⟩

/-- Coming to an iterator in both stores gives the same. -/
theorem itemsOf_eq {s t : Store} (h : Likewise lib held items bound s t) {n : Nat} {vs : List Value}
    (ho : n < bound → vs = held n) : t.itemsOf n vs = s.itemsOf n vs := by
  by_cases hn : n < bound
  · obtain rfl := ho hn
    exact (h.right n hn).trans (h.left n hn).symm
  · have hle : bound ≤ n := Nat.le_of_not_lt hn
    exact (SameOf.itemsOf_eq ⟨h.met_beyond n hle, h.drained_beyond n hle⟩ vs).symm

theorem came {s t s' t' : Store} (h : Likewise lib held items bound s t) {n : Nat} {vs : List Value}
    (ho : n < bound → vs = held n) (hs : Came n vs s s') (ht : Came n vs t t')
    (hw : ∀ v ∈ s.itemsOf n vs, v.Within (.holding held bound)) :
    Likewise lib held items bound s' t' := by
  have hkeep : ∀ {u u' : Store}, Came n vs u u' → ∀ k, k < bound →
      u'.itemsOf k (held k) = u.itemsOf k (held k) := by
    intro u u' hu k hk
    exact hu.itemsOf_eq (by rintro rfl; exact ho hk)
  have hmet : ∀ k, bound ≤ k → s'.met.lookup k = t'.met.lookup k := by
    intro k hk
    by_cases hkn : k = n
    · rw [hkn, hs.known, ht.known, h.itemsOf_eq ho]
    · exact (hs.others k hkn).met.trans ((h.met_beyond k hk).trans (ht.others k hkn).met.symm)
  have hdrained : ∀ k, bound ≤ k → (k ∈ s'.heap.drained ↔ k ∈ t'.heap.drained) := by
    intro k hk
    by_cases hkn : k = n
    · subst hkn
      rw [hs.drained, ht.drained, h.met_beyond k hk, h.drained_beyond k hk]
    · exact (hs.others k hkn).drained.trans
        ((h.drained_beyond k hk).trans (ht.others k hkn).drained.symm)
  refine ⟨fun k hk => (hkeep hs k hk).trans (h.left k hk),
    fun k hk => (hkeep ht k hk).trans (h.right k hk), hmet, hdrained, hs.next ▸ h.bound_le,
    hs.next.trans (h.next.trans ht.next.symm), hs.calls.trans (h.calls.trans ht.calls.symm),
    hs.warnings.trans (h.warnings.trans ht.warnings.symm),
    hs.loader.trans (h.loader.trans ht.loader.symm), hs.loader ▸ h.serves, fun entry he => ?_⟩
  rcases hs.met entry he with he | he
  · exact h.met entry he
  · rwa [he]

theorem meetIterator_steady {id : Identity} {vs : List Value}
    (ho : (Contents.holding held bound).once id vs)
    (h : ∀ v ∈ vs, v.Within (.holding held bound)) :
    Steady (Likewise lib held items bound) (fun vs => ∀ v ∈ vs, v.Within (.holding held bound))
      (Run.meetIterator id vs) := by
  cases id with
  | none => exact .pure h
  | some n =>
      intro s t hst
      obtain ⟨s', hs, hcs⟩ := Run.run_meetIterator_came n vs s
      obtain ⟨t', ht, hct⟩ := Run.run_meetIterator_came n vs t
      have hwithin : ∀ v ∈ s.itemsOf n vs, v.Within (.holding held bound) := by
        rw [itemsOf]
        split
        · exact hst.met _ (Run.mem_of_lookup ‹_›)
        · split
          · simp
          · exact h
      rw [hs, ht, hst.itemsOf_eq (ho n rfl)]
      exact ⟨.ok ⟨rfl, hwithin⟩, hst.came (ho n rfl) hcs hct hwithin⟩

theorem warn_steady (message : String) :
    Steady (Likewise lib held items bound) (fun _ => True) (Run.warn message) :=
  .modifyGet fun _ _ hst => ⟨rfl, trivial, hst.left, hst.right, hst.met_beyond, hst.drained_beyond,
    hst.bound_le, hst.next, hst.calls, congrArg (· ++ [message]) hst.warnings, hst.loader,
    hst.serves, hst.met⟩

end Store.Likewise

open Store (Likewise)

variable {lib : Library} {held items : Nat → List Value} {bound : Nat}

/-- No part of a rendering without sub-views can tell such stores apart. -/
theorem Run.blind_likewise (lib : Library) (hbuilt : ∀ n, ∀ v ∈ held n, v.IsBuilt)
    (items : Nat → List Value) (bound : Nat) :
    Blind lib (.holding held bound) (Likewise lib held items bound) (fun _ => True) where
  load _ := Likewise.load_related
  build := Likewise.build_steady hbuilt
  countCall _ := Likewise.countCall_steady _
  meet := Likewise.meetIterator_steady
  warn := Likewise.warn_steady
  afresh ht := ht.elim

/-! ## Iterators met in advance -/

/-- Comes to iterators one after another. -/
def Run.meetAll (held : Nat → List Value) (ids : List Nat) : Run Unit :=
  ids.forM fun n => do
    let _ ← Run.meetIterator (some n) (held n)

theorem Run.run_meetAll {ids : List Nat} (hids : ∀ n ∈ ids, n < bound) {s t : Store}
    (h : Likewise lib held items bound s t) :
    ∃ after, (meetAll held ids).run t = (.ok (), after) ∧
      Likewise lib held items bound s after := by
  induction ids generalizing t with
  | nil => exact ⟨t, rfl, h⟩
  | cons n ids ih =>
      obtain ⟨hn, hids⟩ := List.forall_mem_cons.mp hids
      obtain ⟨t', ht, hcame⟩ := run_meetIterator_came n (held n) t
      obtain ⟨after, ha, hlike⟩ := ih hids (h.came_right hn hcame)
      refine ⟨after, ?_, hlike⟩
      change ((meetIterator (some n) (held n) >>= fun _ => pure ()) >>= fun _ =>
        meetAll held ids).run t = _
      rw [Fallible.run_bind, Fallible.run_bind, ht]
      exact ha

/-- It makes no difference to a rendering without sub-views where it first comes to an iterator, or
how often: all of it gets the items that the iterator held at the start. -/
theorem Render.document_meetAll (hbuilt : ∀ n, ∀ v ∈ held n, v.IsBuilt) {stage : Stage}
    (hu : stage.Uses (Value.Within (.holding held bound))) {view : Value}
    (hview : view.Within (.holding held bound)) (store : Store)
    (hbound : bound ≤ store.heap.nextIdentity) (hmet : store.met = [])
    (hs : store.loader.Serves lib) (depth : Nat) (nodes : List Node) {ids : List Nat}
    (hids : ∀ n ∈ ids, n < bound) :
    let outcome := (document stage depth view nodes).run store
    let foreseen := (Run.meetAll held ids >>= fun _ => document stage depth view nodes).run store
    foreseen.1 = outcome.1 ∧ foreseen.2.warnings = outcome.2.warnings ∧
      ∀ n, n < bound → outcome.2.itemsOf n (held n) =
        if store.heap.drained.contains n then [] else held n := by
  have hstore : Likewise lib held (fun n => store.itemsOf n (held n)) bound store store :=
    ⟨fun _ _ => rfl, fun _ _ => rfl, fun _ _ => rfl, fun _ _ => Iff.rfl, hbound, rfl, rfl, rfl, rfl,
      hs, by simp [hmet]⟩
  obtain ⟨after, ha, hlike⟩ := Run.run_meetAll hids hstore
  obtain ⟨hv, hl⟩ :=
    document_steady (Run.blind_likewise lib hbuilt _ bound) (Loading.allKeep_true _ _) hu depth
      hview nodes _ _ hlike
  dsimp only
  rw [Fallible.run_bind, ha]
  refine ⟨(hv.mono fun _ _ h => h.1).eq.symm, hl.warnings.symm, fun n hn => ?_⟩
  rw [hl.left n hn, Store.itemsOf_of_met_eq_nil hmet]

end Whisker
