import Mathlib
import Whisker.Proofs.View.Follows
import Whisker.Proofs.View.Leaves
import Whisker.Scope.Session

/-! Resolving in sessions with stacks of frames. Where the data are pure, no step can tell whether
names were resolved before it: of the data an iterator is read at most once, and whoever comes to it
gets the items that it had at the start. -/

namespace Whisker

open Run (Follows Leaves)

/-! ## What resolving leaves -/

namespace Store

/-- Of a session that has begun with `start` each iterator that was read is remembered once. -/
structure Remembers (start store : Store) : Prop where
  once : (store.met.map (·.1)).Nodup
  drained : ∀ n, n ∈ store.heap.drained ↔ n ∈ start.heap.drained ∨ n ∈ store.met.map (·.1)
  warnings : store.warnings = start.warnings

theorem not_mem_met {store : Store} {n : Nat} (h : store.met.lookup n = none) :
    n ∉ store.met.map (·.1) := by
  intro hn
  obtain ⟨entry, he, rfl⟩ := List.mem_map.mp hn
  simpa using List.lookup_eq_none_iff.mp h entry he

/-- An iterator is not read a second time. -/
theorem Remembers.meet {start store : Store} (h : start.Remembers store) (n : Nat)
    (items : List Value) :
    start.Remembers ((Run.meetIterator (some n) items).run store).2 := by
  rw [Run.run_meetIterator]
  cases hl : store.met.lookup n with
  | some known => exact h
  | none =>
      have hnew := not_mem_met hl
      have honce : (((n, if store.heap.drained.contains n then [] else items) ::
          store.met).map (·.1)).Nodup :=
        List.nodup_cons.mpr ⟨hnew, h.once⟩
      by_cases hd : store.heap.drained.contains n = true
      · simp only [hd, if_true] at honce ⊢
        refine ⟨honce, fun k => ?_, h.warnings⟩
        have hk := h.drained k
        by_cases hkn : k = n
        · subst hkn
          simp [List.contains_iff_mem.mp hd]
        · simpa [hkn] using hk
      · simp only [hd, if_false, Bool.false_eq_true] at honce ⊢
        refine ⟨honce, fun k => ?_, h.warnings⟩
        rw [Heap.mem_drain, h.drained k]
        simp [or_left_comm]

theorem remembers_lasting (start : Store) : Store.Lasting start.Remembers where
  build v := fun store hs => ⟨⟨hs.once, hs.drained, hs.warnings⟩, fun _ _ => trivial⟩
  countCall id := by
    cases id with
    | none => exact .pure trivial
    | some n => exact fun store hs => ⟨⟨hs.once, hs.drained, hs.warnings⟩, fun _ _ => trivial⟩
  meet id items := by
    cases id with
    | none => exact .pure trivial
    | some n => exact fun store hs => ⟨hs.meet n items, fun _ _ => trivial⟩

end Store

namespace Scope

theorem run_settle_iterator (n : Nat) (items : List Value) (store : Store) :
    ((settle (.iterator (some n) items)).run store).1 = .ok (.tuple (store.itemsOf n items)) := by
  obtain ⟨after, hmeet, -⟩ := Run.run_meetIterator_came n items store
  rw [settle, Fallible.run_bind, hmeet]
  rfl

/-! ## Pure data -/

/-- The identities of data that were built before `next`, where iterators hold what `held` tells.
Any iterator may be anywhere, and no function looks at how often it was called. -/
def data (held : Nat → List Value) (next : Nat) : Ledger where
  bound := next
  start := next
  next := next
  held := held
  iterators := True
  shared := True
  quiet := fun _ => True
  others := True

/-- A session that begins, with pure data in its stacks. Nothing was met, and nothing is known of
what is not yet built. -/
structure Session.Begins (held : Nat → List Value) (session : Session) : Prop where
  met : session.store.met = []
  untouched : ∀ n, session.store.heap.nextIdentity ≤ n → session.store.Untouched n
  built : ∀ n, ∀ v ∈ held n, v.IsBuilt
  items : ∀ n, ∀ v ∈ held n, v.Pure (data held session.store.heap.nextIdentity)
  scopes : ∀ entry ∈ session.scopes, entry.2.Pure (data held session.store.heap.nextIdentity)

/-- What is pushed is pure. -/
def Step.Pure (l : Ledger) (step : Step) : Prop :=
  ∀ v label, step.action = .push v label → v.Pure l

/-! ## Stores that a session comes to -/

/-- A store that a session which began with `start` has come to. -/
structure Since (held : Nat → List Value) (start store : Store) : Prop where
  remembers : start.Remembers store
  next_le : start.heap.nextIdentity ≤ store.heap.nextIdentity
  items : ∀ n, n < start.heap.nextIdentity →
    store.itemsOf n (held n) = start.itemsOf n (held n)
  untouched : ∀ n, store.heap.nextIdentity ≤ n → store.Untouched n

/-- The data seen from two stores, after which identities are handed out differently. -/
def ledger (held : Nat → List Value) (start store : Store) : Ledger :=
  { data held start.heap.nextIdentity with
    start := store.heap.nextIdentity
    next := store.heap.nextIdentity }

theorem data_le (held : Nat → List Value) (start store : Store) :
    (data held start.heap.nextIdentity).Le (ledger held start store).past := by
  refine ⟨rfl, rfl, rfl, fun n hn => ?_, id, id, id⟩
  simp only [data, ledger, Ledger.past, Ledger.upTo, Ledger.Has] at hn ⊢
  omega

variable {held : Nat → List Value} {start : Session} (hstart : start.Begins held)
include hstart

theorem Session.Begins.since : Since held start.store start.store where
  remembers := ⟨by simp [hstart.met], by simp [hstart.met], rfl⟩
  next_le := Nat.le_refl _
  items _ _ := rfl
  untouched := hstart.untouched

/-- At the start an iterator has what it held, if it was not read before. -/
theorem Session.Begins.itemsOf_eq (n : Nat) (items : List Value) :
    start.store.itemsOf n items = if start.store.heap.drained.contains n then [] else items :=
  Store.itemsOf_of_met_eq_nil hstart.met n items

theorem Session.Begins.pure_itemsOf (store : Store) (n : Nat) :
    ∀ v ∈ start.store.itemsOf n (held n), v.Pure (ledger held start.store store).past := by
  rw [hstart.itemsOf_eq]
  split
  · simp
  · exact fun v hv => (hstart.items n v hv).mono (data_le held start.store store)

variable {s t : Store} (hs : Since held start.store s) (ht : Since held start.store t)
include hs ht

/-- Two stores side by side that the session may have come to. -/
def Session.Begins.shifting : Shifting where
  ledger := ledger held start.store s
  other := t.heap.nextIdentity
  served := fun _ => True
  left := start.store
  right := start.store
  sound := ⟨hs.next_le, ht.next_le, hstart.built⟩
  held := fun _ n _ v hv => (hstart.items n v hv).mono (data_le held start.store s)
  known := fun _ n _ => hstart.pure_itemsOf s n

/-- Nothing of the data tells the two stores apart. -/
theorem Session.Begins.alike : (hstart.shifting hs ht).Alike s t := by
  have hwarnings : t.warnings = s.warnings := by rw [ht.remembers.warnings, hs.remembers.warnings]
  exact .ofUntouched trivial rfl rfl hs.untouched ht.untouched hs.items ht.items
    (fun _ _ h => (h trivial).elim) (fun h => (h trivial).elim) hwarnings trivial trivial

omit ht

/-- A look at pure data comes to a store like that before it. -/
theorem Since.look {α β : Type} {Q : Nat → α → β → Prop} {x : Run α} {y : Run β}
    (hx : Follows (hstart.shifting hs hs) Q x y s.heap.nextIdentity)
    (hl : Leaves start.store.Remembers x) : Since held start.store (x.run s).2 := by
  obtain ⟨hle, halike, -⟩ := hx s s (hstart.alike hs hs) (Nat.le_refl _)
  exact ⟨(hl s hs.remembers).1, Nat.le_trans hs.next_le hle, halike.items_left trivial,
    halike.untouched⟩

omit hs

/-! ## Steps -/

section

variable {scope : Scope} (h : scope.Pure (data held start.store.heap.nextIdentity)) (depth : Nat)
  (name : Text)
include h

omit hstart in
theorem Pure.inSession (store : Store) :
    scope.Pure ((ledger held start.store store).upTo store.heap.nextIdentity) :=
  (h.mono (data_le held start.store store)).mono (.past_upTo _)

include hs

theorem Pure.rename_shift (ht : Since held start.store t) :
    scope.rename (hstart.shifting hs ht).shift = scope :=
  Pure.rename_eq_self (h.mono (data_le held start.store s))

theorem since_resolve : Since held start.store ((scope.resolve depth name).run s).2 :=
  Since.look hstart hs (resolve_follows depth (Pure.inSession h s) name)
    (resolve_leaves (Store.remembers_lasting _) depth scope name)

theorem since_reach : Since held start.store ((scope.reach depth name).run s).2 :=
  Since.look hstart hs (reach_follows depth (Pure.inSession h s) name)
    (reach_leaves (Store.remembers_lasting _) depth scope name)

/-- In another store a name comes to the same value, but for identities that are handed out for
it. -/
theorem resolve_moves (ht : Since held start.store t) :
    let S := hstart.shifting hs ht
    (∀ v, ((scope.resolve depth name).run s).1 = .ok v →
      v.Pure (S.ledger.upTo ((scope.resolve depth name).run s).2.heap.nextIdentity)) ∧
    ((scope.resolve depth name).run t).1 =
      ((scope.resolve depth name).run s).1.map (Value.rename S.shift) := by
  intro S
  obtain ⟨-, -, hagree⟩ := resolve_follows (S := S) depth (Pure.inSession h s) name s t
    (hstart.alike hs ht) (Nat.le_refl _)
  rw [Pure.rename_shift hstart hs h ht] at hagree
  generalize ((scope.resolve depth name).run s).1 = x at hagree
  generalize ((scope.resolve depth name).run t).1 = y at hagree
  cases hagree with
  | error e => exact ⟨by simp, rfl⟩
  | ok hv =>
      obtain ⟨⟨hpure, rfl⟩, -⟩ := hv
      refine ⟨?_, rfl⟩
      rintro _ ⟨⟩
      exact hpure

end

/-! ## Sessions -/

omit hstart

namespace Step

def resolves (step : Step) : Bool :=
  match step.action with
  | .resolve _ => true
  | _ => false

end Step

namespace Answer

/-- The answer with `ρ n` in place of each identity `n`. -/
def rename (ρ : Nat → Nat) : Answer → Answer
  | .frame f => .frame ⟨f.value.rename ρ, f.label⟩
  | .value v => .value (v.rename ρ)
  | answer => answer

end Answer

namespace Session

/-- A session that another one, with the same pure data, has come to. -/
structure Continues (held : Nat → List Value) (start session : Session) : Prop where
  since : Since held start.store session.store
  scopes : ∀ entry ∈ session.scopes, entry.2.Pure (data held start.store.heap.nextIdentity)

theorem Continues.pure_scope {session : Session} (h : Continues held start session) {name : Text}
    {scope : Scope} (hs : session.scopes.get? name = some scope) :
    scope.Pure (data held start.store.heap.nextIdentity) :=
  h.scopes _ (Entries.mem_of_get? hs)

theorem Continues.put {session : Session} (h : Continues held start session) (name : Text)
    {scope : Scope} (hs : scope.Pure (data held start.store.heap.nextIdentity)) :
    Continues held start (session.put name scope) := by
  refine ⟨h.since, fun entry he => ?_⟩
  rcases Entries.mem_put he with rfl | he
  · exact hs
  · exact h.scopes entry he

include hstart

/-- Whatever step comes next, the data stay pure and the iterators have what they had. -/
theorem Continues.perform (depth : Nat) {session : Session} (h : Continues held start session)
    {step : Step} (hstep : step.Pure (data held start.store.heap.nextIdentity)) :
    Continues held start (session.perform depth step).2 := by
  unfold Session.perform
  cases hs : session.scopes.get? step.stack with
  | none => exact h
  | some scope =>
      have hscope := h.pure_scope hs
      obtain ⟨stack, action⟩ := step
      cases action with
      | push value label => exact h.put stack (hscope.push (hstep value label rfl) label)
      | pop | leave =>
          cases scope with
          | nil => exact h
          | cons frame scope => exact h.put stack (List.forall_mem_cons.mp hscope).2
      | copy name => exact h.put name hscope
      | top => exact h
      | resolve name => exact ⟨since_resolve hstart h.since hscope depth name, h.scopes⟩

theorem Continues.after (depth : Nat) {session : Session} (h : Continues held start session)
    {steps : List Step} (hsteps : ∀ step ∈ steps, step.Pure (data held start.store.heap.nextIdentity)) :
    Continues held start (session.after depth steps) := by
  induction steps generalizing session with
  | nil => exact h
  | cons step steps ih =>
      obtain ⟨hstep, hsteps⟩ := List.forall_mem_cons.mp hsteps
      exact ih (h.perform hstart depth hstep) hsteps

omit hstart

/-- What is in the stacks after a step does not depend on what was met. -/
theorem scopes_perform (depth : Nat) {session other : Session} (h : other.scopes = session.scopes)
    (step : Step) :
    (other.perform depth step).2.scopes = (session.perform depth step).2.scopes := by
  unfold Session.perform
  rw [h]
  cases session.scopes.get? step.stack with
  | none => exact h
  | some scope =>
      cases step.action with
      | pop | leave => cases scope <;> simp [put, h]
      | resolve => rfl
      | _ => simp [put, h]

theorem scopes_perform_resolve (depth : Nat) (session : Session) {step : Step}
    (h : step.resolves = true) : (session.perform depth step).2.scopes = session.scopes := by
  obtain ⟨stack, action⟩ := step
  unfold Session.perform
  cases session.scopes.get? stack with
  | none => rfl
  | some scope =>
      cases action with
      | resolve => rfl
      | _ => cases h

/-- Stacks are changed by the other steps only. -/
theorem scopes_after_filter (depth : Nat) {session other : Session}
    (h : other.scopes = session.scopes) (steps : List Step) :
    (other.after depth (steps.filter (!·.resolves))).scopes =
      (session.after depth steps).scopes := by
  induction steps generalizing session other with
  | nil => exact h
  | cons step steps ih =>
      cases hr : step.resolves with
      | true =>
          rw [List.filter_cons_of_neg (by simp [hr])]
          exact ih (h.trans (scopes_perform_resolve depth session hr).symm)
      | false =>
          rw [List.filter_cons_of_pos (by simp [hr])]
          exact ih (scopes_perform depth h step)

/-- Identities that are handed out next in one session, as they are in another. -/
def moved (session other : Session) (n : Nat) : Nat :=
  if n < session.store.heap.nextIdentity then n
  else other.store.heap.nextIdentity + (n - session.store.heap.nextIdentity)

include hstart

/-- Two sessions with the same stacks answer alike, whatever names were resolved in them. -/
theorem Continues.answer_eq (depth : Nat) {session other : Session}
    (hs : Continues held start session) (ht : Continues held start other)
    (h : other.scopes = session.scopes) (step : Step) :
    (other.perform depth step).1 =
      (session.perform depth step).1.map (Answer.rename (session.moved other)) := by
  let S := hstart.shifting hs.since ht.since
  have hsame {v : Value} (hv : v.Pure (data held start.store.heap.nextIdentity)) :
      v.rename (session.moved other) = v :=
    S.rename_eq_self (hv.mono (data_le held start.store session.store))
  unfold Session.perform
  rw [h]
  cases hscope : session.scopes.get? step.stack with
  | none => rfl
  | some scope =>
      have hpure := hs.pure_scope hscope
      cases step.action with
      | push | copy => rfl
      | pop =>
          cases scope with
          | nil => rfl
          | cons frame scope =>
              have hv := hsame (List.forall_mem_cons.mp hpure).1
              simp only [Except.map, Answer.rename, hv]
      | leave => cases scope <;> rfl
      | top => simp only [Except.map, Answer.rename, hsame hpure.top]
      | resolve name =>
          obtain ⟨-, hmoved⟩ := resolve_moves hstart hs.since hpure depth name ht.since
          dsimp only
          rw [hmoved]
          cases ((scope.resolve depth name).run session.store).1 <;> rfl

/-- Where resolving ends at an iterator of the data, the answer is the tuple of the items that it
had at the start. -/
theorem Continues.answer_tuple (depth : Nat) {session : Session} (hs : Continues held start session)
    {stack name : Text} {scope : Scope} (hscope : session.scopes.get? stack = some scope) {n : Nat}
    {items : List Value} (hn : n < start.store.heap.nextIdentity)
    (hr : ((scope.reach depth name).run session.store).1 = .ok (.iterator (some n) items)) :
    (session.perform depth ⟨stack, .resolve name⟩).1 =
      .ok (.value (.tuple (if start.store.heap.drained.contains n then [] else items))) := by
  have hpure := hs.pure_scope hscope
  have hsince := since_reach hstart hs.since hpure depth name
  obtain ⟨-, -, hagree⟩ := reach_follows (S := hstart.shifting hs.since hs.since) depth
    (hpure.inSession session.store) name session.store session.store
    (hstart.alike hs.since hs.since) (Nat.le_refl _)
  rw [hpure.rename_shift hstart hs.since hs.since, hr] at hagree
  have hitems : items = held n := by
    cases hagree with
    | ok hv =>
        cases hv.1 with
        | iterator _ ho _ => exact (ho n rfl hn).2
  have hresolve : ((scope.resolve depth name).run session.store).1 =
      .ok (.tuple (if start.store.heap.drained.contains n then [] else items)) := by
    rw [resolve_eq_settle, Fallible.run_bind]
    rcases hx : (scope.reach depth name).run session.store with ⟨result, after⟩
    rw [hx] at hr hsince
    obtain rfl := hr
    have hhas : after.itemsOf n items =
        if start.store.heap.drained.contains n then [] else items := by
      rw [hitems, hsince.items n hn, hstart.itemsOf_eq]
    rw [← hhas]
    exact run_settle_iterator n items after
  unfold Session.perform
  rw [hscope]
  dsimp only
  rw [hresolve]
  rfl

/-- Resolving cannot be seen. After any two runs that differ only in what was resolved, each step has
the same answer, but for identities that are handed out for it. Each iterator is read at most once
in a run, and where resolving ends at an iterator of the data the answer is the tuple of the items
that it had at the start. -/
theorem resolving_unseen (depth : Nat) {steps : List Step}
    (hsteps : ∀ step ∈ steps, step.Pure (data held start.store.heap.nextIdentity)) :
    let session := start.after depth steps
    (∀ others : List Step,
      (∀ step ∈ others, step.Pure (data held start.store.heap.nextIdentity)) →
      others.filter (!·.resolves) = steps.filter (!·.resolves) →
      let other := start.after depth others
      ∀ step, (other.perform depth step).1 =
        (session.perform depth step).1.map (Answer.rename (session.moved other))) ∧
    (session.store.met.map (·.1)).Nodup ∧
    (∀ n, n ∈ session.store.heap.drained ↔
      n ∈ start.store.heap.drained ∨ n ∈ session.store.met.map (·.1)) ∧
    ∀ stack name scope n items, session.scopes.get? stack = some scope →
      n < start.store.heap.nextIdentity →
      ((scope.reach depth name).run session.store).1 = .ok (.iterator (some n) items) →
      (session.perform depth ⟨stack, .resolve name⟩).1 =
        .ok (.value (.tuple (if start.store.heap.drained.contains n then [] else items))) := by
  have hbegin : Continues held start start := ⟨hstart.since, hstart.scopes⟩
  have hs := hbegin.after hstart depth hsteps
  refine ⟨fun others hothers hsame step => ?_, hs.since.remembers.once,
    hs.since.remembers.drained, fun stack name scope n items hscope hn hr => ?_⟩
  · have ht := hbegin.after hstart depth hothers
    refine hs.answer_eq hstart depth ht ?_ step
    rw [← scopes_after_filter depth rfl others, ← scopes_after_filter depth rfl steps, hsame]
  · exact hs.answer_tuple hstart depth hscope hn hr

omit hstart

/-- A stack with one iterator under two names. -/
def sharing : Session where
  scopes := [("main".toList, Scope.ofView (.dict
    [(['g'], .iterator (some 0) [.text ['x'], .text ['y']]),
      (['h'], .iterator (some 0) [.text ['x'], .text ['y']])]))]
  store := .fresh (.fresh 1) (.fresh .empty (.memory 0 []) (.empty false) .standard)

/-- Whatever was resolved in a stack before it is copied, the copy has both items. -/
theorem sharing_unseen :
    let items : List Value := [.text ['x'], .text ['y']]
    let copied : Step := ⟨"main".toList, .copy ['c']⟩
    let session := sharing.after 9 [⟨"main".toList, .resolve ['g']⟩, copied]
    let other := sharing.after 9 [copied]
    (other.perform 9 ⟨['c'], .resolve ['h']⟩).1 =
        (session.perform 9 ⟨['c'], .resolve ['h']⟩).1.map (Answer.rename (session.moved other)) ∧
      session.store.met = [(0, items)] ∧
      (session.perform 9 ⟨['c'], .resolve ['h']⟩).1 = .ok (.value (.tuple items)) := by
  let held : Nat → List Value := fun _ => [.text ['x'], .text ['y']]
  have hitems : ∀ n, ∀ v ∈ held n, v.Pure (data held 1) := by
    intro n
    simp only [held, List.forall_mem_cons]
    exact ⟨.text _, .text _, by simp⟩
  have hiterator : (Value.iterator (some 0) (held 0)).Pure (data held 1) := by
    refine .iterator (fun n hn => ?_) (fun n _ _ => ⟨trivial, rfl⟩) (hitems 0)
    cases hn
    exact .inl Nat.one_pos
  have hbegins : sharing.Begins held := by
    refine ⟨rfl, fun n _ => ⟨rfl, List.not_mem_nil, rfl⟩, fun n => ?_, hitems, ?_⟩
    · simp only [held, List.forall_mem_cons]
      exact ⟨fun _ => rfl, fun _ => rfl, by simp⟩
    · refine List.forall_mem_singleton.mpr (List.forall_mem_singleton.mpr (.dict ?_))
      simp only [List.forall_mem_cons]
      exact ⟨hiterator, hiterator, by simp⟩
  have hnone (steps : List Step) (h : ∀ step ∈ steps, ∀ v label, step.action ≠ .push v label) :
      ∀ step ∈ steps, step.Pure (data held 1) :=
    fun step hs v label he => (h step hs v label he).elim
  obtain ⟨hanswer, -, -, htuple⟩ := @resolving_unseen held sharing hbegins 9
    [⟨"main".toList, .resolve ['g']⟩, ⟨"main".toList, .copy ['c']⟩] (hnone _ (by simp))
  exact ⟨hanswer [⟨"main".toList, .copy ['c']⟩] (hnone _ (by simp)) rfl _, rfl,
    htuple ['c'] ['h'] _ 0 _ rfl Nat.one_pos rfl⟩

end Session

end Scope

end Whisker
