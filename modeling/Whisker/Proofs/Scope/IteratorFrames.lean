import Mathlib
import Whisker.Proofs.Scope.Scoping

/-! Iterators as frames. A frame is looked into as it is, so that an iterator defines no names,
whereas the tuple of its items defines their indices. What was found is settled, so that an iterator
that is found answers as the tuple. -/

namespace Whisker

/-! ## Keys of items -/

namespace Value

variable {items : List Value} {key : Text}

/-- The key asks for an item that is there, or it cannot be read as an index. -/
def HasItem (items : List Value) (key : Text) : Prop :=
  asksForItem key = true ∧
    ∀ i, Text.readInteger 10 key = .ok i → ((itemAt? items i).getD .missing).isMissing = false

theorem run_item_fst_ne_missing_iff (items : List Value) (key : Text) (store : Store) :
    ((item items key).run store).1 ≠ .ok .missing ↔
      ∀ i, Text.readInteger 10 key = .ok i →
        ((itemAt? items i).getD .missing).isMissing = false := by
  unfold item
  cases Text.readInteger 10 key with
  | error fault =>
      apply iff_of_true
      · intro he
        cases fault <;> cases he
      · simp
  | ok i =>
      have hrun (v : Value) : ((pure v : Run Value).run store).1 = .ok v := rfl
      simp only [hrun, Except.ok.injEq, forall_eq']
      cases (itemAt? items i).getD .missing <;> simp [isMissing]

theorem run_lookup_tuple_snd (items : List Value) (depth : Nat) (key : Text) (store : Store) :
    (((Value.tuple items).lookup depth key).run store).2 = store := by
  rw [lookup]
  split
  · unfold item
    split <;> rfl
  · rfl

/-- An iterator has no members. -/
theorem run_lookup_iterator (id : Identity) (items : List Value) (key : Text) (depth : Nat)
    (store : Store) :
    ((Value.iterator id items).lookup (depth + 1) key).run store = (.ok .missing, store) := by
  have hmember : (Value.iterator id items).lookup (depth + 1) key =
      publicMember (depth + 1) (.iterator id items) key := rfl
  rw [hmember, publicMember]
  split <;> rfl

end Value

namespace Frame

variable {items : List Value} {label : Option Text} {depth : Nat} {store : Store} {key : Text}

/-- A tuple as a frame is found under its label and under the indices of its items. -/
theorem has_tuple_iff :
    Has ⟨.tuple items, label⟩ depth store key ↔ label = some key ∨ Value.HasItem items key := by
  rw [Has, Value.HasItem, Value.lookup]
  by_cases ha : Value.asksForItem key = true
  · rw [if_pos ha, Value.run_item_fst_ne_missing_iff]
    simp [ha]
  · have hnone : ((pure .missing : Run Value).run store).1 = .ok .missing := rfl
    rw [if_neg ha, hnone]
    simp [ha]

/-- An iterator as a frame is found under its label only. -/
theorem has_iterator_iff {id : Identity} :
    Has ⟨.iterator id items, label⟩ (depth + 1) store key ↔ label = some key := by
  rw [Has, Value.run_lookup_iterator]
  simp

end Frame

namespace Scope

open Value (HasItem item)

variable {depth : Nat} {scope : Scope} {label : Option Text} {n : Nat} {items : List Value}
  {name head : Text} {rest : List Text} {store : Store}

/-! ## Frames that are found -/

/-- The label of a frame stands for its value. -/
theorem resolve_push_labelled (v : Value) (scope : Scope) (hn : name ≠ ['.'])
    (hp : Text.pieces (· = '.') name = head :: rest) :
    (scope.push v (some head)).resolve depth name = descend depth v rest >>= settle := by
  rw [resolve_of_pieces hn hp, push, resolveHead, if_pos rfl, pure_bind]

theorem nextIdentity_settle_iterator (n : Nat) (items : List Value) (store : Store) :
    ((settle (.iterator (some n) items)).run store).2.heap.nextIdentity =
      store.heap.nextIdentity := by
  obtain ⟨after, hmeet, hcame⟩ := Run.run_meetIterator_came n items store
  rw [settle, Fallible.run_bind, hmeet]
  exact hcame.next

/-- Whatever is looked for in an iterator is looked for in the tuple of its items. -/
theorem run_descend_iterator (depth : Nat) (n : Nat) (items : List Value) (names : List Text)
    (store : Store) :
    (descend depth (.iterator (some n) items) names >>= settle).run store =
      (descend depth (.tuple (store.itemsOf n items)) names >>= settle).run
        ((settle (.iterator (some n) items)).run store).2 := by
  have hsettle : (settle (.iterator (some n) items)).run store =
      (.ok (.tuple (store.itemsOf n items)), ((settle (.iterator (some n) items)).run store).2) :=
    Prod.ext (run_settle_iterator n items store) rfl
  cases names with
  | nil =>
      rw [descend, descend, pure_bind, pure_bind]
      exact hsettle
  | cons name names =>
      rw [descend, descend]
      simp only [Value.isMissing, Bool.false_eq_true, if_false, bind_assoc]
      rw [Fallible.run_bind, hsettle]
      rfl

/-! ## In sessions -/

variable {held : Nat → List Value} {start : Session} (hstart : start.Begins held)
  (hs : Since held start.store store)
include hstart hs

/-- No pure data tell apart two stores of a session in which the same identity is handed out next. -/
theorem resolve_eq_of_nextIdentity (h : scope.Pure (data held start.store.heap.nextIdentity))
    {t : Store} (ht : Since held start.store t)
    (hnext : t.heap.nextIdentity = store.heap.nextIdentity) (depth : Nat) (name : Text) :
    ((scope.resolve depth name).run t).1 = ((scope.resolve depth name).run store).1 := by
  have hshift (k : Nat) : (hstart.shifting hs ht).shift k = k := by
    by_cases hk : k < store.heap.nextIdentity
    · exact Ledger.shift_of_lt hk
    · have hle : store.heap.nextIdentity ≤ k := by omega
      have hnew : (hstart.shifting hs ht).shift k =
          t.heap.nextIdentity + (k - store.heap.nextIdentity) := Ledger.shift_of_le hle
      omega
  obtain ⟨hpure, hmoved⟩ := resolve_moves hstart hs h depth name ht
  rw [hmoved]
  generalize ((scope.resolve depth name).run store).1 = x at hpure
  cases x with
  | error e => rfl
  | ok v => exact congrArg Except.ok ((hpure v rfl).rename_eq_self fun k _ => hshift k)

variable (hv : (Value.iterator (some n) items).Pure (data held start.store.heap.nextIdentity))
include hv

theorem since_settle_iterator :
    Since held start.store ((settle (.iterator (some n) items)).run store).2 := by
  have hpast := hv.mono (data_le held start.store store)
  exact Since.look hstart hs (settle_follows (hpast.mono (.past_upTo _)))
    (settle_leaves (Store.remembers_lasting _) _)

/-- Of the data an iterator has what it had at the start. -/
theorem itemsOf_iterator :
    store.itemsOf n items = if start.store.heap.drained.contains n then [] else items := by
  cases hv with
  | iterator hid ho _ =>
      have hn : n < start.store.heap.nextIdentity := by
        have hhas := hid n rfl
        simp only [data, Ledger.Has] at hhas
        omega
      rw [(ho n rfl hn).2]
      exact (hs.items n hn).trans (hstart.itemsOf_eq n _)

omit hs in
theorem pure_tuple_iterator : (Value.tuple (start.store.itemsOf n items)).Pure
    (data held start.store.heap.nextIdentity) := by
  rw [hstart.itemsOf_eq]
  cases hv with
  | iterator _ _ h =>
      apply Value.Pure.tuple
      split
      · simp
      · exact h

/-- What an iterator answers under its label or for a dot, the tuple of its items answers. -/
theorem resolve_labelled_iterator (hscope : scope.Pure (data held start.store.heap.nextIdentity))
    (depth : Nat) (hn : name ≠ ['.']) (hp : Text.pieces (· = '.') name = head :: rest) :
    (((scope.push (.iterator (some n) items) (some head)).resolve depth name).run store).1 =
      (((scope.push (.tuple (start.store.itemsOf n items)) (some head)).resolve depth name).run
        store).1 := by
  have hsame : store.itemsOf n items = start.store.itemsOf n items := by
    rw [itemsOf_iterator hstart hs hv, hstart.itemsOf_eq]
  have htuple := hscope.push (pure_tuple_iterator hstart hv) (some head)
  have hsettled := since_settle_iterator hstart hs hv
  have hnext := nextIdentity_settle_iterator n items store
  rw [← resolve_eq_of_nextIdentity hstart hs htuple hsettled hnext depth name,
    resolve_push_labelled _ _ hn hp, resolve_push_labelled _ _ hn hp, run_descend_iterator, hsame]

/-- An iterator as a frame, beside the tuple of its items as one. For a dot and under the label of
the frame both answer the same, and so they do for all names whose first part is no index of an
item; these are found in the frames below, if anywhere. Under the index of an item an iterator is
not found either, whereas in the tuple the item is. -/
theorem iteratorFrame_resolve (hscope : scope.Pure (data held start.store.heap.nextIdentity))
    (label : Option Text) (depth : Nat) :
    let xs := if start.store.heap.drained.contains n then [] else items
    let resolved (v : Value) (name : Text) :=
      ((scope.push v label).resolve (depth + 1) name).run store
    ((resolved (.iterator (some n) items) ['.']).1 = .ok (.tuple xs) ∧
      (resolved (.tuple xs) ['.']).1 = .ok (.tuple xs)) ∧
    ∀ name head rest, name ≠ ['.'] → Text.pieces (· = '.') name = head :: rest →
      (label = some head ∨ ¬ HasItem xs head →
        (resolved (.iterator (some n) items) name).1 = (resolved (.tuple xs) name).1) ∧
      (label ≠ some head →
        resolved (.iterator (some n) items) name =
          (scope.resolve (depth + 1) name).run store) ∧
      (label ≠ some head → HasItem xs head →
        resolved (.tuple xs) name =
          (item xs head >>= fun v => descend (depth + 1) v rest >>= settle).run store) := by
  intro xs resolved
  have hxs : start.store.itemsOf n items = xs := hstart.itemsOf_eq n items
  have hbelow (name head : Text) (rest : List Text) (hn : name ≠ ['.'])
      (hp : Text.pieces (· = '.') name = head :: rest) (hlabel : label ≠ some head) :
      resolved (.iterator (some n) items) name = (scope.resolve (depth + 1) name).run store := by
    have hnot : ¬ Frame.Has ⟨.iterator (some n) items, label⟩ (depth + 1) store head :=
      mt Frame.has_iterator_iff.mp hlabel
    have hrun := resolve_push_of_not_has scope hn hp hnot
    rwa [Value.run_lookup_iterator] at hrun
  constructor
  · constructor
    · have hdot : resolved (.iterator (some n) items) ['.'] =
          (settle (.iterator (some n) items)).run store := rfl
      rw [hdot, run_settle_iterator, itemsOf_iterator hstart hs hv]
    · rfl
  · intro name head rest hn hp
    refine ⟨fun h => ?_, hbelow name head rest hn hp, fun hlabel hitem => ?_⟩
    · by_cases hlabel : label = some head
      · have hboth := resolve_labelled_iterator hstart hs hv hscope (depth + 1) hn hp
        rw [hxs] at hboth
        simpa only [resolved, hlabel] using hboth
      · have hnone := h.resolve_left hlabel
        have hnot : ¬ Frame.Has ⟨.tuple xs, label⟩ (depth + 1) store head := by
          rw [Frame.has_tuple_iff]
          exact not_or.mpr ⟨hlabel, hnone⟩
        have htuple := resolve_push_of_not_has scope hn hp hnot
        rw [Value.run_lookup_tuple_snd] at htuple
        rw [hbelow name head rest hn hp hlabel]
        exact congrArg Prod.fst htuple.symm
    · have hlookup : (Value.tuple xs).lookup (depth + 1) head = item xs head := if_pos hitem.1
      have hfound : (((Value.tuple xs).lookup (depth + 1) head).run store).1 ≠ .ok .missing := by
        rw [hlookup, Value.run_item_fst_ne_missing_iff]
        exact hitem.2
      rw [← hlookup]
      exact resolve_push_found scope hn hp hlabel hfound

omit hstart hs hv

/-- A text under an index in the frame below hides what the iterator has there. -/
theorem textBelow_found :
    let store := Store.fresh (.fresh 1) (.fresh .empty (.memory 1 []) (.empty true) .standard)
    let scope := Scope.ofView (.dict [(['0'], .text ['b'])])
    let resolved (v : Value) (name : Text) := ((scope.push v none).resolve 9 name).run store
    let iterator : Value := .iterator (some 0) [.text ['x']]
    let tuple : Value := .tuple [.text ['x']]
    (resolved iterator ['.']).1 = .ok tuple ∧
      (resolved iterator ['1']).1 = (resolved tuple ['1']).1 ∧
      resolved iterator ['0'] = (scope.resolve 9 ['0']).run store := by
  intro store scope resolved iterator tuple
  let held : Nat → List Value := fun _ => [.text ['x']]
  have hitems : ∀ n, ∀ v ∈ held n, v.Pure (data held 1) :=
    fun n => List.forall_mem_singleton.mpr (.text _)
  have hbegins : Session.Begins held ⟨[], store⟩ := by
    apply Session.Begins.mk rfl (fun n _ => ⟨rfl, List.not_mem_nil, rfl⟩) _ hitems (by simp)
    exact fun n => List.forall_mem_singleton.mpr fun _ => rfl
  have hscope : scope.Pure (data held 1) :=
    List.forall_mem_singleton.mpr (.dict (List.forall_mem_singleton.mpr (.text _)))
  have hiterator : iterator.Pure (data held 1) := by
    apply Value.Pure.iterator (fun n hn => ?_) (fun n _ _ => ⟨trivial, rfl⟩) (hitems 0)
    cases hn
    exact .inl Nat.one_pos
  have hone : ¬ HasItem [.text ['x']] ['1'] := by
    intro h
    cases h.2 1 rfl
  obtain ⟨⟨hdot, -⟩, hnames⟩ :=
    iteratorFrame_resolve hbegins hbegins.since hiterator hscope none 8
  exact ⟨hdot, (hnames ['1'] ['1'] [] (by decide) rfl).1 (.inr hone),
    (hnames ['0'] ['0'] [] (by decide) rfl).2.1 (by simp)⟩

/-- An iterator over one text does not have it under the first index; the tuple has. -/
theorem firstItem_missing :
    let store := Store.fresh (.fresh 1) (.fresh .empty (.memory 1 []) (.empty true) .standard)
    let resolved (v : Value) := ((Scope.ofView v).resolve 9 ['0']).run store
    (resolved (.iterator (some 0) [.text ['x']])).1 = .ok .missing ∧
      (resolved (.tuple [.text ['x']])).1 = .ok (.text ['x']) :=
  ⟨rfl, rfl⟩

end Scope

end Whisker
