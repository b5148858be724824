import Whisker.Proofs.View.Shift

/-! Two runs side by side that have handed out identities differently and have read different
iterators. What they remember of older iterators comes to the same, and what they remember of newer
ones differs only in the identities. -/

namespace Whisker

/-- Nothing is remembered of the identity. -/
structure Store.Untouched (store : Store) (n : Nat) : Prop where
  met : store.met.lookup n = none
  drained : n ∉ store.heap.drained
  calls : store.heap.callsOf n = 0

/-- Where two runs started. -/
structure Shifting where
  ledger : Ledger
  /-- The identity that comes in the second run at the place of `start`. -/
  other : Nat
  /-- What both loaders go on being. -/
  served : Loader → Prop
  left : Store
  right : Store
  sound : ledger.Sound other
  held : ledger.iterators → ∀ n, n < ledger.bound → ∀ v ∈ ledger.held n, v.Pure ledger.past
  known : ledger.iterators → ∀ n, n < ledger.bound →
    ∀ v ∈ left.itemsOf n (ledger.held n), v.Pure ledger.past

namespace Shifting

/-- The identities of the second run. -/
def shift (S : Shifting) (n : Nat) : Nat := S.ledger.shift S.other n

/-- The stores of the two runs at the same point. -/
structure Alike (S : Shifting) (s t : Store) : Prop where
  start_le : S.ledger.start ≤ s.heap.nextIdentity
  next : t.heap.nextIdentity = S.shift s.heap.nextIdentity
  -- what was built before
  items_left : S.ledger.iterators → ∀ n, n < S.ledger.bound →
    s.itemsOf n (S.ledger.held n) = S.left.itemsOf n (S.ledger.held n)
  items_right : S.ledger.iterators → ∀ n, n < S.ledger.bound →
    t.itemsOf n (S.ledger.held n) = S.left.itemsOf n (S.ledger.held n)
  drained_left : ¬ S.ledger.iterators → ∀ n, n < S.ledger.bound →
    (n ∈ s.heap.drained ↔ n ∈ S.left.heap.drained)
  drained_right : ¬ S.ledger.iterators → ∀ n, n < S.ledger.bound →
    (n ∈ t.heap.drained ↔ n ∈ S.right.heap.drained)
  calls_same : ∀ n, n < S.ledger.bound → ¬ S.ledger.quiet n → t.heap.callsOf n = s.heap.callsOf n
  calls_left : ¬ S.ledger.others → ∀ n, n < S.ledger.bound → ¬ S.ledger.quiet n →
    s.heap.callsOf n = S.left.heap.callsOf n
  -- what was built since
  met : ∀ n, S.ledger.start ≤ n →
    t.met.lookup (S.shift n) = (s.met.lookup n).map (Value.renameItems S.shift)
  drained : ∀ n, S.ledger.start ≤ n → (S.shift n ∈ t.heap.drained ↔ n ∈ s.heap.drained)
  calls : ∀ n, S.ledger.start ≤ n → t.heap.callsOf (S.shift n) = s.heap.callsOf n
  pure : ∀ n, S.ledger.start ≤ n → ∀ vs, s.met.lookup n = some vs →
    ∀ v ∈ vs, v.Pure (S.ledger.upTo s.heap.nextIdentity)
  untouched : ∀ n, s.heap.nextIdentity ≤ n → s.Untouched n
  -- the rest
  warnings : t.warnings = s.warnings
  served_left : S.served s.loader
  served_right : S.served t.loader

variable {S : Shifting}

theorem shift_of_lt {n : Nat} (h : n < S.ledger.bound) : S.shift n = n :=
  Ledger.shift_of_lt (Nat.lt_of_lt_of_le h S.sound.bound_le)

theorem bound_le_shift {n : Nat} (h : S.ledger.start ≤ n) : S.ledger.bound ≤ S.shift n := by
  have hle := S.sound.bound_le_other
  rw [shift, Ledger.shift_of_le h]
  omega

/-- Different identities do not become one. -/
theorem shift_inj {m n k : Nat} (hn : (S.ledger.upTo m).Has n) (hk : S.ledger.start ≤ k) :
    S.shift k = S.shift n ↔ k = n := by
  have hle := S.sound.bound_le
  have hbound := S.bound_le_shift hk
  rcases hn with hn | ⟨hn, -⟩
  · have hlt : n < S.ledger.bound := hn
    rw [shift_of_lt hlt]
    omega
  · have hstart : S.ledger.start ≤ n := hn
    rw [shift, shift, Ledger.shift_of_le hk, Ledger.shift_of_le hstart]
    omega

theorem eq_shift_iff {m n k : Nat} (hn : (S.ledger.upTo m).Has n) (hk : k < S.ledger.bound) :
    k = S.shift n ↔ k = n := by
  rcases hn with hn | ⟨hn, -⟩
  · rw [shift_of_lt hn]
  · have hstart : S.ledger.start ≤ n := hn
    have hbound := S.bound_le_shift hstart
    have hle := S.sound.bound_le
    omega

theorem Alike.has_lt {s t : Store} (h : S.Alike s t) {m n : Nat} (hm : m ≤ s.heap.nextIdentity)
    (hn : (S.ledger.upTo m).Has n) : n < s.heap.nextIdentity := by
  have hstart := h.start_le
  have hle := S.sound.bound_le
  rcases hn with hn | ⟨-, hn⟩
  · have hlt : n < S.ledger.bound := hn
    omega
  · exact Nat.lt_of_lt_of_le hn hm

/-- Runs that have handed out nothing yet are alike as far as older iterators and calls are. -/
theorem Alike.ofUntouched {s t : Store} (hi : S.ledger.iterators)
    (hstart : s.heap.nextIdentity = S.ledger.start) (hother : t.heap.nextIdentity = S.other)
    (hs : ∀ n, s.heap.nextIdentity ≤ n → s.Untouched n)
    (ht : ∀ n, t.heap.nextIdentity ≤ n → t.Untouched n)
    (hleft : ∀ n, n < S.ledger.bound →
      s.itemsOf n (S.ledger.held n) = S.left.itemsOf n (S.ledger.held n))
    (hright : ∀ n, n < S.ledger.bound →
      t.itemsOf n (S.ledger.held n) = S.left.itemsOf n (S.ledger.held n))
    (hcalls : ∀ n, n < S.ledger.bound → ¬ S.ledger.quiet n →
      t.heap.callsOf n = s.heap.callsOf n)
    (hothers : ¬ S.ledger.others → ∀ n, n < S.ledger.bound → ¬ S.ledger.quiet n →
      s.heap.callsOf n = S.left.heap.callsOf n)
    (hwarnings : t.warnings = s.warnings) (hserved : S.served s.loader)
    (hserved' : S.served t.loader) : S.Alike s t := by
  have hold {n : Nat} (hn : S.ledger.start ≤ n) : s.Untouched n := hs n (hstart ▸ hn)
  have hnew {n : Nat} (hn : S.ledger.start ≤ n) : t.Untouched (S.shift n) := by
    refine ht _ ?_
    rw [hother, shift, Ledger.shift_of_le hn]
    exact Nat.le_add_right _ _
  have hnext : t.heap.nextIdentity = S.shift s.heap.nextIdentity := by
    rw [shift, Ledger.shift_of_le (Nat.le_of_eq hstart.symm), hother, hstart, Nat.sub_self,
      Nat.add_zero]
  refine ⟨Nat.le_of_eq hstart.symm, hnext, fun _ => hleft, fun _ => hright,
    fun h => (h hi).elim, fun h => (h hi).elim, hcalls, hothers, fun n hn => ?_, fun n hn => ?_,
    fun n hn => ?_, fun n hn vs hvs => ?_, hs, hwarnings, hserved, hserved'⟩
  · rw [(hnew hn).met, (hold hn).met]
    rfl
  · exact iff_of_false (hnew hn).drained (hold hn).drained
  · rw [(hnew hn).calls, (hold hn).calls]
  · cases (hold hn).met.symm.trans hvs

/-- A value and what it is in the second run. -/
def Moves (S : Shifting) (m : Nat) (v w : Value) : Prop :=
  v.Pure (S.ledger.upTo m) ∧ w = v.rename S.shift

/-- Items and what they are in the second run. -/
def MovesAll (S : Shifting) (m : Nat) (vs ws : List Value) : Prop :=
  (∀ v ∈ vs, v.Pure (S.ledger.upTo m)) ∧ ws = Value.renameItems S.shift vs

end Shifting

/-! ## Steps of both runs -/

/-- From stores that are alike the two steps end alike. `m` is an identity that was not handed out
before; `Q` may speak of what has been handed out when the steps are done. -/
def Run.Follows (S : Shifting) {α β : Type} (Q : Nat → α → β → Prop) (x : Run α) (y : Run β)
    (m : Nat) : Prop :=
  ∀ s t, S.Alike s t → m ≤ s.heap.nextIdentity →
    s.heap.nextIdentity ≤ (x.run s).2.heap.nextIdentity ∧ S.Alike (x.run s).2 (y.run t).2 ∧
      Agree (Q (x.run s).2.heap.nextIdentity) (x.run s).1 (y.run t).1

namespace Run.Follows

variable {S : Shifting} {α β γ δ : Type} {Q : Nat → α → β → Prop} {P : Nat → γ → δ → Prop}
  {m : Nat}

theorem pure {a : α} {b : β} (h : ∀ next, m ≤ next → Q next a b) :
    Follows S Q (Pure.pure a) (Pure.pure b) m :=
  fun s _ hst hm => ⟨Nat.le_refl _, hst, .ok (h s.heap.nextIdentity hm)⟩

theorem throw (e : Failure) : Follows S Q (MonadExcept.throw e) (MonadExcept.throw e) m :=
  fun _ _ hst _ => ⟨Nat.le_refl _, hst, .error e⟩

theorem bind {x : Run α} {y : Run β} {f : α → Run γ} {g : β → Run δ} (h : Follows S Q x y m)
    (hf : ∀ a b later, m ≤ later → Q later a b → Follows S P (f a) (g b) later) :
    Follows S P (x >>= f) (y >>= g) m := by
  intro s t hst hm
  obtain ⟨hle, hst', hQ⟩ := h s t hst hm
  rw [Fallible.run_bind, Fallible.run_bind]
  rcases hx : x.run s with ⟨a, s'⟩
  rcases hy : y.run t with ⟨b, t'⟩
  rw [hx] at hle hst' hQ
  rw [hy] at hst' hQ
  cases hQ with
  | ok hQ =>
      obtain ⟨hle', hst'', hP⟩ :=
        hf _ _ s'.heap.nextIdentity (Nat.le_trans hm hle) hQ s' t' hst' (Nat.le_refl _)
      exact ⟨Nat.le_trans hle hle', hst'', hP⟩
  | error e => exact ⟨hle, hst', .error e⟩

theorem tryCatch {x : Run α} {y : Run β} {f : Failure → Run α} {g : Failure → Run β}
    (h : Follows S Q x y m) (hf : ∀ e, Follows S Q (f e) (g e) m) :
    Follows S Q (MonadExcept.tryCatch x f) (MonadExcept.tryCatch y g) m := by
  intro s t hst hm
  obtain ⟨hle, hst', hQ⟩ := h s t hst hm
  rw [Fallible.run_tryCatch, Fallible.run_tryCatch]
  rcases hx : x.run s with ⟨a, s'⟩
  rcases hy : y.run t with ⟨b, t'⟩
  rw [hx] at hle hst' hQ
  rw [hy] at hst' hQ
  cases hQ with
  | ok hQ => exact ⟨hle, hst', .ok hQ⟩
  | error e =>
      obtain ⟨hle', hst'', hP⟩ := hf e s' t' hst' (Nat.le_trans hm hle)
      exact ⟨Nat.le_trans hle hle', hst'', hP⟩

end Run.Follows

namespace Run

variable {S : Shifting} {m : Nat}

theorem build_follows {v : Value} (h : v.Pure (S.ledger.upTo m)) :
    Follows S S.Moves (build v) (build (v.rename S.shift)) m := by
  intro s t hst hm
  obtain ⟨hle, hv, hright⟩ := Value.build_follows S.sound v h s.heap.nextIdentity hm hst.start_le
  have hnext : ((v.rename S.shift).build.run t.heap.nextIdentity) =
      ((v.build.run s.heap.nextIdentity).1.rename S.shift,
        S.shift (v.build.run s.heap.nextIdentity).2) := by
    rw [hst.next]
    exact hright
  refine ⟨hle, { hst with
    start_le := Nat.le_trans hst.start_le hle
    next := congrArg Prod.snd hnext
    pure := fun n hn vs hvs w hw => (hst.pure n hn vs hvs w hw).mono (.upTo hle)
    untouched := fun n hn => ?_ }, .ok ⟨hv, congrArg Prod.fst hnext⟩⟩
  have hn' : s.heap.nextIdentity ≤ n := Nat.le_trans hle hn
  exact ⟨(hst.untouched n hn').met, (hst.untouched n hn').drained, (hst.untouched n hn').calls⟩

theorem run_countCall (n : Nat) (store : Store) :
    (countCall (some n)).run store =
      (.ok (store.heap.callsOf n + 1), { store with heap := store.heap.count n }) := by
  change (Except.ok ((store.heap.count n).callsOf n), _) = _
  rw [Heap.callsOf_count, if_pos rfl]

/-- The counts differ only for functions that do not look at them. -/
theorem countCall_follows {id : Identity} {body : Expr}
    (hid : ∀ n, id = some n → (S.ledger.upTo m).Has n)
    (hc : ∀ n, id = some n → n < S.ledger.bound → S.ledger.Calls n body) :
    Follows S (fun _ count count' => count' = count ∨ body.Countless) (countCall id)
      (countCall (id.map S.shift)) m := by
  cases id with
  | none => exact .pure fun _ _ => .inl rfl
  | some n =>
      intro s t hst hm
      have hn := hid n rfl
      have hlt := hst.has_lt hm hn
      rw [Option.map_some, run_countCall, run_countCall]
      refine ⟨Nat.le_refl _, { hst with
        calls_same := fun k hk hq => ?_
        calls_left := fun ho k hk hq => ?_
        calls := fun k hk => ?_
        untouched := fun k hk => ?_ }, .ok ?_⟩
      · rw [Heap.callsOf_count, Heap.callsOf_count]
        by_cases he : k = n
        · subst he
          rw [Shifting.shift_of_lt hk, if_pos rfl, if_pos rfl, hst.calls_same k hk hq]
        · rw [if_neg he, if_neg fun h => he ((Shifting.eq_shift_iff hn hk).mp h),
            hst.calls_same k hk hq]
      · have hne : k ≠ n := by
          rintro rfl
          exact (hc k rfl hk).2.elim ho hq
        rw [Heap.callsOf_count, if_neg hne]
        exact hst.calls_left ho k hk hq
      · rw [Heap.callsOf_count, Heap.callsOf_count]
        by_cases he : k = n
        · subst he
          rw [if_pos rfl, if_pos rfl, hst.calls k hk]
        · rw [if_neg he, if_neg fun h => he ((Shifting.shift_inj hn hk).mp h), hst.calls k hk]
      · have hk' : s.heap.nextIdentity ≤ k := hk
        have hne : k ≠ n := by omega
        have huntouched := hst.untouched k hk'
        refine ⟨huntouched.met, huntouched.drained, ?_⟩
        rw [Heap.callsOf_count, if_neg hne]
        exact huntouched.calls
      · rcases hn with hn | ⟨hn, -⟩
        · have hbound : n < S.ledger.bound := hn
          rw [Shifting.shift_of_lt hbound]
          by_cases hq : S.ledger.quiet n
          · exact .inr ((hc n rfl hbound).1 hq)
          · exact .inl (by rw [hst.calls_same n hbound hq])
        · exact .inl (by rw [hst.calls n hn])

theorem warn_follows (message : String) :
    Follows S (fun _ _ _ => True) (warn message) (warn message) m := by
  intro s t hst _
  refine ⟨Nat.le_refl _, { hst with
    warnings := congrArg (· ++ [message]) hst.warnings
    untouched := fun n hn => ?_ }, .ok trivial⟩
  exact ⟨(hst.untouched n hn).met, (hst.untouched n hn).drained, (hst.untouched n hn).calls⟩

end Run

/-! ## Iterators -/

namespace Store

variable {store after : Store} {n k : Nat} {held : List Value}

theorem Came.callsOf_eq (h : Came n held store after) (k : Nat) :
    after.heap.callsOf k = store.heap.callsOf k := by
  rw [Heap.callsOf, Heap.callsOf, h.calls]

theorem Came.untouched (h : Came n held store after) (hk : k ≠ n) (hu : store.Untouched k) :
    after.Untouched k :=
  ⟨(h.others k hk).met.trans hu.met, (h.others k hk).drained.not.mpr hu.drained,
    (h.callsOf_eq k).trans hu.calls⟩

end Store

open Store (Came)

namespace Shifting

variable {S : Shifting} {s t s' t' : Store} {m n : Nat} {items items' : List Value}

/-- Two runs stay alike when both come to an iterator. -/
theorem Alike.came (hst : S.Alike s t) (hm : m ≤ s.heap.nextIdentity)
    (hn : (S.ledger.upTo m).Has n) (hs : Came n items s s') (ht : Came (S.shift n) items' t t')
    (hold : n < S.ledger.bound →
      S.ledger.iterators ∧ items = S.ledger.held n ∧ items' = S.ledger.held n)
    (hnew : S.ledger.start ≤ n →
      t.itemsOf (S.shift n) items' = Value.renameItems S.shift (s.itemsOf n items))
    (hpure : ∀ v ∈ s.itemsOf n items, v.Pure (S.ledger.upTo s.heap.nextIdentity)) :
    S.Alike s' t' := by
  have hlt := hst.has_lt hm hn
  have hnot : ¬ S.ledger.iterators → ∀ k, k < S.ledger.bound → k ≠ n := by
    rintro hi k hk rfl
    exact hi (hold hk).1
  have hne : ∀ k, k < S.ledger.bound → k ≠ n → k ≠ S.shift n :=
    fun k hk h he => h ((eq_shift_iff hn hk).mp he)
  refine ⟨?_, ?_, fun hi k hk => ?_, fun hi k hk => ?_, fun hi k hk => ?_, fun hi k hk => ?_,
    fun k hk hq => ?_, fun ho k hk hq => ?_, fun k hk => ?_, fun k hk => ?_, fun k hk => ?_,
    fun k hk vs hvs => ?_, fun k hk => ?_, ?_, ?_, ?_⟩
  · rw [hs.next]
    exact hst.start_le
  · rw [hs.next, ht.next, hst.next]
  · rw [hs.itemsOf_eq fun he => ?_, hst.items_left hi k hk]
    subst he
    exact (hold hk).2.1
  · rw [ht.itemsOf_eq fun he => ?_, hst.items_right hi k hk]
    obtain rfl := (eq_shift_iff hn hk).mp he
    exact (hold hk).2.2
  · exact (hs.others k (hnot hi k hk)).drained.trans (hst.drained_left hi k hk)
  · exact (ht.others k (hne k hk (hnot hi k hk))).drained.trans (hst.drained_right hi k hk)
  · rw [hs.callsOf_eq, ht.callsOf_eq, hst.calls_same k hk hq]
  · rw [hs.callsOf_eq, hst.calls_left ho k hk hq]
  · by_cases he : k = n
    · subst he
      rw [hs.known, ht.known, hnew hk, Option.map_some]
    · rw [(hs.others k he).met, (ht.others _ fun h => he ((shift_inj hn hk).mp h)).met, hst.met k hk]
  · by_cases he : k = n
    · subst he
      rw [hs.drained, ht.drained, hst.drained k hk, hst.met k hk, Option.map_eq_none_iff]
    · rw [(hs.others k he).drained, (ht.others _ fun h => he ((shift_inj hn hk).mp h)).drained,
        hst.drained k hk]
  · rw [hs.callsOf_eq, ht.callsOf_eq, hst.calls k hk]
  · rw [hs.next]
    by_cases he : k = n
    · subst he
      cases hs.known.symm.trans hvs
      exact hpure
    · exact hst.pure k hk vs ((hs.others k he).met.symm.trans hvs)
  · rw [hs.next] at hk
    have hne : k ≠ n := by omega
    exact hs.untouched hne (hst.untouched k hk)
  · rw [hs.warnings, ht.warnings, hst.warnings]
  · rw [hs.loader]
    exact hst.served_left
  · rw [ht.loader]
    exact hst.served_right

/-- A newer iterator has in the second run what it has in the first. -/
theorem Alike.itemsOf_eq (hst : S.Alike s t) (hn : S.ledger.start ≤ n) (items : List Value) :
    t.itemsOf (S.shift n) (Value.renameItems S.shift items) =
      Value.renameItems S.shift (s.itemsOf n items) := by
  have hd : t.heap.drained.contains (S.shift n) = s.heap.drained.contains n := by
    rw [Bool.eq_iff_iff, List.contains_iff_mem, List.contains_iff_mem, hst.drained n hn]
  rw [Store.itemsOf, Store.itemsOf, hst.met n hn, hd]
  cases s.met.lookup n with
  | some known => rfl
  | none =>
      dsimp only [Option.map_none]
      split <;> rfl

theorem Alike.pure_itemsOf (hst : S.Alike s t) (hn : S.ledger.start ≤ n)
    (h : ∀ v ∈ items, v.Pure (S.ledger.upTo s.heap.nextIdentity)) :
    ∀ v ∈ s.itemsOf n items, v.Pure (S.ledger.upTo s.heap.nextIdentity) := by
  unfold Store.itemsOf
  cases hl : s.met.lookup n with
  | some known => exact hst.pure n hn known hl
  | none =>
      dsimp only
      split
      · simp
      · exact h

/-- Older items are the same in the second run. -/
theorem renameItems_eq_self {vs : List Value} (h : ∀ v ∈ vs, v.Pure S.ledger.past) :
    Value.renameItems S.shift vs = vs := by
  rw [Value.renameItems_eq_map]
  exact map_items_eq_self fun v hv => S.sound.rename_eq_self (h v hv)

end Shifting

namespace Run

variable {S : Shifting} {m : Nat}

theorem meetIterator_follows {id : Identity} {items : List Value}
    (h : (Value.iterator id items).Pure (S.ledger.upTo m)) :
    Follows S S.MovesAll (meetIterator id items)
      (meetIterator (id.map S.shift) (Value.renameItems S.shift items)) m := by
  cases h with
  | iterator hid ho h =>
      cases id with
      | none => exact .pure fun next hm => ⟨fun v hv => (h v hv).mono (.upTo hm), rfl⟩
      | some n =>
          intro s t hst hm
          have hn := hid n rfl
          obtain ⟨s', hs, hcame⟩ := run_meetIterator_came n items s
          obtain ⟨t', ht, hcame'⟩ :=
            run_meetIterator_came (S.shift n) (Value.renameItems S.shift items) t
          rw [Option.map_some, hs, ht]
          refine ⟨Nat.le_of_eq hcame.next.symm, ?_⟩
          dsimp only
          rw [hcame.next]
          rcases hid n rfl with hlt | ⟨hstart, -⟩
          · have hbound : n < S.ledger.bound := hlt
            obtain ⟨hi, rfl⟩ := ho n rfl hlt
            have hheld := Shifting.renameItems_eq_self (S.held hi n hbound)
            have hpast : ∀ v ∈ s.itemsOf n (S.ledger.held n), v.Pure S.ledger.past := by
              rw [hst.items_left hi n hbound]
              exact S.known hi n hbound
            have hpure := fun v hv => (hpast v hv).mono (.past_upTo s.heap.nextIdentity)
            have hnew : t.itemsOf (S.shift n) (Value.renameItems S.shift (S.ledger.held n)) =
                Value.renameItems S.shift (s.itemsOf n (S.ledger.held n)) := by
              rw [Shifting.renameItems_eq_self hpast, Shifting.shift_of_lt hbound, hheld,
                hst.items_right hi n hbound, hst.items_left hi n hbound]
            have hold : n < S.ledger.bound → S.ledger.iterators ∧
                S.ledger.held n = S.ledger.held n ∧
                  Value.renameItems S.shift (S.ledger.held n) = S.ledger.held n :=
              fun _ => ⟨hi, rfl, hheld⟩
            exact ⟨hst.came hm hn hcame hcame' hold (fun _ => hnew) hpure, .ok ⟨hpure, hnew⟩⟩
          · have hstart' : S.ledger.start ≤ n := hstart
            have hpure := hst.pure_itemsOf hstart' fun v hv => (h v hv).mono (.upTo hm)
            have hnew := hst.itemsOf_eq hstart' items
            refine ⟨hst.came hm hn hcame hcame' (fun hlt => ?_) (fun _ => hnew) hpure,
              .ok ⟨hpure, hnew⟩⟩
            have hle := S.sound.bound_le
            omega

end Run

end Whisker
