import Whisker.Proofs.Render.Iterators
import Whisker.Proofs.View.Pure

/-! Building in two runs that have handed out identities differently. What is built in one is the
renamed value of what is built in the other. -/

namespace Whisker

namespace Ledger

/-- The identities of another run, in which `other` comes at the place of `start`. -/
def shift (l : Ledger) (other n : Nat) : Nat := if n < l.start then n else other + (n - l.start)

variable {l : Ledger} {other n : Nat}

theorem shift_of_lt (h : n < l.start) : l.shift other n = n := if_pos h

theorem shift_of_le (h : l.start ≤ n) : l.shift other n = other + (n - l.start) :=
  if_neg (Nat.not_lt.mpr h)

theorem shift_succ (h : l.start ≤ n) : l.shift other (n + 1) = l.shift other n + 1 := by
  rw [shift_of_le h, shift_of_le (Nat.le_succ_of_le h)]
  omega

/-- The identities of what was built before come before those that are handed out, and what
iterators held was built before. -/
structure Sound (l : Ledger) (other : Nat) : Prop where
  bound_le : l.bound ≤ l.start
  bound_le_other : l.bound ≤ other
  built : ∀ n, ∀ v ∈ l.held n, v.IsBuilt

theorem Sound.inside (hs : l.Sound other) : l.inside.Sound other :=
  ⟨hs.bound_le, hs.bound_le_other, hs.built⟩

/-- Older values are the same in the other run. -/
theorem Sound.rename_eq_self (hs : l.Sound other) {v : Value} (h : v.Pure l.past) :
    v.rename (l.shift other) = v := by
  apply h.rename_eq_self
  intro n hn
  exact shift_of_lt (Nat.lt_of_lt_of_le (Le.past_has.mp hn) hs.bound_le)

end Ledger

namespace Builder

/-- From `start` on, and not below `m`, the second step makes at the shifted identities what `g`
makes of the result of the first, of which `K` holds. -/
def Follows (l : Ledger) (other : Nat) {α β : Type} (K : Nat → α → Prop) (g : α → β)
    (x : Builder α) (y : Builder β) (m : Nat) : Prop :=
  ∀ next, m ≤ next → l.start ≤ next → next ≤ (x.run next).2 ∧ K (x.run next).2 (x.run next).1 ∧
    y.run (l.shift other next) = (g (x.run next).1, l.shift other (x.run next).2)

namespace Follows

variable {l : Ledger} {other m : Nat} {α β γ δ : Type} {K : Nat → α → Prop} {L : Nat → γ → Prop}
  {g : α → β} {e : γ → δ}

theorem pure {a : α} (h : ∀ next, m ≤ next → K next a) :
    Follows l other K g (Pure.pure a) (Pure.pure (g a)) m :=
  fun next hm _ => ⟨Nat.le_refl _, h next hm, rfl⟩

theorem later {x : Builder α} {y : Builder β} (h : Follows l other K g x y m) {next : Nat}
    (hle : m ≤ next) : Follows l other K g x y next :=
  fun _ hn => h _ (Nat.le_trans hle hn)

theorem bind {x : Builder α} {y : Builder β} {f : α → Builder γ} {f' : β → Builder δ}
    (h : Follows l other K g x y m)
    (hf : ∀ a later, m ≤ later → K later a → Follows l other L e (f a) (f' (g a)) later) :
    Follows l other L e (x >>= f) (y >>= f') m := by
  intro next hm hstart
  obtain ⟨hle, hK, hy⟩ := h next hm hstart
  have hlater : m ≤ (x.run next).2 := Nat.le_trans hm hle
  obtain ⟨hle', hL, hy'⟩ :=
    hf _ _ hlater hK (x.run next).2 (Nat.le_refl _) (Nat.le_trans hstart hle)
  refine ⟨Nat.le_trans hle hle', hL, ?_⟩
  rw [StateT.run_bind, hy]
  exact hy'

/-- What is built for the parts goes on being right while the next parts are built. -/
theorem mapM {x : γ → Builder α} {y : δ → Builder β} {items : List γ}
    (hK : ∀ a next later, next ≤ later → K next a → K later a)
    (h : ∀ item ∈ items, Follows l other K g (x item) (y (e item)) m) :
    Follows l other (fun next as => ∀ a ∈ as, K next a) (List.map g) (items.mapM x)
      ((items.map e).mapM y) m := by
  induction items generalizing m with
  | nil => exact pure (by simp)
  | cons item items ih =>
      obtain ⟨hi, h⟩ := List.forall_mem_cons.mp h
      rw [List.map_cons, List.mapM_cons, List.mapM_cons]
      refine bind hi fun a later hle ha => ?_
      refine bind (ih fun item hi => (h item hi).later hle) fun as last hlast has => ?_
      refine pure fun next hn => List.forall_mem_cons.mpr ⟨?_, ?_⟩
      · exact hK a later next (Nat.le_trans hlast hn) ha
      · exact fun a ha => hK a last next hn (has a ha)

theorem entries {P : Nat → β → Prop} {h : β → β} {x : β → Builder β} {entries : Entries β}
    (hP : ∀ b next later, next ≤ later → P next b → P later b)
    (hx : ∀ entry ∈ entries, Follows l other P h (x entry.2) (x (h entry.2)) m) :
    Follows l other (fun next (entries : Entries β) => ∀ entry ∈ entries, P next entry.2)
      (List.map fun entry => (entry.1, h entry.2))
      (entries.mapM fun (name, b) => do return (name, ← x b))
      ((entries.map fun entry => (entry.1, h entry.2)).mapM fun (name, b) => do
        return (name, ← x b)) m := by
  apply mapM fun (entry : Text × β) => hP entry.2
  rintro ⟨name, b⟩ he
  refine bind (hx _ he) fun b later _ hb => ?_
  exact pure (α := Text × β) (g := fun entry => (entry.1, h entry.2)) fun next hn =>
    hP b later next hn hb

theorem mapSome {x : Builder α} {y : Builder β}
    (hK : ∀ a next later, next ≤ later → K next a → K later a) (h : Follows l other K g x y m) :
    Follows l other (fun next found => ∀ a, found = some a → K next a) (Option.map g)
      (some <$> x) (some <$> y) m := by
  rw [map_eq_pure_bind, map_eq_pure_bind]
  refine bind h fun a later _ ha => pure (g := Option.map g) fun next hn => ?_
  rintro _ ⟨⟩
  exact hK a later next hn ha

theorem found {x : γ → Builder α} {y : δ → Builder β} {found : Option γ}
    (hK : ∀ a next later, next ≤ later → K next a → K later a)
    (h : ∀ c, found = some c → Follows l other K g (x c) (y (e c)) m) :
    Follows l other (fun next found => ∀ a, found = some a → K next a) (Option.map g)
      (found.mapM x) ((found.map e).mapM y) m := by
  cases found with
  | none => exact pure (g := Option.map g) (by simp)
  | some c => exact mapSome hK (h c rfl)

theorem identity {id : Identity} {C : Nat → Prop} (hs : l.Sound other)
    (h : ∀ n, id = some n → (l.upTo m).Has n) (hC : ∀ n, id = some n → n < l.bound → C n) :
    Follows l other
      (fun next id => (∀ n, id = some n → (l.upTo next).Has n) ∧ ∀ n, id = some n → n < l.bound → C n)
      (Option.map (l.shift other)) (Builder.identity id)
      (Builder.identity (id.map (l.shift other))) m := by
  cases id with
  | some n => exact pure fun next hm => ⟨fun k hk => (Ledger.Le.upTo hm).has k (h k hk), hC⟩
  | none =>
      intro next _ hstart
      refine ⟨Nat.le_succ next, ⟨?_, ?_⟩, congrArg (Prod.mk _) (Ledger.shift_succ hstart).symm⟩
      · rintro n ⟨⟩
        exact .inr ⟨hstart, Nat.lt_succ_self next⟩
      · rintro n ⟨⟩ hlt
        have hle := hs.bound_le
        omega

end Follows

end Builder

open Builder (Follows)

variable {l : Ledger} {other m : Nat} (hs : l.Sound other)
include hs

theorem Function.build_follows {f : Function} (h : f.Pure (l.upTo m)) :
    Follows l other (fun next f => f.Pure (l.upTo next)) (Function.rename (l.shift other)) f.build
      (f.rename (l.shift other)).build m := by
  obtain ⟨arity, hid, hc, hb⟩ := h
  refine .bind (.identity hs hid hc) fun id later hle hid => .pure fun next hn => ?_
  exact .mk arity (fun n he => (Ledger.Le.upTo hn).has n (hid.1 n he)) hid.2
    (hb.mono (.upTo (Nat.le_trans hle hn)))

theorem Method.build_follows {f : Method} (h : f.Pure (l.upTo m)) :
    Follows l other (fun next f => f.Pure (l.upTo next)) (Method.rename (l.shift other)) f.build
      (f.rename (l.shift other)).build m := by
  cases h with
  | bound h =>
      exact .bind (Function.build_follows hs h) fun f later _ hf =>
        .pure fun next hn => .bound (hf.mono (.upTo hn))
  | static h =>
      exact .bind (Function.build_follows hs h) fun f later _ hf =>
        .pure fun next hn => .static (hf.mono (.upTo hn))

namespace Value

/-- The items of an iterator are built before the iterator itself. -/
theorem buildIterator_follows {id : Identity} {items : List Value}
    (hid : ∀ n, id = some n → (l.upTo m).Has n)
    (ho : ∀ n, id = some n → n < l.bound → l.iterators ∧ items = l.held n)
    (h : Follows l other (fun next vs => ∀ v ∈ vs, v.Pure (l.upTo next)) (renameItems (l.shift other))
      (buildItems items) (buildItems (renameItems (l.shift other) items)) m) :
    Follows l other (fun next v => v.Pure (l.upTo next)) (rename (l.shift other))
      (build (.iterator id items)) (build ((Value.iterator id items).rename (l.shift other))) m := by
  intro next hm hstart
  have hold : ∀ n, id = some n → n < l.bound →
      l.iterators ∧ ((buildItems items).run next).1 = l.held n := by
    intro n hn hlt
    obtain ⟨hl, rfl⟩ := ho n hn hlt
    exact ⟨hl, congrArg Prod.fst (run_buildItems (hs.built n) next)⟩
  have hbuild : Follows l other (fun next v => v.Pure (l.upTo next)) (rename (l.shift other))
      (do
        let id ← Builder.identity id
        return .iterator id ((buildItems items).run next).1)
      (do
        let id ← Builder.identity (id.map (l.shift other))
        return .iterator id (renameItems (l.shift other) ((buildItems items).run next).1))
      ((buildItems items).run next).2 := by
    obtain ⟨hle, hvs, -⟩ := h next hm hstart
    have hlater : ∀ n, id = some n → (l.upTo ((buildItems items).run next).2).Has n :=
      fun n hn => (Ledger.Le.upTo (Nat.le_trans hm hle)).has n (hid n hn)
    refine .bind (.identity hs hlater hold) fun id later _ hid => .pure fun last hlast => ?_
    refine .iterator (fun n hn => (Ledger.Le.upTo hlast).has n (hid.1 n hn)) hid.2 fun v hv => ?_
    exact (hvs v hv).mono (.upTo (by omega))
  obtain ⟨hle, hvs, hitems⟩ := h next hm hstart
  obtain ⟨hle', hv, hrun⟩ := hbuild _ (Nat.le_refl _) (Nat.le_trans hstart hle)
  refine ⟨Nat.le_trans hle hle', hv, ?_⟩
  rw [rename, build, StateT.run_bind, hitems]
  exact hrun

omit hs

mutual

theorem build_follows {l : Ledger} (hs : l.Sound other) {m : Nat} (v : Value)
    (h : v.Pure (l.upTo m)) :
    Follows l other (fun next v => v.Pure (l.upTo next)) (rename (l.shift other)) v.build
      (v.rename (l.shift other)).build m := by
  cases h with
  | list h =>
      exact .bind (buildItems_follows hs _ h) fun vs later _ hvs =>
        .pure fun next hn => .list fun v hv => (hvs v hv).mono (.upTo hn)
  | tuple h =>
      exact .bind (buildItems_follows hs _ h) fun vs later _ hvs =>
        .pure fun next hn => .tuple fun v hv => (hvs v hv).mono (.upTo hn)
  | record name h =>
      exact .bind (buildEntries_follows hs _ h) fun es later _ hes =>
        .pure fun next hn => .record name fun field hf => (hes field hf).mono (.upTo hn)
  | dict h =>
      exact .bind (buildEntries_follows hs _ h) fun es later _ hes =>
        .pure fun next hn => .dict fun entry he => (hes entry he).mono (.upTo hn)
  | iterator hid ho h => exact buildIterator_follows hs hid ho (buildItems_follows hs _ h)
  | @subView _ template view h =>
      have hview : Follows l other (fun next v => v.Pure (l.inside.upTo next))
          (rename (l.shift other)) view.build (view.rename (l.shift other)).build m :=
        build_follows (l := l.inside) hs.inside view h
      refine .bind hview fun v later _ hv => .pure fun next hn => .subView template ?_
      exact Value.Pure.mono (Ledger.Le.upTo hn) hv
  | @function _ f receiver bound hf h =>
      have rest : ∀ receiver later, m ≤ later →
          (∀ v, receiver = some v → Value.Pure (l.upTo later) v) →
          Follows l other (fun next v => v.Pure (l.upTo next)) (rename (l.shift other))
            (do
              let f ← f.build
              return .function f receiver bound)
            (do
              let f ← (f.rename (l.shift other)).build
              return .function f (receiver.map (rename (l.shift other))) bound) later := by
        intro receiver later hle hr
        refine .bind (Function.build_follows hs (hf.mono (.upTo hle))) fun f last hlast hf => ?_
        rw [← rename_function]
        refine .pure fun next hn => .function bound (hf.mono (.upTo hn)) fun v hv => ?_
        exact (hr v hv).mono (.upTo (Nat.le_trans hlast hn))
      cases receiver with
      | none =>
          exact .bind (K := fun _ receiver => receiver = none) (g := Option.map (rename (l.shift other)))
            (.pure fun _ _ => rfl) fun receiver later hle hr => rest receiver later hle (by simp [hr])
      | some receiver =>
          exact .bind (.mapSome (fun v _ _ hle hv => hv.mono (.upTo hle))
            (build_follows hs receiver (h receiver rfl))) rest
  | object h =>
      exact .bind (buildObject_follows hs _ h) fun o later _ ho =>
        .pure fun next hn => .object (ho.mono (.upTo hn))
  | _ => exact .pure fun _ _ => by constructor

theorem buildObject_follows {l : Ledger} (hs : l.Sound other) {m : Nat} (o : Object)
    (h : o.Pure (l.upTo m)) :
    Follows l other (fun next o => o.Pure (l.upTo next)) (renameObject (l.shift other))
      (buildObject o) (buildObject (renameObject (l.shift other) o)) m := by
  obtain ⟨attributes, methods, properties, items, length, call, printed⟩ := o
  rw [renameObject_mk, buildObject, buildObject]
  refine .bind (buildEntries_follows hs attributes h.attributes)
    fun attributes later₁ hle₁ hattributes => ?_
  refine .bind (.entries (fun _ _ _ hle hf => hf.mono (.upTo hle)) fun entry he =>
    Method.build_follows hs ((h.methods entry he).mono (.upTo hle₁)))
    fun methods later₂ hle₂ hmethods => ?_
  refine .bind (.entries (fun _ _ _ hle hf => hf.mono (.upTo hle)) fun entry he =>
    Function.build_follows hs ((h.properties entry he).mono (.upTo (Nat.le_trans hle₁ hle₂))))
    fun properties later₃ hle₃ hproperties => ?_
  have rest : ∀ items later₄, later₃ ≤ later₄ →
      (∀ vs, items = some vs → ∀ v ∈ vs, Value.Pure (l.upTo later₄) v) →
      Follows l other (fun next o => o.Pure (l.upTo next)) (renameObject (l.shift other))
        (do
          let call ← call.mapM Function.build
          return .mk attributes methods properties items length call printed)
        (do
          let call ← (call.map (Function.rename (l.shift other))).mapM Function.build
          return .mk (renameEntries (l.shift other) attributes)
            (methods.map fun entry => (entry.1, entry.2.rename (l.shift other)))
            (properties.map fun entry => (entry.1, entry.2.rename (l.shift other)))
            (items.map (renameItems (l.shift other))) length call printed) later₄ := by
    intro items later₄ hle₄ hitems
    have hle : m ≤ later₄ := by omega
    refine .bind (.found (fun _ _ _ hle hf => hf.mono (.upTo hle)) fun f hf =>
      Function.build_follows hs ((h.call f hf).mono (.upTo hle))) fun call later₅ hle₅ hcall => ?_
    rw [← renameObject_mk]
    refine .pure fun next hn => .mk length printed ?_ ?_ ?_ ?_ ?_
    · exact fun entry he => (hattributes entry he).mono (.upTo (by omega))
    · exact fun entry he => (hmethods entry he).mono (.upTo (by omega))
    · exact fun entry he => (hproperties entry he).mono (.upTo (by omega))
    · exact fun vs hvs v hv => (hitems vs hvs v hv).mono (.upTo (by omega))
    · exact fun f hf => (hcall f hf).mono (.upTo hn)
  have hle : m ≤ later₃ := by omega
  cases items with
  | none =>
      exact .bind (K := fun _ items => items = none) (g := Option.map (renameItems (l.shift other)))
        (.pure fun _ _ => rfl) fun items later hle hi => rest items later hle (by simp [hi])
  | some items =>
      exact .bind (.mapSome (fun vs _ _ hle hvs v hv => (hvs v hv).mono (.upTo hle))
        (buildItems_follows hs items fun v hv => (h.items items rfl v hv).mono (.upTo hle))) rest

theorem buildItems_follows {l : Ledger} (hs : l.Sound other) {m : Nat} (items : List Value)
    (h : ∀ v ∈ items, v.Pure (l.upTo m)) :
    Follows l other (fun next vs => ∀ v ∈ vs, v.Pure (l.upTo next)) (renameItems (l.shift other))
      (buildItems items) (buildItems (renameItems (l.shift other) items)) m := by
  cases items with
  | nil => exact .pure (by simp)
  | cons item items =>
      obtain ⟨hi, h⟩ := List.forall_mem_cons.mp h
      refine .bind (build_follows hs item hi) fun v later hle hv => ?_
      refine .bind (buildItems_follows hs items fun v hv => (h v hv).mono (.upTo hle))
        fun vs last hlast hvs => .pure fun next hn => ?_
      refine List.forall_mem_cons.mpr ⟨hv.mono (.upTo (Nat.le_trans hlast hn)), ?_⟩
      exact fun v hv => (hvs v hv).mono (.upTo hn)

theorem buildEntries_follows {l : Ledger} (hs : l.Sound other) {m : Nat}
    (entries : List (Text × Value)) (h : ∀ entry ∈ entries, entry.2.Pure (l.upTo m)) :
    Follows l other (fun next es => ∀ entry ∈ es, entry.2.Pure (l.upTo next))
      (renameEntries (l.shift other)) (buildEntries entries)
      (buildEntries (renameEntries (l.shift other) entries)) m := by
  cases entries with
  | nil => exact .pure (by simp)
  | cons entry entries =>
      obtain ⟨name, value⟩ := entry
      obtain ⟨he, h⟩ := List.forall_mem_cons.mp h
      refine .bind (build_follows hs value he) fun v later hle hv => ?_
      refine .bind (buildEntries_follows hs entries fun entry he => (h entry he).mono (.upTo hle))
        fun es last hlast hes => .pure fun next hn => ?_
      refine List.forall_mem_cons.mpr ⟨hv.mono (.upTo (Nat.le_trans hlast hn)), ?_⟩
      exact fun entry he => (hes entry he).mono (.upTo hn)

end

end Value

end Whisker
