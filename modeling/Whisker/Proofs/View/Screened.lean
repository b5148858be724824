import Whisker.Proofs.View.Veiled

/-! Building under a veil. What is hidden is built already, so that what is shown gets the same
identities on both sides. -/

namespace Whisker

namespace Builder

variable {α β γ δ : Type} {Q : α → β → Prop}

/-- The two steps hand out the same identities, and `Q` holds of what they make. -/
def Pairs (Q : α → β → Prop) (x : Builder α) (y : Builder β) : Prop :=
  ∀ next, Q (x.run next).1 (y.run next).1 ∧ (y.run next).2 = (x.run next).2

namespace Pairs

theorem pure {a : α} {b : β} (h : Q a b) : Pairs Q (Pure.pure a) (Pure.pure b) :=
  fun _ => ⟨h, rfl⟩

theorem bind {R : γ → δ → Prop} {x : Builder α} {y : Builder β} {f : α → Builder γ}
    {g : β → Builder δ} (h : Pairs Q x y) (hf : ∀ a b, Q a b → Pairs R (f a) (g b)) :
    Pairs R (x >>= f) (y >>= g) := by
  intro next
  obtain ⟨hQ, hnext⟩ := h next
  have hright : (y >>= g).run next = (g (y.run next).1).run (x.run next).2 := by
    rw [← hnext]
    rfl
  rw [hright]
  exact hf _ _ hQ (x.run next).2

end Pairs

/-- The same identity on both sides. -/
theorem identity_pairs (id : Identity) :
    Pairs (· = ·) (Builder.identity id) (Builder.identity id) := fun _ => ⟨rfl, rfl⟩

/-- Builds the value under each name. -/
def entries (x : β → Builder β) (es : Entries β) : Builder (Entries β) :=
  es.mapM fun (name, b) => do return (name, ← x b)

variable {x : β → Builder β} {es : Entries β}

theorem run_entries_cons (name : Text) (b : β) (es : Entries β) (next : Nat) :
    (entries x ((name, b) :: es)).run next =
      ((name, ((x b).run next).1) :: ((entries x es).run ((x b).run next).2).1,
        ((entries x es).run ((x b).run next).2).2) := by
  rw [entries, List.mapM_cons]
  rfl

/-- What is hidden does not matter for building what is shown, if it is built. -/
theorem run_entries_shown {S : Text → Bool}
    (h : ∀ entry ∈ es, S entry.1 = false → ∀ next, (x entry.2).run next = (entry.2, next))
    (next : Nat) :
    (entries x (Entries.shown S es)).run next =
      (Entries.shown S ((entries x es).run next).1, ((entries x es).run next).2) := by
  induction es generalizing next with
  | nil => rfl
  | cons entry es ih =>
      obtain ⟨name, b⟩ := entry
      obtain ⟨hb, h⟩ := List.forall_mem_cons.mp h
      rw [run_entries_cons, Entries.shown_cons, Entries.shown_cons]
      cases hS : S name with
      | true => rw [if_pos rfl, if_pos rfl, run_entries_cons, ih h]
      | false => rw [if_neg Bool.false_ne_true, if_neg Bool.false_ne_true, ih h, hb hS next]

theorem forall_run_entries {K : Text × β → Prop}
    (h : ∀ entry ∈ es, ∀ next, K (entry.1, ((x entry.2).run next).1)) (next : Nat) :
    ∀ entry ∈ ((entries x es).run next).1, K entry := by
  induction es generalizing next with
  | nil => exact fun _ he => nomatch he
  | cons entry es ih =>
      obtain ⟨name, b⟩ := entry
      obtain ⟨hb, h⟩ := List.forall_mem_cons.mp h
      rw [run_entries_cons]
      exact List.forall_mem_cons.mpr ⟨hb next, ih h _⟩

theorem entries_pairs {R : β → β → Prop} {es' : Entries β} (h : Entries.Pairs R es es')
    (hR : ∀ entry ∈ es, ∀ b, R entry.2 b → Pairs R (x entry.2) (x b)) :
    Pairs (Entries.Pairs R) (entries x es) (entries x es') := by
  induction h with
  | nil => exact .pure .nil
  | cons name h _ ih =>
      obtain ⟨hb, hR⟩ := List.forall_mem_cons.mp hR
      intro next
      obtain ⟨hQ, hnext⟩ := hb _ h next
      rw [run_entries_cons, run_entries_cons, hnext]
      obtain ⟨hrest, hlast⟩ := ih hR ((x _).run next).2
      exact ⟨.cons name hQ hrest, hlast⟩

/-- Entries that are related where they are shown. There `K` holds of them; what is hidden is
built. -/
structure Screened (x : β → Builder β) (S : Text → Bool) (R : β → β → Prop) (K : β → Prop)
    (es es' : Entries β) : Prop where
  pairs : Entries.Pairs R (Entries.shown S es) (Entries.shown S es')
  kept : ∀ entry ∈ es, S entry.1 = true → K entry.2
  kept' : ∀ entry ∈ es', S entry.1 = true → K entry.2
  built : ∀ entry ∈ es, S entry.1 = false → ∀ next, (x entry.2).run next = (entry.2, next)
  built' : ∀ entry ∈ es', S entry.1 = false → ∀ next, (x entry.2).run next = (entry.2, next)

theorem screened_pairs {S : Text → Bool} {R : β → β → Prop} {K : β → Prop} {es' : Entries β}
    (h : Screened x S R K es es')
    (hR : ∀ entry ∈ es, ∀ b, R entry.2 b → Pairs R (x entry.2) (x b))
    (hK : ∀ b next, K b → K ((x b).run next).1) :
    Pairs (Screened x S R K) (entries x es) (entries x es') := by
  have hkept : ∀ es : Entries β, (∀ entry ∈ es, S entry.1 = true → K entry.2) → ∀ next,
      ∀ entry ∈ ((entries x es).run next).1, S entry.1 = true → K entry.2 :=
    fun es h => forall_run_entries fun entry he next hS => hK _ next (h entry he hS)
  have hbuilt : ∀ es : Entries β, (∀ entry ∈ es, S entry.1 = false → ∀ next,
        (x entry.2).run next = (entry.2, next)) → ∀ next,
      ∀ entry ∈ ((entries x es).run next).1, S entry.1 = false → ∀ next,
        (x entry.2).run next = (entry.2, next) := by
    refine fun es h => forall_run_entries fun entry he next hS => ?_
    dsimp only
    rw [h entry he hS next]
    exact h entry he hS
  intro next
  obtain ⟨hQ, hnext⟩ :=
    entries_pairs h.pairs (fun entry he => hR entry (List.mem_filter.mp he).1) next
  rw [run_entries_shown h.built, run_entries_shown h.built'] at hQ hnext
  exact ⟨⟨hQ, hkept es h.kept next, hkept es' h.kept' next, hbuilt es h.built next,
    hbuilt es' h.built' next⟩, hnext⟩

theorem found_pairs {α β γ δ : Type} {R : α → β → Prop} {Q : γ → δ → Prop} {x : α → Builder γ}
    {y : β → Builder δ} {found : Option α} {found' : Option β} (h : Option.Rel R found found')
    (hR : ∀ a, found = some a → ∀ b, found' = some b → R a b → Pairs Q (x a) (y b)) :
    Pairs (Option.Rel Q) (found.mapM x) (found'.mapM y) := by
  cases h with
  | none => exact .pure .none
  | some h =>
      rw [Option.mapM_some, Option.mapM_some, map_eq_pure_bind, map_eq_pure_bind]
      exact .bind (hR _ rfl _ rfl h) fun c d hcd => .pure (.some hcd)

end Builder

theorem Function.body_build (f : Function) (next : Nat) : (f.build.run next).1.body = f.body := by
  cases f
  rfl

theorem Method.reads_build {S : Text → Bool} {m : Method} (h : m.Reads S) (next : Nat) :
    (m.build.run next).1.Reads S := by
  cases m with
  | bound f =>
      have hbody := f.body_build next
      change ((f.build.run next).1).body.Reads S
      rw [hbody]
      exact h
  | static f => trivial

theorem Function.build_pairs {f f' : Function} (h : f.Veiled f') :
    Builder.Pairs (fun g g' => g.Veiled g' ∧ g.body = f.body ∧ g'.body = f'.body) f.build
      f'.build := by
  obtain ⟨id, arity, h⟩ := h
  refine .bind (Builder.identity_pairs id) ?_
  rintro id _ rfl
  exact .pure ⟨.mk id arity h, rfl, rfl⟩

theorem Method.build_pairs {m m' : Method} (h : m.Veiled m') :
    Builder.Pairs Method.Veiled m.build m'.build := by
  cases h with
  | bound h => exact .bind (Function.build_pairs h) fun f g hfg => .pure (.bound hfg.1)
  | static h => exact .bind (Function.build_pairs h) fun f g hfg => .pure (.static hfg.1)

theorem Object.sizeOf_lt_of_mem_attributes {o : Object} {entry : Text × Value}
    (h : entry ∈ o.attributes) : sizeOf entry.2 < sizeOf o := by
  have hlt := Entries.sizeOf_lt_of_mem h
  cases o
  rw [Object.mk.sizeOf_spec]
  rw [attributes] at hlt
  omega

theorem Object.sizeOf_lt_of_mem_items {o : Object} {vs : List Value} (h : o.items = some vs)
    {v : Value} (hv : v ∈ vs) : sizeOf v < sizeOf o := by
  have hlt := List.sizeOf_lt_of_mem hv
  cases o
  rw [items] at h
  rw [Object.mk.sizeOf_spec, h, Option.some.sizeOf_spec]
  omega

namespace Value

theorem buildEntries_eq (es : Entries Value) : buildEntries es = Builder.entries build es := by
  induction es with
  | nil => rfl
  | cons entry es ih =>
      rw [buildEntries, ih]
      exact funext fun next => (Builder.run_entries_cons entry.1 entry.2 es next).symm

theorem buildItems_pairs {R : Value → Value → Prop} {items items' : List Value}
    (h : List.Forall₂ R items items')
    (hR : ∀ v ∈ items, ∀ w, R v w → Builder.Pairs R v.build w.build) :
    Builder.Pairs (List.Forall₂ R) (buildItems items) (buildItems items') := by
  induction h with
  | nil => exact .pure .nil
  | cons h _ ih =>
      obtain ⟨hitem, hR⟩ := List.forall_mem_cons.mp hR
      exact .bind (hitem _ h) fun v w hvw => .bind (ih hR) fun vs ws hvs => .pure (.cons hvw hvs)

theorem buildObject_eq (o : Object) : buildObject o = (do
    let attributes ← Builder.entries build o.attributes
    let methods ← Builder.entries Method.build o.methods
    let properties ← Builder.entries Function.build o.properties
    let items ← o.items.mapM buildItems
    let call ← o.call.mapM Function.build
    return .mk attributes methods properties items o.length call o.printed) := by
  obtain ⟨attributes, methods, properties, items, length, call, printed⟩ := o
  rw [buildObject, buildEntries_eq]
  cases items <;> rfl

theorem buildObject_pairs {S : Text → Bool} {o o' : Object} (h : o.Veiled S o')
    (hsmaller : ∀ v w : Value, sizeOf v < sizeOf o → v.SameOutside w →
      Builder.Pairs SameOutside v.build w.build) :
    Builder.Pairs (Object.Veiled S) (buildObject o) (buildObject o') := by
  obtain ⟨hattributes, hmethods, hproperties, hitems, hlength, hcall, hprinted, hd, hd'⟩ := h
  rw [buildObject_eq, buildObject_eq]
  refine .bind (Builder.screened_pairs (K := fun _ => True)
    ⟨hattributes, fun _ _ _ => trivial, fun _ _ _ => trivial, hd.hidden_attributes,
      hd'.hidden_attributes⟩
    (fun entry he w => hsmaller entry.2 w (Object.sizeOf_lt_of_mem_attributes he))
    fun _ _ _ => trivial) fun attributes attributes' ha => ?_
  refine .bind (Builder.screened_pairs
    ⟨hmethods, hd.methods, hd'.methods, hd.hidden_methods, hd'.hidden_methods⟩
    (fun _ _ _ => Method.build_pairs) fun _ next hm => Method.reads_build hm next)
    fun methods methods' hm => ?_
  refine .bind (Builder.screened_pairs (K := fun f => f.body.Reads S)
    ⟨hproperties, hd.properties, hd'.properties, hd.hidden_properties, hd'.hidden_properties⟩
    (fun _ _ _ h next => (Function.build_pairs h next).imp_left And.left)
    fun f next hf => ?_) fun properties properties' hp => ?_
  · rw [f.body_build next]
    exact hf
  refine .bind (Builder.found_pairs hitems fun vs hvs _ _ h => buildItems_pairs h fun v hv w =>
    hsmaller v w (Object.sizeOf_lt_of_mem_items hvs hv)) fun items items' hi => ?_
  refine .bind (Builder.found_pairs (Q := fun g g' => g.Veiled g' ∧ g.body.Reads S ∧
      g'.body.Reads S) hcall fun f hf f' hf' h next => ?_) fun call call' hc => ?_
  · obtain ⟨⟨hg, hbody, hbody'⟩, hnext⟩ := Function.build_pairs h next
    refine ⟨⟨hg, ?_, ?_⟩, hnext⟩
    · rw [hbody]
      exact hd.call f hf
    · rw [hbody']
      exact hd'.call f' hf'
  have hveiled : Option.Rel Function.Veiled call call' ∧ (∀ f, call = some f → f.body.Reads S) ∧
      ∀ f, call' = some f → f.body.Reads S := by
    cases hc with
    | none => exact ⟨.none, nofun, nofun⟩
    | some hc => exact ⟨.some hc.1, by rintro _ ⟨⟩; exact hc.2.1, by rintro _ ⟨⟩; exact hc.2.2⟩
  exact .pure (.mk ha.pairs hm.pairs hp.pairs hi hlength hveiled.1 hprinted
    ⟨hm.kept, hp.kept, hveiled.2.1, ha.built, hm.built, hp.built⟩
    ⟨hm.kept', hp.kept', hveiled.2.2, ha.built', hm.built', hp.built'⟩)

theorem build_pairs {S : Text → Bool} {v w : Value} (h : v.Veiled S w) :
    Builder.Pairs (Value.Veiled S) v.build w.build := by
  cases h with
  | list h =>
      exact .bind (buildItems_pairs h fun v _ w hvw => build_pairs hvw) fun vs ws hvs =>
        .pure (.list hvs)
  | tuple h =>
      exact .bind (buildItems_pairs h fun v _ w hvw => build_pairs hvw) fun vs ws hvs =>
        .pure (.tuple hvs)
  | record name h =>
      have hfields := Builder.entries_pairs (x := build) h fun field hf w hw => by
        have := Entries.sizeOf_lt_of_mem hf
        exact build_pairs hw
      rw [build, build, buildEntries_eq, buildEntries_eq]
      exact .bind hfields fun es es' hes => .pure (.record name hes)
  | dict h =>
      have hentries := Builder.entries_pairs (x := build) h fun entry he w hw => by
        have := Entries.sizeOf_lt_of_mem he
        exact build_pairs hw
      rw [build, build, buildEntries_eq, buildEntries_eq]
      exact .bind hentries fun es es' hes => .pure (.dict hes)
  | iterator id h =>
      refine .bind (buildItems_pairs h fun v _ w hvw => build_pairs hvw) fun vs ws hvs =>
        .bind (Builder.identity_pairs id) ?_
      rintro id _ rfl
      exact .pure (.iterator id hvs)
  | subView template h =>
      exact .bind (build_pairs h) fun v w hvw => .pure (.subView template hvw)
  | function bound hf =>
      exact .bind (.pure (Q := fun r r' : Option Value => r = none ∧ r' = none) ⟨rfl, rfl⟩) (by
        rintro _ _ ⟨rfl, rfl⟩
        exact .bind (Function.build_pairs hf) fun g g' hg => .pure (.function bound hg.1))
  | @method _ X f _ receiver receiver' bound hf hreads h =>
      have hreceiver : Builder.Pairs (Option.Rel (Value.Veiled X)) (some <$> build receiver)
          (some <$> build receiver') := by
        rw [map_eq_pure_bind, map_eq_pure_bind]
        exact .bind (build_pairs h) fun v w hvw => .pure (.some hvw)
      refine .bind hreceiver fun r r' hr => .bind (Function.build_pairs hf) ?_
      rintro g g' ⟨hg, hbody, -⟩
      rw [← hbody] at hreads
      cases hr with
      | none => exact .pure (.function bound hg)
      | some hr => exact .pure (.method bound hg hreads hr)
  | object hX h =>
      exact .bind (buildObject_pairs h fun v w hlt hvw => build_pairs hvw) fun o o' ho =>
        .pure (.object hX ho)
  | _ => exact .pure (by constructor)
termination_by sizeOf v

end Value

end Whisker
