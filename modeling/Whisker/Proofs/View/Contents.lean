import Whisker.View.Build

/-! Contents of values. What building a value makes is allowed where the value was, as far as the
identities that building hands out are allowed. -/

namespace Whisker

/-- What may be inside a value. -/
structure Contents where
  /-- Iterators, by what they held. -/
  once : Identity → List Value → Prop
  /-- Functions. -/
  callee : Identity → Prop
  /-- The templates of sub-views. -/
  template : Text → Prop

/-- Data with nothing to call. -/
def Contents.data (template : Text → Prop) : Contents := ⟨fun _ _ => True, fun _ => False, template⟩

mutual

/-- All that is inside the value is allowed. -/
inductive Value.Within (c : Contents) : Value → Prop where
  | missing : Value.Within c .missing
  | null : Value.Within c .null
  | bool (b) : Value.Within c (.bool b)
  | int (i) : Value.Within c (.int i)
  | float (x) : Value.Within c (.float x)
  | text (t) : Value.Within c (.text t)
  | bytes (content) : Value.Within c (.bytes content)
  | buffer (content) : Value.Within c (.buffer content)
  | list {items} (h : ∀ v ∈ items, Value.Within c v) : Value.Within c (.list items)
  | tuple {items} (h : ∀ v ∈ items, Value.Within c v) : Value.Within c (.tuple items)
  | record (name) {fields} (h : ∀ field ∈ fields, Value.Within c field.2) :
      Value.Within c (.record name fields)
  | dict {entries} (h : ∀ entry ∈ entries, Value.Within c entry.2) : Value.Within c (.dict entries)
  | iterator {id items} (ho : c.once id items) (h : ∀ v ∈ items, Value.Within c v) :
      Value.Within c (.iterator id items)
  | subView {template view} (ht : c.template template) (h : Value.Within c view) :
      Value.Within c (.subView template view)
  | function {f receiver} (bound) (hf : Function.Within c f)
      (h : ∀ v, receiver = some v → Value.Within c v) : Value.Within c (.function f receiver bound)
  | renderer {id} (h : c.callee id) : Value.Within c .renderer
  | object {o} (h : Object.Within c o) : Value.Within c (.object o)

inductive Object.Within (c : Contents) : Object → Prop where
  | mk {attributes methods properties items call} (length printed)
      (hattributes : ∀ entry ∈ attributes, Value.Within c entry.2)
      (hmethods : ∀ entry ∈ methods, Method.Within c entry.2)
      (hproperties : ∀ entry ∈ properties, Function.Within c entry.2)
      (hitems : ∀ vs, items = some vs → ∀ v ∈ vs, Value.Within c v)
      (hcall : ∀ f, call = some f → Function.Within c f) :
      Object.Within c (.mk attributes methods properties items length call printed)

inductive Method.Within (c : Contents) : Method → Prop where
  | bound {f} (h : Function.Within c f) : Method.Within c (.bound f)
  | static {f} (h : Function.Within c f) : Method.Within c (.static f)

inductive Function.Within (c : Contents) : Function → Prop where
  | mk {id body} (arity) (hid : c.callee id) (h : Expr.Within c body) :
      Function.Within c (.mk id arity body)

inductive Expr.Within (c : Contents) : Expr → Prop where
  | literal {v} (h : Value.Within c v) : Expr.Within c (.literal v)
  | argument (i) : Expr.Within c (.argument i)
  | callCount : Expr.Within c .callCount
  | concat {parts} (h : ∀ e ∈ parts, Expr.Within c e) : Expr.Within c (.concat parts)
  | upper {e} (h : Expr.Within c e) : Expr.Within c (.upper e)
  | reverse {e} (h : Expr.Within c e) : Expr.Within c (.reverse e)
  | compute (f) {e} (h : Expr.Within c e) : Expr.Within c (.compute f e)
  | render {e} (h : Expr.Within c e) : Expr.Within c (.render e)
  | member (name) : Expr.Within c (.member name)
  | lambda (arity) {body} (hid : c.callee none) (h : Expr.Within c body) :
      Expr.Within c (.lambda arity body)
  | raise (kind message) : Expr.Within c (.raise kind message)

end

variable {c : Contents}

theorem Function.Within.callee {f : Function} (h : f.Within c) : c.callee f.id := by
  cases h with
  | mk _ hid _ => exact hid

namespace Object.Within

variable {o : Object}

theorem attributes (h : o.Within c) : ∀ entry ∈ o.attributes, entry.2.Within c := by
  cases h with
  | mk _ _ hattributes _ _ _ _ => exact hattributes

theorem methods (h : o.Within c) : ∀ entry ∈ o.methods, entry.2.Within c := by
  cases h with
  | mk _ _ _ hmethods _ _ _ => exact hmethods

theorem properties (h : o.Within c) : ∀ entry ∈ o.properties, entry.2.Within c := by
  cases h with
  | mk _ _ _ _ hproperties _ _ => exact hproperties

theorem items (h : o.Within c) : ∀ vs, o.items = some vs → ∀ v ∈ vs, v.Within c := by
  cases h with
  | mk _ _ _ _ _ hitems _ => exact hitems

theorem call (h : o.Within c) : ∀ f, o.call = some f → f.Within c := by
  cases h with
  | mk _ _ _ _ _ _ hcall => exact hcall

end Object.Within

/-- What can be called has a function inside. -/
theorem Value.Within.exists_callee {v : Value} (h : v.Within c) (hc : v.isCallable = true) :
    ∃ id, c.callee id := by
  cases h with
  | function _ hf _ => exact ⟨_, hf.callee⟩
  | renderer h => exact ⟨_, h⟩
  | object h =>
      obtain ⟨f, hf⟩ := Option.isSome_iff_exists.mp hc
      exact ⟨_, (h.call f hf).callee⟩
  | _ => cases hc

/-! ## Building -/

/-- What is allowed does not change by building it, with identities from `next` on. -/
structure Contents.Lasts (c : Contents) (next : Nat) : Prop where
  callee : ∀ n, next ≤ n → c.callee (some n)
  once : ∀ n, next ≤ n → ∀ items, c.once (some n) items
  rebuilt : ∀ {n items} start, c.once (some n) items →
    c.once (some n) ((Value.buildItems items).run start).1

theorem Contents.Lasts.mono {next later : Nat} (h : c.Lasts next) (hle : next ≤ later) :
    c.Lasts later :=
  ⟨fun n hn => h.callee n (Nat.le_trans hle hn), fun n hn => h.once n (Nat.le_trans hle hn),
    h.rebuilt⟩

namespace Builder

/-- A building step that makes only what is allowed. -/
def Keeps {α : Type} (c : Contents) (K : α → Prop) (step : Builder α) : Prop :=
  ∀ next, c.Lasts next → K (step.run next).1 ∧ next ≤ (step.run next).2

namespace Keeps

variable {α β : Type} {K : α → Prop} {L : β → Prop}

theorem pure {a : α} (h : K a) : Keeps c K (Pure.pure a) := fun _ _ => ⟨h, Nat.le_refl _⟩

theorem bind {step : Builder α} {f : α → Builder β} (h : Keeps c K step)
    (hf : ∀ a, K a → Keeps c L (f a)) : Keeps c L (step >>= f) := by
  intro next hc
  obtain ⟨ha, hle⟩ := h next hc
  obtain ⟨hb, hle'⟩ := hf _ ha _ (hc.mono hle)
  exact ⟨hb, Nat.le_trans hle hle'⟩

theorem identity {id : Identity} (h : c.callee id) : Keeps c c.callee (Builder.identity id) := by
  cases id with
  | some n => exact pure h
  | none => exact fun next hc => ⟨hc.callee next (Nat.le_refl _), Nat.le_succ _⟩

/-- The items of an iterator are built before the iterator itself. -/
theorem iterator {id : Identity} {items : List Value} (ho : c.once id items)
    (h : Keeps c (fun vs => ∀ v ∈ vs, Value.Within c v) (Value.buildItems items)) :
    Keeps c (Value.Within c) (Value.build (.iterator id items)) := by
  intro next hc
  obtain ⟨hi, hle⟩ := h next hc
  cases id with
  | some n => exact ⟨.iterator (hc.rebuilt next ho) hi, hle⟩
  | none => exact ⟨.iterator (hc.once _ hle _) hi, Nat.le_succ_of_le hle⟩

theorem mapM {f : α → Builder β} {items : List α} (hf : ∀ item ∈ items, Keeps c L (f item)) :
    Keeps c (fun bs => ∀ b ∈ bs, L b) (items.mapM f) := by
  induction items with
  | nil => exact pure (by simp)
  | cons item items ih =>
      rw [List.mapM_cons]
      refine bind (hf item List.mem_cons_self) fun b hb => ?_
      refine bind (ih fun item hi => hf item (List.mem_cons_of_mem _ hi)) fun bs hbs => ?_
      exact pure (by simpa using ⟨hb, hbs⟩)

end Keeps

end Builder

open Builder (Keeps)

theorem Function.build_keeps {f : Function} (h : f.Within c) :
    Keeps c (Function.Within c) f.build := by
  obtain ⟨arity, hid, hb⟩ := h
  exact .bind (.identity hid) fun id hid => .pure (.mk arity hid hb)

theorem Method.build_keeps {m : Method} (h : m.Within c) : Keeps c (Method.Within c) m.build := by
  cases h with
  | bound h => exact .bind (Function.build_keeps h) fun f hf => .pure (.bound hf)
  | static h => exact .bind (Function.build_keeps h) fun f hf => .pure (.static hf)

namespace Value

mutual

theorem build_keeps (v : Value) (h : v.Within c) : Keeps c (Value.Within c) v.build := by
  cases h with
  | list h => exact .bind (buildItems_keeps _ h) fun _ hs => .pure (.list hs)
  | tuple h => exact .bind (buildItems_keeps _ h) fun _ hs => .pure (.tuple hs)
  | record name h => exact .bind (buildEntries_keeps _ h) fun _ hs => .pure (.record name hs)
  | dict h => exact .bind (buildEntries_keeps _ h) fun _ hs => .pure (.dict hs)
  | iterator ho h => exact .iterator ho (buildItems_keeps _ h)
  | subView ht h => exact .bind (build_keeps _ h) fun _ hv => .pure (.subView ht hv)
  | @function f receiver bound hf h =>
      have rest : ∀ receiver, (∀ v, receiver = some v → Value.Within c v) →
          Keeps c (Value.Within c) (do return .function (← f.build) receiver bound) :=
        fun receiver hr => .bind (Function.build_keeps hf) fun f hf => .pure (.function bound hf hr)
      cases receiver with
      | none => exact .bind (.pure (by simp)) rest
      | some receiver =>
          refine .bind ?_ rest
          rw [map_eq_pure_bind]
          refine .bind (build_keeps receiver (h receiver rfl)) fun v hv => .pure ?_
          intro w hw
          cases hw
          exact hv
  | object h => exact .bind (buildObject_keeps _ h) fun _ ho => .pure (.object ho)
  | renderer h => exact .pure (.renderer h)
  | _ => exact .pure (by constructor)

theorem buildObject_keeps (o : Object) (h : o.Within c) :
    Keeps c (Object.Within c) (buildObject o) := by
  obtain ⟨attributes, methods, properties, items, length, call, printed⟩ := o
  rw [buildObject]
  refine .bind (buildEntries_keeps attributes h.attributes) fun attributes hattributes => ?_
  refine .bind (.mapM (L := fun entry => Method.Within c entry.2) fun entry he => ?_)
    fun methods hmethods => ?_
  · exact .bind (Method.build_keeps (h.methods entry he)) fun m hm => .pure hm
  refine .bind (.mapM (L := fun entry => Function.Within c entry.2) fun entry he => ?_)
    fun properties hproperties => ?_
  · exact .bind (Function.build_keeps (h.properties entry he)) fun f hf => .pure hf
  have rest : ∀ items, (∀ vs, items = some vs → ∀ v ∈ vs, Value.Within c v) →
      Keeps c (Object.Within c) (do
        let call ← call.mapM Function.build
        return .mk attributes methods properties items length call printed) := by
    intro items hitems
    refine .bind (K := fun call => ∀ f, call = some f → Function.Within c f) ?_ fun call hcall =>
      .pure (.mk length printed hattributes hmethods hproperties hitems hcall)
    cases call with
    | none => exact .pure (by simp)
    | some f =>
        refine .bind (Function.build_keeps (h.call f rfl)) fun g hg => .pure ?_
        intro w hw
        cases hw
        exact hg
  cases items with
  | none => exact .bind (.pure (by simp)) rest
  | some items =>
      refine .bind ?_ rest
      rw [map_eq_pure_bind]
      refine .bind (buildItems_keeps items (h.items items rfl)) fun vs hvs => .pure ?_
      intro w hw
      cases hw
      exact hvs

theorem buildItems_keeps (items : List Value) (h : ∀ v ∈ items, Value.Within c v) :
    Keeps c (fun vs => ∀ v ∈ vs, Value.Within c v) (buildItems items) := by
  cases items with
  | nil => exact .pure h
  | cons item items =>
      obtain ⟨hi, h⟩ := List.forall_mem_cons.mp h
      refine .bind (build_keeps item hi) fun v hv => ?_
      refine .bind (buildItems_keeps items h) fun vs hvs => ?_
      exact .pure (List.forall_mem_cons.mpr ⟨hv, hvs⟩)

theorem buildEntries_keeps (entries : List (Text × Value))
    (h : ∀ entry ∈ entries, Value.Within c entry.2) :
    Keeps c (fun es => ∀ entry ∈ es, Value.Within c entry.2) (buildEntries entries) := by
  cases entries with
  | nil => exact .pure h
  | cons entry entries =>
      obtain ⟨he, h⟩ := List.forall_mem_cons.mp h
      refine .bind (build_keeps entry.2 he) fun v hv => ?_
      refine .bind (buildEntries_keeps entries h) fun es hes => ?_
      exact .pure (List.forall_mem_cons.mpr ⟨hv, hes⟩)

end

end Value

end Whisker
