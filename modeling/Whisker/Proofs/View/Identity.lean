import Whisker.Proofs.Fallible
import Whisker.Proofs.View.Contents
import Whisker.View.Heap

/-! Identities in values, and heaps that remember the same of them. -/

namespace Whisker

/-! ## Identities -/

/-- An identity that a function or iterator has is one of those in `P`. -/
def Identity.IsIn (P : Nat → Prop) (id : Identity) : Prop := ∀ n, id = some n → P n

mutual

/-- All identities inside the value are in `P`. -/
inductive Value.IdsIn (P : Nat → Prop) : Value → Prop where
  | missing : Value.IdsIn P .missing
  | null : Value.IdsIn P .null
  | bool (b) : Value.IdsIn P (.bool b)
  | int (i) : Value.IdsIn P (.int i)
  | float (x) : Value.IdsIn P (.float x)
  | text (t) : Value.IdsIn P (.text t)
  | bytes (content) : Value.IdsIn P (.bytes content)
  | buffer (content) : Value.IdsIn P (.buffer content)
  | list {items} (h : ∀ v ∈ items, Value.IdsIn P v) : Value.IdsIn P (.list items)
  | tuple {items} (h : ∀ v ∈ items, Value.IdsIn P v) : Value.IdsIn P (.tuple items)
  | record (name) {fields} (h : ∀ field ∈ fields, Value.IdsIn P field.2) :
      Value.IdsIn P (.record name fields)
  | dict {entries} (h : ∀ entry ∈ entries, Value.IdsIn P entry.2) : Value.IdsIn P (.dict entries)
  | iterator {id items} (hid : Identity.IsIn P id) (h : ∀ v ∈ items, Value.IdsIn P v) :
      Value.IdsIn P (.iterator id items)
  | subView (template) {view} (h : Value.IdsIn P view) : Value.IdsIn P (.subView template view)
  | function {f receiver} (bound) (hf : Function.IdsIn P f)
      (h : ∀ v, receiver = some v → Value.IdsIn P v) : Value.IdsIn P (.function f receiver bound)
  | renderer : Value.IdsIn P .renderer
  | object {o} (h : Object.IdsIn P o) : Value.IdsIn P (.object o)

inductive Object.IdsIn (P : Nat → Prop) : Object → Prop where
  | mk {attributes methods properties items length call printed}
      (hattributes : ∀ entry ∈ attributes, Value.IdsIn P entry.2)
      (hmethods : ∀ entry ∈ methods, Method.IdsIn P entry.2)
      (hproperties : ∀ entry ∈ properties, Function.IdsIn P entry.2)
      (hitems : ∀ vs, items = some vs → ∀ v ∈ vs, Value.IdsIn P v)
      (hcall : ∀ f, call = some f → Function.IdsIn P f) :
      Object.IdsIn P (.mk attributes methods properties items length call printed)

inductive Method.IdsIn (P : Nat → Prop) : Method → Prop where
  | bound {f} (h : Function.IdsIn P f) : Method.IdsIn P (.bound f)
  | static {f} (h : Function.IdsIn P f) : Method.IdsIn P (.static f)

inductive Function.IdsIn (P : Nat → Prop) : Function → Prop where
  | mk {id body} (arity) (hid : Identity.IsIn P id) (h : Expr.IdsIn P body) :
      Function.IdsIn P (.mk id arity body)

inductive Expr.IdsIn (P : Nat → Prop) : Expr → Prop where
  | literal {v} (h : Value.IdsIn P v) : Expr.IdsIn P (.literal v)
  | argument (i) : Expr.IdsIn P (.argument i)
  | callCount : Expr.IdsIn P .callCount
  | concat {parts} (h : ∀ e ∈ parts, Expr.IdsIn P e) : Expr.IdsIn P (.concat parts)
  | upper {e} (h : Expr.IdsIn P e) : Expr.IdsIn P (.upper e)
  | reverse {e} (h : Expr.IdsIn P e) : Expr.IdsIn P (.reverse e)
  | compute (f) {e} (h : Expr.IdsIn P e) : Expr.IdsIn P (.compute f e)
  | render {e} (h : Expr.IdsIn P e) : Expr.IdsIn P (.render e)
  | member (name) : Expr.IdsIn P (.member name)
  | lambda (arity) {body} (h : Expr.IdsIn P body) : Expr.IdsIn P (.lambda arity body)
  | raise (kind message) : Expr.IdsIn P (.raise kind message)

end

variable {P : Nat → Prop}

theorem Entries.sizeOf_lt_of_mem {β : Type} [SizeOf β] {entry : Text × β} {entries : Entries β}
    (h : entry ∈ entries) : sizeOf entry.2 < sizeOf entries := by
  have hlt := List.sizeOf_lt_of_mem h
  obtain ⟨name, b⟩ := entry
  simp only [Prod.mk.sizeOf_spec] at hlt
  dsimp only
  omega

mutual

/-- Where all identities are in `P`, so are those of any value. -/
theorem Value.idsIn_of_forall (h : ∀ n, P n) (v : Value) : v.IdsIn P := by
  cases v with
  | list items => exact .list fun v hv => Value.idsIn_of_forall h v
  | tuple items => exact .tuple fun v hv => Value.idsIn_of_forall h v
  | record name fields =>
      refine .record name fun field hf => ?_
      have := Entries.sizeOf_lt_of_mem hf
      exact Value.idsIn_of_forall h field.2
  | dict entries =>
      refine .dict fun entry he => ?_
      have := Entries.sizeOf_lt_of_mem he
      exact Value.idsIn_of_forall h entry.2
  | iterator id items => exact .iterator (fun n _ => h n) fun v hv => Value.idsIn_of_forall h v
  | subView template view => exact .subView template (Value.idsIn_of_forall h view)
  | function f receiver bound =>
      refine .function bound (Function.idsIn_of_forall h f) ?_
      cases receiver with
      | none => simp
      | some receiver =>
          intro w hw
          cases hw
          exact Value.idsIn_of_forall h receiver
  | object o => exact .object (Object.idsIn_of_forall h o)
  | _ => constructor
termination_by sizeOf v

theorem Object.idsIn_of_forall (h : ∀ n, P n) (o : Object) : o.IdsIn P := by
  obtain ⟨attributes, methods, properties, items, length, call, printed⟩ := o
  refine .mk (fun entry he => ?_) (fun entry he => ?_) (fun entry he => ?_) ?_ ?_
  · have := Entries.sizeOf_lt_of_mem he
    exact Value.idsIn_of_forall h entry.2
  · have := Entries.sizeOf_lt_of_mem he
    exact Method.idsIn_of_forall h entry.2
  · have := Entries.sizeOf_lt_of_mem he
    exact Function.idsIn_of_forall h entry.2
  · cases items with
    | none => simp
    | some items =>
        intro vs hvs v hv
        cases hvs
        exact Value.idsIn_of_forall h v
  · cases call with
    | none => simp
    | some f =>
        intro w hw
        cases hw
        exact Function.idsIn_of_forall h f
termination_by sizeOf o

theorem Method.idsIn_of_forall (h : ∀ n, P n) (m : Method) : m.IdsIn P := by
  cases m with
  | bound f => exact .bound (Function.idsIn_of_forall h f)
  | static f => exact .static (Function.idsIn_of_forall h f)
termination_by sizeOf m

theorem Function.idsIn_of_forall (h : ∀ n, P n) (f : Function) : f.IdsIn P := by
  cases f with
  | mk id arity body => exact .mk arity (fun n _ => h n) (Expr.idsIn_of_forall h body)
termination_by sizeOf f

theorem Expr.idsIn_of_forall (h : ∀ n, P n) (e : Expr) : e.IdsIn P := by
  cases e with
  | literal v => exact .literal (Value.idsIn_of_forall h v)
  | concat parts => exact .concat fun e he => Expr.idsIn_of_forall h e
  | upper e => exact .upper (Expr.idsIn_of_forall h e)
  | reverse e => exact .reverse (Expr.idsIn_of_forall h e)
  | compute f e => exact .compute f (Expr.idsIn_of_forall h e)
  | render e => exact .render (Expr.idsIn_of_forall h e)
  | lambda arity body => exact .lambda arity (Expr.idsIn_of_forall h body)
  | _ => constructor
termination_by sizeOf e

end

/-- Iterators and functions with identities in `P`. -/
def Contents.identities (P : Nat → Prop) : Contents :=
  ⟨fun id _ => id.IsIn P, Identity.IsIn P, fun _ => True⟩

mutual

theorem Value.IdsIn.within {v : Value} : v.IdsIn P → v.Within (.identities P)
  | .missing => .missing
  | .null => .null
  | .bool b => .bool b
  | .int i => .int i
  | .float x => .float x
  | .text t => .text t
  | .bytes content => .bytes content
  | .buffer content => .buffer content
  | .list h => .list fun v hv => (h v hv).within
  | .tuple h => .tuple fun v hv => (h v hv).within
  | .record name h => .record name fun field hf => (h field hf).within
  | .dict h => .dict fun entry he => (h entry he).within
  | .iterator hid h => .iterator hid fun v hv => (h v hv).within
  | .subView _ h => .subView trivial h.within
  | .function bound hf h => .function bound hf.within fun v hv => (h v hv).within
  | .renderer => .renderer (show (Contents.identities P).callee none by rintro n ⟨⟩)
  | .object h => .object h.within

theorem Object.IdsIn.within {o : Object} : o.IdsIn P → o.Within (.identities P)
  | .mk hattributes hmethods hproperties hitems hcall =>
      .mk _ _ (fun entry he => (hattributes entry he).within)
        (fun entry he => (hmethods entry he).within)
        (fun entry he => (hproperties entry he).within)
        (fun vs hvs v hv => (hitems vs hvs v hv).within) fun f hf => (hcall f hf).within

theorem Method.IdsIn.within {m : Method} : m.IdsIn P → m.Within (.identities P)
  | .bound h => .bound h.within
  | .static h => .static h.within

theorem Function.IdsIn.within {f : Function} : f.IdsIn P → f.Within (.identities P)
  | .mk arity hid h => .mk arity hid h.within

theorem Expr.IdsIn.within {e : Expr} : e.IdsIn P → e.Within (.identities P)
  | .literal h => .literal h.within
  | .argument i => .argument i
  | .callCount => .callCount
  | .concat h => .concat fun e he => (h e he).within
  | .upper h => .upper h.within
  | .reverse h => .reverse h.within
  | .compute f h => .compute f h.within
  | .render h => .render h.within
  | .member name => .member name
  | .lambda arity h => .lambda arity (by rintro n ⟨⟩) h.within
  | .raise kind message => .raise kind message

end

/-- Contents within which every value is. -/
abbrev Contents.anything : Contents := .identities fun _ => True

theorem Value.within_anything (v : Value) : v.Within .anything :=
  (v.idsIn_of_forall fun _ => trivial).within

theorem Expr.within_anything (e : Expr) : e.Within .anything :=
  (e.idsIn_of_forall fun _ => trivial).within

/-- Identities that are handed out from now on may be in a value as well. -/
theorem Contents.lasts_identities {next : Nat} (h : ∀ n, next ≤ n → P n) :
    (identities P).Lasts next := by
  refine ⟨fun n hn => ?_, fun n hn _ => ?_, fun _ ho => ho⟩
  · rintro _ ⟨⟩
    exact h n hn
  · rintro _ ⟨⟩
    exact h n hn

/-! ## Heaps -/

/-- Two heaps that remember the same of an identity. -/
structure Heap.SameAt (h h' : Heap) (n : Nat) : Prop where
  calls : h.callsOf n = h'.callsOf n
  drained : n ∈ h.drained ↔ n ∈ h'.drained

/-- Two heaps that remember the same of the identities in `P`, and of all that are still to come. -/
structure Heap.Alike (P : Nat → Prop) (h h' : Heap) : Prop where
  next : h.nextIdentity = h'.nextIdentity
  fresh : ∀ n, h.nextIdentity ≤ n → P n
  same : ∀ n, P n → h.SameAt h' n

namespace Heap

theorem SameAt.refl (h : Heap) (n : Nat) : h.SameAt h n := ⟨rfl, Iff.rfl⟩

theorem lookup_filter_ne (calls : List (Nat × Nat)) {id n : Nat} (hn : n ≠ id) :
    (calls.filter (·.1 ≠ id)).lookup n = calls.lookup n := by
  induction calls with
  | nil => rfl
  | cons call calls ih =>
      obtain ⟨known, k⟩ := call
      by_cases hk : known = id
      · subst hk
        simpa [List.lookup_cons, beq_false_of_ne hn] using ih
      · simp only [ne_eq, hk, not_false_eq_true, decide_true, List.filter_cons_of_pos,
          List.lookup_cons]
        rw [← ih]

theorem callsOf_count (h : Heap) (id n : Nat) :
    (h.count id).callsOf n = if n = id then h.callsOf id + 1 else h.callsOf n := by
  rw [count]
  by_cases hn : n = id
  · subst hn
    simp [callsOf]
  · simp only [callsOf, List.lookup_cons, beq_false_of_ne hn, if_neg hn, lookup_filter_ne _ hn]

theorem mem_drain (h : Heap) (id n : Nat) :
    n ∈ (h.drain id).drained ↔ n = id ∨ n ∈ h.drained := by
  by_cases hn : n = id <;> simp [drain, hn]

theorem Alike.count {h h' : Heap} (ha : Alike P h h') {id : Nat} (hid : P id) :
    Alike P (h.count id) (h'.count id) := by
  refine ⟨ha.next, ha.fresh, fun n hn => ⟨?_, (ha.same n hn).drained⟩⟩
  rw [callsOf_count, callsOf_count, (ha.same n hn).calls, (ha.same id hid).calls]

theorem Alike.drain {h h' : Heap} (ha : Alike P h h') (id : Nat) :
    Alike P (h.drain id) (h'.drain id) := by
  refine ⟨ha.next, ha.fresh, fun n hn => ⟨(ha.same n hn).calls, ?_⟩⟩
  rw [mem_drain, mem_drain, (ha.same n hn).drained]

end Heap

namespace Reading

open Fallible

theorem iterator_steady {K : Value → Prop} {id : Identity} {items : List Value} (hid : id.IsIn P)
    (h : ∀ v ∈ items, K v) :
    Steady (Heap.Alike P) (fun vs => ∀ v ∈ vs, K v) (iterator id items) := by
  cases id with
  | none => exact .pure h
  | some n =>
      refine .modifyGet fun s t hst => ?_
      have hd : s.drained.contains n = t.drained.contains n := by
        rw [Bool.eq_iff_iff, List.contains_iff_mem, List.contains_iff_mem]
        exact (hst.same n (hid n rfl)).drained
      rw [← hd]
      split
      · exact ⟨rfl, by simp, hst⟩
      · exact ⟨rfl, h, hst.drain n⟩

end Reading

end Whisker
