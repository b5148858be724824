import Whisker.Proofs.View.Identity

/-! Passive views: data with nothing that can be called and no views with templates of their own.
Objects may still compute some of what they have, as long as that is passive too. -/

namespace Whisker

mutual

inductive Value.Passive : Value → Prop where
  | missing : Value.Passive .missing
  | null : Value.Passive .null
  | bool (b) : Value.Passive (.bool b)
  | int (i) : Value.Passive (.int i)
  | float (x) : Value.Passive (.float x)
  | text (t) : Value.Passive (.text t)
  | bytes (content) : Value.Passive (.bytes content)
  | buffer (content) : Value.Passive (.buffer content)
  | list {items} (h : ∀ v ∈ items, Value.Passive v) : Value.Passive (.list items)
  | tuple {items} (h : ∀ v ∈ items, Value.Passive v) : Value.Passive (.tuple items)
  | record (name) {fields} (h : ∀ field ∈ fields, Value.Passive field.2) :
      Value.Passive (.record name fields)
  | dict {entries} (h : ∀ entry ∈ entries, Value.Passive entry.2) : Value.Passive (.dict entries)
  | iterator (id) {items} (h : ∀ v ∈ items, Value.Passive v) : Value.Passive (.iterator id items)
  | object {o} (h : Object.Passive o) : Value.Passive (.object o)

inductive Object.Passive : Object → Prop where
  | mk {attributes properties items} (length printed)
      (hattributes : ∀ entry ∈ attributes, Value.Passive entry.2)
      (hproperties : ∀ entry ∈ properties, Function.Passive entry.2)
      (hitems : ∀ vs, items = some vs → ∀ v ∈ vs, Value.Passive v) :
      Object.Passive (.mk attributes [] properties items length none printed)

/-- What the function of a property gives is passive. -/
inductive Function.Passive : Function → Prop where
  | mk (id arity) {body} (h : Expr.Passive body) : Function.Passive (.mk id arity body)

/-- The expression gives passive values, if its arguments and members are passive. -/
inductive Expr.Passive : Expr → Prop where
  | literal {v} (h : Value.Passive v) : Expr.Passive (.literal v)
  | argument (i) : Expr.Passive (.argument i)
  | callCount : Expr.Passive .callCount
  | concat (parts) : Expr.Passive (.concat parts)
  | upper (e) : Expr.Passive (.upper e)
  | reverse (e) : Expr.Passive (.reverse e)
  | compute (f e) : Expr.Passive (.compute f e)
  | render (e) : Expr.Passive (.render e)
  | member (name) : Expr.Passive (.member name)
  | raise (kind message) : Expr.Passive (.raise kind message)

end

theorem Function.Passive.body {f : Function} (h : f.Passive) : f.body.Passive := by
  cases h with
  | mk _ _ h => exact h

namespace Object.Passive

variable {o : Object} (h : o.Passive)
include h

theorem attributes : ∀ entry ∈ o.attributes, entry.2.Passive := by
  cases h with
  | mk _ _ hattributes _ _ => exact hattributes

theorem methods_eq : o.methods = [] := by
  cases h
  rfl

theorem properties : ∀ entry ∈ o.properties, entry.2.Passive := by
  cases h with
  | mk _ _ _ hproperties _ => exact hproperties

theorem items : ∀ vs, o.items = some vs → ∀ v ∈ vs, v.Passive := by
  cases h with
  | mk _ _ _ _ hitems => exact hitems

theorem call_eq : o.call = none := by
  cases h
  rfl

end Object.Passive

theorem Value.Passive.not_isCallable {v : Value} (h : v.Passive) : v.isCallable = false := by
  cases h with
  | object h => rw [isCallable, h.call_eq, Option.isSome_none]
  | _ => rfl

/-! ## Building -/

open Builder (Keeps)

theorem Function.build_passive {f : Function} (h : f.Passive) :
    Keeps .anything Function.Passive f.build := by
  obtain ⟨id, arity, hb⟩ := h
  exact .bind (.identity fun _ _ => trivial) fun id _ => .pure (.mk id arity hb)

namespace Value

mutual

theorem build_passive (v : Value) (h : v.Passive) : Keeps .anything Passive v.build := by
  cases h with
  | list h => exact .bind (buildItems_passive _ h) fun _ hs => .pure (.list hs)
  | tuple h => exact .bind (buildItems_passive _ h) fun _ hs => .pure (.tuple hs)
  | record name h => exact .bind (buildEntries_passive _ h) fun _ hs => .pure (.record name hs)
  | dict h => exact .bind (buildEntries_passive _ h) fun _ hs => .pure (.dict hs)
  | iterator id h =>
      refine .bind (buildItems_passive _ h) fun _ hs => ?_
      exact .bind (.identity fun _ _ => trivial) fun id _ => .pure (.iterator id hs)
  | object h => exact .bind (buildObject_passive _ h) fun _ ho => .pure (.object ho)
  | _ => exact .pure (by constructor)

theorem buildObject_passive (o : Object) (h : o.Passive) :
    Keeps .anything Object.Passive (buildObject o) := by
  obtain ⟨attributes, methods, properties, items, length, call, printed⟩ := o
  obtain rfl : methods = [] := h.methods_eq
  obtain rfl : call = none := h.call_eq
  rw [buildObject]
  refine .bind (buildEntries_passive attributes h.attributes) fun attributes hattributes => ?_
  rw [List.mapM_nil, pure_bind]
  refine .bind (.mapM (L := fun entry => Function.Passive entry.2) fun entry he => ?_)
    fun properties hproperties => ?_
  · exact .bind (Function.build_passive (h.properties entry he)) fun f hf => .pure hf
  have rest : ∀ items, (∀ vs, items = some vs → ∀ v ∈ vs, Passive v) →
      Keeps .anything Object.Passive (do
        let call ← none.mapM Function.build
        return .mk attributes [] properties items length call printed) :=
    fun items hitems => .pure (.mk length printed hattributes hproperties hitems)
  cases items with
  | none => exact .bind (.pure (by simp)) rest
  | some items =>
      refine .bind ?_ rest
      rw [map_eq_pure_bind]
      refine .bind (buildItems_passive items (h.items items rfl)) fun vs hvs => .pure ?_
      rintro _ ⟨⟩
      exact hvs

theorem buildItems_passive (items : List Value) (h : ∀ v ∈ items, Passive v) :
    Keeps .anything (fun vs => ∀ v ∈ vs, Passive v) (buildItems items) := by
  cases items with
  | nil => exact .pure h
  | cons item items =>
      obtain ⟨hi, h⟩ := List.forall_mem_cons.mp h
      refine .bind (build_passive item hi) fun v hv => ?_
      refine .bind (buildItems_passive items h) fun vs hvs => ?_
      exact .pure (List.forall_mem_cons.mpr ⟨hv, hvs⟩)

theorem buildEntries_passive (entries : List (Text × Value))
    (h : ∀ entry ∈ entries, Passive entry.2) :
    Keeps .anything (fun es => ∀ entry ∈ es, Passive entry.2) (buildEntries entries) := by
  cases entries with
  | nil => exact .pure h
  | cons entry entries =>
      obtain ⟨he, h⟩ := List.forall_mem_cons.mp h
      refine .bind (build_passive entry.2 he) fun v hv => ?_
      refine .bind (buildEntries_passive entries h) fun es hes => ?_
      exact .pure (List.forall_mem_cons.mpr ⟨hv, hes⟩)

end

end Value

end Whisker
