import Whisker.Proofs.View.Finds
import Whisker.Proofs.View.Identity

/-! Calls of the functions of a view, in any accord. They build values, count themselves and render
texts: where these three give the same, so does the call, by one induction over the bodies of
functions, and so does looking up a name. -/

namespace Whisker

open Run (Accord)

variable {P : Accord} {c : Contents}

/-- Building values within `c` and counting the calls of their functions give the same. -/
structure Run.Accord.Calls (P : Accord) (c : Contents) : Prop where
  build {v : Value} (h : v.Within c) : P.Same (Value.Within c) (Run.build v) (Run.build v)
  countCall {id : Identity} (h : c.callee id) :
    P.Same (fun _ => True) (Run.countCall id) (Run.countCall id)

theorem Run.Accord.Calls.ofReflexive (hP : P.Reflexive) : P.Calls .anything where
  build _ := P.mono (hP _) fun a _ hab => ⟨hab, a.within_anything⟩
  countCall _ := P.mono (hP _) fun _ _ hab => ⟨hab, trivial⟩

/-! ## Bodies -/

/-- The call brings only what is within `c` into the body of a function, and renders texts as
`render` does. -/
structure Call.Within (P : Accord) (c : Contents) (render : Text → Run Text) (call : Call) :
    Prop where
  args : ∀ v ∈ call.args, v.Within c
  receiver : ∀ v, call.receiver = some v → v.Within c
  member : ∀ v name, v.Within c →
    P.Same (Value.Within c) (call.member v name) (call.member v name)
  render : ∀ t, P.Same (fun _ => True) (call.render t) (render t)

theorem Call.argument_same {call : Call} (h : ∀ v ∈ call.args, v.Within c) (i : Nat) :
    P.Same (Value.Within c) (call.argument i) (call.argument i) := by
  rw [argument]
  cases hi : call.args[i]? with
  | none => exact .throw rfl
  | some v => exact .pure (h v (List.mem_of_getElem? hi))

namespace Expr

mutual

theorem eval_same (C : P.Calls c) {call : Call} {render : Text → Run Text}
    (hc : call.Within P c render) (e : Expr) (h : e.Within c) :
    P.Same (Value.Within c) (e.eval call) (e.eval { call with render }) := by
  cases h with
  | literal h => exact C.build h
  | argument i => exact call.argument_same hc.args i
  | callCount => exact .pure (.int _)
  | concat h => exact .bind (evalTexts_same C hc _ h) fun t _ => .pure (.text t)
  | upper h => exact .bind (eval_same C hc _ h) fun v _ => .pure (.text _)
  | reverse h => exact .bind (eval_same C hc _ h) fun v _ => .pure (.text _)
  | compute f h => exact .bind (eval_same C hc _ h) fun v _ => .pure (.text _)
  | render h =>
      refine .bind (call.argument_same hc.args 1) fun function _ => ?_
      refine .bind (eval_same C hc _ h) fun v _ => ?_
      dsimp only
      split
      · exact .bind (hc.render _) fun t _ => .pure (.text t)
      · exact .throw rfl
  | member name =>
      rw [eval, eval]
      dsimp only
      split
      · rename_i receiver hr
        exact hc.member receiver name (hc.receiver receiver hr)
      · exact .throw rfl
  | lambda arity hid h => exact C.build (.function _ (.mk _ hid h) hc.receiver)
  | raise kind message => exact .throw rfl

theorem evalTexts_same (C : P.Calls c) {call : Call} {render : Text → Run Text}
    (hc : call.Within P c render) (es : List Expr) (h : ∀ e ∈ es, Expr.Within c e) :
    P.Same (fun _ => True) (evalTexts call es) (evalTexts { call with render } es) := by
  cases es with
  | nil => exact .pure trivial
  | cons e es =>
      obtain ⟨he, h⟩ := List.forall_mem_cons.mp h
      refine .bind (eval_same C hc e he) fun v _ => ?_
      exact .bind (evalTexts_same C hc es h) fun t _ => .pure trivial

end

end Expr

theorem Arity.within_of_bind? {arity : Arity} {args bound : List Value}
    (hb : arity.bind? args = some bound) (h : ∀ v ∈ args, v.Within c) : ∀ v ∈ bound, v.Within c := by
  intro v hv
  obtain hv | rfl := mem_of_bind? hb v hv
  · exact h v hv
  · exact .text _

section

variable (C : P.Calls c)
include C

theorem Function.invoke_same {member : Value → Text → Run Value} {render render' : Text → Run Text}
    {receiver : Option Value} {args : List Value} {f : Function}
    (hm : ∀ v name, v.Within c → P.Same (Value.Within c) (member v name) (member v name))
    (hr : ∀ t, P.Same (fun _ => True) (render t) (render' t))
    (hreceiver : ∀ v, receiver = some v → v.Within c) (hargs : ∀ v ∈ args, v.Within c)
    (h : f.Within c) :
    P.Same (Value.Within c) (f.invoke member render receiver args)
      (f.invoke member render' receiver args) := by
  obtain ⟨arity, hid, hbody⟩ := h
  rw [invoke, invoke]
  split
  · exact .throw rfl
  · rename_i bound hb
    refine .bind (C.countCall hid) fun count _ => ?_
    have hcall : Call.Within P c render' ⟨bound, count, receiver, member, render⟩ :=
      ⟨Arity.within_of_bind? hb hargs, hreceiver, hm, hr⟩
    exact Expr.eval_same C hcall _ hbody

/-! ## Members -/

namespace Value

omit C in
theorem cannotRender_same (t : Text) :
    P.Same (fun _ => True) (cannotRender t) (cannotRender t) := .throw rfl

theorem member_same (depth : Nat) {v : Value} (h : v.Within c) (name : Text) :
    P.Same (Value.Within c) (member depth v name) (member depth v name) := by
  induction depth generalizing v name with
  | zero => exact .throw rfl
  | succ depth ih =>
      cases h with
      | object h =>
          rename_i o
          rw [member]
          split
          · rename_i f _ _ hf
            refine Function.invoke_same C (fun v name hv => ih hv name) cannotRender_same ?_
              (by simp) (h.properties _ (Entries.mem_of_get? hf))
            intro w hw
            cases hw
            exact .object h
          · rename_i value _ _ hv
            exact .pure (h.attributes _ (Entries.mem_of_get? hv))
          · rename_i f _ _ hf
            cases h.methods _ (Entries.mem_of_get? hf) with
            | bound hf =>
                refine .pure (.function _ hf ?_)
                intro w hw
                cases hw
                exact .object h
          · rename_i f _ _ hf
            cases h.methods _ (Entries.mem_of_get? hf) with
            | static hf => exact .pure (.function _ hf (by simp))
          · exact .throw rfl
      | record _ h =>
          rw [member]
          split
          · rename_i field hf
            exact .pure (h _ (Entries.mem_of_get? hf))
          · exact .throw rfl
      | subView _ h =>
          rw [member]
          split
          · exact .pure (.text _)
          · split
            · exact .pure h
            · exact .throw rfl
      | _ => exact .throw rfl

theorem call_same (depth : Nat) {render render' : Text → Run Text} {args : List Value} {v : Value}
    (hr : ∀ t, P.Same (fun _ => True) (render t) (render' t)) (hargs : ∀ v ∈ args, v.Within c)
    (h : v.Within c) :
    P.Same (Value.Within c) (v.call depth render args) (v.call depth render' args) := by
  have hm : ∀ v name, v.Within c →
      P.Same (Value.Within c) (member depth v name) (member depth v name) :=
    fun v name hv => member_same C depth hv name
  cases h with
  | function bound hf hreceiver => exact Function.invoke_same C hm hr hreceiver hargs hf
  | object h =>
      rw [call, call]
      split
      · rename_i f hf
        refine Function.invoke_same C hm hr ?_ hargs (h.call f hf)
        intro w hw
        cases hw
        exact .object h
      · exact .throw rfl
  | _ => exact .throw rfl

end Value

end

/-- A call of anything gives the same where what it renders does. -/
theorem Run.Accord.Calls.call (C : P.Calls .anything) {render render' : Text → Run Text}
    (hr : ∀ t, P.Same (fun _ => True) (render t) (render' t)) (depth : Nat) (args : List Value)
    (v : Value) :
    P.Same (fun _ => True) (v.call depth render args) (v.call depth render' args) :=
  (v.call_same C depth hr (fun arg _ => arg.within_anything) v.within_anything).any

theorem Value.call_pairs (hP : P.Reflexive) {render render' : Text → Run Text}
    (hr : ∀ t, P.Holds (· = ·) (render t) (render' t)) (depth : Nat) (args : List Value)
    (v : Value) : P.Holds (· = ·) (v.call depth render args) (v.call depth render' args) := by
  have hsame : ∀ t, P.Same (fun _ => True) (render t) (render' t) :=
    fun t => P.mono (hr t) fun _ _ h => ⟨h, trivial⟩
  exact (Run.Accord.Calls.call (.ofReflexive hP) hsame depth args v).eq

/-! ## Names -/

/-- Catching a failure gives the same too, if what is done then does for each failure that may be
thrown. -/
structure Run.Accord.Looks (P : Accord) (c : Contents) : Prop extends P.Calls c where
  tryCatch {α : Type} {K : α → Prop} {x : Run α} {f : Failure → Run α} (h : P.Same K x x)
    (hf : ∀ e, P.Same K (MonadExcept.throw e) (MonadExcept.throw e) → P.Same K (f e) (f e)) :
    P.Same K (MonadExcept.tryCatch x f) (MonadExcept.tryCatch x f)

namespace Value

variable {K : Value → Prop}

/-- A name without a member stands for nothing. -/
theorem orMissing_same (L : P.Looks c) {x : Run Value} (hm : K .missing) (h : P.Same K x x) :
    P.Same K (tryCatch x fun e => if saysNoMember e then return .missing else throw e)
      (tryCatch x fun e => if saysNoMember e then return .missing else throw e) := by
  refine L.tryCatch h fun e he => ?_
  split
  · exact .pure hm
  · exact he

theorem publicMember_same (L : P.Looks c) (depth : Nat) {v : Value} (h : v.Within c) (key : Text) :
    P.Same (Within c) (publicMember depth v key) (publicMember depth v key) := by
  rw [publicMember]
  split
  · exact .pure .missing
  · refine .bind (orMissing_same L .missing (member_same L.toCalls depth h key))
      fun found hfound => ?_
    split
    · split
      · exact call_same L.toCalls depth cannotRender_same (by simp) hfound
      · exact .pure hfound
    · exact .pure hfound

/-- A property of values that the entries and the items inside them have as well. -/
structure Inherited (K : Value → Prop) : Prop where
  missing : K .missing
  entry {entries : List (Text × Value)} : K (.dict entries) → ∀ entry ∈ entries, K entry.2
  item {v : Value} {items : List Value} : v.items? = some items → K v → ∀ w ∈ items, K w
  iterated {id : Identity} {items : List Value} : K (.iterator id items) → ∀ w ∈ items, K w

theorem inherited_true : Inherited fun _ => True := ⟨trivial, by simp, by simp, by simp⟩

theorem inherited_within (c : Contents) : Inherited (Within c) where
  missing := .missing
  entry h := by
    cases h with
    | dict h => exact h
  item hi h := by
    cases h with
    | list h | tuple h =>
        cases hi
        exact h
    | record name h =>
        cases hi
        exact List.forall_mem_map.mpr h
    | buffer content =>
        cases hi
        exact List.forall_mem_map.mpr fun b _ => .int _
    | object h => exact h.items _ hi
    | _ => cases hi
  iterated h := by
    cases h with
    | iterator _ h => exact h

/-- What is read from a value is inside it, or nothing where the value is a drained iterator. -/
theorem Inherited.of_read (I : Inherited K) {v : Value} (h : K v) {heap : Heap}
    {items : List Value} (hr : ((Reading.items? v).run heap).1 = .ok (some items)) :
    ∀ w ∈ items, K w := by
  cases v with
  | iterator id read =>
      cases id with
      | none =>
          cases hr
          exact I.iterated h
      | some n =>
          have hread : some (if heap.drained.contains n then (([] : List Value), heap)
              else (read, heap.drain n)).1 = some items := Except.ok.inj hr
          split at hread
          · cases hread
            simp
          · cases hread
            exact I.iterated h
  | object o => exact I.item (v := .object o) (Object.items_of_readItems hr) h
  | _ => exact I.item (Except.ok.inj hr) h

theorem lookup_same (I : Inherited K) {depth : Nat} {v : Value} {key : Text} (h : K v)
    (hpublic : P.Same K (publicMember depth v key) (publicMember depth v key)) :
    P.Same K (lookup depth v key) (lookup depth v key) := by
  have hitem {items : List Value} (hi : v.items? = some items) :
      P.Same K (item items key) (item items key) :=
    item_pairs ⟨rfl, I.missing⟩ (List.forall₂_same.mpr fun w hw => ⟨rfl, I.item hi h w hw⟩) key
  cases v with
  | dict entries =>
      refine .pure ?_
      cases hf : Entries.get? entries key with
      | none => exact I.missing
      | some w => exact I.entry h _ (Entries.mem_of_get? hf)
  | list items | tuple items =>
      rw [lookup]
      split
      · exact hitem rfl
      · exact .pure I.missing
  | record name fields =>
      rw [lookup]
      split
      · exact hitem rfl
      · exact hpublic
  | missing | iterator | subView | function | renderer | object => exact hpublic
  | _ => exact .pure I.missing

end Value

/-- Names lead from values of which `K` holds to such values again, by the same way. -/
structure Run.Accord.Names (P : Accord) (K : Value → Prop) : Prop extends Value.Inherited K where
  publicMember {v : Value} (h : K v) (depth : Nat) (key : Text) :
    P.Same K (v.publicMember depth key) (v.publicMember depth key)
  meet {id : Identity} {items : List Value} (h : K (.iterator id items)) :
    P.Same (fun vs => K (.tuple vs)) (Run.meetIterator id items) (Run.meetIterator id items)

theorem Run.Accord.Looks.names (L : P.Looks .anything)
    (hm : ∀ id items, P.Same (fun _ => True) (Run.meetIterator id items)
      (Run.meetIterator id items)) : P.Names fun _ => True where
  toInherited := Value.inherited_true
  publicMember {v} _ depth key := (v.publicMember_same L depth v.within_anything key).any
  meet _ := hm _ _

namespace Run.Accord.Names

variable {K : Value → Prop} (N : P.Names K)
include N

theorem lookup {v : Value} (h : K v) (depth : Nat) (key : Text) :
    P.Same K (v.lookup depth key) (v.lookup depth key) :=
  Value.lookup_same N.toInherited h (N.publicMember h depth key)

theorem settle {v : Value} (h : K v) : P.Same K (Scope.settle v) (Scope.settle v) := by
  cases v with
  | iterator id items => exact .bind (N.meet h) fun vs hvs => .pure hvs
  | _ => exact .pure h

theorem finds : P.Finds fun v w => v = w ∧ K v where
  missing := ⟨rfl, N.missing⟩
  isMissing_eq := by
    rintro v _ ⟨rfl, -⟩
    rfl
  lookup := by
    rintro v _ ⟨rfl, h⟩
    exact N.lookup h
  settle := by
    rintro v _ ⟨rfl, h⟩
    exact N.settle h

variable {scope : Scope} (h : ∀ frame ∈ scope, K frame.value) (depth : Nat) (name : Text)
include h

omit N in
theorem beside : Scope.Beside (fun v w => v = w ∧ K v) scope scope :=
  List.forall₂_same.mpr fun frame hf => ⟨⟨rfl, h frame hf⟩, rfl⟩

theorem reach : P.Same K (scope.reach depth name) (scope.reach depth name) :=
  Scope.reach_pairs N.finds (beside h) depth name

theorem resolve : P.Same K (scope.resolve depth name) (scope.resolve depth name) :=
  Scope.resolve_pairs N.finds (beside h) depth name

end Run.Accord.Names

end Whisker
