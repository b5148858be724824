import Whisker.Proofs.Run.Tame
import Whisker.Proofs.View.Calls
import Whisker.Proofs.View.Resolve

/-! Calls, names, sections and filters are tame. Where the scope is passive, names resolve to
passive values, so that no section is a lambda. -/

namespace Whisker

open Run (Tame taming)

variable {lib : Library} {chains : List Text → Prop}

/-! ## Accord -/

theorem Run.taming_looks : (taming lib chains).Looks .anything where
  build {v} _ := ((Tame.build v).mono fun w _ => w.within_anything).same
  countCall {id} _ := (Tame.countCall id).same
  tryCatch h hf := .tryCatch h fun e he => hf e (Tame.same (.fail he))

/-! ## Calls -/

theorem Value.call_tame {render : Text → Run Text}
    (hr : ∀ t, Tame lib chains (fun _ => True) (render t)) (depth : Nat) (args : List Value)
    (v : Value) : Tame lib chains (fun _ => True) (v.call depth render args) :=
  .ofSame (Run.taming_looks.call (fun t => (hr t).same) depth args v)

/-- A call that is tame, with a receiver, arguments and members that are passive. -/
structure Call.Passive (lib : Library) (chains : List Text → Prop) (c : Call) : Prop
    extends Call.Within (taming lib chains).toAccord .anything c.render c where
  args_passive : ∀ v ∈ c.args, v.Passive
  receiver_passive : ∀ v, c.receiver = some v → v.Passive
  member_passive : ∀ v name, v.Passive → Tame lib chains Value.Passive (c.member v name)

theorem Expr.eval_passive {c : Call} (hc : c.Passive lib chains) {e : Expr} (h : e.Passive) :
    Tame lib chains Value.Passive (e.eval c) := by
  have hpart (e : Expr) : Tame lib chains (fun _ => True) (e.eval c) :=
    .ofSame (e.eval_same Run.taming_looks.toCalls hc.toWithin e.within_anything).any
  cases h with
  | @literal v h => exact (Tame.build v).mono fun w hw => hw h
  | argument i =>
      rw [eval, Call.argument]
      cases hi : c.args[i]? with
      | none => exact .throw rfl
      | some v => exact .pure (hc.args_passive v (List.mem_of_getElem? hi))
  | callCount => exact .pure (.int _)
  | concat parts =>
      have hparts : Tame lib chains (fun _ => True) (evalTexts c parts) :=
        .ofSame (evalTexts_same Run.taming_looks.toCalls hc.toWithin parts fun e _ =>
          e.within_anything)
      exact .bind hparts fun t _ => .pure (.text t)
  | upper e | reverse e | compute f e => exact .bind (hpart e) fun v _ => .pure (.text _)
  | render e =>
      refine .bind (hpart (.argument 1)) fun function _ => .bind (hpart e) fun v _ => ?_
      split
      · exact .bind (.ofSame (hc.render _)) fun t _ => .pure (.text t)
      · exact .throw rfl
  | member name =>
      rw [eval]
      split
      · rename_i receiver hr
        exact hc.member_passive receiver name (hc.receiver_passive receiver hr)
      · exact .throw rfl
  | raise kind message => exact .throw rfl

theorem Function.Passive.invoke_tame {f : Function} (h : f.Passive) {depth : Nat}
    {receiver : Option Value} (hreceiver : ∀ v, receiver = some v → v.Passive)
    (hm : ∀ v name, v.Passive → Tame lib chains Value.Passive (Value.member depth v name)) :
    Tame lib chains Value.Passive
      (f.invoke (Value.member depth) Value.cannotRender receiver []) := by
  unfold Function.invoke
  split
  · exact .throw rfl
  · rename_i bound hb
    refine .bind (.countCall f.id) fun count _ => ?_
    refine Expr.eval_passive ⟨⟨?_, ?_, ?_, ?_⟩, ?_, hreceiver, hm⟩ h.body
    · exact fun v _ => v.within_anything
    · exact fun v _ => v.within_anything
    · exact fun v name hv => Value.member_same Run.taming_looks.toCalls depth hv name
    · exact Value.cannotRender_same
    · intro v hv
      obtain hv | rfl := Arity.mem_of_bind? hb v hv
      · cases hv
      · exact .text _

namespace Value

theorem member_passive (depth : Nat) {v : Value} (h : v.Passive) (name : Text) :
    Tame lib chains Passive (member depth v name) := by
  induction depth generalizing v name with
  | zero => exact .throw rfl
  | succ depth ih =>
      cases h with
      | @object o h =>
          rw [member, h.methods_eq]
          split
          · rename_i hf
            have hproperty := h.properties _ (Entries.mem_of_get? hf)
            have hreceiver : ∀ v, some (Value.object o) = some v → v.Passive := by
              rintro _ ⟨⟩
              exact .object h
            exact hproperty.invoke_tame hreceiver fun v name hv => ih hv name
          · rename_i hvalue
            exact .pure (h.attributes _ (Entries.mem_of_get? hvalue))
          · rename_i hf
            cases hf
          · rename_i hf
            cases hf
          · exact .throw rfl
      | record name h =>
          rw [member]
          split
          · rename_i field hfield
            exact .pure (h _ (Entries.mem_of_get? hfield))
          · exact .throw rfl
      | _ => exact .throw rfl

/-! ## Names -/

theorem inherited_passive : Inherited Passive where
  missing := .missing
  entry h := by
    cases h with
    | dict h => exact h
  item hi h := by
    cases h with
    | list h | tuple h =>
        cases hi
        exact h
    | record name h =>
        cases hi
        exact List.forall_mem_map.mpr h
    | buffer content =>
        cases hi
        exact List.forall_mem_map.mpr fun b _ => .int _
    | object h => exact h.items _ hi
    | _ => cases hi
  iterated h := by
    cases h with
    | iterator _ h => exact h

/-- No passive member is a function. -/
theorem publicMember_passive (depth : Nat) {v : Value} (h : v.Passive) (key : Text) :
    Tame lib chains Passive (publicMember depth v key) := by
  unfold publicMember
  split
  · exact .pure .missing
  · have hfound : Tame lib chains Passive _ := .ofSame
      (orMissing_same Run.taming_looks .missing (member_passive depth h key).same)
    refine .bind hfound fun found hfound => ?_
    split
    · cases hfound
    · exact .pure hfound

theorem passive_names : (taming lib chains).Names Passive where
  toInherited := inherited_passive
  publicMember h depth key := (publicMember_passive depth h key).same
  meet {n _} h := by
    cases h with
    | iterator _ h => exact ((Tame.meetIterator n h).mono fun vs => Passive.tuple).same

end Value

namespace Scope

def Passive (scope : Scope) : Prop := ∀ frame ∈ scope, frame.value.Passive

theorem resolve_tame (depth : Nat) {scope : Scope} (h : scope.Passive) (name : Text) :
    Tame lib chains Value.Passive (resolve depth scope name) :=
  .ofSame (Value.passive_names.resolve h depth name)

end Scope

/-! ## Sections -/

namespace SectionValue

/-- A list has passive items, and nothing is a lambda. -/
def Passive : SectionValue → Prop
  | .list items => ∀ v ∈ items, v.Passive
  | .lambda => False
  | _ => True

theorem ofItems_passive {items : List Value} (h : ∀ v ∈ items, v.Passive) :
    (ofItems items).Passive := by
  unfold ofItems
  split
  · trivial
  · exact h

theorem readItems_tame {v : Value} (h : v.Passive) :
    Tame lib chains (fun found => ∀ vs, found = some vs → ∀ w ∈ vs, w.Passive)
      (Run.read (Reading.items? v)) := by
  refine .read fun heap => ?_
  cases hr : ((Reading.items? v).run heap).1 with
  | ok found =>
      rintro vs rfl
      exact Value.inherited_passive.of_read h hr
  | error e => exact (Reading.items?_flat v heap).reports hr

theorem ofFound_tame {v : Value} (h : v.Passive) : Tame lib chains Passive (do
    match ← Run.read (Reading.items? v) with
    | some items => return ofItems items
    | none => return .frame) := by
  refine .bind (readItems_tame h) fun found hfound => ?_
  cases found with
  | none => exact .pure trivial
  | some items => exact .pure (ofItems_passive (hfound items rfl))

theorem ofValue_tame {v : Value} (h : v.Passive) : Tame lib chains Passive (ofValue v) := by
  unfold ofValue
  rw [h.not_isCallable]
  have hread : Tame lib chains _ _ := ofFound_tame h
  cases h with
  | missing | null => exact .pure trivial
  | bool b =>
      cases b
      · exact .pure trivial
      · exact hread
  | text | bytes | dict =>
      refine .pure ?_
      split <;> trivial
  | _ => exact hread

end SectionValue

/-! ## Filters -/

namespace Filter

theorem applyAll_tame (depth : Nat) (own : Entries Value) (names : List Text) (v : Value) :
    Tame lib chains (fun _ => True) (applyAll depth own names v) := by
  refine .foldlM trivial fun name _ v _ => ?_
  unfold apply
  split
  · exact Value.call_tame (fun _ => .throw rfl) _ _ _
  · rename_i f _ hf
    exact .ofExcept (standard?_flat hf v) fun _ _ => trivial
  · exact .throw rfl

end Filter

end Whisker
