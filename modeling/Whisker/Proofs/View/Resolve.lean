import Mathlib.Tactic.SplitIfs
import Whisker.Filter
import Whisker.Proofs.Run.Logic
import Whisker.Scope
import Whisker.View.Section

/-! Names, sections and filters in the logic of rendering: what resolving a name gives is settled,
and all inside it is allowed where it is in the scope. -/

namespace Whisker

variable {lib : Library} {c : Contents} {function passed : Value → Prop} {kept : Loader → Prop}
  (L : Run.LogicOf lib c function passed kept)

/-! ## Names -/

namespace Value

/-- A value that does not change when it is read. -/
def Settled (v : Value) : Prop := ∀ id items, v ≠ .iterator id items

theorem item_holds {items : List Value} (h : ∀ v ∈ items, v.Within c) (key : Text) :
    L.Holds (Value.Within c) fun _ => item items key := by
  unfold item
  split
  · refine L.pure ?_
    rename_i i _
    cases hi : itemAt? items i with
    | none => exact .missing
    | some v => exact h v (mem_of_itemAt? hi)
  · exact L.throw (by simp)
  · exact L.throw (by simp)

theorem lookup_holds {v : Value} (h : v.Within c) (key : Text) :
    L.Holds (Value.Within c) fun d => lookup d v key := by
  have hpublic := L.publicMember h key
  cases h with
  | @dict entries h =>
      refine L.pure ?_
      cases hf : Entries.get? entries key with
      | none => exact .missing
      | some v => exact h _ (Entries.mem_of_get? hf)
  | list h =>
      simp only [lookup]
      split
      · exact item_holds L h key
      · exact L.pure .missing
  | tuple h =>
      simp only [lookup]
      split
      · exact item_holds L h key
      · exact L.pure .missing
  | record name h =>
      simp only [lookup]
      split
      · exact item_holds L (List.forall_mem_map.mpr h) key
      · exact hpublic
  | missing => exact hpublic
  | iterator => exact hpublic
  | subView => exact hpublic
  | function => exact hpublic
  | renderer => exact hpublic
  | object => exact hpublic
  | _ => exact L.pure .missing

end Value

/-- A scope of allowed frames. -/
def Scope.Within (c : Contents) (scope : Scope) : Prop := ∀ frame ∈ scope, frame.value.Within c

namespace Scope

theorem ofView_within {view : Value} (h : view.Within c) : (ofView view).Within c :=
  List.forall_mem_singleton.mpr h

theorem Within.push {scope : Scope} (h : scope.Within c) {v : Value} (hv : v.Within c)
    (label : Option Text) : Scope.Within c (scope.push v label) :=
  List.forall_mem_cons.mpr ⟨hv, h⟩

theorem Within.top {scope : Scope} (h : scope.Within c) : scope.top.Within c := by
  cases scope with
  | nil => exact .missing
  | cons frame frames => exact h frame List.mem_cons_self

theorem settle_holds {v : Value} (h : v.Within c) :
    L.Holds (fun v => v.Within c ∧ v.Settled) fun _ => settle v := by
  cases h with
  | iterator ho h =>
      refine L.bind (L.meet ho h) fun vs hvs => L.pure ⟨.tuple hvs, ?_⟩
      intro id items he
      cases he
  | renderer h =>
      refine L.pure ⟨.renderer h, ?_⟩
      intro id items he
      cases he
  | _ =>
      refine L.pure ⟨by constructor <;> assumption, ?_⟩
      intro id items he
      cases he

theorem resolveHead_holds (name : Text) {scope : Scope} (h : scope.Within c) :
    L.Holds (Value.Within c) fun d => resolveHead d name scope := by
  induction scope with
  | nil => exact L.pure .missing
  | cons frame frames ih =>
      obtain ⟨hv, h⟩ := List.forall_mem_cons.mp h
      simp only [resolveHead]
      split
      · exact L.pure hv
      · refine L.bind (Value.lookup_holds L hv name) fun v hv => ?_
        split
        · exact ih h
        · exact L.pure hv

theorem descend_holds (names : List Text) {v : Value} (h : v.Within c) :
    L.Holds (Value.Within c) fun d => descend d v names := by
  induction names generalizing v with
  | nil => exact L.pure h
  | cons name names ih =>
      simp only [descend]
      split
      · exact L.pure h
      · refine L.bind (settle_holds L h) fun v hv => ?_
        exact L.bind (Value.lookup_holds L hv.1 name) fun v hv => ih hv

theorem resolve_holds {scope : Scope} (h : scope.Within c) (name : Text) :
    L.Holds (fun v => v.Within c ∧ v.Settled) fun d => resolve d scope name := by
  simp only [resolve]
  split
  · exact settle_holds L h.top
  · split
    · refine L.pure ⟨.missing, ?_⟩
      intro id items he
      cases he
    · refine L.bind (resolveHead_holds L _ h) fun v hv => ?_
      exact L.bind (descend_holds L _ hv) fun v hv => settle_holds L hv

end Scope

/-! ## Sections -/

namespace Object

theorem size?_flat (o : Object) : Flat o.size? := by
  unfold size?
  split
  · exact .ok _
  · split
    · exact .error rfl
    · split
      · exact .error rfl
      · exact .ok _

theorem readItems_flat (o : Object) : Flat o.readItems := by
  have hsize := o.size?_flat
  unfold readItems
  split
  · exact .ok _
  · split
    · rename_i e he
      exact .error (hsize e he)
    · split
      · exact .error rfl
      · exact .ok _

end Object

theorem Reading.items?_flat (v : Value) (heap : Heap) : Flat ((items? v).run heap).1 := by
  cases v with
  | object o => exact o.readItems_flat
  | iterator id items => cases id <;> exact .ok _
  | _ => exact .ok _

namespace SectionValue

/-- A list of allowed items, or a lambda where anything can be called. -/
def Within (c : Contents) : SectionValue → Prop
  | .list items => ∀ v ∈ items, v.Within c
  | .lambda => ∃ id, c.callee id
  | _ => True

theorem ofItems_within {items : List Value} (h : ∀ v ∈ items, v.Within c) :
    (ofItems items).Within c := by
  unfold ofItems
  split
  · trivial
  · exact h

theorem ofValue_holds {v : Value} (h : v.Within c) (hs : v.Settled) :
    L.Holds (SectionValue.Within c) fun _ => ofValue v := by
  unfold ofValue
  split
  · rename_i hc
    exact L.pure (h.exists_callee hc)
  · cases h with
    | iterator => exact absurd rfl (hs _ _)
    | list h => exact L.pure (ofItems_within h)
    | tuple h => exact L.pure (ofItems_within h)
    | record name h => exact L.pure (ofItems_within (List.forall_mem_map.mpr h))
    | buffer content =>
        refine L.pure (ofItems_within (List.forall_mem_map.mpr ?_))
        exact fun b _ => .int _
    | @object o h =>
        refine L.bind (K := fun found => ∀ vs, found = some vs → ∀ v ∈ vs, v.Within c)
          (L.ofExcept o.readItems_flat.conclusive ?_) fun found hfound => ?_
        · intro found hf vs hvs
          subst hvs
          exact h.items vs (Object.items_of_readItems hf)
        · cases found with
          | none => exact L.pure trivial
          | some items => exact L.pure (ofItems_within (hfound items rfl))
    | bool b => cases b <;> exact L.pure trivial
    | text t =>
        refine L.pure ?_
        split <;> trivial
    | bytes content =>
        refine L.pure ?_
        split <;> trivial
    | dict h =>
        refine L.pure ?_
        split <;> trivial
    | _ => exact L.pure trivial

end SectionValue

/-! ## Filters -/

namespace Filter

theorem standard?_flat {name : Text} {f : Value → Except Failure Value}
    (hf : standard? name = some f) (v : Value) : Flat (f v) := by
  rw [standard?] at hf
  split_ifs at hf
  iterate 5
    · cases hf
      exact .ok _
  · cases hf
    refine .map (.bind ?_ fun _ => .ok _) _
    unfold length
    cases v with
    | object o => exact o.size?_flat.map _
    | _ => exact .ok _

theorem standard?_within {name : Text} {f : Value → Except Failure Value} {v w : Value}
    (hf : standard? name = some f) (h : f v = .ok w) : w.Within c := by
  rw [standard?] at hf
  split_ifs at hf
  iterate 5
    · cases hf
      cases h
      exact .text _
  · cases hf
    dsimp only at h
    cases hl : length v with
    | error e =>
        rw [hl] at h
        cases h
    | ok n =>
        rw [hl] at h
        cases h
        exact .int _

theorem applyAll_holds {own : Entries Value} (ho : ∀ entry ∈ own, function entry.2)
    (names : List Text) {v : Value} (h : passed v) :
    L.Holds passed fun d => applyAll d own names v := by
  refine L.foldlM h fun name _ v hv => ?_
  unfold apply
  split
  · rename_i f _ hf
    exact L.apply (ho _ (Entries.mem_of_get? hf)) hv
  · rename_i f _ hf
    exact L.ofExcept (standard?_flat hf v).conclusive fun w hw =>
      L.passed_of_within (standard?_within hf hw)
  · exact L.throw (by simp)

end Filter

end Whisker
