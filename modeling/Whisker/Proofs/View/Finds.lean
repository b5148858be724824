import Whisker.Proofs.Run.Accord
import Whisker.Scope

/-! Names side by side. Where looking up a name inside two related values is in accord, so is
resolving it in two scopes of related values. -/

namespace Whisker

open Run (Accord)

variable {P : Accord} {V : Value → Value → Prop}

/-! ## Items -/

namespace Value

variable {items items' : List Value}

theorem getElem?_pairs {α β : Type} {R : α → β → Prop} {as : List α} {bs : List β}
    (h : List.Forall₂ R as bs) (i : Nat) : Option.Rel R as[i]? bs[i]? := by
  induction h generalizing i with
  | nil => exact .none
  | cons hab _ ih =>
      cases i with
      | zero => exact .some hab
      | succ i => exact ih i

theorem itemAt?_pairs (h : List.Forall₂ V items items') (i : Int) :
    Option.Rel V (itemAt? items i) (itemAt? items' i) := by
  unfold itemAt?
  rw [h.length_eq]
  split
  · split
    · exact getElem?_pairs h _
    · exact .none
  · exact getElem?_pairs h _

theorem getD_pairs (hm : V .missing .missing) {found found' : Option Value}
    (h : Option.Rel V found found') : V (found.getD .missing) (found'.getD .missing) := by
  cases h with
  | none => exact hm
  | some h => exact h

theorem item_pairs (hm : V .missing .missing) (h : List.Forall₂ V items items') (key : Text) :
    P.Holds V (item items key) (item items' key) := by
  unfold item
  cases Text.readInteger 10 key with
  | ok i => exact P.pure (getD_pairs hm (itemAt?_pairs h i))
  | error e => cases e <;> exact P.throw rfl

theorem eq_missing_of_isMissing {v : Value} (h : v.isMissing = true) : v = .missing := by
  cases v with
  | missing => rfl
  | _ => cases h

end Value

/-! ## Names -/

/-- What is looked up inside related values is related again, and so is what they stand for. -/
structure Run.Accord.Finds (P : Accord) (V : Value → Value → Prop) : Prop where
  missing : V .missing .missing
  isMissing_eq {v w : Value} : V v w → w.isMissing = v.isMissing
  lookup {v w : Value} (h : V v w) (depth : Nat) (key : Text) :
    P.Holds V (v.lookup depth key) (w.lookup depth key)
  settle {v w : Value} : V v w → P.Holds V (Scope.settle v) (Scope.settle w)

namespace Scope

/-- The same labels on related values. -/
def Beside (V : Value → Value → Prop) (scope scope' : Scope) : Prop :=
  List.Forall₂ (fun frame frame' : Frame => V frame.value frame'.value ∧ frame.label = frame'.label)
    scope scope'

theorem Beside.ofView {v w : Value} (h : V v w) : Beside V (ofView v) (ofView w) :=
  .cons ⟨h, rfl⟩ .nil

theorem Beside.push {scope scope' : Scope} (h : Beside V scope scope') {v w : Value} (hvw : V v w)
    (label : Option Text) : Beside V (scope.push v label) (scope'.push w label) :=
  .cons ⟨hvw, rfl⟩ h

variable (F : P.Finds V) {scope scope' : Scope}
include F

theorem resolveHead_pairs (h : Beside V scope scope') (depth : Nat) (name : Text) :
    P.Holds V (scope.resolveHead depth name) (scope'.resolveHead depth name) := by
  induction h with
  | nil => exact P.pure F.missing
  | cons hframe _ ih =>
      obtain ⟨hv, hlabel⟩ := hframe
      simp only [resolveHead, hlabel]
      split
      · exact P.pure hv
      · refine P.bind (F.lookup hv depth name) fun v w hvw => ?_
        have hsame := F.isMissing_eq hvw
        split
        · obtain rfl := Value.eq_missing_of_isMissing hsame
          exact ih
        · rename_i hv
          split
          · exact absurd (Value.eq_missing_of_isMissing hsame.symm) hv
          · exact P.pure hvw

theorem descend_pairs {v w : Value} (h : V v w) (depth : Nat) (names : List Text) :
    P.Holds V (descend depth v names) (descend depth w names) := by
  induction names generalizing v w with
  | nil => exact P.pure h
  | cons name names ih =>
      simp only [descend, F.isMissing_eq h]
      split
      · exact P.pure h
      · exact P.bind (F.settle h) fun v w h => P.bind (F.lookup h depth name) fun v w h => ih h

theorem top_pairs (h : Beside V scope scope') : V scope.top scope'.top := by
  cases h with
  | nil => exact F.missing
  | cons hframe _ => exact hframe.1

theorem reach_pairs (h : Beside V scope scope') (depth : Nat) (name : Text) :
    P.Holds V (scope.reach depth name) (scope'.reach depth name) := by
  unfold reach
  split
  · exact P.pure (top_pairs F h)
  · split
    · exact P.pure F.missing
    · exact P.bind (resolveHead_pairs F h depth _) fun v w h => descend_pairs F h depth _

theorem resolve_pairs (h : Beside V scope scope') (depth : Nat) (name : Text) :
    P.Holds V (scope.resolve depth name) (scope'.resolve depth name) := by
  rw [resolve_eq_settle, resolve_eq_settle]
  exact P.bind (reach_pairs F h depth name) fun v w h => F.settle h

end Scope

end Whisker
