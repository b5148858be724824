import Whisker.Proofs.Render.Ending
import Whisker.Proofs.Run.Yields

/-! Views with nothing to call. Objects may compute what they have, as long as no name leads to
anything that can be called. -/

namespace Whisker

open Run (Yields OnHeap)

namespace Value

theorem lookup_onHeap (depth : Nat) (v : Value) (key : Text) : OnHeap (lookup depth v key) :=
  .ofLeaves fun start => lookup_leaves (Run.heapOnly_durable start) depth v key

/-! ## Views -/

/-- None of these values can be called, and names and sections lead from them only to others of
them. Their sub-views have such templates. -/
structure Uncalled (template : Text → Prop) (V : Value → Prop) : Prop where
  missing : V .missing
  drained : V (.tuple [])
  not_isCallable {v : Value} : V v → v.isCallable = false
  lookup {v : Value} : V v → ∀ depth key (store : Store) found,
    ((v.lookup depth key).run store).1 = .ok found → V found
  item {v : Value} : V v → ∀ heap items, ((Reading.items? v).run heap).1 = .ok (some items) →
    ∀ w ∈ items, V w
  tuple {id : Identity} {items : List Value} : V (.iterator id items) → V (.tuple items)
  subView {t : Text} {view : Value} : V (.subView t view) → template t ∧ V view

/-- Neither the value nor any that it leads to can be called. -/
def CallFree (template : Text → Prop) (v : Value) : Prop := ∃ V, Uncalled template V ∧ V v

section

variable {template : Text → Prop} {v : Value} (h : v.Within (.data template))
include h

theorem Within.publicMember_yields (depth : Nat) (key : Text) :
    Yields (fun _ => True) (Within (.data template)) (publicMember depth v key) := by
  cases depth with
  | zero =>
      unfold publicMember
      split
      · exact .pure .missing
      · exact .bind (K := fun _ => False) (.throw .tooDeep) fun _ hf => hf.elim
  | succ depth =>
      obtain ⟨found, hfound, hmember⟩ := h.publicMember_eq key
      rw [hmember]
      exact .pure hfound

theorem Within.lookup_yields (depth : Nat) (key : Text) :
    Yields (fun _ => True) (Within (.data template)) (v.lookup depth key) :=
  .ofSame (lookup_same (inherited_within _) h (h.publicMember_yields depth key).same)

end

/-- Data has nothing to call. -/
theorem uncalled_data (template : Text → Prop) : Uncalled template (Within (.data template)) where
  missing := .missing
  drained := .tuple (by simp)
  not_isCallable h := h.isCallable_eq_false
  lookup h depth key store found hrun := (h.lookup_yields depth key store trivial).2 found hrun
  item h _ _ hi := (inherited_within _).of_read h hi
  tuple h := by
    cases h with
    | iterator _ h => exact .tuple h
  subView h := by
    cases h with
    | subView ht h => exact ⟨ht, h⟩

theorem Within.callFree {template : Text → Prop} {v : Value} (h : v.Within (.data template)) :
    v.CallFree template :=
  ⟨Within (.data template), uncalled_data template, h⟩

end Value

end Whisker
