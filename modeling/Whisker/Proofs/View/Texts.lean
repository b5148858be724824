import Whisker.Proofs.Run.Guards
import Whisker.Proofs.View.Finds
import Whisker.View.Section

/-! Plain data with other texts in it. Looking up names finds the same places, because keys and
indices are all that it looks at. -/

namespace Whisker

open Run (Guards)

namespace Value

mutual

/-- Whether a value is built of nothing but texts, truth values, lists and dictionaries. -/
def isPlain : Value → Bool
  | .missing | .null | .bool _ | .text _ => true
  | .list items => arePlain items
  | .dict entries => holdPlain entries
  | _ => false

def arePlain : List Value → Bool
  | [] => true
  | item :: items => isPlain item && arePlain items

def holdPlain : List (Text × Value) → Bool
  | [] => true
  | (_, value) :: entries => isPlain value && holdPlain entries

end

mutual

/-- The value with `f t` in place of each text `t`; the keys stay. -/
def mapTexts (f : Text → Text) : Value → Value
  | .text t => .text (f t)
  | .list items => .list (mapItems f items)
  | .dict entries => .dict (mapEntries f entries)
  | v => v

def mapItems (f : Text → Text) : List Value → List Value
  | [] => []
  | item :: items => mapTexts f item :: mapItems f items

def mapEntries (f : Text → Text) : List (Text × Value) → List (Text × Value)
  | [] => []
  | (key, value) :: entries => (key, mapTexts f value) :: mapEntries f entries

end

variable {f : Text → Text}

mutual

theorem isPlain_mapTexts {v : Value} (h : v.isPlain = true) : (v.mapTexts f).isPlain = true := by
  cases v with
  | missing | null | bool | text => rfl
  | list items => exact arePlain_mapItems h
  | dict entries => exact holdPlain_mapEntries h
  | _ => cases h

theorem arePlain_mapItems {items : List Value} (h : arePlain items = true) :
    arePlain (mapItems f items) = true := by
  cases items with
  | nil => rfl
  | cons item items =>
      rw [arePlain, Bool.and_eq_true] at h
      exact Bool.and_eq_true_iff.mpr ⟨isPlain_mapTexts h.1, arePlain_mapItems h.2⟩

theorem holdPlain_mapEntries {entries : List (Text × Value)} (h : holdPlain entries = true) :
    holdPlain (mapEntries f entries) = true := by
  cases entries with
  | nil => rfl
  | cons entry entries =>
      obtain ⟨key, value⟩ := entry
      rw [holdPlain, Bool.and_eq_true] at h
      exact Bool.and_eq_true_iff.mpr ⟨isPlain_mapTexts h.1, holdPlain_mapEntries h.2⟩

end

/-- `w` is the plain value `v` with other texts. -/
def Retexted (f : Text → Text) (v w : Value) : Prop := v.isPlain = true ∧ w = v.mapTexts f

variable {alarm : Failure}

theorem retexted_missing : Retexted f .missing .missing := ⟨rfl, rfl⟩

theorem retexted_items {items : List Value} (h : arePlain items = true) :
    List.Forall₂ (Retexted f) items (mapItems f items) := by
  induction items with
  | nil => exact .nil
  | cons item items ih =>
      rw [arePlain, Bool.and_eq_true] at h
      exact .cons ⟨h.1, rfl⟩ (ih h.2)

theorem retexted_get? {entries : Entries Value} (h : holdPlain entries = true) (key : Text) :
    Option.Rel (Retexted f) (entries.get? key) (Entries.get? (mapEntries f entries) key) := by
  induction entries with
  | nil => exact .none
  | cons entry entries ih =>
      obtain ⟨known, value⟩ := entry
      rw [holdPlain, Bool.and_eq_true] at h
      rw [mapEntries, Entries.get?, Entries.get?]
      split
      · exact .some ⟨h.1, rfl⟩
      · exact ih h.2

/-! ## Names -/

theorem lookup_guards {v w : Value} (h : Retexted f v w) (depth : Nat) (key : Text) :
    Guards alarm (Retexted f) (v.lookup depth key) (w.lookup depth key) := by
  obtain ⟨hv, rfl⟩ := h
  cases v with
  | null => exact .pure retexted_missing
  | bool b => exact .pure retexted_missing
  | text t => exact .pure retexted_missing
  | list items =>
      rw [isPlain] at hv
      simp only [mapTexts, lookup]
      split
      · exact item_pairs (P := (Run.guarding alarm).toAccord) retexted_missing (retexted_items hv) key
      · exact .pure retexted_missing
  | dict entries =>
      rw [isPlain] at hv
      exact .pure (getD_pairs retexted_missing (retexted_get? hv key))
  | missing =>
      simp only [mapTexts, lookup, publicMember]
      split
      · exact .pure retexted_missing
      · cases depth with
        | zero => exact .throw .tooDeep
        | succ depth => exact .pure retexted_missing
  | _ => cases hv

theorem isMissing_eq {v w : Value} (h : Retexted f v w) : w.isMissing = v.isMissing := by
  obtain ⟨-, rfl⟩ := h
  cases v <;> rfl

end Value

namespace Scope

/-- The same labels, and in place of plain frames these with other texts. -/
def Retexted (f : Text → Text) (scope scope' : Scope) : Prop :=
  List.Forall₂ (fun frame frame' : Frame => Value.Retexted f frame.value frame'.value ∧
    frame.label = frame'.label) scope scope'

variable {f : Text → Text} {alarm : Failure}

theorem settle_guards {v w : Value} (h : Value.Retexted f v w) :
    Guards alarm (Value.Retexted f) (settle v) (settle w) := by
  obtain ⟨hplain, rfl⟩ := id h
  cases v with
  | missing | null | bool | text | list | dict => exact .pure h
  | _ => cases hplain

theorem retexted_finds : (Run.guarding alarm).Finds (Value.Retexted f) :=
  ⟨Value.retexted_missing, Value.isMissing_eq, Value.lookup_guards, settle_guards⟩

theorem resolve_guards {scope scope' : Scope} (h : scope.Retexted f scope') (depth : Nat)
    (name : Text) :
    Guards alarm (Value.Retexted f) (scope.resolve depth name) (scope'.resolve depth name) :=
  resolve_pairs retexted_finds h depth name

end Scope

end Whisker
