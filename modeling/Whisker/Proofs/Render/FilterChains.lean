import Mathlib.Data.List.Forall2
import Whisker.Proofs.Render.Variables
import Whisker.Proofs.Text.Search

/-! Filters behind bars. Each gets what the one before it gave, up to the first that is unknown. -/

namespace Whisker

namespace Filter

open Text (strip)

/-! ## Functions -/

/-- The function that a filter stands for, if the engine knows it. -/
def function? (depth : Nat) (own : Entries Value) (name : Text) : Option (Value → Run Value) :=
  match own.get? name with
  | some f => some fun v => f.call depth Value.cannotRender [v]
  | none => (standard? name).map fun f v => ExceptT.mk (pure (f v))

variable {depth : Nat} {own : Entries Value} {names : List Text}
  {functions : List (Value → Run Value)}

theorem apply_known {name : Text} {f : Value → Run Value} (h : function? depth own name = some f)
    (v : Value) : apply depth own name v = f v := by
  rw [function?] at h
  rw [apply]
  cases hown : own.get? name with
  | some g =>
      rw [hown] at h
      cases h
      rfl
  | none =>
      rw [hown] at h
      obtain ⟨g, hg, rfl⟩ := Option.map_eq_some_iff.mp h
      rw [hg]

theorem apply_unknown {name : Text} (h : function? depth own name = none) (v : Value) :
    apply depth own name v = throw (.unknownFilter name) := by
  rw [function?] at h
  rw [apply]
  cases hown : own.get? name with
  | some g =>
      rw [hown] at h
      cases h
  | none =>
      rw [hown] at h
      rw [Option.map_eq_none_iff.mp h]

/-- These are the functions that the names stand for. -/
def Stand (depth : Nat) (own : Entries Value) (names : List Text)
    (functions : List (Value → Run Value)) : Prop :=
  List.Forall₂ (fun name f => function? depth own name = some f) names functions

theorem applyAll_known (h : Stand depth own names functions) (v : Value) :
    applyAll depth own names v = functions.foldlM (fun w f => f w) v := by
  rw [applyAll]
  induction h generalizing v with
  | nil => rfl
  | cons hf _ ih =>
      rw [List.foldlM_cons, List.foldlM_cons, apply_known hf]
      exact bind_congr ih

/-- What comes behind an unknown filter is not looked at. -/
theorem applyAll_unknown (h : Stand depth own names functions) {unknown : Text}
    (hunknown : function? depth own unknown = none) (rest : List Text) (v : Value) :
    applyAll depth own (names ++ unknown :: rest) v = (do
      let _ ← functions.foldlM (fun w f => f w) v
      throw (.unknownFilter unknown)) := by
  have hknown := applyAll_known h v
  rw [applyAll] at hknown
  rw [applyAll, List.foldlM_append, hknown]
  apply bind_congr
  intro w
  rw [List.foldlM_cons, apply_unknown hunknown]
  rfl

/-! ## Names -/

/-- The parts of a name between bars count without the blanks around them, and the empty ones
behind the first do not count. -/
theorem split_flatMap {head : Text} {parts : List Text} (hhead : '|' ∉ head)
    (hparts : ∀ part ∈ parts, '|' ∉ part) :
    split (head ++ parts.flatMap ('|' :: ·)) =
      (strip head, (parts.map strip).filter (!·.isEmpty)) := by
  have hpieces : Text.pieces (· = '|') (head ++ parts.flatMap ('|' :: ·)) = head :: parts :=
    Text.pieces_flatMap (by simp) (Text.forall_ne_of_not_mem hhead) fun part hp =>
      Text.forall_ne_of_not_mem (hparts part hp)
  rw [split, hpieces, List.map_cons]

end Filter

namespace Render

open Whisker.Filter (Stand function?)

variable (stage : Stage) {depth : Nat} {site : Site} {names : List Text}
  {functions : List (Value → Run Value)} {v : Value}

/-- The text of a value as its tag asks for it; what is null has none. -/
def shown (stage : Stage) (depth : Nat) (isEscaped : Bool) (v : Value) : Run Piece :=
  match v with
  | .null => return .text []
  | v => if isEscaped then escaped stage depth v.toText else return .text v.toText

theorem inserted_missing (isEscaped : Bool) (names : List Text) (h : v.isMissing = true) :
    inserted stage depth isEscaped names v = pure (.text []) := by
  rw [inserted, if_pos h]

theorem inserted_of_not_missing (isEscaped : Bool) (names : List Text) (h : v.isMissing = false) :
    inserted stage depth isEscaped names v =
      Filter.applyAll depth stage.filters names v >>= shown stage depth isEscaped := by
  rw [inserted, if_neg (by simp [h])]
  rfl

/-- Where filters are in force, a tag with bars inserts what its filters make of its value. -/
theorem run_filtered {head : Text} {parts : List Text} {store after : Store}
    (hfilters : site.pragmas.isEnabled Pragmas.filters = true) (hhead : '|' ∉ head)
    (hparts : ∀ part ∈ parts, '|' ∉ part)
    (h : (site.scope.resolve depth (Text.strip head)).run store = (.ok v, after))
    (hv : v.isCallable = false) (isEscaped : Bool) (place : Place) :
    (node stage (depth + 1) site
      (.variable (head ++ parts.flatMap ('|' :: ·)) isEscaped place)).run store =
        (do
          let piece ← inserted stage depth isEscaped
            ((parts.map Text.strip).filter (!·.isEmpty)) v
          return (piece, site.pragmas) : Run (Piece × Pragmas)).run after := by
  have hread : readName site.pragmas (head ++ parts.flatMap ('|' :: ·)) =
      (Text.strip head, (parts.map Text.strip).filter (!·.isEmpty)) := by
    rw [readName, if_pos hfilters, Filter.split_flatMap hhead hparts]
  have hresolve : (site.scope.resolve depth
      (readName site.pragmas (head ++ parts.flatMap ('|' :: ·))).1).run store =
        (.ok v, after) := by
    rw [hread]
    exact h
  have hrun := run_variable stage (inOrder (node stage depth)) hresolve hv isEscaped
  rw [hread] at hrun
  rw [node, step, Fallible.run_bind, hrun, Fallible.run_bind]

end Render

end Whisker
