import Whisker.Proofs.Engine.History
import Whisker.Proofs.Render.Veiled

/-! What objects keep to themselves stays with them: no template tells two views apart that differ
only under names that are not public. -/

namespace Whisker.Engine

open Run (veiling)

theorem rootOf_veiled {view view' : Value} (h : view.SameOutside view') :
    Agree Value.SameOutside (rootOf view) (rootOf view') := by
  have hsame : Agree Value.SameOutside (.ok view) (.ok view') := .ok h
  cases h with
  | null => exact .ok (.dict .nil)
  | bool | int | float | text | bytes | buffer | list | tuple | record => exact .error _
  | _ => exact hsame

/-- Private names are never exposed: whatever objects anywhere in the view have under them, as
attributes, methods or properties that no other member uses, each template renders to the same text
or fails in the same way, and leaves the engine the same. -/
theorem renderStep_veiled (engine : Engine) (depth : Nat) (template : Text) {view view' : Value}
    (h : view.SameOutside view') (partials : Entries Text) :
    engine.renderStep depth template view partials =
      engine.renderStep depth template view' partials := by
  unfold renderStep
  generalize hroot : rootOf view = result
  generalize hroot' : rootOf view' = result'
  obtain hroots : Agree Value.SameOutside result result' := hroot ▸ hroot' ▸ rootOf_veiled h
  cases hroots with
  | error e => rfl
  | ok hroots =>
      refine bind_congr fun document => Run.afresh_eq ?_
      exact Render.document_veiled (engine.stage partials) depth hroots document.nodes

/-- An object with a public attribute, which its one public method gives in capitals. -/
def safe (attributes : Entries Value) (methods : Entries Method) (properties : Entries Function) :
    Object :=
  .mk ((['n'], .text ['v']) :: attributes)
    ((['m'], .bound (.mk (some 0) (.exactly 0) (.upper (.member ['n'])))) :: methods) properties
    none none none []

theorem safe_discreet {attributes : Entries Value} {methods : Entries Method}
    {properties : Entries Function}
    (ha : ∀ entry ∈ attributes, Text.isPublic entry.1 = false ∧ entry.2.IsBuilt)
    (hm : ∀ entry ∈ methods, Text.isPublic entry.1 = false ∧ entry.2.IsBuilt)
    (hp : ∀ entry ∈ properties, Text.isPublic entry.1 = false ∧ entry.2.IsBuilt) :
    (safe attributes methods properties).Discreet Text.isPublic where
  methods := List.forall_mem_cons.mpr
    ⟨fun _ => .upper (.member rfl), fun entry he hS => absurd (hm entry he).1 (by simp [hS])⟩
  properties entry he hS := absurd (hp entry he).1 (by simp [hS])
  call := nofun
  hidden_attributes := List.forall_mem_cons.mpr ⟨nofun, fun entry he _ => (ha entry he).2⟩
  hidden_methods := List.forall_mem_cons.mpr ⟨nofun, fun entry he _ => (hm entry he).2⟩
  hidden_properties entry he _ := (hp entry he).2

def emptySafe : Object := safe [] [] []

/-- There are secrets in it, and its private method reads one. -/
def fullSafe : Object :=
  safe [("_a".toList, .text ['1'])]
    [("_m".toList, .bound (.mk (some 1) .any (.member "_a".toList)))]
    [("_p".toList, .mk (some 2) (.exactly 0) (.literal (.text ['3'])))]

def safeView (o : Object) : Value := .dict [(['o'], .list [.object o])]

def safeTemplate : Text := "{{#o}}{{m}}{{_m}}{{/o}}".toList

theorem safes_veiled :
    (safeView fullSafe).SameOutside (safeView emptySafe) ∧ ∃ engine,
      create .empty .standard (some (.memory 1 [])) none [] none (.fresh 3) = .ok engine ∧
      ((engine.renderStep 9 safeTemplate (safeView emptySafe) []).run engine.store).1 =
        .ok ['V'] ∧
      engine.renderStep 9 safeTemplate (safeView fullSafe) [] =
        engine.renderStep 9 safeTemplate (safeView emptySafe) [] := by
  have hsafes : fullSafe.Veiled Text.isPublic emptySafe := by
    refine .mk (.cons _ (.refl _ _) .nil) (.cons _ (.refl _) .nil) .nil .none rfl .none rfl
      (safe_discreet ?_ ?_ ?_) (safe_discreet (by simp) (by simp) (by simp))
    all_goals exact List.forall_mem_singleton.mpr ⟨rfl, fun _ => rfl⟩
  have hviews : (safeView fullSafe).SameOutside (safeView emptySafe) :=
    .dict (.cons _ (.list (.cons (.object (fun _ => id) hsafes) .nil)) .nil)
  obtain ⟨engine, h⟩ : ∃ engine,
    create .empty .standard (some (.memory 1 [])) none [] none (.fresh 3) = .ok engine := ⟨_, rfl⟩
  refine ⟨hviews, engine, h, ?_, renderStep_veiled engine 9 safeTemplate hviews []⟩
  have ht : Library.template ⟨.empty, .memory 1 [], .standard⟩ [] safeTemplate =
    .ok [.enclosure .plain ['o'] [.variable ['m'] true ⟨6, 1, 7⟩,
      .variable "_m".toList true ⟨11, 1, 12⟩] "{{m}}{{_m}}".toList .standard .start []] := by cbv
  have hroot : rootOf (safeView emptySafe) = .ok (safeView emptySafe) := rfl
  obtain ⟨loader, -, hrun⟩ := run_renderStep_of_create h hroot ht 9
  exact hrun.trans rfl

end Whisker.Engine
