import Whisker.Proofs.Engine.History
import Whisker.Proofs.Render.Limits

/-! Engines with relaxed limits. What an engine renders, and any failure of it that is not for a
limit, stays the same where its limits are relaxed. -/

namespace Whisker.Engine

open Failure (IsLimit)
open Run (Excuses)

theorem renderStep_excuses {engine : Engine} {relaxed : Settings}
    (h : engine.settings.Relaxes relaxed) (depth : Nat) (template : Text) (view : Value)
    (partials : Entries Text) :
    Excuses IsLimit (· = ·) (engine.renderStep depth template view partials)
      ({ engine with settings := relaxed }.renderStep depth template view partials) := by
  unfold renderStep
  cases rootOf view with
  | error e => exact .refl _
  | ok root =>
      refine (Run.excusing IsLimit).bind_eq (.refl _) fun document => ?_
      apply Excuses.afresh
      exact Render.Bond.document_pairs (Render.Bond.relaxing_equal (engine.stage partials) h).calls
        (Render.initialPragmas_excuses h) rfl (fun _ _ => trivial) depth

theorem create_relaxed {files : FileTree} {settings relaxed : Settings}
    (hr : settings.Relaxes relaxed) (resolver : Option Resolver) (escape : Option Value)
    (filters : Entries Value) (environment : Option Text) (heap : Heap) :
    create files relaxed resolver escape filters environment heap =
      (create files settings resolver escape filters environment heap).map
        ({ · with settings := relaxed }) := by
  have hstandard : standardResolver files relaxed = standardResolver files settings := by
    rw [hr.eq]
    rfl
  have hcache : relaxed.cache = settings.cache := by rw [hr.eq]
  have hdelimiters : relaxed.delimiters = settings.delimiters := by rw [hr.eq]
  unfold create
  rw [hstandard, hcache, hdelimiters]
  cases resolver with
  | some given => rfl
  | none => cases standardResolver files settings <;> rfl

/-- An engine is made with relaxed settings wherever it is made at all. After any session the two
then do the same for any rendering: they give the same text or failure and come into the same state,
unless the first one fails for a limit. -/
theorem renderStep_relaxed {files : FileTree} {settings relaxed : Settings}
    {resolver : Option Resolver} {escape : Option Value} {filters : Entries Value}
    {environment : Option Text} {heap : Heap} {engine : Engine}
    (h : create files settings resolver escape filters environment heap = .ok engine)
    (hr : settings.Relaxes relaxed) :
    create files relaxed resolver escape filters environment heap =
        .ok { engine with settings := relaxed } ∧
      ∀ session depth template view partials,
        let current := engine.after session
        let other := { current with settings := relaxed }
        let outcome := (current.renderStep depth template view partials).run current.store
        (∀ e, IsLimit e → outcome.1 ≠ .error e) →
          (other.renderStep depth template view partials).run other.store = outcome := by
  constructor
  · rw [create_relaxed hr, h]
    rfl
  · intro session depth template view partials current other outcome hlimit
    have hcurrent : current.settings = settings := (after_holds h rfl).settings_eq
    exact (renderStep_excuses (hcurrent ▸ hr) depth template view partials).run_eq hlimit

/-! ## Lenient engines -/

/-- Settings with hardly any limit. -/
def lenient : Settings :=
  { Settings.standard with strictPartials := false, strictPragmas := false, maxPartialDepth := 100 }

theorem standard_relaxes_lenient : Settings.standard.Relaxes lenient :=
  ⟨rfl, nofun, nofun, by decide⟩

def greeting : Text := "{{>p}}, {{n}}".toList

def greetings : Entries Text := [(['p'], "Hello".toList)]

def named (name : Value) : Value := .dict [(['n'], name)]

/-- The function of a view that raises an error. -/
def nameless : Value := .function (.mk none .any (.raise ['E'] [])) none false

/-- A text, and a failure that is not for a limit, stay the same in a lenient engine. -/
theorem lenient_greets_same :
    ∃ engine, create .empty .standard (some (.memory 1 [])) none [] none (.fresh 0) = .ok engine ∧
      create .empty lenient (some (.memory 1 [])) none [] none (.fresh 0) =
        .ok { engine with settings := lenient } ∧
      let outcome := (engine.renderStep 9 greeting (named (.text ['A'])) greetings).run engine.store
      let failure := (engine.renderStep 9 greeting (named nameless) greetings).run engine.store
      outcome.1 = .ok "Hello, A".toList ∧
        ({ engine with settings := lenient }.renderStep 9 greeting (named (.text ['A']))
          greetings).run engine.store = outcome ∧
        failure.1 = .error (.raised ['E'] []) ∧
        ({ engine with settings := lenient }.renderStep 9 greeting (named nameless)
          greetings).run engine.store = failure := by
  obtain ⟨engine, h, houtcome, hfailure⟩ : ∃ engine,
      create .empty .standard (some (.memory 1 [])) none [] none (.fresh 0) = .ok engine ∧
      ((engine.renderStep 9 greeting (named (.text ['A'])) greetings).run engine.store).1 =
        .ok "Hello, A".toList ∧
      ((engine.renderStep 9 greeting (named nameless) greetings).run engine.store).1 =
        .error (.raised ['E'] []) := ⟨_, rfl, by cbv, by cbv⟩
  obtain ⟨hcreate, hsame⟩ := renderStep_relaxed h standard_relaxes_lenient
  refine ⟨engine, h, hcreate, houtcome, ?_, hfailure, ?_⟩
  · refine hsame [] 9 greeting (named (.text ['A'])) greetings fun e _ hr => ?_
    cases houtcome.symm.trans hr
  · refine hsame [] 9 greeting (named nameless) greetings fun e he hr => ?_
    cases hfailure.symm.trans hr
    cases he

end Whisker.Engine
