import Whisker.Proofs.Render.Bond

/-! Rendering with relaxed limits. Up to the first failure for a limit it does the same, and so a
rendering without such a failure is the same altogether. -/

namespace Whisker

open Run (Excuses excusing)

/-- The failures that settings can turn into something else. -/
inductive Failure.IsLimit : Failure → Prop where
  | partialNotFound (name) : IsLimit (.partialNotFound name)
  | unknownPragma (name) : IsLimit (.unknownPragma name)
  | inclusionTooDeep (chain) : IsLimit (.inclusionTooDeep chain)

open Failure (IsLimit)

/-- The settings differ in their limits only, and the second ones have none that is stricter. -/
structure Settings.Relaxes (settings relaxed : Settings) : Prop where
  eq : relaxed = { settings with
    strictPartials := relaxed.strictPartials
    strictPragmas := relaxed.strictPragmas
    maxPartialDepth := relaxed.maxPartialDepth }
  strictPartials : relaxed.strictPartials = true → settings.strictPartials = true
  strictPragmas : relaxed.strictPragmas = true → settings.strictPragmas = true
  maxPartialDepth : settings.maxPartialDepth ≤ relaxed.maxPartialDepth

/-! ## Pragmas -/

namespace Pragmas

/-- The same pragmas, which the first may take more strictly. -/
structure Relaxes (p q : Pragmas) : Prop where
  enabled : q.enabled = p.enabled
  strict : q.strict = true → p.strict = true

/-- The first result is a failure for a limit, or both have the same warnings. -/
def Excused (x y : Except Failure Warned) : Prop :=
  (∃ e, IsLimit e ∧ x = .error e) ∨
    ∃ p q warnings, x = .ok (p, warnings) ∧ y = .ok (q, warnings) ∧ p.Relaxes q

variable {p q : Pragmas} (h : p.Relaxes q)
include h

theorem Relaxes.enable (name : Text) (params : Entries Text) :
    Excused (p.enable name params) (q.enable name params) := by
  rw [Pragmas.enable, Pragmas.enable]
  by_cases hk : known.contains name = true
  · rw [if_pos hk, if_pos hk]
    exact .inr ⟨_, _, _, rfl, rfl, congrArg (Entries.put name params) h.enabled, h.strict⟩
  · rw [if_neg hk, if_neg hk]
    by_cases hp : p.strict = true
    · rw [if_pos hp]
      exact .inl ⟨_, .unknownPragma name, rfl⟩
    · rw [if_neg hp, if_neg fun hq => hp (h.strict hq)]
      exact .inr ⟨_, _, _, rfl, rfl, h⟩

theorem Relaxes.enableAll (calls : Entries (Entries Text)) :
    Excused (p.enableAll calls) (q.enableAll calls) := by
  rw [Pragmas.enableAll, Pragmas.enableAll]
  generalize ([] : List String) = warnings
  induction calls generalizing p q warnings with
  | nil => exact .inr ⟨p, q, warnings, rfl, rfl, h⟩
  | cons call calls ih =>
      obtain ⟨name, params⟩ := call
      rw [List.foldlM_cons, List.foldlM_cons]
      dsimp only
      obtain ⟨e, he, hp⟩ | ⟨p', q', more, hp, hq, h'⟩ := h.enable name params
      · rw [hp]
        exact .inl ⟨e, he, rfl⟩
      · rw [hp, hq]
        exact ih h' (warnings ++ more)

end Pragmas

/-! ## Steps -/

namespace Render

theorem warned_excuses {x y : Except Failure Pragmas.Warned} (h : Pragmas.Excused x y) :
    Excuses IsLimit Pragmas.Relaxes (warned x) (warned y) := by
  obtain ⟨e, he, rfl⟩ | ⟨p, q, warnings, rfl, rfl, h⟩ := h
  · exact .excuse he _
  · exact .bind (.refl _) fun _ _ _ => (excusing IsLimit).pure h

variable {settings relaxed : Settings} (h : settings.Relaxes relaxed)
include h

theorem initialPragmas_excuses :
    Excuses IsLimit Pragmas.Relaxes (initialPragmas settings) (initialPragmas relaxed) := by
  have hpragmas : relaxed.pragmas = settings.pragmas := by rw [h.eq]
  have hnone : (Pragmas.none settings.strictPragmas).Relaxes (.none relaxed.strictPragmas) :=
    ⟨rfl, h.strictPragmas⟩
  rw [initialPragmas_eq, initialPragmas_eq, hpragmas]
  exact warned_excuses (hnone.enableAll _)

theorem includedSite_excuses (site : Site) (scope : Scope) {p : Pragmas}
    (hp : site.pragmas.Relaxes p) (name : Text) :
    Excuses IsLimit (fun s t => ∃ p q, p.Relaxes q ∧
        s = { site with pragmas := p, chain := name :: site.chain } ∧
        t = { site with scope, pragmas := q, chain := name :: site.chain })
      (includedSite settings site name)
      (includedSite relaxed { site with scope, pragmas := p } name) := by
  have hinherit : relaxed.partialsInheritPragmas = settings.partialsInheritPragmas := by
    rw [h.eq]
  simp only [includedSite, hinherit]
  by_cases hdeep : (name :: site.chain).length > settings.maxPartialDepth
  · rw [if_pos hdeep]
    exact .excuse (.inclusionTooDeep _) _
  · have hmore : ¬ (name :: site.chain).length > relaxed.maxPartialDepth :=
      fun hr => hdeep (Nat.lt_of_le_of_lt h.maxPartialDepth hr)
    rw [if_neg hdeep, if_neg hmore]
    by_cases hi : settings.partialsInheritPragmas = true
    · rw [if_pos hi, if_pos hi]
      exact (excusing IsLimit).pure ⟨_, _, hp, rfl, rfl⟩
    · rw [if_neg hi, if_neg hi]
      exact .bind (initialPragmas_excuses h) fun p q hpq =>
        (excusing IsLimit).pure ⟨p, q, hpq, rfl, rfl⟩

theorem included?_excuses {stage : Stage} (hs : stage.settings = settings) (name : Text) :
    Excuses IsLimit (· = ·) (included? stage name)
      (included? { stage with settings := relaxed } name) := by
  refine (excusing IsLimit).bind_eq (.refl _) fun found => ?_
  cases found with
  | some document => exact .refl _
  | none =>
      dsimp only
      rw [hs]
      by_cases hstrict : settings.strictPartials = true
      · rw [if_pos hstrict]
        exact .excuse (.partialNotFound name) _
      · rw [if_neg hstrict, if_neg fun hr => hstrict (h.strictPartials hr)]
        exact .refl _

/-! ## Documents -/

/-- The scopes and values are the same, and the first rendering stops at any limit. -/
def Bond.relaxing (stage : Stage) (h : stage.settings.Relaxes relaxed) :
    Bond (excusing IsLimit) stage { stage with settings := relaxed } where
  value := (· = ·)
  scope := (· = ·)
  pragmas := Pragmas.Relaxes
  Comes _ _ _ := True
  Opens _ _ := True
  ofView hv := congrArg Scope.ofView hv
  push := push_of_eq
  resolve hs depth name := hs ▸ .refl _
  ofValue hv := by
    rw [hv]
    exact (excusing IsLimit).mono (.refl _) fun value _ he => he ▸ .refl (fun _ => rfl) value
  subView := exists_subView_of_eq
  ofSubView := exists_of_eq_subView
  indents := by
    dsimp only [Stage.IndentsAs]
    rw [h.eq]
  filtersAside hp name _ := by rw [hp.enabled]
  enable _ _ _ call hp := warned_excuses (hp.enable call.name call.params)
  inside _ _ := trivial
  enters _ _ _ _ _ := trivial
  included name := found_pairs (included?_excuses h rfl name)
  template _ _ _ _ _ := (excusing IsLimit).mono (.refl _) fun _ _ hd => ⟨hd ▸ rfl, trivial⟩
  includedSite site scope _ _ name _ _ hp _ _ _ := includedSite_excuses h site scope hp name

omit h in
theorem Bond.relaxing_equal (stage : Stage) (h : stage.settings.Relaxes relaxed) :
    (relaxing stage h).Equal where
  eq hv := hv.symm
  readName_eq _ hp := by rw [readName, readName, Pragmas.isEnabled, Pragmas.isEnabled, hp.enabled]
  escaped _ _ := .refl _
  applyAll _ _ _ := .refl _
  callable _ _ := ⟨Run.excusing_reflexive _, fun _ => rfl, fun _ _ _ => trivial⟩

end Render
end Whisker
