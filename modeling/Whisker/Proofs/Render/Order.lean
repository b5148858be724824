import Whisker.Proofs.Render.Steps
import Whisker.Proofs.Run.Yields

/-! Nodes one after another, and what the steps of a rendering yield, with invariants of the store
and of the pragmas. -/

namespace Whisker.Render

open Run (Yields Serving)

/-! ## Steps -/

section

variable {lib : Library}

theorem resolve_yields (scope : Scope) (name : Text) (depth : Nat) :
    Yields (Serving lib) (fun _ => True) (scope.resolve depth name) :=
  (Yields.ofHolds (fun _ => Scope.resolve_holds _ (fun frame _ => frame.value.within_anything)
    name) depth).mono fun _ _ => trivial

/-- Only what can be called means a lambda. -/
theorem ofValue_yields (v : Value) :
    Yields (Serving lib) (fun value => value = .lambda → v.isCallable = true)
      (SectionValue.ofValue v) := by
  unfold SectionValue.ofValue
  split
  · exact .pure fun _ => ‹_›
  · split
    · exact .pure (by simp)
    · exact .pure (by simp)
    · exact .pure (by simp)
    · exact .pure (by split <;> simp)
    · exact .pure (by split <;> simp)
    · exact .pure (by split <;> simp)
    · refine .bind (.read _) fun items? _ => ?_
      cases items? with
      | none => exact .pure (by simp)
      | some items => exact .pure (by unfold SectionValue.ofItems; split <;> simp)

end

/-! ## Pieces -/

/-- The text of a piece. -/
def fit (piece : Piece) : Run Text :=
  match piece with
  | .text t => return t
  | .unfit => throw Failure.unfit

/-- The text of a piece before the rest; a piece that is no text fails after the rest. -/
def join (piece : Piece) (rest : Run Rendered) : Run Rendered := do
  let (t, pragmas) ← rest
  let u ← fit piece
  return (u ++ t, pragmas)

/-- Pieces before those that a rendering has gathered so far. -/
def gather (one : Site → Node → Run (Piece × Pragmas)) (site : Site)
    (state : List Piece × Pragmas) (n : Node) : Run (List Piece × Pragmas) := do
  let (piece, pragmas) ← one { site with pragmas := state.2 } n
  return (piece :: state.1, pragmas)

def finish (state : List Piece × Pragmas) : Run Rendered := do
  let texts ← state.1.reverse.mapM fit
  return (texts.flatten, state.2)

theorem inOrder_eq (one : Site → Node → Run (Piece × Pragmas)) (site : Site) (nodes : List Node) :
    inOrder one site nodes = nodes.foldlM (gather one site) ([], site.pragmas) >>= finish := rfl

theorem foldlM_gather (one : Site → Node → Run (Piece × Pragmas)) (site : Site) (nodes : List Node)
    (pieces : List Piece) (pragmas : Pragmas) :
    nodes.foldlM (gather one site) (pieces, pragmas) =
      nodes.foldlM (gather one site) ([], pragmas) >>= fun state =>
        pure (state.1 ++ pieces, state.2) := by
  induction nodes generalizing pieces pragmas with
  | nil => simp
  | cons n nodes ih =>
      simp only [List.foldlM_cons, gather, bind_assoc, pure_bind]
      refine bind_congr fun result => ?_
      rw [ih, ih [result.1]]
      simp

/-- Only one kind of failure can come of pieces. -/
theorem fit_throw (pieces : List Piece) :
    (pieces.mapM fit >>= fun _ => (throw .unfit : Run Rendered)) = throw .unfit := by
  induction pieces with
  | nil => rfl
  | cons piece pieces ih =>
      rw [List.mapM_cons]
      cases piece with
      | unfit => rfl
      | text t => simpa [fit] using ih

theorem finish_append (piece : Piece) (state : List Piece × Pragmas) :
    finish (state.1 ++ [piece], state.2) = join piece (finish state) := by
  cases piece with
  | text t => simp [finish, join, fit]
  | unfit =>
      have h := fit_throw state.1.reverse
      simp [finish, join, fit] at h ⊢
      exact h.symm

theorem inOrder_cons (one : Site → Node → Run (Piece × Pragmas)) (site : Site) (n : Node)
    (nodes : List Node) :
    inOrder one site (n :: nodes) = (do
      let (piece, pragmas) ← one site n
      join piece (inOrder one { site with pragmas } nodes)) := by
  rw [inOrder_eq, List.foldlM_cons, gather]
  simp only [bind_assoc, pure_bind]
  refine bind_congr fun result => ?_
  rw [foldlM_gather]
  simp only [bind_assoc, pure_bind, finish_append, inOrder_eq, join]
  rfl

/-- Nodes behind others see the pragmas that those leave. -/
theorem inOrder_append {one : Site → Node → Run (Piece × Pragmas)} {site : Site}
    {front : List Node} {store after : Store} {t : Text} {pragmas : Pragmas}
    (h : (inOrder one site front).run store = (.ok (t, pragmas), after)) (rest : List Node) :
    (inOrder one site (front ++ rest)).run store = (do
      let (u, pragmas) ← inOrder one { site with pragmas } rest
      return (t ++ u, pragmas) : Run Rendered).run after := by
  induction front generalizing site store t with
  | nil =>
      cases h
      simp
  | cons n front ih =>
      rw [inOrder_cons] at h
      obtain ⟨⟨piece, p⟩, between, hn, h⟩ := Fallible.exists_of_run_bind h
      obtain ⟨⟨u, q⟩, behind, hfront, h⟩ := Fallible.exists_of_run_bind h
      cases piece with
      | unfit => cases h
      | text v =>
          cases h
          rw [List.cons_append, inOrder_cons, Fallible.run_bind, hn]
          dsimp only
          rw [join, Fallible.run_bind, ih hfront, ← Fallible.run_bind]
          simp [fit, List.append_assoc]

/-- What holds of the pieces, and an invariant of the pragmas. -/
theorem inOrder_yields {I : Store → Prop} {K : Piece → Prop} {P : Pragmas → Prop}
    {one : Site → Node → Run (Piece × Pragmas)} {site : Site} {nodes : List Node}
    (hp : P site.pragmas) (h : ∀ n ∈ nodes, ∀ pragmas, P pragmas →
      Yields I (fun result => K result.1 ∧ P result.2) (one { site with pragmas } n)) :
    Yields I (fun result => (∃ texts : List Text, result.1 = texts.flatten ∧
      ∀ t ∈ texts, K (.text t)) ∧ P result.2) (inOrder one site nodes) := by
  refine .bind (.foldlM (K := fun state => (∀ piece ∈ state.1, K piece) ∧ P state.2)
    ⟨by simp, hp⟩ fun state hstate n hn => ?_) fun state hstate => ?_
  · refine .bind (h n hn _ hstate.2) fun result hresult => .pure ⟨?_, hresult.2⟩
    exact List.forall_mem_cons.mpr ⟨hresult.1, hstate.1⟩
  · refine .bind (.mapM fun piece hpiece => ?_) fun texts htexts =>
      .pure ⟨⟨texts, rfl, htexts⟩, hstate.2⟩
    have hK := hstate.1 piece (List.mem_reverse.mp hpiece)
    cases piece with
    | text t => exact .pure hK
    | unfit => exact .throw _

end Whisker.Render
