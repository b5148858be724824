import Whisker.Proofs.Render.Steps
import Whisker.Proofs.Render.Variables
import Whisker.Proofs.View.Relabel

/-! Rendering under other names for failures. Only what is nested in a node, and going into the
template of a tag, can fail for the length of a chain. -/

namespace Whisker.Render

open Fallible (relabel relabel_bind Fixed)

variable {g : Failure → Failure} (hg : Failure.Spares g) {stage : Stage}
include hg

/-! ## Steps that render nothing -/

theorem warned_fixed {result : Except Failure Pragmas.Warned} (h : Flat result) :
    Fixed g (warned result) := by
  cases result with
  | error e => exact .throw (hg e (Failure.not_isInclusionTooDeep (h e rfl)))
  | ok warned => exact .bind (.forM (fun message => Run.warn_fixed message) _) fun _ => .pure _

theorem enable_fixed (site : Site) (call : PragmaCall) : Fixed g (enable site call) :=
  warned_fixed hg (Pragmas.enable_flat site.pragmas call.name call.params)

theorem initialPragmas_fixed (settings : Settings) : Fixed g (initialPragmas settings) :=
  warned_fixed hg (Pragmas.ofNames_flat settings.strictPragmas settings.pragmas)

theorem escaped_fixed (stage : Stage) (depth : Nat) (t : Text) :
    Fixed g (escaped stage depth t) := by
  unfold escaped
  split
  · exact .pure _
  · refine .bind (Value.call_fixed hg depth _ _) fun v => ?_
    have hflat := Piece.ofValue_flat v
    split
    · exact .pure _
    · rename_i e he
      exact .throw (hg e (Failure.not_isInclusionTooDeep (hflat e he)))

theorem inserted_fixed (stage : Stage) (depth : Nat) (isEscaped : Bool) (filters : List Text)
    (v : Value) : Fixed g (inserted stage depth isEscaped filters v) := by
  unfold inserted
  split
  · exact .pure _
  · refine .bind (Filter.applyAll_fixed hg depth _ filters v) fun result => ?_
    split
    · exact .pure _
    · split
      · exact escaped_fixed hg stage depth _
      · exact .pure _

theorem fit_fixed (piece : Piece) : Fixed g (fit piece) := by
  cases piece with
  | text t => exact .pure t
  | unfit => exact .throw (hg _ rfl)

theorem included?_fixed (stage : Stage) (name : Text) : Fixed g (included? stage name) := by
  refine .bind (Run.load_fixed (Loading.included?_fixed hg stage.partials name)) fun found => ?_
  cases found with
  | some document => exact .pure _
  | none =>
      dsimp only
      split
      · exact .throw (hg _ rfl)
      · exact .bind (Run.warn_fixed _) fun _ => .pure none

theorem subView?_fixed (depth : Nat) (site : Site) (name : Text) :
    Fixed g (subView? depth site name) := by
  unfold subView?
  split
  · exact .pure none
  · refine .bind (Scope.resolve_fixed hg depth site.scope name) fun v => ?_
    split <;> exact .pure _

/-! ## Nodes -/

theorem inOrder_relabel {one one' : Site → Node → Run (Piece × Pragmas)} (site : Site)
    (nodes : List Node) (h : ∀ pragmas, ∀ n ∈ nodes,
      one' { site with pragmas } n = relabel g (one { site with pragmas } n)) :
    inOrder one' site nodes = relabel g (inOrder one site nodes) := by
  induction nodes generalizing site with
  | nil => rfl
  | cons n nodes ih =>
      have hone := h site.pragmas n List.mem_cons_self
      rw [inOrder_cons, inOrder_cons, relabel_bind, ← hone]
      refine bind_congr fun result => ?_
      obtain ⟨piece, pragmas⟩ := result
      dsimp only
      rw [join, join, relabel_bind,
        ih { site with pragmas } fun p n hm => h p n (List.mem_cons_of_mem _ hm)]
      refine bind_congr fun rest => ?_
      rw [relabel_bind, fit_fixed hg piece]
      rfl

section

variable {nested nested' : Nested} {depth : Nat} {site : Site}
  (hn : ∀ scope pragmas nodes, nested' { site with scope, pragmas } nodes =
    relabel g (nested { site with scope, pragmas } nodes))
include hn

theorem variable_relabel (name : Text) (isEscaped : Bool) :
    variable_ stage nested' depth site name isEscaped =
      relabel g (variable_ stage nested depth site name isEscaped) := by
  rw [variable_eq, variable_eq, relabel_bind]
  have hvalue (name : Text) : variableValue nested' depth site name =
      relabel g (variableValue nested depth site name) := by
    rw [variableValue, variableValue, relabel_bind, Scope.resolve_fixed hg depth site.scope name]
    refine bind_congr fun v => ?_
    split
    · rfl
    · rw [relabel_bind, Value.call_fixed hg depth [] v]
      refine bind_congr fun result => ?_
      split
      · rfl
      · rw [relabel_bind, Run.load_fixed (Loading.build_fixed hg _ _)]
        refine bind_congr fun document => ?_
        rw [relabel_bind, ← hn site.scope site.pragmas]
        rfl
  rw [hvalue]
  exact bind_congr fun v => (inserted_fixed hg stage depth isEscaped _ v).symm

theorem lambdaSection_relabel (d : Delimiters) (body : Text) (f : Value) :
    lambdaSection nested' depth site d body f =
      relabel g (lambdaSection nested depth site d body f) := by
  rw [lambdaSection, lambdaSection, relabel_bind, Value.call_relabel hg]
  have hrender : (fun t => (do
      let document ← Run.load (Loading.build d t)
      return (← nested' site document.nodes).1 : Run Text)) = fun t => relabel g (do
      let document ← Run.load (Loading.build d t)
      return (← nested site document.nodes).1) := by
    funext t
    rw [relabel_bind, Run.load_fixed (Loading.build_fixed hg d t)]
    refine bind_congr fun document => ?_
    rw [relabel_bind, ← hn site.scope site.pragmas]
    rfl
  rw [hrender]
  refine bind_congr fun result => ?_
  split <;> rfl

theorem section_relabel (name : Text) (children : List Node) (d : Delimiters) (body : Text) :
    section_ nested' depth site name children d body =
      relabel g (section_ nested depth site name children d body) := by
  rw [section_, section_, relabel_bind, Scope.resolve_fixed hg depth site.scope name]
  refine bind_congr fun v => ?_
  rw [relabel_bind, SectionValue.ofValue_fixed hg v]
  refine bind_congr fun value => ?_
  cases value with
  | falsy => rfl
  | list items =>
      dsimp only
      rw [Fallible.relabel_foldlM]
      congr 1
      funext rendered item
      rw [relabel_bind, ← hn]
      rfl
  | lambda =>
      dsimp only
      rw [relabel_bind, ← lambdaSection_relabel hg hn d body v]
      rfl
  | frame => exact hn (site.scope.push v none) site.pragmas children

theorem invertedSection_relabel (name : Text) (children : List Node) :
    invertedSection nested' depth site name children =
      relabel g (invertedSection nested depth site name children) := by
  rw [invertedSection, invertedSection, relabel_bind, Scope.resolve_fixed hg depth site.scope name]
  refine bind_congr fun v => ?_
  rw [relabel_bind, SectionValue.ofValue_fixed hg v]
  refine bind_congr fun value => ?_
  split
  · exact hn site.scope site.pragmas children
  · rfl

end

end Whisker.Render
