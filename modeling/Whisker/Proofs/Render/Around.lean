import Whisker.Proofs.Render.Checked
import Whisker.Proofs.Render.Relabel

/-! The tags around a node. The chain that a rendering carries holds the names of the tags that it is
in, and one tag too many is the only thing that fails for the length of a chain. -/

namespace Whisker

open Fallible (relabel relabel_bind Fixed)

namespace Render

/-! ## Renderings that know the tags around them -/

/-- Goes into the template of a tag, which was found and compiled, unless there are as many tags
around it as there may be. The names of the tags are in order, from outside to inside. -/
def enter (limit : Nat) (full : List Text → Failure) (names : List Text) (name : Text) :
    Run (List Text) :=
  if names.length < limit then return names ++ [name] else throw (full (names ++ [name]))

/-- The names of the tags and the site inside the template of a tag. -/
def siteAmid (settings : Settings) (full : List Text → Failure) (names : List Text) (site : Site)
    (name : Text) : Run (List Text × Site) := do
  let names ← enter settings.maxPartialDepth full names name
  let pragmas ← if settings.partialsInheritPragmas then pure site.pragmas
    else initialPragmas settings
  return (names, { site with pragmas, chain := name :: site.chain })

/-- Renders what is in a template, while tags with these names are being rendered. -/
abbrev NestedAmid := List Text → Nested

def inclusionAmid (stage : Stage) (full : List Text → Failure) (nested : NestedAmid) (depth : Nat)
    (names : List Text) (site : Site) (name indent : Text) : Run Text := do
  match ← subView? depth site name with
  | some (template, view) =>
    let document ← Run.load (Loading.template stage.partials template)
    let (names, inner) ← siteAmid stage.settings full names site name
    let (text, _) ←
      Run.afresh (nested names { inner with scope := Scope.ofView view } document.nodes)
    return indented stage.settings indent text
  | none =>
    match ← included? stage name with
    | none => return []
    | some document =>
      let (names, inner) ← siteAmid stage.settings full names site name
      let (text, _) ← nested names inner document.nodes
      return indented stage.settings indent text

def parentAmid (stage : Stage) (full : List Text → Failure) (nested : NestedAmid)
    (names : List Text) (site : Site) (name indent : Text) (children : List Node) : Run Text := do
  match ← included? stage name with
  | none => return []
  | some document =>
    let (names, inner) ← siteAmid stage.settings full names site name
    let (text, _) ←
      nested names { inner with blocks := overrides site.blocks children } document.nodes
    return indented stage.settings indent text

def stepAmid (stage : Stage) (full : List Text → Failure) (depth : Nat) (nested : NestedAmid)
    (names : List Text) (site : Site) (n : Node) : Run (Piece × Pragmas) := do
  match n with
  | .inclusion name indent =>
    let text ← inclusionAmid stage full nested depth names site name (indent.getD [])
    return (.text text, site.pragmas)
  | .enclosure .parent name children _ _ _ indent =>
    return (.text (← parentAmid stage full nested names site name indent children), site.pragmas)
  | _ => step stage depth (nested names) site n

/-- Renders a node while tags with these names are being rendered. The chain of the site is only
compared with the names, and where it is not just these the rendering is lost. -/
def nodeAmid (stage : Stage) (lost : Failure) (full : List Text → Failure) :
    Nat → List Text → Site → Node → Run (Piece × Pragmas)
  | 0, _, _, _ => throw .tooDeep
  | depth + 1, names, site, n =>
    if site.chain.reverse = names ∧ names.length ≤ stage.settings.maxPartialDepth then
      stepAmid stage full depth (fun names => inOrder (nodeAmid stage lost full depth names)) names
        site n
    else throw lost

/-! ## Tags without a template -/

/-- What becomes of a tag that has no template: this is a failure, or there is a warning and no
text. -/
def absent (settings : Settings) (name : Text) : Run Text :=
  if settings.strictPartials then throw (.partialNotFound name)
  else do
    Run.warn s!"Partial '{name.string}' not found, rendering empty string"
    return []

theorem run_included?_none {stage : Stage} {name : Text} {store after : Store}
    (h : (Run.load (Loading.included? stage.partials name)).run store = (.ok none, after)) :
    (included? stage name).run store =
      (absent stage.settings name >>= fun _ => pure none).run after := by
  rw [included?, Fallible.run_bind, h, absent]
  dsimp only
  split <;> rfl

/-- The length of the chain does not matter. -/
theorem run_inclusion_absent {stage : Stage} {depth : Nat} {site : Site} {name : Text}
    {store mid after : Store} (hv : (subView? depth site name).run store = (.ok none, mid))
    (h : (Run.load (Loading.included? stage.partials name)).run mid = (.ok none, after))
    (nested : Nested) (indent : Text) :
    (inclusion stage nested depth site name indent).run store =
      (absent stage.settings name).run after := by
  rw [inclusion, Fallible.run_bind, hv]
  dsimp only
  rw [Fallible.run_bind, run_included?_none h, absent]
  cases hs : stage.settings.strictPartials with
  | false => simp only [Bool.false_eq_true, if_false]; rfl
  | true => simp only [if_true]; rfl

theorem run_parent_absent {stage : Stage} {name : Text} {store after : Store}
    (h : (Run.load (Loading.included? stage.partials name)).run store = (.ok none, after))
    (nested : Nested) (site : Site) (indent : Text) (children : List Node) :
    (parent stage nested site name indent children).run store =
      (absent stage.settings name).run after := by
  rw [parent, Fallible.run_bind, run_included?_none h, absent]
  cases hs : stage.settings.strictPartials with
  | false => simp only [Bool.false_eq_true, if_false]; rfl
  | true => simp only [if_true]; rfl

/-! ## Tags -/

variable {g : Failure → Failure} (hg : Failure.Spares g) {stage : Stage}
  {full : List Text → Failure} {names : List Text} {site : Site}
  (hfull : ∀ names, names.length = stage.settings.maxPartialDepth + 1 →
    full names = g (.inclusionTooDeep names))
  (hc : site.chain.reverse = names) (hl : names.length ≤ stage.settings.maxPartialDepth)
include hg hfull hc hl

/-- One goes into a template just where the chain allows it, and then the chain is that of the
tags. -/
theorem siteAmid_bind {α : Type} {next : Site → Run α} {next' : List Text × Site → Run α}
    (name : Text) (hnext : ∀ pragmas, names.length < stage.settings.maxPartialDepth →
      next' (names ++ [name], { site with pragmas, chain := name :: site.chain }) =
        relabel g (next { site with pragmas, chain := name :: site.chain })) :
    siteAmid stage.settings full names site name >>= next' =
      relabel g (includedSite stage.settings site name >>= next) := by
  have hlength : site.chain.length = names.length := by rw [← hc, List.length_reverse]
  rw [siteAmid, enter, includedSite, relabel_bind]
  by_cases hroom : names.length < stage.settings.maxPartialDepth
  · have hfits : ¬ (name :: site.chain).length > stage.settings.maxPartialDepth := by
      simp only [List.length_cons]
      omega
    have hinitial : relabel g (initialPragmas stage.settings) = initialPragmas stage.settings :=
      initialPragmas_fixed hg stage.settings
    rw [if_pos hroom]
    simp only [if_neg hfits, pure_bind]
    by_cases hinherit : stage.settings.partialsInheritPragmas = true
    · simp only [hinherit, if_true, pure_bind, Fallible.relabel_pure]
      exact hnext site.pragmas hroom
    · simp only [hinherit, Bool.false_eq_true, if_false, bind_assoc, pure_bind, relabel_bind,
        Fallible.relabel_pure, hinitial]
      exact bind_congr fun pragmas => hnext pragmas hroom
  · have hover : (name :: site.chain).length > stage.settings.maxPartialDepth := by
      simp only [List.length_cons]
      omega
    have hchain : (name :: site.chain).reverse = names ++ [name] := by
      rw [List.reverse_cons, hc]
    have hlong : (names ++ [name]).length = stage.settings.maxPartialDepth + 1 := by
      simp only [List.length_append, List.length_singleton]
      omega
    rw [if_neg hroom]
    simp only [if_pos hover]
    rw [hchain, hfull _ hlong]
    rfl

section

variable {depth : Nat} {nested : Nested} {nested' : NestedAmid}
  (hinside : ∀ name, names.length < stage.settings.maxPartialDepth → ∀ site : Site,
    site.chain.reverse = names ++ [name] → ∀ nodes,
    nested' (names ++ [name]) site nodes = relabel g (nested site nodes))
include hinside

theorem inclusionAmid_eq (name indent : Text) :
    inclusionAmid stage full nested' depth names site name indent =
      relabel g (inclusion stage nested depth site name indent) := by
  have hinner : (name :: site.chain).reverse = names ++ [name] := by rw [List.reverse_cons, hc]
  rw [inclusionAmid, inclusion, relabel_bind, subView?_fixed hg depth site name]
  refine bind_congr fun view => ?_
  cases view with
  | some view =>
      dsimp only
      rw [relabel_bind, Run.load_fixed (Loading.template_fixed hg stage.partials view.1)]
      refine bind_congr fun document => ?_
      refine siteAmid_bind hg hfull hc hl name fun pragmas hroom => ?_
      dsimp only
      rw [relabel_bind, Run.relabel_afresh, hinside name hroom _ hinner]
      rfl
  | none =>
      dsimp only
      rw [relabel_bind, included?_fixed hg stage name]
      refine bind_congr fun found => ?_
      cases found with
      | none => rfl
      | some document =>
          refine siteAmid_bind hg hfull hc hl name fun pragmas hroom => ?_
          dsimp only
          rw [relabel_bind, hinside name hroom _ hinner]
          rfl

theorem parentAmid_eq (name indent : Text) (children : List Node) :
    parentAmid stage full nested' names site name indent children =
      relabel g (parent stage nested site name indent children) := by
  have hinner : (name :: site.chain).reverse = names ++ [name] := by rw [List.reverse_cons, hc]
  rw [parentAmid, parent, relabel_bind, included?_fixed hg stage name]
  refine bind_congr fun found => ?_
  cases found with
  | none => rfl
  | some document =>
      refine siteAmid_bind hg hfull hc hl name fun pragmas hroom => ?_
      dsimp only
      rw [relabel_bind, hinside name hroom _ hinner]
      rfl

/-- All other nodes leave the tags around them as they are. -/
theorem stepAmid_eq (hsame : ∀ scope pragmas nodes,
      nested' names { site with scope, pragmas } nodes =
        relabel g (nested { site with scope, pragmas } nodes)) (n : Node) :
    stepAmid stage full depth nested' names site n = relabel g (step stage depth nested site n) := by
  cases n with
  | text | comment | delimiterChange => rfl
  | «variable» name isEscaped =>
      rw [step, relabel_bind, ← variable_relabel hg hsame]
      rfl
  | pragma call =>
      rw [step, relabel_bind, enable_fixed hg]
      rfl
  | inclusion name indent =>
      rw [step, relabel_bind, ← inclusionAmid_eq hg hfull hc hl hinside]
      rfl
  | enclosure kind name children body d place indent =>
      cases kind with
      | plain =>
          rw [step, relabel_bind, ← section_relabel hg hsame]
          rfl
      | inverted =>
          rw [step, relabel_bind, ← invertedSection_relabel hg hsame]
          rfl
      | block =>
          rw [step, relabel_bind, ← hsame site.scope site.pragmas]
          rfl
      | parent =>
          rw [step, relabel_bind, ← parentAmid_eq hg hfull hc hl hinside]
          rfl

end

/-- The rendering is never lost: at each node the chain is that of the tags around it. -/
theorem nodeAmid_eq (lost : Failure) (depth : Nat) (n : Node) :
    nodeAmid stage lost full depth names site n = relabel g (node stage depth site n) := by
  induction depth generalizing names site n with
  | zero => exact Eq.symm (Fixed.throw (hg .tooDeep rfl))
  | succ depth ih =>
      rw [nodeAmid, if_pos ⟨hc, hl⟩, node]
      apply stepAmid_eq hg hfull hc hl
      · intro name hroom site hchain nodes
        have hfits : (names ++ [name]).length ≤ stage.settings.maxPartialDepth := by
          simp only [List.length_append, List.length_singleton]
          omega
        exact inOrder_relabel hg site nodes fun pragmas n _ =>
          @ih _ { site with pragmas } hchain hfits n
      · intro scope pragmas nodes
        exact inOrder_relabel hg _ nodes fun pragmas n _ =>
          @ih names ⟨scope, pragmas, site.blocks, site.chain⟩ hc hl n

end Render

end Whisker
