import Mathlib
import Whisker.Proofs.Render.Level
import Whisker.Proofs.Render.Places
import Whisker.Proofs.Template.Lines
import Whisker.Proofs.View.Leaves

/-! Nodes that a rendering skips. A section that gives nothing has only looked at the view, and no
rendering of a pure view can tell that it did. -/

namespace Whisker

open Run (Follows Leaves)

namespace Render

/-! ## Nodes in front of others -/

/-- Pieces, the latest first, in front of the rest. -/
def joinAll (pieces : List Piece) (rest : Run Rendered) : Run Rendered :=
  pieces.foldl (fun rest piece => join piece rest) rest

theorem joinAll_append (pieces : List Piece) (piece : Piece) (rest : Run Rendered) :
    joinAll (pieces ++ [piece]) rest = join piece (joinAll pieces rest) :=
  List.foldl_append

/-- All nodes in front are rendered before any of their pieces is joined to the rest. -/
theorem inOrder_front (one : Site → Node → Run (Piece × Pragmas)) (site : Site)
    (front rest : List Node) :
    inOrder one site (front ++ rest) =
      front.foldlM (gather one site) ([], site.pragmas) >>= fun state =>
        joinAll state.1 (inOrder one { site with pragmas := state.2 } rest) := by
  induction front generalizing site with
  | nil => exact (pure_bind _ _).symm
  | cons n front ih =>
      rw [List.cons_append, inOrder_cons, List.foldlM_cons, gather]
      simp only [bind_assoc, pure_bind]
      refine bind_congr fun result => ?_
      have hgather : gather one { site with pragmas := result.2 } = gather one site := rfl
      rw [foldlM_gather, ih, hgather]
      simp only [bind_assoc, pure_bind, joinAll_append, join]

theorem join_nothing (rest : Run Rendered) : join (.text []) rest = rest := by
  simp [join, fit]

/-- Joining looks at nothing but what the rest comes to. -/
theorem run_joinAll {x y : Run Rendered} {s t : Store} (h : x.run s = y.run t)
    (pieces : List Piece) : (joinAll pieces x).run s = (joinAll pieces y).run t := by
  induction pieces generalizing x y with
  | nil => exact h
  | cons piece pieces ih =>
      have hjoin : (join piece x).run s = (join piece y).run t := by
        rw [join, join, Fallible.run_bind, Fallible.run_bind, h]
      exact ih hjoin

/-- Text that is cut in two renders as before. -/
theorem inOrder_splice (stage : Stage) (depth : Nat) (site : Site) (front back : List Node) :
    inOrder (node stage (depth + 1)) site (Node.splice front back) =
      inOrder (node stage (depth + 1)) site (front ++ back) := by
  have htext (site : Site) (t : Text) :
      node stage (depth + 1) site (.text t) = pure (.text t, site.pragmas) := rfl
  fun_induction Node.splice front back generalizing site with
  | case1 back => rfl
  | case2 content more back => simp [inOrder_cons, htext, join, fit]
  | case3 back n front _ ih =>
      rw [List.cons_append, inOrder_cons, inOrder_cons]
      refine bind_congr fun result => ?_
      obtain ⟨piece, pragmas⟩ := result
      exact congrArg (join piece) (ih { site with pragmas })

/-! ## Documents -/

def topSite (view : Value) (pragmas : Pragmas) : Site := ⟨Scope.ofView view, pragmas, [], []⟩

/-- The pieces of the first nodes of a document, and the pragmas behind them. -/
def behind (stage : Stage) (depth : Nat) (view : Value) (front : List Node) :
    Run (List Piece × Pragmas) := do
  let pragmas ← initialPragmas stage.settings
  front.foldlM (gather (node stage depth) (topSite view pragmas)) ([], pragmas)

theorem document_append (stage : Stage) (depth : Nat) (view : Value) (front rest : List Node) :
    document stage depth view (front ++ rest) = (do
      let (pieces, pragmas) ← behind stage depth view front
      return (← joinAll pieces (inOrder (node stage depth) (topSite view pragmas) rest)).1) := by
  rw [document, behind, bind_assoc]
  refine bind_congr fun pragmas => ?_
  rw [inOrder_front, bind_assoc]
  rfl

theorem document_splice (stage : Stage) (depth : Nat) (view : Value) (front back : List Node) :
    document stage (depth + 1) view (Node.splice front back) =
      document stage (depth + 1) view (front ++ back) :=
  bind_congr fun pragmas =>
    congrArg (· >>= _) (inOrder_splice stage depth (topSite view pragmas) front back)

/-- Documents at other places are rendered to the same. -/
theorem document_moved (stage : Stage) (depth : Nat) (view : Value) {nodes nodes' : List Node}
    (h : List.Forall₂ Node.Moved nodes nodes') :
    document stage depth view nodes = document stage depth view nodes' := by
  have hn : Unmoved (inOrder (node stage depth)) :=
    inOrder_corresponds fun site _ hb _ _ hn => node_moved stage depth site hb hn
  refine bind_congr fun pragmas => ?_
  exact congrArg (· >>= _) (hn (topSite view pragmas) (MovedBlocks.refl []) h)

/-! ## Looks at the view -/

/-- What a name means for a section. -/
def look (depth : Nat) (scope : Scope) (name : Text) : Run SectionValue := do
  SectionValue.ofValue (← scope.resolve depth name)

/-- A section that is falsy has done nothing but look. -/
theorem run_section_falsy {stage : Stage} {depth : Nat} {site : Site} {name : Text}
    {store after : Store} {value : SectionValue}
    (h : (look depth site.scope name).run store = (.ok value, after)) (hf : value.isFalsy = true)
    (children : List Node) (body : Text) (d : Delimiters) (place : Place) (indent : Text) :
    (node stage (depth + 1) site (.enclosure .plain name children body d place indent)).run store =
      (.ok (.text [], site.pragmas), after) := by
  obtain ⟨v, between, hv, hvalue⟩ := Fallible.exists_of_run_bind h
  cases value with
  | falsy =>
      rw [node, step, section_, bind_assoc, Fallible.run_bind, hv]
      dsimp only
      rw [bind_assoc, Fallible.run_bind, hvalue]
      rfl
  | _ => cases hf

theorem run_invertedSection_truthy {stage : Stage} {depth : Nat} {site : Site} {name : Text}
    {store after : Store} {value : SectionValue}
    (h : (look depth site.scope name).run store = (.ok value, after)) (hf : value.isFalsy = false)
    (children : List Node) (body : Text) (d : Delimiters) (place : Place) (indent : Text) :
    (node stage (depth + 1) site (.enclosure .inverted name children body d place indent)).run
      store = (.ok (.text [], site.pragmas), after) := by
  obtain ⟨v, between, hv, hvalue⟩ := Fallible.exists_of_run_bind h
  rw [node, step, invertedSection, bind_assoc, Fallible.run_bind, hv]
  dsimp only
  rw [bind_assoc, Fallible.run_bind, hvalue]
  simp only [hf]
  rfl

theorem warnings_lasting (warnings : List String) :
    Store.Lasting fun store => store.warnings = warnings where
  build _ := fun _ hs => ⟨hs, fun _ _ => trivial⟩
  countCall id := by
    cases id with
    | none => exact .pure trivial
    | some n => exact fun _ hs => ⟨hs, fun _ _ => trivial⟩
  meet id items := by
    cases id with
    | none => exact .pure trivial
    | some n =>
        intro store hs
        rw [Run.YieldsAt, Run.run_meetIterator]
        cases store.met.lookup n with
        | some known => exact ⟨hs, fun _ _ => trivial⟩
        | none =>
            dsimp only
            exact ⟨hs, fun _ _ => trivial⟩

theorem look_leaves (warnings : List String) (depth : Nat) (scope : Scope) (name : Text) :
    Leaves (fun store => store.warnings = warnings) (look depth scope name) := by
  refine .bind (Scope.resolve_leaves (warnings_lasting warnings) depth scope name) fun v _ => ?_
  unfold SectionValue.ofValue
  have hread {α : Type} (step : Reading α) :
      Leaves (fun store => store.warnings = warnings) (Run.read step) :=
    fun _ hs => ⟨hs, fun _ _ => trivial⟩
  split
  · exact .pure trivial
  · split
    all_goals first | exact .pure trivial | refine .bind (hread _) fun items? _ => ?_
    cases items? <;> exact .pure trivial

/-! ## Pure views -/

/-- Wherever a rendering comes to the end of the first nodes, a section of this name is falsy there,
or it is not. -/
def Means (stage : Stage) (depth : Nat) (view : Value) (front : List Node) (name : Text)
    (falsy : Bool) (store : Store) : Prop :=
  ∀ state after, (behind stage (depth + 1) view front).run store = (.ok state, after) →
    ∃ value, ((look depth (Scope.ofView view) name).run after).1 = .ok value ∧
      value.isFalsy = falsy

/-- Behind the first nodes of a document this one gives nothing, and comes to a store that no view
can tell from the one before it. -/
def Skips (I : Inventory) (lib : Library) (stage : Stage) (depth : Nat) (view : Value)
    (front : List Node) (n : Node) (store : Store) : Prop :=
  ∀ state after, (behind stage (depth + 1) view front).run store = (.ok state, after) →
    ∃ last, (node stage (depth + 1) (topSite view state.2) n).run after =
        (.ok (.text [], state.2), last) ∧ I.Ready lib last ∧ I.Level after last

section

variable {I : Inventory} {lib : Library} {stage : Stage}
  (hstage : stage.Uses fun f => f.Pure I.engine) {view : Value} (hview : view.Pure I.view)
  {s t : Store} (hs : I.Ready lib s) (ht : I.Ready lib t) (depth : Nat)
include hview

theorem pure_topSite (others : Prop) (store : Store) (pragmas : Pragmas) :
    (topSite view pragmas).scope.Pure (I.since others store).past :=
  List.forall_mem_singleton.mpr (hview.mono (Inventory.view_le others store))

theorem rename_topSite (others : Prop) (pragmas : Pragmas) :
    (topSite view pragmas).rename (Inventory.shifting others hs ht).shift = topSite view pragmas :=
  congrArg (Site.mk · pragmas [] []) (Scope.Pure.rename_eq_self (pure_topSite hview others s pragmas))

theorem look_follows (others : Prop) (name : Text) :
    Follows (Inventory.shifting others hs ht)
      (fun n => SectionValue.Alike ((Inventory.shifting others hs ht).Moves n))
      (look depth (Scope.ofView view) name) (look depth (Scope.ofView view) name)
      s.heap.nextIdentity := by
  have hscope := pure_topSite hview others s (.none true)
  have hresolve := Scope.resolve_follows (S := Inventory.shifting others hs ht) depth
    (hscope.mono (.past_upTo s.heap.nextIdentity)) name
  rw [Scope.Pure.rename_eq_self hscope] at hresolve
  refine .bind hresolve fun v w later _ hv => ?_
  obtain ⟨⟨hv, rfl⟩, hsettled⟩ := hv
  exact SectionValue.ofValue_follows hv hsettled

include hstage

theorem behind_follows (front : List Node) :
    Follows (Inventory.shifting True hs ht) (fun _ a b => b = a) (behind stage depth view front)
      (behind stage depth view front) s.heap.nextIdentity := by
  have hf := Inventory.fits hs ht hstage
  refine .bind_same (initialPragmas_follows _) fun pragmas later _ => ?_
  have hscope := (pure_topSite hview True s pragmas).mono (.past_upTo later)
  have hgather : Follows (Inventory.shifting True hs ht) (fun _ a b => b = a)
      (front.foldlM (gather (node stage depth) (topSite view pragmas)) ([], pragmas))
      (front.foldlM (gather (node stage depth)
        ((topSite view pragmas).rename (Inventory.shifting True hs ht).shift)) ([], pragmas))
      later :=
    gather_follows (fun inner last hinner hlast n =>
      node_follows depth hf (hinner ▸ hscope.mono (.upTo hlast)) n) front _
  rwa [rename_topSite hview hs ht] at hgather

theorem rest_follows (pieces : List Piece) (pragmas : Pragmas) (rest : List Node) :
    Follows (Inventory.shifting True hs ht) (fun _ a b => b = a)
      (joinAll pieces (inOrder (node stage depth) (topSite view pragmas) rest))
      (joinAll pieces (inOrder (node stage depth) (topSite view pragmas) rest))
      s.heap.nextIdentity := by
  have hf := Inventory.fits hs ht hstage
  have hscope := (pure_topSite hview True s pragmas).mono (.past_upTo s.heap.nextIdentity)
  have hrest := inOrder_nests (fun hf _ _ hs n => node_follows depth hf hs n) hf hscope rest
  rw [rename_topSite hview hs ht] at hrest
  generalize inOrder (node stage depth) (topSite view pragmas) rest = x at hrest
  induction pieces generalizing x with
  | nil => exact hrest
  | cons piece pieces ih =>
      refine ih _ (.bind_same hrest fun rendered later _ => ?_)
      cases piece with
      | text t => exact .pure fun _ _ => rfl
      | unfit => exact .throw _

include hs ht

/-- What a name means does not depend on what views cannot tell apart. -/
theorem Means.level (h : I.Level s t) {front : List Node} {name : Text} {falsy : Bool}
    (hm : Means stage depth view front name falsy s) :
    Means stage depth view front name falsy t := by
  intro state after hrun
  obtain ⟨hs', ht', hlevel, hagree⟩ :=
    h.step hs ht (behind_follows hstage hview hs ht (depth + 1) front)
  rcases hx : (behind stage (depth + 1) view front).run s with ⟨x, between⟩
  rw [hx] at hs' hlevel hagree
  rw [hrun] at ht' hlevel hagree
  cases hagree with
  | ok hsame =>
      obtain rfl := hsame
      obtain ⟨value, hvalue, hfalsy⟩ := hm state between hx
      obtain ⟨-, -, -, hlook⟩ :=
        hlevel.step hs' ht' (look_follows hview hs' ht' depth False name)
      rw [hvalue] at hlook
      generalize ((look depth (Scope.ofView view) name).run after).1 = y at hlook
      cases hlook with
      | ok halike => exact ⟨_, rfl, halike.isFalsy_eq ▸ hfalsy⟩

omit ht in
theorem ready_behind {front : List Node} {state : List Piece × Pragmas} {after : Store}
    (hrun : (behind stage depth view front).run s = (.ok state, after)) : I.Ready lib after := by
  have hstep := (Inventory.Level.refl s).step hs hs (behind_follows hstage hview hs hs depth front)
  rw [hrun] at hstep
  exact hstep.1

omit ht in
/-- Where a name means something for a section, the look at it comes to a store that no view tells
from the one before it. -/
theorem Means.looked {front : List Node} {name : Text} {falsy : Bool}
    (hm : Means stage depth view front name falsy s) {state : List Piece × Pragmas} {after : Store}
    (hrun : (behind stage (depth + 1) view front).run s = (.ok state, after)) :
    ∃ value last, (look depth (Scope.ofView view) name).run after = (.ok value, last) ∧
      value.isFalsy = falsy ∧ I.Ready lib last ∧ I.Level after last := by
  obtain ⟨value, hvalue, hfalsy⟩ := hm state after hrun
  have hafter : I.Ready lib after := ready_behind hstage hview hs (depth + 1) hrun
  obtain ⟨hlast, hlevel⟩ := hafter.look (look_follows hview hafter hafter depth False name)
    (look_leaves after.warnings depth (Scope.ofView view) name after rfl).1
  exact ⟨value, _, Prod.ext hvalue rfl, hfalsy, hlast, hlevel⟩

omit ht in
theorem Means.skips_section {front : List Node} {name : Text}
    (hm : Means stage depth view front name true s) (children : List Node) (body : Text)
    (d : Delimiters) (place : Place) (indent : Text) :
    Skips I lib stage depth view front (.enclosure .plain name children body d place indent) s := by
  intro state after hrun
  obtain ⟨value, last, hlook, hfalsy, hlast⟩ := Means.looked hstage hview hs depth hm hrun
  exact ⟨last, run_section_falsy hlook hfalsy children body d place indent, hlast⟩

omit ht in
theorem Means.skips_invertedSection {front : List Node} {name : Text}
    (hm : Means stage depth view front name false s) (children : List Node) (body : Text)
    (d : Delimiters) (place : Place) (indent : Text) :
    Skips I lib stage depth view front (.enclosure .inverted name children body d place indent) s := by
  intro state after hrun
  obtain ⟨value, last, hlook, hfalsy, hlast⟩ := Means.looked hstage hview hs depth hm hrun
  exact ⟨last, run_invertedSection_truthy hlook hfalsy children body d place indent, hlast⟩

omit ht in
theorem skips_comment (front : List Node) (content : Text) :
    Skips I lib stage depth view front (.comment content) s := by
  intro state after hrun
  exact ⟨after, rfl, ready_behind hstage hview hs (depth + 1) hrun, .refl after⟩

/-- A node that is skipped leaves no trace in the rendering of a pure view. -/
theorem document_skips (h : I.Level s t) {front : List Node} {n : Node}
    (hn : Skips I lib stage depth view front n s) (rest : List Node) :
    ((document stage (depth + 1) view (front ++ n :: rest)).run s).1 =
      ((document stage (depth + 1) view (front ++ rest)).run t).1 := by
  rw [document_append, document_append, Fallible.run_bind, Fallible.run_bind]
  obtain ⟨-, ht', hlevel, hagree⟩ :=
    h.step hs ht (behind_follows hstage hview hs ht (depth + 1) front)
  rcases hx : (behind stage (depth + 1) view front).run s with ⟨x, after⟩
  rcases hy : (behind stage (depth + 1) view front).run t with ⟨y, other⟩
  rw [hx] at hlevel hagree
  rw [hy] at ht' hlevel hagree
  cases hagree with
  | error e => rfl
  | @ok _ state hsame =>
      obtain rfl := hsame
      obtain ⟨last, hrun, hlast, hlevel'⟩ := hn state after hx
      obtain ⟨pieces, pragmas⟩ := state
      have hnothing : (inOrder (node stage (depth + 1)) (topSite view pragmas) (n :: rest)).run
          after = (inOrder (node stage (depth + 1)) (topSite view pragmas) rest).run last := by
        rw [inOrder_cons, Fallible.run_bind, hrun]
        exact congrArg (·.run last) (join_nothing _)
      obtain ⟨-, -, -, hrest⟩ := (hlevel'.symm.trans hlevel).step hlast ht'
        (rest_follows hstage hview hlast ht' (depth + 1) pieces pragmas rest)
      dsimp only
      rw [Fallible.run_bind, Fallible.run_bind, run_joinAll hnothing pieces]
      generalize ((joinAll pieces (inOrder (node stage (depth + 1)) (topSite view pragmas) rest)).run
        last) = left at hrest ⊢
      generalize ((joinAll pieces (inOrder (node stage (depth + 1)) (topSite view pragmas) rest)).run
        other) = right at hrest ⊢
      obtain ⟨left, _⟩ := left
      obtain ⟨right, _⟩ := right
      cases hrest with
      | error e => rfl
      | ok hsame => exact congrArg (fun r : Rendered => Except.ok r.1) hsame.symm

end

end Render

end Whisker
