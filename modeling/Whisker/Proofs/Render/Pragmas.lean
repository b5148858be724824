import Mathlib
import Whisker.Proofs.Render.Order

/-! Where pragmas act. What a node leads into keeps its pragmas to itself, so that behind the nodes
of a template just those pragmas are in force that the template itself wrote, in its sections and
in what fills its blocks. -/

namespace Whisker

open Run (Yields YieldsAt)

/-! ## Pragmas that a template writes -/

/-- The pragmas in force after these calls, one after another. -/
inductive Pragmas.Enables : Pragmas → List PragmaCall → Pragmas → Prop where
  | nil (p) : Enables p [] p
  | cons {p q r call calls warnings} (h : p.enable call.name call.params = .ok (q, warnings))
      (hr : Enables q calls r) : Enables p (call :: calls) r

theorem Pragmas.Enables.append {p q r : Pragmas} {calls more : List PragmaCall}
    (h : p.Enables calls q) (hm : q.Enables more r) : p.Enables (calls ++ more) r := by
  induction h with
  | nil => exact hm
  | cons h _ ih => exact .cons h (ih hm)

/-- The template of a node calls a pragma there or inside the node. Of a block this is where its
override does; what an inclusion, a parent tag or a function leads into is not the template's. -/
inductive Node.Writes (blocks : Entries (List Node)) (call : PragmaCall) : Node → Prop where
  | pragma {place} : Writes blocks call (.pragma call place)
  | plain {name children body d place indent n} (hm : n ∈ children) (h : Writes blocks call n) :
      Writes blocks call (.enclosure .plain name children body d place indent)
  | inverted {name children body d place indent n} (hm : n ∈ children)
      (h : Writes blocks call n) :
      Writes blocks call (.enclosure .inverted name children body d place indent)
  | block {name children body d place indent n}
      (hm : n ∈ (blocks.get? name).getD children) (h : Writes blocks call n) :
      Writes blocks call (.enclosure .block name children body d place indent)

/-- Calls that the nodes write lead from the one pragmas to the other. -/
def Pragmas.Leads (blocks : Entries (List Node)) (nodes : List Node) (p q : Pragmas) : Prop :=
  ∃ calls, p.Enables calls q ∧ ∀ call ∈ calls, ∃ n ∈ nodes, n.Writes blocks call

namespace Pragmas.Leads

variable {blocks : Entries (List Node)} {nodes : List Node} {p q r : Pragmas}

theorem refl (p : Pragmas) : Leads blocks nodes p p := ⟨[], .nil p, by simp⟩

theorem trans (h : Leads blocks nodes p q) (hr : Leads blocks nodes q r) :
    Leads blocks nodes p r := by
  obtain ⟨calls, hc, hw⟩ := h
  obtain ⟨more, hm, hw'⟩ := hr
  refine ⟨calls ++ more, hc.append hm, fun call hcall => ?_⟩
  exact (List.mem_append.mp hcall).elim (hw call) (hw' call)

theorem mono {blocks' : Entries (List Node)} {nodes' : List Node} (h : Leads blocks nodes p q)
    (hw : ∀ n ∈ nodes, ∀ call, n.Writes blocks call → ∃ n ∈ nodes', n.Writes blocks' call) :
    Leads blocks' nodes' p q := by
  obtain ⟨calls, hc, hcalls⟩ := h
  refine ⟨calls, hc, fun call hcall => ?_⟩
  obtain ⟨n, hn, h⟩ := hcalls call hcall
  exact hw n hn call h

/-- What the children of a node write, the node writes. -/
theorem inside {n : Node} (h : Leads blocks nodes p q)
    (hw : ∀ child ∈ nodes, ∀ call, child.Writes blocks call → n.Writes blocks call) :
    Leads blocks [n] p q :=
  h.mono fun child hm call hc => ⟨n, List.mem_singleton_self n, hw child hm call hc⟩

end Pragmas.Leads

open Pragmas (Leads)

namespace Render

variable {stage : Stage}

/-! ## Pragmas behind nodes -/

theorem warned_yields (result : Except Failure Pragmas.Warned) :
    Yields (fun _ => True) (fun p => ∃ warnings, result = .ok (p, warnings))
      (warned result) := by
  cases result with
  | error e => exact .throw e
  | ok warned => exact .bind (.any _) fun _ _ => .pure ⟨warned.2, rfl⟩

theorem step_leads {nested : Nested} (hn : ∀ site nodes, Yields (fun _ => True)
      (fun rendered => Leads site.blocks nodes site.pragmas rendered.2) (nested site nodes))
    (depth : Nat) (site : Site) (n : Node) :
    Yields (fun _ => True) (fun result => Leads site.blocks [n] site.pragmas result.2)
      (step stage depth nested site n) := by
  cases n with
  | text => exact .pure (.refl _)
  | comment => exact .pure (.refl _)
  | delimiterChange => exact .pure (.refl _)
  | «variable» => exact .bind (.any _) fun _ _ => .pure (.refl _)
  | pragma call place =>
      refine .bind (warned_yields (site.pragmas.enable call.name call.params)) fun p hp => .pure ?_
      obtain ⟨warnings, hp⟩ := hp
      exact ⟨[call], .cons hp (.nil p), by simpa using .pragma⟩
  | inclusion => exact .bind (.any _) fun _ _ => .pure (.refl _)
  | enclosure kind name children body d place indent =>
      cases kind with
      | plain =>
          refine .bind (K := fun rendered => Leads site.blocks _ site.pragmas rendered.2) ?_
            fun rendered h => .pure h
          refine .bind (.any _) fun v _ => .bind (.any _) fun value _ => ?_
          cases value with
          | falsy => exact .pure (.refl _)
          | list items =>
              refine .foldlM (.refl _) fun rendered h item _ => ?_
              refine .bind (hn _ children) fun more hmore => .pure (h.trans ?_)
              exact hmore.inside fun child hm call hw => .plain hm hw
          | lambda => exact .bind (.any _) fun _ _ => .pure (.refl _)
          | frame =>
              refine (hn _ children).mono fun rendered h => ?_
              exact h.inside fun child hm call hw => .plain hm hw
      | inverted =>
          refine .bind (K := fun rendered => Leads site.blocks _ site.pragmas rendered.2) ?_
            fun rendered h => .pure h
          refine .bind (.any _) fun v _ => .bind (.any _) fun value _ => ?_
          split
          · refine (hn site children).mono fun rendered h => ?_
            exact h.inside fun child hm call hw => .inverted hm hw
          · exact .pure (.refl _)
      | block =>
          refine .bind (hn site _) fun rendered h => .pure ?_
          exact h.inside fun child hm call hw => .block hm hw
      | parent => exact .bind (.any _) fun _ _ => .pure (.refl _)

theorem inOrder_leads {one : Site → Node → Run (Piece × Pragmas)}
    (hone : ∀ site n, Yields (fun _ => True)
      (fun result => Leads site.blocks [n] site.pragmas result.2) (one site n))
    (site : Site) (nodes : List Node) :
    Yields (fun _ => True) (fun rendered => Leads site.blocks nodes site.pragmas rendered.2)
      (inOrder one site nodes) := by
  refine (inOrder_yields (K := fun _ => True) (P := Leads site.blocks nodes site.pragmas) (.refl _)
    fun n hn pragmas hp => ?_).mono fun rendered h => h.2
  refine (hone { site with pragmas } n).mono fun result h => ⟨trivial, hp.trans ?_⟩
  exact h.mono fun m hm call hw => ⟨n, hn, List.mem_singleton.mp hm ▸ hw⟩

theorem node_leads (stage : Stage) (depth : Nat) (site : Site) (n : Node) :
    Yields (fun _ => True) (fun result => Leads site.blocks [n] site.pragmas result.2)
      (node stage depth site n) := by
  induction depth generalizing site n with
  | zero => exact .throw _
  | succ depth ih => exact step_leads (inOrder_leads ih) depth site n

/-! ## What a node leads into -/

/-- A node that leads into other texts than its template: those of functions, of partials, of
sub-views and of parents. -/
def LeadsOut (depth : Nat) (site : Site) (store : Store) : Node → Prop
  | .variable .. | .inclusion .. | .enclosure .parent .. => True
  | .enclosure .plain name .. =>
    ∃ f, ((site.scope.resolve depth name).run store).1 = .ok f ∧ f.isCallable = true
  | _ => False

theorem step_leadsOut {nested : Nested} {depth : Nat} {site : Site} {store : Store} {n : Node}
    (h : LeadsOut depth site store n) :
    YieldsAt (fun _ => True) (fun result => result.2 = site.pragmas) store
      (step stage depth nested site n) := by
  have lift {x : Run (Piece × Pragmas)}
      (h : Yields (fun _ => True) (fun result => result.2 = site.pragmas) x) :
      YieldsAt (fun _ => True) (fun result => result.2 = site.pragmas) store x := h store trivial
  cases n with
  | «variable» => exact lift (.bind (.any _) fun _ _ => .pure rfl)
  | inclusion => exact lift (.bind (.any _) fun _ _ => .pure rfl)
  | enclosure kind name children body d place indent =>
      cases kind with
      | plain =>
          obtain ⟨f, hf, hcall⟩ := h
          refine YieldsAt.bind (K := fun rendered => rendered.2 = site.pragmas) ?_
            fun rendered h _ => .pure h
          refine (Yields.any _ store trivial).bind fun v _ hv => ?_
          cases hf.symm.trans hv
          have hl : SectionValue.ofValue f = pure .lambda := by
            unfold SectionValue.ofValue
            rw [if_pos hcall]
          rw [hl, pure_bind]
          exact .bind (.any _) fun _ _ => .pure rfl
      | parent => exact lift (.bind (.any _) fun _ _ => .pure rfl)
      | _ => cases h
  | _ => cases h

/-! ## Behind what a node leads into -/

theorem join_leads {blocks : Entries (List Node)} {nodes : List Node} {p : Pragmas} (piece : Piece)
    {rest : Run Rendered}
    (h : Yields (fun _ => True) (fun rendered => Leads blocks nodes p rendered.2) rest) :
    Yields (fun _ => True) (fun rendered => Leads blocks nodes p rendered.2) (join piece rest) :=
  .bind h fun _ hrest => .bind (.any _) fun _ _ => .pure hrest

/-- A node that leads into other texts leaves the pragmas of its template as they were, whatever is
enabled in those texts: the nodes behind it are rendered at the very same site, and only what they
write themselves is in force behind them. -/
theorem inOrder_leadsOut (stage : Stage) {depth : Nat} {site : Site} {store : Store} {n : Node}
    (h : LeadsOut depth site store n) (rest : List Node) :
    (∀ piece pragmas, ((node stage (depth + 1) site n).run store).1 = .ok (piece, pragmas) →
      pragmas = site.pragmas) ∧
    (inOrder (node stage (depth + 1)) site (n :: rest)).run store = (do
      let (piece, _) ← node stage (depth + 1) site n
      join piece (inOrder (node stage (depth + 1)) site rest) : Run Rendered).run store ∧
    ∀ t pragmas, ((inOrder (node stage (depth + 1)) site (n :: rest)).run store).1 =
      .ok (t, pragmas) → site.pragmas.Leads site.blocks rest pragmas := by
  obtain ⟨-, hsame⟩ := @step_leadsOut stage (inOrder (node stage depth)) _ _ _ _ h
  have hbehind : (inOrder (node stage (depth + 1)) site (n :: rest)).run store = (do
      let (piece, _) ← node stage (depth + 1) site n
      join piece (inOrder (node stage (depth + 1)) site rest) : Run Rendered).run store := by
    rw [inOrder_cons, Fallible.run_bind, Fallible.run_bind]
    rcases hrun : (node stage (depth + 1) site n).run store with ⟨result, after⟩
    cases result with
    | ok result =>
        obtain ⟨piece, pragmas⟩ := result
        obtain rfl : pragmas = site.pragmas := hsame (piece, pragmas) (congrArg Prod.fst hrun)
        rfl
    | error e => rfl
  refine ⟨fun piece pragmas hrun => hsame _ hrun, hbehind, fun t pragmas hrun => ?_⟩
  rw [hbehind] at hrun
  have hrest : Yields (fun _ => True)
      (fun rendered => site.pragmas.Leads site.blocks rest rendered.2) (do
        let (piece, _) ← node stage (depth + 1) site n
        join piece (inOrder (node stage (depth + 1)) site rest)) :=
    .bind (.any _) fun result _ => join_leads _ (inOrder_leads (node_leads stage _) site rest)
  exact (hrest store trivial).2 _ hrun

/-- A variable with a filter in its tag. Where filters are not in force, all of it is a name. -/
def filtered : Node := .variable "x|upper".toList true .start

/-- A view with a function that renders the body of its section, and with a value under the name that
the tag of the variable is without filters. -/
def enablingSite : Site :=
  let rendering : Value := .function (.mk none (.exactly 2) (.render (.argument 0))) none false
  ⟨Scope.ofView (.dict [(['f'], rendering), (['x'], .text ['v']),
    ("x|upper".toList, .text ['w'])]), .none true, [], []⟩

/-- In the body of the section filters are enabled in front of the variable. -/
def enablingSection : Node :=
  .enclosure .plain ['f'] [.pragma ⟨Pragmas.filters, []⟩ .start, filtered]
    "{{%FILTERS}}{{x|upper}}".toList .standard .start []

/-- Filters are in force for the variable inside the section, and not for the same one behind it. -/
theorem enablingSection_leadsOut :
    let stage : Stage := ⟨.standard, [], none, []⟩
    let store := Store.fresh (.fresh 0) (.fresh .empty (.memory 1 []) (.empty true) .standard)
    LeadsOut 3 enablingSite store enablingSection ∧
    ((inOrder (node stage 4) enablingSite [enablingSection, filtered]).run store).1 =
      .ok (['V', 'w'], .none true) ∧
    (Pragmas.none true).Leads [] [filtered] (.none true) := by
  intro stage store
  have h : LeadsOut 3 enablingSite store enablingSection := ⟨_, rfl, rfl⟩
  have hrun : ((inOrder (node stage 4) enablingSite [enablingSection, filtered]).run store).1 =
      .ok (['V', 'w'], .none true) := by cbv
  exact ⟨h, hrun, (inOrder_leadsOut stage h [filtered]).2.2 _ _ hrun⟩

end Render

end Whisker
