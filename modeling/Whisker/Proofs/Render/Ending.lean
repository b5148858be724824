import Whisker.Proofs.Render.Steps
import Whisker.Proofs.Run.Alike
import Whisker.Proofs.View.Leaves

/-! Rendering plain data ends, unless a block leads back to itself. Inclusions are bounded by the
settings, but overrides are not: what bounds them is a rank of the names of blocks, lower for the
blocks inside an override than for the block that it overrides. -/

namespace Whisker

variable {lib : Library} {template : Text → Prop}

/-! ## Calls -/

namespace Run

variable {α β : Type}

/-- A step that changes nothing but the heap. -/
def OnHeap (step : Run α) : Prop :=
  ∀ store, (step.run store).2 = { store with heap := (step.run store).2.heap }

namespace OnHeap

theorem pure (a : α) : OnHeap (Pure.pure a) := fun _ => rfl

theorem throw (e : Failure) : OnHeap (MonadExcept.throw e : Run α) := fun _ => rfl

theorem bind {step : Run α} {next : α → Run β} (h : OnHeap step) (hn : ∀ a, OnHeap (next a)) :
    OnHeap (step >>= next) := by
  intro store
  have hs := h store
  rw [Fallible.run_bind]
  rcases hr : step.run store with ⟨e | a, after⟩
  · rwa [hr] at hs
  · rw [hr] at hs
    dsimp only at hs ⊢
    rw [hn a after, hs]

end OnHeap

/-- A store that has no more than its heap for itself. -/
def HeapOnly (start store : Store) : Prop := store = { start with heap := store.heap }

theorem heapOnly_durable (start : Store) : Store.Durable (HeapOnly start) where
  build v store hs := by
    refine ⟨?_, fun _ _ => trivial⟩
    change { store with heap := _ } = _
    rw [hs]
    rfl
  countCall id store hs := by
    refine ⟨?_, fun _ _ => trivial⟩
    cases id with
    | none => exact hs
    | some n =>
        change { store with heap := _ } = _
        rw [hs]
        rfl

theorem OnHeap.ofLeaves {step : Run α} (h : ∀ start, Leaves (HeapOnly start) step) : OnHeap step :=
  fun store => (h store store rfl).1

end Run

open Run (OnHeap)

/-- Where nothing can be rendered a call has only the heap to change. -/
theorem Value.call_onHeap (depth : Nat) (args : List Value) (v : Value) :
    OnHeap (v.call depth cannotRender args) :=
  .ofLeaves fun start =>
    v.call_leaves (Run.heapOnly_durable start) depth (fun _ => .throw _) args

/-! ## Data -/

namespace Value.Within

variable {template : Text → Prop} {v : Value} (h : v.Within (.data template))
include h

theorem isCallable_eq_false : v.isCallable = false :=
  Bool.eq_false_iff.mpr fun hc => (h.exists_callee hc).elim fun _ hf => hf

/-- Whether data has a member does not depend on the depth. -/
theorem member_cases (name : Text) :
    (∃ found, found.Within (.data template) ∧ ∀ depth, member (depth + 1) v name = pure found) ∨
      ∀ depth, member (depth + 1) v name = throw (.noSuchMember name) := by
  cases h with
  | @object o h =>
      have hp : Entries.get? o.properties name = none := by
        cases hg : Entries.get? o.properties name with
        | none => rfl
        | some f => exact (h.properties _ (Entries.mem_of_get? hg)).callee.elim
      have hm : Entries.get? o.methods name = none := by
        cases hg : Entries.get? o.methods name with
        | none => rfl
        | some method =>
            cases h.methods _ (Entries.mem_of_get? hg) with
            | bound hf => exact hf.callee.elim
            | static hf => exact hf.callee.elim
      cases hg : Entries.get? o.attributes name with
      | none => exact .inr fun depth => by simp [member, hp, hm, hg]
      | some found =>
          refine .inl ⟨found, h.attributes _ (Entries.mem_of_get? hg), fun depth => ?_⟩
          simp [member, hp, hg]
  | @record name' fields hf =>
      cases hg : Entries.get? fields name with
      | none => exact .inr fun depth => by simp [member, hg]
      | some found =>
          exact .inl ⟨found, hf _ (Entries.mem_of_get? hg), fun depth => by simp [member, hg]⟩
  | @subView t view ht hv =>
      by_cases h₁ : name = "template".toList
      · exact .inl ⟨.text t, .text t, fun depth => by simp [member, h₁]⟩
      · by_cases h₂ : name = "view".toList
        · exact .inl ⟨view, hv, fun depth => by simp [member, h₂]⟩
        · exact .inr fun depth => by simp only [member, if_neg h₁, if_neg h₂]
  | _ => exact .inr fun _ => rfl

/-- A public member of data is there or not, and in any case nothing is called. -/
theorem publicMember_eq (key : Text) :
    ∃ found, found.Within (.data template) ∧
      ∀ depth, publicMember (depth + 1) v key = pure found := by
  by_cases hk : key.head? = some '_'
  · exact ⟨.missing, .missing, fun depth => by rw [publicMember, if_pos hk]⟩
  rcases h.member_cases key with ⟨found, hf, hm⟩ | hm
  · refine ⟨found, hf, fun depth => ?_⟩
    rw [publicMember, if_neg hk, hm]
    cases hf with
    | function _ hf => exact hf.callee.elim
    | _ => rfl
  · refine ⟨.missing, .missing, fun depth => ?_⟩
    rw [publicMember, if_neg hk, hm]
    rfl

end Value.Within

/-! ## Ending -/

/-- A store of the library whose iterators gave data. -/
structure Store.Fit (lib : Library) (template : Text → Prop) (store : Store) : Prop where
  serves : store.loader.Serves lib
  met : ∀ entry ∈ store.met, ∀ v ∈ entry.2, Value.Within (.data template) v

namespace Run

variable {α β : Type} {K : α → Prop} {L : β → Prop}

/-- From some depth on the step ends like this, and not for want of depth. -/
def EndsAs (step : Nat → Run α) (store : Store) (outcome : Except Failure α × Store) : Prop :=
  Conclusive outcome.1 ∧ ∃ depth, ∀ more, depth ≤ more → (step more).run store = outcome

/-- The step ends on every store that fits, with one that fits. -/
def Ends (lib : Library) (template : Text → Prop) (K : α → Prop) (step : Nat → Run α) : Prop :=
  ∀ store : Store, store.Fit lib template → ∃ outcome, EndsAs step store outcome ∧
    outcome.2.Fit lib template ∧ ∀ a, outcome.1 = .ok a → K a

namespace Ends

/-- A step that does not depend on the depth. -/
theorem const {step : Run α} (h : ∀ store : Store, store.Fit lib template →
      Conclusive (step.run store).1 ∧ (step.run store).2.Fit lib template ∧
        ∀ a, (step.run store).1 = .ok a → K a) :
    Ends lib template K fun _ => step := by
  intro store hf
  obtain ⟨hc, ha, hK⟩ := h store hf
  exact ⟨step.run store, ⟨hc, 0, fun _ _ => rfl⟩, ha, hK⟩

theorem pure {a : α} (h : K a) : Ends lib template K fun _ => Pure.pure a :=
  const fun _ hf => ⟨.ok a, hf, by rintro _ ⟨⟩; exact h⟩

theorem throw {e : Failure} (h : e ≠ .tooDeep) :
    Ends lib template K fun _ => MonadExcept.throw e :=
  const fun _ hf => ⟨.error h, hf, by rintro _ ⟨⟩⟩

theorem bind {step : Nat → Run α} {next : Nat → α → Run β} (h : Ends lib template K step)
    (hn : ∀ a, K a → Ends lib template L fun d => next d a) :
    Ends lib template L fun d => step d >>= next d := by
  intro store hf
  obtain ⟨⟨result, after⟩, ⟨hc, depth, hs⟩, ha, hK⟩ := h store hf
  cases result with
  | error e =>
      refine ⟨(.error e, after), ⟨.error fun he => hc (by rw [he]), depth, ?_⟩, ha, by rintro _ ⟨⟩⟩
      intro more hm
      rw [Fallible.run_bind, hs more hm]
  | ok a =>
      obtain ⟨outcome, ⟨hc', depth', hs'⟩, ha', hL⟩ := hn a (hK a rfl) after ha
      refine ⟨outcome, ⟨hc', max depth depth', ?_⟩, ha', hL⟩
      intro more hm
      rw [Fallible.run_bind, hs more (by omega)]
      exact hs' more (by omega)

theorem succ {step : Nat → Run α} (h : Ends lib template K fun d => step (d + 1)) :
    Ends lib template K step := by
  intro store hf
  obtain ⟨outcome, ⟨hc, depth, hs⟩, ha, hK⟩ := h store hf
  refine ⟨outcome, ⟨hc, depth + 1, ?_⟩, ha, hK⟩
  intro more hm
  obtain ⟨less, rfl⟩ : ∃ less, more = less + 1 := ⟨more - 1, by omega⟩
  exact hs less (by omega)

theorem load {Q : α → β → Prop} {step : Loading α} {result : Except Failure β}
    (h : Loading.Gives lib Q step result) (hr : Conclusive result) :
    Ends lib template (fun a => ∃ b, result = .ok b ∧ Q a b) fun _ => Run.load step := by
  refine const fun store hf => ?_
  obtain ⟨hv, hs⟩ := h store.loader hf.serves
  rw [run_load]
  refine ⟨?_, ⟨hs, hf.met⟩, ?_⟩ <;> generalize (step.run store.loader).1 = x at hv
  · cases hv with
    | ok => exact .ok _
    | error e => exact .error fun he => hr (by rw [he])
  · rintro a rfl
    cases hv with
    | ok hQ => exact ⟨_, rfl, hQ⟩

theorem meet {id : Identity} {items : List Value} (h : ∀ v ∈ items, v.Within (.data template)) :
    Ends lib template (fun vs => ∀ v ∈ vs, v.Within (.data template))
      fun _ => Run.meetIterator id items := by
  cases id with
  | none => exact pure h
  | some n =>
      refine const fun store hf => ?_
      rw [run_meetIterator]
      cases hl : store.met.lookup n with
      | some known =>
          refine ⟨.ok known, hf, ?_⟩
          rintro _ ⟨⟩
          exact hf.met _ (mem_of_lookup hl)
      | none =>
          dsimp only
          split
          · refine ⟨.ok _, ⟨hf.serves, List.forall_mem_cons.mpr ⟨by simp, hf.met⟩⟩, ?_⟩
            rintro _ ⟨⟩
            simp
          · refine ⟨.ok _, ⟨hf.serves, List.forall_mem_cons.mpr ⟨h, hf.met⟩⟩, ?_⟩
            rintro _ ⟨⟩
            exact h

theorem warn (message : String) :
    Ends lib template (fun _ => True) fun _ => Run.warn message :=
  const fun _ hf => ⟨.ok (), ⟨hf.serves, hf.met⟩, fun _ _ => trivial⟩

theorem afresh {step : Nat → Run α} (h : Ends lib template K step) :
    Ends lib template K fun d => Run.afresh (step d) := by
  intro store hf
  obtain ⟨⟨result, after⟩, ⟨hc, depth, hs⟩, ha, hK⟩ := h { store with met := [] }
    ⟨hf.serves, by simp⟩
  refine ⟨(result, { after with met := store.met }), ⟨hc, depth, ?_⟩, ⟨ha.serves, hf.met⟩, hK⟩
  intro more hm
  have hrun : (Run.afresh (step more)).run store =
      (((step more).run { store with met := [] }).1,
        { ((step more).run { store with met := [] }).2 with met := store.met }) := rfl
  rw [hrun, hs more hm]

end Ends

end Run

/-- A function of which every call with a value ends. -/
def Value.CallEnds (f : Value) : Prop :=
  ∀ v store, ∃ outcome, Run.EndsAs (fun d => f.call d cannotRender [v]) store outcome

theorem Value.CallEnds.ends {f : Value} (h : f.CallEnds) (v : Value) :
    Run.Ends lib template (fun _ => True) fun d => f.call d cannotRender [v] := by
  intro store hf
  obtain ⟨outcome, hc, depth, hs⟩ := h v store
  refine ⟨outcome, ⟨hc, depth, hs⟩, ?_, fun _ _ => trivial⟩
  have hheap := call_onHeap depth [v] f store
  rw [hs depth (Nat.le_refl _)] at hheap
  rw [hheap]
  exact ⟨hf.serves, hf.met⟩

/-- Ending passes from the steps of a rendering to the whole. -/
def Run.ending (lib : Library) (template : Text → Prop) :
    Run.Logic lib (.data template) Value.CallEnds fun _ => True where
  Holds := Run.Ends lib template
  pure := .pure
  throw := .throw
  bind := .bind
  load _ h hr _ hn := .bind (.load h hr) fun a ⟨b, hb, hQ⟩ => hn hb hQ
  meet _ h := .meet h
  warn := .warn
  afresh _ h := h.afresh
  publicMember h key := by
    obtain ⟨found, hf, hm⟩ := h.publicMember_eq key
    exact .succ (by simpa only [hm] using .pure hf)
  call h _ _ := by
    simp only [Value.call_of_not_isCallable h.isCallable_eq_false]
    exact .throw (by simp)
  apply h _ := h.ends _
  passed_of_within _ := trivial

/-! ## Ranks -/

namespace Node

/-- The blocks that render where the node stands have ranks below `bound`, and so have those inside
an override below the rank of the block that it overrides. Of what is inside a parent tag only the
overrides count. -/
inductive Ranked (rank : Text → Nat) : Nat → Node → Prop where
  | text {bound content} : Ranked rank bound (.text content)
  | variable {bound name isEscaped place} : Ranked rank bound (.variable name isEscaped place)
  | comment {bound content} : Ranked rank bound (.comment content)
  | delimiterChange {bound d} : Ranked rank bound (.delimiterChange d)
  | pragma {bound call place} : Ranked rank bound (.pragma call place)
  | inclusion {bound name indent} : Ranked rank bound (.inclusion name indent)
  | plain {bound name children body d place indent}
      (hc : ∀ child ∈ children, Ranked rank bound child) :
      Ranked rank bound (.enclosure .plain name children body d place indent)
  | inverted {bound name children body d place indent}
      (hc : ∀ child ∈ children, Ranked rank bound child) :
      Ranked rank bound (.enclosure .inverted name children body d place indent)
  | block {bound name children body d place indent} (hr : rank name < bound)
      (hc : ∀ child ∈ children, Ranked rank bound child) :
      Ranked rank bound (.enclosure .block name children body d place indent)
  | parent {bound name children body d place indent}
      (ho : ∀ entry ∈ Render.blocksOf children, ∀ n ∈ entry.2, Ranked rank (rank entry.1) n) :
      Ranked rank bound (.enclosure .parent name children body d place indent)

def IsBlock (name : Text) (n : Node) : Prop :=
  ∃ children body d place indent, n = .enclosure .block name children body d place indent

/-- A document has only so many blocks. -/
def RankedDocument (rank : Text → Nat) (nodes : List Node) : Prop :=
  ∃ bound, ∀ n ∈ nodes, n.Ranked rank bound

end Node

open Node (Ranked RankedDocument)

/-- Overrides with blocks of lower rank than the block that each overrides. -/
def RankedBlocks (rank : Text → Nat) (blocks : Entries (List Node)) : Prop :=
  ∀ entry ∈ blocks, ∀ n ∈ entry.2, n.Ranked rank (rank entry.1)

namespace Render

variable {rank : Text → Nat}

theorem overrides_ranked {outer : Entries (List Node)} {children : List Node}
    (ho : RankedBlocks rank outer) (hc : RankedBlocks rank (blocksOf children)) :
    RankedBlocks rank (overrides outer children) := by
  intro entry he
  rcases Entries.mem_foldl_put he with he | he
  · exact hc entry he
  · exact ho entry he

section

variable {stage : Stage} (hu : stage.Uses Value.CallEnds)
include hu

/-- Between two inclusions the overrides stay the same. Where one takes the place of a block, ranks
get lower, and in the other cases the node gets smaller. -/
theorem node_ends_of_included {blocks : Entries (List Node)} {chain : List Text}
    (hb : RankedBlocks rank blocks)
    (hi : ∀ scope pragmas blocks name nodes, Scope.Within (.data template) scope →
      RankedBlocks rank blocks → chain.length < stage.settings.maxPartialDepth →
      Included lib template stage.partials nodes →
      Renders (Run.ending lib template) (fun d => inOrder (node stage d))
        ⟨scope, pragmas, blocks, name :: chain⟩ nodes)
    {bound : Nat} {n : Node} (hn : n.Ranked rank bound) {scope : Scope}
    (hs : scope.Within (.data template)) (pragmas : Pragmas) :
    (Run.ending lib template).Holds (fun _ => True)
      fun d => node stage d ⟨scope, pragmas, blocks, chain⟩ n := by
  let L := Run.ending lib template
  have hk := Loading.allKeep_true template stage.partials
  -- data has nothing to call, so no text is rendered for a function
  have hcall (site : Site) : (∃ id, (Contents.data template).callee id) →
      ∀ nodes, Renders L (fun d => inOrder (node stage d)) site nodes := fun ⟨_, h⟩ => h.elim
  induction bound using Nat.strongRecOn generalizing n scope pragmas with
  | ind bound ihbound =>
      induction hn generalizing scope pragmas with
      | plain hc ih =>
          refine .succ (L.bind (section_holds L hk hs (hcall _) (fun v hv label pragmas => ?_) _ _ _)
            fun _ _ => L.pure trivial)
          refine inOrder_holds L fun child hm pragmas => ?_
          exact ih child hm ihbound (hs.push hv label) pragmas
      | inverted hc ih =>
          refine .succ (L.bind (invertedSection_holds L hs ?_ _) fun _ _ => L.pure trivial)
          exact inOrder_holds L fun child hm pragmas => ih child hm ihbound hs pragmas
      | @block bound name children _ _ _ _ hr hc ih =>
          refine .succ (L.bind (K := fun _ => True) ?_ fun _ _ => L.pure trivial)
          cases hg : blocks.get? name with
          | none => exact inOrder_holds L fun child hm pragmas => ih child hm ihbound hs pragmas
          | some body =>
              refine inOrder_holds L fun child hm pragmas => ?_
              exact ihbound _ hr (hb _ (Entries.mem_of_get? hg) child hm) hs pragmas
      | parent ho =>
          refine .succ (L.bind (parent_holds L hk (fun _ _ hlt hnodes => ?_) _) fun _ _ =>
            L.pure trivial)
          exact hi _ _ _ _ _ hs (overrides_ranked hb ho) hlt hnodes
      | inclusion =>
          refine .succ (L.bind (inclusion_holds L hk hs (fun _ _ _ hs hlt hnodes => ?_) _) fun _ _ =>
            L.pure trivial)
          exact hi _ _ _ _ _ hs hb hlt hnodes
      | «variable» =>
          exact .succ (L.bind (variable_holds L hk hs (hcall _) hu _ _) fun _ _ => L.pure trivial)
      | pragma => exact .succ (L.bind (enable_holds L _ _) fun _ _ => L.pure trivial)
      | _ => exact .succ (L.pure trivial)

variable (hi : ∀ nodes, Included lib template stage.partials nodes → RankedDocument rank nodes)
include hi

/-- An inclusion leaves less room for others, whatever it brings along. -/
theorem inOrder_ends {bound : Nat} {site : Site} {nodes : List Node}
    (hn : ∀ n ∈ nodes, n.Ranked rank bound) (hs : site.scope.Within (.data template))
    (hb : RankedBlocks rank site.blocks) :
    Renders (Run.ending lib template) (fun d => inOrder (node stage d)) site nodes := by
  let L := Run.ending lib template
  induction hroom : stage.settings.maxPartialDepth - site.chain.length using Nat.strongRecOn
    generalizing bound site nodes with
  | ind room ih =>
      refine inOrder_holds L fun n hm pragmas => ?_
      refine node_ends_of_included hu hb (fun _ _ _ _ nodes hs hb hlt hnodes => ?_) (hn n hm) hs
        pragmas
      obtain ⟨bound, hn⟩ := hi nodes hnodes
      exact ih _ (by rw [List.length_cons]; omega) hn hs hb rfl

theorem document_ends {view : Value} (hv : view.Within (.data template)) {nodes : List Node}
    (hn : RankedDocument rank nodes) :
    Run.Ends lib template (fun _ => True) fun d => document stage d view nodes := by
  let L := Run.ending lib template
  obtain ⟨bound, hn⟩ := hn
  refine L.bind (initialPragmas_holds L stage.settings) fun pragmas _ => ?_
  refine L.bind (inOrder_ends hu hi hn (Scope.ofView_within hv) ?_) fun _ _ => L.pure trivial
  exact fun entry he => absurd he List.not_mem_nil

end

/-! ## Blocks that lead back to themselves -/

theorem run_inOrder_cons_error {one : Site → Node → Run (Piece × Pragmas)} {site : Site} {n : Node}
    {store after : Store} {e : Failure} (h : (one site n).run store = (.error e, after))
    (nodes : List Node) : (inOrder one site (n :: nodes)).run store = (.error e, after) := by
  rw [inOrder, List.foldlM_cons, bind_assoc, Fallible.run_bind, Fallible.run_bind, h]

/-- An override that starts with a block of the same name is never done. -/
theorem run_block_reentered {stage : Stage} {site : Site} {name : Text} {inner : Node}
    {rest : List Node} (h : site.blocks.get? name = some (inner :: rest))
    (hi : inner.IsBlock name) (depth : Nat) {n : Node} (hn : n.IsBlock name) (store : Store) :
    (node stage depth site n).run store = (.error .tooDeep, store) := by
  induction depth generalizing n with
  | zero => rfl
  | succ depth ih =>
      obtain ⟨children, body, d, place, indent, rfl⟩ := hn
      simp only [node, step, h, Option.getD_some]
      rw [Fallible.run_bind, run_inOrder_cons_error (ih hi)]

/-- Nor is a template that starts with such a block, where a parent tag brings the override. -/
theorem run_parent_reentered {stage : Stage} {site : Site} {name block : Text}
    {children rest more : List Node} {first inner : Node}
    (hd : lib.included? stage.partials name = .ok (some (first :: more)))
    (hf : first.IsBlock block)
    (ho : (overrides site.blocks children).get? block = some (inner :: rest))
    (hi : inner.IsBlock block)
    (hsite : ∀ store : Store, ∃ pragmas, (includedSite stage.settings site name).run store =
      (.ok { site with pragmas, chain := name :: site.chain }, store))
    (depth : Nat) (body : Text) (d : Delimiters) (place : Place) (indent : Text) {store : Store}
    (hs : store.loader.Serves lib) :
    ((node stage depth site (.enclosure .parent name children body d place indent)).run store).1 =
      .error .tooDeep := by
  cases depth with
  | zero => rfl
  | succ depth =>
      obtain ⟨found, loader, hl, hfound, -⟩ :=
        Run.run_load_of_gives (Loading.included?_gives stage.partials name) hd hs
      obtain ⟨document, rfl, hn⟩ := Option.map_eq_some_iff.mp hfound
      obtain ⟨pragmas, hsite⟩ := hsite { store with loader }
      have hrun : (included? stage name).run store =
          (.ok (some document), { store with loader }) := by
        rw [included?, Fallible.run_bind, hl]
        rfl
      simp only [node, step, parent]
      rw [Fallible.run_bind, Fallible.run_bind, hrun]
      dsimp only
      rw [Fallible.run_bind, hsite]
      dsimp only
      rw [hn, Fallible.run_bind, run_inOrder_cons_error (run_block_reentered ho hi depth hf _)]

end Render

end Whisker
