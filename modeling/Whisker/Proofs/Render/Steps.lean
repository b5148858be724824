import Whisker.Proofs.View.Resolve
import Whisker.Render

/-! The steps of a rendering in its logic. What passes from steps to the whole holds of a node, if
it holds of the renderings that the node leads into: of its children, of the documents that it
includes, of the overrides of blocks, and of the texts that functions have rendered. -/

namespace Whisker

variable {lib : Library} {c : Contents} {function passed : Value → Prop} {kept : Loader → Prop}
  (L : Run.LogicOf lib c function passed kept)

/-- The functions of the engine that a rendering can call. -/
structure Stage.Uses (function : Value → Prop) (stage : Stage) : Prop where
  escape : ∀ f, stage.escape = some f → function f
  filters : ∀ entry ∈ stage.filters, function entry.2

theorem Stage.Uses.mono {stage : Stage} {other : Value → Prop} (h : stage.Uses function)
    (hf : ∀ f, function f → other f) : stage.Uses other :=
  ⟨fun f he => hf f (h.escape f he), fun entry he => hf _ (h.filters entry he)⟩

/-! ## Pragmas -/

namespace Pragmas

theorem enable_flat (p : Pragmas) (name : Text) (params : Entries Text) :
    Flat (p.enable name params) := by
  rw [enable]
  split
  · exact .ok _
  · split
    · exact .error rfl
    · exact .ok _

theorem ofNames_flat (strict : Bool) (names : List Text) :
    Flat (ofNames strict names) := by
  rw [ofNames, enableAll]
  generalize Entries.ofPairs _ = calls
  generalize ((none strict, []) : Warned) = start
  induction calls generalizing start with
  | nil => exact .ok _
  | cons call calls ih =>
      rw [List.foldlM_cons]
      exact .bind (.bind (enable_flat _ _ _) fun _ => .ok _) ih

end Pragmas

theorem Piece.ofValue_flat (v : Value) : Flat (ofValue v) := by
  unfold ofValue
  split
  · exact .ok _
  · exact (Object.size?_flat _).map _
  · exact .ok _

namespace Render

/-- The step renders these nodes at this place, and what the logic is about holds of it. -/
abbrev Renders (nested : Nat → Nested) (site : Site) (nodes : List Node) : Prop :=
  L.Holds (fun _ => True) fun d => nested d site nodes

theorem inOrder_holds {one : Nat → Site → Node → Run (Piece × Pragmas)} {site : Site}
    {nodes : List Node} (h : ∀ node ∈ nodes, ∀ pragmas,
      L.Holds (fun _ => True) fun d => one d { site with pragmas } node) :
    Renders L (fun d => inOrder (one d)) site nodes := by
  simp only [Renders, inOrder]
  refine L.bind (K := fun _ => True) (L.foldlM trivial fun n hn state _ => ?_) fun result _ => ?_
  · exact L.bind (h n hn _) fun _ _ => L.pure trivial
  · refine L.bind (L.mapM fun piece _ => ?_) fun texts _ => L.pure trivial
    cases piece with
    | text t => exact L.pure trivial
    | unfit => exact L.throw (by simp)

/-- Pragmas that come with warnings, or a failure. -/
def warned (result : Except Failure Pragmas.Warned) : Run Pragmas := do
  match result with
  | .error e => throw e
  | .ok (pragmas, warnings) =>
    warnings.forM Run.warn
    return pragmas

theorem initialPragmas_eq (settings : Settings) :
    initialPragmas settings = warned (Pragmas.ofNames settings.strictPragmas settings.pragmas) :=
  rfl

theorem warned_holds {result : Except Failure Pragmas.Warned} (h : Conclusive result) :
    L.Holds (fun _ => True) fun _ => warned result := by
  cases result with
  | error e => exact L.throw fun he => h (by rw [he])
  | ok warned => exact L.bind (L.forM L.warn) fun _ _ => L.pure trivial

theorem enable_holds (site : Site) (call : PragmaCall) :
    L.Holds (fun _ => True) fun _ => enable site call :=
  warned_holds L (Pragmas.enable_flat _ _ _).conclusive

theorem initialPragmas_holds (settings : Settings) :
    L.Holds (fun _ => True) fun _ => initialPragmas settings :=
  warned_holds L (Pragmas.ofNames_flat _ _).conclusive

/-- A text that a function has rendered. -/
theorem built_holds {given : Entries Text} (hk : Loading.AllKeep kept c.template given)
    {nested : Nat → Nested} {site : Site} (hn : ∀ nodes, Renders L nested site nodes)
    (d : Delimiters) (t : Text) :
    L.Holds (fun _ => True) fun depth => do
      let document ← Run.load (Loading.build d t)
      return (← nested depth site document.nodes).1 := by
  refine L.load (hk.build d t) (Loading.build_gives d t) (Library.built_flat d t).conclusive ?_
    fun _ _ => ?_
  · rintro document document' _ hd rfl depth
    rw [hd]
  · exact L.bind (hn _) fun _ _ => L.pure trivial

/-! ## Variables -/

theorem escaped_holds {stage : Stage} (h : stage.Uses function) (t : Text) :
    L.Holds (fun _ => True) fun d => escaped stage d t := by
  unfold escaped
  split
  · exact L.pure trivial
  · rename_i f hf
    refine L.bind (L.apply (h.escape f (Stage.escape_of_escaping? hf))
      (L.passed_of_within (.text t))) fun v _ => ?_
    have hv := (Piece.ofValue_flat v).conclusive
    split
    · exact L.pure trivial
    · rename_i e he
      exact L.throw fun h => hv (by rw [he, h])

section

variable {given : Entries Text} (hk : Loading.AllKeep kept c.template given) {site : Site}
  (hs : site.scope.Within c) {nested : Nat → Nested}
  (hcall : (∃ id, c.callee id) → ∀ nodes, Renders L nested site nodes)
include hk hs hcall

theorem variableValue_holds (name : Text) :
    L.Holds (Value.Within c) fun d => variableValue (nested d) d site name := by
  simp only [variableValue]
  refine L.bind (Scope.resolve_holds L hs name) fun v hv => ?_
  split
  · exact L.pure hv.1
  · rename_i hc
    have hn := hcall (hv.1.exists_callee (by simpa using hc))
    refine L.bind (L.call hv.1 (fun _ => L.throw (by simp)) (by simp)) fun result _ => ?_
    split
    · exact L.pure (.text _)
    · refine L.load (hk.build _ _) (Loading.build_gives _ _) (Library.built_flat _ _).conclusive ?_
        fun _ _ => ?_
      · rintro document document' _ hd rfl depth
        rw [hd]
      · exact L.bind (hn _) fun _ _ => L.pure (.text _)

theorem variable_holds {stage : Stage} (h : stage.Uses function) (name : Text)
    (isEscaped : Bool) :
    L.Holds (fun _ => True) fun d => variable_ stage (nested d) d site name isEscaped := by
  simp only [variable_]
  generalize (if site.pragmas.isEnabled Pragmas.filters then _ else _ : Text × List Text) = parts
  refine L.bind (variableValue_holds L hk hs hcall parts.1) fun v hv => ?_
  split
  · exact L.pure trivial
  · refine L.bind (Filter.applyAll_holds L h.filters parts.2 (L.passed_of_within hv)) fun w _ => ?_
    split
    · exact L.pure trivial
    · split
      · exact escaped_holds L h _
      · exact L.pure trivial

/-! ## Sections -/

omit hs in
theorem lambdaSection_holds (delimiters : Delimiters) (body : Text) {f : Value} (hf : f.Within c)
    (hc : ∃ id, c.callee id) :
    L.Holds (fun _ => True) fun d => lambdaSection (nested d) d site delimiters body f := by
  simp only [lambdaSection]
  refine L.bind (L.call hf (built_holds L hk (hcall hc) delimiters) ?_) fun result _ => ?_
  · obtain ⟨id, hid⟩ := hc
    exact List.forall_mem_cons.mpr ⟨.text _, List.forall_mem_singleton.mpr (.renderer hid)⟩
  · split <;> exact L.pure trivial

theorem section_holds {children : List Node} (hn : ∀ v : Value, v.Within c → ∀ label pragmas,
      Renders L nested { site with scope := site.scope.push v label, pragmas } children)
    (name : Text) (delimiters : Delimiters) (body : Text) :
    L.Holds (fun _ => True) fun d => section_ (nested d) d site name children delimiters body := by
  simp only [section_]
  refine L.bind (Scope.resolve_holds L hs name) fun v hv => ?_
  refine L.bind (SectionValue.ofValue_holds L hv.1 hv.2) fun value hvalue => ?_
  cases value with
  | falsy => exact L.pure trivial
  | list items =>
      refine L.foldlM trivial fun item hi _ _ => ?_
      exact L.bind (hn item (hvalue item hi) _ _) fun _ _ => L.pure trivial
  | lambda =>
      refine L.bind (lambdaSection_holds L hk hcall delimiters body hv.1 hvalue) fun _ _ => ?_
      exact L.pure trivial
  | frame => exact hn v hv.1 none site.pragmas

omit hk hcall in
theorem invertedSection_holds {children : List Node} (hn : Renders L nested site children)
    (name : Text) :
    L.Holds (fun _ => True) fun d => invertedSection (nested d) d site name children := by
  simp only [invertedSection]
  refine L.bind (Scope.resolve_holds L hs name) fun v hv => ?_
  refine L.bind (SectionValue.ofValue_holds L hv.1 hv.2) fun value _ => ?_
  split
  · exact hn
  · exact L.pure trivial

end

/-! ## Inclusions -/

/-- A partial is missing in all stores or in none; what follows must look at its nodes only. -/
theorem included?_bind_holds {α : Type} {K : α → Prop} (stage : Stage) (name : Text)
    (hk : Loading.Keeps kept (Loading.included? stage.partials name))
    {next : Nat → Option Document → Run α} (hnone : L.Holds K fun d => next d none)
    (hsame : ∀ {document document' : Document}, document.nodes = document'.nodes →
      ∀ d, next d (some document) = next d (some document'))
    (hsome : ∀ document : Document,
      lib.included? stage.partials name = .ok (some document.nodes) →
        L.Holds K fun d => next d (some document)) :
    L.Holds K fun d => included? stage name >>= next d := by
  simp only [included?, bind_assoc]
  refine L.load hk (Loading.included?_gives stage.partials name)
    (lib.included?_flat _ _).conclusive ?_ ?_
  · rintro found found' nodes hf hf' d
    rcases hf.cases hf' with ⟨rfl, rfl⟩ | ⟨document, document', rfl, rfl, hd⟩
    · rfl
    · exact hsame hd d
  · rintro found nodes hnodes rfl
    cases found with
    | some document => exact hsome document hnodes
    | none =>
        dsimp only
        split
        · exact L.bind (K := fun _ => False) (L.throw (by simp)) fun _ h => h.elim
        · simp only [bind_assoc]
          exact L.bind (L.warn _) fun _ _ => hnone

theorem includedSite_holds (settings : Settings) (site : Site) (name : Text) :
    L.Holds (fun inner => ∃ pragmas, inner = { site with pragmas, chain := name :: site.chain } ∧
        site.chain.length < settings.maxPartialDepth)
      fun _ => includedSite settings site name := by
  simp only [includedSite]
  split
  · exact L.throw (by simp)
  · rename_i hd
    have hlt : site.chain.length < settings.maxPartialDepth := by
      rw [List.length_cons] at hd
      omega
    split
    · exact L.pure ⟨_, rfl, hlt⟩
    · exact L.bind (initialPragmas_holds L settings) fun pragmas _ => L.pure ⟨pragmas, rfl, hlt⟩

theorem subView?_holds {site : Site} (hs : site.scope.Within c) (name : Text) :
    L.Holds (fun found => ∀ pair, found = some pair → c.template pair.1 ∧ pair.2.Within c)
      fun d => subView? d site name := by
  simp only [subView?]
  split
  · exact L.pure (by simp)
  · refine L.bind (Scope.resolve_holds L hs name) fun v hv => ?_
    split
    · cases hv.1 with
      | subView ht hview =>
          refine L.pure ?_
          intro pair hp
          cases hp
          exact ⟨ht, hview⟩
    · exact L.pure (by simp)

/-- An override comes from outside, or from a block right inside the tag. -/
theorem mem_overrides {outer : Entries (List Node)} {children : List Node}
    {entry : Text × List Node} (h : entry ∈ overrides outer children) :
    entry ∈ outer ∨ ∃ body d place indent,
      .enclosure .block entry.1 entry.2 body d place indent ∈ children := by
  rcases Entries.mem_foldl_put h with h | h
  · rcases Entries.mem_foldl_put h with h | h
    · cases h
    · obtain ⟨child, hchild, hb⟩ := List.mem_filterMap.mp h
      split at hb
      · cases hb
        exact .inr ⟨_, _, _, _, hchild⟩
      · cases hb
  · exact .inl h

/-- The nodes of a document that an inclusion can lead into. -/
def Included (lib : Library) (template : Text → Prop) (partials : Entries Text)
    (nodes : List Node) : Prop :=
  (∃ name, lib.included? partials name = .ok (some nodes)) ∨
    ∃ t, template t ∧ lib.template partials t = .ok nodes

section

variable {stage : Stage} (hk : Loading.AllKeep kept c.template stage.partials) {site : Site}
  {nested : Nat → Nested}
include hk

theorem inclusion_holds (hs : site.scope.Within c) {name : Text}
    (hn : ∀ scope pragmas nodes, Scope.Within c scope →
      site.chain.length < stage.settings.maxPartialDepth →
      Included lib c.template stage.partials nodes →
      Renders L nested ⟨scope, pragmas, site.blocks, name :: site.chain⟩ nodes) (indent : Text) :
    L.Holds (fun _ => True) fun d => inclusion stage (nested d) d site name indent := by
  simp only [inclusion]
  refine L.bind (subView?_holds L hs name) fun found hfound => ?_
  cases found with
  | some pair =>
      obtain ⟨t, view⟩ := pair
      obtain ⟨ht, hview⟩ := hfound _ rfl
      refine L.load (hk.template ht) (Loading.template_gives stage.partials t)
        (lib.template_flat _ _).conclusive ?_ ?_
      · rintro document document' _ hd rfl depth
        rw [hd]
      · rintro document _ hnodes rfl
        refine L.bind (includedSite_holds L stage.settings site name) fun inner hi => ?_
        obtain ⟨pragmas, rfl, hlt⟩ := hi
        refine L.bind (L.afresh ht (hn _ pragmas _ ?_ hlt (.inr ⟨t, ht, hnodes⟩))) fun _ _ =>
          L.pure trivial
        exact Scope.ofView_within hview
  | none =>
      refine included?_bind_holds L stage name (hk.included name) (L.pure trivial) ?_
        fun document hd => ?_
      · intro document document' hd depth
        dsimp only
        rw [hd]
      · refine L.bind (includedSite_holds L stage.settings site name) fun inner hi => ?_
        obtain ⟨pragmas, rfl, hlt⟩ := hi
        exact L.bind (hn _ pragmas _ hs hlt (.inl ⟨name, hd⟩)) fun _ _ => L.pure trivial

theorem parent_holds {name : Text} {children : List Node}
    (hn : ∀ pragmas nodes, site.chain.length < stage.settings.maxPartialDepth →
      Included lib c.template stage.partials nodes →
      Renders L nested
        ⟨site.scope, pragmas, overrides site.blocks children, name :: site.chain⟩ nodes)
    (indent : Text) :
    L.Holds (fun _ => True) fun d => parent stage (nested d) site name indent children := by
  simp only [parent]
  refine included?_bind_holds L stage name (hk.included name) (L.pure trivial) ?_
    fun document hd => ?_
  · intro document document' hd depth
    dsimp only
    rw [hd]
  · refine L.bind (includedSite_holds L stage.settings site name) fun inner hi => ?_
    obtain ⟨pragmas, rfl, hlt⟩ := hi
    exact L.bind (hn pragmas _ hlt (.inl ⟨name, hd⟩)) fun _ _ => L.pure trivial

end

end Render

end Whisker
