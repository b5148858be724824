import Whisker.Proofs.Render.Variables
import Whisker.Proofs.View.Calls

/-! Two renderings with a bond between them. Where the two come to the same node with related scopes
and pragmas, all that they read there is paired, and so is what they render. -/

namespace Whisker

open Run (Pairing)

/-! ## Where nodes lead -/

namespace Node

/-- What is rendered in the place of a node, with these overrides in force. -/
inductive Contains (blocks : Entries (List Node)) : Node → Node → Prop where
  | plain {name children body d place indent child} (h : child ∈ children) :
      Contains blocks (.enclosure .plain name children body d place indent) child
  | inverted {name children body d place indent child} (h : child ∈ children) :
      Contains blocks (.enclosure .inverted name children body d place indent) child
  | block {name children body d place indent child}
      (h : child ∈ (blocks.get? name).getD children) :
      Contains blocks (.enclosure .block name children body d place indent) child

/-- The name of the template that a tag asks for, and the overrides in force in there. -/
inductive Enters (blocks : Entries (List Node)) : Node → Text → Entries (List Node) → Prop where
  | inclusion {name indent} : Enters blocks (.inclusion name indent) name blocks
  | parent {name children body d place indent} :
      Enters blocks (.enclosure .parent name children body d place indent) name
        (Render.overrides blocks children)

end Node

open Node (Contains Enters)

/-- The same meaning for a section, with related items in a list. -/
inductive SectionValue.Alike (V : Value → Value → Prop) : SectionValue → SectionValue → Prop where
  | falsy : Alike V .falsy .falsy
  | list {items items'} (h : List.Forall₂ V items items') : Alike V (.list items) (.list items')
  | lambda : Alike V .lambda .lambda
  | frame : Alike V .frame .frame

theorem SectionValue.Alike.refl {V : Value → Value → Prop} (hV : ∀ v, V v v)
    (value : SectionValue) : value.Alike V value := by
  cases value with
  | list items => exact .list (List.forall₂_same.mpr fun v _ => hV v)
  | _ => constructor

theorem SectionValue.Alike.isFalsy_eq {V : Value → Value → Prop} {value value' : SectionValue}
    (h : value.Alike V value') : value.isFalsy = value'.isFalsy := by
  cases h <;> rfl

namespace Pragmas

/-- The same pragmas with the same parameters, filters aside. -/
def FiltersAside (p q : Pragmas) : Prop :=
  ∀ name, name ≠ filters → q.enabled.get? name = p.enabled.get? name

variable {p q : Pragmas}

theorem filtersAside_of_eq (h : q = p) : p.FiltersAside q := fun _ _ => by rw [h]

theorem FiltersAside.isEnabled_eq (h : p.FiltersAside q) {name : Text} (hname : name ≠ filters) :
    q.isEnabled name = p.isEnabled name := by rw [isEnabled, isEnabled, h name hname]

theorem FiltersAside.iteratorName_eq (h : p.FiltersAside q) : q.iteratorName = p.iteratorName := by
  have hparams : q.params implicitIterator = p.params implicitIterator := by
    rw [params, params, h implicitIterator (by decide)]
  rw [iteratorName, iteratorName, hparams]

end Pragmas

/-- Either both stages indent their partials or neither does. -/
abbrev Stage.IndentsAs (stage' stage : Stage) : Prop :=
  stage'.settings.indentPartials = stage.settings.indentPartials

theorem Stage.IndentsAs.refl (stage : Stage) : stage.IndentsAs stage := rfl

namespace Render

/-! ## The same on both sides -/

theorem push_of_eq {s s' : Scope} {v w : Value} (hs : s = s') (hv : v = w) (label : Option Text) :
    s.push v label = s'.push w label := by rw [hs, hv]

theorem exists_subView_of_eq {t : Text} {view w : Value} (h : .subView t view = w) :
    ∃ view', w = .subView t view' ∧ view = view' :=
  ⟨view, h.symm, rfl⟩

theorem exists_of_eq_subView {t : Text} {view v : Value} (h : v = .subView t view) :
    ∃ view', v = .subView t view' :=
  ⟨view, h⟩

/-! ## Two renderings -/

theorem inOrder_pairs {P : Pairing} {R : Pragmas → Pragmas → Prop}
    {one one' : Site → Node → Run (Piece × Pragmas)} (site : Site) {scope : Scope} {p : Pragmas}
    (hp : R site.pragmas p) {nodes : List Node}
    (h : ∀ n ∈ nodes, ∀ p q, R p q → P.Holds (fun x y => y.1 = x.1 ∧ R x.2 y.2)
      (one { site with pragmas := p } n) (one' { site with scope, pragmas := q } n)) :
    P.Holds (fun x y => y.1 = x.1 ∧ R x.2 y.2) (inOrder one site nodes)
      (inOrder one' { site with scope, pragmas := p } nodes) := by
  refine P.bind (Q := fun x y => y.1 = x.1 ∧ R x.2 y.2)
    (P.foldlM (R := fun n m => n = m ∧ n ∈ nodes) ?_ ?_ ⟨rfl, hp⟩) ?_
  · exact List.forall₂_same.mpr fun n hn => ⟨rfl, hn⟩
  · rintro ⟨pieces, p⟩ ⟨_, q⟩ ⟨rfl, hpq⟩ n _ ⟨rfl, hn⟩
    refine P.bind (h n hn p q hpq) ?_
    rintro ⟨piece, p⟩ ⟨_, q⟩ ⟨rfl, hpq⟩
    exact P.pure ⟨rfl, hpq⟩
  · rintro ⟨pieces, p⟩ ⟨_, q⟩ ⟨rfl, hpq⟩
    refine P.bind_eq (P.mapM fun piece _ => ?_) fun texts => P.pure ⟨rfl, hpq⟩
    cases piece with
    | text t => exact P.pure rfl
    | unfit => exact P.throw rfl

theorem found_pairs {P : Pairing} {x y : Run (Option Document)} (h : P.Holds (· = ·) x y) :
    P.Holds (Option.Rel fun document document' => document'.nodes = document.nodes ∧ True) x y := by
  apply P.mono h
  rintro found _ rfl
  cases found with
  | none => exact .none
  | some document => exact .some ⟨rfl, trivial⟩

/-- What two renderings have in place of each other. The first may stop where the second goes on,
as far as the pairing allows that. -/
structure Bond (P : Pairing) (stage stage' : Stage) where
  value : Value → Value → Prop
  scope : Scope → Scope → Prop
  pragmas : Pragmas → Pragmas → Prop
  /-- The renderings may come to the node, with these overrides in force and in this chain. -/
  Comes : Entries (List Node) → List Text → Node → Prop
  /-- The nodes that a name may lead into. -/
  Opens : Text → List Node → Prop
  -- values
  ofView {v w : Value} : value v w → scope (Scope.ofView v) (Scope.ofView w)
  push {s s' : Scope} {v w : Value} :
    scope s s' → value v w → ∀ label, scope (s.push v label) (s'.push w label)
  resolve {s s' : Scope} :
    scope s s' → ∀ depth name, P.Holds value (s.resolve depth name) (s'.resolve depth name)
  ofValue {v w : Value} : value v w →
    P.Holds (SectionValue.Alike value) (SectionValue.ofValue v) (SectionValue.ofValue w)
  subView {template : Text} {view w : Value} :
    value (.subView template view) w → ∃ view', w = .subView template view' ∧ value view view'
  ofSubView {template : Text} {view v : Value} :
    value v (.subView template view) → ∃ view', v = .subView template view'
  -- settings
  indents : stage'.IndentsAs stage
  filtersAside {p q : Pragmas} : pragmas p q → p.FiltersAside q
  enable (site : Site) {scope : Scope} {p : Pragmas} (call : PragmaCall) : pragmas site.pragmas p →
    P.Holds pragmas (Render.enable site call) (Render.enable { site with scope, pragmas := p } call)
  -- nodes
  inside {blocks : Entries (List Node)} {chain : List Text} {n m : Node} :
    Comes blocks chain n → n.Contains blocks m → Comes blocks chain m
  enters {blocks inner : Entries (List Node)} {chain : List Text} {n : Node} {name : Text}
      {nodes : List Node} :
    Comes blocks chain n → n.Enters blocks name inner → Opens name nodes →
      ∀ m ∈ nodes, Comes inner (name :: chain) m
  -- inclusions
  included (name : Text) :
    P.Holds (Option.Rel fun document document' =>
        document'.nodes = document.nodes ∧ Opens name document.nodes)
      (included? stage name) (included? stage' name)
  template (name : Text) {t : Text} {view w : Value} : value (.subView t view) w →
    P.Holds (fun document document' =>
        document'.nodes = document.nodes ∧ Opens name document.nodes)
      (Run.load (Loading.template stage.partials t)) (Run.load (Loading.template stage'.partials t))
  includedSite (site : Site) {scope : Scope} {p : Pragmas} {n : Node} {name : Text}
      {inner : Entries (List Node)} {nodes : List Node} :
    pragmas site.pragmas p → Comes site.blocks site.chain n → n.Enters site.blocks name inner →
      Opens name nodes →
      P.Holds (fun s t => ∃ p q, pragmas p q ∧
          s = { site with pragmas := p, chain := name :: site.chain } ∧
          t = { site with scope, pragmas := q, chain := name :: site.chain })
        (Render.includedSite stage.settings site name)
        (Render.includedSite stage'.settings { site with scope, pragmas := p } name)

namespace Bond

variable {P : Pairing} {stage stage' : Stage} (B : Bond P stage stage')

/-- The same text, or other result, and related pragmas. -/
def Same {α : Type} (x y : α × Pragmas) : Prop := y.1 = x.1 ∧ B.pragmas x.2 y.2

theorem bind_same {α γ δ : Type} {R : γ → δ → Prop} {x y : Run (α × Pragmas)}
    {f : α × Pragmas → Run γ} {g : α × Pragmas → Run δ} (h : P.Holds B.Same x y)
    (hf : ∀ a p q, B.pragmas p q → P.Holds R (f (a, p)) (g (a, q))) :
    P.Holds R (x >>= f) (y >>= g) := by
  apply P.bind h
  rintro ⟨_, p⟩ ⟨a, q⟩ ⟨rfl, hpq⟩
  exact hf _ p q hpq

/-- The nodes are paired at all related sites where they can be come to. -/
def Nests (nested nested' : Nested) : Prop :=
  ∀ (site : Site) {scope : Scope} {p : Pragmas}, B.scope site.scope scope →
    B.pragmas site.pragmas p → ∀ nodes, (∀ n ∈ nodes, B.Comes site.blocks site.chain n) →
    P.Holds B.Same (nested site nodes) (nested' { site with scope, pragmas := p } nodes)

variable {B} {nested nested' : Nested} (hn : B.Nests nested nested') {depth : Nat} {site : Site}
  {scope : Scope} (hs : B.scope site.scope scope) {p : Pragmas} (hp : B.pragmas site.pragmas p)
include hs hp

/-! ## Sections -/

section

variable {name : Text} {children : List Node} {body : Text} {d : Delimiters} {place : Place}
  {indent : Text}
include hn

theorem section_pairs
    (hc : B.Comes site.blocks site.chain (.enclosure .plain name children body d place indent))
    (hl : ∀ v w, B.value v w → P.Holds (· = ·) (lambdaSection nested depth site d body v)
      (lambdaSection nested' depth { site with scope, pragmas := p } d body w)) :
    P.Holds B.Same (section_ nested depth site name children d body)
      (section_ nested' depth { site with scope, pragmas := p } name children d body) := by
  have hinside : ∀ child ∈ children, B.Comes site.blocks site.chain child :=
    fun child hm => B.inside hc (.plain hm)
  refine P.bind (B.resolve hs depth name) fun v w hvw => P.bind (B.ofValue hvw) ?_
  intro value value' hvalue
  cases hvalue with
  | falsy => exact P.pure ⟨rfl, hp⟩
  | list hitems =>
      have hlabel : p.iteratorName = site.pragmas.iteratorName :=
        (B.filtersAside hp).iteratorName_eq
      dsimp only
      rw [hlabel]
      refine P.foldlM hitems ?_ ⟨rfl, hp⟩
      rintro ⟨text, p⟩ ⟨_, q⟩ ⟨rfl, hpq⟩ item item' hi
      exact B.bind_same (hn { site with scope := site.scope.push item _, pragmas := p }
        (B.push hs hi _) hpq children hinside) fun more p q hpq => P.pure ⟨rfl, hpq⟩
  | lambda => exact P.bind_eq (hl v w hvw) fun text => P.pure ⟨rfl, hp⟩
  | frame =>
      exact hn { site with scope := site.scope.push v none } (B.push hs hvw none) hp children
        hinside

theorem invertedSection_pairs
    (hc : B.Comes site.blocks site.chain (.enclosure .inverted name children body d place indent)) :
    P.Holds B.Same (invertedSection nested depth site name children)
      (invertedSection nested' depth { site with scope, pragmas := p } name children) := by
  refine P.bind (B.resolve hs depth name) fun v w hvw => P.bind (B.ofValue hvw) ?_
  intro value value' hvalue
  rw [hvalue.isFalsy_eq]
  split
  · exact hn site hs hp children fun child hm => B.inside hc (.inverted hm)
  · exact P.pure ⟨rfl, hp⟩

end

/-! ## Inclusions -/

omit hs hp in
theorem indented_eq (B : Bond P stage stage') (indent t : Text) :
    indented stage'.settings indent t = indented stage.settings indent t := by
  rw [indented, indented, B.indents]

theorem subView?_pairs (name : Text) :
    P.Holds (Option.Rel fun x y => x.1 = y.1 ∧ B.value (.subView x.1 x.2) (.subView y.1 y.2))
      (subView? depth site name) (subView? depth { site with scope, pragmas := p } name) := by
  unfold subView?
  have henabled : p.isEnabled Pragmas.subViews = site.pragmas.isEnabled Pragmas.subViews :=
    (B.filtersAside hp).isEnabled_eq (by decide)
  dsimp only
  rw [henabled]
  split
  · exact P.pure .none
  · refine P.bind (B.resolve hs depth name) fun v w hvw => ?_
    split
    · obtain ⟨view', rfl, -⟩ := B.subView hvw
      exact P.pure (.some ⟨rfl, hvw⟩)
    · rename_i hv
      split
      · obtain ⟨view', rfl⟩ := B.ofSubView hvw
        exact absurd rfl (hv _ view')
      · exact P.pure .none

include hn

theorem inclusion_pairs {name : Text} {indent : Option Text}
    (hc : B.Comes site.blocks site.chain (.inclusion name indent)) (margin : Text) :
    P.Holds (· = ·) (inclusion stage nested depth site name margin)
      (inclusion stage' nested' depth { site with scope, pragmas := p } name margin) := by
  refine P.bind (subView?_pairs hs hp name) fun found found' hfound => ?_
  cases hfound with
  | none =>
      refine P.bind (B.included name) fun document document' hdocument => ?_
      cases hdocument with
      | none => exact P.pure rfl
      | some hdocument =>
          obtain ⟨hnodes, ho⟩ := hdocument
          dsimp only
          rw [hnodes]
          refine P.bind (B.includedSite site hp hc .inclusion ho) ?_
          rintro _ _ ⟨p, q, hpq, rfl, rfl⟩
          refine B.bind_same (hn { site with pragmas := p, chain := name :: site.chain } hs hpq _
            (B.enters hc .inclusion ho)) fun text _ _ _ => ?_
          exact P.pure (B.indented_eq margin text).symm
  | some hpair =>
      rename_i pair pair'
      obtain ⟨t, view⟩ := pair
      obtain ⟨t', view'⟩ := pair'
      obtain ⟨rfl, hviews⟩ := hpair
      refine P.bind (B.template name hviews) ?_
      rintro document document' ⟨hnodes, ho⟩
      dsimp only
      rw [hnodes]
      refine P.bind (B.includedSite site hp hc .inclusion ho) ?_
      rintro _ _ ⟨p, q, hpq, rfl, rfl⟩
      obtain ⟨_, ⟨⟩, hview⟩ := B.subView hviews
      refine B.bind_same (P.afresh (hn ⟨Scope.ofView view, p, site.blocks, name :: site.chain⟩
        (B.ofView hview) hpq _ (B.enters hc .inclusion ho))) fun text _ _ _ => ?_
      exact P.pure (B.indented_eq margin text).symm

theorem parent_pairs {name : Text} {children : List Node} {body : Text} {d : Delimiters}
    {place : Place} {indent : Text}
    (hc : B.Comes site.blocks site.chain (.enclosure .parent name children body d place indent)) :
    P.Holds (· = ·) (parent stage nested site name indent children)
      (parent stage' nested' { site with scope, pragmas := p } name indent children) := by
  refine P.bind (B.included name) fun document document' hdocument => ?_
  cases hdocument with
  | none => exact P.pure rfl
  | some hdocument =>
      obtain ⟨hnodes, ho⟩ := hdocument
      dsimp only
      rw [hnodes]
      refine P.bind (B.includedSite site hp hc .parent ho) ?_
      rintro _ _ ⟨p, q, hpq, rfl, rfl⟩
      refine B.bind_same (hn ⟨site.scope, p, overrides site.blocks children, name :: site.chain⟩ hs
        hpq _ (B.enters hc .parent ho)) fun text _ _ _ => ?_
      exact P.pure (B.indented_eq indent text).symm

/-! ## Nodes -/

/-- The step of a node, if variables and section lambdas are paired. -/
theorem step_pairs {n : Node} (hc : B.Comes site.blocks site.chain n)
    (hv : ∀ name isEscaped place, n = .variable name isEscaped place →
      P.Holds (· = ·) (variable_ stage nested depth site name isEscaped)
        (variable_ stage' nested' depth { site with scope, pragmas := p } name isEscaped))
    (hl : ∀ v w d body, B.value v w →
      P.Holds (· = ·) (lambdaSection nested depth site d body v)
        (lambdaSection nested' depth { site with scope, pragmas := p } d body w)) :
    P.Holds B.Same (step stage depth nested site n)
      (step stage' depth nested' { site with scope, pragmas := p } n) := by
  cases n with
  | text => exact P.pure ⟨rfl, hp⟩
  | comment => exact P.pure ⟨rfl, hp⟩
  | delimiterChange => exact P.pure ⟨rfl, hp⟩
  | «variable» name isEscaped place =>
      exact P.bind_eq (hv name isEscaped place rfl) fun piece => P.pure ⟨rfl, hp⟩
  | pragma call => exact P.bind (B.enable site call hp) fun p q hpq => P.pure ⟨rfl, hpq⟩
  | inclusion name indent =>
      exact P.bind_eq (inclusion_pairs hn hs hp hc _) fun text => P.pure ⟨rfl, hp⟩
  | enclosure kind name children body d place indent =>
      cases kind with
      | plain =>
          exact B.bind_same (section_pairs hn hs hp hc fun v w => hl v w d body)
            fun text p q hpq => P.pure ⟨rfl, hpq⟩
      | inverted =>
          exact B.bind_same (invertedSection_pairs hn hs hp hc) fun text p q hpq =>
            P.pure ⟨rfl, hpq⟩
      | block =>
          exact B.bind_same (hn site hs hp _ fun child hm => B.inside hc (.block hm))
            fun text p q hpq => P.pure ⟨rfl, hpq⟩
      | parent => exact P.bind_eq (parent_pairs hn hs hp hc) fun text => P.pure ⟨rfl, hp⟩

/-! ## The same values -/

/-- The two renderings have the same values, and read, filter and escape them alike. Where a value
can be called, any text may be rendered. -/
structure Equal (B : Bond P stage stage') : Prop where
  eq {v w : Value} : B.value v w → w = v
  readName_eq {blocks : Entries (List Node)} {chain : List Text} {name : Text} {isEscaped : Bool}
      {place : Place} {p q : Pragmas} :
    B.Comes blocks chain (.variable name isEscaped place) → B.pragmas p q →
      readName q name = readName p name
  escaped (depth : Nat) (t : Text) :
    P.Holds (· = ·) (Render.escaped stage depth t) (Render.escaped stage' depth t)
  applyAll (depth : Nat) (names : List Text) (v : Value) :
    P.Holds (· = ·) (Filter.applyAll depth stage.filters names v)
      (Filter.applyAll depth stage'.filters names v)
  callable {v : Value} : B.value v v → v.isCallable = true →
    P.Reflexive ∧ (∀ t, B.value (.text t) (.text t)) ∧ ∀ blocks chain n, B.Comes blocks chain n

variable (E : B.Equal)
include hn E

theorem lambdaSection_pairs {v w : Value} (hvw : B.value v w) (d : Delimiters) (body : Text) :
    P.Holds (· = ·) (lambdaSection nested depth site d body v)
      (lambdaSection nested' depth { site with scope, pragmas := p } d body w) := by
  obtain rfl := E.eq hvw
  cases hcall : w.isCallable with
  | false =>
      simp only [lambdaSection, Value.call_of_not_isCallable hcall]
      exact P.bind (Q := fun _ _ => False) (P.throw rfl) fun _ _ h => h.elim
  | true =>
      obtain ⟨hP, -, hany⟩ := E.callable hvw hcall
      refine P.bind_eq (Value.call_pairs hP (fun t => ?_) _ _ _) fun result => hP _
      refine P.bind_eq (hP (Run.load (Loading.build d t))) fun document => ?_
      exact B.bind_same (hn site hs hp document.nodes fun n _ => hany _ _ n) fun text _ _ _ =>
        P.pure rfl

theorem variableValue_pairs (name : Text) :
    P.Holds B.value (variableValue nested depth site name)
      (variableValue nested' depth { site with scope, pragmas := p } name) := by
  refine P.bind (B.resolve hs depth name) fun v w hvw => ?_
  obtain rfl := E.eq hvw
  cases hcall : w.isCallable with
  | false => exact P.pure hvw
  | true =>
      obtain ⟨hP, htext, hany⟩ := E.callable hvw hcall
      refine P.bind_eq (hP (w.call depth Value.cannotRender [])) fun result => ?_
      split
      · exact P.pure (htext [])
      · refine P.bind_eq (hP (Run.load _)) fun document => ?_
        exact B.bind_same (hn site hs hp document.nodes fun n _ => hany _ _ n) fun text _ _ _ =>
          P.pure (htext text)

theorem variable_pairs {name : Text} {isEscaped : Bool} {place : Place}
    (hc : B.Comes site.blocks site.chain (.variable name isEscaped place)) :
    P.Holds (· = ·) (variable_ stage nested depth site name isEscaped)
      (variable_ stage' nested' depth { site with scope, pragmas := p } name isEscaped) := by
  rw [variable_eq, variable_eq]
  dsimp only
  rw [E.readName_eq hc hp]
  refine P.bind (variableValue_pairs hn hs hp E _) fun v w hvw => ?_
  obtain rfl := E.eq hvw
  unfold inserted
  split
  · exact P.pure rfl
  · refine P.bind_eq (E.applyAll depth _ w) fun result => ?_
    split
    · exact P.pure rfl
    · split
      · exact E.escaped depth _
      · exact P.pure rfl

end Bond

/-! ## Documents -/

/-- Where nested nodes are paired, so are variables and section lambdas. -/
structure Bond.Calls {P : Pairing} {stage stage' : Stage} (B : Bond P stage stage') : Prop where
  ofVariable {nested nested' : Nested} (hn : B.Nests nested nested') {depth : Nat} {site : Site}
    {scope : Scope} (hs : B.scope site.scope scope) {p : Pragmas} (hp : B.pragmas site.pragmas p)
    {name : Text} {isEscaped : Bool} {place : Place}
    (hc : B.Comes site.blocks site.chain (.variable name isEscaped place)) :
    P.Holds (· = ·) (variable_ stage nested depth site name isEscaped)
      (variable_ stage' nested' depth { site with scope, pragmas := p } name isEscaped)
  ofLambda {nested nested' : Nested} (hn : B.Nests nested nested') {depth : Nat} {site : Site}
    {scope : Scope} (hs : B.scope site.scope scope) {p : Pragmas} (hp : B.pragmas site.pragmas p)
    {v w : Value} (hvw : B.value v w) (d : Delimiters) (body : Text) :
    P.Holds (· = ·) (lambdaSection nested depth site d body v)
      (lambdaSection nested' depth { site with scope, pragmas := p } d body w)

namespace Bond

variable {P : Pairing} {stage stage' : Stage} {B : Bond P stage stage'}

theorem Equal.calls (E : B.Equal) : B.Calls where
  ofVariable hn _ _ _ hs _ hp _ _ _ hc := variable_pairs hn hs hp E hc
  ofLambda hn _ _ _ hs _ hp _ _ hvw d body := lambdaSection_pairs hn hs hp E hvw d body

variable (C : B.Calls)
include C

theorem node_pairs (depth : Nat) (site : Site) {scope : Scope} (hs : B.scope site.scope scope)
    {p : Pragmas} (hp : B.pragmas site.pragmas p) {n : Node}
    (hc : B.Comes site.blocks site.chain n) :
    P.Holds B.Same (node stage depth site n)
      (node stage' depth { site with scope, pragmas := p } n) := by
  induction depth generalizing site scope p n with
  | zero => exact P.throw rfl
  | succ depth ih =>
      have hn : B.Nests (inOrder (node stage depth)) (inOrder (node stage' depth)) :=
        fun site scope p hs hp nodes hc => inOrder_pairs site hp fun n hm p q hpq =>
          ih { site with pragmas := p } hs hpq (hc n hm)
      refine step_pairs hn hs hp hc (fun name isEscaped place he => ?_) fun v w d body hvw => ?_
      · exact C.ofVariable hn hs hp (he ▸ hc)
      · exact C.ofLambda hn hs hp hvw d body

/-- Documents are paired, if their initial pragmas are. -/
theorem document_pairs
    (hinitial : P.Holds B.pragmas (initialPragmas stage.settings) (initialPragmas stage'.settings))
    {view view' : Value} (hview : B.value view view') {nodes : List Node}
    (hc : ∀ n ∈ nodes, B.Comes [] [] n) (depth : Nat) :
    P.Holds (· = ·) (document stage depth view nodes) (document stage' depth view' nodes) := by
  refine P.bind hinitial fun p q hpq => ?_
  let site : Site := ⟨Scope.ofView view, p, [], []⟩
  exact B.bind_same (inOrder_pairs site hpq fun n hm p q hpq =>
    node_pairs C depth { site with pragmas := p } (B.ofView hview) hpq (hc n hm))
    fun text _ _ _ => P.pure rfl

end Bond

end Render

end Whisker
