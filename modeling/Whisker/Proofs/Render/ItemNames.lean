import Whisker.Engine
import Whisker.Proofs.Render.Pragmas
import Whisker.Proofs.Template.Print

/-! Names for the items of lists. A pragma gives the items a name beside the dot, and this name
stays in force until another call of the pragma. It is compared with what stands before the first
dot of a name, so that a name with a dot in it is never found. -/

namespace Whisker

/-! ## Names under which items are found -/

namespace Scope

variable {depth : Nat} {scope : Scope} {item : Value} {name : Text}

theorem pieces_of_dotless (h : '.' ∉ name) : Text.pieces (· = '.') name = [name] := by
  apply Text.pieces_of_forall
  intro c hc
  simp only [decide_eq_false_iff_not]
  intro he
  exact h (he ▸ hc)

/-- The label of the innermost frame comes before what the frame's value defines. -/
theorem resolve_push_label (h : '.' ∉ name) :
    (scope.push item (some name)).resolve depth name =
      (scope.push item (some name)).resolve depth ['.'] := by
  have hself : (scope.push item (some name)).resolve depth ['.'] = settle item := rfl
  by_cases hd : name = ['.']
  · rw [hd]
  · rw [hself, resolve, if_neg hd, pieces_of_dotless h]
    simp only [push, resolveHead, if_true, pure_bind, descend]

/-- No part of a name between dots is a name with a dot. -/
theorem resolve_push_dotted (h : '.' ∈ name) (hd : name ≠ ['.']) :
    (scope.push item (some name)).resolve depth name =
      (scope.push item none).resolve depth name := by
  rw [resolve, resolve, if_neg hd, if_neg hd]
  cases hp : Text.pieces (· = '.') name with
  | nil => rfl
  | cons head rest =>
      have hhead : head ∈ Text.pieces (· = '.') name := by
        rw [hp]
        exact List.mem_cons_self
      have hne : name ≠ head := by
        intro he
        have hdot := Text.not_mem_pieces hhead '.' (he ▸ h)
        simp at hdot
      have hlabel : resolveHead depth head (scope.push item (some name)) =
          resolveHead depth head (scope.push item none) := by
        simp only [push, resolveHead, Option.some.injEq, if_neg hne, reduceCtorEq, if_false]
      simp only [hlabel]

/-- Only with a label that has no dot is the value of every frame found under its label. -/
theorem resolve_label_iff (hd : name ≠ ['.']) :
    (∀ depth scope item, (push item (some name) scope).resolve depth name =
      (push item (some name) scope).resolve depth ['.']) ↔ '.' ∉ name := by
  constructor
  · intro h hdot
    have hx := h 0 [] (.text ['x'])
    rw [resolve_push_dotted hdot hd, resolve, if_neg hd] at hx
    cases hp : Text.pieces (· = '.') name with
    | nil =>
        rw [hp] at hx
        cases congrArg (fun run => (run.run (.fresh (.fresh 0)
          (.fresh .empty (.memory 1 []) (.empty true) .standard))).1) hx
    | cons head rest =>
        rw [hp] at hx
        have hrest : descend 0 .missing rest = pure .missing := by cases rest <;> rfl
        have hhead : resolveHead 0 head (push (.text ['x']) none []) = pure .missing := rfl
        simp only [hhead, pure_bind, hrest] at hx
        cases congrArg (fun run => (run.run (.fresh (.fresh 0)
          (.fresh .empty (.memory 1 []) (.empty true) .standard))).1) hx
  · intro h depth scope item
    exact resolve_push_label h

end Scope

/-! ## Calls that name the items -/

namespace Pragmas

theorem iteratorName_put {p : Pragmas} {params : Entries Text} {name : Text}
    (h : params.get? "iterator".toList = some name) (hne : name ≠ []) (hd : name ≠ ['.']) :
    iteratorName ⟨p.strict, p.enabled.put implicitIterator params⟩ = some name := by
  have hparams : Pragmas.params ⟨p.strict, p.enabled.put implicitIterator params⟩
      implicitIterator = params := by
    rw [Pragmas.params, Entries.get?_put, if_pos rfl]
    rfl
  have hempty : name.isEmpty = false := by simpa using hne
  rw [iteratorName, hparams, h]
  simp only [hempty, hd, decide_false, Bool.or_false, Bool.false_eq_true, if_false]

theorem iteratorName_of_enable {p q : Pragmas} {name : Text} {params : Entries Text}
    {warnings : List String} (h : p.enable name params = .ok (q, warnings))
    (hn : name ≠ implicitIterator) : q.iteratorName = p.iteratorName := by
  rw [enable] at h
  split at h
  · cases h
    rw [iteratorName, iteratorName, Pragmas.params, Pragmas.params, Entries.get?_put, if_neg hn]
  · split at h
    · cases h
    · cases h
      rfl

/-- Calls of other pragmas leave the name of the items as it is. -/
theorem Enables.iteratorName_eq {p q : Pragmas} {calls : List PragmaCall} (h : p.Enables calls q)
    (ho : ∀ call ∈ calls, call.name ≠ implicitIterator) : q.iteratorName = p.iteratorName := by
  induction h with
  | nil p => rfl
  | cons hcall _ ih =>
      have hfirst := iteratorName_of_enable hcall (ho _ List.mem_cons_self)
      have hrest := ih fun call hm => ho call (List.mem_cons_of_mem _ hm)
      exact hrest.trans hfirst

end Pragmas

theorem solid_of_all {t : Text} (h : t.all (!Text.isBlank ·) = true) :
    ∀ c ∈ t, Text.isBlank c = false := by
  simpa only [Bool.not_eq_true'] using List.all_eq_true.mp h

namespace PragmaCall

/-- A call that gives the items of lists a name. -/
structure Names (call : PragmaCall) (name : Text) : Prop where
  pragma : call.name = Pragmas.implicitIterator
  param : call.params.get? "iterator".toList = some name

/-- A name and one parameter, with a space between them. -/
theorem ofText?_single {pragma key value : Text} (hne : pragma ≠ [])
    (hpragma : ∀ c ∈ pragma, Text.isBlank c = false) (hkey : ∀ c ∈ key, Text.isBlank c = false)
    (hvalue : ∀ c ∈ value, Text.isBlank c = false) (hsign : '=' ∉ key) :
    ofText? (pragma ++ ' ' :: (key ++ '=' :: value)) = some ⟨pragma, [(key, value)]⟩ := by
  have hsolid : ∀ c ∈ key ++ '=' :: value, Text.isBlank c = false := by
    intro c hc
    rcases List.mem_append.mp hc with hc | hc
    · exact hkey c hc
    · rcases List.mem_cons.mp hc with rfl | hc
      · rfl
      · exact hvalue c hc
  have hwords : Text.words (pragma ++ [key ++ '=' :: value].flatMap (' ' :: ·)) =
      [pragma, key ++ '=' :: value] := by
    apply Text.words_flatMap
    · simp [hne]
    · simp only [List.forall_mem_cons, List.not_mem_nil, false_implies, implies_true, and_true]
      exact ⟨hpragma, hsolid⟩
  have hparam : param (key ++ '=' :: value) = (key, value) := by
    have hk : ∀ c ∈ key, c ∉ ['='] := by
      intro c hc hm
      exact hsign (List.mem_singleton.mp hm ▸ hc)
    rw [param, Text.cut?_append_left (by simp) hk]
    simp [Text.cut?]
  have htext : pragma ++ ' ' :: (key ++ '=' :: value) =
      pragma ++ [key ++ '=' :: value].flatMap (' ' :: ·) := by
    rw [List.flatMap_singleton]
  rw [ofText?, htext, hwords]
  simp only [List.map_cons, List.map_nil, hparam]
  rfl

end PragmaCall

namespace Render

/-- Renders nodes once for each item of a list, which is in scope under the label. -/
def eachItem (nested : Nested) (site : Site) (children : List Node) (label : Option Text)
    (items : List Value) : Run Rendered :=
  items.foldlM (fun (text, pragmas) item => do
    let (more, pragmas) ← nested { site with scope := site.scope.push item label, pragmas } children
    return (text ++ more, pragmas)) ([], site.pragmas)

variable {stage : Stage} {depth : Nat} {site : Site} {store mid after : Store} {v : Value}
  {items : List Value}

theorem section_list (nested : Nested) {name : Text}
    (hv : (site.scope.resolve depth name).run store = (.ok v, mid))
    (hitems : (SectionValue.ofValue v).run mid = (.ok (.list items), after))
    (children : List Node) (d : Delimiters) (body : Text) :
    (section_ nested depth site name children d body).run store =
      (eachItem nested site children site.pragmas.iteratorName items).run after := by
  rw [section_, Fallible.run_bind, hv]
  simp only
  rw [Fallible.run_bind, hitems]
  rfl

/-- A pragma names the items of lists. From its tag on, until another call of the pragma, the body
of a list section is rendered for each item with the name as a label of the item. In the body a
label without a dot means the item, whatever the item itself has under that name; with a dot in it
a label is as good as none. -/
theorem named_items {call : PragmaCall} {name : Text} (hcall : call.Names name)
    (hne : name ≠ []) (hd : name ≠ ['.']) (hsolid : ∀ c ∈ name, Text.isBlank c = false) :
    PragmaCall.ofText? ("IMPLICIT-ITERATOR iterator=".toList ++ name) =
      some ⟨Pragmas.implicitIterator, [("iterator".toList, name)]⟩ ∧
    (∀ site, ∃ p, enable site call = pure p ∧
      ∀ calls q, p.Enables calls q → (∀ c ∈ calls, c.name ≠ Pragmas.implicitIterator) →
        q.iteratorName = some name) ∧
    (∀ (stage : Stage) (depth : Nat) (site : Site) (list : Text) (children : List Node)
        (body : Text) (d : Delimiters) (place : Place) (indent : Text) (store mid after : Store)
        (v : Value) (items : List Value),
      site.pragmas.iteratorName = some name →
      (site.scope.resolve depth list).run store = (.ok v, mid) →
      (SectionValue.ofValue v).run mid = (.ok (.list items), after) →
      (node stage (depth + 1) site (.enclosure .plain list children body d place indent)).run store =
        (do
          let (text, pragmas) ← eachItem (inOrder (node stage depth)) site children (some name) items
          return (.text text, pragmas) : Run (Piece × Pragmas)).run after) ∧
    (∀ depth scope item, '.' ∈ name →
      (Scope.push item (some name) scope).resolve depth name =
        (Scope.push item none scope).resolve depth name) ∧
    ((∀ depth scope item, (Scope.push item (some name) scope).resolve depth name =
      (Scope.push item (some name) scope).resolve depth ['.']) ↔ '.' ∉ name) := by
  have hwritten : "IMPLICIT-ITERATOR iterator=".toList ++ name =
      Pragmas.implicitIterator ++ ' ' :: ("iterator".toList ++ '=' :: name) := rfl
  have henable (site : Site) : enable site call = pure
      ⟨site.pragmas.strict, site.pragmas.enabled.put Pragmas.implicitIterator call.params⟩ := by
    have hknown : Pragmas.known.contains Pragmas.implicitIterator = true := by decide
    rw [enable, Pragmas.enable, hcall.pragma, if_pos hknown]
    rfl
  refine ⟨?_, ?_, ?_, ?_, Scope.resolve_label_iff hd⟩
  · rw [hwritten]
    apply PragmaCall.ofText?_single
    · decide
    · exact solid_of_all rfl
    · exact solid_of_all rfl
    · exact hsolid
    · decide
  · intro site
    refine ⟨_, henable site, ?_⟩
    intro calls q hq ho
    rw [hq.iteratorName_eq ho]
    exact Pragmas.iteratorName_put hcall.param hne hd
  · intro stage depth site list children body d place indent store mid after v items hname hv hitems
    have hlist := section_list (inOrder (node stage depth)) hv hitems children d body
    rw [hname] at hlist
    rw [node, step, Fallible.run_bind, hlist, ← Fallible.run_bind]
  · intro depth scope item hdot
    exact Scope.resolve_push_dotted hdot hd

/-- The name beats an entry of the item that is called the same. -/
theorem entry_named :
    PragmaCall.Names ⟨Pragmas.implicitIterator, [("iterator".toList, "e".toList)]⟩ "e".toList ∧
    (Scope.push (.dict [("e".toList, .null)]) (some "e".toList) []).resolve 0 "e".toList =
      (Scope.push (.dict [("e".toList, .null)]) (some "e".toList) []).resolve 0 ['.'] := by
  have hcall : PragmaCall.Names ⟨Pragmas.implicitIterator, [("iterator".toList, "e".toList)]⟩
      "e".toList := ⟨rfl, rfl⟩
  have h := named_items hcall (by decide) (by decide) (solid_of_all rfl)
  exact ⟨hcall, h.2.2.2.2.mpr (by decide) 0 [] _⟩

def naming : PragmaCall := ⟨Pragmas.implicitIterator, [("iterator".toList, "a.b".toList)]⟩

/-- A section over a list of one text, behind a pragma that names its items. -/
def namingNodes (name : Text) : List Node :=
  [.pragma naming .start,
    .enclosure .plain ['l'] [.variable name true .start] [] .standard .start []]

def namingStage : Stage := ⟨.standard, [], none, []⟩

/-- A dot in the name of the items hides them. -/
theorem dottedName_hides_items :
    let view : Value := .dict [(['l'], .list [.text ['x']])]
    let store := Store.fresh (.fresh 0) (.fresh .empty (.memory 1 []) (.empty true) .standard)
    PragmaCall.ofText? "IMPLICIT-ITERATOR iterator=a.b".toList = some naming ∧
    ((document namingStage 3 view (namingNodes ['.'])).run store).1 = .ok ['x'] ∧
    ((document namingStage 3 view (namingNodes "a.b".toList)).run store).1 = .ok [] := by
  intro view store
  have hcall : PragmaCall.ofText? "IMPLICIT-ITERATOR iterator=a.b".toList = some naming := rfl
  have hdot : ((document namingStage 3 view (namingNodes ['.'])).run store).1 = .ok ['x'] := rfl
  have hname : ((document namingStage 3 view (namingNodes "a.b".toList)).run store).1 = .ok [] :=
    rfl
  exact ⟨hcall, hdot, hname⟩

end Render

end Whisker
