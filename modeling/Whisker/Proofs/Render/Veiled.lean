import Whisker.Proofs.Render.Bond
import Whisker.Proofs.Run.Veiled

/-! Two renderings of views that differ behind a veil. -/

namespace Whisker

open Run (veiling)

/-! ## Filters -/

theorem Filter.length_veiled {v w : Value} (h : v.SameOutside w) : length w = length v := by
  have htext := h.toText_eq
  cases h with
  | list h => rw [length, length, h.length_eq]
  | tuple h => rw [length, length, h.length_eq]
  | record _ h => rw [length, length, h.length_eq]
  | dict h => rw [length, length, h.length_eq]
  | object _ h => simp only [length, h.size?_eq, htext]
  | iterator | subView | function | method => simp only [length, htext]
  | _ => rfl

theorem Filter.standard?_veiled {name : Text} {f : Value → Except Failure Value}
    (hf : standard? name = some f) {v w : Value} (h : v.SameOutside w) : f w = f v := by
  have htext := h.toText_eq
  have hlength := length_veiled h
  simp only [standard?] at hf
  repeat' split at hf
  all_goals cases hf
  all_goals simp only [htext, hlength]

theorem Filter.apply_veiled (depth : Nat) (own : Entries Value) (name : Text) {v w : Value}
    (h : v.SameOutside w) :
    veiling.Holds Value.SameOutside (apply depth own name v) (apply depth own name w) := by
  unfold apply
  split
  · exact Value.call_veiled (.refl _ _) depth Value.cannotRender_veiled (.cons h .nil)
  · rename_i f _ hf
    rw [Filter.standard?_veiled hf h]
    cases f v with
    | ok v => exact veiling.pure (.refl _ v)
    | error e => exact .throw _
  · exact .throw _

theorem Filter.applyAll_veiled (depth : Nat) (own : Entries Value) (names : List Text) {v w : Value}
    (h : v.SameOutside w) :
    veiling.Holds Value.SameOutside (applyAll depth own names v) (applyAll depth own names w) := by
  refine veiling.foldlM (List.forall₂_same.mpr fun name _ => rfl) ?_ h
  rintro v w h name _ rfl
  exact apply_veiled depth own name h

/-! ## Sections -/

theorem SectionValue.ofItems_veiled {items items' : List Value}
    (h : List.Forall₂ Value.SameOutside items items') :
    SectionValue.Alike Value.SameOutside (ofItems items) (ofItems items') := by
  cases h with
  | nil => exact .falsy
  | cons h hs => exact .list (.cons h hs)

/-- What a section makes of the items that it reads. -/
theorem SectionValue.ofFound_veiled {v w : Value} (h : v.SameOutside w)
    {make : Option (List Value) → Run SectionValue} (hnone : make none = pure .frame)
    (hsome : ∀ items, make (some items) = pure (ofItems items)) :
    veiling.Holds (SectionValue.Alike Value.SameOutside) (Run.read (Reading.items? v) >>= make)
      (Run.read (Reading.items? w) >>= make) := by
  refine veiling.bind (Reading.items?_veiled h) fun found found' hfound => ?_
  cases hfound with
  | none =>
      rw [hnone]
      exact veiling.pure .frame
  | some h =>
      rw [hsome, hsome]
      exact veiling.pure (ofItems_veiled h)

theorem SectionValue.ofValue_veiled {v w : Value} (h : v.SameOutside w) :
    veiling.Holds (SectionValue.Alike Value.SameOutside) (ofValue v) (ofValue w) := by
  have hv := h
  unfold ofValue
  rw [h.isCallable_eq]
  cases hc : v.isCallable with
  | true => exact veiling.pure .lambda
  | false =>
      cases h with
      | missing | null => exact veiling.pure .falsy
      | bool b =>
          cases b with
          | false => exact veiling.pure .falsy
          | true => exact ofFound_veiled hv rfl fun _ => rfl
      | text | bytes =>
          refine veiling.pure ?_
          split <;> constructor
      | dict h =>
          refine veiling.pure ?_
          rw [h.isEmpty_eq]
          split <;> constructor
      | _ => exact ofFound_veiled hv rfl fun _ => rfl

theorem Piece.ofValue_veiled {v w : Value} (h : v.SameOutside w) : ofValue w = ofValue v := by
  have hnothing := h.isNothing_eq
  cases h with
  | object _ h => simp only [ofValue, h.size?_eq]
  | text t => rfl
  | _ => simp only [ofValue, hnothing]

namespace Render

/-! ## Steps that see no values -/

theorem warned_veiled (x : Except Failure Pragmas.Warned) :
    veiling.Holds (· = ·) (warned x) (warned x) := by
  cases x with
  | error e => exact .throw _
  | ok warned =>
      exact veiling.bind_eq (veiling.forM Run.warn_veiled) fun _ => veiling.pure rfl

theorem initialPragmas_veiled (settings : Settings) :
    veiling.Holds (· = ·) (initialPragmas settings) (initialPragmas settings) := warned_veiled _

theorem included?_veiled (stage : Stage) (name : Text) :
    veiling.Holds (· = ·) (included? stage name) (included? stage name) := by
  refine veiling.bind_eq (Run.load_veiled _) fun found => ?_
  cases found with
  | some document => exact veiling.pure rfl
  | none =>
      dsimp only
      split
      · exact .throw _
      · exact veiling.bind_eq (Run.warn_veiled _) fun _ => veiling.pure rfl

theorem includedSite_veiled (settings : Settings) (site : Site) (scope : Scope) (name : Text) :
    veiling.Holds (fun s t => ∃ p q, q = p ∧
        s = { site with pragmas := p, chain := name :: site.chain } ∧
        t = { site with scope, pragmas := q, chain := name :: site.chain })
      (includedSite settings site name) (includedSite settings { site with scope } name) := by
  simp only [includedSite]
  split
  · exact .throw _
  · split
    · exact veiling.pure ⟨_, _, rfl, rfl, rfl⟩
    · exact veiling.bind_eq (initialPragmas_veiled settings) fun p =>
        veiling.pure ⟨p, p, rfl, rfl, rfl⟩

/-! ## Documents -/

/-- The two renderings differ in what values hide. -/
def Bond.veiled (stage : Stage) : Bond veiling stage stage where
  value := Value.SameOutside
  scope := Scope.Beside Value.SameOutside
  pragmas p q := q = p
  Comes _ _ _ := True
  Opens _ _ := True
  ofView := .ofView
  push hs hv label := hs.push hv label
  resolve hs depth name := Scope.resolve_pairs Scope.veiling_finds hs depth name
  ofValue := SectionValue.ofValue_veiled
  subView := by
    rintro t view w ⟨⟩
    exact ⟨_, rfl, ‹_›⟩
  ofSubView := by
    rintro t view v ⟨⟩
    exact ⟨_, rfl⟩
  indents := .refl stage
  filtersAside := Pragmas.filtersAside_of_eq
  enable site scope p call hp := by
    subst hp
    exact veiling.mono (warned_veiled _) fun _ _ => Eq.symm
  inside _ _ := trivial
  enters _ _ _ _ _ := trivial
  included name := found_pairs (included?_veiled stage name)
  template _ _ _ _ _ := veiling.mono (Run.load_veiled _) fun _ _ hd => ⟨hd ▸ rfl, trivial⟩
  includedSite site scope _ _ name _ _ hp _ _ _ := by
    subst hp
    exact includedSite_veiled stage.settings site scope name

theorem escaped_veiled (stage : Stage) (depth : Nat) (t : Text) :
    veiling.Holds (· = ·) (escaped stage depth t) (escaped stage depth t) := by
  unfold escaped
  split
  · exact veiling.pure rfl
  · rename_i f _
    refine veiling.bind (Value.call_veiled (.refl _ f) depth Value.cannotRender_veiled
      (.cons (.text t) .nil)) fun v w hvw => ?_
    rw [Piece.ofValue_veiled hvw]
    cases Piece.ofValue v with
    | ok piece => exact veiling.pure rfl
    | error e => exact .throw _

variable {stage : Stage} {nested nested' : Nested} (hn : (Bond.veiled stage).Nests nested nested')
  {depth : Nat} {site : Site} {scope : Scope}
  (hs : Scope.Beside Value.SameOutside site.scope scope)
include hn hs

theorem nested_veiled (nodes : List Node) :
    veiling.Holds (fun x y => y.1 = x.1) (nested site nodes) (nested' { site with scope } nodes) :=
  veiling.mono (hn site hs rfl nodes fun _ _ => trivial) fun _ _ => And.left

theorem lambdaSection_veiled {v w : Value} (h : v.SameOutside w) (d : Delimiters) (body : Text) :
    veiling.Holds (· = ·) (lambdaSection nested depth site d body v)
      (lambdaSection nested' depth { site with scope } d body w) := by
  have hargs : List.Forall₂ Value.SameOutside [.text body, .renderer] [.text body, .renderer] :=
    .cons (.text body) (.cons .renderer .nil)
  refine veiling.bind (Value.call_veiled h depth (fun t => ?_) hargs) fun v w hvw => ?_
  · refine veiling.bind_eq (Run.load_veiled _) fun document => ?_
    refine veiling.bind (nested_veiled hn hs document.nodes) fun x y hxy => ?_
    exact veiling.pure hxy.symm
  · have htext : veiling.Holds (· = ·) (pure v.toText : Run Text) (pure w.toText) :=
      veiling.pure hvw.toText_eq.symm
    cases hvw with
    | null => exact veiling.pure rfl
    | _ => exact htext

theorem variableValue_veiled (name : Text) :
    veiling.Holds Value.SameOutside (variableValue nested depth site name)
      (variableValue nested' depth { site with scope } name) := by
  refine veiling.bind (Scope.resolve_pairs Scope.veiling_finds hs depth name) fun v w hvw => ?_
  simp only [hvw.isCallable_eq]
  split
  · exact veiling.pure hvw
  · refine veiling.bind (Value.call_veiled hvw depth Value.cannotRender_veiled .nil)
      fun v w hvw => ?_
    have hrest : veiling.Holds Value.SameOutside
        (do
          let document ← Run.load (Loading.build .standard v.toText)
          return .text (← nested site document.nodes).1)
        (do
          let document ← Run.load (Loading.build .standard w.toText)
          return .text (← nested' { site with scope } document.nodes).1) := by
      rw [hvw.toText_eq]
      refine veiling.bind_eq (Run.load_veiled _) fun document => ?_
      refine veiling.bind (nested_veiled hn hs document.nodes) fun x y hxy => ?_
      rw [hxy]
      exact veiling.pure (.text _)
    cases hvw with
    | null => exact veiling.pure (.text [])
    | _ => exact hrest

theorem variable_veiled (name : Text) (isEscaped : Bool) :
    veiling.Holds (· = ·) (variable_ stage nested depth site name isEscaped)
      (variable_ stage nested' depth { site with scope } name isEscaped) := by
  simp only [variable_]
  generalize (if site.pragmas.isEnabled Pragmas.filters then _ else _ : Text × List Text) = parts
  refine veiling.bind (variableValue_veiled hn hs parts.1) fun v w hvw => ?_
  rw [hvw.isMissing_eq]
  split
  · exact veiling.pure rfl
  · refine veiling.bind (Filter.applyAll_veiled depth stage.filters parts.2 hvw) fun v w hvw => ?_
    have hrest : veiling.Holds (· = ·)
        (if isEscaped then escaped stage depth v.toText else pure (.text v.toText) : Run Piece)
        (if isEscaped then escaped stage depth w.toText else pure (.text w.toText)) := by
      rw [hvw.toText_eq]
      split
      · exact escaped_veiled stage depth _
      · exact veiling.pure rfl
    cases hvw with
    | null => exact veiling.pure rfl
    | _ => exact hrest

omit hn hs in
theorem Bond.veiled_calls (stage : Stage) : (veiled stage).Calls where
  ofVariable hn _ _ _ hs _ hp name isEscaped _ _ := by
    obtain rfl := hp
    exact variable_veiled hn hs name isEscaped
  ofLambda hn _ _ _ hs _ hp _ _ hvw d body := by
    obtain rfl := hp
    exact lambdaSection_veiled hn hs hvw d body

omit hn hs in
theorem document_veiled (stage : Stage) (depth : Nat) {view view' : Value}
    (h : view.SameOutside view') (nodes : List Node) :
    veiling.Holds (· = ·) (document stage depth view nodes) (document stage depth view' nodes) :=
  Bond.document_pairs (Bond.veiled_calls stage)
    (veiling.mono (initialPragmas_veiled stage.settings) fun _ _ => Eq.symm) h
    (fun _ _ => trivial) depth

end Render

end Whisker
