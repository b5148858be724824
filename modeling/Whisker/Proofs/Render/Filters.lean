import Whisker.Proofs.Render.Bond
import Whisker.Proofs.Render.Escaping
import Whisker.Proofs.Render.FilterChains
import Whisker.Proofs.Run.Twins
import Whisker.Proofs.Template.Trimming

/-! Filters that nothing asks for. Where no variable has a bar in its name, it does not matter whether
the pragma for filters is in force. -/

namespace Whisker

open Run (Yields OnHeap twinning)
open Fallible (Related)
open Pragmas (Warned)

/-! ## Names -/

/-- A name as the scanner leaves it, without a bar. -/
def Filter.IsPlain (name : Text) : Prop := '|' ∉ name ∧ Text.strip name = name

theorem Filter.split_of_isPlain {name : Text} (h : IsPlain name) : split name = (name, []) := by
  obtain ⟨hbar, hstrip⟩ := h
  have hsplit := @split_flatMap name [] hbar (by simp)
  rwa [List.flatMap_nil, List.append_nil, hstrip] at hsplit

theorem Render.readName_of_isPlain {name : Text} (h : Filter.IsPlain name) (pragmas : Pragmas) :
    readName pragmas name = (name, []) := by
  rw [readName, Filter.split_of_isPlain h, ite_self]

/-- No variable of a document has a bar in its name. -/
def Node.Unbarred (nodes : List Node) : Prop := ∀ n ∈ nodes, n.AllVariables ('|' ∉ ·)

namespace Library

variable {lib : Library} {given : Entries Text} {name source : Text} {nodes : List Node}

theorem plain_of_ofText (h : lib.ofText source = .ok nodes) (hbar : Node.Unbarred nodes) :
    ∀ n ∈ nodes, n.AllVariables Filter.IsPlain := by
  have hparse : Node.parse lib.delimiters source = .ok nodes := by
    rw [ofText, built] at h
    cases hp : Node.parse lib.delimiters source with
    | error e =>
        rw [hp] at h
        cases h
    | ok found =>
        rw [hp] at h
        cases h
        rfl
  intro n hn
  exact (hbar n hn).and (Node.trimmed_of_parse hparse n hn)

theorem plain_of_included? (h : lib.included? given name = .ok (some nodes))
    (hbar : Node.Unbarred nodes) : ∀ n ∈ nodes, n.AllVariables Filter.IsPlain := by
  obtain ⟨source, hsource⟩ := exists_source_of_included? h
  exact plain_of_ofText hsource hbar

theorem plain_of_template (h : lib.template given name = .ok nodes)
    (hbar : Node.Unbarred nodes) : ∀ n ∈ nodes, n.AllVariables Filter.IsPlain := by
  obtain ⟨source, hsource⟩ := exists_source_of_template h
  exact plain_of_ofText hsource hbar

end Library

/-! ## Pragmas -/

/-- The settings without the pragma for filters. -/
def Settings.unfiltered (settings : Settings) : Settings :=
  { settings with pragmas := settings.pragmas.filter (· ≠ Pragmas.filters) }

namespace Pragmas

/-- The same pragmas, filters aside, and the same treatment of unknown ones. -/
structure Twins (p q : Pragmas) : Prop where
  filtersAside : p.FiltersAside q
  strict_eq : q.strict = p.strict

/-- The same failure, or the same warnings. -/
abbrev SameWarned : Except Failure Warned → Except Failure Warned → Prop :=
  Agree fun x y => x.1.Twins y.1 ∧ y.2 = x.2

variable {p q : Pragmas} (h : p.Twins q)
include h

theorem Twins.enable (name : Text) (params : Entries Text) :
    SameWarned (p.enable name params) (q.enable name params) := by
  rw [Pragmas.enable, Pragmas.enable, h.strict_eq]
  by_cases hknown : known.contains name = true
  · rw [if_pos hknown, if_pos hknown]
    refine .ok ⟨⟨fun other hother => ?_, rfl⟩, rfl⟩
    rw [Entries.get?_put, Entries.get?_put, h.filtersAside other hother]
  · rw [if_neg hknown, if_neg hknown]
    split
    · exact .error _
    · exact .ok ⟨h, rfl⟩

/-- To enable filters changes nothing else. -/
theorem Twins.enable_filters (params : Entries Text) :
    ∃ p', p.enable filters params = .ok (p', []) ∧ p'.Twins q := by
  refine ⟨_, if_pos (by decide), fun other hother => ?_, h.strict_eq⟩
  rw [Entries.get?_put, if_neg (Ne.symm hother), h.filtersAside other hother]

theorem Twins.enableAll (calls : Entries (Entries Text)) :
    SameWarned (p.enableAll calls) (q.enableAll (calls.filter (·.1 ≠ filters))) := by
  rw [Pragmas.enableAll, Pragmas.enableAll]
  generalize ([] : List String) = warnings
  induction calls generalizing p q warnings with
  | nil => exact .ok ⟨h, rfl⟩
  | cons call calls ih =>
      obtain ⟨name, params⟩ := call
      rw [List.foldlM_cons]
      by_cases hname : name = filters
      · subst hname
        obtain ⟨p', hp', h'⟩ := h.enable_filters params
        rw [List.filter_cons_of_neg (by simp)]
        dsimp only
        rw [hp']
        change SameWarned (List.foldlM _ (p', warnings ++ []) calls) _
        rw [List.append_nil]
        exact ih h' warnings
      · rw [List.filter_cons_of_pos (by simp [hname]), List.foldlM_cons]
        dsimp only
        have henable := h.enable name params
        generalize p.enable name params = x at henable ⊢
        generalize q.enable name params = y at henable ⊢
        cases henable with
        | error e => exact .error e
        | @ok a b hab =>
            obtain ⟨p', more⟩ := a
            obtain ⟨q', _⟩ := b
            obtain ⟨h', rfl⟩ : p'.Twins q' ∧ _ = more := hab
            exact ih h' _

omit h in
theorem ofNames_twins (strict : Bool) (names : List Text) :
    SameWarned (ofNames strict names) (ofNames strict (names.filter (· ≠ filters))) := by
  have hnames : (names.filter (· ≠ filters)).map (fun name => (name, ([] : Entries Text))) =
      (names.map fun name => (name, [])).filter (·.1 ≠ filters) := by
    rw [List.filter_map]
    rfl
  have hstart : (Pragmas.none strict).Twins (.none strict) := ⟨fun _ _ => rfl, rfl⟩
  rw [ofNames, ofNames, hnames, ← Entries.filter_ofPairs]
  exact hstart.enableAll _

end Pragmas

/-! ## Sections -/

variable {lib : Library} {sub : Text → Prop} {V : Value → Prop}

/-- What follows the reading of a value that nothing can be called in. -/
theorem Value.Uncalled.readItems_twins (U : Uncalled sub V) {v : Value} (hv : V v)
    {next : Option (List Value) → Run SectionValue} (hnone : next none = pure .frame)
    (hsome : ∀ items, next (some items) = pure (SectionValue.ofItems items)) :
    Related (Store.Twins lib V) (SectionValue.Alike fun v w => v = w ∧ V v)
      (Run.read (Reading.items? v) >>= next) (Run.read (Reading.items? v) >>= next) := by
  have honHeap : OnHeap (Run.read (Reading.items? v)) := fun _ => rfl
  have hitems : Yields (Store.Calm lib V) (fun found => ∀ items, found = some items →
      ∀ w ∈ items, V w) (Run.read (Reading.items? v)) :=
    honHeap.yields fun store found hfound items hi => U.item hv store.heap items (hi ▸ hfound)
  apply Related.bind hitems.steady
  rintro found _ ⟨rfl, hfound⟩
  cases found with
  | none =>
      rw [hnone]
      exact .pure .frame
  | some items =>
      rw [hsome]
      apply Related.pure
      unfold SectionValue.ofItems
      split
      · exact .falsy
      · exact .list (List.forall₂_same.mpr fun w hw => ⟨rfl, hfound items rfl w hw⟩)

theorem Value.Uncalled.ofValue_twins (U : Uncalled sub V) {v : Value} (hv : V v) :
    Related (Store.Twins lib V) (SectionValue.Alike fun v w => v = w ∧ V v)
      (SectionValue.ofValue v) (SectionValue.ofValue v) := by
  unfold SectionValue.ofValue
  rw [U.not_isCallable hv]
  cases v with
  | missing | null => exact .pure .falsy
  | bool b =>
      cases b
      · exact .pure .falsy
      · exact U.readItems_twins hv rfl fun _ => rfl
  | text | bytes | dict =>
      apply Related.pure
      split
      · exact .falsy
      · exact .frame
  | _ => exact U.readItems_twins hv rfl fun _ => rfl

/-! ## Steps -/

namespace Run.OnHeap

theorem twins {α : Type} {x : Run α} (h : OnHeap x) : Related (Store.Twins lib V) (· = ·) x x :=
  (twinning lib V).mono (h.yields (K := fun _ => True) fun _ _ _ => trivial).steady
    fun _ _ h => h.1

end Run.OnHeap

namespace Filter

theorem applyAll_onHeap (depth : Nat) (own : Entries Value) (names : List Text) (v : Value) :
    OnHeap (applyAll depth own names v) := by
  rw [applyAll]
  induction names generalizing v with
  | nil => exact .pure v
  | cons name names ih =>
      rw [List.foldlM_cons]
      refine .bind ?_ fun w => ih w
      unfold apply
      split
      · exact Value.call_onHeap depth _ _
      · exact fun _ => rfl
      · exact .throw _

end Filter

namespace Render

theorem escaped_onHeap (stage : Stage) (depth : Nat) (t : Text) : OnHeap (escaped stage depth t) := by
  unfold escaped
  split
  · exact .pure _
  · refine .bind (Value.call_onHeap depth _ _) fun v => ?_
    split
    · exact .pure _
    · exact .throw _

theorem warned_twins {x y : Except Failure Warned} (h : Pragmas.SameWarned x y) :
    Related (Store.Twins lib V) Pragmas.Twins (warned x) (warned y) := by
  cases h with
  | error e => exact .throw e
  | @ok a b hab =>
      obtain ⟨p, warnings⟩ := a
      obtain ⟨q, _⟩ := b
      obtain ⟨hpq, rfl⟩ : p.Twins q ∧ _ = warnings := hab
      exact (twinning lib V).bind_eq ((twinning lib V).forM Run.warn_twins) fun _ => .pure hpq

theorem initialPragmas_twins (settings : Settings) :
    Related (Store.Twins lib V) Pragmas.Twins (initialPragmas settings)
      (initialPragmas settings.unfiltered) :=
  warned_twins (Pragmas.ofNames_twins settings.strictPragmas settings.pragmas)

theorem includedSite_twins (settings : Settings) (site : Site) (scope : Scope) {p : Pragmas}
    (hp : site.pragmas.Twins p) (name : Text) :
    Related (Store.Twins lib V) (fun s t => ∃ p q, p.Twins q ∧
        s = { site with pragmas := p, chain := name :: site.chain } ∧
        t = { site with scope, pragmas := q, chain := name :: site.chain })
      (includedSite settings site name)
      (includedSite settings.unfiltered { site with scope, pragmas := p } name) := by
  have hlimit : settings.unfiltered.maxPartialDepth = settings.maxPartialDepth := rfl
  have hinherit : settings.unfiltered.partialsInheritPragmas = settings.partialsInheritPragmas := rfl
  simp only [includedSite, hlimit, hinherit]
  by_cases hdeep : (name :: site.chain).length > settings.maxPartialDepth
  · rw [if_pos hdeep, if_pos hdeep]
    exact .throw _
  · rw [if_neg hdeep, if_neg hdeep]
    by_cases hi : settings.partialsInheritPragmas = true
    · rw [if_pos hi, if_pos hi]
      exact .pure ⟨_, _, hp, rfl, rfl⟩
    · rw [if_neg hi, if_neg hi]
      exact .bind (initialPragmas_twins settings) fun p q hpq => .pure ⟨p, q, hpq, rfl, rfl⟩

variable {stage : Stage}

theorem included?_twins (hincluded : ∀ name nodes,
      lib.included? stage.partials name = .ok (some nodes) → Node.Unbarred nodes) (name : Text) :
    Related (Store.Twins lib V)
      (Option.Rel fun document document' => document'.nodes = document.nodes ∧
        ∀ n ∈ document.nodes, n.AllVariables Filter.IsPlain)
      (included? stage name)
      (included? { stage with settings := stage.settings.unfiltered } name) := by
  refine .bind (Run.load_twins (Loading.included?_gives stage.partials name)) ?_
  rintro found _ ⟨rfl, nodes, hnodes, rfl⟩
  cases found with
  | some document =>
      exact .pure (.some ⟨rfl, Library.plain_of_included? hnodes (hincluded name _ hnodes)⟩)
  | none =>
      have hstrict : stage.settings.unfiltered.strictPartials = stage.settings.strictPartials := rfl
      dsimp only
      rw [hstrict]
      by_cases hs : stage.settings.strictPartials = true
      · rw [if_pos hs]
        exact .bind (Q := fun _ _ => False) (.throw _) fun _ _ h => h.elim
      · rw [if_neg hs]
        exact (twinning lib V).bind_eq (Run.warn_twins _) fun _ => .pure .none

theorem template_twins {t : Text}
    (ht : ∀ nodes, lib.template stage.partials t = .ok nodes → Node.Unbarred nodes) :
    Related (Store.Twins lib V)
      (fun document document' => document'.nodes = document.nodes ∧
        ∀ n ∈ document.nodes, n.AllVariables Filter.IsPlain)
      (Run.load (Loading.template stage.partials t))
      (Run.load (Loading.template stage.partials t)) := by
  apply (twinning lib V).mono (Run.load_twins (Loading.template_gives stage.partials t))
  rintro document _ ⟨rfl, nodes, hnodes, rfl⟩
  exact ⟨rfl, Library.plain_of_template hnodes (ht _ hnodes)⟩

/-! ## Documents -/

/-- All names are plain, in the node and in the overrides in force. -/
def ComesPlain (blocks : Entries (List Node)) (n : Node) : Prop :=
  n.AllVariables Filter.IsPlain ∧
    ∀ entry ∈ blocks, ∀ m ∈ entry.2, m.AllVariables Filter.IsPlain

theorem ComesPlain.inside {blocks : Entries (List Node)} {n m : Node} (h : ComesPlain blocks n)
    (hm : n.Contains blocks m) : ComesPlain blocks m := by
  obtain ⟨hn, hblocks⟩ := h
  refine ⟨?_, hblocks⟩
  cases hm with
  | plain hm | inverted hm => exact hn.children m hm
  | @block name children _ _ _ _ _ hm =>
      cases hg : blocks.get? name with
      | none =>
          rw [hg] at hm
          exact hn.children m hm
      | some override =>
          rw [hg] at hm
          exact hblocks _ (Entries.mem_of_get? hg) m hm

theorem ComesPlain.enters {blocks inner : Entries (List Node)} {n : Node} {name : Text}
    {nodes : List Node} (h : ComesPlain blocks n) (hinner : n.Enters blocks name inner)
    (hnodes : ∀ n ∈ nodes, n.AllVariables Filter.IsPlain) : ∀ m ∈ nodes, ComesPlain inner m := by
  obtain ⟨hn, hblocks⟩ := h
  intro m hm
  refine ⟨hnodes m hm, ?_⟩
  cases hinner with
  | inclusion => exact hblocks
  | parent =>
      intro entry hentry
      rcases mem_overrides hentry with hentry | ⟨_, _, _, _, hchild⟩
      · exact hblocks entry hentry
      · exact (hn.children _ hchild).children

/-- The renderings of a view with nothing to call, where templates have no bars in names: one with
these settings, and one without the pragma for filters in them. -/
def Bond.unfiltering (U : Value.Uncalled sub V) (stage : Stage)
    (hincluded : ∀ name nodes, lib.included? stage.partials name = .ok (some nodes) →
      Node.Unbarred nodes)
    (hsub : ∀ t, sub t → ∀ nodes, lib.template stage.partials t = .ok nodes →
      Node.Unbarred nodes) :
    Bond (twinning lib V) stage { stage with settings := stage.settings.unfiltered } where
  value v w := v = w ∧ V v
  scope := Scope.Beside fun v w => v = w ∧ V v
  pragmas := Pragmas.Twins
  Comes blocks _ n := ComesPlain blocks n
  Opens _ nodes := ∀ n ∈ nodes, n.AllVariables Filter.IsPlain
  ofView hv := .ofView hv
  push hs hv label := hs.push hv label
  resolve hs depth name := Scope.resolve_pairs U.finds hs depth name
  ofValue := by
    rintro v _ ⟨rfl, hv⟩
    exact U.ofValue_twins hv
  subView := by
    rintro t view _ ⟨rfl, hv⟩
    exact ⟨view, rfl, rfl, (U.subView hv).2⟩
  ofSubView := by
    rintro t view _ ⟨rfl, -⟩
    exact ⟨view, rfl⟩
  indents := rfl
  filtersAside := Pragmas.Twins.filtersAside
  enable _ _ _ call hp := warned_twins (hp.enable call.name call.params)
  inside := ComesPlain.inside
  enters := ComesPlain.enters
  included := included?_twins hincluded
  template _ t _ _ hv := template_twins (hsub t (U.subView hv.2).1)
  includedSite site scope _ _ name _ _ hp _ _ _ :=
    includedSite_twins stage.settings site scope hp name

variable (U : Value.Uncalled sub V)
  (hincluded : ∀ name nodes, lib.included? stage.partials name = .ok (some nodes) →
    Node.Unbarred nodes)
  (hsub : ∀ t, sub t → ∀ nodes, lib.template stage.partials t = .ok nodes → Node.Unbarred nodes)
include U hincluded hsub

theorem Bond.unfiltering_equal : (unfiltering U stage hincluded hsub).Equal where
  eq hv := hv.1.symm
  readName_eq hc _ := by rw [readName_of_isPlain hc.1.name, readName_of_isPlain hc.1.name]
  escaped depth t := (escaped_onHeap stage depth t).twins
  applyAll depth names v := (Filter.applyAll_onHeap depth stage.filters names v).twins
  callable hv hcall := by
    rw [U.not_isCallable hv.2] at hcall
    cases hcall

theorem document_unfiltered (depth : Nat) {view : Value} (hview : V view) {nodes : List Node}
    (hnodes : ∀ n ∈ nodes, n.AllVariables Filter.IsPlain) :
    Related (Store.Twins lib V) (· = ·) (document stage depth view nodes)
      (document { stage with settings := stage.settings.unfiltered } depth view nodes) := by
  have hcomes : ∀ n ∈ nodes, ComesPlain [] n := fun n hn => ⟨hnodes n hn, by simp⟩
  exact Bond.document_pairs (Bond.unfiltering_equal U hincluded hsub).calls
    (initialPragmas_twins stage.settings) ⟨rfl, hview⟩ hcomes depth

end Render

end Whisker
