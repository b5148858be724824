import Whisker.Proofs.Render.Bond
import Whisker.Proofs.Render.Steps
import Whisker.Proofs.View.Tame

/-! The chains of templates that tags can lead to, whatever the view has. Where a rendering of a
passive view fails for the length of a chain, it is one of them. Overrides take tags from one
template into others: apart from those, chains are paths of the tags written in the templates. -/

namespace Whisker

open Run (Tame)

namespace Node

/-- The name is in a tag for a partial or a parent that is written in the node. -/
inductive Names : Node → Text → Prop where
  | inclusion {name indent} : Names (.inclusion name indent) name
  | parent {name children body d place indent} :
      Names (.enclosure .parent name children body d place indent) name
  | inside {kind tag children body d place indent child name} (hm : child ∈ children)
      (h : Names child name) : Names (.enclosure kind tag children body d place indent) name

/-- The other node is in an override that is written in this one. -/
inductive Moves : Node → Node → Prop where
  | override {name children body d place indent entry m} (he : entry ∈ Render.blocksOf children)
      (hm : m ∈ entry.2) : Moves (.enclosure .parent name children body d place indent) m
  | inside {kind tag children body d place indent child m} (hm : child ∈ children)
      (h : Moves child m) : Moves (.enclosure kind tag children body d place indent) m

theorem Moves.exists_names {n m : Node} (h : n.Moves m) : ∃ name, n.Names name := by
  induction h with
  | override => exact ⟨_, .parent⟩
  | inside hm _ ih =>
      obtain ⟨name, hname⟩ := ih
      exact ⟨name, .inside hm hname⟩

theorem Enters.names {blocks inner : Entries (List Node)} {n : Node} {name : Text}
    (h : n.Enters blocks name inner) : n.Names name := by
  cases h with
  | inclusion => exact .inclusion
  | parent => exact .parent

/-- All tags and overrides in the node are also in the nodes of the template. -/
structure WrittenIn (nodes : List Node) (n : Node) : Prop where
  names : ∀ name, n.Names name → ∃ m ∈ nodes, m.Names name
  moves : ∀ moved, n.Moves moved → ∃ m ∈ nodes, m.Moves moved

namespace WrittenIn

variable {nodes : List Node} {n : Node}

theorem of_mem (h : n ∈ nodes) : WrittenIn nodes n :=
  ⟨fun _ hn => ⟨n, h, hn⟩, fun _ hm => ⟨n, h, hm⟩⟩

theorem of_not_names (h : ∀ name, ¬ n.Names name) : WrittenIn nodes n := by
  constructor
  · intro name hname
    exact absurd hname (h name)
  · intro moved hmoved
    obtain ⟨name, hname⟩ := hmoved.exists_names
    exact absurd hname (h name)

theorem child {kind tag children body d place indent}
    (h : WrittenIn nodes (.enclosure kind tag children body d place indent)) (hm : n ∈ children) :
    WrittenIn nodes n :=
  ⟨fun name hname => h.names name (.inside hm hname),
    fun moved hmoved => h.moves moved (.inside hm hmoved)⟩

end WrittenIn

end Node

namespace Render

/-! ## Chains -/

section

variable (lib : Library) (given : Entries Text) (root : List Node)

/-- The nodes that can be rendered, with the overrides in force there and with the names of the
templates around them, innermost first. -/
inductive Reaches : Entries (List Node) → List Text → Node → Prop where
  | root {n} (h : n ∈ root) : Reaches [] [] n
  | inside {blocks chain n m} (hn : Reaches blocks chain n) (h : n.Contains blocks m) :
      Reaches blocks chain m
  | enters {blocks inner chain n name nodes m} (hn : Reaches blocks chain n)
      (h : n.Enters blocks name inner) (ho : lib.included? given name = .ok (some nodes))
      (hm : m ∈ nodes) : Reaches inner (name :: chain) m

/-- The names of templates that can be rendered one inside another, innermost first. -/
inductive IsChain : List Text → Prop where
  | nil : IsChain []
  | enters {blocks inner chain n name nodes} (hn : Reaches lib given root blocks chain n)
      (h : n.Enters blocks name inner) (ho : lib.included? given name = .ok (some nodes)) :
      IsChain (name :: chain)

/-- The names of templates of which each has a tag for the next one written in it, innermost
first, and the nodes of the innermost one. -/
inductive IsPath : List Text → List Node → Prop where
  | nil : IsPath [] root
  | cons {path nodes n name inner} (hp : IsPath path nodes) (hn : n ∈ nodes) (h : n.Names name)
      (ho : lib.included? given name = .ok (some inner)) : IsPath (name :: path) inner

/-- There are no tags in the overrides that the templates write. -/
def TagsStay : Prop :=
  ∀ path nodes, IsPath lib given root path nodes →
    ∀ n ∈ nodes, ∀ m, n.Moves m → ∀ name, ¬ m.Names name

end

/-- The names, outermost first, of a chain that is longer than the limit. -/
def TooLong (limit : Nat) (lib : Library) (given : Entries Text) (root : List Node)
    (names : List Text) : Prop :=
  IsChain lib given root names.reverse ∧ limit < names.length

/-- No chain is longer than the limit. -/
def ChainsFit (limit : Nat) (lib : Library) (given : Entries Text) (root : List Node) : Prop :=
  ∀ chain, IsChain lib given root chain → chain.length ≤ limit

variable {lib : Library} {given : Entries Text} {root : List Node}

section

variable (hstay : TagsStay lib given root)
include hstay

/-- No override in force has a tag, and what can be rendered is written in the innermost template. -/
theorem Reaches.exists_path {blocks : Entries (List Node)} {chain : List Text} {n : Node}
    (h : Reaches lib given root blocks chain n) :
    (∀ entry ∈ blocks, ∀ m ∈ entry.2, ∀ name, ¬ m.Names name) ∧
      ∃ nodes, IsPath lib given root chain nodes ∧ n.WrittenIn nodes := by
  induction h with
  | root hn => exact ⟨by simp, root, .nil, .of_mem hn⟩
  | @inside _ _ _ m _ h ih =>
      obtain ⟨hblocks, nodes, hp, hw⟩ := ih
      refine ⟨hblocks, nodes, hp, ?_⟩
      cases h with
      | plain hm => exact hw.child hm
      | inverted hm => exact hw.child hm
      | @block name _ _ _ _ _ _ hm =>
          -- an override comes from another template, but there are no tags in it
          cases hg : Entries.get? _ name with
          | none =>
              rw [hg] at hm
              exact hw.child hm
          | some body =>
              rw [hg] at hm
              exact .of_not_names (hblocks _ (Entries.mem_of_get? hg) m hm)
  | enters _ h ho hm ih =>
      obtain ⟨hblocks, nodes, hp, hw⟩ := ih
      obtain ⟨m, hmem, hname⟩ := hw.names _ h.names
      refine ⟨?_, _, .cons hp hmem hname ho, .of_mem hm⟩
      cases h with
      | inclusion => exact hblocks
      | parent =>
          intro entry he m hm
          rcases Entries.mem_foldl_put he with he | he
          · obtain ⟨n, hn, hmoves⟩ := hw.moves m (.override he hm)
            exact hstay _ _ hp n hn m hmoves
          · exact hblocks entry he m hm

theorem IsChain.exists_path {chain : List Text} (h : IsChain lib given root chain) :
    ∃ nodes, IsPath lib given root chain nodes := by
  cases h with
  | nil => exact ⟨root, .nil⟩
  | enters hn h ho =>
      obtain ⟨-, nodes, hp, hw⟩ := hn.exists_path hstay
      obtain ⟨m, hm, hname⟩ := hw.names _ h.names
      exact ⟨_, .cons hp hm hname ho⟩

/-- Where tags stay, chains fit if paths do. -/
theorem TagsStay.chainsFit {limit : Nat}
    (hlimit : ∀ path nodes, IsPath lib given root path nodes → path.length ≤ limit) :
    ChainsFit limit lib given root := by
  intro chain hchain
  obtain ⟨nodes, hp⟩ := hchain.exists_path hstay
  exact hlimit chain nodes hp

end

/-! ## Steps -/

variable {chains : List Text → Prop}

theorem warned_tame {result : Except Failure Pragmas.Warned} (h : Flat result) :
    Tame lib chains (fun _ => True) (warned result) := by
  cases result with
  | error e => exact .fail (h.reports rfl)
  | ok warned => exact .bind (.forM Tame.warn) fun _ _ => .pure trivial

theorem enable_tame (site : Site) (call : PragmaCall) :
    Tame lib chains (fun _ => True) (enable site call) :=
  warned_tame (Pragmas.enable_flat _ _ _)

theorem initialPragmas_tame (settings : Settings) :
    Tame lib chains (fun _ => True) (initialPragmas settings) :=
  warned_tame (Pragmas.ofNames_flat _ _)

theorem escaped_tame (stage : Stage) (depth : Nat) (t : Text) :
    Tame lib chains (fun _ => True) (escaped stage depth t) := by
  unfold escaped
  split
  · exact .pure trivial
  · refine .bind (Value.call_tame (fun _ => .throw rfl) _ _ _) fun v _ => ?_
    have hv := Piece.ofValue_flat v
    split
    · exact .pure trivial
    · rename_i e he
      exact .fail (hv.reports he)

theorem included?_tame (stage : Stage) (name : Text) :
    Tame lib chains (fun found => ∀ document, found = some document →
        lib.included? stage.partials name = .ok (some document.nodes))
      (included? stage name) := by
  refine .bind (.load (Loading.included?_gives stage.partials name)
    (lib.included?_flat stage.partials name)) fun found hfound => ?_
  cases found with
  | some document =>
      obtain ⟨nodes, hn, rfl⟩ := hfound
      apply Tame.pure
      rintro _ ⟨⟩
      exact hn
  | none =>
      dsimp only
      split
      · exact .bind (L := fun _ => _) (.throw rfl) fun _ h => h
      · exact .bind (.warn _) fun _ _ => .pure nofun

theorem includedSite_tame (settings : Settings) (site : Site) (name : Text)
    (h : IsChain lib given root (name :: site.chain)) :
    Tame lib (TooLong settings.maxPartialDepth lib given root)
      (fun s => ∃ p, s = { site with pragmas := p, chain := name :: site.chain })
      (includedSite settings site name) := by
  simp only [includedSite]
  by_cases hdeep : (name :: site.chain).length > settings.maxPartialDepth
  · rw [if_pos hdeep]
    apply Tame.fail
    rintro _ ⟨⟩
    constructor
    · rw [List.reverse_reverse]
      exact h
    · rw [List.length_reverse]
      exact hdeep
  · rw [if_neg hdeep]
    split
    · exact .pure ⟨_, rfl⟩
    · exact .bind (initialPragmas_tame settings) fun p _ => .pure ⟨p, rfl⟩

/-! ## Documents -/

/-- A rendering of passive values beside itself, which comes only to nodes that can be reached. -/
def Bond.reaching (lib : Library) (stage : Stage) (root : List Node) :
    Bond (Run.taming lib (TooLong stage.settings.maxPartialDepth lib stage.partials root)) stage
      stage where
  value v w := w = v ∧ v.Passive
  scope s t := t = s ∧ s.Passive
  pragmas p q := q = p
  Comes := Reaches lib stage.partials root
  Opens name nodes := lib.included? stage.partials name = .ok (some nodes)
  ofView := by
    rintro v _ ⟨rfl, hv⟩
    exact ⟨rfl, List.forall_mem_singleton.mpr hv⟩
  push := by
    rintro s _ v _ ⟨rfl, hs⟩ ⟨rfl, hv⟩ label
    exact ⟨rfl, List.forall_mem_cons.mpr ⟨hv, hs⟩⟩
  resolve hs depth name := (Scope.resolve_tame depth hs.2 name).mono fun v hv => ⟨v, rfl, hv⟩
  ofValue hv := by
    refine (SectionValue.ofValue_tame hv.2).mono fun value hvalue => ⟨value, ?_⟩
    cases value with
    | list items => exact .list (List.forall₂_same.mpr fun v hm => ⟨rfl, hvalue v hm⟩)
    | _ => constructor
  subView h := nomatch h.2
  ofSubView := by
    rintro t view v ⟨rfl, hv⟩
    cases hv
  indents := .refl stage
  filtersAside := Pragmas.filtersAside_of_eq
  enable site _ _ call _ := (enable_tame site call).mono fun p _ => ⟨p, rfl⟩
  inside := .inside
  enters hn h ho _ hm := .enters hn h ho hm
  included name := by
    refine (included?_tame stage name).mono fun found hfound => ⟨found, ?_⟩
    cases found with
    | none => exact .none
    | some document => exact .some ⟨rfl, hfound document rfl⟩
  template _ _ _ _ h := nomatch h.2
  includedSite site _ _ _ name _ _ _ hn h ho := by
    refine (includedSite_tame stage.settings site name (.enters hn h ho)).mono ?_
    rintro _ ⟨p, rfl⟩
    exact ⟨_, p, p, rfl, rfl, rfl⟩

variable (lib : Library) (stage : Stage) (root : List Node)

theorem Bond.reaching_equal : (reaching lib stage root).Equal where
  eq h := h.1
  readName_eq _ hp := congrArg (readName · _) hp
  escaped depth t := (escaped_tame stage depth t).mono fun piece _ => ⟨piece, rfl⟩
  applyAll depth names v := (Filter.applyAll_tame depth _ names v).mono fun w _ => ⟨w, rfl⟩
  callable h hcall := by
    rw [h.2.not_isCallable] at hcall
    cases hcall

theorem document_tame (depth : Nat) {view : Value} (hv : view.Passive) :
    Tame lib (TooLong stage.settings.maxPartialDepth lib stage.partials root) (fun _ => True)
      (document stage depth view root) := by
  have hinitial : Tame lib (TooLong stage.settings.maxPartialDepth lib stage.partials root)
      (fun p => ∃ q, q = p) (initialPragmas stage.settings) :=
    (initialPragmas_tame stage.settings).mono fun p _ => ⟨p, rfl⟩
  exact (Bond.document_pairs (Bond.reaching_equal lib stage root).calls hinitial ⟨rfl, hv⟩
    (fun n hn => .root hn) depth).any

end Render
end Whisker
