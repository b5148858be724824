import Mathlib.Data.List.Forall2
import Whisker.Proofs.Render.Order

/-! Rendering does not look at the places of nodes. Overrides that stand elsewhere in a template
fill the same blocks in the same way. -/

namespace Whisker

/-- Nodes that differ in nothing but their places. -/
inductive Node.Moved : Node → Node → Prop where
  | text {content} : Moved (.text content) (.text content)
  | variable {name escaped place other} :
      Moved (.variable name escaped place) (.variable name escaped other)
  | comment {content} : Moved (.comment content) (.comment content)
  | delimiterChange {next} : Moved (.delimiterChange next) (.delimiterChange next)
  | pragma {call place other} : Moved (.pragma call place) (.pragma call other)
  | inclusion {name indent} : Moved (.inclusion name indent) (.inclusion name indent)
  | enclosure {kind name children others body d place other indent}
      (h : List.Forall₂ Moved children others) :
      Moved (.enclosure kind name children body d place indent)
        (.enclosure kind name others body d other indent)

mutual

theorem Node.Moved.refl (n : Node) : n.Moved n := by
  cases n with
  | enclosure kind name children body d place indent => exact .enclosure (forall₂_moved children)
  | _ => constructor

theorem Node.forall₂_moved (nodes : List Node) : List.Forall₂ Node.Moved nodes nodes := by
  cases nodes with
  | nil => exact .nil
  | cons n nodes => exact .cons (Node.Moved.refl n) (forall₂_moved nodes)

end

open Node (Moved)

/-! ## Overrides -/

/-- Entries with the same names, whose values are related. -/
abbrev Entries.Matched {β : Type} (R : β → β → Prop) : Entries β → Entries β → Prop :=
  List.Forall₂ fun entry other => entry.1 = other.1 ∧ R entry.2 other.2

namespace Entries.Matched

variable {β : Type} {R : β → β → Prop} {entries others : Entries β}

theorem get? (h : Matched R entries others) (name : Text) :
    Option.Rel R (entries.get? name) (others.get? name) := by
  induction h with
  | nil => exact .none
  | @cons entry other _ _ hentry _ ih =>
      obtain ⟨known, value⟩ := entry
      obtain ⟨_, value'⟩ := other
      obtain ⟨rfl, hvalue⟩ := hentry
      rw [Entries.get?, Entries.get?]
      split
      · exact .some hvalue
      · exact ih

theorem put (h : Matched R entries others) (name : Text) {value value' : β} (hv : R value value') :
    Matched R (entries.put name value) (others.put name value') := by
  induction h with
  | nil => exact .cons ⟨rfl, hv⟩ .nil
  | @cons entry other _ _ hentry htail ih =>
      obtain ⟨known, old⟩ := entry
      obtain ⟨_, old'⟩ := other
      obtain ⟨rfl, hold⟩ := hentry
      rw [Entries.put, Entries.put]
      split
      · exact .cons ⟨rfl, hv⟩ htail
      · exact .cons ⟨rfl, hold⟩ ih

theorem foldl_put (h : Matched R entries others) {pairs pairs' : Entries β}
    (hp : Matched R pairs pairs') :
    Matched R (pairs.foldl (fun entries (name, value) => Entries.put name value entries) entries)
      (pairs'.foldl (fun entries (name, value) => Entries.put name value entries) others) := by
  induction hp generalizing entries others with
  | nil => exact h
  | @cons pair pair' _ _ hpair _ ih =>
      obtain ⟨name, value⟩ := pair
      obtain ⟨_, value'⟩ := pair'
      obtain ⟨rfl, hvalue⟩ := hpair
      exact ih (h.put name hvalue)

end Entries.Matched

/-- The same overrides, at other places. -/
abbrev MovedBlocks : Entries (List Node) → Entries (List Node) → Prop :=
  Entries.Matched (List.Forall₂ Moved)

theorem MovedBlocks.refl (blocks : Entries (List Node)) : MovedBlocks blocks blocks :=
  List.forall₂_same.mpr fun entry _ => ⟨rfl, Node.forall₂_moved entry.2⟩

namespace Render

theorem blocksOf_moved {children children' : List Node}
    (h : List.Forall₂ Moved children children') :
    MovedBlocks (blocksOf children) (blocksOf children') := by
  refine Entries.Matched.foldl_put .nil ?_
  induction h with
  | nil => exact .nil
  | @cons n m _ _ hn _ ih =>
      cases hn with
      | @enclosure kind _ _ _ _ _ _ _ _ hc =>
          cases kind with
          | block => exact .cons ⟨rfl, hc⟩ ih
          | _ => exact ih
      | _ => exact ih

theorem overrides_moved {outer outer' : Entries (List Node)} {children children' : List Node}
    (ho : MovedBlocks outer outer') (hc : MovedBlocks (blocksOf children) (blocksOf children')) :
    MovedBlocks (overrides outer children) (overrides outer' children') :=
  hc.foldl_put ho

/-! ## Inclusions -/

/-- The pragmas that the text of an inclusion starts with. -/
def entered (settings : Settings) (site : Site) (name : Text) : Run Pragmas := do
  let chain := name :: site.chain
  if chain.length > settings.maxPartialDepth then throw (.inclusionTooDeep chain.reverse)
  if settings.partialsInheritPragmas then return site.pragmas else initialPragmas settings

theorem includedSite_eq (settings : Settings) (site : Site) (name : Text) :
    includedSite settings site name = do
      let pragmas ← entered settings site name
      return { site with pragmas, chain := name :: site.chain } := by
  simp only [includedSite, entered]
  split
  · rfl
  · split <;> simp

/-! ## Steps -/

/-- Two renderings come to the same with related overrides in force and related nodes. -/
def Corresponds (R : Entries (List Node) → Entries (List Node) → Prop) (N : Node → Node → Prop)
    (nested nested' : Nested) : Prop :=
  ∀ (site : Site) {blocks : Entries (List Node)}, R site.blocks blocks →
    ∀ {nodes nodes' : List Node}, List.Forall₂ N nodes nodes' →
      nested site nodes = nested' { site with blocks } nodes'

/-- Rendering these nodes comes to the same with other places. -/
def Unmoved (nested : Nested) : Prop :=
  ∀ (site : Site) {blocks : Entries (List Node)}, MovedBlocks site.blocks blocks →
    ∀ {nodes nodes' : List Node}, List.Forall₂ Moved nodes nodes' →
      nested site nodes = nested { site with blocks } nodes'

section

variable {stage : Stage} {R : Entries (List Node) → Entries (List Node) → Prop}
  {N : Node → Node → Prop} {nested nested' : Nested} (hN : ∀ nodes, List.Forall₂ N nodes nodes)
  (hn : Corresponds R N nested nested') {depth : Nat} {site : Site}
  {blocks : Entries (List Node)} (hb : R site.blocks blocks)
include hN hn

section

include hb

theorem nested_corresponds (nodes : List Node) :
    nested site nodes = nested' { site with blocks } nodes :=
  hn site hb (hN nodes)

theorem variable_corresponds (name : Text) (isEscaped : Bool) :
    variable_ stage nested depth site name isEscaped =
      variable_ stage nested' depth { site with blocks } name isEscaped := by
  simp only [variable_, variableValue, nested_corresponds hN hn hb]

theorem section_corresponds {children children' : List Node}
    (hc : List.Forall₂ N children children') (name : Text) (d : Delimiters) (body : Text) :
    section_ nested depth site name children d body =
      section_ nested' depth { site with blocks } name children' d body := by
  refine bind_congr fun v => bind_congr fun value => ?_
  cases value with
  | falsy => rfl
  | list items =>
      dsimp only
      congr 1
      funext rendered item
      rw [hn { site with scope := site.scope.push item _, pragmas := rendered.2 } hb hc]
  | lambda => simp only [lambdaSection, nested_corresponds hN hn hb]
  | frame => exact hn { site with scope := site.scope.push v none } hb hc

omit hN in
theorem invertedSection_corresponds {children children' : List Node}
    (hc : List.Forall₂ N children children') (name : Text) :
    invertedSection nested depth site name children =
      invertedSection nested' depth { site with blocks } name children' := by
  refine bind_congr fun v => bind_congr fun value => ?_
  rw [hn site hb hc]

theorem inclusion_corresponds (name indent : Text) :
    inclusion stage nested depth site name indent =
      inclusion stage nested' depth { site with blocks } name indent := by
  have hinner (scope : Scope) (pragmas : Pragmas) (chain : List Text) (nodes : List Node) :
      nested ⟨scope, pragmas, site.blocks, chain⟩ nodes =
        nested' ⟨scope, pragmas, blocks, chain⟩ nodes :=
    hn ⟨scope, pragmas, site.blocks, chain⟩ hb (hN nodes)
  simp only [inclusion, includedSite_eq, bind_assoc, pure_bind, hinner]
  rfl

end

/-- Inside a parent tag the overrides of the tag are in force too. -/
theorem parent_corresponds {children children' : List Node}
    (ho : R (overrides site.blocks children) (overrides blocks children')) (name indent : Text) :
    parent stage nested site name indent children =
      parent stage nested' { site with blocks } name indent children' := by
  simp only [parent, includedSite_eq, bind_assoc, pure_bind]
  refine bind_congr fun document => ?_
  cases document with
  | none => rfl
  | some document =>
      refine bind_congr fun pragmas => ?_
      rw [hn _ ho (hN document.nodes)]

end

theorem step_moved {stage : Stage} {nested : Nested} (hn : Unmoved nested) {depth : Nat}
    {site : Site} {blocks : Entries (List Node)} (hb : MovedBlocks site.blocks blocks) {n n' : Node}
    (h : n.Moved n') :
    step stage depth nested site n = step stage depth nested { site with blocks } n' := by
  have hrefl := Node.forall₂_moved
  cases h with
  | text => rfl
  | comment => rfl
  | delimiterChange => rfl
  | pragma => rfl
  | «variable» => simp only [step, variable_corresponds hrefl hn hb]
  | inclusion => simp only [step, inclusion_corresponds hrefl hn hb]
  | @enclosure kind name children children' body d _ _ indent hc =>
      cases kind with
      | plain => simp only [step, section_corresponds hrefl hn hb hc]
      | inverted => simp only [step, invertedSection_corresponds hn hb hc]
      | parent =>
          have ho := overrides_moved hb (blocksOf_moved hc)
          simp only [step, parent_corresponds hrefl hn ho]
      | block =>
          have hfill : List.Forall₂ Moved ((site.blocks.get? name).getD children)
              ((blocks.get? name).getD children') := by
            have hget := hb.get? name
            generalize site.blocks.get? name = found at hget ⊢
            generalize blocks.get? name = found' at hget ⊢
            cases hget with
            | none => exact hc
            | some h => exact h
          simp only [step, hn site hb hfill]

theorem inOrder_corresponds {R : Entries (List Node) → Entries (List Node) → Prop}
    {N : Node → Node → Prop} {one one' : Site → Node → Run (Piece × Pragmas)}
    (h : ∀ (site : Site) {blocks : Entries (List Node)}, R site.blocks blocks → ∀ {n n' : Node},
      N n n' → one site n = one' { site with blocks } n') :
    Corresponds R N (inOrder one) (inOrder one') := by
  intro site blocks hb nodes nodes' hnodes
  induction hnodes generalizing site with
  | nil => rfl
  | cons hn _ ih =>
      rw [inOrder_cons, inOrder_cons, h site hb hn]
      refine bind_congr fun result => ?_
      obtain ⟨piece, pragmas⟩ := result
      exact congrArg (join piece) (ih { site with pragmas } hb)

/-- Nodes at other places are rendered to the same. -/
theorem node_moved (stage : Stage) (depth : Nat) (site : Site) {blocks : Entries (List Node)}
    (hb : MovedBlocks site.blocks blocks) {n n' : Node} (h : n.Moved n') :
    node stage depth site n = node stage depth { site with blocks } n' := by
  induction depth generalizing site blocks n n' with
  | zero => rfl
  | succ depth ih =>
      exact step_moved (inOrder_corresponds fun site _ hb _ _ h => ih site hb h) hb h

end Render

end Whisker
