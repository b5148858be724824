import Whisker.Proofs.Render.Checked
import Whisker.Proofs.Render.Places

/-! Overrides by the outermost parent tag. The table of overrides that a rendering carries has for
each block what the tags around it say, the outermost first. -/

namespace Whisker

/-! ## Tables put together -/

namespace Entries

variable {β : Type}

theorem get?_append (front back : Entries β) (name : Text) :
    get? (front ++ back) name = (get? front name).or (get? back name) := by
  induction front with
  | nil => rfl
  | cons entry front ih =>
      obtain ⟨known, value⟩ := entry
      rw [List.cons_append, get?, get?, ih]
      split <;> rfl

/-- Of pairs that are put one after another the last counts. -/
theorem get?_foldl_put (entries : Entries β) (pairs : List (Text × β)) (name : Text) :
    get? (pairs.foldl (fun entries (name, value) => put name value entries) entries) name =
      (get? pairs.reverse name).or (get? entries name) := by
  induction pairs generalizing entries with
  | nil => rfl
  | cons pair pairs ih =>
      obtain ⟨known, value⟩ := pair
      rw [List.foldl_cons, ih, List.reverse_cons, get?_append, get?_put, Option.or_assoc]
      congr 1
      by_cases h : known = name <;> simp [get?, h]

theorem get?_eq_none {entries : Entries β} {name : Text} (h : name ∉ entries.names) :
    get? entries name = none := by
  rw [← Option.not_isSome_iff_eq_none]
  intro hs
  obtain ⟨value, hv⟩ := Option.isSome_iff_exists.mp hs
  exact h (List.mem_map_of_mem (mem_of_get? hv))

/-- Where no name comes twice the order does not matter. -/
theorem get?_reverse {entries : Entries β} (h : entries.names.Nodup) (name : Text) :
    get? entries.reverse name = get? entries name := by
  induction entries with
  | nil => rfl
  | cons entry entries ih =>
      obtain ⟨known, value⟩ := entry
      obtain ⟨hnot, h⟩ := List.nodup_cons.mp h
      rw [List.reverse_cons, get?_append, ih h, get?, get?, get?]
      split
      · next he => rw [get?_eq_none (he ▸ hnot), Option.none_or]
      · rw [Option.or_none]

theorem mem_names_put {name other : Text} {value : β} {entries : Entries β}
    (h : other ∈ (put name value entries).names) : other = name ∨ other ∈ entries.names := by
  obtain ⟨entry, hm, rfl⟩ := List.mem_map.mp h
  exact (mem_put hm).imp (congrArg Prod.fst) List.mem_map_of_mem

theorem nodup_put {entries : Entries β} (h : entries.names.Nodup) (name : Text) (value : β) :
    (put name value entries).names.Nodup := by
  induction entries with
  | nil => exact List.nodup_cons.mpr ⟨List.not_mem_nil, List.nodup_nil⟩
  | cons entry entries ih =>
      obtain ⟨known, old⟩ := entry
      obtain ⟨hnot, h⟩ := List.nodup_cons.mp h
      rw [put]
      split
      · next he => exact List.nodup_cons.mpr ⟨he ▸ hnot, h⟩
      · next hne =>
          refine List.nodup_cons.mpr ⟨fun hm => ?_, ih h⟩
          exact (mem_names_put hm).elim hne hnot

theorem nodup_foldl_put {entries : Entries β} (h : entries.names.Nodup)
    (pairs : List (Text × β)) :
    (names (pairs.foldl (fun entries (name, value) => put name value entries) entries)).Nodup := by
  induction pairs generalizing entries with
  | nil => exact h
  | cons pair pairs ih => exact ih (nodup_put h pair.1 pair.2)

end Entries

namespace Render

/-! ## What the tags say -/

/-- The body that a node right inside a parent tag has for a block. -/
def bodyFor? (name : Text) (child : Node) : Option (List Node) :=
  match child with
  | .enclosure .block known body .. => if known = name then some body else none
  | _ => none

/-- The override of a block by a parent tag with these nodes inside. Of several the last counts. -/
def overrideOf? (name : Text) (children : List Node) : Option (List Node) :=
  children.reverse.findSome? (bodyFor? name)

/-- The override of a block by the outermost of some parent tags that has one. The tags are given by
what is right inside them, from outside to inside. -/
def outermost? (name : Text) (parents : List (List Node)) : Option (List Node) :=
  parents.findSome? (overrideOf? name)

theorem get?_blocksOf (children : List Node) (name : Text) :
    (blocksOf children).get? name = overrideOf? name children := by
  rw [blocksOf, Entries.ofPairs, Entries.get?_foldl_put, overrideOf?, ← List.filterMap_reverse,
    Entries.get?, Option.or_none]
  generalize children.reverse = nodes
  induction nodes with
  | nil => rfl
  | cons n nodes ih =>
      cases n with
      | enclosure kind known body =>
          cases kind with
          | block =>
              rw [List.findSome?_cons, List.filterMap_cons]
              dsimp only
              rw [Entries.get?, ih, bodyFor?]
              split <;> rfl
          | _ => exact ih
      | _ => exact ih

theorem get?_overrides {outer : Entries (List Node)} (h : outer.names.Nodup)
    (children : List Node) (name : Text) :
    (overrides outer children).get? name = (outer.get? name).or (overrideOf? name children) := by
  rw [overrides, Entries.get?_foldl_put, Entries.get?_reverse h, get?_blocksOf]

/-- The table has for each block what the tags say. -/
structure Tells (blocks : Entries (List Node)) (parents : List (List Node)) : Prop where
  nodup : blocks.names.Nodup
  get?_eq : ∀ name, blocks.get? name = outermost? name parents

theorem Tells.nil : Tells [] [] := ⟨List.nodup_nil, fun _ => rfl⟩

theorem Tells.enter {blocks : Entries (List Node)} {parents : List (List Node)}
    (h : Tells blocks parents) (children : List Node) :
    Tells (overrides blocks children) (parents ++ [children]) := by
  have hnil : (Entries.names ([] : Entries (List Node))).Nodup := List.nodup_nil
  have hblocks : (blocksOf children).names.Nodup := Entries.nodup_foldl_put hnil _
  refine ⟨Entries.nodup_foldl_put hblocks _, fun name => ?_⟩
  rw [get?_overrides h.nodup, h.get?_eq, outermost?, outermost?, List.findSome?_append,
    List.findSome?_singleton]

/-! ## Renderings under parent tags -/

/-- Renders a node while the parent tags are being rendered. The body of a block is the override by
the outermost of them, or the block's own. No table of overrides is looked at. -/
def nodeUnder (stage : Stage) : Nat → List (List Node) → Site → Node → Run (Piece × Pragmas)
  | 0, _, _, _ => throw .tooDeep
  | depth + 1, parents, site, n =>
    match n with
    | .enclosure .block name children .. => do
      let body := (outermost? name parents).getD children
      let (text, pragmas) ← inOrder (nodeUnder stage depth parents) site body
      return (.text text, pragmas)
    | .enclosure .parent name children _ _ _ indent => do
      let inside := inOrder (nodeUnder stage depth (parents ++ [children]))
      return (.text (← parent stage inside site name indent children), site.pragmas)
    | _ => step stage depth (inOrder (nodeUnder stage depth parents)) site n

/-- The first table is the one given, and the second may be any. -/
def Known (blocks known _other : Entries (List Node)) : Prop := known = blocks

/-- With a table of what the parent tags say, a node is rendered as under these tags, whatever the
table is there. -/
theorem node_under (stage : Stage) (depth : Nat) {parents : List (List Node)} {site : Site}
    (h : Tells site.blocks parents) (others : Entries (List Node)) (n : Node) :
    node stage depth site n = nodeUnder stage depth parents { site with blocks := others } n := by
  induction depth generalizing parents site others n with
  | zero => rfl
  | succ depth ih =>
      have hn {blocks : Entries (List Node)} {parents : List (List Node)}
          (h : Tells blocks parents) : Corresponds (Known blocks) (· = ·)
            (inOrder (node stage depth)) (inOrder (nodeUnder stage depth parents)) :=
        inOrder_corresponds fun site others hb n _ he => he ▸ ih (hb.symm ▸ h) others n
      have hsame (nodes : List Node) : List.Forall₂ (· = ·) nodes nodes :=
        List.forall₂_same.mpr fun _ _ => rfl
      have hb : Known site.blocks site.blocks others := rfl
      cases n with
      | text => rfl
      | comment => rfl
      | delimiterChange => rfl
      | pragma => rfl
      | «variable» => simp only [node, nodeUnder, step, variable_corresponds hsame (hn h) hb]
      | inclusion => simp only [node, nodeUnder, step, inclusion_corresponds hsame (hn h) hb]
      | enclosure kind name children =>
          cases kind with
          | plain =>
              simp only [node, nodeUnder, step, section_corresponds hsame (hn h) hb (hsame children)]
          | inverted =>
              simp only [node, nodeUnder, step,
                invertedSection_corresponds (hn h) hb (hsame children)]
          | block =>
              simp only [node, nodeUnder, step, h.get?_eq, nested_corresponds hsame (hn h) hb]
          | parent =>
              have ho : Known (overrides site.blocks children) (overrides site.blocks children)
                (overrides others children) := rfl
              simp only [node, nodeUnder, step, parent_corresponds hsame (hn (h.enter children)) ho]

end Render

namespace Engine

/-- Renders a template as an engine does, with the parent tags themselves in place of a table of
their overrides. -/
def renderUnder (engine : Engine) (depth : Nat) (template : Text) (view : Value)
    (partials : Entries Text) : Run Text := do
  match rootOf view with
  | .error e => throw e
  | .ok root =>
    let document ← Run.load (Loading.template partials template)
    Run.afresh (Render.documentBy (Render.nodeUnder (engine.stage partials) depth [])
      engine.settings root document.nodes)

/-- At each block of a rendering the outermost parent tag around it that overrides it gives the
body, with the last block of that name; if none does it is the block's own. The parent tags around a
block are those that the rendering is in, through whatever lies between them, and no others. -/
theorem renderStep_eq_renderUnder (engine : Engine) (depth : Nat) (template : Text) (view : Value)
    (partials : Entries Text) :
    engine.renderStep depth template view partials =
      engine.renderUnder depth template view partials := by
  unfold renderStep renderUnder
  cases rootOf view with
  | error e => rfl
  | ok root =>
      refine bind_congr fun document => congrArg Run.afresh (bind_congr fun pragmas => ?_)
      have hall : Render.Corresponds (Render.Known []) (· = ·)
          (Render.inOrder (Render.node (engine.stage partials) depth))
          (Render.inOrder (Render.nodeUnder (engine.stage partials) depth [])) :=
        Render.inOrder_corresponds fun site others hb n _ he =>
          he ▸ Render.node_under _ depth (hb.symm ▸ Render.Tells.nil) others n
      rw [hall ⟨Scope.ofView root, pragmas, [], []⟩ rfl (List.forall₂_same.mpr fun _ _ => rfl)]

end Engine

end Whisker
