import Whisker.Proofs.Render.Checked
import Whisker.Proofs.Render.Steady
import Whisker.Proofs.Render.Order
import Whisker.Proofs.Template.Padding
import Whisker.Proofs.Text.Entity
import Whisker.Proofs.Text.Lines

/-! Escaping is complete: where templates have no markup of their own, escape their variables and
call no section lambdas, no markup comes into the text. -/

namespace Whisker

open Run (Yields YieldsAt Serving)

/-! ## Indented texts -/

namespace Text

theorem isInert_indentLines {indent t : Text} (hi : isInert indent = true)
    (ht : isInert t = true) : isInert (indentLines indent t) = true := by
  rw [indentLines, List.flatMap]
  refine isInert_flatten (List.forall_mem_map.mpr fun line hl => isInert_append hi ?_)
  rw [← flatten_lines t, isInert, List.all_eq_true] at ht
  exact List.all_eq_true.mpr fun c hc => ht c (List.mem_flatten.mpr ⟨line, hl, hc⟩)

theorem isInert_of_isPadding {t : Text} (h : Token.IsPadding t) : isInert t = true := by
  refine List.all_eq_true.mpr fun c hc => ?_
  have hpad := h c hc
  simp only [Token.isPad, Bool.or_eq_true, decide_eq_true_eq] at hpad
  rcases hpad with rfl | rfl <;> rfl

end Text

/-! ## Documents -/

namespace Library

variable {lib : Library} {given : Entries Text} {name : Text} {nodes : List Node}

theorem exists_source_of_included? (h : lib.included? given name = .ok (some nodes)) :
    ∃ source, lib.ofText source = .ok nodes :=
  forall_included? (P := fun _ nodes => ∃ source, lib.ofText source = .ok nodes)
    (fun entry _ _ ht => ⟨entry.2, ht⟩) (fun _ source _ _ ht => ⟨source, ht⟩) h

theorem exists_source_of_template (h : lib.template given name = .ok nodes) :
    ∃ source, lib.ofText source = .ok nodes := by
  obtain ⟨found, hi, h⟩ := exists_of_bind_eq_ok h
  cases found with
  | none => exact ⟨name, h⟩
  | some nodes' =>
      cases h
      exact exists_source_of_included? hi

theorem padded_of_ofText {source : Text} (h : lib.ofText source = .ok nodes) :
    ∀ n ∈ nodes, n.Padded := by
  rw [ofText, built] at h
  cases hp : Node.parse lib.delimiters source with
  | error e =>
      rw [hp] at h
      cases h
  | ok nodes' =>
      rw [hp] at h
      cases h
      exact Node.padded_of_parse hp

end Library

/-! ## Rendering -/

/-- A piece that is no text makes the rendering fail. -/
def Piece.isInert : Piece → Bool
  | .text t => Text.isInert t
  | .unfit => true

namespace Render

/-- Of texts, that they have no markup; of variables, that they are escaped; and of sections, that
what is named, if that can be told, is not for calling. -/
def inertTemplates : Check := fun depth site n store =>
  match n with
  | .text content => Text.isInert content
  | .variable _ isEscaped _ => isEscaped
  | .enclosure .plain name .. =>
    match ((site.scope.resolve depth name).run store).1 with
    | .ok v => !v.isCallable
    | .error _ => true
  | _ => true

/-- All indents in the overrides are padding. -/
def PaddedBlocks (blocks : Entries (List Node)) : Prop :=
  ∀ entry ∈ blocks, ∀ n ∈ entry.2, n.Padded

theorem overrides_padded {outer : Entries (List Node)} {children : List Node}
    (ho : PaddedBlocks outer) (hc : ∀ n ∈ children, n.Padded) :
    PaddedBlocks (overrides outer children) := by
  intro entry he
  rcases mem_overrides he with he | ⟨body, d, place, indent, hchild⟩
  · exact ho entry he
  · cases hc _ hchild with
    | enclosure _ h => exact h

theorem isInert_indented {settings : Settings} {indent t : Text} (hi : Token.IsPadding indent)
    (ht : Text.isInert t = true) : Text.isInert (indented settings indent t) = true := by
  have hindent := Text.isInert_of_isPadding hi
  unfold indented
  split
  · exact ht
  · split
    · exact Text.isInert_indentLines hindent ht
    · exact Text.isInert_append hindent ht

/-! ## Steps -/

section

variable {lib : Library} {site : Site} {depth : Nat} {name : Text}

theorem included?_padded (stage : Stage) (name : Text) :
    Yields (Serving lib) (fun found => ∀ document, found = some document →
      ∀ n ∈ document.nodes, n.Padded) (included? stage name) := by
  refine .bind (.load (Loading.included?_gives stage.partials name)) fun found hfound => ?_
  obtain ⟨_, hnodes, rfl⟩ := hfound
  cases found with
  | some document =>
      refine .pure ?_
      rintro _ ⟨⟩
      obtain ⟨source, hs⟩ := Library.exists_source_of_included? hnodes
      exact Library.padded_of_ofText hs
  | none =>
      dsimp only
      split
      · exact .bind (K := fun _ => False) (.throw _) fun _ h => h.elim
      · exact .bind (.warn _) fun _ _ => .pure (by simp)

theorem template_padded (given : Entries Text) (template : Text) :
    Yields (Serving lib) (fun document => ∀ n ∈ document.nodes, n.Padded)
      (Run.load (Loading.template given template)) := by
  refine (Yields.load (Loading.template_gives given template)).mono ?_
  rintro document ⟨_, hnodes, rfl⟩
  obtain ⟨source, hs⟩ := Library.exists_source_of_template hnodes
  exact Library.padded_of_ofText hs

theorem includedSite_blocks (settings : Settings) (site : Site) (name : Text) :
    Yields (Serving lib) (fun inner => inner.blocks = site.blocks)
      (includedSite settings site name) := by
  refine (Yields.ofHolds (fun _ => includedSite_holds _ settings site name) 0).mono ?_
  rintro inner ⟨pragmas, rfl, -⟩
  rfl

variable {nested : Nested} (hn : ∀ (site : Site) (nodes : List Node), PaddedBlocks site.blocks →
    (∀ n ∈ nodes, n.Padded) →
    Yields (Serving lib) (fun rendered => Text.isInert rendered.1 = true) (nested site nodes))
  (hb : PaddedBlocks site.blocks)
include hn hb

theorem section_inert {children : List Node} (hc : ∀ n ∈ children, n.Padded) {store : Store}
    (hs : Serving lib store) (hcall : ∀ v, ((site.scope.resolve depth name).run store).1 = .ok v →
      v.isCallable = false) (d : Delimiters) (body : Text) :
    YieldsAt (Serving lib) (fun rendered => Text.isInert rendered.1 = true) store
      (section_ nested depth site name children d body) := by
  refine (resolve_yields _ name depth store hs).bind fun v _ hv => ?_
  refine .bind (ofValue_yields v) fun value hvalue => ?_
  cases value with
  | falsy => exact .pure rfl
  | list items =>
      refine .foldlM rfl fun rendered ht item _ => ?_
      refine .bind (hn _ children hb hc) fun more hmore => .pure ?_
      exact Text.isInert_append ht hmore
  | lambda =>
      rw [hcall v hv] at hvalue
      cases hvalue rfl
  | frame => exact hn _ children hb hc

theorem invertedSection_inert {children : List Node} (hc : ∀ n ∈ children, n.Padded) :
    Yields (Serving lib) (fun rendered => Text.isInert rendered.1 = true)
      (invertedSection nested depth site name children) := by
  refine .bind (resolve_yields _ name depth) fun v _ => .bind (ofValue_yields v) fun value _ => ?_
  split
  · exact hn site children hb hc
  · exact .pure rfl

theorem inclusion_inert {stage : Stage} {indent : Text} (hi : Token.IsPadding indent) :
    Yields (Serving lib) (fun t => Text.isInert t = true)
      (inclusion stage nested depth site name indent) := by
  refine .bind (K := fun _ => True) ?_ fun found _ => ?_
  · exact (Yields.ofHolds (fun _ => subView?_holds _ (fun frame _ =>
      frame.value.within_anything) name) depth).mono fun _ _ => trivial
  · split
    · refine .bind (template_padded _ _) fun document hd => ?_
      refine .bind (includedSite_blocks _ site name) fun inner hinner => ?_
      refine .bind (hn { inner with scope := _ } document.nodes (hinner ▸ hb) hd).afresh ?_
      exact fun rendered ht => .pure (isInert_indented hi ht)
    · refine .bind (included?_padded stage name) fun found hfound => ?_
      cases found with
      | none => exact .pure rfl
      | some document =>
          refine .bind (includedSite_blocks _ site name) fun inner hinner => ?_
          refine .bind (hn inner document.nodes (hinner ▸ hb) (hfound document rfl)) ?_
          exact fun rendered ht => .pure (isInert_indented hi ht)

theorem parent_inert {stage : Stage} {indent : Text} (hi : Token.IsPadding indent)
    {children : List Node} (hc : ∀ n ∈ children, n.Padded) :
    Yields (Serving lib) (fun t => Text.isInert t = true)
      (parent stage nested site name indent children) := by
  refine .bind (included?_padded stage name) fun found hfound => ?_
  cases found with
  | none => exact .pure rfl
  | some document =>
      refine .bind (includedSite_blocks _ site name) fun inner hinner => ?_
      refine .bind (hn { inner with blocks := overrides site.blocks children } document.nodes
        (overrides_padded hb hc) (hfound document rfl)) ?_
      exact fun rendered ht => .pure (isInert_indented hi ht)

/-- The step of a node other than a variable. -/
theorem step_inert {stage : Stage} {n : Node} (hp : n.Padded)
    (hv : ∀ name isEscaped place, n ≠ .variable name isEscaped place) {store : Store}
    (hs : Serving lib store) (hcheck : inertTemplates depth site n store = true) :
    YieldsAt (Serving lib) (fun result => result.1.isInert = true) store
      (step stage depth nested site n) := by
  have lift {x : Run (Piece × Pragmas)}
      (h : Yields (Serving lib) (fun result => result.1.isInert = true) x) :
      YieldsAt (Serving lib) (fun result => result.1.isInert = true) store x := h store hs
  cases hp with
  | text => exact lift (.pure hcheck)
  | comment => exact lift (.pure rfl)
  | delimiterChange => exact lift (.pure rfl)
  | «variable» => exact absurd rfl (hv _ _ _)
  | @pragma call place =>
      refine lift (.bind (K := fun _ => True) ?_ fun pragmas _ => .pure rfl)
      exact Yields.ofHolds (fun _ => enable_holds _ site call) depth
  | inclusion hi => exact lift (.bind (inclusion_inert hn hb hi) fun text ht => .pure ht)
  | @enclosure kind name children body d place indent hi hc =>
      cases kind with
      | plain =>
          refine (section_inert hn hb hc hs ?_ d body).bind fun rendered ht _ => .pure ht
          intro v hv
          simp only [inertTemplates, hv] at hcheck
          simpa using hcheck
      | inverted =>
          exact lift (.bind (invertedSection_inert hn hb hc) fun rendered ht => .pure ht)
      | block =>
          refine lift (.bind (hn site _ hb ?_) fun rendered ht => .pure ht)
          cases hg : site.blocks.get? name with
          | none => exact hc
          | some nodes => exact hb _ (Entries.mem_of_get? hg)
      | parent => exact lift (.bind (parent_inert hn hb hi hc) fun text ht => .pure ht)

end

/-! ## Documents -/

theorem inOrder_inert {I : Store → Prop} {one : Site → Node → Run (Piece × Pragmas)} {site : Site}
    {nodes : List Node} (h : ∀ n ∈ nodes, ∀ pragmas,
      Yields I (fun result => result.1.isInert = true) (one { site with pragmas } n)) :
    Yields I (fun rendered => Text.isInert rendered.1 = true) (inOrder one site nodes) := by
  refine (inOrder_yields (K := fun piece => piece.isInert = true) (P := fun _ => True) trivial
    fun n hm pragmas _ => (h n hm pragmas).mono fun _ h => ⟨h, trivial⟩).mono ?_
  rintro rendered ⟨⟨texts, ht, htexts⟩, -⟩
  rw [ht]
  exact Text.isInert_flatten htexts

section

variable {lib : Library} {stage : Stage} (hescape : stage.escape = none)
include hescape

/-- Whatever the value of a variable is and filters make of it, escaping comes last. -/
theorem variable_inert (depth : Nat) (site : Site) (name : Text) :
    Yields (Serving lib) (fun piece => piece.isInert = true)
      (variable_ stage (inOrder (node stage depth)) depth site name true) := by
  have hs (site : Site) : site.scope.Within .anything :=
    fun frame _ => frame.value.within_anything
  have hu : stage.Uses (Value.Within .anything) :=
    ⟨fun f _ => f.within_anything, fun entry _ => entry.2.within_anything⟩
  simp only [variable_]
  generalize (if site.pragmas.isEnabled Pragmas.filters then _ else _ : Text × List Text) = parts
  have hvalue (height : Nat) :
      (Run.blindly (Run.blind_alike (fun _ => True) lib) height).Holds (Value.Within .anything)
        fun d => variableValue (inOrder (node stage d)) d site parts.1 :=
    variableValue_holds _ (Loading.allKeep_true _ stage.partials) (hs site)
      (fun _ nodes => inOrder_holds _ fun n _ pragmas =>
        node_blindly _ (Loading.allKeep_true _ _) hu height _ (hs _) n) parts.1
  refine .bind (.ofHolds hvalue depth) fun v hv => ?_
  split
  · exact .pure rfl
  · refine .bind (.ofHolds (fun _ => Filter.applyAll_holds _ hu.filters parts.2 hv) depth)
      fun w _ => ?_
    split
    · exact .pure rfl
    · simp only [escaped, Stage.escaping?, hescape, Option.filter_none]
      exact .pure (Text.isInert_escapeHtml _)

/-- A checked rendering of padded nodes gives no markup. -/
theorem checked_inert (alarm : Failure) (depth : Nat) {site : Site} (hb : PaddedBlocks site.blocks)
    {n : Node} (hp : n.Padded) :
    Yields (Serving lib) (fun result => result.1.isInert = true)
      (checked stage inertTemplates alarm depth site n) := by
  induction depth generalizing site n with
  | zero => exact .throw _
  | succ depth ih =>
      refine .get fun store hs => ?_
      split
      · rename_i hcheck
        split
        · obtain rfl : _ = true := hcheck
          exact (variable_inert hescape depth site _ store hs).bind fun piece hpiece _ =>
            .pure hpiece
        · rename_i hv
          refine step_inert (fun site nodes hb hp => inOrder_inert fun n hm pragmas => ?_) hb hp hv
            hs hcheck
          exact @ih { site with pragmas } hb n (hp n hm)
      · exact Yields.throw alarm store hs

theorem documentBy_inert (alarm : Failure) (depth : Nat) (view : Value) {nodes : List Node}
    (hp : ∀ n ∈ nodes, n.Padded) :
    Yields (Serving lib) (fun t => Text.isInert t = true)
      (documentBy (checked stage inertTemplates alarm depth) stage.settings view nodes) := by
  refine .bind (Yields.ofHolds (fun _ => initialPragmas_holds _ stage.settings) 0) fun pragmas _ =>
    .bind (inOrder_inert fun n hm pragmas => ?_) fun rendered ht => .pure ht
  exact checked_inert hescape alarm depth (by simp [PaddedBlocks]) (hp n hm)

end

end Render

end Whisker
