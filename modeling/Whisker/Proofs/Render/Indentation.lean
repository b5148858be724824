import Mathlib
import Whisker.Engine
import Whisker.Proofs.Fallible
import Whisker.Proofs.Template.Padding
import Whisker.Proofs.Text.Lines

/-! Tags that stand alone on a line. What they include is what the same tag includes anywhere else,
with the indent of the tag in front of each of its lines. Indents inside indents add up. -/

namespace Whisker

namespace Render

variable {stage : Stage} {settings : Settings}

theorem indented_eq_indentLines (h : settings.indentPartials = true) (indent t : Text) :
    indented settings indent t = Text.indentLines indent t := by
  rw [indented, h]
  cases indent with
  | nil => exact (Text.indentLines_nil t).symm
  | cons a indent => cases t <;> rfl

variable (h : stage.settings.indentPartials = true)
include h

theorem inclusion_eq_map (nested : Nested) (depth : Nat) (site : Site) (name indent : Text) :
    inclusion stage nested depth site name indent =
      Text.indentLines indent <$> inclusion stage nested depth site name [] := by
  rw [inclusion, inclusion, map_bind]
  apply bind_congr
  intro found
  cases found with
  | some found =>
      simp only [map_bind, map_pure, indented_eq_indentLines h, Text.indentLines_nil]
  | none =>
      rw [map_bind]
      apply bind_congr
      intro document
      cases document with
      | none => rfl
      | some document =>
          simp only [map_bind, map_pure, indented_eq_indentLines h, Text.indentLines_nil]

theorem parent_eq_map (nested : Nested) (site : Site) (name indent : Text) (children : List Node) :
    parent stage nested site name indent children =
      Text.indentLines indent <$> parent stage nested site name [] children := by
  rw [parent, parent, map_bind]
  apply bind_congr
  intro document
  cases document with
  | none => rfl
  | some document =>
      simp only [map_bind, map_pure, indented_eq_indentLines h, Text.indentLines_nil]

/-- A tag that includes a template renders, where it stands alone on its line, to the text that it
renders to elsewhere, with the indent in front of it, if it is not empty, and wherever one of its
lines ends before its end; and it fails and does what it does elsewhere. Lines end at all vertical
breaks here. So the indent stands behind the line feeds alone, as lines of templates are counted, if
and only if all other breaks are last characters or carriage returns before line feeds. -/
theorem standalone_indented (indent : Text) :
    (∀ nested depth site name, inclusion stage nested depth site name indent =
      Text.indentLines indent <$> inclusion stage nested depth site name []) ∧
    (∀ nested site name children, parent stage nested site name indent children =
      Text.indentLines indent <$> parent stage nested site name [] children) ∧
    ∀ t, Text.indentLines indent t = Text.indentBetween Text.breaksBetween indent t ∧
      (indent ≠ [] →
        (Text.indentLines indent t = Text.indentBetween Text.feedsBetween indent t ↔
          t.IsChain fun c d => Text.isBreak c = true → c = '\n' ∨ c = '\r' ∧ d = '\n')) := by
  refine ⟨fun nested depth site name => ?_, fun nested site name children => ?_, fun t => ?_⟩
  · exact inclusion_eq_map h nested depth site name indent
  · exact parent_eq_map h nested site name indent children
  · exact ⟨Text.indentLines_eq indent t, Text.indentLines_eq_feeds_iff⟩

omit h

/-- Lines that end with a carriage return and a line feed are indented as by the line feeds alone. -/
theorem pairedBreaks_indented :
    let stage : Stage := ⟨.standard, [], none, []⟩
    let site : Site := ⟨[], .none true, [], []⟩
    let t : Text := "\r\n\n".toList
    let store := Store.fresh (.fresh 0) (.fresh .empty (.memory 1 [(['p'], t)]) (.empty true)
      .standard)
    stage.settings.indentPartials = true ∧
      Text.indentLines [' '] t = Text.indentBetween Text.feedsBetween [' '] t ∧
      ((inclusion stage (inOrder (node stage 1)) 1 site ['p'] [' ']).run store).1 =
        .ok " \r\n \n".toList := by
  intro stage site t store
  have hindent : stage.settings.indentPartials = true := rfl
  obtain ⟨hinclusion, -, hlines⟩ := @standalone_indented stage hindent [' ']
  have hchain : t.IsChain fun c d => Text.isBreak c = true → c = '\n' ∨ c = '\r' ∧ d = '\n' := by
    decide
  have hinline : ((inclusion stage (inOrder (node stage 1)) 1 site ['p'] []).run store).1 = .ok t := by
    cbv
  refine ⟨hindent, ((hlines t).2 (List.cons_ne_nil _ _)).mpr hchain, ?_⟩
  rw [hinclusion, map_eq_pure_bind, Fallible.run_bind]
  generalize (inclusion stage (inOrder (node stage 1)) 1 site ['p'] []).run store = outcome at hinline
  obtain ⟨result, after⟩ := outcome
  cases hinline
  rfl

/-! ## Indents inside indents -/

theorem not_isBreak_of_isPadding {indent : Text} (h : Token.IsPadding indent) :
    ∀ c ∈ indent, Text.isBreak c = false := by
  intro c hc
  have hpad := h c hc
  simp only [Token.isPad, Bool.or_eq_true, decide_eq_true_eq] at hpad
  rcases hpad with rfl | rfl <;> rfl

theorem indent_inclusion (hs : stage.settings.indentPartials = true) {inner : Text}
    (hi : Token.IsPadding inner) (outer : Text) (nested : Nested) (depth : Nat) (site : Site)
    (name : Text) :
    Text.indentLines outer <$> inclusion stage nested depth site name inner =
      inclusion stage nested depth site name (outer ++ inner) := by
  rw [inclusion_eq_map hs, inclusion_eq_map hs _ _ _ _ (outer ++ inner), Functor.map_map]
  simp only [Text.indentLines_indentLines (not_isBreak_of_isPadding hi)]

theorem indent_parent (hs : stage.settings.indentPartials = true) {inner : Text}
    (hi : Token.IsPadding inner) (outer : Text) (nested : Nested) (site : Site) (name : Text)
    (children : List Node) :
    Text.indentLines outer <$> parent stage nested site name inner children =
      parent stage nested site name (outer ++ inner) children := by
  rw [parent_eq_map hs, parent_eq_map hs _ _ _ (outer ++ inner), Functor.map_map]
  simp only [Text.indentLines_indentLines (not_isBreak_of_isPadding hi)]

/-- An indent of spaces and tabs goes in front of each line and makes no line and no end of one, so
that it can be taken off again line by line; and one indent over another is both of them in one. So
a tag that includes a template renders, inside a template that is indented itself, as under both
indents. -/
theorem indentLines_linewise {inner : Text} (hi : Token.IsPadding inner) (outer : Text) :
    (∀ t, Text.lines (Text.indentLines inner t) = (Text.lines t).map (inner ++ ·) ∧
      (Text.lines (Text.indentLines inner t)).flatMap (List.drop inner.length) = t ∧
      Text.indentLines outer (Text.indentLines inner t) = Text.indentLines (outer ++ inner) t) ∧
    ∀ stage : Stage, stage.settings.indentPartials = true →
      (∀ nested depth site name,
        Text.indentLines outer <$> inclusion stage nested depth site name inner =
          inclusion stage nested depth site name (outer ++ inner)) ∧
      ∀ nested site name children,
        Text.indentLines outer <$> parent stage nested site name inner children =
          parent stage nested site name (outer ++ inner) children := by
  have hbreak := not_isBreak_of_isPadding hi
  refine ⟨fun t => ⟨?_, ?_, ?_⟩, fun stage hs => ⟨?_, ?_⟩⟩
  · exact Text.lines_indentLines hbreak t
  · exact Text.flatMap_drop_indentLines hbreak t
  · exact Text.indentLines_indentLines hbreak outer t
  · exact indent_inclusion hs hi outer
  · exact indent_parent hs hi outer

/-- A pair of breaks stays one, and two breaks that are no pair stay two. -/
theorem pairedBreaks_linewise :
    let stage : Stage := ⟨.standard, [], none, []⟩
    let site : Site := ⟨[], .none true, [], []⟩
    let nested := inOrder (node stage 1)
    Token.IsPadding [' '] ∧ stage.settings.indentPartials = true ∧
      Text.lines (Text.indentLines [' '] "a\r\n\r\x0cb".toList) =
        [" a\r\n", " \r", " \x0c", " b"].map String.toList ∧
      Text.indentLines ['\t'] (Text.indentLines [' '] "a\r\n\r\x0cb".toList) =
        "\t a\r\n\t \r\t \x0c\t b".toList ∧
      Text.indentLines ['\t'] <$> inclusion stage nested 1 site ['p'] [' '] =
        inclusion stage nested 1 site ['p'] ['\t', ' '] := by
  intro stage site nested
  have hi : Token.IsPadding [' '] := by
    intro c hc
    obtain rfl := List.mem_singleton.mp hc
    rfl
  have hs : stage.settings.indentPartials = true := rfl
  obtain ⟨hlines, htags⟩ := indentLines_linewise hi ['\t']
  obtain ⟨hmap, -, hcompose⟩ := hlines "a\r\n\r\x0cb".toList
  refine ⟨hi, hs, hmap.trans ?_, hcompose.trans ?_, (htags stage hs).1 nested 1 site ['p']⟩ <;> cbv

end Render

namespace Engine

/-- The indent of the tag comes into the data of a variable, which have no line feed in them. -/
theorem formFeed_indented :
    ∃ engine,
      create .empty .standard (some (.memory 1 [])) none [] none (.fresh 0) = .ok engine ∧
      (engine.render " {{>p}}".toList (.dict [(['x'], .text "\x0c\x0c".toList)])
        [(['p'], "{{&x}}".toList)]).1 = .ok " \x0c \x0c".toList ∧
      Text.indentBetween Text.feedsBetween [' '] "\x0c\x0c".toList = " \x0c\x0c".toList :=
  ⟨_, rfl, by cbv, rfl⟩

end Engine

end Whisker
