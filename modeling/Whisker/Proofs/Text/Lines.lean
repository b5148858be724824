import Mathlib.Data.List.Chain
import Mathlib.Tactic.Tauto
import Whisker.Text.Output

/-! Indented texts. The indent comes in front of the text and between two of its characters wherever
a line ends there. Where only line feeds end lines, this is the same if and only if the text has no
other break in it. An indent that is free of breaks leaves the lines as they are, each behind it. -/

namespace Whisker.Text

theorem flatten_lines (t : Text) : (lines t).flatten = t := by
  fun_induction lines t with
  | case1 => rfl
  | case2 rest ih => simp [ih]
  | case3 c rest _ hb ih => simp [ih]
  | case4 c rest _ hb hn ih =>
      rw [hn] at ih
      simpa using ih
  | case5 c rest _ hb line more hl ih =>
      rw [hl] at ih
      simpa using ih

theorem lines_ne_nil {t : Text} (h : t ≠ []) : lines t ≠ [] := by
  intro hn
  have hflat := flatten_lines t
  rw [hn] at hflat
  exact h hflat.symm

theorem indentLines_nil (t : Text) : indentLines [] t = t := by
  rw [indentLines, List.flatMap_def]
  simpa using flatten_lines t

/-! ## Between characters -/

/-- A line ends between these characters. -/
def breaksBetween (c d : Char) : Bool := isBreak c && !decide (c = '\r' ∧ d = '\n')

/-- The same if only line feeds end lines, as they do in templates. -/
def feedsBetween (c _ : Char) : Bool := c = '\n'

/-- Puts `indent` between neighbouring characters. -/
def indentGaps (ends : Char → Char → Bool) (indent : Text) : Text → Text
  | [] => []
  | [c] => [c]
  | c :: d :: rest =>
    if ends c d then c :: (indent ++ indentGaps ends indent (d :: rest))
    else c :: indentGaps ends indent (d :: rest)

/-- Puts `indent` in front of a text that is not empty, and wherever a line ends between two of its
characters. -/
def indentBetween (ends : Char → Char → Bool) (indent t : Text) : Text :=
  if t = [] then [] else indent ++ indentGaps ends indent t

variable {ends ends' : Char → Char → Bool} {indent t : Text}

theorem indentGaps_of_ends {c d : Char} (h : ends c d = true) (indent rest : Text) :
    indentGaps ends indent (c :: d :: rest) =
      c :: (indent ++ indentGaps ends indent (d :: rest)) := by
  rw [indentGaps, if_pos h]

theorem indentGaps_of_not_ends {c d : Char} (h : ends c d = false) (indent rest : Text) :
    indentGaps ends indent (c :: d :: rest) = c :: indentGaps ends indent (d :: rest) := by
  rw [indentGaps, if_neg (Bool.eq_false_iff.mp h)]

/-- With the indent in front of each line it comes between characters where lines end. -/
theorem indentLines_eq (indent t : Text) :
    indentLines indent t = indentBetween breaksBetween indent t := by
  rw [indentLines, indentBetween]
  fun_induction lines t with
  | case1 => rfl
  | case2 rest ih =>
      rw [List.flatMap_cons, ih, if_neg (List.cons_ne_nil _ _), indentGaps_of_not_ends rfl]
      cases rest with
      | nil => simp [indentGaps]
      | cons d rest =>
          have hends : breaksBetween '\n' d = true := rfl
          simp [indentGaps_of_ends hends]
  | case3 c rest hpair hb ih =>
      rw [List.flatMap_cons, ih, if_neg (List.cons_ne_nil _ _)]
      cases rest with
      | nil => simp [indentGaps]
      | cons d rest =>
          have hends : breaksBetween c d = true := by
            have hnot : ¬ (c = '\r' ∧ d = '\n') := fun h => hpair rest h.1 (by rw [h.2])
            rw [breaksBetween, hb, decide_eq_false hnot]
            rfl
          simp [indentGaps_of_ends hends]
  | case4 c rest hpair hb hn ih =>
      cases rest with
      | nil => simp [indentGaps]
      | cons d rest => exact (lines_ne_nil (List.cons_ne_nil d rest) hn).elim
  | case5 c rest hpair hb line more hl ih =>
      cases rest with
      | nil => simp [lines] at hl
      | cons d rest =>
          have hends : breaksBetween c d = false := by
            rw [breaksBetween, Bool.eq_false_iff.mpr hb, Bool.false_and]
          rw [hl, if_neg (List.cons_ne_nil _ _), List.flatMap_cons, List.append_assoc] at ih
          have hcons := List.append_cancel_left ih
          rw [if_neg (List.cons_ne_nil _ _), indentGaps_of_not_ends hends, ← hcons]
          simp

/-- Fewer ends of lines do not make the text longer. -/
theorem length_indentGaps_le (h : ∀ c d, ends' c d = true → ends c d = true) (indent t : Text) :
    (indentGaps ends' indent t).length ≤ (indentGaps ends indent t).length := by
  fun_induction indentGaps ends indent t with
  | case1 | case2 => exact Nat.le_refl _
  | case3 c d rest he ih =>
      by_cases he' : ends' c d = true
      · rw [indentGaps_of_ends he']
        simpa using ih
      · rw [indentGaps_of_not_ends (Bool.eq_false_iff.mpr he')]
        simp only [List.length_cons, List.length_append]
        omega
  | case4 c d rest he ih =>
      have he' : ends' c d = false := Bool.eq_false_iff.mpr (mt (h c d) he)
      rw [indentGaps_of_not_ends he']
      simpa using ih

/-- The indented texts are the same only if lines end between the same characters. -/
theorem indentGaps_eq_iff (h : ∀ c d, ends' c d = true → ends c d = true) (hi : indent ≠ []) :
    indentGaps ends indent t = indentGaps ends' indent t ↔
      t.IsChain fun c d => ends c d = true → ends' c d = true := by
  fun_induction indentGaps ends indent t with
  | case1 => exact iff_of_true rfl .nil
  | case2 c => exact iff_of_true rfl (.singleton c)
  | case3 c d rest he ih =>
      rw [List.isChain_cons_cons]
      by_cases he' : ends' c d = true
      · rw [indentGaps_of_ends he', ← ih]
        simp [he']
      · -- here the one text has an indent that the other lacks, and it cannot lack less behind it
        rw [indentGaps_of_not_ends (Bool.eq_false_iff.mpr he')]
        have hle := length_indentGaps_le h indent (d :: rest)
        have hpos := List.length_pos_iff.mpr hi
        refine iff_of_false (fun heq => ?_) fun hends => he' (hends.1 he)
        have hlength := congrArg List.length heq
        simp only [List.length_cons, List.length_append] at hlength
        omega
  | case4 c d rest he ih =>
      have he' : ends' c d = false := Bool.eq_false_iff.mpr (mt (h c d) he)
      rw [indentGaps_of_not_ends he', List.isChain_cons_cons, ← ih]
      simp [he]

theorem breaksBetween_of_feedsBetween (c d : Char) (h : feedsBetween c d = true) :
    breaksBetween c d = true := by
  obtain rfl : c = '\n' := of_decide_eq_true h
  rfl

/-- Indenting goes by line feeds alone only where a text has no other break in it, but for a last
character and for carriage returns before line feeds. -/
theorem indentLines_eq_feeds_iff (hi : indent ≠ []) :
    indentLines indent t = indentBetween feedsBetween indent t ↔
      t.IsChain fun c d => isBreak c = true → c = '\n' ∨ c = '\r' ∧ d = '\n' := by
  have hgaps : indentBetween breaksBetween indent t = indentBetween feedsBetween indent t ↔
      indentGaps breaksBetween indent t = indentGaps feedsBetween indent t := by
    rw [indentBetween, indentBetween]
    by_cases ht : t = []
    · subst ht
      exact iff_of_true rfl rfl
    · rw [if_neg ht, if_neg ht, List.append_right_inj]
  have hpair (c d : Char) : (breaksBetween c d = true → feedsBetween c d = true) ↔
      (isBreak c = true → c = '\n' ∨ c = '\r' ∧ d = '\n') := by
    simp only [breaksBetween, feedsBetween, Bool.and_eq_true, Bool.not_eq_true',
      decide_eq_true_eq, decide_eq_false_iff_not]
    tauto
  rw [indentLines_eq, hgaps, indentGaps_eq_iff breaksBetween_of_feedsBetween hi]
  simp only [hpair]

/-! ## Lines of indented texts -/

theorem lines_cons_of_isBreak {c : Char} (hc : isBreak c = true) {t : Text}
    (ht : c = '\r' → t.head? ≠ some '\n') : lines (c :: t) = [c] :: lines t := by
  have hpair : ∀ rest, c = '\r' → t = '\n' :: rest → False := by
    rintro rest hcr rfl
    exact ht hcr rfl
  rw [lines, if_pos hc]
  exact hpair

theorem lines_cons_of_not_isBreak {c : Char} (hc : isBreak c = false) {t line : Text}
    {more : List Text} (ht : lines t = line :: more) : lines (c :: t) = (c :: line) :: more := by
  have hpair : ∀ rest, c = '\r' → t = '\n' :: rest → False := by
    rintro rest rfl
    cases hc
  rw [lines, if_neg (by simp [hc]), ht]
  exact hpair

/-- Text without a break goes into the first line behind it. -/
theorem lines_append_of_not_isBreak {s : Text} (hs : ∀ c ∈ s, isBreak c = false) {t line : Text}
    {more : List Text} (ht : lines t = line :: more) : lines (s ++ t) = (s ++ line) :: more := by
  induction s with
  | nil => exact ht
  | cons c s ih =>
      obtain ⟨hc, hs⟩ := List.forall_mem_cons.mp hs
      exact lines_cons_of_not_isBreak hc (ih hs)

/-- An indent puts no line feed behind a carriage return. -/
theorem head?_indentLines_ne {t : Text} (hi : ∀ c ∈ indent, isBreak c = false)
    (ht : t.head? ≠ some '\n') : (indentLines indent t).head? ≠ some '\n' := by
  cases indent with
  | nil => rwa [indentLines_nil]
  | cons a indent =>
      have ha : a ≠ '\n' := by
        rintro rfl
        cases hi '\n' List.mem_cons_self
      rw [indentLines]
      cases lines t with
      | nil => simp
      | cons line more => simpa using ha

/-- An indent in front of the first line changes nothing else. -/
theorem lines_flatMap {ls : List Text} (hi : ∀ c ∈ indent, isBreak c = false)
    (h : ∀ line more, ls = line :: more →
      lines (line ++ more.flatMap (indent ++ ·)) = line :: more.map (indent ++ ·)) :
    lines (ls.flatMap (indent ++ ·)) = ls.map (indent ++ ·) := by
  cases ls with
  | nil => rfl
  | cons line more =>
      rw [List.flatMap_cons, List.append_assoc, List.map_cons]
      exact lines_append_of_not_isBreak hi (h line more rfl)

/-- With the indent in front of all lines but the first the lines end where they did. -/
theorem lines_append_flatMap (hi : ∀ c ∈ indent, isBreak c = false) {t line : Text}
    {more : List Text} (ht : lines t = line :: more) :
    lines (line ++ more.flatMap (indent ++ ·)) = line :: more.map (indent ++ ·) := by
  fun_induction lines t generalizing line more with
  | case1 => cases ht
  | case2 rest ih =>
      obtain ⟨rfl, rfl⟩ := List.cons.inj ht
      have hrest := lines_flatMap hi fun line more h => ih h
      simpa [lines] using hrest
  | case3 c rest hpair hb ih =>
      obtain ⟨rfl, rfl⟩ := List.cons.inj ht
      have hrest := lines_flatMap hi fun line more h => ih h
      rw [← hrest]
      apply lines_cons_of_isBreak hb
      intro hc
      apply head?_indentLines_ne hi
      intro hhead
      obtain ⟨more, rfl⟩ := List.head?_eq_some_iff.mp hhead
      exact hpair more hc rfl
  | case4 c rest hpair hb hn ih =>
      obtain ⟨rfl, rfl⟩ := List.cons.inj ht
      simp [lines, hb]
  | case5 c rest hpair hb first others hl ih =>
      obtain ⟨rfl, rfl⟩ := List.cons.inj ht
      exact lines_cons_of_not_isBreak (Bool.eq_false_iff.mpr hb) (ih hl)

/-- The lines of an indented text are those of the text, each behind the indent. -/
theorem lines_indentLines (hi : ∀ c ∈ indent, isBreak c = false) (t : Text) :
    lines (indentLines indent t) = (lines t).map (indent ++ ·) := by
  rw [indentLines]
  exact lines_flatMap hi fun line more h => lines_append_flatMap hi h

/-- Taking the indent off each line gives the text back. -/
theorem flatMap_drop_indentLines (hi : ∀ c ∈ indent, isBreak c = false) (t : Text) :
    (lines (indentLines indent t)).flatMap (List.drop indent.length) = t := by
  rw [lines_indentLines hi, List.flatMap_map]
  simp only [List.drop_left]
  rw [List.flatMap_id']
  exact flatten_lines t

/-- An indent over another one is an indent by both, the outer one in front. -/
theorem indentLines_indentLines (hi : ∀ c ∈ indent, isBreak c = false) (outer t : Text) :
    indentLines outer (indentLines indent t) = indentLines (outer ++ indent) t := by
  rw [indentLines, lines_indentLines hi, List.flatMap_map, indentLines]
  simp only [List.append_assoc]

end Whisker.Text
