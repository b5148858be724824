import Whisker.Text.Output

/-! Escaped texts: the replacements, made one after another, come to an entity for each character,
and leave no markup behind. What was escaped can be read back. -/

namespace Whisker.Text

/-- The characters that begin and end tags and the quoted values in them. -/
def markup : List Char := ['<', '>', '"', '\'']

theorem entity_eq_self {c : Char} (h : c ∉ '&' :: markup) : entity c = [c] := by
  unfold entity
  split <;> first | rfl | simp [markup] at h

theorem escapeHtml_append (t u : Text) : escapeHtml (t ++ u) = escapeHtml t ++ escapeHtml u := by
  simp [escapeHtml, replaceChar]

/-- No entity has a character in it that a later replacement looks for. -/
theorem escapeHtml_singleton (c : Char) : escapeHtml [c] = entity c := by
  by_cases h : c ∈ '&' :: markup
  · simp only [markup, List.mem_cons, List.not_mem_nil, or_false] at h
    rcases h with rfl | rfl | rfl | rfl | rfl <;> rfl
  · rw [entity_eq_self h]
    simp only [markup, List.mem_cons, List.not_mem_nil, or_false, not_or] at h
    simp [escapeHtml, replaceChar, h]

theorem escapeHtml_eq_flatMap (t : Text) : escapeHtml t = t.flatMap entity := by
  induction t with
  | nil => rfl
  | cons c t ih => rw [← List.singleton_append, escapeHtml_append, escapeHtml_singleton, ih,
      List.flatMap_append, List.flatMap_singleton]

/-! ## Markup -/

/-- No character of the text is markup. -/
def isInert (t : Text) : Bool := t.all fun c => !markup.contains c

theorem isInert_iff (t : Text) : isInert t = true ↔ ∀ c ∈ t, c ∉ markup := by
  simp [isInert]

theorem isInert_append {t u : Text} (ht : isInert t = true) (hu : isInert u = true) :
    isInert (t ++ u) = true := by
  rw [isInert, List.all_append, Bool.and_eq_true]
  exact ⟨ht, hu⟩

theorem isInert_flatten {ts : List Text} (h : ∀ t ∈ ts, isInert t = true) :
    isInert ts.flatten = true := by
  rw [isInert, List.all_eq_true]
  intro c hc
  obtain ⟨t, ht, hct⟩ := List.mem_flatten.mp hc
  exact List.all_eq_true.mp (h t ht) c hct

theorem isInert_entity (c : Char) : isInert (entity c) = true := by
  by_cases h : c ∈ '&' :: markup
  · simp only [markup, List.mem_cons, List.not_mem_nil, or_false] at h
    rcases h with rfl | rfl | rfl | rfl | rfl <;> rfl
  · rw [entity_eq_self h]
    simpa [isInert] using (not_or.mp (mt List.mem_cons.mpr h)).2

theorem isInert_escapeHtml (t : Text) : isInert (escapeHtml t) = true := by
  rw [escapeHtml_eq_flatMap, List.flatMap]
  exact isInert_flatten (List.forall_mem_map.mpr fun c _ => isInert_entity c)

/-! ## Ampersands -/

theorem not_mem_tail_entity (c : Char) : '&' ∉ (entity c).tail := by
  by_cases h : c ∈ '&' :: markup
  · simp only [markup, List.mem_cons, List.not_mem_nil, or_false] at h
    rcases h with rfl | rfl | rfl | rfl | rfl <;> decide
  · rw [entity_eq_self h]
    exact List.not_mem_nil

/-- Only the special characters are written with an ampersand, which stands in front. -/
theorem entity_of_ampersand {c : Char} {before after : Text}
    (h : entity c = before ++ '&' :: after) : before = [] ∧ c ∈ '&' :: markup := by
  cases before with
  | cons a before =>
      have htail := not_mem_tail_entity c
      rw [h] at htail
      simp at htail
  | nil =>
      refine ⟨rfl, ?_⟩
      by_cases hc : c ∈ '&' :: markup
      · exact hc
      · rw [entity_eq_self hc] at h
        obtain ⟨rfl, -⟩ := List.cons.inj h
        exact List.mem_cons_self

/-- Each ampersand of an escaped text begins an entity. -/
theorem exists_entity_of_ampersand {t before after : Text}
    (h : escapeHtml t = before ++ '&' :: after) :
    ∃ c ∈ '&' :: markup, entity c <+: '&' :: after := by
  induction t generalizing before with
  | nil => simp [escapeHtml, replaceChar] at h
  | cons c t ih =>
      rw [← List.singleton_append, escapeHtml_append, escapeHtml_singleton] at h
      rcases List.append_eq_append_iff.mp h with ⟨behind, -, hrest⟩ | ⟨front, hc, hrest⟩
      · exact ih hrest
      · cases front with
        | nil => exact @ih [] hrest.symm
        | cons a front =>
            -- the ampersand stands in the entity of the first character
            obtain ⟨rfl, rfl⟩ := List.cons.inj hrest
            obtain ⟨rfl, hspecial⟩ := entity_of_ampersand hc
            refine ⟨c, hspecial, ?_⟩
            rw [hc]
            exact List.prefix_append _ _

/-! ## Reading back -/

/-- Reads the entities of a text from left to right. An ampersand that begins none of them stands
for itself. -/
def unescapeHtml : Text → Text
  | '&' :: 'a' :: 'm' :: 'p' :: ';' :: rest => '&' :: unescapeHtml rest
  | '&' :: 'l' :: 't' :: ';' :: rest => '<' :: unescapeHtml rest
  | '&' :: 'g' :: 't' :: ';' :: rest => '>' :: unescapeHtml rest
  | '&' :: 'q' :: 'u' :: 'o' :: 't' :: ';' :: rest => '"' :: unescapeHtml rest
  | '&' :: '#' :: '3' :: '9' :: ';' :: rest => '\'' :: unescapeHtml rest
  | c :: rest => c :: unescapeHtml rest
  | [] => []

theorem unescapeHtml_cons {c : Char} (h : c ≠ '&') (t : Text) :
    unescapeHtml (c :: t) = c :: unescapeHtml t := by
  rw [unescapeHtml]
  all_goals
    rintro _ rfl
    exact (h rfl).elim

theorem unescapeHtml_entity_append (c : Char) (t : Text) :
    unescapeHtml (entity c ++ t) = c :: unescapeHtml t := by
  by_cases h : c ∈ '&' :: markup
  · simp only [markup, List.mem_cons, List.not_mem_nil, or_false] at h
    rcases h with rfl | rfl | rfl | rfl | rfl <;> rfl
  · rw [entity_eq_self h]
    exact unescapeHtml_cons (List.ne_of_not_mem_cons h) t

theorem unescapeHtml_escapeHtml (t : Text) : unescapeHtml (escapeHtml t) = t := by
  rw [escapeHtml_eq_flatMap]
  induction t with
  | nil => rfl
  | cons c t ih => rw [List.flatMap_cons, unescapeHtml_entity_append, ih]

/-- Escaping is a faithful encoding. The replacements come to an entity for each special character
and leave the others alone, so that the parts of a text are escaped on their own. No markup is left,
each ampersand begins an entity, and reading the entities gives the text back; so different texts
stay different. -/
theorem escapeHtml_faithful (t u : Text) :
    escapeHtml t = t.flatMap entity ∧ (∀ c, c ∉ '&' :: markup → entity c = [c]) ∧
    escapeHtml (t ++ u) = escapeHtml t ++ escapeHtml u ∧
    (∀ c ∈ escapeHtml t, c ∉ markup) ∧
    (∀ before after, escapeHtml t = before ++ '&' :: after →
      ∃ c ∈ '&' :: markup, entity c <+: '&' :: after) ∧
    unescapeHtml (escapeHtml t) = t ∧ (escapeHtml t = escapeHtml u → t = u) := by
  refine ⟨escapeHtml_eq_flatMap t, fun c => entity_eq_self, escapeHtml_append t u,
    (isInert_iff _).mp (isInert_escapeHtml t), fun before after => exists_entity_of_ampersand,
    unescapeHtml_escapeHtml t, ?_⟩
  intro h
  have hread := congrArg unescapeHtml h
  rwa [unescapeHtml_escapeHtml, unescapeHtml_escapeHtml] at hread

/-- What looks escaped already is escaped once more, and so is there again after it is read once. -/
theorem writtenEntity_faithful :
    escapeHtml "&lt;'".toList = "&amp;lt;&#39;".toList ∧
      (∃ c ∈ '&' :: markup, entity c <+: "&amp;lt;&#39;".toList) ∧ 'a' ∉ markup ∧
      unescapeHtml (escapeHtml "&lt;'".toList) = "&lt;'".toList := by
  obtain ⟨-, -, -, hmarkup, hampersand, hread, -⟩ := escapeHtml_faithful "&lt;'".toList []
  exact ⟨rfl, hampersand [] _ rfl, hmarkup 'a' (by decide), hread⟩

end Whisker.Text
