import Whisker.Text.Characters

/-! What searching and splitting find. The first occurrence of a mark depends on nothing behind it,
and text without a character of the mark cannot hide one. -/

namespace Whisker.Text

/-! ## The first occurrence -/

theorem isPrefixOf_append_left {mark s : Text} (h : mark.length ≤ s.length) (t : Text) :
    mark.isPrefixOf (s ++ t) = mark.isPrefixOf s := by
  rw [Bool.eq_iff_iff, List.isPrefixOf_iff_prefix, List.isPrefixOf_iff_prefix]
  constructor
  · intro hp
    exact List.prefix_of_prefix_length_le hp (List.prefix_append s t) h
  · intro hp
    exact hp.trans (List.prefix_append s t)

/-- What follows the first occurrence has no part in finding it. -/
theorem cut?_append {mark before after : Text}
    (h : cut? mark (before ++ mark ++ after) = some (before, after)) (other : Text) :
    cut? mark (before ++ mark ++ other) = some (before, other) := by
  induction before with
  | nil =>
      cases mark with
      | nil => cases other <;> simp [cut?]
      | cons m mark => simp [cut?, List.isPrefixOf_iff_prefix]
  | cons c before ih =>
      have hlen : mark.length ≤ (c :: before ++ mark).length := by simp; omega
      have hp : mark.isPrefixOf (c :: before ++ mark ++ other) =
          mark.isPrefixOf (c :: before ++ mark ++ after) := by
        rw [isPrefixOf_append_left hlen, isPrefixOf_append_left hlen]
      simp only [List.cons_append] at h hp ⊢
      rw [cut?] at h ⊢
      rw [hp]
      split at h
      · cases h
      · next hn =>
          obtain ⟨⟨b, a⟩, hc, hba⟩ := Option.map_eq_some_iff.mp h
          obtain ⟨hb, rfl⟩ := Prod.mk.inj hba
          obtain rfl := (List.cons.inj hb).2
          rw [if_neg hn, ih hc]
          rfl

theorem cut?_before {mark t before after : Text} (hm : mark ≠ [])
    (h : cut? mark t = some (before, after)) : cut? mark before = none := by
  induction t generalizing before after with
  | nil => simp [cut?, hm] at h
  | cons c t ih =>
      rw [cut?] at h
      split at h
      · obtain ⟨rfl, rfl⟩ := Prod.mk.inj (Option.some.inj h)
        simp [cut?, hm]
      · next hn =>
          obtain ⟨⟨b, a⟩, hc, hba⟩ := Option.map_eq_some_iff.mp h
          obtain ⟨rfl, rfl⟩ := Prod.mk.inj hba
          have hp : ¬ mark.isPrefixOf (c :: b) = true := by
            intro hp
            apply hn
            rw [List.isPrefixOf_iff_prefix] at hp ⊢
            rw [eq_of_cut? hc, List.append_assoc, ← List.cons_append]
            exact hp.trans (List.prefix_append _ _)
          rw [cut?, if_neg hp, ih hc]
          rfl

/-- Text that has no character of the mark only moves the first occurrence. -/
theorem cut?_append_left {mark s : Text} (hm : mark ≠ []) (hs : ∀ c ∈ s, c ∉ mark) (t : Text) :
    cut? mark (s ++ t) = (cut? mark t).map fun (before, after) => (s ++ before, after) := by
  induction s with
  | nil => simp
  | cons c s ih =>
      obtain ⟨m, ms, rfl⟩ := List.exists_cons_of_ne_nil hm
      have hc : m ≠ c := by
        rintro rfl
        exact hs m (by simp) (by simp)
      have hp : ¬ (m :: ms).isPrefixOf (c :: (s ++ t)) = true := by
        simp [hc]
      rw [List.cons_append, cut?, if_neg hp, ih fun a ha => hs a (by simp [ha]), Option.map_map]
      rfl

/-- A mark without a character reaches no further than the first such character. -/
theorem prefix_of_prefix_append_cons {mark s t : Text} {c : Char} (hc : c ∉ mark)
    (h : mark <+: s ++ c :: t) : mark <+: s := by
  induction s generalizing mark with
  | nil =>
      cases mark with
      | nil => exact List.prefix_rfl
      | cons m mark =>
          rw [List.nil_append, List.cons_prefix_cons] at h
          exact absurd List.mem_cons_self (h.1 ▸ hc)
  | cons a s ih =>
      cases mark with
      | nil => exact List.nil_prefix
      | cons m mark =>
          rw [List.cons_append, List.cons_prefix_cons] at h
          exact List.cons_prefix_cons.mpr
            ⟨h.1, ih (fun hm => hc (List.mem_cons_of_mem m hm)) h.2⟩

/-- Behind a character that is not in the mark the search starts anew. -/
theorem cut?_append_cons {mark s : Text} {c : Char} (hc : c ∉ mark)
    (h : cut? mark (s ++ [c]) = none) (t : Text) :
    cut? mark (s ++ c :: t) =
      (cut? mark t).map fun (before, after) => (s ++ c :: before, after) := by
  have hm : mark ≠ [] := by
    rintro rfl
    cases s <;> simp [cut?] at h
  induction s with
  | nil =>
      exact cut?_append_left (s := [c]) hm (List.forall_mem_singleton.mpr hc) t
  | cons a s ih =>
      rw [List.cons_append, cut?] at h
      split at h
      · cases h
      · next hn =>
          have hp : ¬ mark.isPrefixOf (a :: (s ++ c :: t)) = true := by
            intro hp
            apply hn
            rw [List.isPrefixOf_iff_prefix] at hp ⊢
            exact (prefix_of_prefix_append_cons (s := a :: s) hc hp).trans
              (List.prefix_append _ [c])
          rw [List.cons_append, cut?, if_neg hp, ih (Option.map_eq_none_iff.mp h), Option.map_map]
          rfl

theorem cut?_eq_none_iff {mark t : Text} : cut? mark t = none ↔ ¬ mark <:+: t := by
  induction t with
  | nil => cases mark <;> simp [cut?]
  | cons c t ih =>
      rw [cut?, List.infix_cons_iff, ← List.isPrefixOf_iff_prefix]
      by_cases hp : mark.isPrefixOf (c :: t) = true
      · simp [hp]
      · simp [hp, ih]

/-- A doubled character is first found behind a text that neither has it nor ends with half of
it. -/
theorem cut?_append_double {m : Char} {s : Text} (hs : ¬ [m, m] <:+: s)
    (he : s.getLast? ≠ some m) (t : Text) : cut? [m, m] (s ++ m :: m :: t) = some (s, t) := by
  induction s with
  | nil => simp [cut?]
  | cons c s ih =>
      rw [List.infix_cons_iff, not_or] at hs
      have hp : ¬ [m, m].isPrefixOf (c :: (s ++ m :: m :: t)) = true := by
        intro hp
        cases s with
        | nil =>
            obtain rfl : m = c := by simpa using hp
            exact he rfl
        | cons a s =>
            rw [List.isPrefixOf_iff_prefix, List.cons_append, List.cons_prefix_cons,
              List.cons_prefix_cons] at hp
            obtain ⟨rfl, rfl, -⟩ := hp
            exact hs.1 (by simp)
      have he' : s.getLast? ≠ some m := by
        cases s with
        | nil => simp
        | cons a s => simpa using he
      rw [List.cons_append, cut?, if_neg hp, ih hs.2 he']
      rfl

/-! ## Pieces and words -/

theorem not_mem_pieces {p : Char → Bool} {t piece : Text} (h : piece ∈ pieces p t) :
    ∀ c ∈ piece, p c = false := by
  induction t generalizing piece with
  | nil =>
      obtain rfl : piece = [] := by simpa [pieces] using h
      simp
  | cons c t ih =>
      rw [pieces] at h
      split at h
      · rcases List.mem_cons.mp h with rfl | h
        · simp
        · exact ih h
      · next hc =>
          have hc : p c = false := by simpa using hc
          split at h
          · obtain rfl : piece = [c] := by simpa using h
            simpa using hc
          · next first more hp =>
              rcases List.mem_cons.mp h with rfl | h
              · intro a ha
                rcases List.mem_cons.mp ha with rfl | ha
                · exact hc
                · exact ih (by rw [hp]; exact List.mem_cons_self) a ha
              · exact ih (by rw [hp]; exact List.mem_cons_of_mem _ h)

theorem exists_mem_pieces {p : Char → Bool} {t : Text} {c : Char} (hc : c ∈ t)
    (hp : p c = false) : ∃ piece ∈ pieces p t, c ∈ piece := by
  induction t with
  | nil => simp at hc
  | cons a t ih =>
      rw [pieces]
      rcases List.mem_cons.mp hc with rfl | hc
      · rw [if_neg (by simp [hp])]
        split
        · exact ⟨_, List.mem_cons_self, List.mem_cons_self⟩
        · exact ⟨_, List.mem_cons_self, List.mem_cons_self⟩
      · obtain ⟨piece, hm, hcp⟩ := ih hc
        split
        · exact ⟨piece, List.mem_cons_of_mem _ hm, hcp⟩
        · split
          · next he => simp [he] at hm
          · next first more he =>
              rw [he] at hm
              rcases List.mem_cons.mp hm with rfl | hm
              · exact ⟨_, List.mem_cons_self, List.mem_cons_of_mem _ hcp⟩
              · exact ⟨piece, List.mem_cons_of_mem _ hm, hcp⟩

theorem not_isBlank_of_mem_words {t word : Text} (h : word ∈ words t) :
    ∀ c ∈ word, isBlank c = false :=
  not_mem_pieces (List.mem_filter.mp h).1

theorem words_ne_nil {t : Text} (h : hasInk t = true) : words t ≠ [] := by
  obtain ⟨c, hc, hb⟩ := List.any_eq_true.mp h
  obtain ⟨piece, hp, hm⟩ := exists_mem_pieces (p := isBlank) hc (by simpa using hb)
  apply List.ne_nil_of_mem (a := piece)
  simp only [words, List.mem_filter]
  exact ⟨hp, by cases piece <;> simp_all⟩

theorem forall_ne_of_not_mem {c : Char} {t : Text} (h : c ∉ t) :
    ∀ a ∈ t, decide (a = c) = false := by
  intro a ha
  simp only [decide_eq_false_iff_not]
  rintro rfl
  exact h ha

theorem pieces_of_forall {p : Char → Bool} {w : Text} (hw : ∀ c ∈ w, p c = false) :
    pieces p w = [w] := by
  induction w with
  | nil => rfl
  | cons c w ih =>
      obtain ⟨hc, hw⟩ := List.forall_mem_cons.mp hw
      rw [pieces, ih hw]
      simp [hc]

theorem pieces_append_cons {p : Char → Bool} {w : Text} (hw : ∀ c ∈ w, p c = false) {c : Char}
    (hc : p c = true) (t : Text) : pieces p (w ++ c :: t) = w :: pieces p t := by
  induction w with
  | nil => simp [pieces, hc]
  | cons a w ih =>
      obtain ⟨ha, hw⟩ := List.forall_mem_cons.mp hw
      rw [List.cons_append, pieces, ih hw]
      simp [ha]

theorem pieces_flatMap {p : Char → Bool} {c : Char} (hc : p c = true) {w : Text} {ws : List Text}
    (hw : ∀ a ∈ w, p a = false) (hws : ∀ w ∈ ws, ∀ a ∈ w, p a = false) :
    pieces p (w ++ ws.flatMap (c :: ·)) = w :: ws := by
  induction ws generalizing w with
  | nil => simpa using pieces_of_forall hw
  | cons next ws ih =>
      obtain ⟨hn, hws⟩ := List.forall_mem_cons.mp hws
      rw [List.flatMap_cons, List.cons_append, pieces_append_cons hw hc, ih hn hws]

/-- Words with a space before each but the first are read as these words. -/
theorem words_flatMap {w : Text} {ws : List Text} (hne : ∀ v ∈ w :: ws, v ≠ [])
    (hw : ∀ v ∈ w :: ws, ∀ c ∈ v, isBlank c = false) :
    words (w ++ ws.flatMap (' ' :: ·)) = w :: ws := by
  obtain ⟨h, hs⟩ := List.forall_mem_cons.mp hw
  rw [words, pieces_flatMap rfl h hs, List.filter_eq_self]
  intro v hv
  simpa using hne v hv

/-! ## Trimmed texts -/

/-- What is left between the blanks at both ends starts with a character that is not blank. -/
theorem hasInk_strip {t : Text} (h : strip t ≠ []) : hasInk (strip t) = true := by
  have hne : (t.dropWhile isBlank).reverse.dropWhile isBlank ≠ [] := by
    intro he
    simp [strip, trim, he] at h
  have hi := List.head_dropWhile_not isBlank hne
  apply List.any_eq_true.mpr
  refine ⟨_, ?_, by simpa using hi⟩
  simp only [strip, trim, List.mem_reverse]
  exact List.head_mem hne

theorem dropWhile_eq_self {p : Char → Bool} {t : Text} (h : ∀ c ∈ t.head?, p c = false) :
    t.dropWhile p = t := by
  cases t with
  | nil => rfl
  | cons c t => simp [h c rfl]

theorem strip_eq_self {t : Text} (hh : ∀ c ∈ t.head?, isBlank c = false)
    (hl : ∀ c ∈ t.getLast?, isBlank c = false) : strip t = t := by
  rw [strip, trim, dropWhile_eq_self hh, dropWhile_eq_self (by simpa using hl),
    List.reverse_reverse]

/-- A trimmed text does not end with a blank. -/
theorem getLast?_of_strip_eq_self {t : Text} (h : strip t = t) :
    ∀ c ∈ t.getLast?, isBlank c = false := by
  intro c hc
  obtain ⟨s, rfl⟩ := List.getLast?_eq_some_iff.mp hc
  cases hb : isBlank c with
  | false => rfl
  | true =>
      have hd : ((s ++ [c]).dropWhile isBlank).reverse.dropWhile isBlank =
          (s.dropWhile isBlank).reverse.dropWhile isBlank := by
        rw [List.dropWhile_append]
        split
        · next he => simp [List.isEmpty_iff.mp he, hb]
        · simp [hb]
      have hlen := congrArg List.length h
      rw [strip, trim, List.length_reverse, hd] at hlen
      have h₁ := (List.dropWhile_sublist isBlank (l := (s.dropWhile isBlank).reverse)).length_le
      have h₂ := (List.dropWhile_sublist isBlank (l := s)).length_le
      simp only [List.length_reverse, List.length_append, List.length_singleton] at hlen h₁
      omega

/-- A trimmed text stays so behind a character that is not blank. -/
theorem strip_cons {c : Char} (hc : isBlank c = false) {t : Text} (ht : strip t = t) :
    strip (c :: t) = c :: t := by
  refine strip_eq_self (by simpa using hc) ?_
  cases t with
  | nil => simpa using hc
  | cons a t => simpa using getLast?_of_strip_eq_self ht

theorem not_isBlank_getLast?_flatMap {w : Text} {ws : List Text} (hne : ∀ v ∈ w :: ws, v ≠ [])
    (hw : ∀ v ∈ w :: ws, ∀ c ∈ v, isBlank c = false) :
    ∀ c ∈ (w ++ ws.flatMap (' ' :: ·)).getLast?, isBlank c = false := by
  induction ws generalizing w with
  | nil =>
      intro c hc
      rw [List.flatMap_nil, List.append_nil] at hc
      exact hw w List.mem_cons_self c (List.mem_of_getLast? hc)
  | cons v ws ih =>
      have hv : v ++ ws.flatMap (' ' :: ·) ≠ [] :=
        List.append_ne_nil_of_left_ne_nil (hne v (by simp)) _
      have he : w ++ (v :: ws).flatMap (' ' :: ·) = w ++ [' '] ++ (v ++ ws.flatMap (' ' :: ·)) := by
        simp
      rw [he, List.getLast?_append, List.getLast?_eq_some_getLast hv, Option.some_or,
        ← List.getLast?_eq_some_getLast hv]
      exact ih (fun u hu => hne u (List.mem_cons_of_mem w hu))
        fun u hu => hw u (List.mem_cons_of_mem w hu)

/-- Words with a space before each but the first make a trimmed text. -/
theorem strip_flatMap {w : Text} {ws : List Text} (hne : ∀ v ∈ w :: ws, v ≠ [])
    (hw : ∀ v ∈ w :: ws, ∀ c ∈ v, isBlank c = false) :
    strip (w ++ ws.flatMap (' ' :: ·)) = w ++ ws.flatMap (' ' :: ·) := by
  refine strip_eq_self ?_ (not_isBlank_getLast?_flatMap hne hw)
  obtain ⟨c, t, rfl⟩ := List.exists_cons_of_ne_nil (hne w List.mem_cons_self)
  intro a ha
  cases ha
  exact hw (c :: t) List.mem_cons_self c List.mem_cons_self

end Whisker.Text
