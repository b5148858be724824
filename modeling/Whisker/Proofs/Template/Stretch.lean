import Whisker.Proofs.Template.Scan

/-! Sources as stretches and tags. Where no mark holds a blank, the tags of a source do not depend
on the padding that lone tags cut off, so a part of a source between two tags has the same tags
when it is read on its own. -/

namespace Whisker.Token

/-! ## Stretches and tags -/

/-- A tag without its surroundings; the source includes its marks. -/
structure Tag where
  lexeme : Lexeme
  delimiters : Delimiters
  source : Text

/-- Tags, each with the stretch before it, and the stretch behind the last one. Nothing is cut off
the stretches. -/
inductive Reads : Delimiters → Text → List (Text × Tag) → Text → Prop where
  | last {d t} (hc : Text.cut? d.opening t = none) : Reads d t [] t
  | tag {d t gap inner r items last} (hc : Text.cut? d.opening t = some (gap, inner))
      (hr : readTag d inner = .ok r) (hm : Reads (nextDelimiters d r.lexeme) r.rest items last) :
      Reads d t ((gap, ⟨r.lexeme, d, d.opening ++ r.source⟩) :: items) last

/-- The source of stretches and tags. -/
def textOf (items : List (Text × Tag)) : Text := items.flatMap fun (gap, tag) => gap ++ tag.source

theorem solid_nextDelimiters {d : Delimiters} {lexeme : Lexeme} (hd : d.Solid)
    (hs : Spoken lexeme) : (nextDelimiters d lexeme).Solid := by
  cases lexeme
  case delimiterChange => exact hs
  all_goals exact hd

theorem Reads.solid {d : Delimiters} {t last : Text} {items : List (Text × Tag)}
    (h : Reads d t items last) (hd : d.Solid) : ∀ item ∈ items, item.2.delimiters.Solid := by
  induction h with
  | last => simp
  | tag hc hr _ ih =>
      exact List.forall_mem_cons.mpr ⟨hd, ih (solid_nextDelimiters hd (spoken_readTag hr))⟩

/-! ## Parts of a source -/

/-- What follows a tag has no part in reading it. -/
theorem readTag_append {d : Delimiters} {t : Text} {r : Reading} (h : readTag d t = .ok r)
    (other : Text) : readTag d (r.source ++ other) = .ok ⟨r.lexeme, r.source, other⟩ := by
  unfold readTag at h
  simp only [bind, Except.bind] at h
  split at h
  · split at h
    · cases h
    · next content rest hc =>
        split at h <;> cases h
        next hn =>
          have hc' := Text.cut?_append (Text.eq_of_cut? hc ▸ hc) other
          simp only [List.cons_append, List.append_assoc] at hc' ⊢
          simp [readTag, hc', hn, bind, Except.bind]
  · next hbrace =>
      split at h
      · cases h
      · next content rest hc =>
          split at h <;> cases h
          next hl =>
            have ht := Text.eq_of_cut? hc
            have hc' := Text.cut?_append (ht ▸ hc) other
            obtain ⟨c, u, hcu⟩ := List.exists_cons_of_ne_nil
              (List.append_ne_nil_of_right_ne_nil content d.closing_ne_nil)
            have hne : c ≠ '{' := by
              rintro rfl
              rw [hcu, List.cons_append] at ht
              exact hbrace _ ht
            rw [hcu, List.cons_append] at hc' ⊢
            simp [readTag, hne, hc', hl, hcu, bind, Except.bind]

/-- Up to a tag a source is read as if it ended there. -/
theorem Reads.front {d : Delimiters} {t gap last : Text} {tag : Tag}
    {front back : List (Text × Tag)} (h : Reads d t (front ++ (gap, tag) :: back) last) :
    Reads d (textOf front ++ gap) front gap := by
  induction front generalizing d t with
  | nil =>
      cases h with
      | tag hc hr hm => exact .last (Text.cut?_before d.opening_ne_nil hc)
  | cons item front ih =>
      cases h with
      | @tag _ _ stretch inner r _ _ hc hr hm =>
          have hc' := Text.cut?_append (Text.eq_of_cut? hc ▸ hc)
            (r.source ++ (textOf front ++ gap))
          have ht : textOf ((stretch, ⟨r.lexeme, d, d.opening ++ r.source⟩) :: front) ++ gap =
              stretch ++ d.opening ++ (r.source ++ (textOf front ++ gap)) := by
            simp [textOf]
          have hr' := readTag_append hr (textOf front ++ gap)
          have hreads := Reads.tag hc' hr' (ih hm)
          rw [ht]
          exact hreads

/-- Behind a tag a source is read from the delimiters in force there. -/
theorem Reads.back {d : Delimiters} {t gap last : Text} {tag : Tag}
    {front back : List (Text × Tag)} (h : Reads d t (front ++ (gap, tag) :: back) last) :
    ∃ rest, Reads (nextDelimiters tag.delimiters tag.lexeme) rest back last ∧
      t = textOf front ++ gap ++ tag.source ++ rest := by
  induction front generalizing d t with
  | nil =>
      cases h with
      | tag hc hr hm => exact ⟨_, hm, by simpa [textOf] using eq_of_tag hc hr⟩
  | cons item front ih =>
      cases h with
      | tag hc hr hm =>
          obtain ⟨rest, hrest, ht⟩ := ih hm
          refine ⟨rest, hrest, ?_⟩
          rw [eq_of_tag hc hr, ht]
          simp [textOf]

/-! ## Scans as readings -/

/-- What is left of a stretch when lone tags around it cut their lines: the one before it the
end of its line, the one behind it the indent. -/
def Trims (gap content : Text) : Prop :=
  ∃ tail indent, gap = tail ++ content ++ indent ∧ LineEnd tail ∧ ∀ c ∈ indent, isPad c = true

/-- A token of a tag that stands behind `gap`, which starts at an offset. -/
structure IsOf (token : Token) (offset : Nat) (gap : Text) (tag : Tag) : Prop where
  lexeme_eq : token.lexeme = tag.lexeme
  delimiters_eq : token.delimiters = tag.delimiters
  offset_eq : token.place.offset = offset + gap.length
  stop_eq : token.stop = token.place.offset + tag.source.length
  spoken : Spoken tag.lexeme

/-- Tokens of stretches and tags that start at an offset. A stretch of which nothing is left has no
token. -/
inductive Shows : Nat → List Token → List (Text × Tag) → Text → Prop where
  | last {offset p gap content} (hg : Trims gap content) :
      Shows offset (textTokens p content) [] gap
  | tag {offset p gap content token tag tokens items last} (hg : Trims gap content)
      (ht : IsOf token offset gap tag) (hs : Shows token.stop tokens items last) :
      Shows offset (textTokens p content ++ token :: tokens) ((gap, tag) :: items) last

theorem not_mem_opening_of_lineEnd {d : Delimiters} (hd : d.Solid) {tail : Text}
    (ht : LineEnd tail) : ∀ c ∈ tail, c ∉ d.opening := by
  obtain ⟨pad, ending, rfl, hp, he⟩ := ht
  intro c hc hm
  have hink := hd c (List.mem_append_left _ hm)
  rcases List.mem_append.mp hc with hc | hc
  · have hpad := hp c hc
    simp only [isPad, Bool.or_eq_true, decide_eq_true_eq] at hpad
    rcases hpad with rfl | rfl <;> exact absurd hink (by decide)
  · simp only [List.mem_cons, List.not_mem_nil, or_false] at he
    rcases he with rfl | rfl | rfl
    · simp at hc
    · rw [List.mem_singleton] at hc
      exact absurd hink (by rw [hc]; decide)
    · simp only [List.mem_cons, List.not_mem_nil, or_false] at hc
      rcases hc with rfl | rfl <;> exact absurd hink (by decide)

/-- The end of a line that a tag before it has cut off hides no mark. -/
theorem cut?_lineEnd {d : Delimiters} (hd : d.Solid) {tail : Text} (ht : LineEnd tail) (t : Text) :
    Text.cut? d.opening (tail ++ t) =
      (Text.cut? d.opening t).map fun (before, after) => (tail ++ before, after) :=
  Text.cut?_append_left d.opening_ne_nil (not_mem_opening_of_lineEnd hd ht) t

/-- A scan goes on from behind the tail that a step has cut. The invariant is that the tail before
the rest of the source still belongs to the stretch that is read there. -/
theorem Scans.exists_reads {d : Delimiters} {p : Place} {t : Text} {tokens : List Token}
    (h : Scans d p t tokens) (hd : d.Solid) {tail : Text} (ht : LineEnd tail) :
    ∃ items last, Reads d (tail ++ t) items last := by
  induction h generalizing tail with
  | @rest d p t hc => exact ⟨[], tail ++ t, .last (by rw [cut?_lineEnd hd ht, hc]; rfl)⟩
  | @tag d p t before inner r more hc hr _ ih =>
      obtain ⟨line, indent, hl, _, _, hrest⟩ := step_spec d p before r
      obtain ⟨items, last, hm⟩ := ih (solid_nextDelimiters hd (spoken_readTag hr)) hl.tail_end
      rw [hrest, ← hl.rest_eq] at hm
      have hc' : Text.cut? d.opening (tail ++ t) = some (tail ++ before, inner) := by
        rw [cut?_lineEnd hd ht, hc]
        rfl
      exact ⟨_, last, .tag hc' hr hm⟩

theorem Reads.exists_scans {d : Delimiters} {u last : Text} {items : List (Text × Tag)}
    (h : Reads d u items last) (hd : d.Solid) {tail t : Text} (hu : u = tail ++ t)
    (ht : LineEnd tail) {offset : Nat} {p : Place} (hp : p.offset = offset + tail.length) :
    ∃ tokens, Scans d p t tokens ∧ Shows offset tokens items last := by
  induction h generalizing tail t offset p with
  | @last d u hc =>
      subst hu
      rw [cut?_lineEnd hd ht] at hc
      refine ⟨textTokens p t, .rest (by simpa using hc), .last ?_⟩
      exact ⟨tail, [], by simp, ht, by simp⟩
  | @tag d u gap inner r items last hc hr hm ih =>
      subst hu
      rw [cut?_lineEnd hd ht] at hc
      obtain ⟨⟨before, after⟩, hb, hgap⟩ := Option.map_eq_some_iff.mp hc
      obtain ⟨rfl, rfl⟩ := Prod.mk.inj hgap
      obtain ⟨line, indent, hl, htokens, hplace, hrest⟩ := step_spec d p before r
      let token := tagToken d p before r line indent
      have hstart : token.place.offset = offset + (tail ++ before).length := by
        simp only [token, tagToken, Place.offset_after, List.length_append]
        omega
      have hstop : token.stop = token.place.offset + (d.opening ++ r.source).length := by
        simp only [token, tagToken, Place.offset_after]
      have hnext : (step d p before r).place.offset = token.stop + line.tail.length := by
        rw [hplace]
        simp only [token, tagToken, Place.offset_after, List.length_append]
        omega
      obtain ⟨more, hscan, hshow⟩ := ih (solid_nextDelimiters hd (spoken_readTag hr))
        (hrest ▸ hl.rest_eq) hl.tail_end hnext
      refine ⟨_, .tag hb hr hscan, ?_⟩
      rw [htokens, List.append_assoc]
      refine .tag ⟨tail, line.indent, ?_, ht, hl.indent_pad⟩
        ⟨rfl, rfl, hstart, hstop, spoken_readTag hr⟩ hshow
      rw [hl.before_eq, List.append_assoc]

/-- A source that can be scanned is read as the stretches and tags that its tokens show. -/
theorem exists_reads_of_scan {d : Delimiters} (hd : d.Solid) {t : Text} {tokens : List Token}
    (h : scan d t = .ok tokens) :
    ∃ items last, Reads d t items last ∧ Shows 0 tokens items last := by
  have hs : Scans d .start t tokens := scanFrom_derivation h
  obtain ⟨items, last, hr⟩ := hs.exists_reads hd lineEnd_nil
  obtain ⟨others, ho, hshow⟩ := hr.exists_scans hd rfl lineEnd_nil (p := .start) rfl
  have he := ho.execution.symm.trans hs.execution
  obtain rfl := Except.ok.inj he
  exact ⟨items, last, hr, hshow⟩

theorem exists_scan_of_reads {d : Delimiters} (hd : d.Solid) {t last : Text}
    {items : List (Text × Tag)} (h : Reads d t items last) :
    ∃ tokens, scan d t = .ok tokens ∧ Shows 0 tokens items last := by
  obtain ⟨tokens, hs, hshow⟩ :=
    h.exists_scans hd (List.nil_append t).symm lineEnd_nil (p := .start) rfl
  exact ⟨tokens, hs.execution, hshow⟩

/-! ## Splitting at a tag -/

theorem isText_of_mem_textTokens {p : Place} {content : Text} {token : Token}
    (h : token ∈ textTokens p content) : token.lexeme.isText = true := by
  rcases textTokens_eq p content with ⟨he, _⟩ | ⟨he, _⟩
  · simp [he] at h
  · rw [he, List.mem_singleton] at h
    rw [h]
    rfl

/-- Tokens on both sides of a tag's token show the stretches and tags on both sides of the tag. -/
theorem Shows.split {offset : Nat} {tokens before rest : List Token} {token : Token}
    {items : List (Text × Tag)} {last : Text} (h : Shows offset tokens items last)
    (he : tokens = before ++ token :: rest) (ht : token.lexeme.isText = false) :
    ∃ front gap tag back, items = front ++ (gap, tag) :: back ∧ Shows offset before front gap ∧
      Shows token.stop rest back last ∧ IsOf token (offset + (textOf front).length) gap tag := by
  induction h generalizing before with
  | @last offset p gap content hg =>
      have hm : token ∈ textTokens p content := by simp [he]
      rw [isText_of_mem_textTokens hm] at ht
      cases ht
  | @tag offset p gap content first tag tokens items last hg hi hs ih =>
      have hsplit : ∃ more, before = textTokens p content ++ more ∧
          first :: tokens = more ++ token :: rest := by
        rcases List.append_eq_append_iff.mp he with ⟨more, hb, hf⟩ | ⟨more, hb, hf⟩
        · exact ⟨more, hb, hf⟩
        · cases more with
          | nil => exact ⟨[], by simpa using hb.symm, by simpa using hf.symm⟩
          | cons x more =>
              obtain ⟨rfl, _⟩ := List.cons.inj hf
              have hm : token ∈ textTokens p content := by simp [hb]
              rw [isText_of_mem_textTokens hm] at ht
              cases ht
      obtain ⟨more, rfl, hf⟩ := hsplit
      cases more with
      | nil =>
          obtain ⟨rfl, rfl⟩ := List.cons.inj hf
          refine ⟨[], gap, tag, items, rfl, ?_, hs, by simpa [textOf] using hi⟩
          simpa using Shows.last hg
      | cons x more =>
          obtain ⟨rfl, ht'⟩ := List.cons.inj hf
          obtain ⟨front, gap', tag', back, rfl, hb, hr, hi'⟩ := ih ht'
          refine ⟨(gap, tag) :: front, gap', tag', back, rfl, .tag hg hi hb, hr, ?_⟩
          have hn : first.stop + (textOf front).length =
              offset + (textOf ((gap, tag) :: front)).length := by
            rw [hi.stop_eq, hi.offset_eq]
            simp [textOf]
            omega
          rwa [hn] at hi'

end Whisker.Token
