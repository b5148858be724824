import Mathlib.Data.List.Chain
import Whisker.Proofs.Template.Scan
import Whisker.Proofs.Text.Slice

/-! Raw spans tile the source: each token starts where the one before it ends, so that nothing of a
text is lost or read twice, whatever the delimiters are. -/

namespace Whisker.Token

/-! ## Spans end to end -/

/-- Tokens whose raw spans lie end to end between two offsets. No span is empty. -/
inductive Tiles : Nat → List Token → Nat → Prop where
  | nil (n) : Tiles n [] n
  | cons {start token tokens stop} (hs : token.rawStart = start) (hp : start < token.rawStop)
      (ht : Tiles token.rawStop tokens stop) : Tiles start (token :: tokens) stop

/-- The part of the source that a token covers. -/
def raw (source : Text) (token : Token) : Text := Text.slice source token.rawStart token.rawStop

theorem Tiles.append {start middle stop : Nat} {front back : List Token}
    (hf : Tiles start front middle) (hb : Tiles middle back stop) :
    Tiles start (front ++ back) stop := by
  induction hf with
  | nil => exact hb
  | cons hs hp _ ih => exact .cons hs hp (ih hb)

theorem Tiles.le {start stop : Nat} {tokens : List Token} (h : Tiles start tokens stop) :
    start ≤ stop := by
  induction h with
  | nil => exact Nat.le_refl _
  | cons _ hp _ ih => omega

theorem Tiles.nil_iff {start stop : Nat} {tokens : List Token} (h : Tiles start tokens stop) :
    tokens = [] ↔ start = stop := by
  cases h with
  | nil => simp
  | cons _ hp ht =>
      have := ht.le
      simp only [reduceCtorEq, false_iff]
      omega

theorem Tiles.rawStop_le {start stop : Nat} {tokens : List Token} (h : Tiles start tokens stop) :
    ∀ token ∈ tokens, token.rawStop ≤ stop := by
  induction h with
  | nil => simp
  | cons _ _ ht ih => exact List.forall_mem_cons.mpr ⟨ht.le, ih⟩

/-- What the tokens cover one after another is what lies between the two offsets. -/
theorem Tiles.flatten_raw {start stop : Nat} {tokens : List Token} (h : Tiles start tokens stop)
    (source : Text) : (tokens.map (raw source)).flatten = Text.slice source start stop := by
  induction h with
  | nil => simp
  | @cons start token tokens stop hs hp ht ih =>
      rw [List.map_cons, List.flatten_cons, ih, raw, hs]
      exact Text.slice_append_slice source (Nat.le_of_lt hp) ht.le

/-! ## Tokens in their source -/

/-- A token lies inside its raw span. A stretch of text says what its span covers. -/
structure Fits (source : Text) (token : Token) : Prop where
  start_le : token.rawStart ≤ token.place.offset
  start_lt : token.place.offset < token.stop
  stop_le : token.stop ≤ token.rawStop
  content_eq : ∀ content, token.lexeme = .text content →
    content = token.raw source ∧ content = Text.slice source token.place.offset token.stop

theorem fits_ofText {front content : Text} {p : Place} (hp : p.offset = front.length)
    (hne : content ≠ []) (rest : Text) : Fits (front ++ content ++ rest) (ofText p content) := by
  have hpos := List.length_pos_iff.mpr hne
  refine ⟨Nat.le_refl _, ?_, Nat.le_refl _, ?_⟩
  · simp only [ofText]
    omega
  · rintro _ ⟨rfl⟩
    have hs := Text.slice_middle front content rest hp (Eq.refl (p.offset + content.length))
    exact ⟨hs.symm, hs.symm⟩

theorem lexeme_ne_text {d : Delimiters} {t : Text} {r : Reading} (h : readTag d t = .ok r)
    (content : Text) : r.lexeme ≠ .text content := by
  intro he
  have hs := spoken_readTag h
  rw [he] at hs
  exact hs

theorem fits_tagToken {r : Reading} (ht : ∀ content, r.lexeme ≠ .text content) (d : Delimiters)
    (p : Place) (source before : Text) (line : Line) (indent : Option Text) :
    Fits source (tagToken d p before r line indent) := by
  have hpos := List.length_pos_iff.mpr d.opening_ne_nil
  refine ⟨?_, ?_, ?_, fun content h => absurd h (ht content)⟩ <;>
    simp only [tagToken, Place.offset_after, List.length_append] <;> omega

/-! ## Steps and scans -/

theorem tiles_textTokens (p : Place) (t : Text) :
    Tiles p.offset (textTokens p t) (p.offset + t.length) := by
  rw [textTokens]
  cases t with
  | nil => exact .nil _
  | cons c t => exact .cons rfl (by simp [ofText]) (.nil _)

theorem fits_of_mem_textTokens {front content : Text} {p : Place}
    (hp : p.offset = front.length) {token : Token} (h : token ∈ textTokens p content)
    (rest : Text) : Fits (front ++ content ++ rest) token := by
  rw [textTokens] at h
  split at h
  · simp at h
  · next hne =>
      obtain rfl := List.mem_singleton.mp h
      exact fits_ofText hp (by simpa using hne) rest

/-- The tokens of a rest of the source, which starts at its place behind what was scanned. -/
theorem Scans.tiles {d : Delimiters} {p : Place} {t : Text} {tokens : List Token}
    (h : Scans d p t tokens) : Tiles p.offset tokens (p.offset + t.length) := by
  induction h with
  | rest => exact tiles_textTokens _ _
  | @tag d p t before inner r more hc hr _ ih =>
      obtain ⟨line, indent, hl, htokens, hplace, hrest⟩ := step_spec d p before r
      have hb := congrArg List.length hl.before_eq
      have hr' := congrArg List.length hl.rest_eq
      have ht := congrArg List.length (eq_of_tag hc hr)
      simp only [List.length_append] at hb hr' ht
      rw [htokens, List.append_assoc]
      apply (tiles_textTokens p line.above).append
      have hpos := List.length_pos_iff.mpr d.opening_ne_nil
      have hstop : (tagToken d p before r line indent).rawStop =
          (step d p before r).place.offset := by
        rw [hplace]
        simp only [tagToken, Place.offset_after, List.length_append]
        omega
      have hend : p.offset + t.length =
          (step d p before r).place.offset + (step d p before r).rest.length := by
        rw [hplace, hrest]
        simp only [Place.offset_after, List.length_append]
        omega
      refine .cons ?_ ?_ ?_
      · simp only [tagToken]
        omega
      · simp only [tagToken, List.length_append]
        omega
      · rw [hstop, hend]
        exact ih

theorem Scans.fits {d : Delimiters} {p : Place} {t : Text} {tokens : List Token}
    (h : Scans d p t tokens) (front : Text) (hp : p.offset = front.length) :
    ∀ token ∈ tokens, Fits (front ++ t) token := by
  induction h generalizing front with
  | @rest d p t =>
      intro token hm
      simpa using fits_of_mem_textTokens hp hm []
  | @tag d p t before inner r more hc hr _ ih =>
      obtain ⟨line, indent, hl, htokens, hplace, hrest⟩ := step_spec d p before r
      have ht := eq_of_tag hc hr
      rw [hl.rest_eq] at ht
      intro token hm
      rw [htokens, List.append_assoc] at hm
      rcases List.mem_append.mp hm with hm | hm
      · rw [ht, hl.before_eq]
        simpa using fits_of_mem_textTokens hp hm
          (line.indent ++ (d.opening ++ r.source) ++ (line.tail ++ line.below))
      · rcases List.mem_append.mp hm with hm | hm
        · obtain rfl := List.mem_singleton.mp hm
          exact fits_tagToken (lexeme_ne_text hr) ..
        · have hf := ih (front ++ before ++ (d.opening ++ r.source) ++ line.tail)
            (by rw [hplace]; simp [hp]) token hm
          rw [hrest] at hf
          simpa [ht] using hf

/-- Of two tokens side by side at most one is a stretch of text. -/
def Apart (a b : Token) : Prop := a.lexeme.isText = false ∨ b.lexeme.isText = false

theorem Scans.apart {d : Delimiters} {p : Place} {t : Text} {tokens : List Token}
    (h : Scans d p t tokens) : tokens.IsChain Apart := by
  induction h with
  | @rest d p t =>
      rw [textTokens]
      split <;> simp
  | @tag d p t before inner r more hc hr _ ih =>
      obtain ⟨line, indent, hl, htokens, hplace, hrest⟩ := step_spec d p before r
      have hx : (tagToken d p before r line indent).lexeme.isText = false := by
        have := lexeme_ne_text hr
        cases hr : r.lexeme <;> simp_all [tagToken, Lexeme.isText]
      rw [htokens, List.append_assoc, List.singleton_append, List.isChain_split]
      refine ⟨?_, List.isChain_cons.mpr ⟨fun _ _ => .inl hx, ih⟩⟩
      rw [textTokens]
      split
      · simp
      · simp only [List.singleton_append, List.isChain_pair]
        exact .inr hx

/-! ## Whole sources -/

theorem offset_le_of_scan {d : Delimiters} {source : Text} {tokens : List Token}
    (h : scan d source = .ok tokens) : ∀ token ∈ tokens, token.place.offset ≤ source.length := by
  have hs : Scans d .start source tokens := scanFrom_derivation h
  intro token hm
  have hf := hs.fits [] rfl token hm
  have hstop : token.rawStop ≤ source.length := by
    simpa [Place.start] using hs.tiles.rawStop_le token hm
  exact Nat.le_of_lt (Nat.lt_of_lt_of_le hf.start_lt (Nat.le_trans hf.stop_le hstop))

/-- The tokens of a source lie end to end, cover it without loss, and no two stretches of text
stand side by side. -/
structure Tiling (source : Text) (tokens : List Token) : Prop where
  tiles : Tiles 0 tokens source.length
  nil_iff : tokens = [] ↔ source = []
  flatten_raw : (tokens.map (raw source)).flatten = source
  fits : ∀ token ∈ tokens, Fits source token
  apart : tokens.IsChain Apart

theorem scan_tiling {d : Delimiters} {source : Text} {tokens : List Token}
    (h : scan d source = .ok tokens) : Tiling source tokens := by
  have hs : Scans d .start source tokens := scanFrom_derivation h
  have ht : Tiles 0 tokens source.length := by simpa [Place.start] using hs.tiles
  refine ⟨ht, ?_, ?_, by simpa using hs.fits [] rfl, hs.apart⟩
  · rw [ht.nil_iff, eq_comm, List.length_eq_zero_iff]
  · rw [ht.flatten_raw, Text.slice_zero_length]

/-- Marks may hold blanks besides other characters. -/
def spacedBraces : Delimiters := ⟨['{', ' ', '{'], ['}', ' ', '}'], by decide, by decide⟩

/-- A comment between spaced marks takes its line with it, up to the text around that line. -/
theorem tiling_lone_comment :
    scan spacedBraces "a\n { {!x} } \nb".toList = .ok [.ofText .start ['a', '\n'],
      ⟨.comment ['x'], ⟨3, 2, 2⟩, 11, 2, 13, some [' '], spacedBraces⟩,
      .ofText ⟨13, 3, 1⟩ ['b']] ∧
    Tiling "a\n { {!x} } \nb".toList [.ofText .start ['a', '\n'],
      ⟨.comment ['x'], ⟨3, 2, 2⟩, 11, 2, 13, some [' '], spacedBraces⟩,
      .ofText ⟨13, 3, 1⟩ ['b']] :=
  have h : scan spacedBraces "a\n { {!x} } \nb".toList = .ok [.ofText .start ['a', '\n'],
      ⟨.comment ['x'], ⟨3, 2, 2⟩, 11, 2, 13, some [' '], spacedBraces⟩,
      .ofText ⟨13, 3, 1⟩ ['b']] := by cbv
  ⟨h, scan_tiling h⟩

end Whisker.Token
