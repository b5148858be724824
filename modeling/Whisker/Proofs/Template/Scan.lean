import Whisker.Proofs.Text.Search
import Whisker.Template.Tag
import Whisker.Template.Token.Scan

/-! Scanning as a derivation: each tag makes one step, and a rest without a tag ends the scan. A
step cuts nothing but padding and one line break off the stretches around its tag. -/

namespace Whisker

/-- No mark holds a blank. -/
def Delimiters.Solid (d : Delimiters) : Prop :=
  ∀ c ∈ d.opening ++ d.closing, Text.isBlank c = false

theorem Delimiters.solid_standard : standard.Solid := by
  have h : (standard.opening ++ standard.closing).all (!Text.isBlank ·) = true := rfl
  intro c hc
  simpa using List.all_eq_true.mp h c hc

namespace Token

/-! ## What tags say -/

/-- What the scanner makes of a tag: only comments may be empty or blank, and new marks are
words. -/
def Spoken : Lexeme → Prop
  | .text _ => False
  | .comment _ => True
  | .delimiterChange next => next.Solid
  | lexeme => Text.hasInk lexeme.value = true

theorem named_strip {make : Text → Lexeme} {t : Text} {lexeme : Lexeme}
    (h : named make (Text.strip t) = .ok lexeme) :
    lexeme = make (Text.strip t) ∧ Text.hasInk (Text.strip t) = true := by
  rw [named] at h
  split at h
  · cases h
  · next hne => exact ⟨(Except.ok.inj h).symm, Text.hasInk_strip (by simpa using hne)⟩

theorem solid_of_delimitersOfChange? {content : Text} {next : Delimiters}
    (h : delimitersOfChange? content = some next) : next.Solid := by
  rw [delimitersOfChange?] at h
  split at h
  · split at h
    · next opening closing hw =>
        split at h
        · cases h
        · rw [Delimiters.ofTexts?] at h
          split at h
          · split at h <;> cases h
            have hb : ∀ word ∈ [opening, closing], ∀ c ∈ word, Text.isBlank c = false := by
              intro word hm
              rw [← hw] at hm
              exact Text.not_isBlank_of_mem_words hm
            intro c hc
            rcases List.mem_append.mp hc with hc | hc
            · exact hb opening (by simp) c hc
            · exact hb closing (by simp) c hc
          · cases h
    · cases h
  · cases h

theorem spoken_lexemeOfContent {t : Text} {lexeme : Lexeme}
    (h : lexemeOfContent (Text.strip t) = .ok lexeme) : Spoken lexeme := by
  unfold lexemeOfContent at h
  simp only at h
  split at h
  case h_8 => cases h; trivial
  case h_10 =>
    split at h
    · next hd => cases h; exact solid_of_delimitersOfChange? hd
    · cases h
  all_goals
    obtain ⟨rfl, hi⟩ := named_strip h
    exact hi

theorem spoken_readTag {d : Delimiters} {t : Text} {r : Reading} (h : readTag d t = .ok r) :
    Spoken r.lexeme := by
  unfold readTag at h
  simp only [bind, Except.bind] at h
  split at h
  · split at h
    · cases h
    · split at h <;> cases h
      next hn =>
        obtain ⟨rfl, hi⟩ := named_strip hn
        exact hi
  · split at h
    · cases h
    · split at h <;> cases h
      next hn => exact spoken_lexemeOfContent hn

/-! ## Derivations -/

/-- The tokens of a text that starts at a place. The rules do not invoke the scanner. -/
inductive Scans : Delimiters → Place → Text → List Token → Prop where
  | rest {d p t} (hc : Text.cut? d.opening t = none) : Scans d p t (textTokens p t)
  | tag {d p t before inner r more} (hc : Text.cut? d.opening t = some (before, inner))
      (hr : readTag d inner = .ok r)
      (hm : Scans (nextDelimiters d r.lexeme) (step d p before r).place (step d p before r).rest
        more) :
      Scans d p t ((step d p before r).tokens ++ more)

theorem delimiters_step (d : Delimiters) (p : Place) (before : Text) (r : Reading) :
    (step d p before r).delimiters = nextDelimiters d r.lexeme := by
  rw [step]
  simp only
  split <;> rfl

theorem Scans.execution {d : Delimiters} {p : Place} {t : Text} {tokens : List Token}
    (h : Scans d p t tokens) : scanFrom d p t = .ok tokens := by
  induction h with
  | rest hc =>
      rw [scanFrom]
      split
      · rfl
      · next heq => rw [hc] at heq; cases heq
  | @tag d p t before inner r more hc hr _ ih =>
      rw [scanFrom]
      split
      · next heq => rw [hc] at heq; cases heq
      · next heq =>
          rw [hc] at heq
          obtain ⟨rfl, rfl⟩ := Prod.mk.inj (Option.some.inj heq)
          split
          · next hf => rw [hr] at hf; cases hf
          · next hf =>
              rw [hr] at hf
              obtain rfl := Except.ok.inj hf
              simp only [delimiters_step, ih]

theorem scanFrom_derivation {d : Delimiters} {p : Place} {t : Text} {tokens : List Token}
    (h : scanFrom d p t = .ok tokens) : Scans d p t tokens := by
  fun_induction scanFrom d p t generalizing tokens with
  | case1 d p t hc =>
      obtain rfl := Except.ok.inj h
      exact .rest hc
  | case2 => cases h
  | case3 => cases h
  | case4 d p t before inner hc r hr s _ more hm =>
      rename_i ih
      obtain rfl := Except.ok.inj h
      have hs := ih hm
      change Scans (step d p before r).delimiters _ _ more at hs
      rw [delimiters_step] at hs
      exact .tag hc hr hs

theorem textTokens_eq (p : Place) (t : Text) :
    textTokens p t = [] ∧ t = [] ∨ textTokens p t = [ofText p t] ∧ t ≠ [] := by
  cases t <;> simp [textTokens]

/-! ## What a step cuts -/

/-- Padding with at most one line break behind it. -/
def LineEnd (t : Text) : Prop :=
  ∃ pad ending, t = pad ++ ending ∧ (∀ c ∈ pad, isPad c = true) ∧
    ending ∈ [[], ['\n'], ['\r', '\n']]

theorem lineEnd_nil : LineEnd [] := ⟨[], [], rfl, by simp, by simp⟩

theorem lineEnd_of_lineTail? {t tail below : Text} (h : lineTail? t = some (tail, below)) :
    LineEnd tail := by
  have hp : ∀ c ∈ t.takeWhile isPad, isPad c = true := List.all_eq_true.mp List.all_takeWhile
  unfold lineTail? at h
  simp only at h
  split at h <;> cases h
  · exact ⟨_, [], by simp, hp, by simp⟩
  · exact ⟨_, ['\n'], rfl, hp, by simp⟩
  · exact ⟨_, ['\r', '\n'], rfl, hp, by simp⟩

theorem splitLastLine_append (t : Text) : (splitLastLine t).1 ++ (splitLastLine t).2 = t := by
  induction t with
  | nil => rfl
  | cons c t ih =>
      rw [splitLastLine]
      simp only
      split
      · next h =>
          have he : (splitLastLine t).1 = [] := by simp_all
          simpa [he] using ih
      · simpa using ih

/-- The stretches before and behind a tag, split where a step cuts them. -/
structure Line.Splits (line : Line) (before rest : Text) : Prop where
  before_eq : before = line.above ++ line.indent
  rest_eq : rest = line.tail ++ line.below
  indent_pad : ∀ c ∈ line.indent, isPad c = true
  tail_end : LineEnd line.tail

theorem splits_of_aloneOnLine? {p : Place} {before rest : Text} {line : Line}
    (h : aloneOnLine? p before rest = some line) : line.Splits before rest := by
  rw [aloneOnLine?] at h
  simp only at h
  split at h
  · cases h
  · next hc =>
      obtain ⟨⟨tail, below⟩, ht, rfl⟩ := Option.map_eq_some_iff.mp h
      refine ⟨(splitLastLine_append before).symm, eq_of_lineTail? ht, ?_, lineEnd_of_lineTail? ht⟩
      simp only [Bool.or_eq_true, not_or, Bool.not_eq_true', Bool.not_eq_false] at hc
      simpa using hc.2

/-- The token of a tag on its line. -/
def tagToken (d : Delimiters) (p : Place) (before : Text) (r : Reading) (line : Line)
    (indent : Option Text) : Token :=
  let start := p.offset + before.length
  let stop := start + (d.opening ++ r.source).length
  ⟨r.lexeme, p.after before, stop, start - line.indent.length, stop + line.tail.length, indent, d⟩

/-- A step makes a stretch, if there is one, and a tag, and goes on behind what it cut. -/
theorem step_spec (d : Delimiters) (p : Place) (before : Text) (r : Reading) :
    ∃ line indent, Line.Splits line before r.rest ∧
      (step d p before r).tokens =
        textTokens p line.above ++ [tagToken d p before r line indent] ∧
      (step d p before r).place = p.after (before ++ (d.opening ++ r.source) ++ line.tail) ∧
      (step d p before r).rest = line.below := by
  rw [step]
  simp only
  split
  · next line h =>
      split at h
      · refine ⟨line, some line.indent, splits_of_aloneOnLine? h, ?_, ?_, rfl⟩
        · simp [tagToken]
        · simp only [Place.after_append]
      · cases h
  · refine ⟨⟨before, [], [], r.rest⟩, none, ⟨by simp, by simp, by simp, lineEnd_nil⟩, ?_, ?_, rfl⟩
    · simp [tagToken]
    · simp only [Place.after_append, Place.after_nil]

/-- A text in which a tag was read, with the tag in the middle. -/
theorem eq_of_tag {d : Delimiters} {t before inner : Text} {r : Reading}
    (hc : Text.cut? d.opening t = some (before, inner)) (hr : readTag d inner = .ok r) :
    t = before ++ (d.opening ++ r.source) ++ r.rest := by
  rw [Text.eq_of_cut? hc, eq_of_readTag hr]
  simp only [List.append_assoc]

/-! ## Scanned tokens -/

/-- A token that some scan gives. -/
def Scanned (token : Token) : Prop :=
  ∃ d source tokens, scan d source = .ok tokens ∧ token ∈ tokens

theorem Scans.spoken {d : Delimiters} {p : Place} {t : Text} {tokens : List Token}
    (h : Scans d p t tokens) :
    ∀ token ∈ tokens, (∃ content, token.lexeme = .text content) ∨ Spoken token.lexeme := by
  have hs : ∀ p content, ∀ token ∈ textTokens p content,
      ∃ content, token.lexeme = .text content := by
    intro p content token hm
    rcases textTokens_eq p content with ⟨he, _⟩ | ⟨he, _⟩
    · simp [he] at hm
    · rw [he, List.mem_singleton] at hm
      exact ⟨content, by rw [hm]; rfl⟩
  induction h with
  | rest hc => exact fun token hm => .inl (hs _ _ token hm)
  | @tag d p t before inner r more hc hr _ ih =>
      obtain ⟨line, indent, _, htokens, _, _⟩ := step_spec d p before r
      intro token hm
      rw [htokens, List.append_assoc, List.mem_append, List.mem_append, List.mem_singleton] at hm
      rcases hm with hm | rfl | hm
      · exact .inl (hs _ _ token hm)
      · exact .inr (spoken_readTag hr)
      · exact ih token hm

/-- A pragma tag calls something. -/
theorem Scanned.call {token : Token} (h : token.Scanned) {content : Text}
    (hl : token.lexeme = .pragma content) : ∃ call, PragmaCall.ofText? content = some call := by
  obtain ⟨d, source, tokens, ht, hm⟩ := h
  have hi : Text.hasInk content = true := by
    rcases (scanFrom_derivation ht).spoken token hm with ⟨_, he⟩ | hs
    · rw [hl] at he
      cases he
    · rw [hl] at hs
      exact hs
  rw [PragmaCall.ofText?]
  split
  · next hw => exact absurd hw (Text.words_ne_nil hi)
  · exact ⟨_, rfl⟩

end Token

end Whisker
