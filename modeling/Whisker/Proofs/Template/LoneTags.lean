import Mathlib
import Whisker.Proofs.Template.Append
import Whisker.Proofs.Template.Padding
import Whisker.Proofs.Template.Print
import Whisker.Proofs.Template.Tiling

/-! Tags that are alone on their lines. A scan decides on them by what stands between two tags, and
it comes to what the characters around the tag say: nothing else is on its lines. -/

namespace Whisker

namespace Text

/-! ## The last line -/

/-- What stands behind the last line feed. -/
def lastLine (t : Text) : Text := (t.reverse.takeWhile (· ≠ '\n')).reverse

theorem lastLine_append_of_mem {t : Text} (h : '\n' ∈ t) (s : Text) :
    lastLine (s ++ t) = lastLine t := by
  have hstops : (t.reverse.takeWhile (· ≠ '\n')).length ≠ t.reverse.length := by
    intro hl
    have hall : t.reverse.takeWhile (· ≠ '\n') = t.reverse :=
      (List.takeWhile_prefix _).eq_of_length hl
    have hn := List.takeWhile_eq_self_iff.mp hall '\n' (List.mem_reverse.mpr h)
    simp at hn
  rw [lastLine, List.reverse_append, List.takeWhile_append, if_neg hstops, lastLine]

theorem lastLine_append_of_not_mem {t : Text} (h : '\n' ∉ t) (s : Text) :
    lastLine (s ++ t) = lastLine s ++ t := by
  have hall : t.reverse.takeWhile (· ≠ '\n') = t.reverse := by
    refine List.takeWhile_eq_self_iff.mpr fun c hc => ?_
    simpa using fun he : c = '\n' => h (he ▸ List.mem_reverse.mp hc)
  rw [lastLine, List.reverse_append, List.takeWhile_append, hall, if_pos rfl, List.reverse_append,
    List.reverse_reverse, lastLine]

theorem lastLine_of_endsLine {t : Text} (h : t.EndsLine) : lastLine t = [] := by
  rcases h with rfl | ⟨u, rfl⟩
  · rfl
  · exact lastLine_append_of_mem List.mem_cons_self u

theorem length_lastLine_le (t : Text) : (lastLine t).length ≤ t.length := by
  have hle : (t.reverse.takeWhile (· ≠ '\n')).length ≤ t.reverse.length :=
    (List.takeWhile_prefix _).length_le
  rw [lastLine, List.length_reverse]
  rwa [List.length_reverse] at hle

end Text

open Text (lastLine)

namespace Token

/-! ## Both sides of a tag -/

theorem exists_splitLastLine_of_mem {t : Text} (h : '\n' ∈ t) :
    ∃ u, splitLastLine t = (u ++ ['\n'], lastLine t) := by
  obtain ⟨v, u, ht, hv⟩ := List.eq_append_cons_of_mem (List.mem_reverse.mpr h)
  have heq : t = u.reverse ++ '\n' :: v.reverse := by
    rw [← List.reverse_reverse t, ht]
    simp
  have hlast : '\n' ∉ v.reverse := fun hm => hv (List.mem_reverse.mp hm)
  have hline : lastLine t = v.reverse := by
    rw [heq, Text.lastLine_append_of_mem List.mem_cons_self,
      ← List.singleton_append, Text.lastLine_append_of_not_mem hlast]
    rfl
  refine ⟨u.reverse, ?_⟩
  rw [hline, heq, splitLastLine_append_line, splitLastLine_of_not_mem hlast]

/-- Padding up to the end of a line: a line break is behind it, or nothing is. -/
def LineTail (t tail : Text) : Prop :=
  ∃ pad below, t = tail ++ below ∧ IsPadding pad ∧
    (tail = pad ++ ['\n'] ∨ tail = pad ++ ['\r', '\n'] ∨ tail = pad ∧ below = [])

theorem lineTail?_append_padding {pad : Text} (h : IsPadding pad) (t : Text) :
    lineTail? (pad ++ t) = (lineTail? t).map fun (tail, below) => (pad ++ tail, below) := by
  induction pad with
  | nil => simp
  | cons c pad ih =>
      obtain ⟨hc, h⟩ := List.forall_mem_cons.mp h
      rw [List.cons_append, lineTail?_cons_pad hc, ih h, Option.map_map]
      rfl

theorem lineTail_of_lineTail? {t tail below : Text} (h : lineTail? t = some (tail, below)) :
    LineTail t tail := by
  have heq := eq_of_lineTail? h
  have hp : IsPadding (t.takeWhile isPad) := List.all_eq_true.mp List.all_takeWhile
  refine ⟨t.takeWhile isPad, below, heq, hp, ?_⟩
  unfold lineTail? at h
  simp only at h
  split at h <;> cases h
  · exact .inr (.inr ⟨rfl, rfl⟩)
  · exact .inl rfl
  · exact .inr (.inl rfl)

theorem LineTail.exists_lineTail? {t tail : Text} (h : LineTail t tail) :
    ∃ below, lineTail? t = some (tail, below) := by
  obtain ⟨pad, below, rfl, hp, rfl | rfl | ⟨rfl, rfl⟩⟩ := h
  · refine ⟨below, ?_⟩
    rw [List.append_assoc, lineTail?_append_padding hp, List.singleton_append,
      lineTail?_of_not_isPad rfl]
    rfl
  · refine ⟨below, ?_⟩
    rw [List.append_assoc, lineTail?_append_padding hp, List.cons_append, List.singleton_append,
      lineTail?_of_not_isPad rfl]
    rfl
  · refine ⟨[], ?_⟩
    have hnil : lineTail? [] = some ([], []) := rfl
    rw [lineTail?_append_padding hp, hnil]
    simp

/-- What a scan has behind it where it looks for the next tag: whole lines, or a tag that ends with
a character other than padding. -/
def Barred (front : Text) : Prop :=
  front.EndsLine ∨ ∃ u c, front = u ++ [c] ∧ isPad c = false ∧ c ≠ '\n'

theorem Place.column_pos_after {p : Place} (hp : 0 < p.column) (t : Text) :
    0 < (p.after t).column := by
  induction t generalizing p with
  | nil => exact hp
  | cons c t ih =>
      refine ih ?_
      rw [Place.next]
      split
      · exact Nat.one_pos
      · exact Nat.succ_pos _

theorem column_after_ne_one (u : Text) {c : Char} (hc : c ≠ '\n') :
    (Place.start.after (u ++ [c])).column ≠ 1 := by
  have hpos := Place.column_pos_after (p := .start) Nat.one_pos u
  rw [Place.after_append, Place.after_cons, Place.after_nil, Place.next, if_neg hc]
  dsimp only
  omega

theorem isPadding_append {s t : Text} : IsPadding (s ++ t) ↔ IsPadding s ∧ IsPadding t :=
  List.forall_mem_append

/-- The scan finds the margin of a tag, or does not, as in the whole source. -/
theorem margin_iff {front : Text} (hf : Barred front) (before : Text) :
    (¬ (((splitLastLine before).1.isEmpty && (Place.start.after front).column ≠ 1) ||
        !(splitLastLine before).2.all isPad) = true ↔ IsPadding (lastLine (front ++ before))) ∧
      (IsPadding (lastLine (front ++ before)) →
        (splitLastLine before).2 = lastLine (front ++ before)) := by
  by_cases hb : '\n' ∈ before
  · obtain ⟨u, hu⟩ := exists_splitLastLine_of_mem hb
    rw [hu, Text.lastLine_append_of_mem hb]
    simp [IsPadding]
  · rw [splitLastLine_of_not_mem hb, Text.lastLine_append_of_not_mem hb]
    rcases hf with hf | ⟨u, c, rfl, hc, hne⟩
    · have hcolumn := Place.column_after_of_endsLine (p := .start) rfl hf
      rw [Text.lastLine_of_endsLine hf]
      simp [IsPadding, hcolumn]
    · -- the end of the last tag is on the line
      have hcolumn := column_after_ne_one u hne
      have hlast : lastLine (u ++ [c]) = lastLine u ++ [c] :=
        Text.lastLine_append_of_not_mem (by simpa using hne.symm) u
      have hnot : ¬ IsPadding (lastLine (u ++ [c]) ++ before) := by
        rw [hlast, isPadding_append, isPadding_append]
        rintro ⟨⟨-, hp⟩, -⟩
        cases hc.symm.trans (hp c List.mem_cons_self)
      simp [hcolumn, hnot]

theorem eq_of_aloneOnLine?_after {front : Text} (hf : Barred front) {before rest : Text}
    {line : Line} (h : aloneOnLine? (Place.start.after front) before rest = some line) :
    line.indent = lastLine (front ++ before) ∧ IsPadding line.indent ∧
      lineTail? rest = some (line.tail, line.below) := by
  obtain ⟨hiff, hindent⟩ := margin_iff hf before
  rw [aloneOnLine?] at h
  simp only at h
  split at h
  · cases h
  · next hm =>
      obtain ⟨⟨tail, below⟩, ht, rfl⟩ := Option.map_eq_some_iff.mp h
      have hp := hiff.mp hm
      exact ⟨hindent hp, hindent hp ▸ hp, ht⟩

theorem exists_aloneOnLine?_after {front : Text} (hf : Barred front) {before rest : Text}
    (hp : IsPadding (lastLine (front ++ before))) {tail : Text} (ht : LineTail rest tail) :
    ∃ line, aloneOnLine? (Place.start.after front) before rest = some line := by
  obtain ⟨below, hbelow⟩ := ht.exists_lineTail?
  have hm := (margin_iff hf before).1.mpr hp
  rw [aloneOnLine?]
  simp only
  rw [if_neg hm, hbelow]
  exact ⟨_, rfl⟩

/-! ## Where tokens lie -/

/-- Nothing but padding is before the token and behind it on its lines. -/
def AloneIn (source : Text) (token : Token) : Prop :=
  IsPadding (lastLine (source.take token.place.offset)) ∧ ∃ tail, LineTail (source.drop token.stop) tail

/-- What a token takes of its source besides itself: the rest of its lines, if it is a tag that
vanishes with them and is alone there, and nothing otherwise. -/
structure Cuts (source : Text) (token : Token) : Prop where
  standalone_iff : token.isStandalone = true ↔
    token.lexeme.standsAlone = true ∧ token.AloneIn source
  indent_eq : ∀ indent, token.indent = some indent →
    indent = lastLine (source.take token.place.offset)
  rawStart_eq : token.isStandalone = true →
    token.rawStart + (lastLine (source.take token.place.offset)).length = token.place.offset
  tail : token.isStandalone = true →
    LineTail (source.drop token.stop) (Text.slice source token.stop token.rawStop)
  whole : token.isStandalone = false →
    token.rawStart = token.place.offset ∧ token.rawStop = token.stop

theorem cuts_of_mem_textTokens {p : Place} {t : Text} {token : Token}
    (h : token ∈ textTokens p t) (source : Text) : Cuts source token := by
  rcases textTokens_eq p t with ⟨he, _⟩ | ⟨he, _⟩
  · simp [he] at h
  · rw [he, List.mem_singleton] at h
    subst h
    exact ⟨by simp [isStandalone, ofText, Lexeme.standsAlone], by simp [ofText],
      by simp [isStandalone, ofText], by simp [isStandalone, ofText], fun _ => ⟨rfl, rfl⟩⟩

/-- The token of a tag that was read, between `front ++ before` and the rest. -/
theorem cuts_of_mem_step {d : Delimiters} {front before : Text} {r : Reading}
    (hf : Barred front) {token : Token}
    (h : token ∈ (step d (Place.start.after front) before r).tokens) :
    Cuts (front ++ before ++ (d.opening ++ r.source) ++ r.rest) token := by
  have hoffset : ((Place.start.after front).after before).offset = (front ++ before).length := by
    simp [Place.start]
  have htake : (front ++ before ++ (d.opening ++ r.source) ++ r.rest).take
      ((Place.start.after front).after before).offset = front ++ before := by
    rw [hoffset, List.append_assoc, List.take_left]
  have hdrop : (front ++ before ++ (d.opening ++ r.source) ++ r.rest).drop
      (((Place.start.after front).after before).offset + (d.opening ++ r.source).length) =
        r.rest := by
    rw [hoffset, ← List.length_append, List.drop_left]
  rw [step] at h
  simp only at h
  split at h
  · next line hline =>
      rcases List.mem_append.mp h with hm | hm
      · exact cuts_of_mem_textTokens hm _
      · obtain rfl := List.mem_singleton.mp hm
        split at hline
        · next hstands =>
            obtain ⟨hindent, hpadding, htail⟩ := eq_of_aloneOnLine?_after hf hline
            have hlt := lineTail_of_lineTail? htail
            have hle := Text.length_lastLine_le (front ++ before)
            refine ⟨?_, ?_, fun _ => ?_, fun _ => ?_, by simp [isStandalone]⟩
            · rw [AloneIn, htake, hdrop]
              exact ⟨fun _ => ⟨hstands, hindent ▸ hpadding, _, hlt⟩, fun _ => rfl⟩
            · rintro _ ⟨⟩
              rw [htake, hindent]
            · rw [htake, hindent]
              dsimp only
              omega
            · rw [Text.slice, hdrop, Nat.add_sub_cancel_left, eq_of_lineTail? htail,
                List.take_left]
              exact eq_of_lineTail? htail ▸ hlt
        · cases hline
  · next hnone =>
      rcases List.mem_append.mp h with hm | hm
      · exact cuts_of_mem_textTokens hm _
      · obtain rfl := List.mem_singleton.mp hm
        refine ⟨?_, by simp, by simp [isStandalone], by simp [isStandalone], fun _ => ⟨rfl, rfl⟩⟩
        rw [AloneIn, htake, hdrop]
        refine ⟨by simp [isStandalone], ?_⟩
        rintro ⟨hstands, hpadding, tail, htail⟩
        obtain ⟨line, hline⟩ := exists_aloneOnLine?_after hf hpadding htail
        rw [if_pos hstands, hline] at hnone
        cases hnone

/-- Where a scan goes on it is behind whole lines or a tag, if there is more to come. -/
theorem barred_step {d : Delimiters} (hd : d.Solid) {front inner : Text} {r : Reading}
    (hf : Barred front) (hr : readTag d inner = .ok r) (before : Text) :
    ∃ tail, (step d (Place.start.after front) before r).place =
        Place.start.after (front ++ before ++ (d.opening ++ r.source) ++ tail) ∧
      r.rest = tail ++ (step d (Place.start.after front) before r).rest ∧
      (Barred (front ++ before ++ (d.opening ++ r.source) ++ tail) ∨
        (step d (Place.start.after front) before r).rest = []) := by
  rw [step]
  simp only
  split
  · next line hline =>
      split at hline
      · obtain ⟨-, -, htail⟩ := eq_of_aloneOnLine?_after hf hline
        refine ⟨line.tail, ?_, eq_of_lineTail? htail, ?_⟩
        · simp only [Place.after_append]
        · obtain ⟨pad, below, hrest, -, ht | ht | ⟨-, hb⟩⟩ := lineTail_of_lineTail? htail
          · refine .inl (.inl (.inr ⟨front ++ before ++ (d.opening ++ r.source) ++ pad, ?_⟩))
            rw [ht, List.append_assoc _ pad]
          · refine .inl (.inl (.inr ⟨front ++ before ++ (d.opening ++ r.source) ++ pad ++ ['\r'], ?_⟩))
            rw [ht]
            simp
          · have hbelow : line.tail ++ line.below = line.tail ++ below :=
              (eq_of_lineTail? htail).symm.trans hrest
            exact .inr ((List.append_cancel_left hbelow).trans hb)
      · cases hline
  · refine ⟨[], ?_, rfl, .inl (.inr ?_)⟩
    · simp only [Place.after_append, Place.after_nil]
    · obtain ⟨u, hu⟩ := source_of_readTag hr
      obtain ⟨v, c, hv⟩ : ∃ v c, d.closing = v ++ [c] := by
        simpa [d.closing_ne_nil] using List.eq_nil_or_concat d.closing
      have hblank : Text.isBlank c = false := hd c (by simp [hv])
      refine ⟨front ++ before ++ (d.opening ++ (u ++ v)), c, ?_, ?_, ?_⟩
      · simp [hu, hv]
      · rw [Bool.eq_false_iff, isPad, Ne, Bool.or_eq_true, decide_eq_true_eq, decide_eq_true_eq]
        rintro (rfl | rfl) <;> cases hblank
      · rintro rfl
        cases hblank

theorem Scans.cuts {d : Delimiters} {p : Place} {t : Text} {tokens : List Token}
    (h : Scans d p t tokens) (hd : d.Solid) {front : Text} (hp : p = Place.start.after front)
    (hf : Barred front ∨ t = []) : ∀ token ∈ tokens, Cuts (front ++ t) token := by
  induction h generalizing front with
  | rest => exact fun token hm => cuts_of_mem_textTokens hm _
  | @tag d p t before inner r more hc hr _ ih =>
      have ht := eq_of_tag hc hr
      have hne : t ≠ [] := by
        rw [ht]
        simp [d.opening_ne_nil]
      have hf := hf.resolve_right hne
      subst hp
      obtain ⟨tail, hplace, hrest, hbarred⟩ := barred_step hd hf hr before
      have hcuts := ih (solid_nextDelimiters hd (spoken_readTag hr)) hplace hbarred
      intro token hm
      rcases List.mem_append.mp hm with hm | hm
      · rw [ht]
        simpa only [List.append_assoc] using cuts_of_mem_step hf hm
      · rw [ht, hrest]
        simpa only [List.append_assoc] using hcuts token hm

/-! ## What is missing between tokens -/

theorem Tiles.exists_mem {start stop : Nat} {tokens : List Token} (h : Tiles start tokens stop)
    {i : Nat} (hi : start ≤ i) (hlt : i < stop) :
    ∃ token ∈ tokens, token.rawStart ≤ i ∧ i < token.rawStop := by
  induction h with
  | nil => omega
  | @cons start token tokens stop hs _ _ ih =>
      by_cases hstop : i < token.rawStop
      · exact ⟨token, List.mem_cons_self, by omega, hstop⟩
      · obtain ⟨other, hm, hother⟩ := ih (Nat.le_of_not_lt hstop) hlt
        exact ⟨other, List.mem_cons_of_mem _ hm, hother⟩

theorem Tiles.le_rawStart {start stop : Nat} {tokens : List Token} (h : Tiles start tokens stop) :
    ∀ token ∈ tokens, start ≤ token.rawStart := by
  induction h with
  | nil => simp
  | cons hs hp _ ih =>
      refine List.forall_mem_cons.mpr ⟨Nat.le_of_eq hs.symm, fun token hm => ?_⟩
      exact Nat.le_trans (Nat.le_of_lt hp) (ih token hm)

theorem Tiles.pairwise {start stop : Nat} {tokens : List Token} (h : Tiles start tokens stop) :
    tokens.Pairwise fun a b => a.rawStop ≤ b.rawStart := by
  induction h with
  | nil => exact .nil
  | cons _ _ ht ih => exact .cons ht.le_rawStart ih

/-- The spans of two tokens lie apart. -/
theorem Tiles.apart {start stop : Nat} {tokens : List Token} (h : Tiles start tokens stop)
    {a b : Token} (ha : a ∈ tokens) (hb : b ∈ tokens) (hne : a ≠ b) :
    a.rawStop ≤ b.rawStart ∨ b.rawStop ≤ a.rawStart := by
  have hpairs : tokens.Pairwise fun a b => a.rawStop ≤ b.rawStart ∨ b.rawStop ≤ a.rawStart :=
    h.pairwise.imp Or.inl
  have hsymm : Std.Symm fun a b : Token => a.rawStop ≤ b.rawStart ∨ b.rawStop ≤ a.rawStart :=
    ⟨fun _ _ => Or.symm⟩
  exact hpairs.forall ha hb hne

/-- A token stands for itself at these offsets. -/
def Spans (token : Token) (i : Nat) : Prop := token.place.offset ≤ i ∧ i < token.stop

/-- A tag has the offset cut out around itself. -/
def CutsOut (token : Token) (i : Nat) : Prop :=
  token.isStandalone = true ∧
    (token.rawStart ≤ i ∧ i < token.place.offset ∨ token.stop ≤ i ∧ i < token.rawStop)

/-- A token is standalone exactly where it is a tag other than a variable and nothing but padding is
on its lines. Then the padding in front of it and behind it, with the line break, is cut out, and no
other token is in there; around any other token nothing is cut out. So of the source just these
characters are in no token. -/
theorem scan_cuts {d : Delimiters} (hd : d.Solid) {source : Text} {tokens : List Token}
    (h : scan d source = .ok tokens) :
    (∀ token ∈ tokens, Cuts source token ∧ ∀ other ∈ tokens, other ≠ token →
      other.stop ≤ token.rawStart ∨ token.rawStop ≤ other.place.offset) ∧
    ∀ i, i < source.length →
      ((∃ token ∈ tokens, token.Spans i) ↔ ¬ ∃ token ∈ tokens, token.CutsOut i) := by
  have hs : Scans d .start source tokens := scanFrom_derivation h
  have hcuts : ∀ token ∈ tokens, Cuts ([] ++ source) token := hs.cuts hd rfl (.inl (.inl (.inl rfl)))
  obtain ⟨htiles, -, -, hfits, -⟩ := scan_tiling h
  refine ⟨fun token hm => ⟨hcuts token hm, fun other ho hne => ?_⟩, fun i hi => ⟨?_, ?_⟩⟩
  · have ha := htiles.apart ho hm hne
    have hstop := (hfits other ho).stop_le
    have hstart := (hfits other ho).start_le
    omega
  · rintro ⟨token, hm, hspan⟩ ⟨other, ho, -, hcut⟩
    obtain ⟨hle, hlt⟩ := hspan
    have hfit := hfits token hm
    have hother := hfits other ho
    have h₁ := hfit.start_le
    have h₂ := hfit.stop_le
    have h₃ := hother.start_le
    have h₄ := hother.stop_le
    have h₅ := hother.start_lt
    by_cases he : token = other
    · subst he
      omega
    · have ha := htiles.apart hm ho he
      omega
  · intro hnone
    obtain ⟨token, hm, hle, hlt⟩ := htiles.exists_mem (Nat.zero_le i) hi
    refine ⟨token, hm, ?_⟩
    cases hstandalone : token.isStandalone with
    | false =>
        obtain ⟨hstart, hstop⟩ := (hcuts token hm).whole hstandalone
        exact ⟨hstart ▸ hle, hstop ▸ hlt⟩
    | true =>
        by_contra hspan
        refine hnone ⟨token, hm, hstandalone, ?_⟩
        rw [Spans] at hspan
        omega

/-- A tag over two lines, a change of delimiters, and a tag with text behind it. -/
def loneSource : Text := "a\n \x7b\x7b#s\n\x7d\x7d \r\n{{=| |=}}\n|/s| b".toList

def loneTokens : List Token :=
  [.ofText .start ['a', '\n'],
    ⟨.opening .plain ['s'], ⟨3, 2, 2⟩, 10, 2, 13, some [' '], .standard⟩,
    ⟨.delimiterChange bars, ⟨13, 4, 1⟩, 22, 13, 23, some [], .standard⟩,
    ⟨.closing ['s'], ⟨23, 5, 1⟩, 27, 23, 27, none, bars⟩, .ofText ⟨27, 5, 5⟩ [' ', 'b']]

theorem loneTokens_cut :
    Delimiters.standard.Solid ∧ scan .standard loneSource = .ok loneTokens ∧
      (∀ token ∈ loneTokens, Cuts loneSource token) ∧
      ((∃ token ∈ loneTokens, token.Spans 11) ↔ ¬ ∃ token ∈ loneTokens, token.CutsOut 11) := by
  have h : scan .standard loneSource = .ok loneTokens := by cbv
  obtain ⟨hcuts, hspans⟩ := scan_cuts Delimiters.solid_standard h
  exact ⟨Delimiters.solid_standard, h, fun token hm => (hcuts token hm).1,
    hspans 11 (by decide)⟩

end Token

end Whisker
