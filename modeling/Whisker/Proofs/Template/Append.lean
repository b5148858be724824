import Whisker.Proofs.Template.Stretch

/-! Scanning goes line by line: what stands before the start of a line decides only where the rest
begins and with which delimiters it is read. A stretch of text that runs over that start is one
token. -/

namespace Whisker

/-! ## Ends of lines -/

/-- Text behind which a new line starts, if it started with one. -/
def Text.EndsLine (t : Text) : Prop := t = [] ∨ ∃ u, t = u ++ ['\n']

theorem Text.EndsLine.of_append {s t : Text} (h : EndsLine (s ++ t)) : EndsLine t := by
  rcases h with h | ⟨u, h⟩
  · exact .inl (List.append_eq_nil_iff.mp h).2
  · rcases List.eq_nil_or_concat t with rfl | ⟨v, c, rfl⟩
    · exact .inl rfl
    · rw [List.concat_eq_append, ← List.append_assoc] at h
      obtain ⟨-, hc⟩ := List.append_inj' h rfl
      exact .inr ⟨v, by rw [List.concat_eq_append, hc]⟩

theorem Text.EndsLine.append {s t : Text} (hs : EndsLine s) (ht : EndsLine t) :
    EndsLine (s ++ t) := by
  rcases ht with rfl | ⟨u, rfl⟩
  · rwa [List.append_nil]
  · exact .inr ⟨s ++ u, (List.append_assoc s u ['\n']).symm⟩

namespace Place

theorem column_after_of_endsLine {p : Place} (hp : p.column = 1) {t : Text} (h : t.EndsLine) :
    (p.after t).column = 1 := by
  rcases h with rfl | ⟨u, rfl⟩
  · exact hp
  · rw [after_append]
    rfl

/-- The same place in a source that has `front` before it. -/
def shift (front : Text) (p : Place) : Place :=
  ⟨front.length + p.offset, front.count '\n' + p.line, p.column⟩

theorem next_shift (front : Text) (p : Place) (c : Char) :
    (p.shift front).next c = (p.next c).shift front := by
  rw [next, next]
  split <;> rfl

theorem after_shift (front : Text) (p : Place) (t : Text) :
    (p.shift front).after t = (p.after t).shift front := by
  induction t generalizing p with
  | nil => rfl
  | cons c t ih => rw [after_cons, next_shift, ih, after_cons]

theorem line_after (p : Place) (t : Text) : (p.after t).line = p.line + t.count '\n' := by
  induction t generalizing p with
  | nil => rfl
  | cons c t ih =>
      rw [after_cons, ih, next, List.count_cons]
      by_cases hc : c = '\n'
      · simp [hc]
        omega
      · simp [hc]

theorem after_eq_shift {front : Text} (h : front.EndsLine) :
    start.after front = start.shift front := by
  have ho := offset_after start front
  have hl := line_after start front
  have hc := column_after_of_endsLine (p := start) rfl h
  generalize start.after front = p at ho hl hc
  obtain ⟨offset, line, column⟩ := p
  simp only at ho hl hc
  rw [shift, ho, hl, hc, Nat.add_comm front.length, Nat.add_comm (front.count '\n')]
  rfl

end Place

def TemplateError.shift (front : Text) (e : TemplateError) : TemplateError :=
  ⟨e.fault, e.place.shift front⟩

namespace Token

/-- The same token in a source that has `front` before it. -/
def shift (front : Text) (token : Token) : Token :=
  { token with
    place := token.place.shift front
    stop := front.length + token.stop
    rawStart := front.length + token.rawStart
    rawStop := front.length + token.rawStop }

/-! ## One step of a scan -/

theorem scanFrom_rest {d : Delimiters} {t : Text} (hc : Text.cut? d.opening t = none) (p : Place) :
    scanFrom d p t = .ok (textTokens p t) :=
  (Scans.rest hc).execution

theorem scanFrom_fault {d : Delimiters} {t before inner : Text} {fault : Fault}
    (hc : Text.cut? d.opening t = some (before, inner)) (hr : readTag d inner = .error fault)
    (p : Place) : scanFrom d p t = .error ⟨fault, p.after before⟩ := by
  rw [scanFrom]
  split
  · next heq => rw [hc] at heq; cases heq
  · next heq =>
      rw [hc] at heq
      obtain ⟨rfl, rfl⟩ := Prod.mk.inj (Option.some.inj heq)
      split
      · next hf => rw [hr] at hf; cases hf; rfl
      · next hf => rw [hr] at hf; cases hf

theorem scanFrom_tag {d : Delimiters} {t before inner : Text} {r : Reading}
    (hc : Text.cut? d.opening t = some (before, inner)) (hr : readTag d inner = .ok r)
    (p : Place) :
    scanFrom d p t =
      (scanFrom (nextDelimiters d r.lexeme) (step d p before r).place (step d p before r).rest).map
        ((step d p before r).tokens ++ ·) := by
  rw [scanFrom]
  split
  · next heq => rw [hc] at heq; cases heq
  · next heq =>
      rw [hc] at heq
      obtain ⟨rfl, rfl⟩ := Prod.mk.inj (Option.some.inj heq)
      split
      · next hf => rw [hr] at hf; cases hf
      · next hf =>
          rw [hr] at hf
          obtain rfl := Except.ok.inj hf
          simp only [delimiters_step]
          split <;> next hs => rw [hs]; rfl

/-! ## Scanning further on -/

theorem textTokens_shift (front : Text) (p : Place) (t : Text) :
    textTokens (p.shift front) t = (textTokens p t).map (shift front) := by
  rw [textTokens, textTokens]
  split
  · rfl
  · simp [ofText, shift, Place.shift, Nat.add_assoc]

theorem aloneOnLine?_shift (front : Text) (p : Place) (before rest : Text) :
    aloneOnLine? (p.shift front) before rest = aloneOnLine? p before rest := rfl

theorem step_shift (front : Text) (d : Delimiters) (p : Place) (before : Text) (r : Reading) :
    step d (p.shift front) before r =
      ⟨(step d p before r).tokens.map (shift front), (step d p before r).delimiters,
        (step d p before r).place.shift front, (step d p before r).rest⟩ := by
  rw [step, step]
  simp only [aloneOnLine?_shift, textTokens_shift, Place.after_shift]
  split
  · next line h =>
      split at h
      · have hb := congrArg List.length (splits_of_aloneOnLine? h).before_eq
        rw [List.length_append] at hb
        simp only [shift, Place.shift, List.map_append, List.map_cons, List.map_nil,
          Place.offset_after]
        congr 4 <;> omega
      · cases h
  · simp only [shift, Place.shift, List.map_append, List.map_cons, List.map_nil]
    congr 4 <;> omega

/-- How a scan ends for a source that has `front` before it. -/
def shiftResult (front : Text) :
    Except TemplateError (List Token) → Except TemplateError (List Token)
  | .ok tokens => .ok (tokens.map (shift front))
  | .error e => .error (e.shift front)

theorem scanFrom_shift (front : Text) (d : Delimiters) (p : Place) (t : Text) :
    scanFrom d (p.shift front) t = shiftResult front (scanFrom d p t) := by
  fun_induction scanFrom d p t with
  | case1 d p t hc => rw [scanFrom_rest hc, textTokens_shift]; rfl
  | case2 d p t before inner hc fault hr =>
      rw [scanFrom_fault hc hr, Place.after_shift]
      rfl
  | case3 d p t before inner hc r hr s _ e he ih =>
      rw [he] at ih
      have hs : scanFrom (nextDelimiters d r.lexeme) (s.place.shift front) s.rest =
          .error (e.shift front) := delimiters_step d p before r ▸ ih
      rw [scanFrom_tag hc hr, step_shift]
      exact congrArg (Except.map _) hs
  | case4 d p t before inner hc r hr s _ more hm ih =>
      rw [hm] at ih
      have hs : scanFrom (nextDelimiters d r.lexeme) (s.place.shift front) s.rest =
          .ok (more.map (shift front)) := delimiters_step d p before r ▸ ih
      rw [scanFrom_tag hc hr, step_shift]
      refine (congrArg (Except.map _) hs).trans ?_
      simp [Except.map, shiftResult, s]

/-! ## Stretches that meet -/

/-- Two sequences of tokens one behind the other. Where text meets text they make one token. -/
def splice : List Token → List Token → List Token
  | [], back => back
  | [token], other :: back =>
    match token.lexeme, other.lexeme with
    | .text content, .text more =>
      { token with
        lexeme := .text (content ++ more)
        stop := other.stop
        rawStop := other.rawStop } :: back
    | _, _ => token :: other :: back
  | token :: front, back => token :: splice front back

theorem splice_of_not_isText {token : Token} (ht : token.lexeme.isText = false)
    (back : List Token) : splice [token] back = token :: back := by
  cases back with
  | nil => rfl
  | cons other back =>
      rw [splice]
      split
      · next h _ => rw [h] at ht; cases ht
      · rfl

/-- Only what follows the last tag can meet the text behind. -/
theorem splice_append_tag (front : List Token) {token : Token} (ht : token.lexeme.isText = false)
    (middle back : List Token) :
    splice (front ++ token :: middle) back = front ++ token :: splice middle back := by
  induction front with
  | nil =>
      cases middle with
      | nil => exact splice_of_not_isText ht back
      | cons other middle => rfl
  | cons first front ih =>
      have hs : splice (first :: (front ++ token :: middle)) back =
          first :: splice (front ++ token :: middle) back := by
        cases front <;> rfl
      rw [List.cons_append, hs, ih, List.cons_append]

/-- Only the first token behind can meet the text in front. -/
theorem splice_append_back (front : List Token) {back : List Token} (hb : back ≠ [])
    (more : List Token) : splice front (back ++ more) = splice front back ++ more := by
  obtain ⟨other, back, rfl⟩ := List.exists_cons_of_ne_nil hb
  induction front with
  | nil => rfl
  | cons token front ih =>
      cases front with
      | nil =>
          simp only [List.cons_append, splice]
          split <;> rfl
      | cons next front => exact congrArg (token :: ·) ih

theorem textTokens_append (p : Place) (t more : Text) (tokens : List Token)
    (ht : ∀ token ∈ tokens.head?, token.lexeme.isText = false) :
    textTokens p (t ++ more) ++ tokens =
      splice (textTokens p t) (textTokens (p.after t) more ++ tokens) := by
  rcases textTokens_eq p t with ⟨he, rfl⟩ | ⟨he, hne⟩
  · rw [he]
    rfl
  · rw [he]
    rcases textTokens_eq (p.after t) more with ⟨hm, rfl⟩ | ⟨hm, _⟩
    · rw [hm, List.append_nil, he, List.nil_append]
      cases tokens with
      | nil => rfl
      | cons token tokens =>
          rw [splice]
          split
          · next h =>
              have hf := ht token rfl
              rw [h] at hf
              cases hf
          · rfl
    · rw [hm, textTokens]
      simp [hne, splice, ofText, Nat.add_assoc]

/-! ## Stretches that run over the start of a line -/

theorem splitLastLine_append_line (u before : Text) :
    splitLastLine (u ++ '\n' :: before) =
      (u ++ '\n' :: (splitLastLine before).1, (splitLastLine before).2) := by
  induction u with
  | nil => simp [splitLastLine]
  | cons c u ih => simp [splitLastLine, ih]

/-- Whether a tag is alone on its line does not depend on the lines above. -/
theorem aloneOnLine?_append_line (p : Place) (u before rest : Text) :
    aloneOnLine? p (u ++ '\n' :: before) rest =
      (aloneOnLine? (p.after (u ++ ['\n'])) before rest).map fun line =>
        { line with above := u ++ '\n' :: line.above } := by
  have hc : (p.after (u ++ ['\n'])).column = 1 := by
    rw [Place.after_append]
    rfl
  rw [aloneOnLine?, aloneOnLine?, splitLastLine_append_line]
  simp only [hc]
  cases (splitLastLine before).2.all isPad <;> cases lineTail? rest <;> simp

theorem step_append (d : Delimiters) (p : Place) {t : Text} (ht : t.EndsLine) (before : Text)
    {r : Reading} (hr : r.lexeme.isText = false) :
    step d p (t ++ before) r =
      { step d (p.after t) before r with
        tokens := splice (textTokens p t) (step d (p.after t) before r).tokens } := by
  rcases ht with rfl | ⟨u, rfl⟩
  · rfl
  · have hp : p.after (u ++ '\n' :: before) = (p.after (u ++ ['\n'])).after before := by
      rw [← Place.after_append]
      simp
    have hx (above : Text) (token : Token) (hl : token.lexeme = r.lexeme) :
        textTokens p (u ++ '\n' :: above) ++ [token] =
          splice (textTokens p (u ++ ['\n']))
            (textTokens (p.after (u ++ ['\n'])) above ++ [token]) := by
      have h := textTokens_append p (u ++ ['\n']) above [token] (by simp [hl, hr])
      simpa using h
    rw [step, step]
    simp only [List.append_assoc, List.singleton_append, aloneOnLine?_append_line, hp]
    cases r.lexeme.standsAlone with
    | false =>
        simp only [Bool.false_eq_true, if_false]
        rw [hx _ _ rfl]
    | true =>
        simp only [if_true]
        cases aloneOnLine? (p.after (u ++ ['\n'])) before r.rest with
        | none => simp only [Option.map_none]; rw [hx _ _ rfl]
        | some line => simp only [Option.map_some]; rw [hx _ _ rfl]

theorem isText_of_readTag {d : Delimiters} {t : Text} {r : Reading} (h : readTag d t = .ok r) :
    r.lexeme.isText = false := by
  have hs := spoken_readTag h
  cases hl : r.lexeme <;> simp_all [Spoken, Lexeme.isText]

/-- No mark lies across the start of a line. -/
theorem cut?_endsLine {d : Delimiters} (hd : d.Solid) {t : Text} (ht : t.EndsLine)
    (hc : Text.cut? d.opening t = none) (back : Text) :
    Text.cut? d.opening (t ++ back) =
      (Text.cut? d.opening back).map fun (before, after) => (t ++ before, after) := by
  rcases ht with rfl | ⟨u, rfl⟩
  · simp
  · have hn : '\n' ∉ d.opening := by
      intro hm
      exact absurd (hd '\n' (List.mem_append_left _ hm)) (by decide)
    simpa using Text.cut?_append_cons hn hc back

/-- A stretch without a tag, up to the start of a line, joins the stretch behind it. -/
theorem scanFrom_append_stretch {d : Delimiters} (hd : d.Solid) {t : Text} (ht : t.EndsLine)
    (hc : Text.cut? d.opening t = none) (p : Place) (back : Text) :
    scanFrom d p (t ++ back) = (scanFrom d (p.after t) back).map (splice (textTokens p t)) := by
  have hcut := cut?_endsLine hd ht hc back
  cases hb : Text.cut? d.opening back with
  | none =>
      rw [hb] at hcut
      rw [scanFrom_rest hb, scanFrom_rest hcut]
      have h := textTokens_append p t back [] (by simp)
      rw [List.append_nil, List.append_nil] at h
      rw [h]
      rfl
  | some parts =>
      obtain ⟨before, inner⟩ := parts
      rw [hb] at hcut
      cases hr : readTag d inner with
      | error fault =>
          rw [scanFrom_fault hb hr, scanFrom_fault hcut hr, Place.after_append]
          rfl
      | ok r =>
          have hne : (step d (p.after t) before r).tokens ≠ [] := by
            obtain ⟨line, indent, _, htokens, _, _⟩ := step_spec d (p.after t) before r
            simp [htokens]
          rw [scanFrom_tag hb hr, scanFrom_tag hcut hr,
            step_append d p ht before (isText_of_readTag hr)]
          simp only
          cases scanFrom (nextDelimiters d r.lexeme) (step d (p.after t) before r).place
            (step d (p.after t) before r).rest with
          | error e => rfl
          | ok more => exact congrArg Except.ok (splice_append_back _ hne more).symm

/-! ## Tags in front of the start of a line -/

theorem lineTail?_cons_pad {c : Char} (hc : isPad c = true) (t : Text) :
    lineTail? (c :: t) = (lineTail? t).map fun (tail, below) => (c :: tail, below) := by
  rw [lineTail?, lineTail?]
  simp only [List.takeWhile_cons_of_pos hc, List.dropWhile_cons_of_pos hc]
  split <;> rfl

theorem lineTail?_of_not_isPad {c : Char} (hc : isPad c = false) (t : Text) :
    lineTail? (c :: t) =
      if c = '\n' then some (['\n'], t)
      else if c = '\r' ∧ t.head? = some '\n' then some (['\r', '\n'], t.tail)
      else none := by
  have hn : ¬ isPad c = true := by simp [hc]
  rw [lineTail?]
  simp only [List.takeWhile_cons_of_neg hn, List.dropWhile_cons_of_neg hn]
  split
  · next h => cases h
  · next rest h => cases h; rfl
  · next rest h => cases h; simp
  · next hline hbreak =>
      have h₁ : c ≠ '\n' := by rintro rfl; exact hline _ rfl
      have h₂ : ¬ (c = '\r' ∧ t.head? = some '\n') := by
        rintro ⟨rfl, hh⟩
        cases t with
        | nil => cases hh
        | cons a t => cases hh; exact hbreak _ rfl
      rw [if_neg h₁, if_neg h₂]

/-- Whether a line ends behind a tag is decided on that line. -/
theorem lineTail?_append {t : Text} (hne : t ≠ []) (ht : t.EndsLine) (back : Text) :
    lineTail? (t ++ back) = (lineTail? t).map fun (tail, below) => (tail, below ++ back) := by
  obtain ⟨u, rfl⟩ := ht.resolve_left hne
  clear hne ht
  induction u with
  | nil => simp [lineTail?_of_not_isPad (c := '\n') rfl]
  | cons c u ih =>
      cases hc : isPad c with
      | true =>
          rw [List.cons_append, List.cons_append, lineTail?_cons_pad hc, lineTail?_cons_pad hc, ih,
            Option.map_map, Option.map_map]
          rfl
      | false =>
          rw [List.cons_append, List.cons_append, lineTail?_of_not_isPad hc,
            lineTail?_of_not_isPad hc]
          have hh : (u ++ ['\n'] ++ back).head? = (u ++ ['\n']).head? := by cases u <;> rfl
          have htail : (u ++ ['\n'] ++ back).tail = (u ++ ['\n']).tail ++ back := by
            cases u <;> rfl
          rw [hh, htail]
          split
          · rfl
          · split <;> rfl

theorem step_append_rest (d : Delimiters) (p : Place) (before : Text) {r : Reading}
    (hne : r.rest ≠ []) (hr : r.rest.EndsLine) (back : Text) :
    step d p before { r with rest := r.rest ++ back } =
      { step d p before r with rest := (step d p before r).rest ++ back } := by
  have hl : aloneOnLine? p before (r.rest ++ back) =
      (aloneOnLine? p before r.rest).map fun line => { line with below := line.below ++ back } := by
    rw [aloneOnLine?, aloneOnLine?, lineTail?_append hne hr]
    simp only
    split
    · rfl
    · rw [Option.map_map, Option.map_map]
      rfl
  rw [step, step]
  simp only [hl]
  cases r.lexeme.standsAlone with
  | false => rfl
  | true => cases aloneOnLine? p before r.rest <;> rfl

/-- A tag ends with its closing mark. -/
theorem source_of_readTag {d : Delimiters} {t : Text} {r : Reading} (h : readTag d t = .ok r) :
    ∃ u, r.source = u ++ d.closing := by
  unfold readTag at h
  simp only [bind, Except.bind] at h
  split at h
  · split at h
    · cases h
    · next content rest hc =>
        split at h <;> cases h
        exact ⟨'{' :: content ++ ['}'], by simp⟩
  · split at h
    · cases h
    · next content rest hc =>
        split at h <;> cases h
        exact ⟨content, rfl⟩

/-- No tag ends a line. -/
theorem rest_ne_nil_of_endsLine {d : Delimiters} (hd : d.Solid) {t before inner : Text}
    {r : Reading} (hc : Text.cut? d.opening t = some (before, inner))
    (hr : readTag d inner = .ok r) (ht : t.EndsLine) : r.rest ≠ [] := by
  intro hn
  obtain ⟨u, hu⟩ := source_of_readTag hr
  have he : t = before ++ (d.opening ++ u) ++ d.closing := by
    rw [eq_of_tag hc hr, hn, hu]
    simp
  have hcl : d.closing.EndsLine := (he ▸ ht).of_append
  obtain ⟨v, hv⟩ := hcl.resolve_left d.closing_ne_nil
  have hm : '\n' ∈ d.opening ++ d.closing := by simp [hv]
  exact absurd (hd '\n' hm) (by decide)

/-! ## Whole sources -/

/-- The delimiters in force behind some tokens. -/
def lastDelimiters (d : Delimiters) (tokens : List Token) : Delimiters :=
  tokens.foldl (fun d token => nextDelimiters d token.lexeme) d

theorem nextDelimiters_eq_self (d : Delimiters) {l : Lexeme} (h : ∀ next, l ≠ .delimiterChange next) :
    nextDelimiters d l = d := by
  cases l with
  | delimiterChange next => exact absurd rfl (h next)
  | _ => rfl

theorem lastDelimiters_append (d : Delimiters) (front back : List Token) :
    lastDelimiters d (front ++ back) = lastDelimiters (lastDelimiters d front) back :=
  List.foldl_append

theorem lastDelimiters_textTokens (d : Delimiters) (p : Place) (t : Text) :
    lastDelimiters d (textTokens p t) = d := by
  rcases textTokens_eq p t with ⟨he, _⟩ | ⟨he, _⟩ <;> rw [he] <;> rfl

/-- A scan of a text that ends a line goes on in the same way whatever follows. -/
theorem Scans.append {d : Delimiters} {p : Place} {t : Text} {tokens : List Token}
    (h : Scans d p t tokens) (hd : d.Solid) (ht : t.EndsLine) (back : Text) :
    scanFrom d p (t ++ back) =
      (scanFrom (lastDelimiters d tokens) (p.after t) back).map (splice tokens) := by
  induction h with
  | rest hc =>
      rw [lastDelimiters_textTokens]
      exact scanFrom_append_stretch hd ht hc _ back
  | @tag d p t before inner r more hc hr _ ih =>
      obtain ⟨line, indent, hl, htokens, hplace, hrest⟩ := step_spec d p before r
      have hc' : Text.cut? d.opening (t ++ back) = some (before, inner ++ back) := by
        have h := Text.cut?_append (Text.eq_of_cut? hc ▸ hc) (inner ++ back)
        rw [Text.eq_of_cut? hc]
        simpa using h
      have hr' : readTag d (inner ++ back) = .ok { r with rest := r.rest ++ back } := by
        rw [eq_of_readTag hr, List.append_assoc]
        exact readTag_append hr _
      have he : t = before ++ (d.opening ++ r.source) ++ line.tail ++ line.below := by
        rw [eq_of_tag hc hr, hl.rest_eq]
        simp only [List.append_assoc]
      have hends : r.rest.EndsLine := (eq_of_tag hc hr ▸ ht).of_append
      have hbelow : line.below.EndsLine := (he ▸ ht).of_append
      rw [scanFrom_tag hc' hr', step_append_rest d p before (rest_ne_nil_of_endsLine hd hc hr ht)
        hends]
      simp only
      have hplace' : (step d p before r).place.after (step d p before r).rest = p.after t := by
        rw [hplace, hrest, ← Place.after_append, ← he]
      have hlast : lastDelimiters d ((step d p before r).tokens ++ more) =
          lastDelimiters (nextDelimiters d r.lexeme) more := by
        rw [htokens, lastDelimiters_append, lastDelimiters_append, lastDelimiters_textTokens]
        rfl
      rw [ih (solid_nextDelimiters hd (spoken_readTag hr)) (hrest ▸ hbelow), hplace', hlast]
      have hsplice (others : List Token) : splice ((step d p before r).tokens ++ more) others =
          (step d p before r).tokens ++ splice more others := by
        rw [htokens, List.append_assoc, List.singleton_append,
          splice_append_tag _ (isText_of_readTag hr), List.append_assoc, List.singleton_append]
      cases scanFrom (lastDelimiters (nextDelimiters d r.lexeme) more) (p.after t) back with
      | error e => rfl
      | ok others => exact congrArg Except.ok (hsplice others).symm

/-- A text up to the start of a line gives its tokens whatever follows. What follows gives the
tokens, or the fault, that it gives on its own from the delimiters in force there, further on by
the length and the lines of the text before it. -/
theorem scan_append {d : Delimiters} (hd : d.Solid) {front : Text} (hf : front.EndsLine)
    {tokens : List Token} (h : scan d front = .ok tokens) (back : Text) :
    scan d (front ++ back) =
      match scan (lastDelimiters d tokens) back with
      | .ok more => .ok (splice tokens (more.map (shift front)))
      | .error e => .error (e.shift front) := by
  have hs : Scans d .start front tokens := scanFrom_derivation h
  rw [scan, hs.append hd hf, Place.after_eq_shift hf, scanFrom_shift, ← scan]
  cases scan (lastDelimiters d tokens) back <;> rfl

/-- New marks alone on their line, and a line of text. -/
def barredFront : Text := "{{=| |=}}\na\n".toList

def bars : Delimiters := ⟨['|'], ['|'], by decide, by decide⟩

def barredTokens : List Token :=
  [⟨.delimiterChange bars, .start, 9, 0, 10, some [], .standard⟩, .ofText ⟨10, 2, 1⟩ ['a', '\n']]

/-- The stretch of text runs on into the next line. -/
theorem scan_barred_append :
    Delimiters.standard.Solid ∧ barredFront.EndsLine ∧
      scan .standard barredFront = .ok barredTokens ∧
      scan .standard (barredFront ++ "b|x|".toList) = .ok [barredTokens.head (by decide),
        .ofText ⟨10, 2, 1⟩ ['a', '\n', 'b'],
        ⟨.variable ['x'], ⟨13, 3, 2⟩, 16, 13, 16, none, bars⟩] := by
  have hf : barredFront.EndsLine := .inr ⟨"{{=| |=}}\na".toList, rfl⟩
  have h : scan .standard barredFront = .ok barredTokens := by cbv
  have hb : scan (lastDelimiters .standard barredTokens) "b|x|".toList =
      .ok [.ofText .start ['b'], ⟨.variable ['x'], ⟨1, 1, 2⟩, 4, 1, 4, none, bars⟩] := by cbv
  refine ⟨Delimiters.solid_standard, hf, h, ?_⟩
  rw [scan_append Delimiters.solid_standard hf h, hb]
  rfl

end Token

end Whisker
