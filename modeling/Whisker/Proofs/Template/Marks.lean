import Mathlib
import Whisker.Proofs.Template.Append
import Whisker.Proofs.Template.Tiling

/-! Marks along a scan. Each tag stands between the marks that the last change before it names, and
ends where its closing mark is first found; no opening mark is left in a stretch of text. -/

namespace Whisker

namespace Text

/-- The mark between the two texts does not start any earlier. -/
def FirstBetween (mark before after : Text) : Prop :=
  ∀ u v, before ++ mark ++ after = u ++ mark ++ v → before.length ≤ u.length

theorem firstBetween_of_cut? {mark t before after : Text}
    (h : cut? mark t = some (before, after)) : FirstBetween mark before after := by
  intro u v he
  rw [← eq_of_cut? h] at he
  induction t generalizing before u with
  | nil =>
      rw [cut?] at h
      split at h <;> cases h
      exact Nat.zero_le _
  | cons c t ih =>
      rw [cut?] at h
      split at h
      · cases h
        exact Nat.zero_le _
      · next hn =>
          obtain ⟨⟨first, last⟩, hc, hb⟩ := Option.map_eq_some_iff.mp h
          cases hb
          cases u with
          | nil =>
              refine absurd (List.isPrefixOf_iff_prefix.mpr ?_) hn
              exact ⟨v, he.symm⟩
          | cons a u =>
              obtain ⟨-, ht⟩ := List.cons.inj he
              exact Nat.succ_le_succ (ih hc u ht)

end Text

namespace Token

/-! ## Delimiters in force -/

/-- The delimiters behind some tokens: those of the last change, or the first ones. -/
inductive InForce (d : Delimiters) : List Token → Delimiters → Prop where
  | first {front} (h : ∀ token ∈ front, ∀ next, token.lexeme ≠ .delimiterChange next) :
      InForce d front d
  | changed {front change between next} (hc : change.lexeme = .delimiterChange next)
      (h : ∀ token ∈ between, ∀ other, token.lexeme ≠ .delimiterChange other) :
      InForce d (front ++ change :: between) next

theorem inForce_lastDelimiters (d : Delimiters) (front : List Token) :
    InForce d front (lastDelimiters d front) := by
  induction front using List.reverseRecOn with
  | nil => exact .first (by simp)
  | append_singleton front token ih =>
      have hstep : lastDelimiters d (front ++ [token]) =
          nextDelimiters (lastDelimiters d front) token.lexeme := lastDelimiters_append d front [token]
      rw [hstep]
      by_cases hc : ∃ next, token.lexeme = .delimiterChange next
      · obtain ⟨next, hc⟩ := hc
        rw [hc]
        exact .changed hc (by simp)
      · have hnot : ∀ next, token.lexeme ≠ .delimiterChange next := by simpa using hc
        rw [nextDelimiters_eq_self _ hnot]
        generalize lastDelimiters d front = last at ih
        cases ih with
        | first h => exact .first (List.forall_mem_append.mpr ⟨h, by simpa using hnot⟩)
        | @changed front change between _ hchange h =>
            rw [List.append_assoc, List.cons_append]
            exact .changed hchange (List.forall_mem_append.mpr ⟨h, by simpa using hnot⟩)

/-! ## Tags between their marks -/

/-- A tag and what follows it. It starts with the opening mark and ends with the first closing mark;
a brace right behind the opening mark asks for one before the closing mark. -/
inductive Marked (d : Delimiters) : Text → Text → Prop where
  | plain {content rest} (hb : (content ++ d.closing ++ rest).head? ≠ some '{')
      (hf : Text.FirstBetween d.closing content rest) :
      Marked d (d.opening ++ (content ++ d.closing)) rest
  | braced {content rest} (hf : Text.FirstBetween ('}' :: d.closing) content rest) :
      Marked d (d.opening ++ ('{' :: content ++ '}' :: d.closing)) rest

theorem marked_of_readTag {d : Delimiters} {t : Text} {r : Reading} (h : readTag d t = .ok r) :
    Marked d (d.opening ++ r.source) r.rest := by
  unfold readTag at h
  simp only [bind, Except.bind] at h
  split at h
  · split at h
    · cases h
    · next hc =>
        split at h <;> cases h
        exact .braced (Text.firstBetween_of_cut? hc)
  · next hnot =>
      split at h
      · cases h
      · next hc =>
          split at h <;> cases h
          refine .plain (fun hb => ?_) (Text.firstBetween_of_cut? hc)
          rw [← Text.eq_of_cut? hc] at hb
          obtain ⟨inner, rfl⟩ := List.head?_eq_some_iff.mp hb
          exact hnot inner rfl

/-! ## The scan -/

/-- A token under the delimiters in force: a tag stands between their marks, and in a stretch of
text no opening mark starts. -/
structure Guided (source : Text) (d : Delimiters) (token : Token) : Prop where
  delimiters_eq : token.lexeme.isText = false → token.delimiters = d
  marked : token.lexeme.isText = false →
    Marked d (Text.slice source token.place.offset token.stop) (source.drop token.stop)
  unmarked : token.lexeme.isText = true →
    ∀ i, token.place.offset ≤ i → i < token.stop → ¬ d.opening <+: source.drop i

/-- Each token is under the delimiters in force there. -/
def AllGuided (source : Text) : Delimiters → List Token → Prop
  | _, [] => True
  | d, token :: tokens =>
    Guided source d token ∧ AllGuided source (nextDelimiters d token.lexeme) tokens

theorem allGuided_append {source : Text} {d : Delimiters} {front back : List Token} :
    AllGuided source d (front ++ back) ↔
      AllGuided source d front ∧ AllGuided source (lastDelimiters d front) back := by
  induction front generalizing d with
  | nil => simp [AllGuided, lastDelimiters]
  | cons token front ih =>
      rw [List.cons_append, AllGuided, AllGuided, ih, and_assoc]
      rfl

theorem allGuided_textTokens {source : Text} {d : Delimiters} {p : Place} {content : Text}
    (h : ∀ i, p.offset ≤ i → i < p.offset + content.length → ¬ d.opening <+: source.drop i) :
    AllGuided source d (textTokens p content) := by
  rcases textTokens_eq p content with ⟨he, -⟩ | ⟨he, -⟩
  · rw [he]
    trivial
  · rw [he]
    exact ⟨⟨fun ht => (Bool.noConfusion ht), fun ht => (Bool.noConfusion ht), fun _ => h⟩, trivial⟩

theorem not_prefix_of_cut?_eq_none {mark t : Text} (hc : Text.cut? mark t = none) (i : Nat) :
    ¬ mark <+: t.drop i := by
  intro hp
  exact Text.cut?_eq_none_iff.mp hc (hp.isInfix.trans (List.drop_suffix i t).isInfix)

/-- Before the first mark no mark starts. -/
theorem not_prefix_of_cut? {mark t before after : Text} (hc : Text.cut? mark t = some (before, after))
    {i : Nat} (hi : i < before.length) : ¬ mark <+: t.drop i := by
  rintro ⟨v, hv⟩
  have ht : before ++ mark ++ after = t.take i ++ mark ++ v := by
    rw [← Text.eq_of_cut? hc, List.append_assoc, hv, List.take_append_drop]
  have hle := Text.firstBetween_of_cut? hc _ _ ht
  have htake := List.length_take_le i t
  omega

theorem drop_append_of_le {front : Text} {i : Nat} (hi : front.length ≤ i) (t : Text) :
    (front ++ t).drop i = t.drop (i - front.length) := by
  rw [List.drop_append, List.drop_eq_nil_of_le hi, List.nil_append]

theorem guided_tagToken {d : Delimiters} {front before inner : Text} {r : Reading} {p : Place}
    (hp : p.offset = front.length) (hr : readTag d inner = .ok r) (line : Line)
    (indent : Option Text) :
    Guided (front ++ before ++ (d.opening ++ r.source) ++ r.rest) d
      (tagToken d p before r line indent) := by
  have htext : (tagToken d p before r line indent).lexeme.isText = false := by
    have hl := lexeme_ne_text hr
    simp only [tagToken]
    cases hlexeme : r.lexeme with
    | text content => exact absurd hlexeme (hl content)
    | _ => rfl
  have hoffset : (p.after before).offset = (front ++ before).length := by simp [hp]
  refine ⟨fun _ => rfl, fun _ => ?_, fun ht => by rw [htext] at ht; cases ht⟩
  have hslice := Text.slice_middle (front ++ before) (d.opening ++ r.source) r.rest hoffset
    (Eq.refl ((p.after before).offset + (d.opening ++ r.source).length))
  have hstop : p.offset + before.length + (d.opening ++ r.source).length =
      (front ++ before ++ (d.opening ++ r.source)).length := by
    simp only [hp, List.length_append]
  simp only [tagToken]
  rw [Place.offset_after] at hslice
  rw [Place.offset_after, hslice, hstop, List.drop_left]
  exact marked_of_readTag hr

theorem Scans.guided {d : Delimiters} {p : Place} {t : Text} {tokens : List Token}
    (h : Scans d p t tokens) {front : Text} (hp : p.offset = front.length) :
    AllGuided (front ++ t) d tokens := by
  induction h generalizing front with
  | rest hc =>
      refine allGuided_textTokens fun i hi _ => ?_
      rw [drop_append_of_le (hp ▸ hi)]
      exact not_prefix_of_cut?_eq_none hc _
  | @tag d p t before inner r more hc hr _ ih =>
      obtain ⟨line, indent, hl, htokens, hplace, hrest⟩ := step_spec d p before r
      have ht := eq_of_tag hc hr
      have hafter : front ++ before ++ (d.opening ++ r.source) ++ line.tail ++
          (step d p before r).rest = front ++ t := by
        rw [ht, hrest, hl.rest_eq]
        simp only [List.append_assoc]
      have hlast : lastDelimiters d (textTokens p line.above ++ [tagToken d p before r line indent]) =
          nextDelimiters d r.lexeme := by
        rw [lastDelimiters_append, lastDelimiters_textTokens]
        rfl
      rw [htokens, allGuided_append, allGuided_append, lastDelimiters_textTokens, hlast]
      refine ⟨⟨allGuided_textTokens fun i hi hlt => ?_, ?_, trivial⟩, ?_⟩
      · have hlen := congrArg List.length hl.before_eq
        rw [List.length_append] at hlen
        rw [drop_append_of_le (hp ▸ hi)]
        exact not_prefix_of_cut? hc (by omega)
      · have htag : Guided (front ++ before ++ (d.opening ++ r.source) ++ r.rest) d
            (tagToken d p before r line indent) := guided_tagToken hp hr line indent
        rw [ht]
        simpa only [List.append_assoc] using htag
      · rw [← hafter]
        refine ih ?_
        rw [hplace]
        simp [hp]

/-- Whatever the delimiters are, each tag of a scan stands between the marks that the last change
before it names, or the first ones, and ends at the first closing mark in it. No opening mark in
force starts in a stretch of text. -/
theorem scan_guided {d : Delimiters} {source : Text} {tokens : List Token}
    (h : scan d source = .ok tokens) {front back : List Token} {token : Token}
    (ht : tokens = front ++ token :: back) :
    ∃ inForce, InForce d front inForce ∧ Guided source inForce token := by
  have hs : Scans d .start source tokens := scanFrom_derivation h
  have hall : AllGuided ([] ++ source) d tokens := hs.guided rfl
  rw [List.nil_append, ht, allGuided_append] at hall
  exact ⟨_, inForce_lastDelimiters d front, hall.2.1⟩

/-- Single braces are the marks behind the change, so that double ones are those of a raw variable. -/
def bracedSource : Text := "{{={ }=}}a{{x}}".toList

theorem bracedSource_guided :
    let braces : Delimiters := ⟨['{'], ['}'], by decide, by decide⟩
    let change : Token := ⟨.delimiterChange braces, .start, 9, 0, 9, none, .standard⟩
    let letter : Token := .ofText ⟨9, 1, 10⟩ ['a']
    let variable_ : Token := ⟨.raw ['x'], ⟨10, 1, 11⟩, 15, 10, 15, none, braces⟩
    scan .standard bracedSource = .ok [change, letter, variable_] ∧
      (∃ inForce, InForce .standard [change] inForce ∧ Guided bracedSource inForce letter) ∧
      ∃ inForce, InForce .standard [change, letter] inForce ∧
        Guided bracedSource inForce variable_ := by
  intro braces change letter variable_
  have h : scan .standard bracedSource = .ok [change, letter, variable_] := by cbv
  exact ⟨h, scan_guided h (rfl : _ = [change] ++ letter :: [variable_]),
    scan_guided h (rfl : _ = [change, letter] ++ variable_ :: [])⟩

end Token

end Whisker
