import Mathlib
import Whisker.Proofs.Render.Places
import Whisker.Proofs.Template.Body
import Whisker.Proofs.Template.Padding
import Whisker.Proofs.Template.Print

/-! Documents line by line. What whole lines of a source make does not depend on the lines around
them, and a tag that is alone on its line makes a node of its own. -/

namespace Whisker

open Node (Moved)

/-! ## Tokens further on -/

namespace Token

/-- No tag meets the text in front of it. -/
theorem splice_tag (front : List Token) {token : Token} (ht : token.lexeme.isText = false)
    (back : List Token) : splice front (token :: back) = front ++ token :: back := by
  induction front with
  | nil => rfl
  | cons first front ih =>
      cases front with
      | nil =>
          rw [splice]
          split
          · next h => rw [h] at ht; cases ht
          · rfl
      | cons next front => exact congrArg (first :: ·) ih

theorem splice_cons (token : Token) {front : List Token} (hf : front ≠ []) (back : List Token) :
    splice (token :: front) back = token :: splice front back := by
  obtain ⟨first, front, rfl⟩ := List.exists_cons_of_ne_nil hf
  rfl

theorem lastDelimiters_shift (front : Text) (d : Delimiters) (tokens : List Token) :
    lastDelimiters d (tokens.map (shift front)) = lastDelimiters d tokens := by
  rw [lastDelimiters, lastDelimiters, List.foldl_map]
  rfl

/-! ## Lines with one tag -/

/-- What stands between the marks of a tag is read as a lexeme, whatever follows the tag. -/
def Says (said : Text) (l : Lexeme) : Prop :=
  ∀ rest, readTag .standard (said ++ '}' :: '}' :: rest) = .ok ⟨l, said ++ ['}', '}'], rest⟩

/-- A comment may have blanks around what it says. -/
theorem exists_says_comment {c : Text} (hi : ¬ ['}', '}'] <:+: c) (hl : c.getLast? ≠ some '}') :
    ∃ content, Says ('!' :: c) (.comment content) := by
  have hstrip : Text.strip ('!' :: c) = '!' :: (c.reverse.dropWhile Text.isBlank).reverse := by
    have hmark : Text.isBlank '!' = false := rfl
    rw [Text.strip, Text.trim, List.dropWhile_cons_of_neg (by simp [hmark]), List.reverse_cons,
      List.dropWhile_append]
    split
    · next he => simp [List.isEmpty_iff.mp he, hmark]
    · simp
  refine ⟨Text.strip (c.reverse.dropWhile Text.isBlank).reverse, fun rest => ?_⟩
  have hc : Text.cut? Delimiters.standard.closing ('!' :: c ++ '}' :: '}' :: rest) =
      some ('!' :: c, rest) :=
    Text.cut?_append_double (not_infix_cons (by decide) hi) (getLast?_cons_ne (by decide) hl) rest
  rw [List.cons_append] at hc ⊢
  unfold readTag
  simp only [hc, hstrip]
  rfl

/-- A line with nothing but a tag on it, between padding. -/
def loneLine (indent said behind : Text) : Text :=
  indent ++ '{' :: '{' :: said ++ '}' :: '}' :: behind ++ ['\n']

theorem endsLine_loneLine (indent said behind : Text) : (loneLine indent said behind).EndsLine :=
  .inr ⟨_, rfl⟩

theorem not_mem_of_isPadding {t : Text} (h : IsPadding t) {c : Char} (hc : isPad c = false) :
    c ∉ t := by
  intro hm
  rw [h c hm] at hc
  cases hc

theorem lineTail?_padding {behind : Text} (h : IsPadding behind) (rest : Text) :
    lineTail? (behind ++ '\n' :: rest) = some (behind ++ ['\n'], rest) := by
  induction behind with
  | nil => simp [lineTail?_of_not_isPad (c := '\n') rfl]
  | cons c behind ih =>
      obtain ⟨hc, h⟩ := List.forall_mem_cons.mp h
      rw [List.cons_append, lineTail?_cons_pad hc, ih h]
      rfl

theorem scanFrom_nil (p : Place) : scanFrom .standard p [] = .ok [] := scanFrom_rest rfl p

/-- A tag that is alone on its line is one token. Nothing of its line is left to the next. -/
theorem scanFrom_loneLine {indent said behind : Text} {l : Lexeme} (hi : IsPadding indent)
    (hb : IsPadding behind) (hs : Says said l) (hl : l.standsAlone = true)
    (hd : nextDelimiters .standard l = .standard) {p : Place} (hp : p.column = 1) (rest : Text) :
    ∃ token, token.lexeme = l ∧
      scanFrom .standard p (loneLine indent said behind ++ rest) =
        (scanFrom .standard (p.after (loneLine indent said behind)) rest).map (token :: ·) := by
  let line : Line := ⟨[], indent, behind ++ ['\n'], rest⟩
  let reading : Reading := ⟨l, said ++ ['}', '}'], behind ++ '\n' :: rest⟩
  have hmark : ∀ c ∈ indent, c ≠ '{' := by
    rintro c hc rfl
    exact not_mem_of_isPadding hi rfl hc
  have hcut : Text.cut? Delimiters.standard.opening (loneLine indent said behind ++ rest) =
      some (indent, said ++ '}' :: '}' :: (behind ++ '\n' :: rest)) := by
    have hdouble : ¬ ['{', '{'] <:+: indent := by
      intro h
      exact hmark '{' (h.subset (by simp)) rfl
    have hlast : indent.getLast? ≠ some '{' := by
      intro h
      exact hmark '{' (List.mem_of_getLast? h) rfl
    have htext : loneLine indent said behind ++ rest =
        indent ++ '{' :: '{' :: (said ++ '}' :: '}' :: (behind ++ '\n' :: rest)) := by
      simp [loneLine]
    rw [htext]
    exact Text.cut?_append_double hdouble hlast _
  have halone : aloneOnLine? p indent (behind ++ '\n' :: rest) = some line := by
    have hall : indent.all isPad = true := List.all_eq_true.mpr hi
    rw [aloneOnLine?, splitLastLine_of_not_mem (not_mem_of_isPadding hi rfl),
      lineTail?_padding hb]
    simp [hp, hall, line]
  have hstep : step .standard p indent reading = ⟨[tagToken .standard p indent reading line
      (some indent)], .standard, p.after (loneLine indent said behind), rest⟩ := by
    have hplace : ((p.after indent).after (['{', '{'] ++ (said ++ ['}', '}']))).after
        (behind ++ ['\n']) = p.after (loneLine indent said behind) := by
      rw [← Place.after_append, ← Place.after_append]
      simp [loneLine]
    rw [step]
    simp only [reading, hl, if_true, halone, hd, line, textTokens, List.isEmpty_nil,
      List.nil_append, tagToken, Place.offset_after]
    exact congrArg (Step.mk _ _ · _) hplace
  refine ⟨tagToken .standard p indent reading line (some indent), rfl, ?_⟩
  rw [scanFrom_tag hcut (hs _), hstep, hd]
  rfl

end Token

/-! ## Nodes further on -/

namespace Node

open Token (loneLine IsPadding)

/-- Two sequences of nodes one behind the other. Where text meets text they make one node. -/
def splice : List Node → List Node → List Node
  | [], back => back
  | [.text content], .text more :: back => .text (content ++ more) :: back
  | node :: front, back => node :: splice front back

/-- No node of a tag meets the text in front of it. -/
theorem splice_tag (front : List Node) {node : Node} (hn : node.isText = false)
    (back : List Node) : splice front (node :: back) = front ++ node :: back := by
  induction front with
  | nil => rfl
  | cons first front ih =>
      cases front with
      | nil =>
          cases first with
          | text => cases node <;> first | rfl | cases hn
          | _ => rfl
      | cons next front =>
          have hs : splice (first :: next :: front) (node :: back) =
              first :: splice (next :: front) (node :: back) := by cases first <;> rfl
          rw [hs, ih]
          rfl

theorem splice_cons_of_not_isText {node : Node} (hn : node.isText = false)
    (front back : List Node) : splice (node :: front) back = node :: splice front back := by
  cases node <;> first | rfl | cases hn

theorem splice_cons (node : Node) {front : List Node} (hf : front ≠ []) (back : List Node) :
    splice (node :: front) back = node :: splice front back := by
  obtain ⟨first, front, rfl⟩ := List.exists_cons_of_ne_nil hf
  cases node <;> rfl

theorem isText_of_leaf? {token : Token} {node : Node} (h : leaf? token = some node) :
    node.isText = token.lexeme.isText := by
  rw [leaf?] at h
  split at h <;> rename_i hl
  case h_7 =>
      obtain ⟨call, -, rfl⟩ := Option.map_eq_some_iff.mp h
      exact (congrArg Lexeme.isText hl).symm
  all_goals cases h <;> exact (congrArg Lexeme.isText hl).symm

theorem exists_text {l : Lexeme} (h : l.isText = true) : ∃ content, l = .text content := by
  cases l <;> first | exact ⟨_, rfl⟩ | cases h

theorem moved_of_leaf? {token : Token} {node : Node} (h : leaf? token = some node)
    (front : Text) : ∃ node', leaf? (token.shift front) = some node' ∧ node.Moved node' := by
  have hlexeme : (token.shift front).lexeme = token.lexeme := rfl
  unfold leaf? at h ⊢
  rw [hlexeme]
  split at h <;> rename_i hl
  case h_7 =>
      obtain ⟨call, hc, rfl⟩ := Option.map_eq_some_iff.mp h
      exact ⟨.pragma call (token.shift front).place, by simp [hc], .pragma⟩
  all_goals cases h
  · exact ⟨_, rfl, .text⟩
  · exact ⟨_, rfl, .variable⟩
  · exact ⟨_, rfl, .variable⟩
  · exact ⟨_, rfl, .comment⟩
  · exact ⟨_, rfl, .delimiterChange⟩
  · exact ⟨_, rfl, .inclusion⟩

namespace Grown

variable {source : Text} {tokens : List Token} {nodes : List Node}

/-- Behind another text the same nodes grow, at other places. -/
theorem shift (h : Grown source tokens nodes) (front : Text) :
    ∃ nodes', Grown (front ++ source) (tokens.map (Token.shift front)) nodes' ∧
      List.Forall₂ Moved nodes nodes' := by
  induction h with
  | nil => exact ⟨[], .nil, .nil⟩
  | leaf hl _ ih =>
      obtain ⟨node', hl', hn⟩ := moved_of_leaf? hl front
      obtain ⟨nodes', hg, hm⟩ := ih
      exact ⟨node' :: nodes', .leaf hl' hg, .cons hn hm⟩
  | @enclosure opening inner closing rest kind name children nodes ho hc _ _ ihi ihr =>
      obtain ⟨children', hgi, hmi⟩ := ihi
      obtain ⟨nodes', hgr, hmr⟩ := ihr
      have ho' : (opening.shift front).lexeme = .opening kind name := ho
      have hc' : (closing.shift front).lexeme = .closing name := hc
      have hbody : Text.slice (front ++ source) (opening.shift front).stop
          (closing.shift front).place.offset =
            Text.slice source opening.stop closing.place.offset :=
        Text.slice_append_right front source _ _
      have hg := Grown.enclosure ho' hc' hgi hgr
      rw [hbody] at hg
      refine ⟨.enclosure kind name children' (Text.slice source opening.stop closing.place.offset)
        opening.delimiters (opening.place.shift front) (opening.indent.getD []) :: nodes', ?_,
        .cons (.enclosure hmi) hmr⟩
      rw [List.map_cons, List.map_append, List.map_cons]
      exact hg

/-- In front of another text the same nodes grow. -/
theorem extend (h : Grown source tokens nodes)
    (hle : ∀ token ∈ tokens, token.place.offset ≤ source.length) (back : Text) :
    Grown (source ++ back) tokens nodes := by
  induction h with
  | nil => exact .nil
  | leaf hl _ ih => exact .leaf hl (ih fun token hm => hle token (List.mem_cons_of_mem _ hm))
  | @enclosure opening inner closing rest kind name children nodes ho hc _ _ ihi ihr =>
      have hclosing : closing.place.offset ≤ source.length := hle closing (by simp)
      rw [← Text.slice_append_left hclosing opening.stop back]
      exact .enclosure ho hc (ihi fun token hm => hle token (by simp [hm]))
        (ihr fun token hm => hle token (by simp [hm]))

theorem ne_nil (h : Grown source tokens nodes) (ht : tokens ≠ []) : nodes ≠ [] := by
  cases h <;> simp at ht ⊢

/-- Text that meets text grows into one node. -/
theorem splice_leaf {token : Token} {node : Node} (hl : leaf? token = some node)
    {back : List Token} {others : List Node} (hb : Grown source back others) :
    Grown source (Token.splice [token] back) (Node.splice [node] others) := by
  have hleaf := Grown.leaf hl hb
  have htext := isText_of_leaf? hl
  cases ht : token.lexeme.isText with
  | false =>
      rw [Token.splice_of_not_isText ht, splice_cons_of_not_isText (htext.trans ht)]
      exact hleaf
  | true =>
      cases hb with
      | nil =>
          have hs : Node.splice [node] [] = [node] := by cases node <;> rfl
          rw [hs]
          exact hleaf
      | @leaf other _ node' _ hl' hr =>
          have htext' := isText_of_leaf? hl'
          cases ht' : other.lexeme.isText with
          | false =>
              rw [Token.splice_tag _ ht', splice_tag _ (htext'.trans ht')]
              exact hleaf
          | true =>
              obtain ⟨content, hc⟩ := exists_text ht
              obtain ⟨more, hc'⟩ := exists_text ht'
              rw [leaf?, hc] at hl
              rw [leaf?, hc'] at hl'
              cases hl
              cases hl'
              simp only [Token.splice, hc, hc', Node.splice]
              exact .leaf rfl hr
      | @enclosure opening _ _ _ _ _ _ _ ho =>
          have hopening : opening.lexeme.isText = false := by rw [ho]; rfl
          rw [Token.splice_tag _ hopening, splice_tag _ rfl]
          exact hleaf

theorem splice {front back : List Token} {others : List Node} (hf : Grown source front nodes)
    (hb : Grown source back others) :
    Grown source (Token.splice front back) (Node.splice nodes others) := by
  induction hf with
  | nil => exact hb
  | @leaf token rest node nodes hl hr ih =>
      by_cases hrest : rest = []
      · subst hrest
        cases hr
        exact splice_leaf hl hb
      · rw [Token.splice_cons token hrest, splice_cons node (hr.ne_nil hrest)]
        exact .leaf hl ih
  | @enclosure opening inner closing rest kind name children nodes ho hc hi _ _ ih =>
      have hclosing : closing.lexeme.isText = false := by rw [hc]; rfl
      have htokens : Token.splice (opening :: (inner ++ closing :: rest)) back =
          opening :: (inner ++ closing :: Token.splice rest back) := by
        rw [← List.cons_append, Token.splice_append_tag _ hclosing, List.cons_append]
      rw [htokens, splice_cons_of_not_isText rfl]
      exact .enclosure ho hc hi ih

end Grown

/-! ## Whole lines -/

/-- A document of whole lines that leave the delimiters as they are. -/
structure Whole (d : Delimiters) (t : Text) (nodes : List Node) : Prop where
  ends : t.EndsLine
  scanned : ∃ tokens, Token.scan d t = .ok tokens ∧ Grown t tokens nodes ∧
    Token.lastDelimiters d tokens = d

/-- A token of a change of delimiters has a node. -/
theorem Grown.within_of_mem {source : Text} {tokens : List Token} {nodes : List Node}
    (h : Grown source tokens nodes) {token : Token} (hm : token ∈ tokens) {next : Delimiters}
    (hl : token.lexeme = .delimiterChange next) : Within (.delimiterChange next) nodes := by
  induction h with
  | nil => cases hm
  | leaf hleaf _ ih =>
      rcases List.mem_cons.mp hm with rfl | hm
      · rw [leaf?, hl] at hleaf
        cases hleaf
        exact .head
      · exact .tail (ih hm)
  | enclosure ho hc _ _ ihi ihr =>
      rcases List.mem_cons.mp hm with rfl | hm
      · rw [hl] at ho
        cases ho
      · rcases List.mem_append.mp hm with hm | hm
        · exact .inside (ihi hm)
        · rcases List.mem_cons.mp hm with rfl | hm
          · rw [hl] at hc
            cases hc
          · exact .tail (ihr hm)

theorem lastDelimiters_eq {d : Delimiters} {tokens : List Token}
    (h : ∀ token ∈ tokens, ∀ next, token.lexeme ≠ .delimiterChange next) :
    Token.lastDelimiters d tokens = d := by
  induction tokens with
  | nil => rfl
  | cons token tokens ih =>
      obtain ⟨ht, h⟩ := List.forall_mem_cons.mp h
      rw [Token.lastDelimiters, List.foldl_cons, Token.nextDelimiters_eq_self d ht]
      exact ih h

theorem exists_grown_of_parse {d : Delimiters} {t : Text} {nodes : List Node}
    (h : parse d t = .ok nodes) :
    ∃ tokens, Token.scan d t = .ok tokens ∧ Grown t tokens nodes := by
  obtain ⟨tokens, hscan, hnodes⟩ := parse_eq_ok_iff.mp h
  have hs : ∀ token ∈ tokens, token.Scanned := fun token hm => ⟨d, t, tokens, hscan, hm⟩
  exact ⟨tokens, hscan, (ofTokens_eq_ok_iff hs).mp hnodes⟩

theorem parse_of_grown {d : Delimiters} {t : Text} {tokens : List Token} {nodes : List Node}
    (hscan : Token.scan d t = .ok tokens) (h : Grown t tokens nodes) : parse d t = .ok nodes := by
  have hs : ∀ token ∈ tokens, token.Scanned := fun token hm => ⟨d, t, tokens, hscan, hm⟩
  exact parse_eq_ok_iff.mpr ⟨tokens, hscan, (ofTokens_eq_ok_iff hs).mpr h⟩

theorem whole_of_parse {d : Delimiters} {t : Text} {nodes : List Node} (h : parse d t = .ok nodes)
    (ht : t.EndsLine) (hd : ∀ next, ¬ Within (.delimiterChange next) nodes) : Whole d t nodes := by
  obtain ⟨tokens, hscan, hg⟩ := exists_grown_of_parse h
  refine ⟨ht, tokens, hscan, hg, lastDelimiters_eq fun token hm next hl => ?_⟩
  exact hd next (hg.within_of_mem hm hl)

/-- Whole lines give their nodes whatever follows, and what follows gives the nodes that it gives
on its own. Only text may meet text. -/
theorem Whole.parse_append {d : Delimiters} (hd : d.Solid) {front back : Text}
    {nodes others : List Node} (hf : Whole d front nodes) (hb : parse d back = .ok others) :
    ∃ others', parse d (front ++ back) = .ok (splice nodes others') ∧
      List.Forall₂ Moved others others' := by
  obtain ⟨hends, tokens, hscan, hg, hlast⟩ := hf
  obtain ⟨more, hmore, hgb⟩ := exists_grown_of_parse hb
  obtain ⟨others', hg', hmoved⟩ := hgb.shift front
  refine ⟨others', parse_of_grown ?_ ((hg.extend (Token.offset_le_of_scan hscan) back).splice hg'),
    hmoved⟩
  have hscans : Token.Scans d .start front tokens := Token.scanFrom_derivation hscan
  rw [Token.scan, hscans.append hd hends, hlast, Place.after_eq_shift hends, Token.scanFrom_shift,
    ← Token.scan, hmore]
  rfl

/-! ## Lines with tags -/

section

variable {indent behind : Text} (hi : IsPadding indent) (hb : IsPadding behind)
include hi hb

/-- A comment on a line of its own. -/
theorem exists_whole_comment {c : Text} (hc : ¬ ['}', '}'] <:+: c) (hl : c.getLast? ≠ some '}') :
    ∃ content, Whole .standard (loneLine indent ('!' :: c) behind) [.comment content] := by
  obtain ⟨content, hsays⟩ := Token.exists_says_comment hc hl
  obtain ⟨token, hlexeme, hscan⟩ :=
    Token.scanFrom_loneLine hi hb hsays rfl rfl (p := .start) rfl []
  rw [List.append_nil, Token.scanFrom_nil] at hscan
  refine ⟨content, Token.endsLine_loneLine _ _ _, [token], hscan, .leaf ?_ .nil, ?_⟩
  · rw [leaf?, hlexeme]
  · rw [Token.lastDelimiters, List.foldl_cons, hlexeme]
    rfl

omit hi hb in
/-- Lines between a text that is one opening tag and another one that is the closing tag for it. -/
theorem Whole.enclose {front t back : Text} {nodes : List Node} (h : Whole .standard t nodes)
    {opening closing : Token} {kind : Enclosure} {name : Text}
    (hopening : opening.lexeme = .opening kind name) (hclosing : closing.lexeme = .closing name)
    (hfront : front.EndsLine) (hback : (t ++ back).EndsLine)
    (hopen : Token.scanFrom .standard .start (front ++ (t ++ back)) =
      (Token.scanFrom .standard (Place.start.after front) (t ++ back)).map (opening :: ·))
    (hclose : Token.scanFrom .standard (Place.start.after t) back = .ok [closing]) :
    ∃ children body d place padding, Whole .standard (front ++ (t ++ back))
      [.enclosure kind name children body d place padding] := by
  obtain ⟨hends, tokens, hscan, hg, hlast⟩ := h
  have hinner : Token.scan .standard (t ++ back) = .ok (tokens ++ [closing]) := by
    have hscans : Token.Scans .standard .start t tokens := Token.scanFrom_derivation hscan
    have htag : closing.lexeme.isText = false := by rw [hclosing]; rfl
    rw [Token.scan, hscans.append Delimiters.solid_standard hends, hlast, hclose,
      ← Token.splice_tag tokens htag]
    rfl
  have hwhole : Token.scan .standard (front ++ (t ++ back)) =
      .ok (opening :: (tokens.map (Token.shift front) ++ [closing.shift front])) := by
    rw [Token.scan, hopen, Place.after_eq_shift hfront, Token.scanFrom_shift, ← Token.scan, hinner]
    simp [Token.shiftResult, Except.map]
  obtain ⟨children, hchildren, -⟩ :=
    (hg.extend (Token.offset_le_of_scan hscan) back).shift front
  have hclosing' : (closing.shift front).lexeme = .closing name := hclosing
  refine ⟨children, _, _, _, _, ?_, _, hwhole, .enclosure hopening hclosing' hchildren .nil, ?_⟩
  · exact .append hfront hback
  · have hbehind : Token.lastDelimiters .standard [closing.shift front] = .standard := by
      rw [Token.lastDelimiters, List.foldl_cons, hclosing']
      rfl
    have hin : Token.nextDelimiters .standard opening.lexeme = .standard := by
      rw [hopening]
      rfl
    rw [Token.lastDelimiters, List.foldl_cons, hin, ← Token.lastDelimiters,
      Token.lastDelimiters_append, Token.lastDelimiters_shift, hlast, hbehind]

variable {indent' behind' : Text} (hi' : IsPadding indent') (hb' : IsPadding behind')
include hi' hb'

/-- Lines between two tags that are alone on their lines. -/
theorem Whole.exists_enclosure {t : Text} {nodes : List Node} (h : Whole .standard t nodes)
    (kind : Enclosure) {name : Text} (hn : name ≠ []) (he : Enclosable name) :
    ∃ children body d place padding, Whole .standard
      (loneLine indent (kind.sigil :: name) behind ++ (t ++ loneLine indent' ('/' :: name) behind'))
      [.enclosure kind name children body d place padding] := by
  have hopens : Token.Says (kind.sigil :: name) (.opening kind name) :=
    (Token.legible_opening kind hn he).readTag
  have hcloses : Token.Says ('/' :: name) (.closing name) := (Token.legible_closing hn he).readTag
  have hstart : (Place.start.after t).column = 1 := Place.column_after_of_endsLine rfl h.ends
  have hback := Token.endsLine_loneLine indent' ('/' :: name) behind'
  obtain ⟨opening, hopening, hopen⟩ := Token.scanFrom_loneLine hi hb hopens rfl rfl
    (p := .start) rfl (t ++ loneLine indent' ('/' :: name) behind')
  obtain ⟨closing, hclosing, hclose⟩ := Token.scanFrom_loneLine hi' hb' hcloses rfl rfl hstart []
  rw [List.append_nil, Token.scanFrom_nil] at hclose
  exact h.enclose hopening hclosing (Token.endsLine_loneLine _ _ _) (.append h.ends hback) hopen
    hclose

end

/-! ## A node between lines -/

mutual

theorem Moved.trans {a b c : Node} (h : a.Moved b) (h' : b.Moved c) : a.Moved c := by
  cases a with
  | enclosure kind name children body d place indent =>
      cases h with
      | enclosure hc =>
          cases h' with
          | enclosure hc' => exact .enclosure (forall₂_moved_trans hc hc')
  | _ =>
      cases h
      cases h'
      constructor

theorem forall₂_moved_trans {as bs cs : List Node} (h : List.Forall₂ Moved as bs)
    (h' : List.Forall₂ Moved bs cs) : List.Forall₂ Moved as cs := by
  cases as with
  | nil =>
      cases h
      exact h'
  | cons a as =>
      cases h with
      | cons ha has =>
          cases h' with
          | cons hb hbs => exact .cons (Moved.trans ha hb) (forall₂_moved_trans has hbs)

end

/-- Lines that make one node put that node between the nodes of the lines around them. -/
theorem parse_between {d : Delimiters} (hd : d.Solid) {front middle back : Text}
    {nodes others : List Node} {node : Node} (hf : Whole d front nodes)
    (hm : Whole d middle [node]) (hn : node.isText = false) (hb : parse d back = .ok others) :
    ∃ node' others', parse d (front ++ (middle ++ back)) = .ok (nodes ++ node' :: others') ∧
      node.Moved node' ∧ List.Forall₂ Moved others others' := by
  obtain ⟨rest, hrest, hmoved⟩ := hm.parse_append hd hb
  rw [splice_cons_of_not_isText hn] at hrest
  obtain ⟨all, hall, hmoved'⟩ := hf.parse_append hd hrest
  cases hmoved' with
  | @cons _ node' _ others' hnode hothers =>
      have hn' : node'.isText = false := by cases hnode <;> first | rfl | cases hn
      rw [splice_tag nodes hn'] at hall
      exact ⟨node', others', hall, hnode, forall₂_moved_trans hmoved hothers⟩

end Node

end Whisker
