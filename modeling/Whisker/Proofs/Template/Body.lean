import Whisker.Library.Loader
import Whisker.Proofs.Template.Nesting
import Whisker.Proofs.Template.Stretch
import Whisker.Proofs.Template.Tiling

/-! Bodies of enclosures. The source between two tags of an enclosure, read on its own, has the same
tags and makes a tree like the children of the enclosure; only padding and line breaks around lone
tags may differ. -/

namespace Whisker

/-! ## Tokens of one source, seen from two places -/

namespace Token

/-- The same tag, `offset` further on. -/
structure ShiftedBy (offset : Nat) (token other : Token) : Prop where
  lexeme_eq : token.lexeme = other.lexeme
  delimiters_eq : token.delimiters = other.delimiters
  start_eq : token.place.offset = offset + other.place.offset
  stop_eq : token.stop = offset + other.stop

theorem IsOf.shiftedBy {m n offset : Nat} {token other : Token} {gap : Text} {tag : Tag}
    (h : IsOf token m gap tag) (ho : IsOf other n gap tag) (hn : m = offset + n) :
    ShiftedBy offset token other := by
  have hstart : token.place.offset = offset + other.place.offset := by
    rw [h.offset_eq, ho.offset_eq, hn, Nat.add_assoc]
  refine ⟨h.lexeme_eq.trans ho.lexeme_eq.symm, h.delimiters_eq.trans ho.delimiters_eq.symm,
    hstart, ?_⟩
  rw [h.stop_eq, ho.stop_eq, hstart, Nat.add_assoc]

/-- Tokens of the same stretches and tags. What lone tags cut off the stretches may differ. -/
inductive Match (offset : Nat) : List Token → List Token → Prop where
  | nil : Match offset [] []
  | stretch {p q gap content other tokens others} (hc : Trims gap content) (ho : Trims gap other)
      (hm : Match offset tokens others) :
      Match offset (textTokens p content ++ tokens) (textTokens q other ++ others)
  | tag {token other tokens others} (ht : ShiftedBy offset token other)
      (hs : Spoken token.lexeme) (hm : Match offset tokens others) :
      Match offset (token :: tokens) (other :: others)

theorem Shows.match {m n offset : Nat} {tokens others : List Token} {items : List (Text × Tag)}
    {last : Text} (h : Shows m tokens items last) (ho : Shows n others items last)
    (hn : m = offset + n) : Match offset tokens others := by
  induction h generalizing n others with
  | last hg =>
      cases ho with
      | last hg' => simpa using Match.stretch hg hg' .nil
  | tag hg hi hs ih =>
      cases ho with
      | tag hg' hi' hs' =>
          have hshift := hi.shiftedBy hi' hn
          exact .stretch hg hg' (.tag hshift (hi.lexeme_eq ▸ hi.spoken) (ih hs' hshift.stop_eq))

/-- The tokens of tags. -/
def tagsOf (tokens : List Token) : List Token := tokens.filter fun token => !token.lexeme.isText

theorem tagsOf_textTokens (p : Place) (content : Text) (tokens : List Token) :
    tagsOf (textTokens p content ++ tokens) = tagsOf tokens := by
  rw [tagsOf, List.filter_append, List.filter_eq_nil_iff.mpr, List.nil_append]
  · rfl
  · intro token hm
    simp [isText_of_mem_textTokens hm]

theorem not_isText_of_spoken {lexeme : Lexeme} (h : Spoken lexeme) : lexeme.isText = false := by
  cases lexeme
  case text => exact h.elim
  all_goals rfl

theorem Match.tags {offset : Nat} {tokens others : List Token} (h : Match offset tokens others) :
    List.Forall₂ (ShiftedBy offset) (tagsOf tokens) (tagsOf others) := by
  induction h with
  | nil => exact .nil
  | stretch _ _ _ ih =>
      rw [tagsOf_textTokens, tagsOf_textTokens]
      exact ih
  | @tag token other tokens others ht hs _ ih =>
      have hl := not_isText_of_spoken hs
      have hl' := ht.lexeme_eq ▸ hl
      simpa [tagsOf, List.filter_cons, hl, hl'] using List.Forall₂.cons ht ih

end Token

/-! ## Alike trees -/

namespace Node

open Token

/-- The node of a stretch, if it is not empty. -/
def textNodes (content : Text) : List Node := if content.isEmpty then [] else [.text content]

/-- Nodes in the same order, related one by one. Two stretches may differ in the padding and the
line break at their ends that lone tags cut off; one of which nothing is left has no node. -/
inductive AlikeBy (R : Node → Node → Prop) : List Node → List Node → Prop where
  | nil : AlikeBy R [] []
  | stretch {gap content other nodes others} (hc : Trims gap content) (ho : Trims gap other)
      (hn : AlikeBy R nodes others) :
      AlikeBy R (textNodes content ++ nodes) (textNodes other ++ others)
  | node {node other nodes others} (hn : R node other) (hr : AlikeBy R nodes others) :
      AlikeBy R (node :: nodes) (other :: others)

/-- Nodes other than text that differ in nothing but places, indents and the text inside them. -/
inductive AlikeNode : Node → Node → Prop where
  | variable {name escaped place other} :
      AlikeNode (.variable name escaped place) (.variable name escaped other)
  | comment {content} : AlikeNode (.comment content) (.comment content)
  | delimiterChange {next} : AlikeNode (.delimiterChange next) (.delimiterChange next)
  | pragma {call place other} : AlikeNode (.pragma call place) (.pragma call other)
  | inclusion {name indent other} : AlikeNode (.inclusion name indent) (.inclusion name other)
  | enclosure {kind name children others body d place place' indent indent'}
      (hc : AlikeBy AlikeNode children others) :
      AlikeNode (.enclosure kind name children body d place indent)
        (.enclosure kind name others body d place' indent')

abbrev Alike : List Node → List Node → Prop := AlikeBy AlikeNode

theorem alike_nil : Alike [].reverse [].reverse := .nil

theorem AlikeBy.append {R : Node → Node → Prop} {front back front' back' : List Node}
    (hf : AlikeBy R front front') (hb : AlikeBy R back back') :
    AlikeBy R (front ++ back) (front' ++ back') := by
  induction hf with
  | nil => exact hb
  | stretch hc ho _ ih =>
      rw [List.append_assoc, List.append_assoc]
      exact .stretch hc ho ih
  | node hn _ ih => exact .node hn ih

theorem AlikeBy.snoc {nodes others : List Node} {node other : Node}
    (h : Alike nodes.reverse others.reverse) (hn : AlikeNode node other) :
    Alike (node :: nodes).reverse (other :: others).reverse := by
  simpa using h.append (.node hn .nil)

theorem alikeNode_of_leaf? {offset : Nat} {token other : Token} {node : Node}
    (ht : ShiftedBy offset token other) (hs : Spoken token.lexeme) (hl : leaf? token = some node) :
    ∃ node', leaf? other = some node' ∧ AlikeNode node node' := by
  unfold leaf? at hl ⊢
  rw [← ht.lexeme_eq]
  split at hl <;> rename_i he
  case h_1 => rw [he] at hs; exact hs.elim
  case h_7 =>
      obtain ⟨call, hc, rfl⟩ := Option.map_eq_some_iff.mp hl
      exact ⟨.pragma call other.place, by simp [hc], .pragma⟩
  all_goals cases hl
  · exact ⟨_, rfl, .variable⟩
  · exact ⟨_, rfl, .variable⟩
  · exact ⟨_, rfl, .comment⟩
  · exact ⟨_, rfl, .delimiterChange⟩
  · exact ⟨_, rfl, .inclusion⟩

/-! ## Building from both -/

/-- Enclosures that were opened by the same tag, with alike nodes before it. -/
structure AlikeOpened (offset : Nat) (opened other : Opened) : Prop where
  kind_eq : opened.kind = other.kind
  name_eq : opened.name = other.name
  token : ShiftedBy offset opened.token other.token
  before : Alike opened.before.reverse other.before.reverse

theorem grow_textTokens (source : Text) (p : Place) (content : Text) (tokens : List Token)
    (stack : List Opened) (nodes : List Node) :
    grow source (textTokens p content ++ tokens) stack nodes =
      grow source tokens stack (textNodes content ++ nodes) := by
  rcases textTokens_eq p content with ⟨he, rfl⟩ | ⟨he, hne⟩
  · simp [he, textNodes]
  · have hl : leaf? (ofText p content) = some (.text content) := rfl
    rw [he, List.singleton_append, grow_leaf hl]
    simp [textNodes, hne]

/-- A part of a source builds what the whole source builds from the tokens in that part. -/
theorem grow_match {source body : Text} {offset : Nat} {tokens others : List Token}
    (h : Match offset tokens others) (hs : ∀ token ∈ tokens, token.Scanned)
    (hbody : ∀ a b, b ≤ body.length →
      Text.slice body a b = Text.slice source (offset + a) (offset + b))
    (hlt : ∀ other ∈ others, other.place.offset ≤ body.length)
    {stack stack' : List Opened} (hstack : List.Forall₂ (AlikeOpened offset) stack stack')
    {nodes nodes' result : List Node} (hn : Alike nodes.reverse nodes'.reverse)
    (hr : Node.grow source tokens stack nodes = .ok result) :
    ∃ result', Node.grow body others stack' nodes' = .ok result' ∧ Alike result result' := by
  induction h generalizing stack stack' nodes nodes' with
  | nil =>
      cases hstack with
      | nil =>
          rw [Node.grow] at hr
          obtain rfl := Except.ok.inj hr
          exact ⟨_, rfl, hn⟩
      | cons => simp [Node.grow] at hr
  | @stretch p q gap content other tokens others hc ho _ ih =>
      rw [grow_textTokens] at hr ⊢
      refine ih (fun token hm => hs token (by simp [hm])) (fun token hm => hlt token (by simp [hm]))
        hstack ?_ hr
      have hrev : ∀ t : Text, (textNodes t).reverse = textNodes t ++ [] := by
        intro t
        cases t <;> simp [textNodes]
      rw [List.reverse_append, List.reverse_append, hrev, hrev]
      exact hn.append (.stretch hc ho .nil)
  | @tag token other tokens others ht hsp hm ih =>
      have hs' := fun t (hm : t ∈ tokens) => hs t (List.mem_cons_of_mem _ hm)
      have hlt' := fun t (hm : t ∈ others) => hlt t (List.mem_cons_of_mem _ hm)
      by_cases hb : token.IsBracket
      · rcases hb with ⟨kind, name, hl⟩ | ⟨name, hl⟩
        · have hl' := ht.lexeme_eq.symm.trans hl
          rw [grow_opening hl] at hr
          rw [grow_opening hl']
          have ho : AlikeOpened offset ⟨kind, name, token, nodes⟩ ⟨kind, name, other, nodes'⟩ :=
            ⟨rfl, rfl, ht, hn⟩
          exact ih hs' hlt' (.cons ho hstack) alike_nil hr
        · have hl' := ht.lexeme_eq.symm.trans hl
          cases hstack with
          | nil =>
              rw [grow_stray hl] at hr
              cases hr
          | @cons opened opened' stack stack' ho hrest =>
              by_cases hne : opened.name = name
              · subst hne
                rw [grow_closing opened hl] at hr
                rw [grow_closing opened' (ho.name_eq ▸ hl')]
                refine ih hs' hlt' hrest (ho.before.snoc ?_) hr
                have hslice := hbody opened'.token.stop other.place.offset
                  (hlt other List.mem_cons_self)
                rw [← ho.token.stop_eq, ← ht.start_eq] at hslice
                simp only [Text.slice] at hslice
                rw [enclose, enclose, ← hslice, ho.kind_eq, ho.name_eq, ho.token.delimiters_eq]
                exact .enclosure hn
              · rw [grow_crossed hl hne] at hr
                cases hr
      · obtain ⟨node, hnode⟩ := exists_leaf? (hs token List.mem_cons_self) hb
        obtain ⟨node', hnode', ha⟩ := alikeNode_of_leaf? ht hsp hnode
        rw [grow_leaf hnode] at hr
        rw [grow_leaf hnode']
        exact ih hs' hlt' hstack (hn.snoc ha) hr

/-! ## Enclosures in a document -/

/-- A node anywhere in a tree. -/
inductive Within (node : Node) : List Node → Prop where
  | head {nodes} : Within node (node :: nodes)
  | tail {other nodes} (h : Within node nodes) : Within node (other :: nodes)
  | inside {kind name children body d place indent nodes} (h : Within node children) :
      Within node (.enclosure kind name children body d place indent :: nodes)

/-- The tokens of an enclosure: an opening one, those of its children, and a closing one. -/
theorem Grown.within {source : Text} {tokens : List Token} {nodes : List Node}
    (h : Grown source tokens nodes) {kind : Enclosure} {name : Text} {children : List Node}
    {body : Text} {d : Delimiters} {place : Place} {indent : Text}
    (hw : Within (.enclosure kind name children body d place indent) nodes) :
    ∃ before opening inner closing rest, tokens = before ++ opening :: (inner ++ closing :: rest) ∧
      opening.lexeme = .opening kind name ∧ closing.lexeme = .closing name ∧
      Grown source inner children ∧
      body = Text.slice source opening.stop closing.place.offset ∧ opening.delimiters = d ∧
      opening.place = place := by
  induction h with
  | nil => cases hw
  | @leaf token rest node nodes hl hr ih =>
      have hne : ∀ kind name children body d place indent,
          node ≠ .enclosure kind name children body d place indent := by
        rintro kind name children body d place indent rfl
        rw [leaf?] at hl
        split at hl <;> simp_all
      cases hw with
      | head => exact (hne _ _ _ _ _ _ _ rfl).elim
      | inside => exact (hne _ _ _ _ _ _ _ rfl).elim
      | tail hw =>
          obtain ⟨before, opening, inner, closing, back, rfl, hspec⟩ := ih hw
          exact ⟨token :: before, opening, inner, closing, back, rfl, hspec⟩
  | @enclosure opening' inner' closing' rest' kind' name' children' nodes' ho hc hi hr ihi ihr =>
      cases hw with
      | head => exact ⟨[], opening', inner', closing', rest', rfl, ho, hc, hi, rfl, rfl, rfl⟩
      | inside hw =>
          obtain ⟨before, opening, inner, closing, back, rfl, hspec⟩ := ihi hw
          exact ⟨opening' :: before, opening, inner, closing, back ++ closing' :: rest', by simp,
            hspec⟩
      | tail hw =>
          obtain ⟨before, opening, inner, closing, back, rfl, hspec⟩ := ihr hw
          exact ⟨opening' :: (inner' ++ closing' :: before), opening, inner, closing, back,
            by simp, hspec⟩

/-- An enclosure and its body. Its tags stand around the tokens `inner` of its source, and its body
read on its own from its delimiters has the same tags and alike nodes, so that it can always be
compiled. -/
structure BodySpec (source : Text) (kind : Enclosure) (name : Text) (children : List Node)
    (body : Text) (d : Delimiters) (place : Place) (opening : Token) (inner : List Token)
    (closing : Token) : Prop where
  opening_eq : opening.lexeme = .opening kind name
  delimiters_eq : opening.delimiters = d
  place_eq : opening.place = place
  closing_eq : closing.lexeme = .closing name
  children_eq : ofTokens source inner = .ok children
  body_eq : body = Text.slice source opening.stop closing.place.offset
  scan : ∃ tokens, Token.scan d body = .ok tokens ∧
    List.Forall₂ (ShiftedBy opening.stop) (tagsOf inner) (tagsOf tokens)
  parse : ∃ document, Node.parse d body = .ok document ∧ Alike children document
  build : ∀ loader, ∃ document, ((Loading.build d body).run loader).1 = .ok document ∧
    Node.parse d body = .ok document.nodes

theorem build_run {d : Delimiters} {source : Text} {nodes : List Node}
    (h : parse d source = .ok nodes) (loader : Loader) :
    ((Loading.build d source).run loader).1 = .ok ⟨loader.nextDocument, nodes⟩ := by
  rw [Loading.build]
  rw [h]
  rfl

/-- The body of an enclosure anywhere in a document compiles again to what is in the enclosure. -/
theorem body_recompiles {d : Delimiters} (hd : d.Solid) {source : Text} {nodes : List Node}
    (hp : parse d source = .ok nodes) {kind : Enclosure} {name : Text} {children : List Node}
    {body : Text} {delimiters : Delimiters} {place : Place} {indent : Text}
    (hw : Within (.enclosure kind name children body delimiters place indent) nodes) :
    ∃ before opening inner closing rest,
      Token.scan d source = .ok (before ++ opening :: (inner ++ closing :: rest)) ∧
      BodySpec source kind name children body delimiters place opening inner closing := by
  obtain ⟨tokens, hscan, htree⟩ := parse_eq_ok_iff.mp hp
  have hscanned : ∀ token ∈ tokens, token.Scanned := fun token hm => ⟨d, source, tokens, hscan, hm⟩
  obtain ⟨before, opening, inner, closing, rest, rfl, ho, hc, hi, hbody, hdel, hplace⟩ :=
    ((ofTokens_eq_ok_iff hscanned).mp htree).within hw
  have hinner : ∀ token ∈ inner, token.Scanned := fun token hm => hscanned token (by simp [hm])
  have hchildren := (ofTokens_eq_ok_iff hinner).mpr hi
  -- The stretches and tags between the two tags of the enclosure are those of its body.
  obtain ⟨items, last, hreads, hshows⟩ := exists_reads_of_scan hd hscan
  obtain ⟨front, gap, tag, back, rfl, _, hback, htag⟩ := hshows.split rfl (by rw [ho]; rfl)
  obtain ⟨between, gap', tag', after, rfl, hmid, _, htag'⟩ := hback.split rfl (by rw [hc]; rfl)
  obtain ⟨text, htext, hsource⟩ := hreads.back
  have hnext : nextDelimiters tag.delimiters tag.lexeme = delimiters := by
    rw [← htag.lexeme_eq, ho, ← htag.delimiters_eq, hdel]
    rfl
  rw [hnext] at htext
  have hsolid : delimiters.Solid := by
    rw [← hdel, htag.delimiters_eq]
    exact hreads.solid hd (gap, tag) (by simp)
  obtain ⟨_, _, htext'⟩ := htext.back
  have hstop : opening.stop = (textOf front ++ gap ++ tag.source).length := by
    rw [htag.stop_eq, htag.offset_eq]
    simp only [List.length_append]
    omega
  have hlen : closing.place.offset = opening.stop + (textOf between ++ gap').length := by
    rw [htag'.offset_eq]
    simp only [List.length_append]
    omega
  have hslice : body = textOf between ++ gap' := by
    rw [hbody, hsource, htext']
    simpa using Text.slice_middle (textOf front ++ gap ++ tag.source) (textOf between ++ gap')
      (tag'.source ++ _) hstop hlen
  obtain ⟨others, hothers, hshow⟩ := exists_scan_of_reads hsolid htext.front
  rw [← hslice] at hothers
  have hmatch := hmid.match hshow (Nat.add_zero _).symm
  have hpart : ∀ a b, b ≤ body.length →
      Text.slice body a b = Text.slice source (opening.stop + a) (opening.stop + b) := by
    intro a b hb
    rw [hslice] at hb
    rw [hbody, Text.slice_slice source (by omega)]
  obtain ⟨document, hdocument, halike⟩ :=
    grow_match hmatch hinner hpart (offset_le_of_scan hothers) .nil alike_nil hchildren
  have hparse : Node.parse delimiters body = .ok document :=
    parse_eq_ok_iff.mpr ⟨others, hothers, hdocument⟩
  exact ⟨before, opening, inner, closing, rest, hscan, ho, hdel, hplace, hc, hchildren, hbody,
    ⟨others, hothers, hmatch.tags⟩, ⟨document, hparse, halike⟩,
    fun loader => ⟨_, build_run hparse loader, hparse⟩⟩

/-- A section with a comment that is alone on its line only in the body, and with new marks. -/
def markedSource : Text := "{{#a}}{{!c}}\n{{=<% %>=}}<%x%>\n<%/a%>".toList

def markedBody : Text := "{{!c}}\n{{=<% %>=}}<%x%>\n".toList

/-- The line feed behind the comment is not in what the body makes on its own. -/
def markedChildren : List Node :=
  [.comment ['c'], .text ['\n'], .delimiterChange ⟨['<', '%'], ['%', '>'], by decide, by decide⟩,
    .variable ['x'] true ⟨24, 2, 12⟩, .text ['\n']]

theorem markedBody_recompiles :
    Delimiters.standard.Solid ∧
    parse .standard markedSource =
      .ok [.enclosure .plain ['a'] markedChildren markedBody .standard ⟨0, 1, 1⟩ []] ∧
    ∃ before opening inner closing rest,
      Token.scan .standard markedSource = .ok (before ++ opening :: (inner ++ closing :: rest)) ∧
      BodySpec markedSource .plain ['a'] markedChildren markedBody .standard ⟨0, 1, 1⟩ opening
        inner closing := by
  have hp : parse .standard markedSource =
      .ok [.enclosure .plain ['a'] markedChildren markedBody .standard ⟨0, 1, 1⟩ []] := by cbv
  exact ⟨Delimiters.solid_standard, hp, body_recompiles Delimiters.solid_standard hp .head⟩

end Node

end Whisker
