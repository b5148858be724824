import Whisker.Proofs.Template.Scan
import Whisker.Proofs.Text.Slice
import Whisker.Template.Node

/-! Nesting: trees are built from exactly the sequences whose opening and closing tokens match. The
stack of the builder is the part of a nesting that is still open. -/

namespace Whisker

/-! ## Sequences of tokens -/

namespace Token

def IsBracket (token : Token) : Prop :=
  (∃ kind name, token.lexeme = .opening kind name) ∨ ∃ name, token.lexeme = .closing name

/-- Each opening token has a closing one of the same name, and what lies between them nests. -/
inductive Nested : List Token → Prop where
  | nil : Nested []
  | leaf {token rest} (hl : ¬ token.IsBracket) (hr : Nested rest) : Nested (token :: rest)
  | enclosure {opening inner closing rest kind name} (ho : opening.lexeme = .opening kind name)
      (hc : closing.lexeme = .closing name) (hi : Nested inner) (hr : Nested rest) :
      Nested (opening :: (inner ++ closing :: rest))

/-- The tokens nest but for some opening ones that are still open, the innermost first. -/
inductive Pending : List Token → List Token → Prop where
  | root {tokens} (hn : Nested tokens) : Pending tokens []
  | inside {before opened opening inner kind name} (hb : Pending before opened)
      (ho : opening.lexeme = .opening kind name) (hn : Nested inner) :
      Pending (before ++ opening :: inner) (opening :: opened)

/-- The first fault of a sequence that does not nest: a closing token without an opening one or
for another one, or, if there is none, the innermost token that stays open. -/
inductive Misnested : List Token → TemplateError → Prop where
  | stray {before closing rest name} (hb : Pending before [])
      (hc : closing.lexeme = .closing name) :
      Misnested (before ++ closing :: rest) ⟨.closingWithoutOpening name, closing.place⟩
  | crossed {before opening opened closing rest kind name other}
      (hb : Pending before (opening :: opened)) (ho : opening.lexeme = .opening kind other)
      (hc : closing.lexeme = .closing name) (hne : other ≠ name) :
      Misnested (before ++ closing :: rest)
        ⟨.closedByOther other opening.place.line opening.place.column name, closing.place⟩
  | unclosed {tokens opening opened kind name} (hp : Pending tokens (opening :: opened))
      (ho : opening.lexeme = .opening kind name) :
      Misnested tokens ⟨.unclosedSection name, opening.place⟩

end Token

/-! ## Trees -/

namespace Node

open Token

/-- The node of a token that neither opens nor closes anything. -/
def leaf? (token : Token) : Option Node :=
  match token.lexeme with
  | .text content => some (.text content)
  | .variable name => some (.variable name true token.place)
  | .raw name => some (.variable name false token.place)
  | .comment content => some (.comment content)
  | .delimiterChange next => some (.delimiterChange next)
  | .inclusion name => some (.inclusion name token.indent)
  | .pragma content => (PragmaCall.ofText? content).map (.pragma · token.place)
  | .opening _ _ => none
  | .closing _ => none

/-- The nodes of a sequence that nests. The body of an enclosure is the source from the end of its
opening token to the start of its closing one. The rules do not invoke the builder. -/
inductive Grown (source : Text) : List Token → List Node → Prop where
  | nil : Grown source [] []
  | leaf {token rest node nodes} (hl : leaf? token = some node) (hr : Grown source rest nodes) :
      Grown source (token :: rest) (node :: nodes)
  | enclosure {opening inner closing rest kind name children nodes}
      (ho : opening.lexeme = .opening kind name) (hc : closing.lexeme = .closing name)
      (hi : Grown source inner children) (hr : Grown source rest nodes) :
      Grown source (opening :: (inner ++ closing :: rest))
        (.enclosure kind name children (Text.slice source opening.stop closing.place.offset)
          opening.delimiters opening.place (opening.indent.getD []) :: nodes)

theorem not_isBracket_of_leaf? {token : Token} {node : Node} (h : leaf? token = some node) :
    ¬ token.IsBracket := by
  rintro (⟨kind, name, hl⟩ | ⟨name, hl⟩) <;> simp [leaf?, hl] at h

/-- Every token that is no bracket has a node, if it came from a scan. -/
theorem exists_leaf? {token : Token} (hs : token.Scanned) (hb : ¬ token.IsBracket) :
    ∃ node, leaf? token = some node := by
  rw [leaf?]
  split
  case h_7 content hl =>
      obtain ⟨call, hc⟩ := hs.call hl
      exact ⟨.pragma call token.place, by rw [hc]; rfl⟩
  case h_8 kind name hl => exact absurd (.inl ⟨kind, name, hl⟩) hb
  case h_9 name hl => exact absurd (.inr ⟨name, hl⟩) hb
  all_goals exact ⟨_, rfl⟩

theorem Grown.append {source : Text} {front back : List Token} {nodes others : List Node}
    (hf : Grown source front nodes) (hb : Grown source back others) :
    Grown source (front ++ back) (nodes ++ others) := by
  induction hf with
  | nil => exact hb
  | leaf hl _ ih => exact .leaf hl ih
  | enclosure ho hc hi _ _ ih =>
      simpa only [List.cons_append, List.append_assoc] using Grown.enclosure ho hc hi ih

theorem Grown.nested {source : Text} {tokens : List Token} {nodes : List Node}
    (h : Grown source tokens nodes) : Nested tokens := by
  induction h with
  | nil => exact .nil
  | leaf hl _ ih => exact .leaf (not_isBracket_of_leaf? hl) ih
  | enclosure ho hc _ _ ihi ihr => exact .enclosure ho hc ihi ihr

theorem exists_grown (source : Text) {tokens : List Token} (h : Nested tokens)
    (hs : ∀ token ∈ tokens, token.Scanned) : ∃ nodes, Grown source tokens nodes := by
  induction h with
  | nil => exact ⟨[], .nil⟩
  | leaf hl _ ih =>
      obtain ⟨node, hn⟩ := exists_leaf? (hs _ List.mem_cons_self) hl
      obtain ⟨nodes, hr⟩ := ih fun token hm => hs token (List.mem_cons_of_mem _ hm)
      exact ⟨node :: nodes, .leaf hn hr⟩
  | enclosure ho hc _ _ ihi ihr =>
      obtain ⟨children, hi⟩ := ihi fun token hm => hs token (by simp [hm])
      obtain ⟨nodes, hr⟩ := ihr fun token hm => hs token (by simp [hm])
      exact ⟨_, .enclosure ho hc hi hr⟩

/-! ## One token -/

theorem grow_leaf {source : Text} {token : Token} {node : Node} (h : leaf? token = some node)
    (tokens : List Token) (stack : List Opened) (nodes : List Node) :
    grow source (token :: tokens) stack nodes = grow source tokens stack (node :: nodes) := by
  rw [leaf?] at h
  rw [grow]
  cases hl : token.lexeme with
  | pragma content =>
      rw [hl] at h
      obtain ⟨call, hc, rfl⟩ := Option.map_eq_some_iff.mp h
      simp only [hc]
  | opening kind name =>
      rw [hl] at h
      cases h
  | closing name =>
      rw [hl] at h
      cases h
  | _ =>
      rw [hl] at h
      cases h
      rfl

theorem grow_opening {source : Text} {token : Token} {kind : Enclosure} {name : Text}
    (h : token.lexeme = .opening kind name) (tokens : List Token) (stack : List Opened)
    (nodes : List Node) :
    grow source (token :: tokens) stack nodes =
      grow source tokens (⟨kind, name, token, nodes⟩ :: stack) [] := by
  rw [grow]
  simp only [h]

theorem grow_closing {source : Text} {token : Token} (opened : Opened)
    (h : token.lexeme = .closing opened.name) (tokens : List Token) (stack : List Opened)
    (nodes : List Node) :
    grow source (token :: tokens) (opened :: stack) nodes =
      grow source tokens stack (enclose source opened token nodes :: opened.before) := by
  rw [grow]
  simp only [h, if_true]

theorem grow_stray {source : Text} {token : Token} {name : Text}
    (h : token.lexeme = .closing name) (tokens : List Token) (nodes : List Node) :
    grow source (token :: tokens) [] nodes =
      .error ⟨.closingWithoutOpening name, token.place⟩ := by
  rw [grow]
  simp only [h]

theorem grow_crossed {source : Text} {token : Token} {name : Text} {opened : Opened}
    (h : token.lexeme = .closing name) (hne : opened.name ≠ name) (tokens : List Token)
    (stack : List Opened) (nodes : List Node) :
    grow source (token :: tokens) (opened :: stack) nodes =
      .error ⟨.closedByOther opened.name opened.token.place.line opened.token.place.column name,
        token.place⟩ := by
  rw [grow]
  simp only [h, if_neg hne]

/-! ## The stack of the builder -/

/-- What the builder has made of the tokens that it has read. -/
inductive Reached (source : Text) : List Token → List Opened → List Node → Prop where
  | root {tokens nodes} (hg : Grown source tokens nodes.reverse) :
      Reached source tokens [] nodes
  | inside {before stack opened inner nodes} (hb : Reached source before stack opened.before)
      (ho : opened.token.lexeme = .opening opened.kind opened.name)
      (hg : Grown source inner nodes.reverse) :
      Reached source (before ++ opened.token :: inner) (opened :: stack) nodes

theorem reached_nil (source : Text) : Reached source [] [] [] := .root .nil

theorem Reached.pending {source : Text} {tokens : List Token} {stack : List Opened}
    {nodes : List Node} (h : Reached source tokens stack nodes) :
    Pending tokens (stack.map Opened.token) := by
  induction h with
  | root hg => exact .root hg.nested
  | inside _ ho hg ih => exact .inside ih ho hg.nested

/-- Whatever makes one node goes on top of the nodes that are there. -/
theorem Reached.add {source : Text} {before tokens : List Token} {stack : List Opened}
    {nodes : List Node} {node : Node} (h : Reached source before stack nodes)
    (hg : Grown source tokens [node]) :
    Reached source (before ++ tokens) stack (node :: nodes) := by
  cases h with
  | root hr => exact .root (by simpa using hr.append hg)
  | @inside before stack opened inner nodes hb ho hr =>
      rw [List.append_assoc, List.cons_append]
      exact .inside hb ho (by simpa using hr.append hg)

theorem Reached.enter {source : Text} {tokens : List Token} {stack : List Opened}
    {nodes : List Node} {opening : Token} {kind : Enclosure} {name : Text}
    (h : Reached source tokens stack nodes) (ho : opening.lexeme = .opening kind name) :
    Reached source (tokens ++ [opening]) (⟨kind, name, opening, nodes⟩ :: stack) [] := by
  let opened : Opened := ⟨kind, name, opening, nodes⟩
  have hb : Reached source tokens stack opened.before := h
  exact .inside hb ho .nil

theorem Reached.close {source : Text} {tokens : List Token} {stack : List Opened}
    {nodes : List Node} {opened : Opened} {closing : Token}
    (h : Reached source tokens (opened :: stack) nodes)
    (hc : closing.lexeme = .closing opened.name) :
    Reached source (tokens ++ [closing]) stack
      (enclose source opened closing nodes :: opened.before) := by
  cases h with
  | @inside before _ _ inner _ hb ho hg =>
      rw [List.append_assoc, List.cons_append]
      exact hb.add (.enclosure ho hc hg .nil)

/-- The builder either finishes the tree of all tokens or stops at the first fault. -/
theorem Reached.grow {source : Text} {before : List Token} {stack : List Opened}
    {nodes : List Node} (h : Reached source before stack nodes) (tokens : List Token)
    (hs : ∀ token ∈ tokens, token.Scanned) :
    match Node.grow source tokens stack nodes with
    | .ok result => Grown source (before ++ tokens) result
    | .error e => Misnested (before ++ tokens) e := by
  induction tokens generalizing before stack nodes with
  | nil =>
      rw [List.append_nil]
      cases h with
      | root hg => simpa [Node.grow] using hg
      | inside hb ho hg =>
          simp only [Node.grow]
          exact .unclosed (Reached.inside hb ho hg).pending ho
  | cons token tokens ih =>
      have hs' := fun other (hm : other ∈ tokens) => hs other (List.mem_cons_of_mem _ hm)
      rw [List.append_cons]
      by_cases hb : token.IsBracket
      · rcases hb with ⟨kind, name, hl⟩ | ⟨name, hl⟩
        · rw [grow_opening hl]
          exact ih (h.enter hl) hs'
        · cases stack with
          | nil =>
              rw [grow_stray hl, ← List.append_cons]
              exact .stray h.pending hl
          | cons opened stack =>
              by_cases hn : opened.name = name
              · subst hn
                rw [grow_closing opened hl]
                exact ih (h.close hl) hs'
              · rw [grow_crossed hl hn, ← List.append_cons]
                have ho : opened.token.lexeme = .opening opened.kind opened.name := by
                  cases h
                  assumption
                exact .crossed h.pending ho hl hn
      · obtain ⟨node, hn⟩ := exists_leaf? (hs token List.mem_cons_self) hb
        rw [grow_leaf hn]
        exact ih (h.add (.leaf hn .nil)) hs'

/-! ## Success and failure -/

theorem Grown.grow {source : Text} {tokens : List Token} {grown : List Node}
    (h : Grown source tokens grown) (rest : List Token) (stack : List Opened) (nodes : List Node) :
    Node.grow source (tokens ++ rest) stack nodes =
      Node.grow source rest stack (grown.reverse ++ nodes) := by
  induction h generalizing rest stack nodes with
  | nil => rfl
  | leaf hl _ ih => simp [grow_leaf hl, ih]
  | @enclosure opening inner closing tokens kind name children grown ho hc _ _ ihi ihr =>
      rw [List.cons_append, List.append_assoc, List.cons_append, grow_opening ho, ihi,
        grow_closing ⟨kind, name, opening, nodes⟩ hc, ihr]
      simp [enclose, Text.slice]

theorem ofTokens_eq_ok_iff {source : Text} {tokens : List Token} {nodes : List Node}
    (hs : ∀ token ∈ tokens, token.Scanned) :
    ofTokens source tokens = .ok nodes ↔ Grown source tokens nodes := by
  constructor
  · intro h
    have hg := (reached_nil source).grow tokens hs
    rw [← ofTokens, h] at hg
    exact hg
  · intro h
    have hg := h.grow [] [] []
    rw [List.append_nil, List.append_nil] at hg
    rw [ofTokens, hg, Node.grow, List.reverse_reverse]

theorem parse_eq_ok_iff {d : Delimiters} {source : Text} {nodes : List Node} :
    parse d source = .ok nodes ↔
      ∃ tokens, Token.scan d source = .ok tokens ∧ ofTokens source tokens = .ok nodes := by
  rw [parse]
  cases h : Token.scan d source with
  | error e => simp [bind, Except.bind]
  | ok tokens => simp [bind, Except.bind]

/-- After tokens that leave some open, the builder holds just these on its stack. -/
theorem grow_of_pending (source : Text) {before opened : List Token}
    (h : Pending before opened) (hs : ∀ token ∈ before, token.Scanned) :
    ∃ stack nodes, stack.map Opened.token = opened ∧
      (∀ o ∈ stack, o.token.lexeme = .opening o.kind o.name) ∧
      ∀ rest, Node.grow source (before ++ rest) [] [] = Node.grow source rest stack nodes := by
  induction h with
  | root hn =>
      obtain ⟨nodes, hg⟩ := exists_grown source hn hs
      exact ⟨[], nodes.reverse ++ [], rfl, by simp, fun rest => hg.grow rest [] []⟩
  | @inside before opened opening inner kind name _ ho hn ih =>
      obtain ⟨stack, nodes, hm, hl, hg⟩ := ih fun token hm => hs token (by simp [hm])
      obtain ⟨children, hi⟩ := exists_grown source hn fun token hm => hs token (by simp [hm])
      refine ⟨⟨kind, name, opening, nodes⟩ :: stack, children.reverse ++ [], by simp [hm], ?_, ?_⟩
      · intro o hmem
        rcases List.mem_cons.mp hmem with rfl | hmem
        · exact ho
        · exact hl o hmem
      · intro rest
        rw [List.append_assoc, hg, List.cons_append, grow_opening ho, hi.grow]

theorem ofTokens_eq_error_iff {source : Text} {tokens : List Token} {e : TemplateError}
    (hs : ∀ token ∈ tokens, token.Scanned) :
    ofTokens source tokens = .error e ↔ Misnested tokens e := by
  constructor
  · intro h
    have hg := (reached_nil source).grow tokens hs
    rw [← ofTokens, h] at hg
    exact hg
  · intro h
    rw [ofTokens]
    cases h with
    | stray hb hc =>
        obtain ⟨stack, nodes, hm, _, hg⟩ := grow_of_pending source hb fun token hm =>
          hs token (by simp [hm])
        obtain rfl := List.map_eq_nil_iff.mp hm
        rw [hg, grow_stray hc]
    | @crossed before opening opened closing rest kind name other hb ho hc hne =>
        obtain ⟨stack, nodes, hm, hl, hg⟩ := grow_of_pending source hb fun token hm =>
          hs token (by simp [hm])
        obtain ⟨o, stack, rfl, rfl, rfl⟩ := List.map_eq_cons_iff.mp hm
        have hn := hl o List.mem_cons_self
        rw [ho] at hn
        obtain ⟨rfl, rfl⟩ := Lexeme.opening.inj hn
        rw [hg, grow_crossed hc hne]
    | @unclosed _ opening opened kind name hp ho =>
        obtain ⟨stack, nodes, hm, hl, hg⟩ := grow_of_pending source hp hs
        obtain ⟨o, stack, rfl, rfl, rfl⟩ := List.map_eq_cons_iff.mp hm
        have hn := hl o List.mem_cons_self
        rw [ho] at hn
        obtain ⟨rfl, rfl⟩ := Lexeme.opening.inj hn
        have he := hg []
        rw [List.append_nil] at he
        rw [he, Node.grow]

/-! ## Flattening -/

/-- What a tree keeps of a token: all that it says, but of a pragma only what it calls. -/
inductive Mark where
  | lexeme (l : Lexeme)
  | pragma (call : PragmaCall)

/-- The mark of a token; a blank pragma has none. -/
def markOf? (token : Token) : Option Mark :=
  match token.lexeme with
  | .pragma content => (PragmaCall.ofText? content).map .pragma
  | lexeme => some (.lexeme lexeme)

mutual

/-- The marks of a node in order: those of its children stand between its own two. -/
def marks : Node → List Mark
  | .text content => [.lexeme (.text content)]
  | .variable name true _ => [.lexeme (.variable name)]
  | .variable name false _ => [.lexeme (.raw name)]
  | .comment content => [.lexeme (.comment content)]
  | .delimiterChange next => [.lexeme (.delimiterChange next)]
  | .pragma call _ => [.pragma call]
  | .inclusion name _ => [.lexeme (.inclusion name)]
  | .enclosure kind name children .. =>
    .lexeme (.opening kind name) :: (forestMarks children ++ [.lexeme (.closing name)])

def forestMarks : List Node → List Mark
  | [] => []
  | node :: nodes => marks node ++ forestMarks nodes

end

theorem marks_of_leaf? {token : Token} {node : Node} (h : leaf? token = some node) :
    [markOf? token] = (marks node).map some := by
  rw [leaf?] at h
  split at h <;> rename_i hl <;> simp only [markOf?, hl]
  case h_7 =>
      obtain ⟨call, hc, rfl⟩ := Option.map_eq_some_iff.mp h
      simp [hc, marks]
  all_goals cases h
  all_goals simp [marks]

theorem Grown.marks {source : Text} {tokens : List Token} {nodes : List Node}
    (h : Grown source tokens nodes) : tokens.map markOf? = (forestMarks nodes).map some := by
  induction h with
  | nil => rfl
  | leaf hl _ ih =>
      rw [forestMarks, List.map_append, ← marks_of_leaf? hl, ← ih]
      rfl
  | @enclosure opening _ closing _ kind name _ _ ho hc _ _ ihi ihr =>
      have hom : markOf? opening = some (.lexeme (.opening kind name)) := by simp [markOf?, ho]
      have hcm : markOf? closing = some (.lexeme (.closing name)) := by simp [markOf?, hc]
      simp [forestMarks, Node.marks, hom, hcm, ihi, ihr]

/-- A tree is built from tokens exactly if they nest. It has a node for each of them, in order, with
the source between its tokens as the body of each enclosure, and otherwise the first fault is
reported at its place. -/
theorem ofTokens_spec (source : Text) {tokens : List Token}
    (hs : ∀ token ∈ tokens, token.Scanned) :
    ((∃ nodes, ofTokens source tokens = .ok nodes) ↔ Nested tokens) ∧
    (∀ nodes, ofTokens source tokens = .ok nodes →
      Grown source tokens nodes ∧ tokens.map markOf? = (forestMarks nodes).map some) ∧
    ∀ e, ofTokens source tokens = .error e ↔ Misnested tokens e := by
  refine ⟨⟨?_, ?_⟩, ?_, fun e => ofTokens_eq_error_iff hs⟩
  · rintro ⟨nodes, h⟩
    exact ((ofTokens_eq_ok_iff hs).mp h).nested
  · intro h
    obtain ⟨nodes, hg⟩ := exists_grown source h hs
    exact ⟨nodes, (ofTokens_eq_ok_iff hs).mpr hg⟩
  · intro nodes h
    have hg := (ofTokens_eq_ok_iff hs).mp h
    exact ⟨hg, hg.marks⟩

/-- A section around a variable. -/
def sectionSource : Text := "{{#a}}{{b}}{{/a}}".toList

def sectionTokens : List Token :=
  [⟨.opening .plain ['a'], ⟨0, 1, 1⟩, 6, 0, 6, none, .standard⟩,
    ⟨.variable ['b'], ⟨6, 1, 7⟩, 11, 6, 11, none, .standard⟩,
    ⟨.closing ['a'], ⟨11, 1, 12⟩, 17, 11, 17, none, .standard⟩]

theorem section_spec :
    (∀ token ∈ sectionTokens, token.Scanned) ∧ Nested sectionTokens ∧
      ∃ nodes, ofTokens sectionSource sectionTokens = .ok nodes ∧
        Grown sectionSource sectionTokens nodes ∧
        sectionTokens.map markOf? = (forestMarks nodes).map some := by
  have hscan : scan .standard sectionSource = .ok sectionTokens := by cbv
  have hs : ∀ token ∈ sectionTokens, token.Scanned := fun token hm => ⟨_, _, _, hscan, hm⟩
  have hnodes : ofTokens sectionSource sectionTokens = .ok [.enclosure .plain ['a']
      [.variable ['b'] true ⟨6, 1, 7⟩] "{{b}}".toList .standard ⟨0, 1, 1⟩ []] := by cbv
  obtain ⟨hn, hok, _⟩ := ofTokens_spec sectionSource hs
  exact ⟨hs, hn.mp ⟨_, hnodes⟩, _, hnodes, hok _ hnodes⟩

/-- No reading of the tree gives back all that the tokens say: of two parameters of a pragma with
one name only the later is in the tree. -/
theorem lost_parameter : ¬ ∃ flatten : List Node → List Lexeme, ∀ d source tokens nodes,
    scan d source = .ok tokens → ofTokens source tokens = .ok nodes →
      flatten nodes = tokens.map Token.lexeme := by
  rintro ⟨flatten, h⟩
  have hscan₁ : scan .standard "{{%FILTERS a=1 a=2}}".toList = .ok [⟨.pragma
      "FILTERS a=1 a=2".toList, .start, 20, 0, 20, some [], .standard⟩] := by cbv
  have hscan₂ : scan .standard "{{%FILTERS a=2}}".toList = .ok [⟨.pragma
      "FILTERS a=2".toList, .start, 16, 0, 16, some [], .standard⟩] := by cbv
  have h₁ := h _ _ _ [.pragma ⟨"FILTERS".toList, [(['a'], ['2'])]⟩ .start] hscan₁ (by cbv)
  have h₂ := h _ _ _ [.pragma ⟨"FILTERS".toList, [(['a'], ['2'])]⟩ .start] hscan₂ (by cbv)
  have he := h₁.symm.trans h₂
  simp at he

end Node

end Whisker
