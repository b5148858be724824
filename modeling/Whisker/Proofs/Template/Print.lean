import Mathlib.Data.List.Chain
import Mathlib.Data.List.Forall2
import Whisker.Proofs.Template.Append
import Whisker.Proofs.Template.Nesting

/-! Writing a tree out and reading it back. Where no tag is alone on its line the scanner gives back
the lexemes that were written, each at its place, and the builder gives back the nodes. -/

namespace Whisker

/-! ## Writing -/

/-- The content of a pragma tag: the name and the parameters, with spaces between them. -/
def PragmaCall.written (call : PragmaCall) : Text :=
  call.name ++ (call.params.map fun (key, value) => key ++ '=' :: value).flatMap (' ' :: ·)

def Enclosure.sigil : Enclosure → Char
  | .plain => '#'
  | .inverted => '^'
  | .block => '$'
  | .parent => '<'

namespace Lexeme

/-- What a tag says between its marks. -/
def said : Lexeme → Text
  | .text _ => []
  | .variable name => name
  | .raw name => '&' :: name
  | .opening kind name => kind.sigil :: name
  | .closing name => '/' :: name
  | .inclusion name => '>' :: name
  | .comment content => '!' :: content
  | .delimiterChange next => '=' :: next.text ++ ['=']
  | .pragma content => '%' :: content

/-- A stretch of text as it is, or a tag between braces. -/
def written : Lexeme → Text
  | .text content => content
  | lexeme => '{' :: '{' :: lexeme.said ++ ['}', '}']

end Lexeme

namespace Node

def Mark.toLexeme : Mark → Lexeme
  | .lexeme l => l
  | .pragma call => .pragma call.written

/-- The lexemes of a tree in order: those of its children stand between the tags of a node. -/
def lexemes (nodes : List Node) : List Lexeme := (forestMarks nodes).map Mark.toLexeme

/-- The source of a tree with double braces for marks. -/
def written (nodes : List Node) : Text := (lexemes nodes).flatMap Lexeme.written

/-! ## What can be written -/

/-- A text that a tag can say: it is trimmed, and nothing in it closes the tag. -/
structure Enclosable (t : Text) : Prop where
  trimmed : Text.strip t = t
  not_infix : ¬ ['}', '}'] <:+: t
  getLast?_ne : t.getLast? ≠ some '}'

theorem Enclosable.singleton {c : Char} (hc : Text.strip [c] = [c]) (hne : c ≠ '}') :
    Enclosable [c] := by
  refine ⟨hc, fun hi => ?_, by simpa using hne⟩
  have hlength := hi.length_le
  simp at hlength

/-- A stretch of text in one line that opens no tag, also together with a tag behind it. -/
structure IsStretch (t : Text) : Prop where
  ne_nil : t ≠ []
  line : '\n' ∉ t
  not_infix : ¬ ['{', '{'] <:+: t
  getLast?_ne : t.getLast? ≠ some '{'

/-- A call of which the words can be told apart. -/
structure IsCall (call : PragmaCall) : Prop where
  name_ne_nil : call.name ≠ []
  name_solid : ∀ c ∈ call.name, Text.isBlank c = false
  params_solid : ∀ param ∈ call.params, ∀ c ∈ param.1 ++ param.2, Text.isBlank c = false
  keys : ∀ param ∈ call.params, '=' ∉ param.1
  distinct : (call.params.map (·.1)).Nodup
  not_infix : ¬ ['}', '}'] <:+: call.written
  getLast?_ne : call.written.getLast? ≠ some '}'

/-- The characters that say what a tag is, and the brace that opens a raw variable. -/
def sigils : List Char := ['#', '^', '/', '$', '<', '>', '&', '!', '%', '=', '{']

def isText : Node → Bool
  | .text _ => true
  | _ => false

/-- Of two nodes side by side at most one is a stretch of text. -/
def Apart (a b : Node) : Prop := a.isText = false ∨ b.isText = false

/-- A node whose source has just the tags of the node and of what is in it. Places, bodies and
indents do not count. -/
inductive Writable : Node → Prop where
  | text {content} (h : IsStretch content) : Writable (.text content)
  | variable {name escaped place} (hn : name ≠ []) (h : Enclosable name)
      (hs : ∀ c ∈ name.head?, c ∉ sigils) : Writable (.variable name escaped place)
  | comment {content} (h : Enclosable content) : Writable (.comment content)
  | pragma {call place} (h : IsCall call) : Writable (.pragma call place)
  | inclusion {name indent} (hn : name ≠ []) (h : Enclosable name) :
      Writable (.inclusion name indent)
  | enclosure {kind name children body d place indent} (hn : name ≠ []) (h : Enclosable name)
      (hc : ∀ child ∈ children, Writable child) (ha : children.IsChain Apart) :
      Writable (.enclosure kind name children body d place indent)

/-- The node that is read where another one was written. It is in braces, has no indent, and the
body of an enclosure is the source of what is in it. -/
inductive Reread : Node → Node → Prop where
  | text {content} : Reread (.text content) (.text content)
  | variable {name escaped place other} :
      Reread (.variable name escaped place) (.variable name escaped other)
  | comment {content} : Reread (.comment content) (.comment content)
  | pragma {call place other} : Reread (.pragma call place) (.pragma call other)
  | inclusion {name indent} : Reread (.inclusion name indent) (.inclusion name none)
  | enclosure {kind name children others body d place indent other}
      (hc : List.Forall₂ Reread children others) :
      Reread (.enclosure kind name children body d place indent)
        (.enclosure kind name others (written children) .standard other [])

end Node

/-! ## Reading one tag -/

namespace Token

/-- A lexeme of a tag that is read where it was written. -/
structure Legible (l : Lexeme) : Prop where
  not_isText : l.isText = false
  head?_ne : ∀ c ∈ l.said.head?, c ≠ '{'
  not_infix : ¬ ['}', '}'] <:+: l.said
  getLast?_ne : l.said.getLast? ≠ some '}'
  content_eq : lexemeOfContent (Text.strip l.said) = .ok l
  delimiters_eq : nextDelimiters .standard l = .standard

theorem written_of_not_isText {l : Lexeme} (h : l.isText = false) :
    l.written = ['{', '{'] ++ (l.said ++ ['}', '}']) := by
  cases l <;> first | rfl | cases h

theorem Legible.readTag {l : Lexeme} (h : Legible l) (rest : Text) :
    readTag .standard (l.said ++ '}' :: '}' :: rest) = .ok ⟨l, l.said ++ ['}', '}'], rest⟩ := by
  have hc : Text.cut? Delimiters.standard.closing (l.said ++ '}' :: '}' :: rest) =
      some (l.said, rest) := Text.cut?_append_double h.not_infix h.getLast?_ne rest
  unfold Token.readTag
  split
  · next inner he =>
      cases hs : l.said with
      | nil =>
          rw [hs] at he
          cases he
      | cons c said =>
          rw [hs] at he
          exact absurd (List.cons.inj he).1 (h.head?_ne c (by rw [hs]; rfl))
  · rw [hc]
    simp only [h.content_eq]
    rfl

theorem not_infix_cons {c : Char} (hc : c ≠ '}') {t : Text} (h : ¬ ['}', '}'] <:+: t) :
    ¬ ['}', '}'] <:+: c :: t := by
  rw [List.infix_cons_iff, List.cons_prefix_cons]
  rintro (⟨rfl, -⟩ | hi)
  · exact hc rfl
  · exact h hi

theorem getLast?_cons_ne {c : Char} (hc : c ≠ '}') {t : Text} (h : t.getLast? ≠ some '}') :
    (c :: t).getLast? ≠ some '}' := by
  cases t with
  | nil => simpa using hc
  | cons a t => simpa using h

/-- What follows a sigil may start with anything. -/
theorem legible_of_sigil {l : Lexeme} {sigil : Char} {content : Text}
    (hl : l.said = sigil :: content) (ht : l.isText = false) (hs : Text.isBlank sigil = false)
    (hn : sigil ∉ ['{', '}']) (h : Node.Enclosable content)
    (hc : lexemeOfContent (sigil :: content) = .ok l)
    (hd : nextDelimiters .standard l = .standard) : Legible l := by
  simp only [List.mem_cons, List.not_mem_nil, or_false, not_or] at hn
  refine ⟨ht, ?_, ?_, ?_, ?_, hd⟩
  · simpa [hl] using hn.1
  · rw [hl]
    exact not_infix_cons hn.2 h.not_infix
  · rw [hl]
    exact getLast?_cons_ne hn.2 h.getLast?_ne
  · rw [hl, Text.strip_cons hs h.trimmed, hc]

theorem legible_variable {name : Text} (hn : name ≠ []) (h : Node.Enclosable name)
    (hs : ∀ c ∈ name.head?, c ∉ Node.sigils) : Legible (.variable name) := by
  obtain ⟨c, t, rfl⟩ := List.exists_cons_of_ne_nil hn
  have hc := hs c rfl
  simp only [Node.sigils, List.mem_cons, List.not_mem_nil, or_false, not_or] at hc
  refine ⟨rfl, ?_, h.not_infix, h.getLast?_ne, ?_, rfl⟩
  · intro a ha
    cases ha
    exact hc.2.2.2.2.2.2.2.2.2.2
  · rw [Lexeme.said, h.trimmed, lexemeOfContent]
    split <;> simp_all [named]

theorem legible_raw {name : Text} (hn : name ≠ []) (h : Node.Enclosable name) :
    Legible (.raw name) :=
  legible_of_sigil rfl rfl rfl (by decide) h (by simp [lexemeOfContent, named, h.trimmed, hn]) rfl

theorem legible_opening (kind : Enclosure) {name : Text} (hn : name ≠ [])
    (h : Node.Enclosable name) : Legible (.opening kind name) := by
  have hs : Text.isBlank kind.sigil = false := by cases kind <;> rfl
  have hb : kind.sigil ∉ ['{', '}'] := by cases kind <;> decide
  refine legible_of_sigil rfl rfl hs hb h ?_ rfl
  cases kind <;> simp [Enclosure.sigil, lexemeOfContent, named, h.trimmed, hn]

theorem legible_closing {name : Text} (hn : name ≠ []) (h : Node.Enclosable name) :
    Legible (.closing name) :=
  legible_of_sigil rfl rfl rfl (by decide) h (by simp [lexemeOfContent, named, h.trimmed, hn]) rfl

theorem legible_inclusion {name : Text} (hn : name ≠ []) (h : Node.Enclosable name) :
    Legible (.inclusion name) :=
  legible_of_sigil rfl rfl rfl (by decide) h (by simp [lexemeOfContent, named, h.trimmed, hn]) rfl

theorem legible_comment {content : Text} (h : Node.Enclosable content) :
    Legible (.comment content) :=
  legible_of_sigil rfl rfl rfl (by decide) h (by simp [lexemeOfContent, h.trimmed]) rfl

end Token

/-! ## Pragmas -/

namespace Node.IsCall

variable {call : PragmaCall} (h : IsCall call)
include h

theorem words_ne_nil : ∀ w ∈ call.name :: call.params.map (fun (key, value) => key ++ '=' :: value),
    w ≠ [] := by
  refine List.forall_mem_cons.mpr ⟨h.name_ne_nil, ?_⟩
  intro w hw
  obtain ⟨param, -, rfl⟩ := List.mem_map.mp hw
  simp

theorem words_solid : ∀ w ∈ call.name :: call.params.map (fun (key, value) => key ++ '=' :: value),
    ∀ c ∈ w, Text.isBlank c = false := by
  refine List.forall_mem_cons.mpr ⟨h.name_solid, ?_⟩
  intro w hw c hc
  obtain ⟨param, hp, rfl⟩ := List.mem_map.mp hw
  have hs := h.params_solid param hp
  rcases List.mem_append.mp hc with hc | hc
  · exact hs c (List.mem_append_left _ hc)
  · rcases List.mem_cons.mp hc with rfl | hc
    · rfl
    · exact hs c (List.mem_append_right _ hc)

theorem param_written {param : Text × Text} (hp : param ∈ call.params) :
    PragmaCall.param (param.1 ++ '=' :: param.2) = param := by
  have hk : ∀ c ∈ param.1, c ∉ ['='] := by
    intro c hc hm
    rw [List.mem_singleton] at hm
    exact h.keys param hp (hm ▸ hc)
  rw [PragmaCall.param, Text.cut?_append_left (by simp) hk]
  simp [Text.cut?]

theorem ofText?_written : PragmaCall.ofText? call.written = some call := by
  have hparams : (call.params.map fun (key, value) => key ++ '=' :: value).map PragmaCall.param =
      call.params := by
    rw [List.map_map]
    exact (List.map_congr_left fun param hp => h.param_written hp).trans (List.map_id _)
  rw [PragmaCall.ofText?, PragmaCall.written, Text.words_flatMap h.words_ne_nil h.words_solid]
  simp only [hparams, Entries.ofPairs_eq_self h.distinct]

theorem enclosable : Enclosable call.written :=
  ⟨Text.strip_flatMap h.words_ne_nil h.words_solid, h.not_infix, h.getLast?_ne⟩

theorem legible : Token.Legible (.pragma call.written) := by
  have hne : call.written ≠ [] := List.append_ne_nil_of_left_ne_nil h.name_ne_nil _
  exact Token.legible_of_sigil rfl rfl rfl (by decide) h.enclosable
    (by simp [Token.lexemeOfContent, Token.named, h.enclosable.trimmed, hne]) rfl

end Node.IsCall

/-! ## Scanning what was written -/

namespace Token

/-- The token of a lexeme that is written at a place. -/
def ofLexeme (p : Place) (l : Lexeme) : Token :=
  let stop := p.offset + l.written.length
  ⟨l, p, stop, p.offset, stop, none, .standard⟩

/-- The tokens of lexemes that are written one after another. -/
def ofLexemes (p : Place) : List Lexeme → List Token
  | [] => []
  | l :: ls => ofLexeme p l :: ofLexemes (p.after l.written) ls

theorem ofLexemes_append (p : Place) (front back : List Lexeme) :
    ofLexemes p (front ++ back) =
      ofLexemes p front ++ ofLexemes (p.after (front.flatMap Lexeme.written)) back := by
  induction front generalizing p with
  | nil => rfl
  | cons l front ih =>
      rw [List.flatMap_cons, Place.after_append]
      exact congrArg (ofLexeme p l :: ·) (ih _)

theorem textTokens_eq_ofLexeme {content : Text} (h : content ≠ []) (p : Place) :
    textTokens p content = [ofLexeme p (.text content)] := by
  rcases textTokens_eq p content with ⟨_, he⟩ | ⟨he, _⟩
  · exact absurd he h
  · exact he

theorem splitLastLine_of_not_mem {t : Text} (h : '\n' ∉ t) : splitLastLine t = ([], t) := by
  induction t with
  | nil => rfl
  | cons c t ih =>
      rw [List.mem_cons, not_or] at h
      rw [splitLastLine, ih h.2]
      simp [Ne.symm h.1]

/-- A tag shares its line with what comes before it, a tag or a text that is not all padding. -/
def Shared (p : Place) (before : Text) : Prop := p.column ≠ 1 ∨ before.all isPad = false

theorem aloneOnLine?_eq_none {p : Place} {before : Text} (hb : '\n' ∉ before)
    (hp : Shared p before) (rest : Text) : aloneOnLine? p before rest = none := by
  rw [aloneOnLine?, splitLastLine_of_not_mem hb]
  rcases hp with hp | hp <;> simp [hp]

theorem step_written {p : Place} {before : Text} (hb : '\n' ∉ before) (hp : Shared p before)
    {l : Lexeme} (hl : l.isText = false) (rest : Text) :
    step .standard p before ⟨l, l.said ++ ['}', '}'], rest⟩ =
      ⟨textTokens p before ++ [ofLexeme (p.after before) l], nextDelimiters .standard l,
        (p.after before).after l.written, rest⟩ := by
  rw [step]
  simp only [aloneOnLine?_eq_none hb hp, ite_self]
  rw [ofLexeme, written_of_not_isText hl]
  rfl

/-- Behind a tag the column is not the first. -/
theorem shared_after_written {l : Lexeme} (hl : l.isText = false) (p : Place) (before : Text) :
    Shared (p.after l.written) before := by
  refine .inl ?_
  rw [written_of_not_isText hl, Place.after_append, Place.after_append]
  generalize (p.after ['{', '{']).after l.said = q
  simp [Place.next]

/-- A lexeme of a tag that is read where it was written, or a stretch of text in one line. -/
def Readable : Lexeme → Prop
  | .text content => Node.IsStretch content
  | l => Legible l

theorem Readable.legible {l : Lexeme} (h : Readable l) (hl : l.isText = false) : Legible l := by
  cases l <;> first | exact h | cases hl

/-- Of two lexemes side by side at most one is a stretch of text. -/
def Split (a b : Lexeme) : Prop := a.isText = false ∨ b.isText = false

/-- What may come before written lexemes: nothing, or a stretch of text before a tag. -/
structure Before (before : Text) (ls : List Lexeme) : Prop where
  line : '\n' ∉ before
  not_infix : ¬ ['{', '{'] <:+: before
  getLast?_ne : before.getLast? ≠ some '{'
  tag : before ≠ [] → ∀ l ∈ ls.head?, l.isText = false

theorem before_nil (ls : List Lexeme) : Before [] ls := ⟨by simp, by simp, by simp, by simp⟩

theorem before_stretch {content : Text} {ls : List Lexeme} (hs : Node.IsStretch content)
    (hnext : ∀ l ∈ ls.head?, Split (.text content) l) : Before content ls :=
  ⟨hs.line, hs.not_infix, hs.getLast?_ne, fun _ l hm =>
    (hnext l hm).resolve_left (by simp [Lexeme.isText])⟩

/-- The scanner gives back what was written. The invariant is that no tag can be alone on its line,
because a tag or ink comes before it and no stretch has a line feed. -/
theorem scanFrom_written {ls : List Lexeme} (hl : ∀ l ∈ ls, Readable l)
    (hc : ls.IsChain Split) {before : Text}
    (hb : Before before ls) {p : Place} (hp : Shared p before) :
    scanFrom .standard p (before ++ ls.flatMap Lexeme.written) =
      .ok (textTokens p before ++ ofLexemes (p.after before) ls) := by
  induction ls generalizing before p with
  | nil =>
      rw [List.flatMap_nil, List.append_nil]
      rw [scanFrom_rest (Text.cut?_eq_none_iff.mpr hb.not_infix), ofLexemes, List.append_nil]
  | cons l ls ih =>
      obtain ⟨hr, hls⟩ := List.forall_mem_cons.mp hl
      obtain ⟨hnext, hrest⟩ := List.isChain_cons.mp hc
      rw [List.flatMap_cons]
      cases ht : l.isText with
      | true =>
          obtain ⟨content, rfl⟩ : ∃ content, l = .text content := by
            cases l <;> first | exact ⟨_, rfl⟩ | cases ht
          have hs : Node.IsStretch content := hr
          obtain rfl : before = [] := by
            cases before with
            | nil => rfl
            | cons c before => cases hb.tag (by simp) _ rfl
          have hp' : Shared p content := .inl (hp.resolve_right (by simp))
          have hscan := ih hls hrest (before_stretch hs hnext) hp'
          rw [textTokens_eq_ofLexeme hs.ne_nil] at hscan
          exact hscan
      | false =>
          have hlegible := hr.legible ht
          have hw : l.written ++ ls.flatMap Lexeme.written =
              '{' :: '{' :: (l.said ++ '}' :: '}' :: ls.flatMap Lexeme.written) := by
            rw [written_of_not_isText ht]
            simp
          have hcut : Text.cut? Delimiters.standard.opening
              (before ++ (l.written ++ ls.flatMap Lexeme.written)) =
                some (before, l.said ++ '}' :: '}' :: ls.flatMap Lexeme.written) := by
            rw [hw]
            exact Text.cut?_append_double hb.not_infix hb.getLast?_ne _
          rw [scanFrom_tag hcut (hlegible.readTag _), step_written hb.line hp ht,
            hlegible.delimiters_eq]
          have hscan := ih hls hrest (before_nil ls) (shared_after_written ht (p.after before) [])
          rw [List.nil_append] at hscan
          simp only
          rw [hscan]
          simp [Except.map, ofLexemes, textTokens]

/-- Lexemes that start with ink are scanned to themselves. -/
theorem scan_written {content : Text} {ls : List Lexeme} (hink : content.all isPad = false)
    (hl : ∀ l ∈ .text content :: ls, Readable l) (hc : (Lexeme.text content :: ls).IsChain Split) :
    scan .standard ((Lexeme.text content :: ls).flatMap Lexeme.written) =
      .ok (ofLexemes .start (.text content :: ls)) := by
  obtain ⟨hs, hls⟩ := List.forall_mem_cons.mp hl
  obtain ⟨hnext, hrest⟩ := List.isChain_cons.mp hc
  have hb := before_stretch hs hnext
  have hscan := scanFrom_written hls hrest hb (p := .start) (.inr hink)
  rw [textTokens_eq_ofLexeme hs.ne_nil] at hscan
  exact hscan

end Token

/-! ## The lexemes of a tree -/

namespace Node

open Token

def nodeLexemes (node : Node) : List Lexeme := (marks node).map Mark.toLexeme

theorem lexemes_cons (node : Node) (nodes : List Node) :
    lexemes (node :: nodes) = nodeLexemes node ++ lexemes nodes := by
  rw [lexemes, forestMarks, List.map_append]
  rfl

theorem nodeLexemes_enclosure (kind : Enclosure) (name : Text) (children : List Node) (body : Text)
    (d : Delimiters) (place : Place) (indent : Text) :
    nodeLexemes (.enclosure kind name children body d place indent) =
      .opening kind name :: (lexemes children ++ [.closing name]) := by
  simp [nodeLexemes, marks, lexemes, Mark.toLexeme]

theorem mem_lexemes {l : Lexeme} {nodes : List Node} (h : l ∈ lexemes nodes) :
    ∃ node ∈ nodes, l ∈ nodeLexemes node := by
  induction nodes with
  | nil => cases h
  | cons node nodes ih =>
      rw [lexemes_cons] at h
      rcases List.mem_append.mp h with h | h
      · exact ⟨node, List.mem_cons_self, h⟩
      · obtain ⟨other, hm, hl⟩ := ih h
        exact ⟨other, List.mem_cons_of_mem _ hm, hl⟩

theorem Writable.readable {node : Node} (h : Writable node) :
    ∀ l ∈ nodeLexemes node, Readable l := by
  induction h with
  | text h => exact List.forall_mem_singleton.mpr h
  | @«variable» name escaped place hn h hs =>
      cases escaped with
      | true => exact List.forall_mem_singleton.mpr (legible_variable hn h hs)
      | false => exact List.forall_mem_singleton.mpr (legible_raw hn h)
  | comment h => exact List.forall_mem_singleton.mpr (legible_comment h)
  | pragma h => exact List.forall_mem_singleton.mpr h.legible
  | inclusion hn h => exact List.forall_mem_singleton.mpr (legible_inclusion hn h)
  | enclosure hn h hc ha ih =>
      rw [nodeLexemes_enclosure]
      refine List.forall_mem_cons.mpr ⟨legible_opening _ hn h, ?_⟩
      intro l hl
      rcases List.mem_append.mp hl with hl | hl
      · obtain ⟨child, hm, hl⟩ := mem_lexemes hl
        exact ih child hm l hl
      · rw [List.mem_singleton.mp hl]
        exact legible_closing hn h

theorem nodeLexemes_ne_nil (node : Node) : nodeLexemes node ≠ [] := by
  cases node with
  | «variable» name escaped place => cases escaped <;> exact List.cons_ne_nil _ _
  | _ => exact List.cons_ne_nil _ _

theorem isText_of_head? (node : Node) :
    ∀ l ∈ (nodeLexemes node).head?, l.isText = node.isText := by
  intro l hl
  cases node with
  | «variable» name escaped place => cases escaped <;> cases hl <;> rfl
  | enclosure =>
      rw [nodeLexemes_enclosure] at hl
      cases hl
      rfl
  | _ =>
      cases hl
      rfl

theorem isText_of_getLast? (node : Node) :
    ∀ l ∈ (nodeLexemes node).getLast?, l.isText = node.isText := by
  intro l hl
  cases node with
  | «variable» name escaped place => cases escaped <;> cases hl <;> rfl
  | enclosure =>
      rw [nodeLexemes_enclosure, ← List.cons_append, List.getLast?_concat] at hl
      cases hl
      rfl
  | _ =>
      cases hl
      rfl

/-- Where the nodes keep stretches of text apart, so do their lexemes. -/
theorem isChain_lexemes {nodes : List Node} (h : ∀ node ∈ nodes, (nodeLexemes node).IsChain Split)
    (ha : nodes.IsChain Apart) : (lexemes nodes).IsChain Split := by
  induction nodes with
  | nil => exact .nil
  | cons node nodes ih =>
      obtain ⟨hn, h⟩ := List.forall_mem_cons.mp h
      obtain ⟨hnext, ha⟩ := List.isChain_cons.mp ha
      rw [lexemes_cons]
      refine List.isChain_append.mpr ⟨hn, ih h ha, ?_⟩
      intro a hla b hlb
      cases nodes with
      | nil => cases hlb
      | cons next nodes =>
          have hb : b ∈ (nodeLexemes next).head? := by
            obtain ⟨first, rest, hf⟩ := List.exists_cons_of_ne_nil (nodeLexemes_ne_nil next)
            rw [lexemes_cons, hf] at hlb
            rw [hf]
            exact hlb
          rw [Split, isText_of_getLast? node a hla, isText_of_head? next b hb]
          exact hnext next rfl

theorem Writable.isChain {node : Node} (h : Writable node) :
    (nodeLexemes node).IsChain Split := by
  induction h with
  | @enclosure kind name children body d place indent hn h hc ha ih =>
      rw [nodeLexemes_enclosure]
      refine List.isChain_cons.mpr ⟨fun _ _ => .inl rfl, ?_⟩
      refine List.isChain_append.mpr ⟨isChain_lexemes ih ha, .singleton _, ?_⟩
      intro a _ b hb
      cases hb
      exact .inr rfl
  | @«variable» name escaped place => cases escaped <;> exact .singleton _
  | _ => exact .singleton _

/-! ## Building what was written -/

theorem lexemes_singleton (node : Node) : lexemes [node] = nodeLexemes node := by
  rw [lexemes_cons]
  exact List.append_nil _

theorem written_cons (node : Node) (nodes : List Node) :
    written (node :: nodes) = written [node] ++ written nodes := by
  rw [written, lexemes_cons, List.flatMap_append, ← lexemes_singleton]
  rfl

theorem written_enclosure (kind : Enclosure) (name : Text) (children : List Node) (body : Text)
    (d : Delimiters) (place : Place) (indent : Text) :
    written [.enclosure kind name children body d place indent] =
      (Lexeme.opening kind name).written ++ written children ++ (Lexeme.closing name).written := by
  rw [written, lexemes_singleton, nodeLexemes_enclosure, List.flatMap_cons, List.flatMap_append,
    List.flatMap_singleton, List.append_assoc]
  rfl

/-- The builder gives back the nodes that are written somewhere in a source. -/
def Rebuilt (nodes : List Node) : Prop :=
  ∀ (front rest : Text) (p : Place), p.offset = front.length →
    ∃ others, List.Forall₂ Reread nodes others ∧
      Grown (front ++ written nodes ++ rest) (ofLexemes p (lexemes nodes)) others

theorem Rebuilt.cons {node : Node} (hn : Rebuilt [node]) {nodes : List Node} (h : Rebuilt nodes) :
    Rebuilt (node :: nodes) := by
  intro front rest p hp
  obtain ⟨others, hr, hg⟩ := hn front (written nodes ++ rest) p hp
  obtain ⟨more, hr', hg'⟩ :=
    h (front ++ written [node]) rest (p.after (written [node])) (by simp [hp])
  have hls : lexemes (node :: nodes) = lexemes [node] ++ lexemes nodes := by
    rw [lexemes_cons, lexemes_singleton]
  refine ⟨others ++ more, List.rel_append hr hr', ?_⟩
  rw [hls, ofLexemes_append, ← written, written_cons]
  refine Grown.append ?_ ?_
  · simpa only [List.append_assoc] using hg
  · simpa only [List.append_assoc] using hg'

theorem Rebuilt.of_forall {nodes : List Node} (h : ∀ node ∈ nodes, Rebuilt [node]) :
    Rebuilt nodes := by
  induction nodes with
  | nil => exact fun _ _ _ _ => ⟨[], .nil, .nil⟩
  | cons node nodes ih =>
      obtain ⟨hn, h⟩ := List.forall_mem_cons.mp h
      exact hn.cons (ih h)

theorem rebuilt_leaf {node : Node} {l : Lexeme} (hl : nodeLexemes node = [l])
    (h : ∀ p, ∃ other, leaf? (ofLexeme p l) = some other ∧ Reread node other) :
    Rebuilt [node] := by
  intro front rest p _
  obtain ⟨other, ho, hr⟩ := h p
  refine ⟨[other], .cons hr .nil, ?_⟩
  rw [lexemes_singleton, hl]
  exact .leaf ho .nil

/-- An enclosure keeps the source between its tags, which is that of its children. -/
theorem Rebuilt.enclosure {children : List Node} (h : Rebuilt children) (kind : Enclosure)
    (name body : Text) (d : Delimiters) (place : Place) (indent : Text) :
    Rebuilt [.enclosure kind name children body d place indent] := by
  intro front rest p hp
  let before := (Lexeme.opening kind name).written
  let behind := (Lexeme.closing name).written
  let opening := ofLexeme p (.opening kind name)
  let closing := ofLexeme ((p.after before).after (written children)) (.closing name)
  obtain ⟨others, hr, hg⟩ := h (front ++ before) (behind ++ rest) (p.after before) (by simp [hp])
  have hbody : Text.slice (front ++ before ++ written children ++ (behind ++ rest)) opening.stop
      closing.place.offset = written children :=
    Text.slice_middle _ _ _ (by simp [opening, ofLexeme, hp, before])
      (by simp [opening, closing, ofLexeme, before])
  have hgrown : Grown (front ++ before ++ written children ++ (behind ++ rest))
      (opening :: (ofLexemes (p.after before) (lexemes children) ++ [closing]))
      [.enclosure kind name others (written children) .standard p []] := by
    have ho : opening.lexeme = .opening kind name := rfl
    have hc : closing.lexeme = .closing name := rfl
    have hnode := Grown.enclosure ho hc hg .nil
    rwa [hbody] at hnode
  refine ⟨[.enclosure kind name others (written children) .standard p []],
    .cons (.enclosure hr) .nil, ?_⟩
  rw [written_enclosure, lexemes_singleton, nodeLexemes_enclosure, ofLexemes, ofLexemes_append]
  simp only [List.append_assoc] at hgrown ⊢
  exact hgrown

theorem Writable.rebuilt {node : Node} (h : Writable node) : Rebuilt [node] := by
  induction h with
  | text h => exact rebuilt_leaf rfl fun _ => ⟨_, rfl, .text⟩
  | @«variable» name escaped place hn h hs =>
      cases escaped <;> exact rebuilt_leaf rfl fun _ => ⟨_, rfl, .variable⟩
  | comment h => exact rebuilt_leaf rfl fun _ => ⟨_, rfl, .comment⟩
  | @pragma call place h =>
      refine rebuilt_leaf rfl fun p => ⟨.pragma call p, ?_, .pragma⟩
      simp [leaf?, ofLexeme, Mark.toLexeme, h.ofText?_written]
  | inclusion hn h => exact rebuilt_leaf rfl fun _ => ⟨_, rfl, .inclusion⟩
  | enclosure hn h hc ha ih => exact (Rebuilt.of_forall ih).enclosure _ _ _ _ _ _

/-! ## Reading what was written -/

/-- A written tree reads back. Its first node has ink, so that no tag stands alone on the line. -/
theorem parse_written {content : Text} {nodes : List Node}
    (hink : content.all isPad = false) (h : ∀ node ∈ .text content :: nodes, Writable node)
    (ha : (Node.text content :: nodes).IsChain Apart) :
    ∃ others, List.Forall₂ Reread (.text content :: nodes) others ∧
      parse .standard (written (.text content :: nodes)) = .ok others := by
  let document := Node.text content :: nodes
  have hreadable : ∀ l ∈ lexemes document, Readable l := fun l hl => by
    obtain ⟨node, hm, hl⟩ := mem_lexemes hl
    exact (h node hm).readable l hl
  have hchain : (lexemes document).IsChain Split :=
    isChain_lexemes (fun node hm => (h node hm).isChain) ha
  have hscan := scan_written hink hreadable hchain
  obtain ⟨others, hr, hg⟩ := Rebuilt.of_forall (fun node hm => (h node hm).rebuilt) [] [] .start rfl
  rw [List.nil_append, List.append_nil] at hg
  exact ⟨others, hr, parse_eq_ok_iff.mpr
    ⟨_, hscan, (ofTokens_eq_ok_iff fun token hm => ⟨_, _, _, hscan, hm⟩).mpr hg⟩⟩

def bracedSection : Node :=
  .enclosure .plain ['b']
    [.variable ['}', 'v'] false .start, .pragma ⟨['P'], [(['k'], ['v']), ([], ['='])]⟩ .start]
    [] .standard .start []

/-- Names and texts of braces, an empty key with an equals sign for its value and a name of two
lines. -/
def bracedDocument : List Node :=
  [.text ['}'],
    .enclosure .block ['a'] [.text [' '], bracedSection, .comment []] [] .standard .start [' '],
    .inclusion ['p', '\n', 'q'] none, .text [' ', '{', ' ']]

theorem writable_bracedSection : Writable bracedSection := by
  refine .enclosure (by decide) ⟨by decide, by decide, by decide⟩ ?_ (by simp [Apart, isText])
  simp only [List.forall_mem_cons]
  have hcall : IsCall ⟨['P'], [(['k'], ['v']), ([], ['='])]⟩ :=
    ⟨by decide, by simp [Text.isBlank], by simp [Text.isBlank], by decide, by decide, by decide,
      by decide⟩
  exact ⟨.variable (by decide) ⟨by decide, by decide, by decide⟩ (by simp [sigils]),
    .pragma hcall, by simp⟩

theorem bracedDocument_rereads :
    ∃ others, List.Forall₂ Reread bracedDocument others ∧
      parse .standard ("\x7d{{$a}} {{#b}}\x7b\x7b&\x7dv\x7d\x7d{{%P k=v ==}}{{/b}}".toList ++
        "{{!}}{{/a}}\x7b\x7b>p\nq\x7d\x7d \x7b ".toList) = .ok others := by
  have hblock : Writable (.enclosure .block ['a'] [.text [' '], bracedSection, .comment []] []
      .standard .start [' ']) := by
    refine .enclosure (by decide) ⟨by decide, by decide, by decide⟩ ?_ ?_
    · simp only [List.forall_mem_cons]
      exact ⟨.text ⟨by decide, by decide, by decide, by decide⟩, writable_bracedSection,
        .comment ⟨by decide, by decide, by decide⟩, by simp⟩
    · simp [Apart, isText, bracedSection]
  refine parse_written (by decide) ?_ (by simp [Apart, isText])
  simp only [List.forall_mem_cons]
  exact ⟨.text ⟨by decide, by decide, by decide, by decide⟩, hblock,
    .inclusion (by decide) ⟨by decide, by decide, by decide⟩,
    .text ⟨by decide, by decide, by decide, by decide⟩, by simp⟩

end Node

end Whisker
