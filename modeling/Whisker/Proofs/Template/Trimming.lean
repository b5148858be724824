import Whisker.Proofs.Template.Nesting

/-! Trimming: the scanner leaves no blanks around the names in a document. -/

namespace Whisker

/-! ## Trimmed texts -/

namespace Text

theorem head?_dropWhile {p : Char → Bool} (t : Text) : ∀ c ∈ (t.dropWhile p).head?, p c = false := by
  intro c hc
  have hnot := List.head?_dropWhile_not p t
  rw [hc] at hnot
  exact hnot

/-- There is nothing left to trim in a trimmed text. -/
theorem strip_strip (t : Text) : strip (strip t) = strip t := by
  have hhead := head?_dropWhile (p := isBlank) t
  have hlast := head?_dropWhile (p := isBlank) (t.dropWhile isBlank).reverse
  apply strip_eq_self
  · intro c hc
    rw [strip, trim, List.head?_reverse] at hc
    obtain ⟨cut, hcut⟩ := List.dropWhile_suffix (l := (t.dropWhile isBlank).reverse) isBlank
    apply hhead
    rw [← List.getLast?_reverse, ← hcut, List.getLast?_append, hc]
    rfl
  · intro c hc
    rw [strip, trim, List.getLast?_reverse] at hc
    exact hlast c hc

end Text

namespace Token

open Text (strip strip_strip)

/-- All that has a name has one without blanks around it. -/
def Trimmed : Lexeme → Prop
  | .text _ => True
  | .delimiterChange _ => True
  | lexeme => strip lexeme.value = lexeme.value

theorem trimmed_lexemeOfContent {t : Text} {lexeme : Lexeme}
    (h : lexemeOfContent (strip t) = .ok lexeme) : Trimmed lexeme := by
  unfold lexemeOfContent at h
  simp only at h
  split at h
  case h_8 =>
    cases h
    exact strip_strip _
  case h_10 =>
    split at h
    · cases h
      trivial
    · cases h
  all_goals
    obtain ⟨rfl, -⟩ := named_strip h
    exact strip_strip _

theorem trimmed_readTag {d : Delimiters} {t : Text} {r : Reading} (h : readTag d t = .ok r) :
    Trimmed r.lexeme := by
  unfold readTag at h
  simp only [bind, Except.bind] at h
  split at h
  · split at h
    · cases h
    · split at h <;> cases h
      next hn =>
        obtain ⟨rfl, -⟩ := named_strip hn
        exact strip_strip _
  · split at h
    · cases h
    · split at h <;> cases h
      next hn => exact trimmed_lexemeOfContent hn

theorem Scans.trimmed {d : Delimiters} {p : Place} {t : Text} {tokens : List Token}
    (h : Scans d p t tokens) : ∀ token ∈ tokens, Trimmed token.lexeme := by
  have htext : ∀ p content, ∀ token ∈ textTokens p content, Trimmed token.lexeme := by
    intro p content token hm
    rcases textTokens_eq p content with ⟨he, -⟩ | ⟨he, -⟩
    · simp [he] at hm
    · rw [he, List.mem_singleton] at hm
      rw [hm]
      trivial
  induction h with
  | rest hc => exact htext _ _
  | @tag d p t before inner r more hc hr _ ih =>
      obtain ⟨line, indent, -, htokens, -, -⟩ := step_spec d p before r
      intro token hm
      rw [htokens, List.append_assoc, List.mem_append, List.mem_append, List.mem_singleton] at hm
      rcases hm with hm | rfl | hm
      · exact htext _ _ token hm
      · exact trimmed_readTag hr
      · exact ih token hm

end Token

/-! ## Documents -/

namespace Node

open Token (Trimmed)

/-- `P` holds of the name of each variable in the tree. -/
inductive AllVariables (P : Text → Prop) : Node → Prop where
  | text {content} : AllVariables P (.text content)
  | variable {name isEscaped place} (h : P name) : AllVariables P (.variable name isEscaped place)
  | comment {content} : AllVariables P (.comment content)
  | delimiterChange {next} : AllVariables P (.delimiterChange next)
  | pragma {call place} : AllVariables P (.pragma call place)
  | inclusion {name indent} : AllVariables P (.inclusion name indent)
  | enclosure {kind name children body delimiters place indent}
      (h : ∀ n ∈ children, AllVariables P n) :
      AllVariables P (.enclosure kind name children body delimiters place indent)

theorem AllVariables.and {P Q : Text → Prop} {n : Node} (hp : n.AllVariables P)
    (hq : n.AllVariables Q) : n.AllVariables fun name => P name ∧ Q name := by
  induction hp with
  | «variable» hp =>
      cases hq with
      | «variable» hq => exact .variable ⟨hp, hq⟩
  | enclosure _ ih =>
      cases hq with
      | enclosure hq => exact .enclosure fun n hm => ih n hm (hq n hm)
  | _ => constructor

theorem AllVariables.name {P : Text → Prop} {name : Text} {isEscaped : Bool} {place : Place}
    (h : AllVariables P (.variable name isEscaped place)) : P name := by
  cases h with
  | «variable» h => exact h

theorem AllVariables.children {P : Text → Prop} {kind : Enclosure} {name : Text}
    {children : List Node} {body : Text} {d : Delimiters} {place : Place} {indent : Text}
    (h : AllVariables P (.enclosure kind name children body d place indent)) :
    ∀ n ∈ children, AllVariables P n := by
  cases h with
  | enclosure h => exact h

theorem trimmed_of_leaf? {token : Token} {node : Node} (ht : Trimmed token.lexeme)
    (h : leaf? token = some node) : node.AllVariables fun name => Text.strip name = name := by
  rw [leaf?] at h
  split at h
  case h_2 name hl | h_3 name hl =>
      cases h
      rw [hl] at ht
      exact .variable ht
  case h_7 =>
      obtain ⟨call, -, rfl⟩ := Option.map_eq_some_iff.mp h
      exact .pragma
  all_goals cases h
  all_goals constructor

theorem Grown.trimmed {source : Text} {tokens : List Token} {nodes : List Node}
    (h : Grown source tokens nodes) (ht : ∀ token ∈ tokens, Trimmed token.lexeme) :
    ∀ n ∈ nodes, n.AllVariables fun name => Text.strip name = name := by
  induction h with
  | nil => simp
  | leaf hl _ ih =>
      obtain ⟨hfirst, ht⟩ := List.forall_mem_cons.mp ht
      exact List.forall_mem_cons.mpr ⟨trimmed_of_leaf? hfirst hl, ih ht⟩
  | enclosure _ _ _ _ ihi ihr =>
      refine List.forall_mem_cons.mpr ⟨.enclosure ?_, ?_⟩
      · exact ihi fun token hm => ht token (by simp [hm])
      · exact ihr fun token hm => ht token (by simp [hm])

theorem trimmed_of_parse {d : Delimiters} {source : Text} {nodes : List Node}
    (h : parse d source = .ok nodes) :
    ∀ n ∈ nodes, n.AllVariables fun name => Text.strip name = name := by
  obtain ⟨tokens, hscan, hgrow⟩ := parse_eq_ok_iff.mp h
  have hs : ∀ token ∈ tokens, token.Scanned := fun token hm => ⟨d, source, tokens, hscan, hm⟩
  exact ((ofTokens_eq_ok_iff hs).mp hgrow).trimmed (Token.scanFrom_derivation hscan).trimmed

end Node

end Whisker
