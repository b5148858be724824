import Whisker.Proofs.Template.Nesting

/-! Padding: the indents that a document keeps of its source are made of spaces and tabs only. -/

namespace Whisker

namespace Token

def IsPadding (t : Text) : Prop := ∀ c ∈ t, isPad c = true

theorem isPadding_nil : IsPadding [] := by simp [IsPadding]

theorem textTokens_padding {p : Place} {content : Text} {token : Token}
    (h : token ∈ textTokens p content) : IsPadding (token.indent.getD []) := by
  rcases textTokens_eq p content with ⟨he, _⟩ | ⟨he, _⟩
  · simp [he] at h
  · rw [he, List.mem_singleton] at h
    subst h
    exact isPadding_nil

theorem step_padding {d : Delimiters} {p : Place} {before : Text} {r : Reading} {token : Token}
    (h : token ∈ (step d p before r).tokens) : IsPadding (token.indent.getD []) := by
  unfold step at h
  simp only at h
  split at h
  · next line hl =>
      rcases List.mem_append.mp h with h | h
      · exact textTokens_padding h
      · rw [List.mem_singleton] at h
        subst h
        split at hl
        · exact (splits_of_aloneOnLine? hl).indent_pad
        · cases hl
  · rcases List.mem_append.mp h with h | h
    · exact textTokens_padding h
    · rw [List.mem_singleton] at h
      subst h
      exact isPadding_nil

theorem Scans.padding {d : Delimiters} {p : Place} {t : Text} {tokens : List Token}
    (h : Scans d p t tokens) : ∀ token ∈ tokens, IsPadding (token.indent.getD []) := by
  induction h with
  | rest => exact fun token hm => textTokens_padding hm
  | tag _ _ _ ih =>
      intro token hm
      rcases List.mem_append.mp hm with hm | hm
      · exact step_padding hm
      · exact ih token hm

end Token

namespace Node

open Token (IsPadding)

/-- Each indent of the tree is padding. -/
inductive Padded : Node → Prop where
  | text {content} : Padded (.text content)
  | variable {name isEscaped place} : Padded (.variable name isEscaped place)
  | comment {content} : Padded (.comment content)
  | delimiterChange {next} : Padded (.delimiterChange next)
  | pragma {call place} : Padded (.pragma call place)
  | inclusion {name indent} (hi : IsPadding (indent.getD [])) : Padded (.inclusion name indent)
  | enclosure {kind name children body delimiters place indent} (hi : IsPadding indent)
      (h : ∀ n ∈ children, Padded n) :
      Padded (.enclosure kind name children body delimiters place indent)

theorem padded_of_leaf? {token : Token} {node : Node} (ht : IsPadding (token.indent.getD []))
    (h : leaf? token = some node) : node.Padded := by
  rw [leaf?] at h
  split at h
  case h_6 =>
      cases h
      exact .inclusion ht
  case h_7 =>
      obtain ⟨call, -, rfl⟩ := Option.map_eq_some_iff.mp h
      exact .pragma
  all_goals cases h
  all_goals constructor

theorem Grown.padded {source : Text} {tokens : List Token} {nodes : List Node}
    (h : Grown source tokens nodes) (ht : ∀ token ∈ tokens, IsPadding (token.indent.getD [])) :
    ∀ n ∈ nodes, n.Padded := by
  induction h with
  | nil => simp
  | leaf hl _ ih =>
      obtain ⟨hfirst, ht⟩ := List.forall_mem_cons.mp ht
      exact List.forall_mem_cons.mpr ⟨padded_of_leaf? hfirst hl, ih ht⟩
  | enclosure ho hc _ _ ihi ihr =>
      refine List.forall_mem_cons.mpr ⟨.enclosure (ht _ List.mem_cons_self) ?_, ?_⟩
      · exact ihi fun token hm => ht token (by simp [hm])
      · exact ihr fun token hm => ht token (by simp [hm])

theorem padded_of_parse {d : Delimiters} {source : Text} {nodes : List Node}
    (h : parse d source = .ok nodes) : ∀ n ∈ nodes, n.Padded := by
  obtain ⟨tokens, hscan, hgrow⟩ := parse_eq_ok_iff.mp h
  have hs : ∀ token ∈ tokens, token.Scanned := fun token hm => ⟨d, source, tokens, hscan, hm⟩
  exact ((ofTokens_eq_ok_iff hs).mp hgrow).padded (Token.scanFrom_derivation hscan).padding

end Node

end Whisker
