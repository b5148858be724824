import Whisker.Proofs.Template.Nesting

/-! Malformed templates: a source has a document, or a tag of it cannot be read, or its section tags
do not match. The builder never meets a tag whose value it cannot read again. -/

namespace Whisker

/-! ## Pairs of marks -/

namespace Delimiters

/-- The marks of a pair without blanks are the words of its text. -/
theorem words_text {d : Delimiters} (hd : d.Solid) : Text.words d.text = d.texts := by
  have hne : ∀ v ∈ [d.opening, d.closing], v ≠ [] := by
    simp [d.opening_ne_nil, d.closing_ne_nil]
  have hw : ∀ v ∈ [d.opening, d.closing], ∀ c ∈ v, Text.isBlank c = false := by
    intro v hv c hc
    apply hd c
    rcases List.mem_cons.mp hv with rfl | hv
    · exact List.mem_append_left _ hc
    · obtain rfl := List.mem_singleton.mp hv
      exact List.mem_append_right _ hc
  simpa [text, texts] using Text.words_flatMap hne hw

end Delimiters

/-! ## Faults of tags -/

/-- What the scanner reports of a tag that it cannot read. -/
inductive Fault.OfTag : Fault → Prop where
  | unclosed (mark : Text) : OfTag (.unclosedTag mark)
  | malformed (content : Text) : OfTag (.malformedDelimiterChange content)
  | nameless : OfTag .emptyTagName

namespace Token

theorem ofTag_named {make : Text → Lexeme} {name : Text} {fault : Fault}
    (h : named make name = .error fault) : fault.OfTag := by
  rw [named] at h
  split at h <;> cases h
  exact .nameless

theorem ofTag_lexemeOfContent {content : Text} {fault : Fault}
    (h : lexemeOfContent content = .error fault) : fault.OfTag := by
  unfold lexemeOfContent at h
  simp only at h
  split at h
  case h_8 => cases h
  case h_10 =>
    split at h <;> cases h
    exact .malformed content
  all_goals exact ofTag_named h

theorem ofTag_readTag {d : Delimiters} {t : Text} {fault : Fault}
    (h : readTag d t = .error fault) : fault.OfTag := by
  unfold readTag at h
  simp only [bind, Except.bind] at h
  split at h
  · split at h
    · cases h
      exact .unclosed _
    · split at h <;> cases h
      next hn => exact ofTag_named hn
  · split at h
    · cases h
      exact .unclosed _
    · split at h <;> cases h
      next hn => exact ofTag_lexemeOfContent hn

theorem ofTag_scanFrom {d : Delimiters} {p : Place} {t : Text} {e : TemplateError}
    (h : scanFrom d p t = .error e) : e.fault.OfTag := by
  fun_induction scanFrom d p t with
  | case1 => cases h
  | case2 d p t before inner hc fault hr =>
      cases h
      exact ofTag_readTag hr
  | case3 d p t before inner hc r hr s _ e' he ih =>
      cases h
      exact ih he
  | case4 => cases h

/-! ## Values that are read again -/

/-- Behind a tag that changes the delimiters the scan goes on with the pair that the tag names. -/
theorem Scans.behind_change {d : Delimiters} {p : Place} {t : Text} {tokens : List Token}
    (h : Scans d p t tokens) {token : Token} {after : List Token} (hs : token :: after <:+ tokens)
    {next : Delimiters} (hl : token.lexeme = .delimiterChange next) :
    ∃ p' rest, rest <:+ t ∧ Scans next p' rest after := by
  have hne {p content} {first : Token} (hf : textTokens p content = [first]) :
      token ≠ first := by
    rintro rfl
    rcases textTokens_eq p content with ⟨he, _⟩ | ⟨he, _⟩
    · rw [hf] at he; cases he
    · rw [hf] at he
      cases he
      cases hl
  induction h with
  | @rest d p t hc =>
      rcases textTokens_eq p t with ⟨he, _⟩ | ⟨he, _⟩
      · rw [he] at hs
        simp at hs
      · rw [he, List.suffix_cons_iff] at hs
        rcases hs with hs | hs
        · exact absurd (List.cons.inj hs).1 (hne he)
        · simp at hs
  | @tag d p t before inner r more hc hr hm ih =>
      obtain ⟨line, indent, hsplit, htokens, -, hrest⟩ := step_spec d p before r
      have hbelow : (step d p before r).rest <:+ t := by
        rw [hrest, eq_of_tag hc hr, hsplit.rest_eq]
        exact ⟨before ++ (d.opening ++ r.source) ++ line.tail, by simp⟩
      rw [htokens, List.append_assoc, List.singleton_append] at hs
      have htag : token :: after <:+ tagToken d p before r line indent :: more := by
        rcases textTokens_eq p line.above with ⟨he, _⟩ | ⟨he, _⟩
        · rwa [he] at hs
        · rw [he, List.singleton_append, List.suffix_cons_iff] at hs
          exact hs.resolve_left fun h => hne he (List.cons.inj h).1
      rcases List.suffix_cons_iff.mp htag with he | hs
      · obtain ⟨rfl, rfl⟩ := List.cons.inj he
        have hnext : nextDelimiters d r.lexeme = next := by
          rw [show r.lexeme = .delimiterChange next from hl]
          rfl
        exact ⟨_, _, hbelow, hnext ▸ hm⟩
      · obtain ⟨p', rest, hr', hs'⟩ := ih hs
        exact ⟨p', rest, hr'.trans hbelow, hs'⟩

/-- What the value of a token is read as, with `after` behind the token: that of a pragma has a
name, and the words of new delimiters are the marks with which the rest of the source is scanned. -/
def ReadsBack (source : Text) (token : Token) (after : List Token) : Prop :=
  match token.lexeme with
  | .pragma content => ∃ call, PragmaCall.ofText? content = some call ∧ call.name ≠ []
  | .delimiterChange next =>
    Text.words token.lexeme.value = next.texts ∧
      ∃ p rest, rest <:+ source ∧ scanFrom next p rest = .ok after
  | _ => True

theorem name_ne_nil_of_ofText? {content : Text} {call : PragmaCall}
    (h : PragmaCall.ofText? content = some call) : call.name ≠ [] := by
  rw [PragmaCall.ofText?] at h
  split at h
  · cases h
  · next name params hw =>
      cases h
      have hm : name ∈ Text.words content := by simp [hw]
      simpa using (List.mem_filter.mp hm).2

theorem readsBack_of_scan {d : Delimiters} {source : Text} {tokens : List Token}
    (h : scan d source = .ok tokens) {token : Token} {after : List Token}
    (hs : token :: after <:+ tokens) : ReadsBack source token after := by
  have hm : token ∈ tokens := hs.subset List.mem_cons_self
  have hscan : Scans d .start source tokens := scanFrom_derivation h
  rw [ReadsBack]
  split
  · next content hl =>
      have hscanned : token.Scanned := ⟨d, source, tokens, h, hm⟩
      obtain ⟨call, hc⟩ := hscanned.call hl
      exact ⟨call, hc, name_ne_nil_of_ofText? hc⟩
  · next next hl =>
      have hsolid : next.Solid := by
        rcases hscan.spoken token hm with ⟨_, he⟩ | hsp
        · rw [hl] at he
          cases he
        · rwa [hl] at hsp
      obtain ⟨p, rest, hr, hb⟩ := hscan.behind_change hs hl
      refine ⟨?_, p, rest, hr, hb.execution⟩
      rw [hl]
      exact Delimiters.words_text hsolid
  · trivial

end Token

/-! ## Sources -/

namespace Node

open Token

theorem unbalanced_of_misnested {tokens : List Token} {e : TemplateError}
    (h : Misnested tokens e) : e.fault.unbalanced?.isSome = true := by
  cases h <;> rfl

/-- What may become of a source: the tree of its tokens, the fault of a tag, or the first section tag
without a partner. -/
def Ends (d : Delimiters) (source : Text) : Except TemplateError (List Node) → Prop
  | .ok nodes => ∃ tokens, scan d source = .ok tokens ∧ Grown source tokens nodes
  | .error e =>
    scan d source = .error e ∧ e.fault.OfTag ∨
      ∃ tokens, scan d source = .ok tokens ∧ Misnested tokens e ∧
        e.fault.unbalanced?.isSome = true

/-- Whatever the source and the delimiters, there is a tree, or an error that tells what is wrong with
the template; each value that the builder reads once more is what the scanner read. -/
theorem parse_ends (d : Delimiters) (source : Text) :
    Ends d source (parse d source) ∧
      ∀ tokens, scan d source = .ok tokens →
        ∀ token after, token :: after <:+ tokens → ReadsBack source token after := by
  refine ⟨?_, fun tokens h token after hs => readsBack_of_scan h hs⟩
  rw [parse]
  cases h : scan d source with
  | error e => exact .inl ⟨h, ofTag_scanFrom h⟩
  | ok tokens =>
      have hs : ∀ token ∈ tokens, token.Scanned := fun token hm => ⟨d, source, tokens, h, hm⟩
      change Ends d source (ofTokens source tokens)
      cases hg : ofTokens source tokens with
      | ok nodes => exact ⟨tokens, h, (ofTokens_eq_ok_iff hs).mp hg⟩
      | error e =>
          have hm := (ofTokens_eq_error_iff hs).mp hg
          exact .inr ⟨tokens, h, hm, unbalanced_of_misnested hm⟩

end Node

end Whisker
