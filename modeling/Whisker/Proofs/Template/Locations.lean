import Mathlib
import Whisker.Proofs.Template.LoneTags
import Whisker.Proofs.Template.Marks

/-! Locations: the line and the column that are told of a token, a node or an error lead back to one
offset of the source, and there the stretch or the tag starts that they are told of. -/

namespace Whisker

/-! ## Lines and columns -/

/-- The offset at which a line starts. -/
def Text.lineStart : Text → Nat → Nat
  | c :: t, line + 2 => Text.lineStart t (if c = '\n' then line + 1 else line + 2) + 1
  | _, _ => 0

namespace Text

theorem lineStart_one (t : Text) : lineStart t 1 = 0 := by cases t <;> rfl

theorem lineStart_cons_feed (t : Text) (line : Nat) :
    lineStart ('\n' :: t) (line + 2) = lineStart t (line + 1) + 1 := rfl

theorem lineStart_cons_of_ne {c : Char} (hc : c ≠ '\n') (t : Text) (line : Nat) :
    lineStart (c :: t) (line + 2) = lineStart t (line + 2) + 1 := by
  rw [lineStart, if_neg hc]

/-- A line starts right behind the line feed that ends the one before it. -/
theorem lineStart_append_feed (s t : Text) :
    lineStart (s ++ '\n' :: t) (s.count '\n' + 2) = s.length + 1 := by
  induction s with
  | nil => simp [lineStart_cons_feed, lineStart_one]
  | cons c s ih =>
      rw [List.cons_append, List.length_cons]
      by_cases hc : c = '\n'
      · subst hc
        rw [List.count_cons_self, lineStart_cons_feed, ih]
      · rw [List.count_cons_of_ne hc, lineStart_cons_of_ne hc, ih]

end Text

namespace Place

/-- A place of the source at which line and column say the same as the offset. Lines are counted by
line feeds, and columns from the start of the line. -/
structure PointsInto (source : Text) (p : Place) : Prop where
  offset_le : p.offset ≤ source.length
  line_eq : p.line = 1 + (source.take p.offset).count '\n'
  column_pos : 1 ≤ p.column
  offset_eq : source.lineStart p.line + (p.column - 1) = p.offset

/-- An earlier line, or an earlier column of the same line. -/
def Before (p q : Place) : Prop := p.line < q.line ∨ p.line = q.line ∧ p.column < q.column

theorem lineStart_add_column (front rest : Text) :
    (front ++ rest).lineStart (start.after front).line + ((start.after front).column - 1) =
      front.length := by
  induction front using List.reverseRecOn generalizing rest with
  | nil => exact Text.lineStart_one rest
  | append_singleton front c ih =>
      have hline : (start.after front).line = front.count '\n' + 1 := by
        rw [line_after, Nat.add_comm]
        rfl
      have hcolumn := Token.Place.column_pos_after (p := start) Nat.one_pos front
      have hfront := ih (c :: rest)
      rw [after_append, after_cons, after_nil, List.append_assoc, List.singleton_append,
        List.length_append, List.length_singleton, next]
      rw [hline] at hfront
      by_cases hc : c = '\n'
      · subst hc
        rw [if_pos rfl, hline]
        exact Text.lineStart_append_feed front rest
      · rw [if_neg hc, hline]
        dsimp only
        omega

/-- Every place that is reached by reading on points into what was read. -/
theorem pointsInto_after (front rest : Text) :
    (start.after front).PointsInto (front ++ rest) := by
  have hoffset : (start.after front).offset = front.length := by simp [start]
  refine ⟨?_, ?_, Token.Place.column_pos_after Nat.one_pos front, ?_⟩
  · rw [hoffset, List.length_append]
    omega
  · rw [hoffset, List.take_left]
    exact line_after start front
  · rw [hoffset]
    exact lineStart_add_column front rest

/-- Of two places the one further on has the later line, or the later column. -/
theorem PointsInto.before {source : Text} {p q : Place} (hp : p.PointsInto source)
    (hq : q.PointsInto source) (h : p.offset < q.offset) : p.Before q := by
  have hprefix : source.take p.offset <+: source.take q.offset :=
    List.take_prefix_take_left (Nat.le_of_lt h)
  have hcount := hprefix.sublist.count_le '\n'
  have hlines : p.line ≤ q.line := by
    rw [hp.line_eq, hq.line_eq]
    omega
  by_cases hl : p.line = q.line
  · refine .inr ⟨hl, ?_⟩
    have hp' := hp.offset_eq
    have hq' := hq.offset_eq
    have hcolumn := hp.column_pos
    rw [hl] at hp'
    omega
  · exact .inl (by omega)

end Place

namespace Token

/-! ## Tokens -/

/-- What the token says starts at its place: its text, or the opening mark of a tag that reads as
it does. -/
inductive StartsIn (source : Text) (token : Token) : Prop where
  | text {content} (hl : token.lexeme = .text content) (hne : content ≠ [])
      (hp : content <+: source.drop token.place.offset)
  | tag {inner r} (hs : source.drop token.place.offset = token.delimiters.opening ++ inner)
      (hr : readTag token.delimiters inner = .ok r) (hl : token.lexeme = r.lexeme)

structure Located (source : Text) (token : Token) : Prop where
  points : token.place.PointsInto source
  starts : StartsIn source token

theorem drop_offset_after (front rest : Text) :
    (front ++ rest).drop (Place.start.after front).offset = rest := by
  have hoffset : (Place.start.after front).offset = front.length := by simp [Place.start]
  rw [hoffset, List.drop_left]

theorem located_of_mem_textTokens {front content : Text} {token : Token}
    (h : token ∈ textTokens (Place.start.after front) content) (rest : Text) :
    Located (front ++ (content ++ rest)) token := by
  rcases textTokens_eq (Place.start.after front) content with ⟨he, -⟩ | ⟨he, hne⟩
  · simp [he] at h
  · rw [he, List.mem_singleton] at h
    subst h
    refine ⟨Place.pointsInto_after front _, .text rfl hne ?_⟩
    rw [ofText, drop_offset_after]
    exact List.prefix_append content rest

theorem located_tagToken {d : Delimiters} {inner : Text} {r : Reading}
    (hr : readTag d inner = .ok r) (front before : Text) (line : Line) (indent : Option Text) :
    Located (front ++ before ++ (d.opening ++ inner))
      (tagToken d (Place.start.after front) before r line indent) := by
  have hplace : (tagToken d (Place.start.after front) before r line indent).place =
      Place.start.after (front ++ before) := (Place.after_append _ _ _).symm
  refine ⟨?_, .tag ?_ hr rfl⟩
  · rw [hplace]
    exact Place.pointsInto_after (front ++ before) _
  · rw [hplace]
    exact drop_offset_after (front ++ before) _

/-- A step over a tag goes on at the place behind all that it has read. -/
theorem exists_front_of_step {d : Delimiters} {t before inner : Text} {r : Reading}
    (hc : Text.cut? d.opening t = some (before, inner)) (hr : readTag d inner = .ok r)
    (front : Text) :
    ∃ read, (step d (Place.start.after front) before r).place = Place.start.after read ∧
      read ++ (step d (Place.start.after front) before r).rest = front ++ t := by
  obtain ⟨line, indent, hl, -, hplace, hrest⟩ := step_spec d (Place.start.after front) before r
  refine ⟨front ++ (before ++ (d.opening ++ r.source) ++ line.tail), ?_, ?_⟩
  · rw [hplace, ← Place.after_append]
  · rw [hrest, eq_of_tag hc hr, hl.rest_eq]
    simp only [List.append_assoc]

theorem Scans.located {d : Delimiters} {p : Place} {t : Text} {tokens : List Token}
    (h : Scans d p t tokens) (front : Text) (hp : p = Place.start.after front) :
    ∀ token ∈ tokens, Located (front ++ t) token := by
  induction h generalizing front with
  | @rest d p t =>
      subst hp
      intro token hm
      simpa using located_of_mem_textTokens hm []
  | @tag d p t before inner r more hc hr _ ih =>
      subst hp
      obtain ⟨read, hread, hsource⟩ := exists_front_of_step hc hr front
      obtain ⟨line, indent, hl, htokens, -, -⟩ := step_spec d (Place.start.after front) before r
      have ht : t = before ++ (d.opening ++ inner) := by
        rw [Text.eq_of_cut? hc, List.append_assoc]
      intro token hm
      rcases List.mem_append.mp hm with hm | hm
      · rw [htokens] at hm
        rcases List.mem_append.mp hm with hm | hm
        · have habove := located_of_mem_textTokens hm (line.indent ++ (d.opening ++ inner))
          rwa [← List.append_assoc line.above, ← hl.before_eq, ← ht] at habove
        · obtain rfl := List.mem_singleton.mp hm
          have htag := located_tagToken hr front before line indent
          rwa [List.append_assoc, ← ht] at htag
      · rw [← hsource]
        exact ih read hread token hm

theorem located_of_scan {d : Delimiters} {source : Text} {tokens : List Token}
    (h : scan d source = .ok tokens) : ∀ token ∈ tokens, Located source token := by
  have hs : Scans d .start source tokens := scanFrom_derivation h
  exact hs.located [] rfl

/-- The places of tokens come one behind the other. -/
theorem pairwise_before_of_scan {d : Delimiters} {source : Text} {tokens : List Token}
    (h : scan d source = .ok tokens) :
    tokens.Pairwise fun a b => a.place.Before b.place := by
  have hs : Scans d .start source tokens := scanFrom_derivation h
  have hfits : ∀ token ∈ tokens, Fits source token := hs.fits [] rfl
  have hlocated := located_of_scan h
  refine hs.tiles.pairwise.imp_of_mem ?_
  intro a b ha hb hab
  apply (hlocated a ha).points.before (hlocated b hb).points
  have hstart := (hfits a ha).start_lt
  have hstop := (hfits a ha).stop_le
  have hnext := (hfits b hb).start_le
  omega

/-! ## Tags that cannot be read -/

/-- A scan that reads some tokens and stops at the first tag that it cannot read. -/
inductive Stops : Delimiters → Place → Text → List Token → TemplateError → Prop where
  | here {d p t before inner fault} (hc : Text.cut? d.opening t = some (before, inner))
      (hr : readTag d inner = .error fault) : Stops d p t [] ⟨fault, p.after before⟩
  | behind {d p t before inner r tokens e} (hc : Text.cut? d.opening t = some (before, inner))
      (hr : readTag d inner = .ok r)
      (hs : Stops (nextDelimiters d r.lexeme) (step d p before r).place (step d p before r).rest
        tokens e) :
      Stops d p t ((step d p before r).tokens ++ tokens) e

theorem exists_stops {d : Delimiters} {p : Place} {t : Text} {e : TemplateError}
    (h : scanFrom d p t = .error e) : ∃ tokens, Stops d p t tokens e := by
  fun_induction scanFrom d p t with
  | case1 => cases h
  | case2 d p t before inner hc fault hr =>
      cases h
      exact ⟨[], .here hc hr⟩
  | case3 d p t before inner hc r hr s _ e' he ih =>
      cases h
      obtain ⟨tokens, hs⟩ := ih he
      change Stops (step d p before r).delimiters _ _ tokens e at hs
      rw [delimiters_step] at hs
      exact ⟨_, .behind hc hr hs⟩
  | case4 => cases h

theorem lastDelimiters_step (d : Delimiters) (p : Place) (before : Text) (r : Reading) :
    lastDelimiters d (step d p before r).tokens = nextDelimiters d r.lexeme := by
  obtain ⟨line, indent, -, htokens, -, -⟩ := step_spec d p before r
  rw [htokens, lastDelimiters_append, lastDelimiters_textTokens]
  rfl

/-- At the place of the error a tag starts that cannot be read, with the marks that are in force
behind the tokens. -/
def FaultyAt (d : Delimiters) (source : Text) (tokens : List Token) (e : TemplateError) : Prop :=
  ∃ inForce inner, InForce d tokens inForce ∧
    source.drop e.place.offset = inForce.opening ++ inner ∧ readTag inForce inner = .error e.fault

theorem Stops.points {d : Delimiters} {p : Place} {t : Text} {tokens : List Token}
    {e : TemplateError} (h : Stops d p t tokens e) (front : Text)
    (hp : p = Place.start.after front) : e.place.PointsInto (front ++ t) := by
  induction h generalizing front with
  | @here d p t before inner fault hc hr =>
      subst hp
      rw [Text.eq_of_cut? hc, List.append_assoc, ← List.append_assoc front, ← Place.after_append]
      exact Place.pointsInto_after (front ++ before) _
  | @behind d p t before inner r tokens e hc hr _ ih =>
      subst hp
      obtain ⟨read, hread, hsource⟩ := exists_front_of_step hc hr front
      rw [← hsource]
      exact ih read hread

theorem Stops.drop_eq {d : Delimiters} {p : Place} {t : Text} {tokens : List Token}
    {e : TemplateError} (h : Stops d p t tokens e) (front : Text)
    (hp : p = Place.start.after front) :
    ∃ inner, (front ++ t).drop e.place.offset = (lastDelimiters d tokens).opening ++ inner ∧
      readTag (lastDelimiters d tokens) inner = .error e.fault := by
  induction h generalizing front with
  | @here d p t before inner fault hc hr =>
      subst hp
      refine ⟨inner, ?_, hr⟩
      rw [Text.eq_of_cut? hc, List.append_assoc, ← List.append_assoc front, ← Place.after_append]
      exact drop_offset_after (front ++ before) _
  | @behind d p t before inner r tokens e hc hr _ ih =>
      subst hp
      obtain ⟨read, hread, hsource⟩ := exists_front_of_step hc hr front
      rw [← hsource, lastDelimiters_append, lastDelimiters_step]
      exact ih read hread

end Token

namespace Node

open Token

/-! ## Nodes -/

/-- What the tree keeps of the place of a token: that of a variable, of a pragma and of an opening
tag, with the mark of it. -/
def spotOf? (token : Token) : Option (Mark × Place) :=
  match token.lexeme with
  | .variable _ | .raw _ | .pragma _ | .opening _ _ => (markOf? token).map (·, token.place)
  | _ => none

mutual

/-- The places in a node, in order. -/
def spots : Node → List (Mark × Place)
  | .variable name true place => [(.lexeme (.variable name), place)]
  | .variable name false place => [(.lexeme (.raw name), place)]
  | .pragma call place => [(.pragma call, place)]
  | .enclosure kind name children _ _ place _ =>
    (.lexeme (.opening kind name), place) :: forestSpots children
  | _ => []

def forestSpots : List Node → List (Mark × Place)
  | [] => []
  | node :: nodes => spots node ++ forestSpots nodes

end

theorem spots_of_leaf? {token : Token} {node : Node} (h : leaf? token = some node) :
    (spotOf? token).toList = spots node := by
  rw [leaf?] at h
  split at h <;> rename_i hl <;> simp only [spotOf?, markOf?, hl]
  case h_7 =>
      obtain ⟨call, hc, rfl⟩ := Option.map_eq_some_iff.mp h
      simp [hc, spots]
  all_goals cases h
  all_goals simp [spots]

/-- The nodes of a tree have just the places of their tokens, each its own. -/
theorem Grown.spots {source : Text} {tokens : List Token} {nodes : List Node}
    (h : Grown source tokens nodes) : forestSpots nodes = tokens.filterMap spotOf? := by
  induction h with
  | nil => simp [forestSpots]
  | @leaf token rest node nodes hl hr ih =>
      rw [forestSpots, ← spots_of_leaf? hl, ih, List.filterMap_cons]
      cases spotOf? token <;> rfl
  | @enclosure opening _ closing _ kind name _ _ ho hc _ _ ihi ihr =>
      have hos : spotOf? opening = some (.lexeme (.opening kind name), opening.place) := by
        simp [spotOf?, markOf?, ho]
      have hcs : spotOf? closing = none := by simp [spotOf?, hc]
      simp [forestSpots, Node.spots, hos, hcs, ihi, ihr]

theorem exists_token_of_spot {tokens : List Token} {spot : Mark × Place}
    (h : spot ∈ tokens.filterMap spotOf?) : ∃ token ∈ tokens, token.place = spot.2 := by
  obtain ⟨token, hm, hs⟩ := List.mem_filterMap.mp h
  refine ⟨token, hm, ?_⟩
  rw [spotOf?] at hs
  split at hs
  case h_5 => cases hs
  all_goals
    obtain ⟨mark, -, rfl⟩ := Option.map_eq_some_iff.mp hs
    rfl

/-! ## Section tags without a partner -/

theorem mem_of_pending {tokens opened : List Token} {opening : Token}
    (h : Pending tokens (opening :: opened)) : opening ∈ tokens := by
  cases h
  simp

theorem exists_token_of_misnested {tokens : List Token} {e : TemplateError}
    (h : Misnested tokens e) : ∃ token ∈ tokens, token.IsBracket ∧ token.place = e.place := by
  cases h with
  | @stray before closing rest name hb hc => exact ⟨closing, by simp, .inr ⟨name, hc⟩, rfl⟩
  | @crossed before opening opened closing rest kind name other hb ho hc hne =>
      exact ⟨closing, by simp, .inr ⟨name, hc⟩, rfl⟩
  | @unclosed _ opening opened kind name hp ho =>
      exact ⟨opening, mem_of_pending hp, .inl ⟨kind, name, ho⟩, rfl⟩

/-! ## Sources -/

/-- What is told of a place in a source is exact: line and column lead to one offset, at which the
text or the tag starts, and from token to token they grow. The nodes have the places of their
tokens. An error is at the first tag that cannot be read, or at a section tag without a partner. -/
theorem parse_locates (d : Delimiters) (source : Text) :
    (∀ tokens, scan d source = .ok tokens →
      (∀ token ∈ tokens, Located source token) ∧
      (tokens.Pairwise fun a b => a.place.Before b.place) ∧
      ∀ nodes, ofTokens source tokens = .ok nodes →
        forestSpots nodes = tokens.filterMap spotOf? ∧
          ∀ spot ∈ forestSpots nodes, spot.2.PointsInto source) ∧
    ∀ e, parse d source = .error e → e.place.PointsInto source ∧
      ((∃ tokens, Stops d .start source tokens e ∧ FaultyAt d source tokens e) ∨
        ∃ tokens, scan d source = .ok tokens ∧ Misnested tokens e ∧
          ∃ token ∈ tokens, token.IsBracket ∧ token.place = e.place) := by
  refine ⟨fun tokens h => ⟨located_of_scan h, pairwise_before_of_scan h, ?_⟩, fun e he => ?_⟩
  · intro nodes hn
    have hs : ∀ token ∈ tokens, token.Scanned := fun token hm => ⟨d, source, tokens, h, hm⟩
    have hspots := ((ofTokens_eq_ok_iff hs).mp hn).spots
    refine ⟨hspots, fun spot hm => ?_⟩
    rw [hspots] at hm
    obtain ⟨token, ht, hplace⟩ := exists_token_of_spot hm
    rw [← hplace]
    exact (located_of_scan h token ht).points
  · cases h : scan d source with
    | error e' =>
        have he' : e' = e := by simpa [parse, h, bind, Except.bind] using he
        subst he'
        obtain ⟨tokens, hstops⟩ := exists_stops h
        obtain ⟨inner, hdrop, hread⟩ := hstops.drop_eq [] rfl
        refine ⟨hstops.points [] rfl, .inl ⟨tokens, hstops, ?_⟩⟩
        exact ⟨_, inner, inForce_lastDelimiters d tokens, hdrop, hread⟩
    | ok tokens =>
        have hs : ∀ token ∈ tokens, token.Scanned := fun token hm => ⟨d, source, tokens, h, hm⟩
        have hm : Misnested tokens e := by
          apply (ofTokens_eq_error_iff hs).mp
          simpa [parse, h, bind, Except.bind] using he
        obtain ⟨token, ht, hbracket, hplace⟩ := exists_token_of_misnested hm
        refine ⟨?_, .inr ⟨tokens, rfl, hm, token, ht, hbracket, hplace⟩⟩
        rw [← hplace]
        exact (located_of_scan h token ht).points

/-- A tag over two lines, and a variable in its section. -/
def closedSource : Text := "\x7b\x7b#s\n\x7d\x7d\x7b\x7bx\x7d\x7d\x7b\x7b/s\x7d\x7d".toList

def closedTokens : List Token :=
  [⟨.opening .plain ['s'], ⟨0, 1, 1⟩, 7, 0, 7, none, .standard⟩,
    ⟨.variable ['x'], ⟨7, 2, 3⟩, 12, 7, 12, none, .standard⟩,
    ⟨.closing ['s'], ⟨12, 2, 8⟩, 18, 12, 18, none, .standard⟩]

def closedForest : List Node :=
  [.enclosure .plain ['s'] [.variable ['x'] true ⟨7, 2, 3⟩] "\x7b\x7bx\x7d\x7d".toList .standard
    ⟨0, 1, 1⟩ []]

/-- A comment that takes its line with it, and a tag that nothing closes. -/
def unclosedSource : Text := "a\n {{!x}}\nb\x7b\x7b#s\n\x7d\x7dc".toList

theorem sources_located :
    scan .standard closedSource = .ok closedTokens ∧
      (∀ token ∈ closedTokens, Located closedSource token) ∧
      (closedTokens.Pairwise fun a b => a.place.Before b.place) ∧
      ofTokens closedSource closedTokens = .ok closedForest ∧
      (∀ spot ∈ forestSpots closedForest, spot.2.PointsInto closedSource) ∧
      parse .standard unclosedSource = .error ⟨.unclosedSection ['s'], ⟨11, 3, 2⟩⟩ ∧
      (⟨11, 3, 2⟩ : Place).PointsInto unclosedSource := by
  have hscan : scan .standard closedSource = .ok closedTokens := by cbv
  have hnodes : ofTokens closedSource closedTokens = .ok closedForest := by cbv
  have herror : parse .standard unclosedSource =
      .error ⟨.unclosedSection ['s'], ⟨11, 3, 2⟩⟩ := by
    cbv
  obtain ⟨htokens, hbefore, hforest⟩ := (parse_locates .standard closedSource).1 _ hscan
  obtain ⟨hpoints, -⟩ := (parse_locates .standard unclosedSource).2 _ herror
  exact ⟨hscan, htokens, hbefore, hnodes, (hforest _ hnodes).2, herror, hpoints⟩

end Node

end Whisker
