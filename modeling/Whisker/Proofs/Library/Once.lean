import Mathlib
import Whisker.Proofs.Run.Logic

/-! Loading through a cache that is not cleared. What is in the cache stays, under the name of a
template that the resolver supplied or under a text that was given, and for a name that is in the
cache the resolver was asked once. -/

namespace Whisker

/-! ## Keys -/

namespace Library

variable (lib : Library)

def nameKey (name : Text) : Cache.Key := ⟨.name, name, lib.delimiters.texts⟩

def textKey (t : Text) : Cache.Key := ⟨.text, t, lib.delimiters.texts⟩

/-- A key for a name that the resolver has a text for, or for a text that was given. -/
inductive Admits (given : Text → Prop) : Cache.Key → Prop where
  | name {name source} (h : lib.sourceOf? name = .ok (some source)) :
      Admits given (lib.nameKey name)
  | text {t} (h : given t) : Admits given (lib.textKey t)

/-- The queries when the resolver is asked for a name, the latest first. -/
def ask (name : Text) : List Query :=
  ((lib.resolver.resolve lib.files name).asked.map fun key => Query.mk key name).reverse

/-- The key under which a template is looked for in the end. -/
def keyOf (partials : Entries Text) (nameOrText : Text) : Cache.Key :=
  match partials.get? nameOrText, lib.sourceOf? nameOrText with
  | some source, _ => lib.textKey source
  | none, .ok (some _) => lib.nameKey nameOrText
  | none, _ => lib.textKey nameOrText

variable {lib}

@[simp] theorem nameKey_inj {name other : Text} :
    lib.nameKey name = lib.nameKey other ↔ name = other := by
  simp [nameKey]

@[simp] theorem textKey_ne_nameKey (t name : Text) : lib.textKey t ≠ lib.nameKey name := by
  simp [textKey, nameKey]

theorem Admits.exists_source {given : Text → Prop} {name : Text}
    (h : lib.Admits given (lib.nameKey name)) : ∃ source, lib.sourceOf? name = .ok (some source) := by
  generalize hk : lib.nameKey name = key at h
  cases h with
  | name hs => exact ⟨_, nameKey_inj.mp hk ▸ hs⟩
  | text => exact absurd hk.symm (textKey_ne_nameKey _ _)

theorem name_eq_of_mem_ask {name : Text} {query : Query} (h : query ∈ lib.ask name) :
    query.name = name := by
  obtain ⟨key, -, rfl⟩ := List.mem_map.mp (List.mem_reverse.mp h)
  rfl

theorem filter_ask (name other : Text) :
    (lib.ask name).filter (·.name = other) = if name = other then lib.ask other else [] := by
  by_cases h : name = other
  · subst h
    rw [if_pos rfl, List.filter_eq_self]
    intro query hq
    simp [name_eq_of_mem_ask hq]
  · rw [if_neg h, List.filter_eq_nil_iff]
    intro query hq
    simpa [name_eq_of_mem_ask hq] using h

theorem ofName?_of_sourceOf? {name : Text} {found : Except Failure (Option Text)}
    (h : lib.sourceOf? name = found) :
    lib.ofName? name = found >>= fun found => match found with
      | none => return none
      | some source => return some (← lib.ofText source) := by
  rw [← h]
  rfl

theorem ofName?_eq_some_iff {name : Text} {nodes : List Node} :
    lib.ofName? name = .ok (some nodes) ↔
      ∃ source, lib.sourceOf? name = .ok (some source) ∧ lib.ofText source = .ok nodes := by
  cases hs : lib.sourceOf? name with
  | error e =>
      rw [ofName?_of_sourceOf? hs]
      simp [bind, Except.bind]
  | ok found =>
      rw [ofName?_of_sourceOf? hs]
      cases found with
      | none => simp [bind, Except.bind, pure, Except.pure]
      | some source =>
          cases ht : lib.ofText source <;> simp [bind, Except.bind, ht, pure, Except.pure]

end Library

/-! ## Caches -/

namespace Cache

theorem mem_putEntry {key : Key} {document : Document} {entries : List (Key × Document)}
    {entry : Key × Document} (h : entry ∈ putEntry key document entries) :
    entry.1 = key ∨ entry ∈ entries := by
  induction entries with
  | nil => simp_all [putEntry]
  | cons first entries ih =>
      obtain ⟨known, old⟩ := first
      rw [putEntry] at h
      split at h
      · rcases List.mem_cons.mp h with rfl | h
        · exact .inl rfl
        · exact .inr (List.mem_cons_of_mem _ h)
      · rcases List.mem_cons.mp h with rfl | h
        · exact .inr List.mem_cons_self
        · exact (ih h).imp_right (List.mem_cons_of_mem _)

theorem mem_of_find? {cache : Cache} {key : Key} {document : Document}
    (h : cache.find? key = some document) : ∃ entry ∈ cache.entries, entry.1 = key := by
  obtain ⟨entry, he, -⟩ := Option.map_eq_some_iff.mp h
  exact ⟨entry, List.mem_of_find?_eq_some he, by simpa using List.find?_some he⟩

variable {cache : Cache} (h : cache.enabled = true)
include h

theorem find?_put_eq (key other : Key) (document : Document) :
    (cache.put key document).find? other =
      if key = other then some document else cache.find? other := by
  rw [put, if_pos h, find?, find?_putEntry]
  split <;> rfl

theorem get?_eq_find? (key : Key) : (cache.get? key).1 = cache.find? key := by
  simp only [get?, h]
  cases cache.find? key <;> rfl

end Cache

/-! ## Loaders -/

/-- A loader between two clearings of its cache. The texts of templates are `given`, the resolver
had the queries in `earlier` before, and the cache was `old` at some time. -/
structure Loader.Once (lib : Library) (given : Text → Prop) (earlier : List Query) (old : Cache)
    (loader : Loader) : Prop where
  files : loader.files = lib.files
  resolver : loader.resolver = lib.resolver
  delimiters : loader.delimiters = lib.delimiters
  enabled : loader.cache.enabled = true
  admits : ∀ entry ∈ loader.cache.entries, lib.Admits given entry.1
  stays : ∀ key document, old.find? key = some document → loader.cache.find? key = some document
  asked : ∀ name nodes, lib.ofName? name = .ok (some nodes) →
    (loader.queries ++ earlier).filter (·.name = name) =
      (loader.cache.find? (lib.nameKey name)).elim [] fun _ => lib.ask name

namespace Loader.Once

variable {lib : Library} {given : Text → Prop} {earlier : List Query} {old : Cache}
  {loader : Loader} (h : loader.Once lib given earlier old)
include h

theorem looked (key : Cache.Key) :
    Once lib given earlier old { loader with cache := (loader.cache.get? key).2 } := by
  have he : (loader.cache.get? key).2.enabled = true ∧
      (loader.cache.get? key).2.entries = loader.cache.entries := by
    simp only [Cache.get?, h.enabled]
    cases loader.cache.find? key <;> simp
  refine ⟨h.files, h.resolver, h.delimiters, he.1, ?_, ?_, ?_⟩
  · simpa only [he.2] using h.admits
  · simpa only [Cache.find?_get?] using h.stays
  · simpa only [Cache.find?_get?] using h.asked

theorem built (next : Nat) : Once lib given earlier old { loader with nextDocument := next } :=
  ⟨h.files, h.resolver, h.delimiters, h.enabled, h.admits, h.stays, h.asked⟩

/-- Asking for a name that has no document leaves nothing in the cache. -/
theorem refused {name : Text} (hn : ∀ nodes, lib.ofName? name ≠ .ok (some nodes)) :
    Once lib given earlier old { loader with queries := lib.ask name ++ loader.queries } := by
  refine ⟨h.files, h.resolver, h.delimiters, h.enabled, h.admits, h.stays, ?_⟩
  intro other nodes ho
  have hne : name ≠ other := fun he => hn nodes (he ▸ ho)
  rw [List.append_assoc, List.filter_append, Library.filter_ask, if_neg hne, List.nil_append]
  exact h.asked other nodes ho

theorem stored {key : Cache.Key} (ha : lib.Admits given key)
    (hn : loader.cache.find? key = none) (document : Document) (more : List Query)
    (hmore : ∀ name nodes, lib.ofName? name = .ok (some nodes) →
      more.filter (·.name = name) = if key = lib.nameKey name then lib.ask name else [])
    (next : Nat) :
    Once lib given earlier old
      { loader with
        cache := loader.cache.put key document
        nextDocument := next
        queries := more ++ loader.queries } := by
  have hfind (other : Cache.Key) := Cache.find?_put_eq h.enabled key other document
  refine ⟨h.files, h.resolver, h.delimiters, ?_, ?_, ?_, ?_⟩
  · simp [Cache.put, h.enabled]
  · intro entry he
    simp only [Cache.put, h.enabled, if_true] at he
    rcases Cache.mem_putEntry he with hk | he
    · exact hk ▸ ha
    · exact h.admits entry he
  · intro other found ho
    have hf := h.stays other found ho
    have hne : key ≠ other := by
      rintro rfl
      rw [hn] at hf
      cases hf
    simp only [hfind, if_neg hne, hf]
  · intro name nodes ho
    have hasked := h.asked name nodes ho
    rw [List.append_assoc, List.filter_append, hmore name nodes ho, hasked]
    by_cases hk : key = lib.nameKey name
    · subst hk
      simp [hfind, hn]
    · simp [hfind, hk]

end Loader.Once

/-! ## Loading -/

namespace Loading

theorem run_build (d : Delimiters) (source : Text) (loader : Loader) :
    (build d source).run loader =
      match Node.parse d source with
      | .error e => (.error (.template e), loader)
      | .ok nodes =>
        (.ok ⟨loader.nextDocument, nodes⟩, { loader with nextDocument := loader.nextDocument + 1 }) := by
  rw [build]
  cases Node.parse d source <;> rfl

theorem run_resolve_eq_match (name : Text) (loader : Loader) :
    (resolve name).run loader =
      (match (loader.resolver.resolve loader.files name).result with
        | .ok text => (return text : Loading (Option Text))
        | .error e => throw e).run
        { loader with
          queries := ((loader.resolver.resolve loader.files name).asked.map
            fun key => Query.mk key name).reverse ++ loader.queries } :=
  rfl

theorem run_resolve (name : Text) (loader : Loader) :
    (resolve name).run loader =
      ((loader.resolver.resolve loader.files name).result,
        { loader with
          queries := ((loader.resolver.resolve loader.files name).asked.map
            fun key => Query.mk key name).reverse ++ loader.queries }) := by
  rw [run_resolve_eq_match]
  cases (loader.resolver.resolve loader.files name).result <;> rfl

/-- Builds a document and stores it under a key. -/
def stored {α : Type} (d : Delimiters) (source : Text) (key : Cache.Key) (give : Document → α) :
    Loading α := do
  let document ← build d source
  store key document
  return give document

theorem run_stored {α : Type} (d : Delimiters) (source : Text) (key : Cache.Key)
    (give : Document → α) (loader : Loader) :
    (stored d source key give).run loader =
      match Node.parse d source with
      | .error e => (.error (.template e), loader)
      | .ok nodes =>
        let document := ⟨loader.nextDocument, nodes⟩
        (.ok (give document),
          { loader with
            cache := loader.cache.put key document
            nextDocument := loader.nextDocument + 1 }) := by
  rw [stored, Fallible.run_bind, run_build]
  cases Node.parse d source <;> rfl

variable {lib : Library} {given : Text → Prop} {earlier : List Query} {old : Cache}
  {loader : Loader} (h : loader.Once lib given earlier old)
include h

theorem run_ofText_eq_match (t : Text) :
    (ofText t).run loader =
      (match (loader.cache.get? (lib.textKey t)).1 with
        | some document => return document
        | none => stored lib.delimiters t (lib.textKey t) id).run
        { loader with cache := (loader.cache.get? (lib.textKey t)).2 } := by
  rw [Library.textKey, ← h.delimiters]
  rfl

theorem run_ofText (t : Text) :
    (ofText t).run loader =
      let looked := { loader with cache := (loader.cache.get? (lib.textKey t)).2 }
      match loader.cache.find? (lib.textKey t) with
      | some document => (.ok document, looked)
      | none => (stored lib.delimiters t (lib.textKey t) id).run looked := by
  rw [run_ofText_eq_match h, Cache.get?_eq_find? h.enabled]
  cases loader.cache.find? (lib.textKey t) <;> rfl

theorem run_ofName?_eq_match (name : Text) :
    (ofName? name).run loader =
      (match (loader.cache.get? (lib.nameKey name)).1 with
        | some document => return some document
        | none => do
          match ← resolve name with
          | none => return none
          | some source => stored lib.delimiters source (lib.nameKey name) some).run
        { loader with cache := (loader.cache.get? (lib.nameKey name)).2 } := by
  rw [Library.nameKey, ← h.delimiters]
  rfl

theorem run_ofName? (name : Text) :
    (ofName? name).run loader =
      let looked := { loader with cache := (loader.cache.get? (lib.nameKey name)).2 }
      match loader.cache.find? (lib.nameKey name) with
      | some document => (.ok (some document), looked)
      | none =>
        let asked := { looked with queries := lib.ask name ++ loader.queries }
        match lib.sourceOf? name with
        | .error e => (.error e, asked)
        | .ok none => (.ok none, asked)
        | .ok (some source) => (stored lib.delimiters source (lib.nameKey name) some).run asked := by
  rw [run_ofName?_eq_match h, Cache.get?_eq_find? h.enabled]
  cases loader.cache.find? (lib.nameKey name) with
  | some document => rfl
  | none =>
      dsimp only
      rw [Fallible.run_bind, run_resolve, h.resolver, h.files]
      rw [show (lib.resolver.resolve lib.files name).result = lib.sourceOf? name from rfl]
      rcases lib.sourceOf? name with e | _ | source <;> rfl

/-- A text is in the cache behind the step, if the step gives a document. -/
theorem ofText_once {t : Text} (ht : given t) :
    ((ofText t).run loader).2.Once lib given earlier old ∧
      ∀ document, ((ofText t).run loader).1 = .ok document →
        ((ofText t).run loader).2.cache.find? (lib.textKey t) = some document := by
  have hlooked := h.looked (lib.textKey t)
  have hsame := Cache.find?_get? loader.cache (lib.textKey t) (lib.textKey t)
  rw [run_ofText h]
  cases hf : loader.cache.find? (lib.textKey t) with
  | some document =>
      refine ⟨hlooked, ?_⟩
      rintro _ ⟨⟩
      exact hsame.trans hf
  | none =>
      dsimp only
      rw [run_stored]
      cases Node.parse lib.delimiters t with
      | error e => exact ⟨hlooked, fun _ hd => by cases hd⟩
      | ok nodes =>
          refine ⟨hlooked.stored (.text ht) (hsame.trans hf) _ [] ?_ _, ?_⟩
          · intro name nodes _
            simp
          · rintro _ ⟨⟩
            exact (Cache.find?_put_eq hlooked.enabled _ _ _).trans (if_pos rfl)

/-- A name that the resolver has a text for is in the cache behind the step, if the step gives a
document; and only for other names the step gives none. -/
theorem ofName?_once (name : Text) :
    ((ofName? name).run loader).2.Once lib given earlier old ∧
      ∀ found, ((ofName? name).run loader).1 = .ok found →
        match found with
        | some document =>
          (∃ source, lib.sourceOf? name = .ok (some source)) ∧
            ((ofName? name).run loader).2.cache.find? (lib.nameKey name) = some document
        | none => lib.sourceOf? name = .ok none := by
  have hlooked := h.looked (lib.nameKey name)
  have hsame := Cache.find?_get? loader.cache (lib.nameKey name) (lib.nameKey name)
  rw [run_ofName? h]
  cases hf : loader.cache.find? (lib.nameKey name) with
  | some document =>
      refine ⟨hlooked, ?_⟩
      rintro _ ⟨⟩
      obtain ⟨entry, he, hk⟩ := Cache.mem_of_find? hf
      exact ⟨(hk ▸ h.admits entry he).exists_source, hsame.trans hf⟩
  | none =>
      dsimp only
      cases hs : lib.sourceOf? name with
      | error e =>
          refine ⟨hlooked.refused fun nodes hn => ?_, fun _ hd => by cases hd⟩
          simp [Library.ofName?_eq_some_iff, hs] at hn
      | ok found =>
          cases found with
          | none =>
              refine ⟨hlooked.refused fun nodes hn => ?_, ?_⟩
              · simp [Library.ofName?_eq_some_iff, hs] at hn
              · rintro _ ⟨⟩
                rfl
          | some source =>
              dsimp only
              rw [run_stored]
              cases hp : Node.parse lib.delimiters source with
              | error e =>
                  refine ⟨hlooked.refused fun nodes hn => ?_, fun _ hd => by cases hd⟩
                  simp [Library.ofName?_eq_some_iff, hs, Library.ofText, Library.built, hp,
                    Except.mapError] at hn
              | ok nodes =>
                  refine ⟨hlooked.stored (.name hs) (hsame.trans hf) _ _ ?_ _, ?_⟩
                  · intro other nodes _
                    simp only [Library.filter_ask, Library.nameKey_inj]
                  · rintro _ ⟨⟩
                    exact ⟨⟨source, rfl⟩,
                      (Cache.find?_put_eq hlooked.enabled _ _ _).trans (if_pos rfl)⟩

variable {partials : Entries Text} (hp : ∀ entry ∈ partials, given entry.2)
include hp

theorem included?_once (name : Text) :
    ((included? partials name).run loader).2.Once lib given earlier old ∧
      ∀ found, ((included? partials name).run loader).1 = .ok found →
        match found with
        | some document =>
          ((included? partials name).run loader).2.cache.find? (lib.keyOf partials name) =
            some document
        | none => lib.keyOf partials name = lib.textKey name := by
  rw [included?, Library.keyOf]
  cases hg : partials.get? name with
  | some source =>
      dsimp only
      obtain ⟨hs, hd⟩ := ofText_once h (hp _ (Entries.mem_of_get? hg))
      rw [map_eq_pure_bind, Fallible.run_bind]
      rcases hr : (ofText source).run loader with ⟨e | document, after⟩
      · rw [hr] at hs
        exact ⟨hs, fun _ hd => by cases hd⟩
      · rw [hr] at hs hd
        refine ⟨hs, ?_⟩
        rintro _ ⟨⟩
        exact hd document rfl
  | none =>
      dsimp only
      obtain ⟨hs, hd⟩ := ofName?_once h name
      refine ⟨hs, fun found hfound => ?_⟩
      have hf := hd found hfound
      cases found with
      | none =>
          dsimp only at hf ⊢
          rw [hf]
      | some document =>
          obtain ⟨⟨source, hsource⟩, hf⟩ := hf
          dsimp only
          rw [hsource]
          exact hf

/-- Whatever became of the template before, the document that the step gives is the one in the cache
under the key of the template. -/
theorem template_once {t : Text} (ht : given t) :
    ((template partials t).run loader).2.Once lib given earlier old ∧
      ∀ document, ((template partials t).run loader).1 = .ok document →
        ((template partials t).run loader).2.cache.find? (lib.keyOf partials t) =
          some document := by
  obtain ⟨hs, hd⟩ := included?_once h hp t
  rw [template, Fallible.run_bind]
  rcases hr : (included? partials t).run loader with ⟨e | _ | document, after⟩
  · rw [hr] at hs
    exact ⟨hs, fun _ hd => by cases hd⟩
  · rw [hr] at hs hd
    have hkey : lib.keyOf partials t = lib.textKey t := hd none rfl
    rw [hkey]
    exact ofText_once hs ht
  · rw [hr] at hs hd
    refine ⟨hs, ?_⟩
    rintro _ ⟨⟩
    exact hd (some document) rfl

omit h in
theorem allKeep_once {views : Text → Prop} (hv : ∀ t, views t → given t) :
    AllKeep (Loader.Once lib given earlier old) views partials where
  build d t loader h := by
    rw [run_build]
    cases Node.parse d t with
    | error e => exact h
    | ok nodes => exact h.built _
  included name loader h := (included?_once h hp name).1
  template ht loader h := (template_once h hp (hv _ ht)).1

end Loading

end Whisker
