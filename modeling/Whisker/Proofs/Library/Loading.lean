import Whisker.Library.Loader
import Whisker.Proofs.Fallible

/-! What a library gives apart from any cache. Loading through a cache gives the same, because each
entry holds what its key stands for. -/

namespace Whisker

/-- Where templates come from, and the delimiters that they start with. -/
structure Library where
  files : FileTree
  resolver : Resolver
  delimiters : Delimiters

namespace Library

def built (d : Delimiters) (source : Text) : Except Failure (List Node) :=
  (Node.parse d source).mapError .template

def ofText (lib : Library) (source : Text) : Except Failure (List Node) :=
  built lib.delimiters source

def sourceOf? (lib : Library) (name : Text) : Except Failure (Option Text) :=
  (lib.resolver.resolve lib.files name).result

def ofName? (lib : Library) (name : Text) : Except Failure (Option (List Node)) := do
  match ← lib.sourceOf? name with
  | none => return none
  | some source => return some (← lib.ofText source)

def included? (lib : Library) (given : Entries Text) (name : Text) :
    Except Failure (Option (List Node)) :=
  match given.get? name with
  | some source => some <$> lib.ofText source
  | none => lib.ofName? name

def template (lib : Library) (given : Entries Text) (nameOrText : Text) :
    Except Failure (List Node) := do
  match ← lib.included? given nameOrText with
  | some nodes => return nodes
  | none => lib.ofText nameOrText

/-- The document under a key of the cache must have these nodes. -/
def StandsFor (lib : Library) (key : Cache.Key) (nodes : List Node) : Prop :=
  match key.source with
  | .text => lib.ofText key.id = .ok nodes
  | .name => lib.ofName? key.id = .ok (some nodes)

/-- What is included is the document of a text that was given, or of one that the resolver has. -/
theorem forall_included? {lib : Library} {given : Entries Text} {P : Text → List Node → Prop}
    (hgiven : ∀ entry ∈ given, ∀ nodes, lib.ofText entry.2 = .ok nodes → P entry.1 nodes)
    (hown : ∀ name source nodes, lib.sourceOf? name = .ok (some source) →
      lib.ofText source = .ok nodes → P name nodes)
    {name : Text} {nodes : List Node} (h : lib.included? given name = .ok (some nodes)) :
    P name nodes := by
  rw [included?] at h
  split at h
  · rename_i source hg
    obtain ⟨_, ht, ⟨⟩⟩ := exists_of_bind_eq_ok (map_eq_pure_bind some (lib.ofText source) ▸ h)
    exact hgiven _ (Entries.mem_of_get? hg) nodes ht
  · obtain ⟨source, hs, h⟩ := exists_of_bind_eq_ok h
    cases source with
    | none => cases h
    | some source =>
        obtain ⟨_, ht, ⟨⟩⟩ := exists_of_bind_eq_ok h
        exact hown name source nodes hs ht

end Library

namespace Cache

/-! ## Entries -/

theorem find?_putEntry (key : Key) (document : Document) (entries : List (Key × Document))
    (other : Key) :
    (putEntry key document entries).find? (·.1 = other) =
      if key = other then some (key, document) else entries.find? (·.1 = other) := by
  induction entries with
  | nil => by_cases h : key = other <;> simp [putEntry, h]
  | cons entry entries ih =>
      obtain ⟨known, old⟩ := entry
      by_cases hk : known = key
      · subst hk
        by_cases h : known = other <;> simp [putEntry, h]
      · by_cases h : known = other
        · subst h
          simp [putEntry, hk, Ne.symm hk]
        · simp only [putEntry, hk, if_false, List.find?_cons, h, decide_false]
          exact ih

theorem find?_put {cache : Cache} {key other : Key} {document found : Document}
    (h : (cache.put key document).find? other = some found) :
    key = other ∧ document = found ∨ cache.find? other = some found := by
  rw [put] at h
  split at h
  · rw [find?] at h
    rw [find?_putEntry] at h
    split at h
    · exact .inl ⟨‹_›, by simpa using h⟩
    · exact .inr h
  · exact .inr h

theorem find?_of_get? {cache : Cache} {key : Key} {document : Document}
    (h : (cache.get? key).1 = some document) : cache.find? key = some document := by
  rw [get?] at h
  split at h
  · cases h
  · split at h
    · rename_i he
      rw [he, ← h]
    · cases h

theorem find?_get? (cache : Cache) (key other : Key) :
    (cache.get? key).2.find? other = cache.find? other := by
  rw [get?]
  split
  · rfl
  · split <;> rfl

end Cache

/-- A loader of the library with no entry that is out of date. -/
structure Loader.Serves (loader : Loader) (lib : Library) : Prop where
  files : loader.files = lib.files
  resolver : loader.resolver = lib.resolver
  delimiters : loader.delimiters = lib.delimiters
  entries : ∀ key document, loader.cache.find? key = some document →
    lib.StandsFor key document.nodes

/-- Whether a document that was found, if any, has these nodes. -/
def Document.Found (found : Option Document) (nodes : Option (List Node)) : Prop :=
  found.map Document.nodes = nodes

theorem Document.Found.cases {a b : Option Document} {nodes : Option (List Node)}
    (ha : Found a nodes) (hb : Found b nodes) :
    a = none ∧ b = none ∨ ∃ d d', a = some d ∧ b = some d' ∧ d.nodes = d'.nodes := by
  subst ha
  cases a with
  | none => exact .inl ⟨rfl, Option.map_eq_none_iff.mp hb⟩
  | some d =>
      obtain ⟨d', rfl, hd⟩ := Option.map_eq_some_iff.mp hb
      exact .inr ⟨d, d', rfl, rfl, hd.symm⟩

namespace Loading

open Fallible

/-- A step that ends as `result` does, whatever the cache holds, and leaves no entry out of date. -/
def Gives {α β : Type} (lib : Library) (Q : α → β → Prop) (step : Loading α)
    (result : Except Failure β) : Prop :=
  ∀ loader : Loader, loader.Serves lib →
    Agree Q (step.run loader).1 result ∧ (step.run loader).2.Serves lib

namespace Gives

variable {α β γ δ : Type} {lib : Library} {Q : α → β → Prop} {P : γ → δ → Prop}

theorem pure {a : α} {b : β} (h : Q a b) : Gives lib Q (Pure.pure a) (.ok b) :=
  fun _ hl => ⟨.ok h, hl⟩

theorem bind {step : Loading α} {result : Except Failure β} {next : α → Loading γ}
    {rest : β → Except Failure δ} (h : Gives lib Q step result)
    (hn : ∀ a b, result = .ok b → Q a b → Gives lib P (next a) (rest b)) :
    Gives lib P (step >>= next) (result >>= rest) := by
  intro loader hl
  obtain ⟨hv, hs⟩ := h loader hl
  rw [run_bind]
  rcases hr : step.run loader with ⟨a, after⟩
  rw [hr] at hv hs
  cases hv with
  | ok hQ => exact hn _ _ rfl hQ after hs
  | error e => exact ⟨.error e, hs⟩

theorem seq {step : Loading α} {b : β} {next : α → Loading γ} {result : Except Failure δ}
    (h : Gives lib Q step (.ok b)) (hn : ∀ a, Gives lib P (next a) result) :
    Gives lib P (step >>= next) result := by
  change Gives lib P (step >>= next) (.ok b >>= fun _ => result)
  exact bind h fun a _ _ _ => hn a

theorem get {next : Loader → Loading α} {result : Except Failure β}
    (h : ∀ loader : Loader, loader.Serves lib → Gives lib Q (next loader) result) :
    Gives lib Q (MonadState.get >>= next) result := by
  intro loader hl
  rw [run_bind]
  exact h loader hl loader hl

theorem cached {key : Cache.Key} {next : Option Document → Loading α}
    {result : Except Failure β}
    (hit : ∀ document, lib.StandsFor key document.nodes →
      Gives lib Q (next (some document)) result)
    (miss : Gives lib Q (next none) result) :
    Gives lib Q (cached? key >>= next) result := by
  intro loader hl
  rw [run_bind]
  change Agree Q ((next (loader.cache.get? key).1).run _).1 _ ∧
    ((next (loader.cache.get? key).1).run _).2.Serves lib
  have hs : ({ loader with cache := (loader.cache.get? key).2 } : Loader).Serves lib := by
    refine ⟨hl.files, hl.resolver, hl.delimiters, ?_⟩
    intro other document hf
    exact hl.entries other document (by rwa [Cache.find?_get?] at hf)
  cases hf : (loader.cache.get? key).1 with
  | none => exact miss _ hs
  | some document => exact hit document (hl.entries key document (Cache.find?_of_get? hf)) _ hs

end Gives

/-! ## Steps -/

variable {lib : Library}

theorem build_gives (d : Delimiters) (source : Text) :
    Gives lib (·.nodes = ·) (build d source) (Library.built d source) := by
  intro loader hl
  rw [build, Library.built]
  cases Node.parse d source with
  | error e => exact ⟨.error _, hl⟩
  | ok nodes => exact ⟨.ok rfl, hl.files, hl.resolver, hl.delimiters, hl.entries⟩

theorem store_gives {key : Cache.Key} {document : Document}
    (h : lib.StandsFor key document.nodes) :
    Gives lib (fun _ _ => True) (store key document) (.ok ()) := by
  intro loader hl
  refine ⟨.ok trivial, hl.files, hl.resolver, hl.delimiters, ?_⟩
  intro other found hf
  rcases Cache.find?_put hf with ⟨rfl, rfl⟩ | hf
  · exact h
  · exact hl.entries other found hf

theorem resolve_gives (name : Text) : Gives lib (· = ·) (resolve name) (lib.sourceOf? name) := by
  rw [resolve]
  change Gives lib _ _ (.ok (lib.resolver.resolve lib.files name) >>= Resolver.Answer.result)
  refine .bind (Q := (· = ·)) (fun loader hl => ⟨?_, hl.files, hl.resolver, hl.delimiters,
    hl.entries⟩) ?_
  · rw [← hl.files, ← hl.resolver]
    exact .ok rfl
  · rintro answer _ - rfl
    cases answer.result with
    | ok text => exact .pure rfl
    | error e => exact fun _ hl => ⟨.error e, hl⟩

theorem stored_gives {α β : Type} {Q : α → β → Prop} {source : Text} {key : Cache.Key}
    {next : Document → Loading α} {rest : List Node → Except Failure β}
    (h : ∀ nodes, lib.ofText source = .ok nodes → lib.StandsFor key nodes)
    (hn : ∀ document, Gives lib Q (next document) (rest document.nodes)) :
    Gives lib Q (do
      let document ← build lib.delimiters source
      store key document
      next document) (lib.ofText source >>= rest) := by
  refine .bind (build_gives lib.delimiters source) ?_
  rintro document _ hb rfl
  exact .seq (store_gives (h _ hb)) fun _ => hn document

theorem ofText_gives (source : Text) :
    Gives lib (·.nodes = ·) (ofText source) (lib.ofText source) := by
  rw [ofText]
  refine .get fun loader hl => ?_
  rw [hl.delimiters]
  refine .cached (fun document hd => ?_) ?_
  · rw [show lib.ofText source = .ok document.nodes from hd]
    exact .pure rfl
  · rw [← bind_pure (lib.ofText source)]
    exact stored_gives (fun _ h => h) fun document => .pure rfl

theorem ofName?_gives (name : Text) :
    Gives lib Document.Found (ofName? name) (lib.ofName? name) := by
  rw [ofName?]
  refine .get fun loader hl => ?_
  rw [hl.delimiters]
  refine .cached (fun document hd => ?_) ?_
  · rw [show lib.ofName? name = .ok (some document.nodes) from hd]
    exact .pure rfl
  · rw [Library.ofName?]
    refine .bind (resolve_gives name) ?_
    rintro found _ hr rfl
    cases found with
    | none => exact .pure rfl
    | some source =>
        refine stored_gives (fun nodes h => ?_) fun document => .pure rfl
        change (lib.sourceOf? name >>= _) = _
        rw [hr]
        change (lib.ofText source >>= _) = _
        rw [h]
        rfl

theorem included?_gives (given : Entries Text) (name : Text) :
    Gives lib Document.Found (included? given name) (lib.included? given name) := by
  rw [included?, Library.included?]
  cases given.get? name with
  | none => exact ofName?_gives name
  | some source =>
      dsimp only
      rw [map_eq_pure_bind, map_eq_pure_bind]
      refine .bind (ofText_gives source) ?_
      rintro document _ - rfl
      exact .pure rfl

theorem template_gives (given : Entries Text) (nameOrText : Text) :
    Gives lib (·.nodes = ·) (template given nameOrText) (lib.template given nameOrText) := by
  refine .bind (included?_gives given nameOrText) ?_
  rintro found _ - rfl
  cases found with
  | none => exact ofText_gives nameOrText
  | some document => exact .pure rfl

end Loading

/-! ## Failures -/

namespace FileTree

theorem walk_flat (tree : FileTree) (here parts : List Text) :
    Flat (tree.walk here parts) := by
  induction parts generalizing here with
  | nil => exact .ok _
  | cons part parts ih =>
      rw [walk]
      split
      · exact .ok _
      · split
        · exact ih _
        · split
          · exact .error rfl
          · exact ih _

theorem locate_flat (tree : FileTree) (p : Path) : Flat (tree.locate p) := by
  rw [locate]
  split
  · exact .ok _
  · split
    · exact .error rfl
    · split
      · exact walk_flat tree _ _
      · exact (walk_flat empty _ _).map _

theorem read?_flat (tree : FileTree) (p : Path) : Flat (tree.read? p) := by
  refine .bind ((locate_flat tree p).map _) fun content => ?_
  cases content with
  | none => exact .ok _
  | some content =>
      dsimp only
      split
      · exact .ok _
      · exact .error rfl

end FileTree

namespace Shelf

theorem fileOf?_flat (shelf : Shelf) (name : Text) : Flat (shelf.fileOf? name) := by
  rw [fileOf?]
  dsimp only
  split
  · exact .error rfl
  · split
    · exact .ok _
    · split
      · exact .ok _
      · split
        · exact .error rfl
        · split
          · exact .ok _
          · exact .error rfl

theorem resolve_flat (files : FileTree) (shelf : Shelf) (name : Text) :
    Flat (shelf.resolve files name) := by
  have hfile := fileOf?_flat shelf name
  rw [resolve]
  split
  · rename_i e he
    exact .error (hfile e he)
  · exact .ok _
  · split
    · exact FileTree.read?_flat files _
    · exact .ok _

end Shelf

namespace Resolver

mutual

theorem resolve_flat (files : FileTree) (name : Text) (r : Resolver) :
    Flat (r.resolve files name).result := by
  cases r with
  | memory => exact .ok _
  | foreign => exact .ok _
  | files key shelf => exact Shelf.resolve_flat files shelf name
  | aggregate key members => exact resolveMembers_flat files name members

theorem resolveMembers_flat (files : FileTree) (name : Text)
    (members : List (Int × Resolver)) : Flat (resolveMembers files name members).result := by
  cases members with
  | nil => exact .ok _
  | cons member members =>
      obtain ⟨priority, member⟩ := member
      rw [resolveMembers]
      dsimp only
      split
      · exact resolveMembers_flat files name members
      · exact resolve_flat files name member

end

end Resolver

namespace Library

theorem built_flat (d : Delimiters) (source : Text) : Flat (built d source) := by
  rw [built]
  cases Node.parse d source with
  | ok nodes => exact .ok nodes
  | error e => exact .error rfl

variable (lib : Library)

theorem ofText_flat (source : Text) : Flat (lib.ofText source) :=
  built_flat _ source

theorem included?_flat (given : Entries Text) (name : Text) :
    Flat (lib.included? given name) := by
  rw [included?]
  split
  · exact (lib.ofText_flat _).map _
  · refine .bind (lib.resolver.resolve_flat lib.files name) fun source => ?_
    cases source with
    | none => exact .ok _
    | some source => exact .bind (lib.ofText_flat source) fun nodes => .ok _

theorem template_flat (given : Entries Text) (nameOrText : Text) :
    Flat (lib.template given nameOrText) := by
  refine .bind (lib.included?_flat given nameOrText) fun found => ?_
  cases found with
  | some nodes => exact .ok nodes
  | none => exact lib.ofText_flat nameOrText

end Library

end Whisker
