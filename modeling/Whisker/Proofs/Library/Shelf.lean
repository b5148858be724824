import Mathlib
import Whisker.Library.Resolver
import Whisker.Proofs.Fallible
import Whisker.Proofs.Text.Search

/-! Where a name leads in the files of a shelf. A path that does not step above its start leads to a
file below a search path; with a slash as the separator no name has another. -/

namespace Whisker

/-! ## Segments -/

namespace Text

theorem not_mem_of_mem_splitOn {c : Char} {t piece : Text} (h : piece ∈ splitOn [c] t) :
    c ∉ piece := by
  have hinfix (s : Text) (hs : cut? [c] s = none) : c ∉ s := by
    intro hc
    obtain ⟨front, back, rfl⟩ := List.append_of_mem hc
    exact cut?_eq_none_iff.mp hs ⟨front, back, by simp⟩
  induction t using splitOn.induct [c] with
  | case1 t hm => cases hm
  | case2 t hm hcut =>
      rw [splitOn, dif_neg hm] at h
      split at h
      · obtain rfl := List.mem_singleton.mp h
        exact hinfix _ hcut
      · simp_all
  | case3 t hm before after hcut ih =>
      rw [splitOn, dif_neg hm] at h
      split at h
      · simp_all
      · next hcut' =>
          obtain ⟨rfl, rfl⟩ := Prod.mk.inj (Option.some.inj (hcut.symm.trans hcut'))
          rcases List.mem_cons.mp h with rfl | h
          · exact hinfix _ (cut?_before hm hcut)
          · exact ih h

end Text

/-! ## Places -/

namespace Path

/-- Where one part leads from a place. -/
def follow (here : List Text) (part : Text) : List Text :=
  if part = ['.', '.'] then here.dropLast else here ++ [part]

/-- The parts do not step above a place from which so many names lead back. -/
def StaysIn : Nat → List Text → Prop
  | _, [] => True
  | level, part :: parts =>
    if part = ['.', '.'] then 0 < level ∧ StaysIn (level - 1) parts else StaysIn (level + 1) parts

instance decidableStaysIn : (level : Nat) → (parts : List Text) → Decidable (StaysIn level parts)
  | _, [] => .isTrue trivial
  | level, part :: parts =>
    have := decidableStaysIn (level - 1) parts
    have := decidableStaysIn (level + 1) parts
    inferInstanceAs (Decidable (if part = ['.', '.'] then _ else _))

theorem parts_normalize (p : Path) : p.normalize.parts = p.parts.foldl follow [] := rfl

theorem foldl_follow_of_forall {parts : List Text} (h : ∀ part ∈ parts, part ≠ ['.', '.'])
    (here : List Text) : parts.foldl follow here = here ++ parts := by
  induction parts generalizing here with
  | nil => simp
  | cons part parts ih =>
      obtain ⟨hpart, h⟩ := List.forall_mem_cons.mp h
      rw [List.foldl_cons, ih h, follow, if_neg hpart]
      simp

theorem mem_foldl_follow {parts here : List Text} (h : ∀ part ∈ here, part ≠ ['.', '.']) :
    ∀ part ∈ parts.foldl follow here, part ≠ ['.', '.'] := by
  induction parts generalizing here with
  | nil => exact h
  | cons part parts ih =>
      apply ih
      intro other ho
      rw [follow] at ho
      split at ho
      · exact h other (List.dropLast_subset here ho)
      · rcases List.mem_append.mp ho with ho | ho
        · exact h other ho
        · rwa [List.mem_singleton.mp ho]

/-- A normalized path has no step to a parent any more. -/
theorem foldl_follow_normalize (p : Path) (parts : List Text) :
    (p.normalize.parts ++ parts).foldl follow [] =
      parts.foldl follow (p.parts.foldl follow []) := by
  have hparts : ∀ part ∈ p.parts.foldl follow [], part ≠ ['.', '.'] := mem_foldl_follow (by simp)
  rw [List.foldl_append, parts_normalize, foldl_follow_of_forall hparts, List.nil_append]

/-- What leads no higher than its start ends below it. -/
theorem exists_foldl_follow {parts : List Text} (base below : List Text)
    (h : StaysIn below.length parts) :
    ∃ after, parts.foldl follow (base ++ below) = base ++ after := by
  induction parts generalizing below with
  | nil => exact ⟨below, rfl⟩
  | cons part parts ih =>
      rw [StaysIn] at h
      rw [List.foldl_cons, follow]
      by_cases hpart : part = ['.', '.']
      · rw [if_pos hpart] at h ⊢
        obtain ⟨hpos, h⟩ := h
        rw [List.dropLast_append_of_ne_nil (List.length_pos_iff.mp hpos)]
        exact ih below.dropLast (by simpa using h)
      · rw [if_neg hpart] at h ⊢
        rw [List.append_assoc]
        exact ih (below ++ [part]) (by simpa using h)

theorem staysIn_of_forall {parts : List Text} (h : ∀ part ∈ parts, part ≠ ['.', '.'])
    (level : Nat) : StaysIn level parts := by
  induction parts generalizing level with
  | nil => trivial
  | cons part parts ih =>
      obtain ⟨hpart, h⟩ := List.forall_mem_cons.mp h
      rw [StaysIn, if_neg hpart]
      exact ih h (level + 1)

/-- A name in place of the last part leads no higher. -/
theorem StaysIn.rename {parts : List Text} {level : Nat} (h : StaysIn level parts) {name : Text}
    (hname : name ≠ ['.', '.']) : StaysIn level (parts.dropLast ++ [name]) := by
  induction parts generalizing level with
  | nil => exact staysIn_of_forall (List.forall_mem_singleton.mpr hname) level
  | cons part parts ih =>
      cases parts with
      | nil => exact staysIn_of_forall (List.forall_mem_singleton.mpr hname) level
      | cons next parts =>
          rw [StaysIn] at h
          rw [List.dropLast_cons_cons, List.cons_append, StaysIn]
          by_cases hpart : part = ['.', '.']
          · rw [if_pos hpart] at h ⊢
            exact h.imp_right ih
          · rw [if_neg hpart] at h ⊢
            exact ih h

theorem foldl_join {paths : List Path} (h : ∀ q ∈ paths, q.isAbsolute = false) (p : Path) :
    paths.foldl join p = ⟨p.anchor, p.parts ++ paths.flatMap parts⟩ := by
  induction paths generalizing p with
  | nil => simp
  | cons q paths ih =>
      obtain ⟨hq, h⟩ := List.forall_mem_cons.mp h
      rw [List.foldl_cons, ih h, join, if_neg (by simp [hq])]
      simp

/-- A text without slashes is one part, unless it says nothing. -/
theorem ofText_of_not_mem {t : Text} (h : '/' ∉ t) (he : t ≠ []) (hd : t ≠ ['.']) :
    ofText t = ⟨[], [t]⟩ := by
  have hslash : ∀ c ∈ t, decide (c = '/') = false := by
    intro c hc
    apply decide_eq_false
    rintro rfl
    exact h hc
  have hnone : t.takeWhile (· = '/') = [] := by
    cases t with
    | nil => rfl
    | cons c t => simp [hslash c List.mem_cons_self]
  simp [ofText, hnone, Text.pieces_of_forall hslash, he, hd]

end Path

namespace FileTree

variable {tree : FileTree}

/-- No file is a directory as well. -/
def Proper (tree : FileTree) : Prop :=
  ∀ parts content, (parts, Entry.file content) ∈ tree.entries → tree.hasDirectory parts = false

theorem mem_of_entry? {parts : List Text} {entry : Entry} (h : tree.entry? parts = some entry) :
    (parts, entry) ∈ tree.entries := by
  obtain ⟨known, hk, rfl⟩ := Option.map_eq_some_iff.mp h
  have hparts : known.1 = parts := by simpa using List.find?_some hk
  rw [← hparts]
  exact List.mem_of_find?_eq_some hk

theorem hasDirectory_dropLast {parts : List Text} (h : tree.hasDirectory parts = true) :
    tree.hasDirectory parts.dropLast = true := by
  rcases List.eq_nil_or_concat parts with rfl | ⟨front, last, rfl⟩
  · exact h
  · rw [List.concat_eq_append, List.dropLast_concat]
    rw [List.concat_eq_append] at h
    simp only [hasDirectory, Bool.or_eq_true, List.isEmpty_iff, List.append_eq_nil_iff,
      List.any_eq_true] at h ⊢
    obtain h | ⟨⟨known, entry⟩, hmem, h⟩ := h
    · exact .inl h.1
    · refine .inr ⟨(known, entry), hmem, ?_⟩
      cases entry with
      | directory =>
          simp only [List.isPrefixOf_iff_prefix] at h ⊢
          exact (List.prefix_append front [last]).trans h
      | file content =>
          simp only [Bool.and_eq_true, List.isPrefixOf_iff_prefix, decide_eq_true_eq] at h ⊢
          refine ⟨(List.prefix_append front [last]).trans h.1, ?_⟩
          rintro rfl
          have hlength := h.1.length_le
          rw [List.length_append, List.length_singleton] at hlength
          omega

/-- Walking through directories follows the parts. -/
theorem eq_of_walk {parts here place : List Text} (h : tree.walk here parts = .ok (some place)) :
    place = parts.foldl Path.follow here := by
  induction parts generalizing here with
  | nil =>
      rw [walk] at h
      cases h
      rfl
  | cons part parts ih =>
      rw [walk] at h
      rw [List.foldl_cons, Path.follow]
      split at h
      · cases h
      · split at h
        · rw [if_pos ‹_›]
          exact ih h
        · split at h
          · cases h
          · rw [if_neg ‹_›]
            exact ih h

/-- The parent of a place that can be walked through is a directory. -/
theorem hasDirectory_of_walk {parts here place : List Text}
    (h : tree.walk here (parts ++ [['.', '.']]) = .ok (some place)) :
    tree.hasDirectory place = true := by
  induction parts generalizing here with
  | nil =>
      rw [List.nil_append, walk] at h
      split at h
      · cases h
      · rw [if_pos rfl, walk] at h
        cases h
        exact hasDirectory_dropLast (by simpa using ‹¬ (!tree.hasDirectory here) = true›)
  | cons part parts ih =>
      rw [List.cons_append, walk] at h
      split at h
      · cases h
      · split at h
        · exact ih h
        · split at h
          · cases h
          · exact ih h

theorem walk_of_locate {p : Path} {place : List Text} (h : tree.locate p = .ok (some place)) :
    p.isAbsolute = true ∧ tree.walk [] p.parts = .ok (some place) := by
  rw [locate] at h
  split at h
  · cases h
  · split at h
    · cases h
    · split at h
      · exact ⟨‹_›, h⟩
      · cases hw : empty.walk [] p.parts <;> simp [hw, Except.map] at h

theorem locate_of_file? {p : Path} {content : List UInt8}
    (h : tree.file? p = .ok (some content)) :
    ∃ place, tree.locate p = .ok (some place) ∧ tree.entry? place = some (.file content) := by
  rw [file?] at h
  cases hl : tree.locate p with
  | error e => simp [hl, Except.map] at h
  | ok place =>
      rw [hl] at h
      cases place with
      | none => cases h
      | some place =>
          simp only [Except.map, Option.bind_some, Except.ok.injEq] at h
          split at h
          · cases h
            exact ⟨place, rfl, ‹_›⟩
          · cases h

/-- A search path leads to a directory, or nothing leads on from it. -/
theorem locate_of_isDirectory {p : Path} (h : tree.isDirectory p = .ok true)
    (ha : p.isAbsolute = true) :
    ∃ directory, tree.locate p = .ok (some directory) ∧ tree.hasDirectory directory = true := by
  rw [isDirectory] at h
  cases hl : tree.locate p with
  | error e => simp [hl, Except.map] at h
  | ok place =>
      have hp : place.any tree.hasDirectory = true := by simpa [hl, Except.map, ha] using h
      obtain ⟨directory, rfl, hd⟩ := (Option.any_eq_true ..).mp hp
      exact ⟨directory, rfl, hd⟩

/-- The text is that of a file below the directory to which the path leads. -/
def HoldsBelow (tree : FileTree) (p : Path) (t : Text) : Prop :=
  ∃ directory below content raw, tree.locate p = .ok (some directory) ∧ below ≠ [] ∧
    tree.entry? (directory ++ below) = some (.file content) ∧
    Text.ofUtf8? content = some raw ∧ t = Text.unifyLineEnds raw

theorem file?_of_read? {p : Path} {t : Text} (h : tree.read? p = .ok (some t)) :
    ∃ content raw, tree.file? p = .ok (some content) ∧ Text.ofUtf8? content = some raw ∧
      t = Text.unifyLineEnds raw := by
  obtain ⟨content, hf, h⟩ := exists_of_bind_eq_ok h
  cases content with
  | none => cases h
  | some content =>
      dsimp only at h
      split at h
      · cases h
        exact ⟨content, _, hf, ‹_›, rfl⟩
      · cases h

end FileTree

/-! ## Names -/

namespace Shelf

open FileTree (Proper HoldsBelow)

variable {files : FileTree} {shelf : Shelf} {name : Text}

/-- The segments of a name that say something. -/
def segments (separator name : Text) : List Text :=
  (Text.splitOn separator name).filter (!·.isEmpty)

/-- No segment of the name has a path of its own from the root, and all their parts together do not
step above the search path. -/
def StaysIn (separator name : Text) : Prop :=
  (∀ s ∈ segments separator name, (Path.ofText s).isAbsolute = false) ∧
    Path.StaysIn 0 ((segments separator name).flatMap fun s => (Path.ofText s).parts)

theorem fileOf?_eq_none (hs : shelf.separator ≠ [])
    (h : ['.'] ∈ Text.splitOn shelf.separator name ∨
      ['.', '.'] ∈ Text.splitOn shelf.separator name) : shelf.fileOf? name = .ok none := by
  have hany :
      (segments shelf.separator name).any (fun s => s = ['.'] || s = ['.', '.']) = true := by
    rw [List.any_eq_true]
    rcases h with h | h
    · exact ⟨_, List.mem_filter.mpr ⟨h, rfl⟩, rfl⟩
    · exact ⟨_, List.mem_filter.mpr ⟨h, rfl⟩, rfl⟩
  rw [fileOf?, if_neg (by simpa using hs)]
  exact if_pos (Bool.or_eq_true_iff.mpr (.inr hany))

/-- The segments that a slash leaves between are parts, of which none leads to a parent. -/
theorem staysIn_of_slash {file : Path} (hs : shelf.separator = ['/'])
    (h : shelf.fileOf? name = .ok (some file)) : StaysIn shelf.separator name := by
  have hparent : ∀ s ∈ segments shelf.separator name, s ≠ ['.'] ∧ s ≠ ['.', '.'] := by
    intro s hmem
    have hsplit := (List.mem_filter.mp hmem).1
    have hne : shelf.separator ≠ [] := by simp [hs]
    constructor
    · rintro rfl
      cases h.symm.trans (fileOf?_eq_none hne (.inl hsplit))
    · rintro rfl
      cases h.symm.trans (fileOf?_eq_none hne (.inr hsplit))
  have hpath : ∀ s ∈ segments shelf.separator name, Path.ofText s = ⟨[], [s]⟩ := by
    intro s hmem
    obtain ⟨hsplit, hne⟩ := List.mem_filter.mp hmem
    exact Path.ofText_of_not_mem (Text.not_mem_of_mem_splitOn (hs ▸ hsplit)) (by simpa using hne)
      (hparent s hmem).1
  refine ⟨fun s hmem => by simp [hpath s hmem, Path.isAbsolute], Path.staysIn_of_forall ?_ 0⟩
  intro part hpart
  obtain ⟨s, hmem, hpart⟩ := List.mem_flatMap.mp hpart
  rw [hpath s hmem] at hpart
  exact List.mem_singleton.mp hpart ▸ (hparent s hmem).2

/-- The file of a name is relative, and has the parts of the name, the last of which the suffix may
have changed. -/
theorem exists_of_fileOf? {file : Path} (h : shelf.fileOf? name = .ok (some file))
    (hin : StaysIn shelf.separator name) :
    file.isAbsolute = false ∧
      (Path.StaysIn 0 file.parts ∨ ∃ front, file.parts = front ++ [['.', '.']]) := by
  obtain ⟨hrel, hin⟩ := hin
  have hjoin : ((segments shelf.separator name).map Path.ofText).foldl Path.join ⟨[], []⟩ =
      ⟨[], (segments shelf.separator name).flatMap fun s => (Path.ofText s).parts⟩ := by
    rw [Path.foldl_join (by simpa using hrel), List.nil_append, List.flatMap_map]
  rw [fileOf?] at h
  split at h
  · cases h
  · dsimp only at h
    rw [← segments, hjoin] at h
    split at h
    · cases h
    · split at h
      · cases h
        exact ⟨rfl, .inl hin⟩
      · split at h
        · cases h
        · split at h
          · cases h
            rename_i hname
            rw [Path.withName?] at hname
            split at hname
            · split at hname
              · cases hname
              · cases hname
                refine ⟨rfl, ?_⟩
                rename_i last _ _
                by_cases hl : last = ['.', '.']
                · exact .inr ⟨_, by rw [hl]⟩
                · exact .inl (hin.rename hl)
            · cases hname
          · cases h

theorem mem_paths_of_foldlM {paths : List Path} {start : Shelf}
    (h : paths.foldlM (fun shelf path => addPath files path shelf) start = .ok shelf) :
    shelf.separator = start.separator ∧ ∀ base ∈ shelf.paths, base ∈ start.paths ∨
      ∃ p ∈ paths, files.isDirectory p = .ok true ∧ base = p.normalize := by
  induction paths generalizing start with
  | nil =>
      cases h
      exact ⟨rfl, fun _ => .inl⟩
  | cons p paths ih =>
      rw [List.foldlM_cons] at h
      obtain ⟨next, hnext, h⟩ := exists_of_bind_eq_ok h
      obtain ⟨isThere, hp, hnext⟩ := exists_of_bind_eq_ok hnext
      cases isThere with
      | false => cases hnext
      | true =>
          cases hnext
          obtain ⟨hs, hbases⟩ := ih h
          refine ⟨hs, fun base hbase => ?_⟩
          obtain hbase | ⟨q, hq, hbase⟩ := hbases base hbase
          · obtain rfl | hbase := List.mem_cons.mp hbase
            · exact .inr ⟨p, List.mem_cons_self, hp, rfl⟩
            · exact .inl hbase
          · exact .inr ⟨q, List.mem_cons_of_mem p hq, hbase⟩

/-- Each search path of a shelf is that of a directory which it was given. -/
theorem mem_paths_of_ofPaths {paths : List Path} {suffix separator : Text}
    (h : ofPaths files paths suffix separator = .ok shelf) :
    shelf.separator = separator ∧
      ∀ base ∈ shelf.paths, ∃ p ∈ paths, files.isDirectory p = .ok true ∧ base = p.normalize := by
  obtain ⟨hs, hbases⟩ := mem_paths_of_foldlM h
  exact ⟨hs, fun base hbase => (hbases base hbase).resolve_left (List.not_mem_nil)⟩

/-- A relative file that does not step above the search path it is joined to is below it. -/
theorem exists_below_of_join (hf : files.Proper) {p file : Path} {content : List UInt8}
    (hp : files.isDirectory p = .ok true) (hrel : file.isAbsolute = false)
    (hin : Path.StaysIn 0 file.parts ∨ ∃ front, file.parts = front ++ [['.', '.']])
    (h : files.file? (p.normalize.join file) = .ok (some content)) :
    ∃ directory below, files.locate p = .ok (some directory) ∧ below ≠ [] ∧
      files.entry? (directory ++ below) = some (.file content) := by
  obtain ⟨place, hplace, hentry⟩ := FileTree.locate_of_file? h
  rw [Path.join, if_neg (by simp [hrel])] at hplace
  obtain ⟨habs, hwalk⟩ := FileTree.walk_of_locate hplace
  have hproper := hf place content (FileTree.mem_of_entry? hentry)
  have hdown : Path.StaysIn 0 file.parts := by
    refine hin.resolve_right ?_
    rintro ⟨front, hfront⟩
    dsimp only at hwalk
    rw [hfront, ← List.append_assoc] at hwalk
    cases (FileTree.hasDirectory_of_walk hwalk).symm.trans hproper
  have hpabs : p.isAbsolute = true := by
    cases ha : p.anchor <;> simp_all [Path.isAbsolute, Path.normalize]
  obtain ⟨directory, hdir, hthere⟩ := FileTree.locate_of_isDirectory hp hpabs
  have hplace := FileTree.eq_of_walk hwalk
  rw [Path.foldl_follow_normalize, ← FileTree.eq_of_walk (FileTree.walk_of_locate hdir).2] at hplace
  obtain ⟨below, hbelow⟩ := Path.exists_foldl_follow directory [] hdown
  rw [List.append_nil] at hbelow
  rw [hbelow] at hplace
  subst hplace
  refine ⟨directory, below, hdir, ?_, hentry⟩
  rintro rfl
  rw [List.append_nil] at hproper
  cases hthere.symm.trans hproper

/-- A name that does not step above a search path is found, if at all, in a file below the directory
of one: so it is for each name with a slash as the separator. A name with a segment that stands for
a directory is not found. -/
theorem resolve_holdsBelow (hf : files.Proper) {paths : List Path} {suffix separator : Text}
    (h : ofPaths files paths suffix separator = .ok shelf) (name : Text) :
    (separator = ['/'] ∨ StaysIn separator name →
      ∀ t, shelf.resolve files name = .ok (some t) → ∃ p ∈ paths, files.HoldsBelow p t) ∧
    (separator ≠ [] → ['.'] ∈ Text.splitOn separator name ∨
        ['.', '.'] ∈ Text.splitOn separator name →
      shelf.resolve files name = .ok none) := by
  obtain ⟨rfl, hbases⟩ := mem_paths_of_ofPaths h
  constructor
  · intro hin t ht
    rw [resolve] at ht
    split at ht
    · cases ht
    · cases ht
    · rename_i file hfile
      split at ht
      · rename_i path hpath
        obtain ⟨base, hbase, rfl⟩ := List.mem_map.mp (List.mem_of_find?_eq_some hpath)
        obtain ⟨p, hp, hdir, rfl⟩ := hbases base hbase
        obtain ⟨content, raw, hcontent, hraw, rfl⟩ := FileTree.file?_of_read? ht
        obtain ⟨hrel, hdown⟩ :=
          exists_of_fileOf? hfile (hin.elim (fun hs => staysIn_of_slash hs hfile) id)
        obtain ⟨directory, below, hlocate, hne, hentry⟩ :=
          exists_below_of_join hf hdir hrel hdown hcontent
        exact ⟨p, hp, directory, below, content, raw, hlocate, hne, hentry, hraw, rfl⟩
      · cases ht
  · intro hs hdots
    rw [resolve, fileOf?_eq_none hs hdots]

/-! ## Colons as separators -/

/-- Two directories inside each other, with a file beside each of them. -/
def shelved : FileTree :=
  ⟨[(["a".toList], .directory), (["a".toList, "b".toList], .directory),
    (["a".toList, "page.mustache".toList], .file [0x70]),
    (["secret.mustache".toList], .file [0x73])]⟩

theorem shelved_proper : shelved.Proper := by
  intro parts content h
  simp only [shelved, List.mem_cons, List.not_mem_nil, Prod.mk.injEq, reduceCtorEq, and_false,
    or_false, false_or] at h
  obtain ⟨rfl, -⟩ | ⟨rfl, -⟩ := h <;> decide

/-- The outer directory as a search path, with colons between segments. -/
def colonShelf : Shelf := ⟨[⟨['/'], ["a".toList]⟩], standardSuffix, [':']⟩

theorem ofPaths_shelved :
    ofPaths shelved [Path.ofText "/a".toList] standardSuffix [':'] = .ok colonShelf := rfl

/-- With colons between segments a name may leave a directory again that it entered. -/
theorem reentered_holdsBelow :
    shelved.Proper ∧
      ofPaths shelved [Path.ofText "/a".toList] standardSuffix [':'] = .ok colonShelf ∧
      StaysIn [':'] "b/..:page".toList ∧
      colonShelf.resolve shelved "b/..:page".toList = .ok (some "p".toList) ∧
      (∃ p ∈ [Path.ofText "/a".toList], shelved.HoldsBelow p "p".toList) ∧
      ['.', '.'] ∈ Text.splitOn [':'] "..:secret".toList ∧
      colonShelf.resolve shelved "..:secret".toList = .ok none := by
  have hin : StaysIn [':'] "b/..:page".toList := by
    rw [StaysIn, segments, show Text.splitOn [':'] "b/..:page".toList =
      ["b/..".toList, "page".toList] by cbv]
    decide
  have hpage : colonShelf.resolve shelved "b/..:page".toList = .ok (some "p".toList) := by cbv
  have hdots : ['.', '.'] ∈ Text.splitOn [':'] "..:secret".toList := by
    rw [show Text.splitOn [':'] "..:secret".toList = ["..".toList, "secret".toList] by cbv]
    decide
  refine ⟨shelved_proper, ofPaths_shelved, hin, hpage, ?_, hdots, ?_⟩
  · exact (resolve_holdsBelow shelved_proper ofPaths_shelved _).1 (.inr hin) _ hpage
  · exact (resolve_holdsBelow shelved_proper ofPaths_shelved _).2 (by decide) (.inr hdots)

/-- A colon leaves a slash in its segment, and with it a step to the parent. -/
theorem colon_steps_out :
    shelved.Proper ∧
      ofPaths shelved [Path.ofText "/a".toList] standardSuffix [':'] = .ok colonShelf ∧
      colonShelf.resolve shelved "../secret".toList = .ok (some "s".toList) ∧
      ¬ ∃ p ∈ [Path.ofText "/a".toList], shelved.HoldsBelow p "s".toList := by
  refine ⟨shelved_proper, ofPaths_shelved, by cbv, ?_⟩
  rintro ⟨p, hp, directory, below, content, raw, hdir, hne, hentry, hraw, ht⟩
  rw [List.mem_singleton.mp hp] at hdir
  have hplace : directory = ["a".toList] := by
    cases hdir
    rfl
  have hmem := FileTree.mem_of_entry? hentry
  simp only [shelved, List.mem_cons, List.not_mem_nil, Prod.mk.injEq, reduceCtorEq, and_false,
    or_false, false_or, hplace] at hmem
  obtain ⟨-, hcontent⟩ | ⟨hparts, -⟩ := hmem
  · cases hcontent
    cases hraw
    revert ht
    decide
  · cases hparts

end Shelf

end Whisker
