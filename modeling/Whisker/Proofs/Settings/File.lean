import Mathlib
import Whisker.Proofs.Settings.Options
import Whisker.Proofs.Text.Utf8
import Whisker.Settings.File

/-! Settings files: what becomes of any bytes in a file, whatever reads documents and checks options.
Not all bytes that hold no settings are reported as faulty settings, and a document that counts as
nothing holds the standard ones. -/

namespace Whisker

/-- Steps that can fail in one way only: all succeed, or one of them fails and so do all together. -/
theorem mapM_cases {α β : Type} {f : α → Except Failure β} {e : Failure} {l : List α}
    (h : ∀ a ∈ l, (∃ b, f a = .ok b) ∨ f a = .error e) :
    (∃ bs, l.mapM f = .ok bs ∧ ∀ a ∈ l, f a ≠ .error e) ∨
      l.mapM f = .error e ∧ ∃ a ∈ l, f a = .error e := by
  induction l with
  | nil => exact .inl ⟨[], rfl, by simp⟩
  | cons a l ih =>
      obtain ⟨ha, hl⟩ := List.forall_mem_cons.mp h
      rw [List.mapM_cons]
      rcases ha with ⟨b, hb⟩ | he
      · rw [hb]
        rcases ih hl with ⟨bs, hbs, hne⟩ | ⟨hbs, a', hm, he⟩
        · rw [hbs]
          have hfirst : f a ≠ .error e := by simp [hb]
          exact .inl ⟨b :: bs, rfl, List.forall_mem_cons.mpr ⟨hfirst, hne⟩⟩
        · rw [hbs]
          exact .inr ⟨rfl, a', List.mem_cons_of_mem a hm, he⟩
      · rw [he]
        exact .inr ⟨rfl, a, List.mem_cons_self, he⟩

theorem FileTree.read?_of_file? {files : FileTree} {path : Path} {content : List UInt8}
    (h : files.file? path = .ok (some content)) :
    files.read? path = match Text.ofUtf8? content with
      | some t => .ok (some t.unifyLineEnds)
      | none => .error .undecodable := by
  rw [FileTree.read?, h]
  rfl

/-! ## Values of a document -/

theorem Yaml.toText_cases (v : Yaml) :
    (∃ t, v.toText = .ok t) ∧ v.isWritable = true ∨
      v.toText = .error .unwritableNumber ∧ v.isWritable = false := by
  unfold toText
  cases hv : v.isWritable with
  | false => exact .inr ⟨rfl, rfl⟩
  | true =>
      refine .inl ⟨?_, rfl⟩
      cases v <;> exact ⟨_, rfl⟩

namespace Settings

/-! ## Options of a document -/

/-- All template paths can be written as texts. -/
def WritablePaths (entries : List (Yaml × Yaml)) : Prop :=
  ∀ items, (Yaml.text "template_paths".toList, Yaml.list items) ∈ entries →
    ∀ item ∈ items, item.isWritable = true

theorem mapM_toText_cases (items : List Yaml) :
    (∃ texts, items.mapM Yaml.toText = .ok texts) ∧ (∀ item ∈ items, item.isWritable = true) ∨
      items.mapM Yaml.toText = .error .unwritableNumber ∧
        ∃ item ∈ items, item.isWritable = false := by
  have hitems : ∀ item ∈ items, (∃ t, item.toText = .ok t) ∨
      item.toText = .error .unwritableNumber :=
    fun item _ => item.toText_cases.imp And.left And.left
  rcases mapM_cases hitems with ⟨texts, htexts, hne⟩ | ⟨he, item, hm, hitem⟩
  · refine .inl ⟨⟨texts, htexts⟩, fun item hm => ?_⟩
    rcases item.toText_cases with ⟨-, hw⟩ | ⟨he, -⟩
    · exact hw
    · exact absurd he (hne item hm)
  · refine .inr ⟨he, item, hm, ?_⟩
    rcases item.toText_cases with ⟨⟨t, ht⟩, -⟩ | ⟨-, hw⟩
    · rw [ht] at hitem
      cases hitem
    · exact hw

theorem givenOf_paths (directory : Path) (items : List Yaml) :
    givenOf directory (.text "template_paths".toList, .list items) =
      items.mapM Yaml.toText >>= fun texts => pure (.text "template_paths".toList,
        .paths (texts.map fun t => directory.join (Path.ofText t))) := by
  unfold givenOf
  exact if_pos rfl

theorem exists_givenOf {entry : Yaml × Yaml}
    (h : ∀ items, entry ≠ (.text "template_paths".toList, .list items)) (directory : Path) :
    ∃ option, givenOf directory entry = .ok option := by
  unfold givenOf
  split
  · next t items =>
      by_cases ht : t = "template_paths".toList
      · subst ht
        exact absurd rfl (h items)
      · rw [if_neg ht]
        exact ⟨_, rfl⟩
  · exact ⟨_, rfl⟩

/-- Only the list of template paths is read as texts. -/
theorem givenOf_cases (directory : Path) (entry : Yaml × Yaml) :
    (∃ option, givenOf directory entry = .ok option) ∧ WritablePaths [entry] ∨
      givenOf directory entry = .error .unwritableNumber ∧ ¬ WritablePaths [entry] := by
  by_cases h : ∃ items, entry = (.text "template_paths".toList, .list items)
  · obtain ⟨items, rfl⟩ := h
    rw [givenOf_paths]
    rcases mapM_toText_cases items with ⟨⟨texts, htexts⟩, hw⟩ | ⟨he, item, hm, hw⟩
    · rw [htexts]
      refine .inl ⟨⟨_, rfl⟩, fun others hm => ?_⟩
      obtain ⟨-, heq⟩ := Prod.mk.inj (List.mem_singleton.mp hm)
      obtain rfl := Yaml.list.inj heq
      exact hw
    · rw [he]
      refine .inr ⟨rfl, fun hall => ?_⟩
      rw [hall items List.mem_cons_self item hm] at hw
      cases hw
  · have hnot : ∀ items, entry ≠ (.text "template_paths".toList, .list items) :=
      fun items heq => h ⟨items, heq⟩
    refine .inl ⟨exists_givenOf hnot directory, fun items hm => ?_⟩
    exact absurd (List.mem_singleton.mp hm).symm (hnot items)

theorem mapM_givenOf_cases (directory : Path) (entries : List (Yaml × Yaml)) :
    (∃ options, entries.mapM (givenOf directory) = .ok options) ∧ WritablePaths entries ∨
      entries.mapM (givenOf directory) = .error .unwritableNumber ∧ ¬ WritablePaths entries := by
  have hentries : ∀ entry ∈ entries, (∃ option, givenOf directory entry = .ok option) ∨
      givenOf directory entry = .error .unwritableNumber :=
    fun entry _ => (givenOf_cases directory entry).imp And.left And.left
  rcases mapM_cases hentries with ⟨options, hoptions, hne⟩ | ⟨he, entry, hm, hentry⟩
  · refine .inl ⟨⟨options, hoptions⟩, fun items hm => ?_⟩
    rcases givenOf_cases directory (.text "template_paths".toList, .list items) with
      ⟨-, hw⟩ | ⟨he, -⟩
    · exact hw items List.mem_cons_self
    · exact absurd he (hne _ hm)
  · refine .inr ⟨he, fun hall => ?_⟩
    rcases givenOf_cases directory entry with ⟨⟨option, hok⟩, -⟩ | ⟨-, hw⟩
    · rw [hok] at hentry
      cases hentry
    · apply hw
      intro items hsingle
      apply hall items
      rwa [List.mem_singleton.mp hsingle]

/-! ## Documents -/

/-- What is relied on of a reader for one text: if it fails, then because the text is malformed. -/
def Reader.FailsAsMalformed (reader : Reader) (t : Text) : Prop := ∀ f, reader t ≠ .error (.failure f)

/-- What is relied on of a validator: any options have a verdict, settings or what is wrong with the
options, and without options the settings are the standard ones. -/
structure Validator.Decides (validator : Validator) : Prop where
  verdict (options : List (Yaml × Given)) : ∃ result, validator options = .ok result
  standard : validator [] = .ok (.ok .standard)

/-- What becomes of a document, or of a text without one, in a settings file. -/
inductive Comes (path : Path) : Except Yaml.Defect Yaml → Except Failure Settings → Prop where
  | malformed : Comes path (.error .malformed) (.error (.settingsUnreadable path.text))
  | defect (f) : Comes path (.error (.failure f)) (.error f)
  | nothing {document} (hn : document.isNothing = true) :
      Comes path (.ok document) (.ok .standard)
  | notMapping {document} (hn : document.isNothing = false)
      (hm : ∀ ordered entries, document ≠ .dict ordered entries) :
      Comes path (.ok document) (.error (.settingsNotMapping path.text))
  | unwritable {ordered entries} (hw : ¬ WritablePaths entries) :
      Comes path (.ok (.dict ordered entries)) (.error .unwritableNumber)
  | read {ordered entries} (hw : WritablePaths entries) (settings) :
      Comes path (.ok (.dict ordered entries)) (.ok settings)
  | refused {ordered entries} (hw : WritablePaths entries) (problems) :
      Comes path (.ok (.dict ordered entries)) (.error (.badSettingsFile path.text problems))

section

variable {validator : Validator}

theorem ofDocument_nothing (hv : validator.Decides) (path : Path) {document : Yaml}
    (h : document.isNothing = true) : ofDocument validator path document = .ok .standard := by
  have hnone : ofDocument validator path document =
      validator [] >>= Except.mapError (.badSettingsFile path.text) := by
    unfold ofDocument
    rw [h]
    rfl
  rw [hnone, hv.standard]
  rfl

theorem ofDocument_notMapping (path : Path) {document : Yaml} (h : document.isNothing = false)
    (hm : ∀ ordered entries, document ≠ .dict ordered entries) :
    ofDocument validator path document = .error (.settingsNotMapping path.text) := by
  unfold ofDocument
  rw [h]
  cases document with
  | dict ordered entries => exact absurd rfl (hm ordered entries)
  | _ => rfl

theorem ofDocument_mapping (path : Path) {ordered : Bool} {entries : List (Yaml × Yaml)}
    (h : (Yaml.dict ordered entries).isNothing = false) :
    ofDocument validator path (.dict ordered entries) =
      entries.mapM (givenOf path.parent) >>= fun options =>
        validator options >>= Except.mapError (.badSettingsFile path.text) := by
  unfold ofDocument
  rw [h]
  rfl

theorem ofDocument_comes (hv : validator.Decides) (path : Path) (document : Yaml) :
    Comes path (.ok document) (ofDocument validator path document) := by
  cases hn : document.isNothing with
  | true =>
      rw [ofDocument_nothing hv path hn]
      exact .nothing hn
  | false =>
      by_cases hm : ∃ ordered entries, document = .dict ordered entries
      · obtain ⟨ordered, entries, rfl⟩ := hm
        rw [ofDocument_mapping path hn]
        rcases mapM_givenOf_cases path.parent entries with ⟨⟨options, ho⟩, hw⟩ | ⟨he, hw⟩
        · rw [ho]
          change Comes path _ (validator options >>= _)
          obtain ⟨result, hr⟩ := hv.verdict options
          rw [hr]
          cases result with
          | ok settings => exact .read hw settings
          | error problems => exact .refused hw problems
        · rw [he]
          exact .unwritable hw
      · have hnot : ∀ ordered entries, document ≠ .dict ordered entries :=
          fun ordered entries heq => hm ⟨ordered, entries, heq⟩
        rw [ofDocument_notMapping path hn hnot]
        exact .notMapping hn hnot

end

/-! ## Files -/

section

variable {reader : Reader} {validator : Validator} {files : FileTree} {path : Path}
  {content : List UInt8} (h : files.file? path = .ok (some content))
include h

theorem loadBy_encoded {t : Text} (ht : t.flatMap String.utf8EncodeChar = content) :
    loadBy reader validator files path = match reader t.unifyLineEnds with
      | .ok document => ofDocument validator path document
      | .error .malformed => .error (.settingsUnreadable path.text)
      | .error (.failure f) => .error f := by
  rw [loadBy, FileTree.read?_of_file? h, Text.ofUtf8?_eq_some_iff.mpr ht]
  rfl

theorem loadBy_comes (reader : Reader) (hv : validator.Decides) {t : Text}
    (ht : t.flatMap String.utf8EncodeChar = content) :
    Comes path (reader t.unifyLineEnds) (loadBy reader validator files path) := by
  rw [loadBy_encoded h ht]
  cases hd : reader t.unifyLineEnds with
  | ok document => exact ofDocument_comes hv path document
  | error defect =>
      cases defect with
      | malformed => exact .malformed
      | failure f => exact .defect f

theorem loadBy_undecodable (ht : ∀ t : Text, t.flatMap String.utf8EncodeChar ≠ content) :
    loadBy reader validator files path = .error .undecodable := by
  rw [loadBy, FileTree.read?_of_file? h, Text.ofUtf8?_eq_none_iff.mpr ht]
  rfl

end

/-- The failures that are reported as faulty settings. -/
def isFault : Failure → Bool
  | .badOptions _ | .badSettingsFile .. | .settingsNotFound _ | .settingsUnreadable _
  | .settingsNotMapping _ => true
  | _ => false

/-- There are settings, or what is wrong with them is reported. -/
def Reported : Except Failure Settings → Prop
  | .ok _ => True
  | .error f => isFault f = true

section

variable {path : Path} {result : Except Failure Settings}

theorem Comes.reported_iff {reading : Except Yaml.Defect Yaml} (h : Comes path reading result)
    (hy : ∀ f, reading ≠ .error (.failure f)) :
    Reported result ↔
      ∀ ordered entries, reading = .ok (.dict ordered entries) → WritablePaths entries := by
  cases h with
  | malformed => exact ⟨fun _ => nofun, fun _ => rfl⟩
  | defect f => exact absurd rfl (hy f)
  | nothing hn =>
      refine ⟨?_, fun _ => trivial⟩
      rintro - ordered entries ⟨⟩
      obtain rfl : entries = [] := List.isEmpty_iff.mp hn
      exact fun items hm => nomatch hm
  | notMapping hn hm =>
      refine ⟨?_, fun _ => rfl⟩
      rintro - ordered entries ⟨⟩
      exact absurd rfl (hm ordered entries)
  | unwritable hw => exact ⟨nofun, fun hall => absurd (hall _ _ rfl) hw⟩
  | read hw settings =>
      refine ⟨?_, fun _ => trivial⟩
      rintro - ordered entries ⟨⟩
      exact hw
  | refused hw problems =>
      refine ⟨?_, fun _ => rfl⟩
      rintro - ordered entries ⟨⟩
      exact hw

theorem Comes.of_malformed (h : Comes path (.error .malformed) result) :
    result = .error (.settingsUnreadable path.text) := by
  cases h
  rfl

theorem Comes.of_not_mapping {document : Yaml} (h : Comes path (.ok document) result)
    (hm : ∀ ordered entries, document ≠ .dict ordered entries) :
    result = if document.isNothing then .ok .standard
      else .error (.settingsNotMapping path.text) := by
  cases h with
  | nothing hn => exact (if_pos hn).symm
  | notMapping hn =>
      rw [hn]
      rfl
  | unwritable | read | refused => exact absurd rfl (hm _ _)

end

/-- Any bytes in a settings file make settings or a report, if and only if they are the encoding of
a text and all template paths in it can be written as texts. Malformed texts are reported; of the
documents that are no mapping those that count as nothing make the standard settings, and only the
others are reported. This is so for any reader that fails for malformed texts only, and for any
validator that comes to a verdict. -/
theorem loadBy_reported_iff {reader : Reader} {validator : Validator} {files : FileTree}
    {path : Path} {content : List UInt8} (h : files.file? path = .ok (some content))
    (hreader : ∀ t : Text, t.flatMap String.utf8EncodeChar = content →
      reader.FailsAsMalformed t.unifyLineEnds)
    (hvalidator : validator.Decides) :
    (Reported (loadBy reader validator files path) ↔
      ∃ t : Text, t.flatMap String.utf8EncodeChar = content ∧
        ∀ ordered entries, reader t.unifyLineEnds = .ok (.dict ordered entries) →
          WritablePaths entries) ∧
    ∀ t : Text, t.flatMap String.utf8EncodeChar = content →
      (reader t.unifyLineEnds = .error .malformed →
        loadBy reader validator files path = .error (.settingsUnreadable path.text)) ∧
      ∀ document, reader t.unifyLineEnds = .ok document →
        (∀ ordered entries, document ≠ .dict ordered entries) →
          loadBy reader validator files path = if document.isNothing then .ok .standard
            else .error (.settingsNotMapping path.text) := by
  constructor
  · constructor
    · intro hreported
      by_contra hnone
      by_cases ht : ∃ t : Text, t.flatMap String.utf8EncodeChar = content
      · obtain ⟨t, ht⟩ := ht
        have hcomes := loadBy_comes h reader hvalidator ht
        exact hnone ⟨t, ht, (hcomes.reported_iff (hreader t ht)).mp hreported⟩
      · rw [loadBy_undecodable h fun t ht' => ht ⟨t, ht'⟩] at hreported
        cases hreported
    · rintro ⟨t, ht, hw⟩
      exact ((loadBy_comes h reader hvalidator ht).reported_iff (hreader t ht)).mpr hw
  · intro t ht
    have hcomes := loadBy_comes h reader hvalidator ht
    refine ⟨fun hd => ?_, fun document hd hm => ?_⟩ <;> rw [hd] at hcomes
    · exact hcomes.of_malformed
    · exact hcomes.of_not_mapping hm

/-! ## The reader and the validator that run -/

theorem countable_bareObject (printed : Text) : (Yaml.bareObject printed).Countable := by
  rintro o ⟨⟩
  exact ⟨none, rfl⟩

theorem countable_dictionary (ordered : Bool) (entries : List (Value × Value)) :
    (Yaml.dictionary ordered entries).Countable := by
  rw [Yaml.dictionary]
  by_cases ho : ordered = true
  · rw [if_pos ho]
    exact countable_bareObject _
  · rw [if_neg ho]
    cases Yaml.namedEntries? entries with
    | none => exact countable_bareObject _
    | some entries => exact nofun

theorem Given.countable (given : Given) : given.toValue.Countable := by
  cases given with
  | paths ps => exact nofun
  | data v =>
      cases v with
      | date d => exact countable_bareObject _
      | moment m => exact countable_bareObject _
      | cycle isList => exact countable_bareObject _
      | dict ordered entries =>
          cases ordered <;> exact countable_dictionary false (Yaml.toEntries entries)
      | _ => exact nofun

theorem validate_decides : Validator.Decides validate where
  verdict options := by
    have hcountable : ∀ option ∈ options.map (Prod.map Yaml.toValue Given.toValue),
        option.2.Countable := by
      intro option hm
      obtain ⟨⟨name, given⟩, -, rfl⟩ := List.mem_map.mp hm
      exact given.countable
    rcases ofOptions_settles hcountable (Heap.fresh 0) with ⟨settings, hs⟩ | ⟨problems, -, hs⟩
    · exact ⟨_, hs⟩
    · exact ⟨_, hs⟩
  standard := rfl

/-- The only file of a tree. -/
def soleFile : Path := Path.ofText "/c".toList

/-- A tree with one file. -/
def holding (content : List UInt8) : FileTree := ⟨[(["c".toList], .file content)]⟩

theorem file?_holding (content : List UInt8) :
    (holding content).file? soleFile = .ok (some content) := by
  cbv

/-- An option of one path. -/
def pathsText : Text := "'template_paths': ['a']".toList

theorem ofText_pathsText : Yaml.ofText pathsText.unifyLineEnds =
    .ok (.dict false [(.text "template_paths".toList, .list [.text "a".toList])]) := by
  cbv

/-- A list of one item. -/
def itemText : Text := "['a']".toList

theorem ofText_itemText :
    Yaml.ofText itemText.unifyLineEnds = .ok (.list [.text "a".toList]) := by
  cbv

/-- A list that nothing closes. -/
def openText : Text := "[".toList

theorem ofText_openText : Yaml.ofText openText.unifyLineEnds = .error .malformed := by cbv

theorem ofText_failsAsMalformed {t : Text} {reading : Except Yaml.Defect Yaml}
    (h : Yaml.ofText t.unifyLineEnds = reading) (hr : ∀ f, reading ≠ .error (.failure f))
    (t' : Text) (ht : t'.flatMap String.utf8EncodeChar = t.flatMap String.utf8EncodeChar) :
    Reader.FailsAsMalformed Yaml.ofText t'.unifyLineEnds := by
  intro f
  rw [Text.eq_of_flatMap_encode_eq ht, h]
  exact hr f

theorem pathsText_reported :
    Reported (load (holding (pathsText.flatMap String.utf8EncodeChar)) soleFile) ∧
      load (holding (openText.flatMap String.utf8EncodeChar)) soleFile =
        .error (.settingsUnreadable "/c".toList) ∧
      load (holding (itemText.flatMap String.utf8EncodeChar)) soleFile =
        .error (.settingsNotMapping "/c".toList) := by
  have hpaths := loadBy_reported_iff (file?_holding _)
    (ofText_failsAsMalformed ofText_pathsText nofun) validate_decides
  have hopen := loadBy_reported_iff (file?_holding _)
    (ofText_failsAsMalformed ofText_openText nofun) validate_decides
  have hitem := loadBy_reported_iff (file?_holding _)
    (ofText_failsAsMalformed ofText_itemText nofun) validate_decides
  refine ⟨?_, ?_, ?_⟩
  -- Rewriting, because the equivalence applied to the goal has the file read to see what the goal is.
  · rw [load, hpaths.1]
    refine ⟨pathsText, rfl, ?_⟩
    rw [ofText_pathsText]
    rintro ordered entries ⟨⟩ items hm
    obtain ⟨-, heq⟩ := Prod.mk.inj (List.mem_singleton.mp hm)
    obtain rfl := Yaml.list.inj heq
    intro item hitem
    rw [List.mem_singleton.mp hitem]
    rfl
  · rw [load, (hopen.2 openText rfl).1 ofText_openText]
    rfl
  · rw [load, (hitem.2 itemText rfl).2 _ ofText_itemText nofun]
    rfl

/-- A list of no items is read as if the file were empty, and there are bytes that make neither
settings nor a report of faulty ones. -/
theorem emptyList_unreported :
    Yaml.ofText "[]".toList = .ok (.list []) ∧
      load (holding ("[]".toList.flatMap String.utf8EncodeChar)) soleFile = .ok .standard ∧
      ¬ Reported (load (holding [0xff]) soleFile) := by
  have hempty : Yaml.ofText "[]".toList = .ok (.list []) := by cbv
  have hload : load (holding ("[]".toList.flatMap String.utf8EncodeChar)) soleFile =
      .ok .standard := by
    cbv
  have hbytes : load (holding [0xff]) soleFile = .error .undecodable := by cbv
  refine ⟨hempty, hload, fun hreported => ?_⟩
  rw [hbytes] at hreported
  cases hreported

end Settings

end Whisker
