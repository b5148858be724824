import Mathlib
import Whisker.Library.Resolver

/-! Aggregates. Whatever is attached to them and to the aggregates inside them, the members are asked
by priority, those of one priority in the order in which they were attached, and the first one that
knows a name answers. -/

namespace Whisker.Resolver

/-! ## Queues -/

/-- The members of an aggregate to which these were attached, in this order. -/
structure Queue (attached members : List (Int × Resolver)) : Prop where
  perm : members.Perm attached
  sorted : members.Pairwise fun a b => b.1 ≤ a.1
  stable : ∀ priority, members.filter (·.1 = priority) = attached.filter (·.1 = priority)

section

variable {priority : Int} {member : Resolver} {attached members : List (Int × Resolver)}

theorem insertMember_perm (priority : Int) (member : Resolver) (members : List (Int × Resolver)) :
    (insertMember priority member members).Perm ((priority, member) :: members) := by
  induction members with
  | nil => exact .refl _
  | cons entry members ih =>
      obtain ⟨p, m⟩ := entry
      rw [insertMember]
      split
      · exact (ih.cons _).trans (.swap _ _ _)
      · exact .refl _

theorem insertMember_sorted (h : members.Pairwise fun a b => b.1 ≤ a.1) :
    (insertMember priority member members).Pairwise fun a b => b.1 ≤ a.1 := by
  induction members with
  | nil => simp [insertMember]
  | cons entry members ih =>
      obtain ⟨p, m⟩ := entry
      obtain ⟨hfirst, hrest⟩ := List.pairwise_cons.mp h
      rw [insertMember]
      by_cases hle : priority ≤ p
      · rw [if_pos hle]
        refine List.pairwise_cons.mpr ⟨?_, ih hrest⟩
        intro b hb
        rcases List.mem_cons.mp ((insertMember_perm _ _ _).mem_iff.mp hb) with rfl | hb
        · exact hle
        · exact hfirst b hb
      · rw [if_neg hle]
        refine List.pairwise_cons.mpr ⟨?_, h⟩
        intro b hb
        have hlt : p < priority := not_le.mp hle
        rcases List.mem_cons.mp hb with rfl | hb
        · exact hlt.le
        · exact (hfirst b hb).trans hlt.le

/-- Of its priority the new member is the last. -/
theorem insertMember_filter (h : members.Pairwise fun a b => b.1 ≤ a.1) (q : Int) :
    (insertMember priority member members).filter (·.1 = q) =
      members.filter (·.1 = q) ++ [(priority, member)].filter (·.1 = q) := by
  induction members with
  | nil => rfl
  | cons entry members ih =>
      obtain ⟨p, m⟩ := entry
      obtain ⟨hfirst, hrest⟩ := List.pairwise_cons.mp h
      rw [insertMember]
      by_cases hle : priority ≤ p
      · rw [if_pos hle, List.filter_cons, ih hrest]
        by_cases hp : p = q <;> simp [List.filter_cons, hp]
      · rw [if_neg hle]
        by_cases hq : priority = q
        · -- all others are of a lower priority
          have hnone : ((p, m) :: members).filter (·.1 = q) = [] := by
            apply List.filter_eq_nil_iff.mpr
            intro b hb
            have hb : b.1 ≤ p := by
              rcases List.mem_cons.mp hb with rfl | hb
              · exact le_rfl
              · exact hfirst b hb
            simp only [decide_eq_true_eq]
            omega
          rw [hnone, List.filter_cons, hnone]
          simp [hq]
        · simp [List.filter_cons, hq]

theorem Queue.nil : Queue [] [] := ⟨.nil, .nil, fun _ => rfl⟩

theorem Queue.insert (h : Queue attached members) (priority : Int) (member : Resolver) :
    Queue (attached ++ [(priority, member)]) (insertMember priority member members) where
  perm := by
    refine (insertMember_perm priority member members).trans ?_
    exact (h.perm.cons _).trans (List.perm_append_singleton _ _).symm
  sorted := insertMember_sorted h.sorted
  stable q := by rw [insertMember_filter h.sorted, h.stable, List.filter_append]

/-- The members after more of them are attached, one after another. -/
def insertAll (attached members : List (Int × Resolver)) : List (Int × Resolver) :=
  attached.foldl (fun members (priority, member) => insertMember priority member members) members

theorem Queue.insertAll (h : Queue attached members) (more : List (Int × Resolver)) :
    Queue (attached ++ more) (insertAll more members) := by
  induction more generalizing attached members with
  | nil =>
      rw [List.append_nil]
      exact h
  | cons entry more ih =>
      rw [List.append_cons]
      exact ih (h.insert entry.1 entry.2)

/-- The members with what `f` makes of each. -/
def mapMembers (f : Resolver → Resolver) (members : List (Int × Resolver)) :
    List (Int × Resolver) :=
  members.map fun entry => (entry.1, f entry.2)

theorem mapMembers_insertMember (f : Resolver → Resolver) (priority : Int) (member : Resolver)
    (members : List (Int × Resolver)) :
    mapMembers f (insertMember priority member members) =
      insertMember priority (f member) (mapMembers f members) := by
  induction members with
  | nil => rfl
  | cons entry members ih =>
      obtain ⟨p, m⟩ := entry
      simp only [mapMembers, insertMember, List.map_cons] at ih ⊢
      split
      · rw [List.map_cons, ih]
      · rfl

end

/-! ## Attachments -/

theorem modifyMembers_eq_map (target : Nat) (f : Resolver → Resolver)
    (members : List (Int × Resolver)) :
    modifyMembers target f members = mapMembers (modify target f) members := by
  induction members with
  | nil => rfl
  | cons entry members ih =>
      rw [modifyMembers, ih]
      rfl

/-- A member that is attached to the aggregate with a key. -/
structure Attachment where
  target : Nat
  priority : Int
  member : Resolver

/-- A resolver after attachments to it and to what is inside it, one after another. -/
def attachAll (r : Resolver) (attachments : List Attachment) : Resolver :=
  attachments.foldl (fun r a => r.attachAt a.target a.priority a.member) r

theorem attachAll_cons (r : Resolver) (a : Attachment) (later : List Attachment) :
    r.attachAll (a :: later) = (r.attachAt a.target a.priority a.member).attachAll later :=
  rfl

theorem key_attachAt (r : Resolver) (target : Nat) (priority : Int) (member : Resolver) :
    (r.attachAt target priority member).key = r.key := by
  cases r <;>
    · rw [attachAt, modify]
      split <;> rfl

theorem key_attachAll (r : Resolver) (attachments : List Attachment) :
    (r.attachAll attachments).key = r.key := by
  induction attachments generalizing r with
  | nil => rfl
  | cons a later ih => rw [attachAll_cons, ih, key_attachAt]

/-- The attachments that may change what is inside the aggregate with a key, which itself is not
inside it. -/
def elsewhere (key : Nat) (attachments : List Attachment) : List Attachment :=
  attachments.filter (·.target ≠ key)

theorem elsewhere_cons (key : Nat) (a : Attachment) (later : List Attachment) :
    elsewhere key (a :: later) =
      if a.target = key then elsewhere key later else a :: elsewhere key later := by
  rw [elsewhere, List.filter_cons]
  by_cases h : a.target = key <;> simp [h, elsewhere]

/-- What was attached to the aggregate with a key, in order, each as the attachments behind it leave
it. -/
def attachedTo (key : Nat) : List Attachment → List (Int × Resolver)
  | [] => []
  | a :: later =>
    if a.target = key then
      (a.priority, a.member.attachAll (elsewhere key later)) :: attachedTo key later
    else attachedTo key later

/-- It is all that was attached to the aggregate, in the order in which it was. -/
theorem keys_attachedTo (key : Nat) (attachments : List Attachment) :
    (attachedTo key attachments).map (fun entry => (entry.1, entry.2.key)) =
      (attachments.filter (·.target = key)).map fun a => (a.priority, a.member.key) := by
  induction attachments with
  | nil => rfl
  | cons a later ih =>
      rw [attachedTo]
      by_cases h : a.target = key <;> simp [h, ih, key_attachAll]

/-- An aggregate keeps its members, each as the attachments leave it, with what is attached to it
put in between. -/
theorem attachAll_aggregate (key : Nat) (members : List (Int × Resolver))
    (attachments : List Attachment) :
    (aggregate key members).attachAll attachments =
      aggregate key (insertAll (attachedTo key attachments)
        (mapMembers (·.attachAll (elsewhere key attachments)) members)) := by
  induction attachments generalizing members with
  | nil => simp [attachAll, elsewhere, attachedTo, insertAll, mapMembers]
  | cons a later ih =>
      rw [attachAll_cons, attachAt, modify, attachedTo, elsewhere_cons]
      by_cases h : a.target = key
      · rw [if_pos h.symm, if_pos h, if_pos h, attach, ih, mapMembers_insertMember]
        rfl
      · rw [if_neg (Ne.symm h), if_neg h, if_neg h, modifyMembers_eq_map, ih, mapMembers,
          mapMembers, List.map_map]
        rfl

/-! ## Queries -/

/-- An answer that comes of asking resolvers one after another: the first that does not leave the
name to the others gives it, each one up to there is asked once, and none behind it. -/
inductive FirstHit (files : FileTree) (name : Text) : List Resolver → Answer → Prop where
  | found {before : List Resolver} {hit : Resolver} (after : List Resolver)
      (hbefore : ∀ r ∈ before, (r.resolve files name).result = .ok none)
      (hhit : (hit.resolve files name).result ≠ .ok none) :
      FirstHit files name (before ++ hit :: after)
        ⟨(hit.resolve files name).result,
          (before ++ [hit]).flatMap fun r => (r.resolve files name).asked⟩
  | unknown {all : List Resolver} (hall : ∀ r ∈ all, (r.resolve files name).result = .ok none) :
      FirstHit files name all ⟨.ok none, all.flatMap fun r => (r.resolve files name).asked⟩

namespace FirstHit

variable {files : FileTree} {name : Text} {front rest : List Resolver} {answer : Answer}

theorem singleton (files : FileTree) (name : Text) (r : Resolver) :
    FirstHit files name [r] (r.resolve files name) := by
  by_cases h : (r.resolve files name).result = .ok none
  · have hunknown := unknown (List.forall_mem_singleton.mpr h)
    rwa [List.flatMap_singleton, ← h] at hunknown
  · have hfound := @found files name [] r [] (by simp) h
    rwa [List.nil_append, List.flatMap_singleton] at hfound

/-- Nobody knew a name that is not found. -/
theorem of_unknown (h : FirstHit files name rest answer) (hu : answer.result = .ok none) :
    (∀ r ∈ rest, (r.resolve files name).result = .ok none) ∧
      answer.asked = rest.flatMap fun r => (r.resolve files name).asked := by
  cases h with
  | found after hbefore hhit => exact (hhit hu).elim
  | unknown hall => exact ⟨hall, rfl⟩

/-- Behind those that do not know the name the others are asked. -/
theorem behind (hfront : ∀ r ∈ front, (r.resolve files name).result = .ok none)
    (h : FirstHit files name rest answer) :
    FirstHit files name (front ++ rest)
      ⟨answer.result, (front.flatMap fun r => (r.resolve files name).asked) ++ answer.asked⟩ := by
  cases h with
  | found after hbefore hhit =>
      have hall := List.forall_mem_append.mpr ⟨hfront, hbefore⟩
      have hfound := found after hall hhit
      rwa [List.append_assoc, List.append_assoc, List.flatMap_append] at hfound
  | unknown hall =>
      have hunknown := unknown (List.forall_mem_append.mpr ⟨hfront, hall⟩)
      rwa [List.flatMap_append] at hunknown

/-- Those behind a hit are not asked. -/
theorem before (h : FirstHit files name front answer) (hk : answer.result ≠ .ok none)
    (rest : List Resolver) : FirstHit files name (front ++ rest) answer := by
  cases h with
  | found after hbefore hhit =>
      rw [List.append_assoc, List.cons_append]
      exact found _ hbefore hhit
  | unknown hall => exact (hk rfl).elim

end FirstHit

section

variable (files : FileTree) (name : Text)

/-- The members of an aggregate are asked from the first on. -/
theorem firstHit_members (members : List (Int × Resolver)) :
    FirstHit files name (members.map (·.2)) (resolveMembers files name members) := by
  induction members with
  | nil => exact .unknown (by simp)
  | cons entry members ih =>
      have hfirst := FirstHit.singleton files name entry.2
      rw [resolveMembers]
      split
      · rename_i hnone
        obtain ⟨hunknown, hasked⟩ := hfirst.of_unknown hnone
        rw [hasked]
        exact ih.behind hunknown
      · rename_i hknown
        exact hfirst.before hknown _

mutual

/-- What is asked in the end: the resolvers that are no aggregates, in the order of the queues. -/
def leaves : Resolver → List Resolver
  | .aggregate _ members => memberLeaves members
  | r => [r]

def memberLeaves : List (Int × Resolver) → List Resolver
  | [] => []
  | (_, member) :: members => leaves member ++ memberLeaves members

end

mutual

/-- With aggregates inside aggregates it is the same for what is in the innermost ones. -/
theorem firstHit_leaves (r : Resolver) : FirstHit files name r.leaves (r.resolve files name) := by
  cases r with
  | aggregate key members => exact firstHit_memberLeaves members
  | _ => exact .singleton files name _

theorem firstHit_memberLeaves (members : List (Int × Resolver)) :
    FirstHit files name (memberLeaves members) (resolveMembers files name members) := by
  cases members with
  | nil => exact .unknown (by simp [memberLeaves])
  | cons entry members =>
      have hfirst := firstHit_leaves entry.2
      rw [resolveMembers]
      split
      · rename_i hnone
        obtain ⟨hunknown, hasked⟩ := hfirst.of_unknown hnone
        rw [hasked]
        exact (firstHit_memberLeaves members).behind hunknown
      · rename_i hknown
        exact hfirst.before hknown _

end

mutual

theorem asked_of_mem_leaves (r : Resolver) :
    ∀ leaf ∈ r.leaves, (leaf.resolve files name).asked = [leaf.key] := by
  cases r with
  | aggregate key members => exact asked_of_mem_memberLeaves members
  | _ => exact List.forall_mem_singleton.mpr rfl

theorem asked_of_mem_memberLeaves (members : List (Int × Resolver)) :
    ∀ leaf ∈ memberLeaves members, (leaf.resolve files name).asked = [leaf.key] := by
  cases members with
  | nil => simp [memberLeaves]
  | cons entry members =>
      exact List.forall_mem_append.mpr
        ⟨asked_of_mem_leaves entry.2, asked_of_mem_memberLeaves members⟩

end

end

/-! ## Kinds -/

/-- A member of the kind, where there is one that is asked for. -/
def IsOf (kind : Option Kind) (r : Resolver) : Prop := ∀ k, kind = some k → r.kind = k

theorem all_kind_iff (kind : Option Kind) (r : Resolver) :
    kind.all (r.kind = ·) = true ↔ r.IsOf kind := by
  cases kind <;> simp [IsOf]

theorem memberOfKind_eq_ok_iff {kind : Option Kind} {r member : Resolver} :
    r.memberOfKind kind = .ok member ↔
      member.IsOf kind ∧ ∃ before after, r.members = before ++ member :: after ∧
        ∀ m ∈ before, ¬ m.IsOf kind := by
  have hfind : r.memberOfKind kind = .ok member ↔
      r.members.find? (fun m => kind.all (m.kind = ·)) = some member := by
    rw [memberOfKind, member?]
    cases r.members.find? (fun m => kind.all (m.kind = ·)) <;> simp
  rw [hfind, List.find?_eq_some_iff_append, all_kind_iff]
  simp only [Bool.not_eq_true', ← Bool.not_eq_true, all_kind_iff]

theorem hasKind_eq_false_iff {kind : Option Kind} {r : Resolver} :
    r.hasKind kind = false ↔ r.memberOfKind kind =
      .error (.noSuchResolver ((kind.map Kind.name).getD "TemplateResolver").toList) := by
  have hnone : r.hasKind kind = false ↔
      r.members.find? (fun m => kind.all (m.kind = ·)) = none := by
    rw [hasKind, List.any_eq_false, List.find?_eq_none]
  rw [hnone, memberOfKind, member?]
  cases r.members.find? (fun m => kind.all (m.kind = ·)) <;> simp

/-- Whatever is attached to an aggregate and to those inside it, its queue holds what was attached to
it and nothing else, by priority and for one priority in the order of the attachments. A query asks
the members in this order, each once, up to the first that knows the name, which gives the answer;
so are the resolvers asked that aggregates inside it lead to. The first member of a kind is what is
found under the kind, and the failure says that there is none. -/
theorem attachAll_answers (key : Nat) (attachments : List Attachment) :
    ∃ members, (aggregate key []).attachAll attachments = aggregate key members ∧
      Queue (attachedTo key attachments) members ∧
      (attachedTo key attachments).map (fun entry => (entry.1, entry.2.key)) =
        (attachments.filter (·.target = key)).map (fun a => (a.priority, a.member.key)) ∧
      (∀ files name,
        let answer := (aggregate key members).resolve files name
        FirstHit files name (members.map (·.2)) answer ∧
        FirstHit files name (memberLeaves members) answer ∧
        ∀ leaf ∈ memberLeaves members, (leaf.resolve files name).asked = [leaf.key]) ∧
      ∀ kind,
        (∀ member, (aggregate key members).memberOfKind kind = .ok member ↔
          member.IsOf kind ∧ ∃ before after, members.map (·.2) = before ++ member :: after ∧
            ∀ m ∈ before, ¬ m.IsOf kind) ∧
        ((aggregate key members).hasKind kind = false ↔
          (aggregate key members).memberOfKind kind =
            .error (.noSuchResolver ((kind.map Kind.name).getD "TemplateResolver").toList)) := by
  refine ⟨insertAll (attachedTo key attachments) [], attachAll_aggregate key [] attachments, ?_,
    keys_attachedTo key attachments, fun files name => ⟨?_, ?_, ?_⟩, fun kind => ⟨?_, ?_⟩⟩
  · exact Queue.nil.insertAll (attachedTo key attachments)
  · exact firstHit_members files name _
  · exact firstHit_memberLeaves files name _
  · exact asked_of_mem_memberLeaves files name _
  · exact fun member => memberOfKind_eq_ok_iff
  · exact hasKind_eq_false_iff

/-- A text that is empty is known, and an aggregate is asked for what came into it later. -/
example : ((aggregate 0 []).attachAll [⟨0, -1, .memory 1 [(['x'], ['y'])]⟩, ⟨0, 5, .aggregate 2 []⟩,
    ⟨0, 5, .memory 3 []⟩, ⟨2, 1, .foreign 4 [(['x'], [])]⟩]).resolve .empty ['x'] =
      ⟨.ok (some []), [4]⟩ := rfl

end Whisker.Resolver
