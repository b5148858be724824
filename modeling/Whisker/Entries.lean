import Whisker.Text.Basic

/-! Named entries in the order in which their names first came. -/

namespace Whisker

abbrev Entries (β : Type) := List (Text × β)

namespace Entries

variable {β : Type}

def get? : Entries β → Text → Option β
  | [], _ => none
  | (known, value) :: rest, name => if known = name then some value else get? rest name

/-- A new name goes to the end; a known one keeps its place and gets the new value. -/
def put (name : Text) (value : β) : Entries β → Entries β
  | [] => [(name, value)]
  | (known, old) :: rest =>
    if known = name then (name, value) :: rest else (known, old) :: put name value rest

/-- The entries of a list of pairs, of which a later one with the same name wins. -/
def ofPairs (pairs : List (Text × β)) : Entries β :=
  pairs.foldl (fun entries (name, value) => put name value entries) []

def names (entries : Entries β) : List Text := entries.map (·.1)

def sortedNames (entries : Entries β) : List Text := entries.names.mergeSort Text.le

theorem get?_put (entries : Entries β) (name : Text) (value : β) (other : Text) :
    get? (put name value entries) other =
      if name = other then some value else get? entries other := by
  induction entries with
  | nil => simp [put, get?]
  | cons entry rest ih =>
    obtain ⟨known, old⟩ := entry
    by_cases hk : known = name <;> by_cases h : known = other <;> grind [put, get?]

theorem mem_of_get? {entries : Entries β} {name : Text} {value : β}
    (h : entries.get? name = some value) : (name, value) ∈ entries := by
  induction entries with
  | nil => cases h
  | cons entry entries ih =>
      obtain ⟨known, old⟩ := entry
      rw [get?] at h
      split at h
      · rename_i hk
        cases h
        rw [hk]
        exact List.mem_cons_self
      · exact List.mem_cons_of_mem _ (ih h)

theorem mem_put {entry : Text × β} {name : Text} {value : β} {entries : Entries β}
    (h : entry ∈ entries.put name value) : entry = (name, value) ∨ entry ∈ entries := by
  induction entries with
  | nil => exact .inl (List.mem_singleton.mp h)
  | cons first entries ih =>
      obtain ⟨known, old⟩ := first
      rw [put] at h
      split at h
      · exact (List.mem_cons.mp h).imp_right (List.mem_cons_of_mem _)
      · rcases List.mem_cons.mp h with h | h
        · exact .inr (h ▸ List.mem_cons_self)
        · exact (ih h).imp_right (List.mem_cons_of_mem _)

theorem mem_foldl_put {entry : Text × β} {entries : Entries β} {pairs : List (Text × β)}
    (h : entry ∈ pairs.foldl (fun entries (name, value) => put name value entries) entries) :
    entry ∈ entries ∨ entry ∈ pairs := by
  induction pairs generalizing entries with
  | nil => exact .inl h
  | cons pair pairs ih =>
      rcases ih h with h | h
      · rcases mem_put h with rfl | h
        · exact .inr List.mem_cons_self
        · exact .inl h
      · exact .inr (List.mem_cons_of_mem _ h)

theorem put_eq_append {name : Text} {entries : Entries β} (h : name ∉ entries.names)
    (value : β) : entries.put name value = entries ++ [(name, value)] := by
  induction entries with
  | nil => rfl
  | cons entry entries ih =>
      obtain ⟨known, old⟩ := entry
      rw [names, List.map_cons, List.mem_cons, not_or] at h
      rw [put, if_neg (Ne.symm h.1), ih h.2, List.cons_append]

theorem foldl_put_eq_append (entries : Entries β) {pairs : List (Text × β)}
    (h : (names (entries ++ pairs)).Nodup) :
    pairs.foldl (fun entries (name, value) => put name value entries) entries =
      entries ++ pairs := by
  induction pairs generalizing entries with
  | nil => simp
  | cons pair pairs ih =>
      obtain ⟨name, value⟩ := pair
      have hnot : name ∉ entries.names := by
        rw [names, List.map_append, List.nodup_append] at h
        exact fun hm => h.2.2 _ hm _ (by simp) rfl
      rw [List.foldl_cons]
      simp only
      rw [put_eq_append hnot, ih _ (by simpa using h)]
      simp

/-- Where no name comes twice the pairs themselves are the entries. -/
theorem ofPairs_eq_self {pairs : List (Text × β)} (h : (names pairs).Nodup) :
    ofPairs pairs = pairs :=
  foldl_put_eq_append [] h

/-! ## Leaving out a name -/

theorem filter_put (name : Text) (value : β) (other : Text) (entries : Entries β) :
    (put name value entries).filter (·.1 ≠ other) =
      if name = other then entries.filter (·.1 ≠ other)
      else put name value (entries.filter (·.1 ≠ other)) := by
  induction entries with
  | nil => by_cases h : name = other <;> simp [put, h]
  | cons entry entries ih =>
      obtain ⟨known, old⟩ := entry
      by_cases hknown : known = name
      · subst hknown
        by_cases h : known = other <;> simp [put, h]
      · rw [put, if_neg hknown, List.filter_cons, List.filter_cons, ih]
        by_cases h : name = other <;> by_cases hother : known = other <;>
          simp [put, h, hother, hknown]

theorem filter_ofPairs (other : Text) (pairs : List (Text × β)) :
    (ofPairs pairs).filter (·.1 ≠ other) = ofPairs (pairs.filter (·.1 ≠ other)) := by
  have hfold : ∀ entries : Entries β,
      (pairs.foldl (fun entries (name, value) => put name value entries) entries).filter
          (·.1 ≠ other) =
        (pairs.filter (·.1 ≠ other)).foldl (fun entries (name, value) => put name value entries)
          (entries.filter (·.1 ≠ other)) := by
    induction pairs with
    | nil => intro entries; rfl
    | cons pair pairs ih =>
        intro entries
        obtain ⟨name, value⟩ := pair
        rw [List.foldl_cons, ih]
        dsimp only
        rw [filter_put]
        by_cases h : name = other
        · rw [if_pos h, List.filter_cons_of_neg (by simp [h])]
        · rw [if_neg h, List.filter_cons_of_pos (by simp [h]), List.foldl_cons]
  exact hfold []

end Entries

end Whisker
