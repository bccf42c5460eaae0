import FlatQuery.Json.Basic

/-!
# Look-up in dictionaries

What is found under a key after a dictionary has been changed. `find?` and `contains` are taken
through `insert`, `insertAll` and `mapValues`; none of the rules needs the dictionary to
be in order. Of entries that are put in together those under other keys do not matter
(`find?_insertAll_of_notMem`), and entries that agree under a key decide it
(`find?_insertAll_of_agree`). Entries under different keys can be put in in either order
(`insert_comm`).
-/

namespace FlatQuery

namespace Dict

variable {β γ : Type}

/-! ## One entry -/

theorem find?_insert (d : Dict β) (key other : String) (value : β) :
    find? (insert d key value) other = if other = key then some value else find? d other := by
  by_cases h : other = key
  · rw [if_pos h, h, find?_insert_self]
  · rw [if_neg h, find?_insert_of_ne d value h]

theorem contains_insert (d : Dict β) (key other : String) (value : β) :
    contains (insert d key value) other = true ↔ other = key ∨ contains d other = true := by
  unfold contains
  rw [find?_insert]
  by_cases h : other = key <;> simp [h]

theorem contains_insert_self (d : Dict β) (key : String) (value : β) :
    contains (insert d key value) key = true :=
  (contains_insert d key key value).2 (Or.inl rfl)

theorem contains_insert_of_contains {d : Dict β} {other : String} (h : contains d other = true)
    (key : String) (value : β) : contains (insert d key value) other = true :=
  (contains_insert d key other value).2 (Or.inr h)

theorem mem_of_find?_eq_some {d : Dict β} {key : String} {value : β}
    (h : find? d key = some value) : (key, value) ∈ d := by
  obtain ⟨entry, hfound, rfl⟩ := Option.map_eq_some_iff.1 h
  have hkey : entry.1 = key := by simpa using List.find?_some hfound
  rw [← hkey]
  exact List.mem_of_find?_eq_some hfound

theorem find?_eq_none_iff {d : Dict β} {key : String} :
    find? d key = none ↔ ∀ entry ∈ d, entry.1 ≠ key := by
  simp [find?]

theorem contains_eq_false_iff {d : Dict β} {key : String} :
    contains d key = false ↔ find? d key = none := by
  rw [contains, Option.isSome_eq_false_iff, Option.isNone_iff_eq_none]

theorem contains_of_find?_eq_some {d : Dict β} {key : String} {value : β}
    (h : find? d key = some value) : contains d key = true := by
  rw [contains, h, Option.isSome_some]

theorem contains_iff_exists_mem {d : Dict β} {key : String} :
    contains d key = true ↔ ∃ value, (key, value) ∈ d := by
  constructor
  · intro h
    obtain ⟨value, hvalue⟩ := Option.isSome_iff_exists.1 h
    exact ⟨value, mem_of_find?_eq_some hvalue⟩
  · rintro ⟨value, hmem⟩
    rw [contains, Option.isSome_iff_ne_none, ne_eq, find?_eq_none_iff]
    exact fun hne => hne _ hmem rfl

theorem mem_insert {d : Dict β} {key : String} {value : β} {entry : String × β}
    (h : entry ∈ insert d key value) : entry = (key, value) ∨ entry ∈ d := by
  induction d with
  | nil => exact Or.inl (List.mem_singleton.1 h)
  | cons first d ih =>
    obtain ⟨k, v⟩ := first
    unfold insert at h
    split at h
    · exact (List.mem_cons.1 h).imp id (List.mem_cons_of_mem _)
    · split at h
      · exact List.mem_cons.1 h
      · rcases List.mem_cons.1 h with rfl | h
        · exact Or.inr List.mem_cons_self
        · exact (ih h).imp id (List.mem_cons_of_mem _)

/-! ### Two entries -/

theorem insert_cons_self (key : String) (old value : β) (d : Dict β) :
    insert ((key, old) :: d) key value = (key, value) :: d := by
  rw [insert, if_pos rfl]

theorem insert_cons_of_lt {key k : String} (h : key < k) (old value : β) (d : Dict β) :
    insert ((k, old) :: d) key value = (key, value) :: (k, old) :: d := by
  rw [insert, if_neg (String.ne_of_lt h), if_pos h]

theorem insert_cons_of_gt {key k : String} (h : k < key) (old value : β) (d : Dict β) :
    insert ((k, old) :: d) key value = (k, old) :: insert d key value := by
  rw [insert, if_neg (String.ne_of_lt h).symm, if_neg (String.lt_asymm h)]

/-- The lesser of two keys may as well be put in first. -/
theorem insert_insert_of_lt {key other : String} (h : key < other) (v w : β) (d : Dict β) :
    insert (insert d other w) key v = insert (insert d key v) other w := by
  induction d with
  | nil =>
    rw [insert, insert, insert_cons_of_lt h, insert_cons_of_gt h, insert]
  | cons entry d ih =>
    obtain ⟨k, u⟩ := entry
    rcases Std.lt_trichotomy key k with hkey | rfl | hkey
    · -- `key` comes first whatever happens to the rest
      rw [insert_cons_of_lt hkey, insert_cons_of_gt h]
      rcases Std.lt_trichotomy other k with hother | rfl | hother
      · rw [insert_cons_of_lt hother, insert_cons_of_lt h]
      · rw [insert_cons_self, insert_cons_of_lt h]
      · rw [insert_cons_of_gt hother, insert_cons_of_lt hkey]
    · rw [insert_cons_of_gt h, insert_cons_self, insert_cons_self, insert_cons_of_gt h]
    · have hother : k < other := String.lt_trans hkey h
      rw [insert_cons_of_gt hother, insert_cons_of_gt hkey, insert_cons_of_gt hkey,
        insert_cons_of_gt hother, ih]

/-- Of two values under one key the later stays. -/
theorem insert_insert_self (d : Dict β) (key : String) (old value : β) :
    insert (insert d key old) key value = insert d key value := by
  induction d with
  | nil => exact insert_cons_self key old value []
  | cons entry d ih =>
    obtain ⟨k, u⟩ := entry
    rcases Std.lt_trichotomy key k with hlt | rfl | hlt
    · rw [insert_cons_of_lt hlt, insert_cons_of_lt hlt, insert_cons_self]
    · rw [insert_cons_self, insert_cons_self, insert_cons_self]
    · rw [insert_cons_of_gt hlt, insert_cons_of_gt hlt, insert_cons_of_gt hlt, ih]

theorem insert_comm {key other : String} (h : key ≠ other) (v w : β) (d : Dict β) :
    insert (insert d other w) key v = insert (insert d key v) other w := by
  rcases Std.lt_trichotomy key other with hlt | rfl | hlt
  · exact insert_insert_of_lt hlt v w d
  · exact absurd rfl h
  · exact (insert_insert_of_lt hlt w v d).symm

/-! ## Several entries -/

theorem insertAll_cons (d : Dict β) (entry : String × β) (new : List (String × β)) :
    insertAll d (entry :: new) = insertAll (insert d entry.1 entry.2) new := rfl

theorem mem_insertAll {d : Dict β} {new : List (String × β)} {entry : String × β}
    (h : entry ∈ insertAll d new) : entry ∈ new ∨ entry ∈ d := by
  induction new generalizing d with
  | nil => exact Or.inr h
  | cons first new ih =>
    rw [insertAll_cons] at h
    rcases ih h with h | h
    · exact Or.inl (List.mem_cons_of_mem _ h)
    · obtain rfl | h := mem_insert h
      · exact Or.inl List.mem_cons_self
      · exact Or.inr h

theorem find?_insertAll_of_notMem {new : List (String × β)} {key : String}
    (h : ∀ entry ∈ new, entry.1 ≠ key) (d : Dict β) :
    find? (insertAll d new) key = find? d key := by
  induction new generalizing d with
  | nil => rfl
  | cons entry new ih =>
    rw [List.forall_mem_cons] at h
    rw [insertAll_cons, ih h.2, find?_insert_of_ne d entry.2 h.1.symm]

/-- Where one of the new entries is under the key, one of them is found there. -/
theorem exists_find?_insertAll {new : List (String × β)} {key : String}
    (h : ∃ entry ∈ new, entry.1 = key) (d : Dict β) :
    ∃ value, (key, value) ∈ new ∧ find? (insertAll d new) key = some value := by
  induction new generalizing d with
  | nil => simp at h
  | cons entry new ih =>
    rw [insertAll_cons]
    by_cases hlater : ∃ later ∈ new, later.1 = key
    · obtain ⟨value, hmem, hfind⟩ := ih hlater (insert d entry.1 entry.2)
      exact ⟨value, List.mem_cons_of_mem _ hmem, hfind⟩
    · have hkey : entry.1 = key := by
        obtain ⟨e, he, rfl⟩ := h
        rcases List.mem_cons.1 he with rfl | he
        · rfl
        · exact absurd ⟨e, he, rfl⟩ hlater
      refine ⟨entry.2, by simp [← hkey], ?_⟩
      rw [find?_insertAll_of_notMem (fun e he hk => hlater ⟨e, he, hk⟩), ← hkey, find?_insert_self]

/-- Entries that agree under a key decide what is found there. -/
theorem find?_insertAll_of_agree {new : List (String × β)} {key : String} {value : β}
    (hmem : (key, value) ∈ new) (hagree : ∀ other, (key, other) ∈ new → other = value)
    (d : Dict β) : find? (insertAll d new) key = some value := by
  obtain ⟨other, hother, hfind⟩ := exists_find?_insertAll ⟨_, hmem, rfl⟩ d
  rw [hfind, hagree other hother]

theorem contains_insertAll (d : Dict β) (new : List (String × β)) (key : String) :
    contains (insertAll d new) key = true ↔
      (∃ entry ∈ new, entry.1 = key) ∨ contains d key = true := by
  unfold contains
  by_cases h : ∃ entry ∈ new, entry.1 = key
  · obtain ⟨value, -, hfind⟩ := exists_find?_insertAll h d
    simp [h, hfind]
  · have hnone : ∀ entry ∈ new, entry.1 ≠ key := fun e he hk => h ⟨e, he, hk⟩
    rw [find?_insertAll_of_notMem hnone]
    simp [h]

/-! ## All entries -/

theorem find?_mapValues (f : String → β → γ) (d : Dict β) (key : String) :
    find? (mapValues f d) key = (find? d key).map (f key) := by
  induction d with
  | nil => rfl
  | cons entry d ih =>
    obtain ⟨k, v⟩ := entry
    rw [mapValues, List.map_cons, ← mapValues, find?_cons, find?_cons]
    by_cases h : k = key
    · simp [h]
    · simp [h, ih]

end Dict

/-! ## Objects -/

theorem get?_ofMembers_of_agree {members : List (String × Json)} {key : String} {value : Json}
    (hmem : (key, value) ∈ members) (hagree : ∀ other, (key, other) ∈ members → other = value) :
    (Json.ofMembers members).get? key = some value :=
  Dict.find?_insertAll_of_agree hmem hagree []

theorem get?_ofMembers_of_notMem {members : List (String × Json)} {key : String}
    (h : ∀ entry ∈ members, entry.1 ≠ key) : (Json.ofMembers members).get? key = none :=
  Dict.find?_insertAll_of_notMem h []

end FlatQuery
