import FlatQuery.Proofs.Lookup
import Mathlib.Data.List.Nodup

/-!
# Dictionaries in order

Every function on dictionaries keeps the ascending order of keys (`Ascending.insert`,
`ascending_ofList`). A dictionary in order is determined by what is found under each key
(`Ascending.ext`) and by its entries in any order (`Ascending.ofList_eq`). As a list of entries,
`insert` adds one (`insert_perm_cons`) or exchanges one (`Ascending.exists_insert_perm`).
-/

namespace FlatQuery.Dict

variable {β γ : Type}

instance (d : Dict β) : Decidable (Ascending d) :=
  inferInstanceAs (Decidable (List.Pairwise _ d))

theorem ascending_cons {entry : String × β} {d : Dict β} :
    Ascending (entry :: d) ↔ (∀ other ∈ d, entry.1 < other.1) ∧ Ascending d :=
  List.pairwise_cons

/-! ## The order is kept -/

theorem Ascending.insert {d : Dict β} (h : Ascending d) (key : String) (value : β) :
    Ascending (insert d key value) := by
  induction d with
  | nil => exact List.pairwise_singleton _ _
  | cons entry d ih =>
    obtain ⟨k, v⟩ := entry
    obtain ⟨hfirst, hd⟩ := ascending_cons.1 h
    rcases Std.lt_trichotomy key k with hkey | rfl | hkey
    · rw [insert_cons_of_lt hkey, ascending_cons, List.forall_mem_cons]
      exact ⟨⟨hkey, fun other hother => String.lt_trans hkey (hfirst other hother)⟩, h⟩
    · rw [insert_cons_self, ascending_cons]
      exact ⟨hfirst, hd⟩
    · rw [insert_cons_of_gt hkey, ascending_cons]
      refine ⟨fun other hother => ?_, ih hd⟩
      obtain rfl | hother := mem_insert hother
      · exact hkey
      · exact hfirst other hother

theorem Ascending.insertAll {d : Dict β} (h : Ascending d) (new : List (String × β)) :
    Ascending (insertAll d new) := by
  induction new generalizing d with
  | nil => exact h
  | cons entry new ih =>
    rw [insertAll_cons]
    exact ih (h.insert entry.1 entry.2)

theorem ascending_ofList (entries : List (String × β)) : Ascending (ofList entries) :=
  Ascending.insertAll List.Pairwise.nil entries

theorem Ascending.mapValues {d : Dict β} (h : Ascending d) (f : String → β → γ) :
    Ascending (mapValues f d) :=
  List.pairwise_map.2 h

theorem Ascending.nodup_keys {d : Dict β} (h : Ascending d) : (d.map Prod.fst).Nodup :=
  List.pairwise_map.2 (h.imp fun hlt => String.ne_of_lt hlt)

/-- A key after all others goes to the end. -/
theorem insert_of_forall_lt {d : Dict β} {key : String} (h : ∀ entry ∈ d, entry.1 < key)
    (value : β) : insert d key value = d ++ [(key, value)] := by
  induction d with
  | nil => rfl
  | cons entry d ih =>
    rw [List.forall_mem_cons] at h
    rw [insert_cons_of_gt h.1, ih h.2, List.cons_append]

/-! ## Look-up decides -/

theorem Ascending.find?_eq_some_iff {d : Dict β} (h : Ascending d) {key : String} {value : β} :
    find? d key = some value ↔ (key, value) ∈ d := by
  constructor
  · exact mem_of_find?_eq_some
  · intro hmem
    induction d with
    | nil => cases hmem
    | cons entry d ih =>
      obtain ⟨k, v⟩ := entry
      obtain ⟨hfirst, hd⟩ := ascending_cons.1 h
      rw [find?_cons]
      rcases List.mem_cons.1 hmem with heq | hlater
      · obtain ⟨rfl, rfl⟩ := Prod.mk.inj heq
        exact if_pos rfl
      · rw [if_neg (String.ne_of_lt (hfirst _ hlater))]
        exact ih hd hlater

theorem Ascending.find?_filter_eq_some_iff {d : Dict β} (h : Ascending d) {p : String × β → Bool}
    {key : String} {value : β} :
    find? (d.filter p) key = some value ↔ find? d key = some value ∧ p (key, value) = true := by
  have hfilter : Ascending (d.filter p) := h.filter p
  rw [hfilter.find?_eq_some_iff, h.find?_eq_some_iff, List.mem_filter]

theorem Ascending.eq_of_perm {d e : Dict β} (hd : Ascending d) (he : Ascending e)
    (h : d.Perm e) : d = e :=
  List.Perm.eq_of_pairwise
    (fun _ _ _ _ hab hba => absurd hab (String.lt_asymm hba)) hd he h

theorem Ascending.ext {d e : Dict β} (hd : Ascending d) (he : Ascending e)
    (h : ∀ key, find? d key = find? e key) : d = e := by
  refine hd.eq_of_perm he ((List.perm_ext_iff_of_nodup hd.nodup_keys.of_map
    he.nodup_keys.of_map).2 fun entry => ?_)
  rw [← hd.find?_eq_some_iff, ← he.find?_eq_some_iff, h]

/-- To put a value where it is changes nothing. -/
theorem Ascending.insert_eq_self {d : Dict β} (h : Ascending d) {key : String} {value : β}
    (hfound : find? d key = some value) : Dict.insert d key value = d := by
  refine (h.insert key value).ext h fun other => ?_
  rw [find?_insert]
  by_cases hother : other = key
  · rw [if_pos hother, hother, hfound]
  · rw [if_neg hother]

/-- New entries hide the former ones under their keys. -/
theorem find?_insertAll_of_ascending {new : Dict β} (h : Ascending new) (d : Dict β)
    (key : String) : find? (Dict.insertAll d new) key = (find? new key).or (find? d key) := by
  cases hfound : find? new key with
  | none => exact find?_insertAll_of_notMem (find?_eq_none_iff.1 hfound) d
  | some value =>
    refine find?_insertAll_of_agree (mem_of_find?_eq_some hfound) (fun other hother => ?_) d
    exact Option.some.inj ((h.find?_eq_some_iff.2 hother).symm.trans hfound)

theorem find?_filterMap {d : Dict β} (h : Ascending d) {f : String × β → Option (String × γ)}
    (hkey : ∀ entry other, f entry = some other → other.1 = entry.1) (key : String) :
    find? (d.filterMap f) key = (find? d key).bind fun value => (f (key, value)).map Prod.snd := by
  induction d with
  | nil => rfl
  | cons entry d ih =>
    obtain ⟨k, v⟩ := entry
    obtain ⟨hfirst, hd⟩ := ascending_cons.1 h
    rw [find?_cons]
    by_cases hk : k = key
    · subst hk
      have hrest : find? d k = none :=
        find?_eq_none_iff.2 fun other hother => (String.ne_of_lt (hfirst other hother)).symm
      rw [if_pos rfl, Option.bind_some]
      cases hf : f (k, v) with
      | none => rw [List.filterMap_cons_none hf, ih hd, hrest, Option.bind_none, Option.map_none]
      | some other =>
        rw [List.filterMap_cons_some hf, find?_cons,
          if_pos (hkey _ _ hf), Option.map_some]
    · rw [if_neg hk, ← ih hd]
      cases hf : f (k, v) with
      | none => rw [List.filterMap_cons_none hf]
      | some other =>
        have hne : ¬other.1 = key := by
          rw [hkey _ _ hf]
          exact hk
        rw [List.filterMap_cons_some hf, find?_cons, if_neg hne]

/-- The keys that are left are those under which something is left. -/
theorem keys_filterMap {d : Dict β} (h : Ascending d) {f : String × β → Option (String × γ)}
    (hkey : ∀ entry other, f entry = some other → other.1 = entry.1) :
    keys (d.filterMap f) = (keys d).filter fun key => contains (d.filterMap f) key := by
  have hcontains : ∀ entry ∈ d, contains (d.filterMap f) entry.1 = (f entry).isSome := by
    intro entry hentry
    rw [contains, find?_filterMap h hkey, h.find?_eq_some_iff.2 hentry, Option.bind_some,
      Option.isSome_map]
  have hkeys : ∀ es : Dict β, keys (es.filterMap f) = keys (es.filter fun e => (f e).isSome) := by
    intro es
    induction es with
    | nil => rfl
    | cons entry es ih =>
      cases hf : f entry with
      | none => rw [List.filterMap_cons_none hf, List.filter_cons_of_neg (by simp [hf]), ih]
      | some other =>
        rw [List.filterMap_cons_some hf, List.filter_cons_of_pos (by simp [hf]), keys, keys,
          List.map_cons, List.map_cons, hkey _ _ hf, ← keys, ih, keys]
  rw [hkeys d, keys, keys, List.filter_map]
  exact congrArg (List.map Prod.fst)
    (List.filter_congr fun entry hentry => (hcontains entry hentry).symm)

theorem Ascending.filterMap {d : Dict β} (h : Ascending d) {f : String × β → Option (String × γ)}
    (hkey : ∀ entry other, f entry = some other → other.1 = entry.1) :
    Ascending (d.filterMap f) := by
  refine List.pairwise_filterMap.2 (h.imp fun hlt new hnew other hother => ?_)
  rwa [hkey _ _ hnew, hkey _ _ hother]

/-! ## Entries in any order -/

theorem insert_perm_cons {d : Dict β} {key : String} (h : contains d key = false) (value : β) :
    (insert d key value).Perm ((key, value) :: d) := by
  induction d with
  | nil => rfl
  | cons entry d ih =>
    obtain ⟨k, v⟩ := entry
    rw [contains, find?_cons] at h
    by_cases hk : k = key
    · rw [if_pos hk] at h
      cases h
    · rw [if_neg hk, ← contains] at h
      unfold insert
      rw [if_neg (Ne.symm hk)]
      split
      · rfl
      · exact ((ih h).cons (k, v)).trans (List.Perm.swap _ _ _)

/-- What was under a key makes place for what is put there. -/
theorem Ascending.exists_insert_perm {d : Dict β} (h : Ascending d) {key : String} {old : β}
    (hfound : find? d key = some old) (value : β) :
    ∃ rest, d.Perm ((key, old) :: rest) ∧ (Dict.insert d key value).Perm ((key, value) :: rest) := by
  induction d with
  | nil => cases hfound
  | cons entry d ih =>
    obtain ⟨k, v⟩ := entry
    obtain ⟨hfirst, hd⟩ := ascending_cons.1 h
    rw [find?_cons] at hfound
    by_cases hk : k = key
    · rw [if_pos hk] at hfound
      obtain rfl := Option.some.inj hfound
      subst hk
      exact ⟨d, List.Perm.refl _, by rw [insert_cons_self]⟩
    · rw [if_neg hk] at hfound
      have hlt : k < key := hfirst _ (mem_of_find?_eq_some hfound)
      obtain ⟨rest, hold, hnew⟩ := ih hd hfound
      refine ⟨(k, v) :: rest, (hold.cons (k, v)).trans (List.Perm.swap _ _ _), ?_⟩
      rw [insert_cons_of_gt hlt]
      exact (hnew.cons (k, v)).trans (List.Perm.swap _ _ _)

/-- Entries under new and different keys are all added. -/
theorem insertAll_perm {d : Dict β} {new : List (String × β)} (hnew : (new.map Prod.fst).Nodup)
    (hd : ∀ entry ∈ new, contains d entry.1 = false) : (insertAll d new).Perm (new ++ d) := by
  induction new generalizing d with
  | nil => rfl
  | cons entry new ih =>
    rw [List.map_cons, List.nodup_cons] at hnew
    rw [List.forall_mem_cons] at hd
    have hlater : ∀ later ∈ new, contains (insert d entry.1 entry.2) later.1 = false := by
      intro later hmem
      rw [← Bool.not_eq_true, contains_insert, not_or, Bool.not_eq_true]
      refine ⟨fun heq => hnew.1 (List.mem_map.2 ⟨later, hmem, heq⟩), hd.2 later hmem⟩
    rw [insertAll_cons]
    calc (insertAll (insert d entry.1 entry.2) new).Perm (new ++ insert d entry.1 entry.2) :=
          ih hnew.2 hlater
      List.Perm _ (new ++ entry :: d) := (insert_perm_cons hd.1 entry.2).append_left new
      List.Perm _ (entry :: new ++ d) := List.perm_middle

theorem ofList_perm {entries : List (String × β)} (h : (entries.map Prod.fst).Nodup) :
    (ofList entries).Perm entries := by
  have hperm := insertAll_perm (d := []) h fun _ _ => rfl
  rwa [List.append_nil] at hperm

theorem Ascending.ofList_eq {d : Dict β} (h : Ascending d) {entries : List (String × β)}
    (hperm : entries.Perm d) : ofList entries = d := by
  have hnodup : (entries.map Prod.fst).Nodup := (hperm.map Prod.fst).nodup_iff.2 h.nodup_keys
  exact (ascending_ofList entries).eq_of_perm h ((ofList_perm hnodup).trans hperm)

end FlatQuery.Dict
