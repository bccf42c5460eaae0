import FlatQuery.Proofs.Hierarchy

/-!
# From the flat form back

An object whose keys have no dots is recovered from its flat form (`nest_flatten`). The paths of its
leaves do not run through one another, so each leaf finds room wherever the order of dotted keys
puts it; and an object is determined by its leaves in any order (`eq_of_memberLeaves_perm`).
-/

namespace FlatQuery.Json

/-! ## Leaves -/

/-- A property of leaves is proved at the end of a path and for one more step before it. -/
theorem leaves_induction {motive : Json → List String × Json → Prop}
    (ends : ∀ v, leaves v = [([], v)] → motive v ([], v))
    (step : ∀ members, ∀ m ∈ members, ∀ leaf ∈ leaves m.2, motive m.2 leaf →
      motive (obj members) (under [m.1] leaf)) (v : Json) : ∀ leaf ∈ leaves v, motive v leaf := by
  induction v using inductionOn with
  | scalar v h =>
    rw [leaves_of_isScalar h, List.forall_mem_singleton]
    exact ends v (leaves_of_isScalar h)
  | arr items =>
    rw [leaves, List.forall_mem_singleton]
    exact ends _ rfl
  | obj members ih =>
    intro leaf hleaf
    by_cases hempty : members = []
    · subst hempty
      obtain rfl := List.mem_singleton.1 hleaf
      exact ends _ rfl
    · rw [leaves_obj hempty] at hleaf
      obtain ⟨m, hm, below, hbelow, rfl⟩ := mem_memberLeaves.1 hleaf
      exact step members m hm below hbelow (ih m hm below hbelow)

theorem leaves_of_mem_leaves (v : Json) : ∀ leaf ∈ leaves v, leaves leaf.2 = [([], leaf.2)] :=
  leaves_induction (motive := fun _ leaf => leaves leaf.2 = [([], leaf.2)])
    (fun _ h => h) (fun _ _ _ _ _ ih => ih) v

theorem objects_subset_of_mem_leaves (v : Json) :
    ∀ leaf ∈ leaves v, ∀ d ∈ leaf.2.objects, d ∈ v.objects := by
  refine leaves_induction (motive := fun v leaf => ∀ d ∈ leaf.2.objects, d ∈ v.objects)
    (fun _ _ _ hd => hd) (fun members m hm leaf _ ih d hd => ?_) v
  rw [objects_obj]
  exact List.mem_cons_of_mem _ (List.mem_flatMap.2 ⟨m, hm, ih d hd⟩)

theorem notMem_of_mem_leaves {v : Json} (h : v.DotFree) :
    ∀ leaf ∈ leaves v, ∀ step ∈ leaf.1, '.' ∉ step.toList := by
  intro leaf hleaf
  refine leaves_induction (motive := fun v leaf => v.DotFree → ∀ step ∈ leaf.1, '.' ∉ step.toList)
    (fun _ _ _ => by simp) (fun members m hm leaf _ ih hfree => ?_) v leaf hleaf h
  rw [dotFree_obj] at hfree
  show ∀ step ∈ m.1 :: leaf.1, '.' ∉ step.toList
  rw [List.forall_mem_cons]
  exact ⟨hfree.1 m hm, ih (hfree.2 m hm)⟩

theorem ne_nil_of_mem_memberLeaves {d : Dict Json} : ∀ leaf ∈ memberLeaves d, leaf.1 ≠ [] := by
  intro leaf hleaf
  obtain ⟨m, -, below, -, rfl⟩ := mem_memberLeaves.1 hleaf
  exact List.cons_ne_nil _ _

theorem forall_mem_memberLeaves {p : List String × Json → Prop} {d : Dict Json}
    (h : ∀ leaf ∈ leaves (obj d), p leaf) : ∀ leaf ∈ memberLeaves d, p leaf := by
  cases d with
  | nil => simp [memberLeaves]
  | cons m d => rwa [leaves_obj (List.cons_ne_nil _ _)] at h

theorem apart_cons_of_ne {key next : String} (h : key ≠ next) (path other : List String) :
    Apart (key :: path) (next :: other) :=
  ⟨fun hbegins => h (List.cons_prefix_cons.1 hbegins).1,
    fun hbegins => h (List.cons_prefix_cons.1 hbegins).1.symm⟩

theorem pairwise_apart_memberLeaves_of {d : Dict Json} (hd : Dict.Ascending d)
    (h : ∀ m ∈ d, (leaves m.2).Pairwise fun leaf other => Apart leaf.1 other.1) :
    (memberLeaves d).Pairwise fun leaf other => Apart leaf.1 other.1 := by
  rw [memberLeaves_eq_flatMap, List.pairwise_flatMap]
  constructor
  · intro m hm
    rw [List.pairwise_map]
    exact (h m hm).imp fun hapart => apart_cons_iff.2 hapart
  · refine hd.imp fun hlt => ?_
    simp only [List.forall_mem_map]
    exact fun leaf _ other _ => apart_cons_of_ne (String.ne_of_lt hlt) leaf.1 other.1

theorem pairwise_apart_leaves {v : Json} (h : v.Ordered) :
    (leaves v).Pairwise fun leaf other => Apart leaf.1 other.1 := by
  induction v using inductionOn with
  | scalar v hscalar =>
    rw [leaves_of_isScalar hscalar]
    exact List.pairwise_singleton _ _
  | arr items => exact List.pairwise_singleton _ _
  | obj members ih =>
    rw [ordered_obj] at h
    by_cases hempty : members = []
    · rw [hempty]
      exact List.pairwise_singleton _ _
    · rw [leaves_obj hempty]
      exact pairwise_apart_memberLeaves_of h.1 fun m hm => ih m hm (h.2 m hm)

/-- The path to a leaf does not run through another leaf. -/
theorem pairwise_apart_memberLeaves {d : Dict Json} (h : (obj d).Ordered) :
    (memberLeaves d).Pairwise fun leaf other => Apart leaf.1 other.1 :=
  pairwise_apart_memberLeaves_of (ordered_obj.1 h).1
    fun m hm => pairwise_apart_leaves ((ordered_obj.1 h).2 m hm)

/-! ## An object is determined by its leaves -/

/-- The leaf without its first step, if that is `key`. -/
def within? (key : String) (leaf : List String × Json) : Option (List String × Json) :=
  match leaf.1 with
  | [] => none
  | step :: rest => if step = key then some (rest, leaf.2) else none

theorem within?_under (key other : String) (leaf : List String × Json) :
    within? key (under [other] leaf) = if other = key then some leaf else none := rfl

/-- The leaves beneath a key are those of its value. -/
theorem filterMap_within? {d : Dict Json} (h : Dict.Ascending d) (key : String) :
    (memberLeaves d).filterMap (within? key) = ((d.find? key).map leaves).getD [] := by
  induction d with
  | nil => rfl
  | cons m d ih =>
    obtain ⟨hfirst, hd⟩ := Dict.ascending_cons.1 h
    rw [memberLeaves_cons, List.filterMap_append, List.filterMap_map, ih hd, Dict.find?_cons]
    by_cases hkey : m.1 = key
    · have hnone : Dict.find? d key = none := by
        rw [Dict.find?_eq_none_iff, ← hkey]
        exact fun other hother => (String.ne_of_lt (hfirst other hother)).symm
      have hall : within? key ∘ under [m.1] = some :=
        funext fun leaf => (within?_under key m.1 leaf).trans (if_pos hkey)
      rw [hnone, if_pos hkey, hall, List.filterMap_some]
      exact List.append_nil _
    · have hnone : within? key ∘ under [m.1] = fun _ => none :=
        funext fun leaf => (within?_under key m.1 leaf).trans (if_neg hkey)
      rw [if_neg hkey, hnone, List.filterMap_none, List.nil_append]

/-- Objects with the same leaves are equal if each value of the first is determined by its leaves. -/
theorem eq_of_memberLeaves_perm_of {d e : Dict Json} (hd : Dict.Ascending d)
    (he : (obj e).Ordered) (h : (memberLeaves d).Perm (memberLeaves e))
    (hvalues : ∀ m ∈ d, ∀ w : Json, w.Ordered → (leaves m.2).Perm (leaves w) → m.2 = w) : d = e := by
  have hasc := (ordered_obj.1 he).1
  refine hd.ext hasc fun key => ?_
  have hbeneath := h.filterMap (within? key)
  rw [filterMap_within? hd, filterMap_within? hasc] at hbeneath
  cases hv : d.find? key with
  | none =>
    cases hw : e.find? key with
    | none => rfl
    | some w =>
      rw [hv, hw] at hbeneath
      exact absurd (List.nil_perm.1 hbeneath) (leaves_ne_nil w)
  | some v =>
    cases hw : e.find? key with
    | none =>
      rw [hv, hw] at hbeneath
      exact absurd (List.perm_nil.1 hbeneath) (leaves_ne_nil v)
    | some w =>
      rw [hv, hw] at hbeneath
      exact congrArg some
        (hvalues _ (Dict.mem_of_find?_eq_some hv) w (ordered_of_find? he hw) hbeneath)

/-- The leaves of an object all have a path, so they are not those of a value that ends it. -/
theorem not_leaves_obj_perm {members : List (String × Json)} (h : members ≠ []) (v : Json) :
    ¬(leaves (obj members)).Perm [([], v)] := by
  intro hperm
  rw [leaves_obj h] at hperm
  exact ne_nil_of_mem_memberLeaves _ (hperm.mem_iff.2 (List.mem_singleton_self _)) rfl

theorem eq_of_leaves_perm_of_end {v w : Json} (hv : leaves v = [([], v)])
    (h : (leaves v).Perm (leaves w)) : v = w := by
  rcases leaves_cases w with hw | ⟨members, hne, rfl⟩
  · rw [hv, hw] at h
    exact congrArg Prod.snd (List.mem_singleton.1 (h.mem_iff.1 (List.mem_singleton_self _)))
  · rw [hv] at h
    exact absurd h.symm (not_leaves_obj_perm hne v)

theorem eq_of_leaves_perm {v w : Json} (hv : v.Ordered) (hw : w.Ordered)
    (h : (leaves v).Perm (leaves w)) : v = w := by
  induction v using inductionOn generalizing w with
  | scalar v hscalar => exact eq_of_leaves_perm_of_end (leaves_of_isScalar hscalar) h
  | arr items => exact eq_of_leaves_perm_of_end rfl h
  | obj members ih =>
    rcases leaves_cases (obj members) with hend | ⟨_, hne, heq⟩
    · exact eq_of_leaves_perm_of_end hend h
    · obtain rfl := obj.inj heq
      rcases leaves_cases w with hend | ⟨others, hothers, rfl⟩
      · rw [hend] at h
        exact absurd h (not_leaves_obj_perm hne w)
      · rw [leaves_obj hne, leaves_obj hothers] at h
        rw [ordered_obj] at hv
        congr 1
        exact eq_of_memberLeaves_perm_of hv.1 hw h fun m hm w hw => ih m hm (hv.2 m hm) hw

theorem eq_of_memberLeaves_perm {d e : Dict Json} (hd : (obj d).Ordered) (he : (obj e).Ordered)
    (h : (memberLeaves d).Perm (memberLeaves e)) : d = e :=
  eq_of_memberLeaves_perm_of (ordered_obj.1 hd).1 he h
    fun m hm _ hw => eq_of_leaves_perm ((ordered_obj.1 hd).2 m hm) hw

/-! ## Leaves that find room -/

/-- An entry as a leaf, at the path that its key spells. -/
def spelled (entry : String × Json) : List String × Json :=
  (Text.splitOn entry.1 '.', entry.2)

/-- Entries whose paths do not run through one another all become leaves. -/
theorem leaves_placeAll_of_apart {entries : List (String × Json)} (hasc : Dict.Ascending entries)
    (hordered : ∀ entry ∈ entries, entry.2.Ordered)
    (hends : ∀ entry ∈ entries, leaves entry.2 = [([], entry.2)])
    (hapart : entries.Pairwise fun entry other => Apart (spelled entry).1 (spelled other).1) :
    (memberLeaves (placeAll entries)).Perm (entries.map spelled) := by
  refine placeAll_induction (motive := fun former d =>
    (memberLeaves d).Perm (former.map spelled)) hasc hordered (List.Perm.refl _) ?_
  intro former entry d hbegins hd hnew ih
  have hroom : ∀ leaf ∈ memberLeaves d, Apart leaf.1 (spelled entry).1 := by
    intro leaf hleaf
    obtain ⟨other, hother, rfl⟩ := List.mem_map.1 (ih.mem_iff.1 hleaf)
    exact rel_of_append_prefix hapart hbegins other hother
  obtain ⟨placed, hplaced⟩ := exists_place entry.2 (splitOn_ne_nil entry.1) hroom
  have hlater := (adds_place hd hplaced).perm fun leaf hleaf _ => (hroom leaf hleaf).1
  rw [hends entry (hbegins.subset (by simp)), List.map_singleton, List.singleton_append, under,
    List.append_nil] at hlater
  rw [placeEntry_of_place hd hplaced, List.map_append, List.map_singleton]
  exact hlater.trans ((ih.cons (spelled entry)).trans (List.perm_append_singleton _ _).symm)

/-! ## Recovery -/

theorem spelled_dotted {leaf : List String × Json} (hne : leaf.1 ≠ [])
    (hsteps : ∀ step ∈ leaf.1, '.' ∉ step.toList) : spelled (dotted leaf.1, leaf.2) = leaf := by
  rw [spelled, splitOn_dotted hne hsteps]

theorem Apart.symm {path other : List String} (h : Apart path other) : Apart other path :=
  ⟨h.2, h.1⟩

section Flat

variable {members : Dict Json} (hordered : (obj members).Ordered) (hfree : (obj members).DotFree)
include hfree

theorem map_spelled_memberLeaves :
    ((memberLeaves members).map fun leaf => spelled (dotted leaf.1, leaf.2)) =
      memberLeaves members := by
  refine (List.map_congr_left fun leaf hleaf => ?_).trans (List.map_id _)
  exact spelled_dotted (ne_nil_of_mem_memberLeaves leaf hleaf)
    (forall_mem_memberLeaves (notMem_of_mem_leaves hfree) leaf hleaf)

include hordered

theorem nodup_dotted_memberLeaves :
    ((memberLeaves members).map fun leaf => dotted leaf.1).Nodup := by
  have hpaths : ((memberLeaves members).map Prod.fst).Nodup := by
    refine List.pairwise_map.2 ((pairwise_apart_memberLeaves hordered).imp ?_)
    intro leaf other hapart heq
    exact hapart.1 (heq ▸ List.prefix_rfl)
  have hsplit := congrArg (List.map Prod.fst) (map_spelled_memberLeaves hfree)
  rw [List.map_map] at hsplit
  apply List.Nodup.of_map fun key => Text.splitOn key '.'
  rw [List.map_map]
  exact hsplit ▸ hpaths

/-- The flat form has every leaf under its dotted path. -/
theorem flatten_perm : (flatten (obj members)).Perm
    ((memberLeaves members).map fun leaf => (dotted leaf.1, leaf.2)) := by
  rw [flatten_obj]
  apply Dict.ofList_perm
  rw [List.map_map]
  exact nodup_dotted_memberLeaves hordered hfree

theorem map_spelled_flatten_perm :
    ((flatten (obj members)).map spelled).Perm (memberLeaves members) := by
  have hperm := (flatten_perm hordered hfree).map spelled
  rw [List.map_map] at hperm
  exact hperm.trans (List.Perm.of_eq (map_spelled_memberLeaves hfree))

end Flat

/-- An object without dots in its keys is the hierarchy of its flat form. -/
theorem nest_flatten {members : Dict Json} (hordered : (obj members).Ordered)
    (hfree : (obj members).DotFree) : nest (flatten (obj members)) = members := by
  have hspelled := map_spelled_flatten_perm hordered hfree
  have hobjects : ∀ entry ∈ flatten (obj members),
      ∀ d ∈ entry.2.objects, d ∈ (obj members).objects := by
    intro entry hentry
    obtain ⟨leaf, hleaf, -, hvalue⟩ := mem_flatten_obj hentry
    rw [← hvalue]
    exact forall_mem_memberLeaves (objects_subset_of_mem_leaves _) leaf hleaf
  have hends : ∀ entry ∈ flatten (obj members), leaves entry.2 = [([], entry.2)] := by
    intro entry hentry
    obtain ⟨leaf, hleaf, -, hvalue⟩ := mem_flatten_obj hentry
    rw [← hvalue]
    exact forall_mem_memberLeaves (leaves_of_mem_leaves _) leaf hleaf
  have hvalues : ∀ entry ∈ flatten (obj members), entry.2.Ordered := by
    intro entry hentry
    rw [ordered_iff] at hordered ⊢
    exact fun d hd => hordered d (hobjects entry hentry d hd)
  have hflat : ∀ entry ∈ flatten (obj members), entry.2.DotFree :=
    fun entry hentry d hd => hfree d (hobjects entry hentry d hd)
  have hapart : (flatten (obj members)).Pairwise
      fun entry other => Apart (spelled entry).1 (spelled other).1 := by
    rw [← List.pairwise_map (f := spelled) (R := fun leaf other => Apart leaf.1 other.1)]
    exact (hspelled.pairwise_iff fun h => Apart.symm h).2 (pairwise_apart_memberLeaves hordered)
  rw [nest, nestMembers_of_dotFree hvalues hflat]
  exact eq_of_memberLeaves_perm (ordered_placeAll hvalues) hordered
    ((leaves_placeAll_of_apart (Dict.ascending_ofList _) hvalues hends hapart).trans hspelled)

/-- The dot comes after the dash, so the flat form has another order. -/
def dashedKeys : Dict Json :=
  [("", .obj [("", .null)]), ("a", .obj [("b", .obj []), ("c", .arr [.obj []])]), ("a-", .bool true)]

theorem nest_flatten_dashedKeys :
    (obj dashedKeys).Ordered ∧ (obj dashedKeys).DotFree ∧
      flatten (obj dashedKeys) =
        [(".", .null), ("a-", .bool true), ("a.b", .obj []), ("a.c", .arr [.obj []])] ∧
      nest (flatten (obj dashedKeys)) = dashedKeys := by
  have hordered : (obj dashedKeys).Ordered := by decide
  have hfree : (obj dashedKeys).DotFree := by decide
  exact ⟨hordered, hfree, rfl, nest_flatten hordered hfree⟩

end FlatQuery.Json
