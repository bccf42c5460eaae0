import FlatQuery.Proofs.Placing
import Mathlib.Data.List.Induction
import Mathlib.Data.List.Perm.Basic

/-!
# The hierarchy of a dictionary

Keys are taken in ascending order, so a key is never there before its turn (`not_contains_placeAll`):
whatever begins with it comes later. Therefore no value is dropped or written over, and the hierarchy
holds the scalars of the dictionary (`scalars_nest_perm`). Where no value is an object, the flat form
of the hierarchy is the dictionary (`flatten_nest`), although some keys stay whole.
-/

namespace FlatQuery.Json

/-! ## Keys in ascending order -/

/-- A new key at the top is the key of the entry or begins it. -/
theorem contains_placeEntry {d : Dict Json} {entry : String × Json} {key : String}
    (h : (placeEntry d entry).contains key = true) :
    d.contains key = true ∨ key.toList <+: entry.1.toList := by
  have hput : (putAt entry.2 (Text.splitOn entry.1 '.') d).1.contains key = true →
      d.contains key = true ∨ key.toList <+: entry.1.toList := by
    obtain ⟨head, rest, hsteps, hbegins⟩ := Text.exists_splitOn_eq entry.1 '.'
    rw [hsteps]
    intro hthere
    rcases contains_putAt hthere with rfl | hthere
    · exact Or.inr hbegins
    · exact Or.inl hthere
  unfold placeEntry at h
  split at h
  · rename_i placed hplaced
    rw [hplaced] at hput
    exact hput h
  · rename_i left value hleft
    rw [hleft] at hput
    split at h
    · rcases (Dict.contains_insert _ _ _ _).1 h with rfl | h
      · exact Or.inr List.prefix_rfl
      · exact hput h
    · exact hput h

theorem contains_foldl_placeEntry {entries : List (String × Json)} {d : Dict Json} {key : String}
    (h : (entries.foldl placeEntry d).contains key = true) :
    d.contains key = true ∨ ∃ entry ∈ entries, key.toList <+: entry.1.toList := by
  induction entries generalizing d with
  | nil => exact Or.inl h
  | cons entry entries ih =>
    rcases ih h with h | ⟨later, hlater, hbegins⟩
    · exact (contains_placeEntry h).imp id fun hbegins => ⟨entry, List.mem_cons_self, hbegins⟩
    · exact Or.inr ⟨later, List.mem_cons_of_mem _ hlater, hbegins⟩

/-- When its turn comes a key is not there. -/
theorem not_contains_placeAll {entries : List (String × Json)} {entry : String × Json}
    (h : ∀ former ∈ entries, former.1 < entry.1) : (placeAll entries).contains entry.1 = false := by
  rw [← Bool.not_eq_true]
  intro hthere
  rcases contains_foldl_placeEntry hthere with hnone | ⟨former, hformer, hbegins⟩
  · cases hnone
  · exact not_lt_of_prefix hbegins (h former hformer)

/-! ## One entry -/

/-- The entry has no place at the end of its path and, without a dot, none at the top either. -/
def Loses (d : Dict Json) (entry : String × Json) : Prop :=
  place entry.2 (Text.splitOn entry.1 '.') d = none ∧ '.' ∉ entry.1.toList

theorem not_loses {d : Dict Json} {entry : String × Json} (h : d.contains entry.1 = false) :
    ¬Loses d entry := by
  rintro ⟨hnone, hdot⟩
  rw [Text.splitOn_of_notMem hdot, place, h] at hnone
  cases hnone

theorem placeEntry_eq {d : Dict Json} (hd : (obj d).Ordered) (entry : String × Json) :
    placeEntry d entry = match place entry.2 (Text.splitOn entry.1 '.') d with
      | some placed => placed
      | none => if entry.1.toList.contains '.' then d.insert entry.1 entry.2 else d := by
  rw [placeEntry, putAt_eq entry.2 _ hd]
  cases place entry.2 (Text.splitOn entry.1 '.') d <;> rfl

/-- An entry under a new key goes to the end of its path or stays whole. -/
theorem placeEntry_cases {d : Dict Json} (hd : (obj d).Ordered) {entry : String × Json}
    (h : d.contains entry.1 = false) :
    place entry.2 (Text.splitOn entry.1 '.') d = some (placeEntry d entry) ∨
      placeEntry d entry = d.insert entry.1 entry.2 := by
  rw [placeEntry_eq hd]
  cases hplaced : place entry.2 (Text.splitOn entry.1 '.') d with
  | some placed => exact Or.inl rfl
  | none =>
    have hdot : '.' ∈ entry.1.toList := by
      by_contra hdot
      exact not_loses h ⟨hplaced, hdot⟩
    right
    show (if entry.1.toList.contains '.' then d.insert entry.1 entry.2 else d) = _
    rw [if_pos (List.contains_iff_mem.2 hdot)]

theorem ordered_placeEntry {d : Dict Json} (hd : (obj d).Ordered) {entry : String × Json}
    (hentry : entry.2.Ordered) : (obj (placeEntry d entry)).Ordered := by
  rw [placeEntry_eq hd]
  split
  · rename_i placed hplaced
    exact ordered_place hentry hd hplaced
  · split
    · exact ordered_insert hd hentry entry.1
    · exact hd

theorem ordered_placeAll {entries : List (String × Json)} (h : ∀ entry ∈ entries, entry.2.Ordered) :
    (obj (placeAll entries)).Ordered := by
  induction entries using List.reverseRecOn with
  | nil => exact ordered_empty
  | append_singleton entries entry ih =>
    rw [List.forall_mem_append, List.forall_mem_singleton] at h
    rw [placeAll, List.foldl_append]
    exact ordered_placeEntry (ih h.1) h.2

/-- The leaves of an entry are added under its key, as a path of one step or of several. -/
theorem adds_placeEntry {d : Dict Json} (hd : (obj d).Ordered) {entry : String × Json}
    (h : d.contains entry.1 = false) :
    ∃ path, dotted path = entry.1 ∧
      Adds path entry.2 (memberLeaves d) (memberLeaves (placeEntry d entry)) := by
  rcases placeEntry_cases hd h with hplaced | hwhole
  · exact ⟨_, dotted_splitOn entry.1, adds_place hd hplaced⟩
  · refine ⟨[entry.1], dotted_singleton entry.1, ?_⟩
    rw [hwhole]
    exact adds_insert h entry.2

/-- What relates any two elements in turn relates an element to those before it. -/
theorem rel_of_append_prefix {α : Type} {R : α → α → Prop} {xs former : List α} {x : α}
    (h : xs.Pairwise R) (hbegins : former ++ [x] <+: xs) : ∀ y ∈ former, R y x := by
  have hformer := h.sublist hbegins.sublist
  rw [List.pairwise_append] at hformer
  exact fun y hy => hformer.2.2 y hy x (List.mem_singleton_self x)

/-- What holds without entries, and is kept by each entry in its turn, holds of the hierarchy of
entries in order. -/
theorem placeAll_induction {motive : List (String × Json) → Dict Json → Prop}
    {entries : List (String × Json)} (hasc : Dict.Ascending entries)
    (hordered : ∀ entry ∈ entries, entry.2.Ordered) (empty : motive [] [])
    (step : ∀ former entry (d : Dict Json), former ++ [entry] <+: entries → (obj d).Ordered →
      d.contains entry.1 = false → motive former d →
        motive (former ++ [entry]) (placeEntry d entry)) :
    motive entries (placeAll entries) := by
  suffices h : ∀ former, former <+: entries → motive former (placeAll former) from
    h entries List.prefix_rfl
  intro former
  induction former using List.reverseRecOn with
  | nil => exact fun _ => empty
  | append_singleton former entry ih =>
    intro hbegins
    have hnew : ∀ other ∈ former, other.1 < entry.1 := rel_of_append_prefix hasc hbegins
    have hbefore : former <+: entries := (List.prefix_append _ _).trans hbegins
    rw [placeAll, List.foldl_append]
    exact step former entry _ hbegins
      (ordered_placeAll fun other hother => hordered other (hbefore.subset hother))
      (not_contains_placeAll hnew) (ih hbefore)

/-! ### Keys without dots -/

theorem placeEntry_of_place {d placed : Dict Json} (hd : (obj d).Ordered) {entry : String × Json}
    (h : place entry.2 (Text.splitOn entry.1 '.') d = some placed) : placeEntry d entry = placed := by
  rw [placeEntry_eq hd, h]

/-- Entries without dots in their keys are the members of the hierarchy. -/
theorem placeAll_of_notMem {entries : List (String × Json)} (hasc : Dict.Ascending entries)
    (hordered : ∀ entry ∈ entries, entry.2.Ordered)
    (hkeys : ∀ entry ∈ entries, '.' ∉ entry.1.toList) : placeAll entries = entries := by
  refine placeAll_induction (motive := fun former d => d = former) hasc hordered rfl ?_
  rintro former entry d hbegins hd hnew rfl
  have hdot : '.' ∉ entry.1.toList := hkeys entry (hbegins.subset (by simp))
  have hlast : ∀ other ∈ d, other.1 < entry.1 := rel_of_append_prefix hasc hbegins
  apply placeEntry_of_place hd
  rw [Text.splitOn_of_notMem hdot, place, hnew, Dict.insert_of_forall_lt hlast]
  rfl

theorem nestMembers_of_fixed {members : List (String × Json)}
    (h : ∀ m ∈ members, nestValue m.2 = m.2) : nestMembers members = members := by
  rw [nestMembers_eq_map]
  refine (List.map_congr_left fun m hm => ?_).trans (List.map_id _)
  rw [h m hm]
  rfl

/-- Where there are no dots there is nothing to nest. -/
theorem nestValue_of_dotFree {v : Json} (hv : v.Ordered) (hfree : v.DotFree) :
    nestValue v = v := by
  induction v using inductionOn with
  | scalar v hscalar => exact nestValue_of_isScalar hscalar
  | arr items ih =>
    rw [ordered_arr] at hv
    rw [dotFree_arr] at hfree
    have hitems : items.map nestValue = items.map id :=
      List.map_congr_left fun v hmem => ih v hmem (hv v hmem) (hfree v hmem)
    rw [nestValue_arr, hitems, List.map_id]
  | obj members ih =>
    rw [ordered_obj] at hv
    rw [dotFree_obj] at hfree
    have hmembers : nestMembers members = members :=
      nestMembers_of_fixed fun m hm => ih m hm (hv.2 m hm) (hfree.2 m hm)
    rw [nestValue_obj, nest, hmembers, placeAll_of_notMem hv.1 hv.2 hfree.1]

theorem nestMembers_of_dotFree {members : List (String × Json)}
    (hv : ∀ m ∈ members, m.2.Ordered) (hfree : ∀ m ∈ members, m.2.DotFree) :
    nestMembers members = members :=
  nestMembers_of_fixed fun m hm => nestValue_of_dotFree (hv m hm) (hfree m hm)

/-! ## Scalars -/

/-- The scalars of a value are those of its leaves. -/
theorem flatMap_scalars_leaves (v : Json) :
    (leaves v).flatMap (fun leaf => leaf.2.scalars) = v.scalars := by
  induction v using inductionOn with
  | scalar v h =>
    rw [leaves_of_isScalar h, List.flatMap_singleton]
  | arr items => rw [leaves, List.flatMap_singleton]
  | obj members ih =>
    cases members with
    | nil => rfl
    | cons m members =>
      rw [leaves_obj (List.cons_ne_nil _ _), memberLeaves_eq_flatMap, List.flatMap_assoc,
        scalars_obj]
      refine List.flatMap_congr fun m hm => ?_
      rw [List.flatMap_map]
      exact ih m hm

theorem flatMap_scalars_memberLeaves (d : Dict Json) :
    (memberLeaves d).flatMap (fun leaf => leaf.2.scalars) = (obj d).scalars := by
  cases d with
  | nil => rfl
  | cons m d => rw [← leaves_obj (List.cons_ne_nil _ _), flatMap_scalars_leaves]

/-- Filled objects had no scalars, so the scalars of the value are added. -/
theorem Adds.scalars_perm {path : List String} {value : Json} {d placed : Dict Json}
    (h : Adds path value (memberLeaves d) (memberLeaves placed)) :
    (obj placed).scalars.Perm ((obj d).scalars ++ value.scalars) := by
  obtain ⟨hollow, kept, hformer, hlater, hhollow⟩ := h
  have hnone : hollow.flatMap (fun leaf => leaf.2.scalars) = [] := by
    refine List.flatMap_eq_nil_iff.2 fun leaf hleaf => ?_
    rw [(hhollow leaf hleaf).1]
    rfl
  have hd := hformer.flatMap_right fun leaf => leaf.2.scalars
  have hplaced := hlater.flatMap_right fun leaf => leaf.2.scalars
  rw [List.flatMap_append, flatMap_scalars_memberLeaves] at hd hplaced
  rw [hnone, List.nil_append] at hd
  have hvalue : ((leaves value).map (under path)).flatMap (fun leaf => leaf.2.scalars) =
      value.scalars := by
    rw [List.flatMap_map]
    exact flatMap_scalars_leaves value
  rw [hvalue] at hplaced
  calc (obj placed).scalars.Perm
        (value.scalars ++ kept.flatMap fun leaf => leaf.2.scalars) := hplaced
    List.Perm _ ((kept.flatMap fun leaf => leaf.2.scalars) ++ value.scalars) :=
        List.perm_append_comm
    List.Perm _ ((obj d).scalars ++ value.scalars) := hd.symm.append_right _

theorem scalars_placeAll {entries : List (String × Json)} (hasc : Dict.Ascending entries)
    (hordered : ∀ entry ∈ entries, entry.2.Ordered) :
    (obj (placeAll entries)).scalars.Perm (obj entries).scalars := by
  rw [scalars_obj entries]
  refine placeAll_induction (motive := fun former d =>
    (obj d).scalars.Perm (former.flatMap fun entry => entry.2.scalars)) hasc hordered
    (List.Perm.refl _) fun former entry d _ hd hnew ih => ?_
  obtain ⟨path, -, hadds⟩ := adds_placeEntry hd hnew
  rw [List.flatMap_append, List.flatMap_singleton]
  exact hadds.scalars_perm.trans (ih.append_right _)

theorem ordered_nestValue (v : Json) : (nestValue v).Ordered := by
  induction v using inductionOn with
  | scalar v hscalar =>
    rw [nestValue_of_isScalar hscalar, ordered_iff, objects_of_isScalar hscalar]
    simp
  | arr items ih =>
    rw [nestValue_arr, ordered_arr, List.forall_mem_map]
    exact ih
  | obj members ih =>
    rw [nestValue_obj, nest]
    apply ordered_placeAll
    rw [nestMembers_eq_map, List.forall_mem_map]
    exact ih

theorem ordered_nestMembers (members : List (String × Json)) :
    ∀ entry ∈ nestMembers members, entry.2.Ordered := by
  rw [nestMembers_eq_map, List.forall_mem_map]
  exact fun m _ => ordered_nestValue m.2

/-- Nesting the objects in a value keeps the scalars. -/
theorem scalars_nestValue_perm {v : Json} (h : v.Ordered) :
    (nestValue v).scalars.Perm v.scalars := by
  induction v using inductionOn with
  | scalar v hscalar => rw [nestValue_of_isScalar hscalar]
  | arr items ih =>
    rw [ordered_arr] at h
    rw [nestValue_arr, scalars_arr, scalars_arr, List.flatMap_map]
    exact List.Perm.flatMap_left items fun v hv => ih v hv (h v hv)
  | obj members ih =>
    rw [ordered_obj] at h
    have hmembers : (obj (nestMembers members)).scalars.Perm (obj members).scalars := by
      rw [scalars_obj, scalars_obj, nestMembers_eq_map, List.flatMap_map]
      exact List.Perm.flatMap_left members fun m hm => ih m hm (h.2 m hm)
    rw [nestValue_obj, nest]
    exact (scalars_placeAll (ascending_nestMembers h.1) (ordered_nestMembers members)).trans
      hmembers

/-- The hierarchy of a dictionary holds its scalars, each as often as it does, and at no depth is an
entry left out. -/
theorem scalars_nest_perm {flat : Dict Json} (h : (obj flat).Ordered) :
    (obj (nest flat)).scalars.Perm (obj flat).scalars ∧
      ∀ d ∈ (obj flat).objects, ∀ former entry later,
        nestMembers d = former ++ entry :: later → ¬Loses (placeAll former) entry := by
  constructor
  · rw [← nestValue_obj]
    exact scalars_nestValue_perm h
  · intro d hd former entry later hsplit
    have hasc := ascending_nestMembers (ordered_iff.1 h d hd)
    have hbegins : former ++ [entry] <+: nestMembers d :=
      ⟨later, (List.append_cons former entry later).symm.trans hsplit.symm⟩
    apply not_loses
    apply not_contains_placeAll
    exact rel_of_append_prefix hasc hbegins

/-- Entries whose paths run into values that are there, at the top and further down. -/
def crowdedKeys : Dict Json :=
  [("a", .obj [("b", .bool true), ("b.c", .null)]), ("a.b", .str "x"),
    ("a.d", .arr [.obj [("e.f", .bool false)]])]

theorem scalars_nest_crowdedKeys :
    (obj crowdedKeys).Ordered ∧
      nest crowdedKeys = [("a", .obj [("b", .bool true), ("b.c", .null),
        ("d", .arr [.obj [("e", .obj [("f", .bool false)])]])]), ("a.b", .str "x")] ∧
      (obj (nest crowdedKeys)).scalars.Perm [.bool true, .null, .str "x", .bool false] := by
  have hordered : (obj crowdedKeys).Ordered := by decide
  exact ⟨hordered, rfl, (scalars_nest_perm hordered).1⟩

/-! ## The flat form of a hierarchy -/

/-- Without objects among the values, the leaves are the entries under the paths that they spell. -/
theorem leaves_placeAll {entries : List (String × Json)} (hasc : Dict.Ascending entries)
    (hordered : ∀ entry ∈ entries, entry.2.Ordered)
    (hvalues : ∀ entry ∈ entries, ∀ members, entry.2 ≠ obj members) :
    ((memberLeaves (placeAll entries)).map fun leaf => (dotted leaf.1, leaf.2)).Perm entries := by
  suffices h : ((memberLeaves (placeAll entries)).map fun leaf => (dotted leaf.1, leaf.2)).Perm
      entries ∧ ∀ leaf ∈ memberLeaves (placeAll entries), leaf.2 ≠ obj [] from h.1
  refine placeAll_induction (motive := fun former d =>
    ((memberLeaves d).map fun leaf => (dotted leaf.1, leaf.2)).Perm former ∧
      ∀ leaf ∈ memberLeaves d, leaf.2 ≠ obj []) hasc hordered ⟨List.Perm.refl _, by simp [memberLeaves]⟩
    fun former entry d hbegins hd hnew ih => ?_
  have hentry : entry ∈ entries := hbegins.subset (by simp)
  obtain ⟨path, hpath, hadds⟩ := adds_placeEntry hd hnew
  have hlater := hadds.perm fun leaf hleaf hempty => absurd hempty (ih.2 leaf hleaf)
  rw [leaves_of_not_obj (hvalues entry hentry), List.map_singleton, List.singleton_append] at hlater
  constructor
  · refine (hlater.map _).trans ?_
    rw [List.map_cons, under, List.append_nil, hpath]
    exact (ih.1.cons entry).trans (List.perm_append_singleton entry former).symm
  · intro leaf hleaf
    rcases List.mem_cons.1 (hlater.mem_iff.1 hleaf) with rfl | hleaf
    · exact hvalues entry hentry []
    · exact ih.2 leaf hleaf

/-- Flattening undoes nesting where there are no objects among the values, whatever the keys. -/
theorem flatten_nest {flat : Dict Json} (hasc : Dict.Ascending flat)
    (hvalues : ∀ entry ∈ flat, entry.2.objects = []) : flatten (obj (nest flat)) = flat := by
  have hordered : ∀ entry ∈ flat, entry.2.Ordered := by
    intro entry hentry
    rw [ordered_iff, hvalues entry hentry]
    simp
  have hfree : ∀ entry ∈ flat, entry.2.DotFree := by
    intro entry hentry
    rw [DotFree, hvalues entry hentry]
    simp
  have hobj : ∀ entry ∈ flat, ∀ members, entry.2 ≠ obj members := by
    intro entry hentry members heq
    have hnone := hvalues entry hentry
    rw [heq, objects_obj] at hnone
    cases hnone
  rw [nest, nestMembers_of_dotFree hordered hfree, flatten_obj]
  exact hasc.ofList_eq (leaves_placeAll hasc hordered hobj)

/-- Keys with empty steps, and keys that begin others. -/
def stackedKeys : Dict Json :=
  [("", .null), (".x", .bool true), ("a", .arr [.null]), ("a.b", .str "c"), ("b..c", .null),
    ("b..c.", .bool false)]

theorem flatten_nest_stackedKeys :
    Dict.Ascending stackedKeys ∧ (∀ entry ∈ stackedKeys, entry.2.objects = []) ∧
      nest stackedKeys = [("", .null), (".x", .bool true), ("a", .arr [.null]), ("a.b", .str "c"),
        ("b", .obj [("", .obj [("c", .null)])]), ("b..c.", .bool false)] ∧
      flatten (obj (nest stackedKeys)) = stackedKeys := by
  have hasc : Dict.Ascending stackedKeys := by decide
  have hvalues : ∀ entry ∈ stackedKeys, entry.2.objects = [] := by decide
  exact ⟨hasc, hvalues, rfl, flatten_nest hasc hvalues⟩

end FlatQuery.Json
