import FlatQuery.Proofs.Lookup
import FlatQuery.Query.Clause.Wire
import Mathlib.Data.Option.Basic
import Mathlib.Tactic.ByContra

/-!
# What a written clause says

Each part of a clause is found again in its JSON, under a key of its own, although names of fields
are keys as well. So clauses that are written alike are equal (`toJson_eq_iff`), down to whether a
slot was given one clause or a list of one, how a predicate is read, and how many subdocuments come
back. Two things are lost, and `isLegible` leaves them out: an empty list in a slot is not written,
and where the field of a distance is itself named `distance`, the point is written in its place.
-/

namespace FlatQuery

/-! ## Parts of a clause -/

theorem Json.single_inj {k l : String} {x y : Json} :
    Json.single k x = Json.single l y ↔ k = l ∧ x = y := by
  simp [Json.single]

theorem Json.ofDouble_inj {a b : Double} : Json.ofDouble a = Json.ofDouble b ↔ a = b := by
  simp [Json.ofDouble]

theorem Json.ofNat_inj {m n : Nat} : Json.ofNat m = Json.ofNat n ↔ m = n := by
  simp only [Json.ofNat, Json.num.injEq, Number.int.injEq, Int.ofNat_inj]

theorem GeoPoint.toJson_inj {p q : GeoPoint} : p.toJson = q.toJson ↔ p = q := by
  obtain ⟨lat, lon⟩ := p
  obtain ⟨lat', lon'⟩ := q
  simp [GeoPoint.toJson, Json.ofDouble_inj]

namespace Interval

theorem get?_gte_toJson (i : Interval) : i.toJson.get? "gte" = i.least.map .num := by
  obtain ⟨least, greatest⟩ := i
  cases least <;> cases greatest <;> rfl

theorem get?_lte_toJson (i : Interval) : i.toJson.get? "lte" = i.greatest.map .num := by
  obtain ⟨least, greatest⟩ := i
  cases least <;> cases greatest <;> rfl

theorem toJson_inj {i j : Interval} : i.toJson = j.toJson ↔ i = j := by
  constructor
  · intro h
    have hnum : Function.Injective Json.num := fun _ _ => Json.num.inj
    have hleast := i.get?_gte_toJson
    have hgreatest := i.get?_lte_toJson
    rw [h, j.get?_gte_toJson] at hleast
    rw [h, j.get?_lte_toJson] at hgreatest
    obtain ⟨least, greatest⟩ := i
    obtain rfl := Option.map_injective hnum hleast
    obtain rfl := Option.map_injective hnum hgreatest
    rfl
  · rintro rfl
    rfl

end Interval

namespace Clause

/-! ## Kinds -/

/-- The key of the one member that is written, which tells the kind of the clause. -/
def word : Clause → String
  | matchAll => "match_all"
  | equals .. => "match"
  | oneOf .. => "terms"
  | inRange .. => "range"
  | any _ => "or"
  | wildcard .. => "wildcard"
  | common .. => "common"
  | near .. => "geo_distance"
  | nested .. => "nested"
  | bool .. => "bool"

theorem exists_toJson_eq (c : Clause) : ∃ body, c.toJson = .single c.word body := by
  cases c <;> exact ⟨_, rfl⟩

theorem word_eq_of_toJson_eq {a b : Clause} (h : a.toJson = b.toJson) : a.word = b.word := by
  obtain ⟨x, hx⟩ := a.exists_toJson_eq
  obtain ⟨y, hy⟩ := b.exists_toJson_eq
  rw [hx, hy] at h
  exact (Json.single_inj.1 h).1

/-- A clause is no list of clauses. -/
theorem toJson_ne_arr (c : Clause) (items : List Json) : c.toJson ≠ .arr items := by
  obtain ⟨body, hbody⟩ := c.exists_toJson_eq
  rw [hbody]
  simp [Json.single]

/-! ## Bodies -/

theorem onField_inj {kind field field' : String} {body body' : Json} :
    onField kind field body = onField kind field' body' ↔ field = field' ∧ body = body' := by
  simp [onField, Json.single_inj]

/-! ### Distances -/

section

variable {field : String} (h : field ≠ "distance") (distance : String) (point : GeoPoint)
include h

theorem get?_distance_nearBody :
    (nearBody field distance point).get? "distance" = some (.str distance) := by
  apply get?_ofMembers_of_agree
  · simp
  · simp [h.symm]

theorem get?_field_nearBody :
    (nearBody field distance point).get? field = some point.toJson := by
  apply get?_ofMembers_of_agree
  · simp
  · simp [h]

end

theorem get?_nearBody_of_ne {field key : String} (hdistance : key ≠ "distance")
    (hfield : key ≠ field) (distance : String) (point : GeoPoint) :
    (nearBody field distance point).get? key = none := by
  apply get?_ofMembers_of_notMem
  simp [hdistance.symm, hfield.symm]

theorem nearBody_inj {field field' distance distance' : String} {point point' : GeoPoint}
    (hfield : field ≠ "distance") (hfield' : field' ≠ "distance")
    (h : nearBody field distance point = nearBody field' distance' point') :
    field = field' ∧ distance = distance' ∧ point = point' := by
  have hsame : field = field' := by
    by_contra hne
    have hfound := get?_field_nearBody hfield distance point
    rw [h, get?_nearBody_of_ne hfield hne] at hfound
    cases hfound
  subst hsame
  have hdistance := get?_distance_nearBody hfield distance point
  have hpoint := get?_field_nearBody hfield distance point
  rw [h, get?_distance_nearBody hfield, Option.some.injEq, Json.str.injEq] at hdistance
  rw [h, get?_field_nearBody hfield, Option.some.injEq, GeoPoint.toJson_inj] at hpoint
  exact ⟨rfl, hdistance.symm, hpoint.symm⟩

/-! ### Nested clauses -/

section

variable (path : String) (context : Context) (predicate : Json) (size : Nat)

theorem get?_path_nestedBody :
    (nestedBody path context predicate size).get? "path" = some (.str path) := by
  apply get?_ofMembers_of_agree
  · simp
  · cases context <;> simp [Context.word]

theorem get?_innerHits_nestedBody :
    (nestedBody path context predicate size).get? "inner_hits" =
      some (.single "size" (.ofNat size)) := by
  apply get?_ofMembers_of_agree
  · simp
  · cases context <;> simp [Context.word]

theorem get?_word_nestedBody :
    (nestedBody path context predicate size).get? context.word = some predicate := by
  apply get?_ofMembers_of_agree
  · simp
  · cases context <;> simp [Context.word]

/-- There is one predicate, so its key tells how it is read. -/
theorem get?_nestedBody_of_ne {other : Context} (h : context ≠ other) :
    (nestedBody path context predicate size).get? other.word = none := by
  apply get?_ofMembers_of_notMem
  cases context <;> cases other <;> simp [Context.word] at h ⊢

end

theorem nestedBody_inj {path path' : String} {context context' : Context} {p p' : Json}
    {size size' : Nat} (h : nestedBody path context p size = nestedBody path' context' p' size') :
    path = path' ∧ context = context' ∧ p = p' ∧ size = size' := by
  have hsame : context = context' := by
    by_contra hne
    have hfound := get?_word_nestedBody path' context' p' size'
    rw [← h, get?_nestedBody_of_ne _ _ _ _ hne] at hfound
    cases hfound
  subst hsame
  have hpath := get?_path_nestedBody path context p size
  have hpredicate := get?_word_nestedBody path context p size
  have hsize := get?_innerHits_nestedBody path context p size
  rw [h, get?_path_nestedBody, Option.some.injEq, Json.str.injEq] at hpath
  rw [h, get?_word_nestedBody, Option.some.injEq] at hpredicate
  rw [h, get?_innerHits_nestedBody, Option.some.injEq, Json.single_inj, Json.ofNat_inj] at hsize
  exact ⟨hpath.symm, rfl, hpredicate.symm, hsize.2.symm⟩

/-! ### Slots -/

/-- What is written for a slot. -/
def slotJson? : Slot Clause → Option Json
  | .empty | .many [] => none
  | .one c => some c.toJson
  | .many (c :: cs) => some (.arr (listToJson (c :: cs)))

theorem slotMember_eq (key : String) (slot : Slot Clause) :
    slotMember key slot = (slotJson? slot).toList.map (key, ·) := by
  match slot with
  | .empty | .one _ | .many [] | .many (_ :: _) => rfl

/-- What is written for a boolean clause beneath its kind. -/
def boolBody (must filter mustNot : Slot Clause) : Json :=
  .obj (slotMember "filter" filter ++ slotMember "must" must ++ slotMember "must_not" mustNot)

/-- Each slot is written under its own key, whichever of the others are written. -/
theorem get?_boolBody (must filter mustNot : Slot Clause) :
    (boolBody must filter mustNot).get? "must" = slotJson? must ∧
      (boolBody must filter mustNot).get? "filter" = slotJson? filter ∧
      (boolBody must filter mustNot).get? "must_not" = slotJson? mustNot := by
  simp only [boolBody, slotMember_eq]
  cases slotJson? must <;> cases slotJson? filter <;> cases slotJson? mustNot <;>
    exact ⟨rfl, rfl, rfl⟩

theorem boolBody_inj {must must' filter filter' mustNot mustNot' : Slot Clause}
    (h : boolBody must filter mustNot = boolBody must' filter' mustNot') :
    slotJson? must = slotJson? must' ∧ slotJson? filter = slotJson? filter' ∧
      slotJson? mustNot = slotJson? mustNot' := by
  obtain ⟨hmust, hfilter, hmustNot⟩ := get?_boolBody must filter mustNot
  obtain ⟨hmust', hfilter', hmustNot'⟩ := get?_boolBody must' filter' mustNot'
  rw [h] at hmust hfilter hmustNot
  exact ⟨hmust.symm.trans hmust', hfilter.symm.trans hfilter', hmustNot.symm.trans hmustNot'⟩

/-! ## Legible clauses -/

mutual

/-- No slot of the tree is an empty list, and no distance is from a field named `distance`. -/
def isLegible : Clause → Bool
  | any clauses => listLegible clauses
  | near field _ _ => field != "distance"
  | nested _ _ predicate _ => predicate.isLegible
  | bool must filter mustNot => slotLegible must && slotLegible filter && slotLegible mustNot
  | matchAll | equals .. | oneOf .. | inRange .. | wildcard .. | common .. => true
termination_by structural c => c

def listLegible : List Clause → Bool
  | [] => true
  | c :: cs => c.isLegible && listLegible cs
termination_by structural cs => cs

def slotLegible : Slot Clause → Bool
  | .empty => true
  | .one c => c.isLegible
  | .many cs => !cs.isEmpty && listLegible cs
termination_by structural slot => slot

end

mutual

/-- The key tells the kinds apart, and for each kind its body gives the parts back. -/
theorem eq_of_toJson_eq : (a b : Clause) → a.isLegible = true → b.isLegible = true →
    a.toJson = b.toJson → a = b
  | matchAll, b, _, _, h => by
    have hword := word_eq_of_toJson_eq h
    cases b with
    | matchAll => rfl
    | _ => simp [word] at hword
  | equals field value, b, _, _, h => by
    have hword := word_eq_of_toJson_eq h
    cases b with
    | equals field' value' =>
      obtain ⟨rfl, rfl⟩ := onField_inj.1 h
      rfl
    | _ => simp [word] at hword
  | oneOf field values, b, _, _, h => by
    have hword := word_eq_of_toJson_eq h
    cases b with
    | oneOf field' values' =>
      obtain ⟨rfl, hvalues⟩ := onField_inj.1 h
      rw [Json.arr.inj hvalues]
    | _ => simp [word] at hword
  | inRange field interval, b, _, _, h => by
    have hword := word_eq_of_toJson_eq h
    cases b with
    | inRange field' interval' =>
      obtain ⟨rfl, hinterval⟩ := onField_inj.1 h
      rw [Interval.toJson_inj.1 hinterval]
    | _ => simp [word] at hword
  | any clauses, b, ha, hb, h => by
    have hword := word_eq_of_toJson_eq h
    cases b with
    | any clauses' =>
      rw [isLegible] at ha hb
      have hclauses := Json.arr.inj (Json.single_inj.1 h).2
      rw [eq_of_listToJson_eq clauses clauses' ha hb hclauses]
    | _ => simp [word] at hword
  | wildcard field pattern, b, _, _, h => by
    have hword := word_eq_of_toJson_eq h
    cases b with
    | wildcard field' pattern' =>
      obtain ⟨rfl, hpattern⟩ := onField_inj.1 h
      rw [Json.str.inj (Json.single_inj.1 hpattern).2]
    | _ => simp [word] at hword
  | common field query, b, _, _, h => by
    have hword := word_eq_of_toJson_eq h
    cases b with
    | common field' query' =>
      obtain ⟨rfl, hquery⟩ := onField_inj.1 h
      simp only [Json.obj.injEq, List.cons.injEq, Prod.mk.injEq, Json.str.injEq, true_and,
        and_true] at hquery
      rw [hquery]
    | _ => simp [word] at hword
  | near field distance point, b, ha, hb, h => by
    have hword := word_eq_of_toJson_eq h
    cases b with
    | near field' distance' point' =>
      rw [isLegible, bne_iff_ne] at ha hb
      obtain ⟨rfl, rfl, rfl⟩ := nearBody_inj ha hb (Json.single_inj.1 h).2
      rfl
    | _ => simp [word] at hword
  | nested path context predicate size, b, ha, hb, h => by
    have hword := word_eq_of_toJson_eq h
    cases b with
    | nested path' context' predicate' size' =>
      rw [isLegible] at ha hb
      obtain ⟨rfl, rfl, hpredicate, rfl⟩ := nestedBody_inj (Json.single_inj.1 h).2
      rw [eq_of_toJson_eq predicate predicate' ha hb hpredicate]
    | _ => simp [word] at hword
  | bool must filter mustNot, b, ha, hb, h => by
    have hword := word_eq_of_toJson_eq h
    cases b with
    | bool must' filter' mustNot' =>
      rw [isLegible, Bool.and_eq_true, Bool.and_eq_true] at ha hb
      obtain ⟨hmust, hfilter, hmustNot⟩ := boolBody_inj (Json.single_inj.1 h).2
      rw [eq_of_slotJson?_eq must must' ha.1.1 hb.1.1 hmust,
        eq_of_slotJson?_eq filter filter' ha.1.2 hb.1.2 hfilter,
        eq_of_slotJson?_eq mustNot mustNot' ha.2 hb.2 hmustNot]
    | _ => simp [word] at hword
termination_by structural a => a

theorem eq_of_listToJson_eq : (as bs : List Clause) → listLegible as = true →
    listLegible bs = true → listToJson as = listToJson bs → as = bs
  | [], [], _, _, _ => rfl
  | [], _ :: _, _, _, h => by simp [listToJson] at h
  | _ :: _, [], _, _, h => by simp [listToJson] at h
  | a :: as, b :: bs, has, hbs, h => by
    rw [listLegible, Bool.and_eq_true] at has hbs
    rw [listToJson, listToJson, List.cons.injEq] at h
    rw [eq_of_toJson_eq a b has.1 hbs.1 h.1, eq_of_listToJson_eq as bs has.2 hbs.2 h.2]
termination_by structural as => as

/-- One clause is an object and a list of clauses an array, so a list of one is told from it. -/
theorem eq_of_slotJson?_eq : (s t : Slot Clause) → slotLegible s = true → slotLegible t = true →
    slotJson? s = slotJson? t → s = t
  | .empty, t, _, ht, h => by
    match t with
    | .empty => rfl
    | .one _ | .many (_ :: _) => simp [slotJson?] at h
    | .many [] => simp [slotLegible] at ht
  | .one a, t, hs, ht, h => by
    match t with
    | .empty => simp [slotJson?] at h
    | .one b =>
      rw [slotLegible] at hs ht
      rw [eq_of_toJson_eq a b hs ht (Option.some.inj h)]
    | .many [] => simp [slotLegible] at ht
    | .many (_ :: _) => exact absurd (Option.some.inj h) (a.toJson_ne_arr _)
  | .many as, t, hs, ht, h => by
    match as, t with
    | [], _ => simp [slotLegible] at hs
    | _ :: _, .empty => simp [slotJson?] at h
    | _ :: _, .one b => exact absurd (Option.some.inj h).symm (b.toJson_ne_arr _)
    | _ :: _, .many [] => simp [slotLegible] at ht
    | a :: as, .many (b :: bs) =>
      rw [slotLegible, Bool.and_eq_true] at hs ht
      rw [eq_of_listToJson_eq (a :: as) (b :: bs) hs.2 ht.2 (Json.arr.inj (Option.some.inj h))]
termination_by structural s => s

end

/-- Clauses that are written alike are equal. -/
theorem toJson_eq_iff {a b : Clause} (ha : a.isLegible = true) (hb : b.isLegible = true) :
    a.toJson = b.toJson ↔ a = b :=
  ⟨eq_of_toJson_eq a b ha hb, congrArg toJson⟩

/-- One clause is told from a list of one beneath a nested clause, beside fields and paths that have
the names of keys. -/
theorem toJson_one_ne_toJson_listed :
    (ofFilter (.one (nested "must" .query (ofMust (.one (near "path" "5km" ⟨.zero, .zero⟩)))
      100))).isLegible = true ∧
    (ofFilter (.one (nested "must" .query (ofMust (.many [near "path" "5km" ⟨.zero, .zero⟩]))
      100))).isLegible = true ∧
    (ofFilter (.one (nested "must" .query (ofMust (.one (near "path" "5km" ⟨.zero, .zero⟩)))
      100))).toJson ≠
      (ofFilter (.one (nested "must" .query (ofMust (.many [near "path" "5km" ⟨.zero, .zero⟩]))
        100))).toJson := by
  refine ⟨rfl, rfl, fun h => ?_⟩
  have heq := (toJson_eq_iff rfl rfl).1 h
  simp [ofFilter, ofMust] at heq

/-! Without the two conditions different clauses are written alike. -/

example : (ofMust (.many [])).toJson = (ofMust .empty).toJson := rfl

example (point : GeoPoint) :
    (near "distance" "5km" point).toJson = (near "distance" "9km" point).toJson := rfl

end Clause

end FlatQuery
