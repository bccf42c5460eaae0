import FlatQuery.Proofs.JsonParts
import FlatQuery.Reply.Basic

/-!
# Replies in order

The objects of a value that has been read as JSON have their members in order of keys. A reply takes
its dictionaries from the value as they are, so the hits of a reply that can be read are in order
(`Reply.ordered_of_read`).
-/

namespace FlatQuery

/-! ## Records -/

namespace Json

theorem ordered_of_record? {v : Json} (h : v.Ordered) {names : List String}
    {found : List (Option Json)} (hfound : v.record? names = some found) :
    ∀ w, some w ∈ found → w.Ordered := by
  intro w hw
  cases v with
  | obj members =>
    obtain rfl := Option.some.inj hfound
    obtain ⟨name, -, hmember⟩ := List.mem_map.1 hw
    exact (ordered_obj.1 h).2 _ (Dict.mem_of_find?_eq_some hmember)
  | arr items =>
    rw [record?] at hfound
    split at hfound
    · obtain rfl := Option.some.inj hfound
      -- what is left out at the end of the array is no value
      have hitem : some w ∈ items.map some := by
        refine (List.mem_append.1 hw).resolve_right fun hrest => ?_
        cases List.eq_of_mem_replicate hrest
      obtain ⟨item, hmem, heq⟩ := List.mem_map.1 hitem
      obtain rfl := Option.some.inj heq
      exact ordered_arr.1 h item hmem
    · cases hfound
  | _ => cases hfound

/-- A dictionary in a field that may be absent is in order. -/
theorem ascending_of_optional? {field : Option Json} (h : ∀ v, field = some v → v.Ordered)
    {d : Option (Dict Json)} (hd : optional? members? field = some d) :
    Dict.Ascending (d.getD []) := by
  cases field with
  | none =>
    obtain rfl := Option.some.inj hd
    exact List.Pairwise.nil
  | some v =>
    cases v with
    | null =>
      obtain rfl := Option.some.inj hd
      exact List.Pairwise.nil
    | obj members =>
      obtain rfl := Option.some.inj hd
      exact (ordered_obj.1 (h _ rfl)).1
    | _ => cases hd

/-- Each element of a list has been read from an item. -/
theorem exists_of_list? {α : Type} {f : Json → Option α} {v : Json} {xs : List α}
    (h : list? f v = some xs) :
    ∃ items, v = .arr items ∧ ∀ x ∈ xs, ∃ item ∈ items, f item = some x := by
  cases v with
  | arr items =>
    refine ⟨items, rfl, ?_⟩
    rw [list?] at h
    induction items generalizing xs with
    | nil =>
      obtain rfl := Option.some.inj h
      simp
    | cons item items ih =>
      rw [List.mapM_cons] at h
      obtain ⟨x, hx, h⟩ := Option.bind_eq_some_iff.1 h
      obtain ⟨rest, hrest, h⟩ := Option.bind_eq_some_iff.1 h
      obtain rfl := Option.some.inj h
      rw [List.forall_mem_cons]
      refine ⟨⟨item, List.mem_cons_self, hx⟩, fun y hy => ?_⟩
      obtain ⟨other, hmem, hother⟩ := ih hrest y hy
      exact ⟨other, List.mem_cons_of_mem _ hmem, hother⟩
  | _ => cases h

end Json

/-! ## Hits -/

/-- The dictionaries of the hit are in order. -/
structure Hit.Ordered (hit : Hit) : Prop where
  fields : Dict.Ascending (hit.fields.getD [])
  innerHits : Dict.Ascending (hit.innerHits.getD [])

instance (hit : Hit) : Decidable hit.Ordered :=
  decidable_of_iff
    (Dict.Ascending (hit.fields.getD []) ∧ Dict.Ascending (hit.innerHits.getD []))
    ⟨fun h => ⟨h.1, h.2⟩, fun h => ⟨h.fields, h.innerHits⟩⟩

theorem Hit.ordered_of_ofJson? {v : Json} (h : v.Ordered) {hit : Hit}
    (hhit : Hit.ofJson? v = some hit) : hit.Ordered := by
  obtain ⟨found, hfound, hhit⟩ := Option.bind_eq_some_iff.1 hhit
  have hordered := Json.ordered_of_record? h hfound
  split at hhit
  next source fields innerHits =>
    obtain ⟨source?, -, hhit⟩ := Option.bind_eq_some_iff.1 hhit
    obtain ⟨fields?, hfields, hhit⟩ := Option.bind_eq_some_iff.1 hhit
    obtain ⟨innerHits?, hinner, hhit⟩ := Option.bind_eq_some_iff.1 hhit
    obtain rfl := Option.some.inj hhit
    constructor
    · exact Json.ascending_of_optional? (fun w hw => hordered w (by simp [hw])) hfields
    · exact Json.ascending_of_optional? (fun w hw => hordered w (by simp [hw])) hinner
  · cases hhit

theorem Hits.ordered_of_ofJson? {v : Json} (h : v.Ordered) {hits : Hits}
    (hhits : Hits.ofJson? v = some hits) : ∀ hit ∈ hits.hits, hit.Ordered := by
  obtain ⟨found, hfound, hhits⟩ := Option.bind_eq_some_iff.1 hhits
  have hordered := Json.ordered_of_record? h hfound
  split at hhits
  next total list =>
    obtain ⟨total?, -, hhits⟩ := Option.bind_eq_some_iff.1 hhits
    obtain ⟨read, hread, hhits⟩ := Option.bind_eq_some_iff.1 hhits
    obtain rfl := Option.some.inj hhits
    cases list with
    | none =>
      obtain rfl := Option.some.inj hread
      simp
    | some listed =>
      intro hit hhit
      obtain ⟨items, rfl, hitems⟩ := Json.exists_of_list? hread
      obtain ⟨item, hitem, heq⟩ := hitems hit hhit
      have hlisted : (Json.arr items).Ordered := hordered _ (by simp)
      exact Hit.ordered_of_ofJson? (Json.ordered_arr.1 hlisted item hitem) heq
  · cases hhits

/-! ## Replies -/

theorem Reply.ordered_of_ofJson? {v : Json} (h : v.Ordered) {reply : Reply}
    {error : Option Json} (hreply : Reply.ofJson? v = some (reply, error)) :
    ∀ hit ∈ reply.hits.hits, hit.Ordered := by
  obtain ⟨found, hfound, hreply⟩ := Option.bind_eq_some_iff.1 hreply
  have hordered := Json.ordered_of_record? h hfound
  split at hreply
  next took hits aggregations error =>
    obtain ⟨took?, -, hreply⟩ := Option.bind_eq_some_iff.1 hreply
    obtain ⟨read, hread, hreply⟩ := Option.bind_eq_some_iff.1 hreply
    obtain ⟨aggregations?, -, hreply⟩ := Option.bind_eq_some_iff.1 hreply
    obtain ⟨error?, -, hreply⟩ := Option.bind_eq_some_iff.1 hreply
    obtain ⟨rfl, -⟩ := Prod.mk.inj (Option.some.inj hreply)
    cases hits with
    | none =>
      obtain rfl := Option.some.inj hread
      simp
    | some listed => exact Hits.ordered_of_ofJson? (hordered listed (by simp)) hread
  · cases hreply

theorem Reply.ordered_of_read {v : Json} (h : v.Ordered) {reply : Reply}
    (hread : Reply.read v = .ok reply) : ∀ hit ∈ reply.hits.hits, hit.Ordered := by
  unfold Reply.read at hread
  split at hread
  · cases hread
  · cases hread
  · rename_i found hfound
    obtain rfl := Except.ok.inj hread
    exact Reply.ordered_of_ofJson? h hfound

end FlatQuery
