import FlatQuery.Plan.Body
import FlatQuery.Proofs.Documents

/-!
# Pages of an answer

An answer says which page it is and how many documents a page has. The size is the one that the
engine was sent. The page is found from the window of the search, which does not tell the pages
of size zero apart: these are all the first one. Any other page is the one asked for as long as the
start of the window is a count (`page_of_answer`).
-/

namespace FlatQuery

/-! ## Windows -/

section

variable (options : Options) {defaultSize : Nat}

theorem size_paging_le : (options.paging defaultSize).size ≤ maxPageSize :=
  Nat.min_le_right _ _

/-- Pages are empty only if the request says so. -/
theorem size_paging_eq_zero_iff (hdefault : 1 ≤ defaultSize) :
    (options.paging defaultSize).size = 0 ↔ options.perPage = some 0 := by
  have hmax : maxPageSize ≠ 0 := by decide
  simp only [Options.paging, Nat.min_eq_zero_iff, or_iff_left hmax]
  cases options.perPage with
  | none => simp [Nat.ne_of_gt hdefault]
  | some n => simp

/-- The page is found again from a window whose start has not been cut off. -/
theorem pageOf_paging (hsize : (options.paging defaultSize).size ≠ 0)
    (hfits : options.page * (options.paging defaultSize).size ≤ maxCount) :
    Answer.pageOf (options.paging defaultSize) = options.page := by
  have hstart : (options.paging defaultSize).start =
      options.page * (options.paging defaultSize).size := Nat.min_eq_left hfits
  rw [Answer.pageOf, if_neg hsize, hstart, Nat.mul_div_cancel _ (Nat.pos_of_ne_zero hsize)]

end

/-! ## Written pages -/

theorem get?_body_size (plan : Plan) : plan.body.get? "size" = some (.ofNat plan.paging.size) := by
  apply get?_ofMembers_of_agree
  · simp
  · intro other h
    simpa [Plan.optionalMembers] using h

namespace Answer

/-- What the metadata of a written answer say under a key. -/
def reported? (answer : Answer) (key : String) : Option Json :=
  (answer.toJson.get? "metadata").bind fun metadata => metadata.get? key

theorem get?_metadata_toJson (answer : Answer) :
    answer.toJson.get? "metadata" = some answer.metadata := by
  apply get?_ofMembers_of_agree
  · simp
  · intro other h
    simpa [optionalMember] using h

/-- The metadata always hold three counts; what is left out at times has other keys. -/
theorem reported?_eq_of_mem {answer : Answer} {key : String} {count : Json}
    (h : (key, count) ∈ [("total", .ofNat answer.total), ("page", .ofNat answer.page),
      ("per_page", .ofNat answer.pageSize)]) : answer.reported? key = some count := by
  rw [reported?, get?_metadata_toJson, Option.bind_some]
  refine get?_ofMembers_of_agree ?_ fun other hother => ?_
  · exact List.mem_append_left _ (List.mem_append_left _ h)
  · simp only [List.mem_cons, Prod.mk.injEq, List.not_mem_nil, or_false] at h
    rcases h with ⟨rfl, rfl⟩ | ⟨rfl, rfl⟩ | ⟨rfl, rfl⟩
    all_goals simpa [optionalMember] using hother

end Answer

/-! ## Answers -/

/-- An answer reports the size that the engine was sent, which is at most the greatest one, and the
page that was asked for as long as the start of its window is a count. Pages of size zero are
all reported as the first one. -/
theorem page_of_answer {c : Catalog} {settings : PlanSettings} {r : Request} {plan : Plan}
    {raw : Json} {reply : Reply} (h : compile c settings r = .ok plan)
    (hread : Reply.read raw = .ok reply) (hdefault : 1 ≤ settings.defaultPageSize)
    (searchTime : Option Double) :
    ∃ answer counts, decode c plan raw searchTime = .ok (answer, counts) ∧
      answer.reported? "per_page" = plan.body.get? "size" ∧
      plan.body.get? "size" = some (.ofNat plan.paging.size) ∧ plan.paging.size ≤ maxPageSize ∧
      (r.options.perPage = some 0 → answer.reported? "page" = some (.ofNat 0)) ∧
      (r.options.perPage ≠ some 0 → r.options.page * plan.paging.size ≤ maxCount →
        answer.reported? "page" = some (.ofNat r.options.page)) := by
  obtain ⟨conditions, classified, hstages⟩ := stages_of_compile h
  have hempty : plan.paging.size = 0 ↔ r.options.perPage = some 0 := by
    rw [hstages.paging]
    exact size_paging_eq_zero_iff r.options hdefault
  have hpage : ∀ documents, (Answer.ofDocuments plan reply documents searchTime).reported? "page" =
      some (.ofNat (Answer.pageOf plan.paging)) := fun documents =>
    Answer.reported?_eq_of_mem (by simp [Answer.ofDocuments])
  refine ⟨_, _, decode_of_read hread c plan searchTime, ?_, get?_body_size plan, ?_, ?_, ?_⟩
  · rw [get?_body_size]
    exact Answer.reported?_eq_of_mem (by simp [Answer.ofDocuments])
  · rw [hstages.paging]
    exact size_paging_le r.options
  · intro hzero
    rw [hpage, Answer.pageOf, if_pos (hempty.2 hzero)]
  · intro hsome hfits
    have hsize : plan.paging.size ≠ 0 := mt hempty.1 hsome
    rw [hstages.paging] at hsize hfits
    rw [hpage, hstages.paging, pageOf_paging r.options hsize hfits]

/-- The last page of the greatest size whose start is a count. -/
theorem page_of_last_window :
    ∃ plan, compile {} {} { options := { page := 184467440737095516, perPage := some 500 } } =
        .ok plan ∧
      plan.paging = ⟨184467440737095516, 100, 18446744073709551600⟩ ∧
      ∃ answer counts, decode {} plan (.obj []) none = .ok (answer, counts) ∧
        answer.reported? "page" = some (.ofNat 184467440737095516) ∧
        answer.reported? "per_page" = some (.ofNat 100) := by
  have h : compile {} {} { options := { page := 184467440737095516, perPage := some 500 } } =
      .ok ⟨[], [], _, [], ⟨184467440737095516, 100, 18446744073709551600⟩, [], _⟩ := rfl
  have hread : Reply.read (.obj []) = .ok {} := rfl
  obtain ⟨answer, counts, hdecode, hsize, hsent, -, -, hpage⟩ :=
    page_of_answer h hread (by decide) none
  exact ⟨_, h, rfl, answer, counts, hdecode, hpage (by decide) (by decide), hsize.trans hsent⟩

/-- A request for the fourth page of size zero is answered as the first page. -/
theorem not_reported_page_of_empty :
    ¬∀ (c : Catalog) (settings : PlanSettings) (r : Request) (plan : Plan) (raw : Json)
      (answer : Answer) (counts : DecodeCounts), 1 ≤ settings.defaultPageSize →
      settings.defaultPageSize ≤ maxPageSize → r.options.page ≤ maxCount →
      compile c settings r = .ok plan → decode c plan raw none = .ok (answer, counts) →
      answer.reported? "page" = some (.ofNat r.options.page) := by
  intro hall
  have h : compile {} {} { options := { page := 3, perPage := some 0 } } =
      .ok ⟨[], [], _, [], ⟨3, 0, 0⟩, [], _⟩ := rfl
  have hpage := hall _ _ _ _ (.obj []) _ _ (by decide) (by decide) (by decide) h rfl
  revert hpage
  decide

end FlatQuery
