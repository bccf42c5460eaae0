import FlatQuery.Proofs.ServiceSteps
import Mathlib.Algebra.GroupWithZero.Nat

/-!
# Sessions

A session is a service in use: requests, changes of its catalog, snapshots that are held, and
questions about fields, one call after another. What a call comes to is said once (`Call.spec`).
From it follow, over any session, which catalog is current (`catalog_run`) and what has been counted
(`counted_run`). A snapshot stays the catalog that it was taken of (`getElem?_held_run`), so it
answers as that catalog did then (`lookup_held`), and the engine never hears of a rejected search
(`perform_search_of_rejected`); `state_of_run` has it all.
-/

namespace FlatQuery

/-- What a catalog says of a field: its kind, and the nested path that owns it. -/
def Catalog.describe (c : Catalog) (field : String) : FieldKind × Option String :=
  (c.kind field, c.nestedPath? field)

namespace Session

/-! ## Calls -/

/-- An operation of a session, with what it is given from outside: the engine as it is then, and
what the catalog file holds. -/
inductive Operation where
  | compile (r : Request)
  | search (r : Request) (engine : Engine) (elapsed : Double)
  | decode (r : Request) (raw : Json)
  | replace (c : Catalog)
  | reload (name : String) (file : Except FileFault String)
  /-- Holds the current catalog; snapshots are numbered as they are taken. -/
  | hold
  /-- Asks a snapshot about a field, or the current catalog. -/
  | lookup (snapshot : Option Nat) (field : String)

inductive Outcome where
  | compiled (outcome : Except ServiceError Plan)
  | answered (outcome : Except ServiceError Answer)
  | replaced
  | reloaded (outcome : Except ServiceError Catalog)
  | held
  | described (description : Option (FieldKind × Option String))

end Session

structure Session where
  service : Service
  held : List Catalog := []

namespace Session

def perform (s : Session) : Operation → Outcome × Session
  | .compile r =>
    let (outcome, service) := s.service.run (Service.compile r)
    (.compiled outcome, { s with service })
  | .search r engine elapsed =>
    let (outcome, service) := { s.service with engine }.run (Service.search r elapsed)
    (.answered outcome, { s with service := { service with engine := s.service.engine } })
  | .decode r raw =>
    let (outcome, service) := s.service.run (Service.decode r raw)
    (.answered outcome, { s with service })
  | .replace c => (.replaced, { s with service := (s.service.run (Service.replace c)).2 })
  | .reload name file =>
    let (outcome, service) := s.service.run (Service.reload name file)
    (.reloaded outcome, { s with service })
  | .hold => (.held, { s with held := s.held ++ [s.service.catalog] })
  | .lookup none field => (.described (s.service.catalog.describe field), s)
  | .lookup (some n) field => (.described (s.held[n]?.map (·.describe field)), s)

def run (s : Session) (operations : List Operation) : Session :=
  operations.foldl (fun s operation => (s.perform operation).2) s

/-- An operation and the session that it meets. -/
structure Call where
  before : Session
  operation : Operation

namespace Call

def outcome (call : Call) : Outcome := (call.before.perform call.operation).1

def after (call : Call) : Session := (call.before.perform call.operation).2

end Call

/-- The calls of a session, in order. -/
def calls : Session → List Operation → List Call
  | _, [] => []
  | s, operation :: operations => ⟨s, operation⟩ :: calls (s.perform operation).2 operations

/-! ## What a call comes to -/

namespace Operation

/-- The request that is compiled. -/
def request? : Operation → Option Request
  | compile r | search r _ _ | decode r _ => some r
  | _ => none

/-- The reply that is read if the request compiles, with the time that it took. -/
def reply? : Operation → Option (Json × Option Double)
  | search _ (.canned raw) elapsed => some (raw, some elapsed)
  | decode _ raw => some (raw, none)
  | _ => none

def reloaded? : Operation → Option Catalog
  | reload name file => (Service.loadCatalog name file).toOption
  | _ => none

/-- The catalog that is put in place. -/
def installed? : Operation → Option Catalog
  | replace c => some c
  | operation => operation.reloaded?

theorem reloaded?_of_request {r : Request} (operation : Operation)
    (h : operation.request? = some r) : operation.reloaded? = none := by
  cases operation with
  | reload name file => cases h
  | _ => rfl

end Operation

namespace Outcome

def answer? : Outcome → Option Answer
  | answered outcome => outcome.toOption
  | _ => none

def catalog? : Outcome → Option Catalog
  | reloaded outcome => outcome.toOption
  | _ => none

end Outcome

namespace Call

variable (call : Call)

/-- The plan of the request, if it compiles. -/
def plan? : Option Plan :=
  call.operation.request?.bind fun r =>
    (FlatQuery.compile call.before.service.catalog call.before.service.settings r).toOption

/-- The answer that is returned, with what was added to its documents. -/
def decoded? : Option (Answer × DecodeCounts) :=
  call.plan?.bind fun plan => call.operation.reply?.bind fun reply =>
    (FlatQuery.decode call.before.service.catalog plan reply.1 reply.2).toOption

/-- What the engine is asked, if it answers. -/
def asked? : Option EngineRequest :=
  match call.operation with
  | .search _ (.canned _) _ => call.plan?.map call.before.service.engineRequest
  | _ => none

/-- What is counted of a request. -/
def countPlan (k : Counters) : Counters :=
  match call.plan? with
  | some plan => k.compiled plan.nestedQueries.length
  | none => if call.operation.request?.isSome then k.rejected else k

/-- What is counted of an answer. -/
def countAnswer (k : Counters) : Counters :=
  match call.decoded? with
  | some decoded => k.decoded decoded.2
  | none => k

def countReload (k : Counters) : Counters :=
  match call.operation.reloaded? with
  | some _ => k.reloaded
  | none => k

/-- The answer of a call, and the service after it. -/
theorem spec : call.outcome.answer? = call.decoded?.map Prod.fst ∧
    call.outcome.catalog? = call.operation.reloaded? ∧ call.after.service =
    { call.before.service with
      catalog := call.operation.installed?.getD call.before.service.catalog
      lastRequest := call.asked?.or call.before.service.lastRequest
      counters :=
        call.countReload (call.countAnswer (call.countPlan call.before.service.counters)) } := by
  obtain ⟨s, operation⟩ := call
  simp only [outcome, after, countReload, countAnswer, countPlan, decoded?, asked?, plan?]
  cases operation <;>
    dsimp only [perform, Operation.request?, Operation.reply?, Operation.reloaded?,
      Operation.installed?, Outcome.answer?, Outcome.catalog?]
  case compile r =>
    cases h : FlatQuery.compile s.service.catalog s.service.settings r <;>
      simp [Service.run_compile, h, Except.toOption]
  case search r engine elapsed =>
    cases h : FlatQuery.compile s.service.catalog s.service.settings r with
    | error rejection =>
      have hrun := Service.run_search_of_rejected (s := { s.service with engine }) h elapsed
      cases engine <;> simp [h, hrun, Except.toOption]
    | ok plan =>
      have hrun := Service.run_search_of_ok (s := { s.service with engine }) h elapsed
      cases engine with
      | failing e => simp [h, hrun, Engine.answer, Except.toOption]
      | canned raw =>
        cases hdecode : FlatQuery.decode s.service.catalog plan raw (some elapsed) <;>
          simp [h, hrun, Engine.answer, Service.run_finish, hdecode, Except.toOption,
            Service.engineRequest]
  case decode r raw =>
    cases h : FlatQuery.compile s.service.catalog s.service.settings r with
    | error rejection => simp [h, Service.run_decode_of_rejected h, Except.toOption]
    | ok plan =>
      cases hdecode : FlatQuery.decode s.service.catalog plan raw none <;>
        simp [h, Service.run_decode_of_ok h, hdecode, Service.run_finish, Except.toOption]
  case replace c => exact ⟨rfl, rfl, rfl⟩
  case reload name file =>
    cases h : Service.loadCatalog name file <;>
      simp [Service.run_reload, h, Except.toOption]
  case hold => exact ⟨rfl, rfl, rfl⟩
  case lookup snapshot field => cases snapshot <;> exact ⟨rfl, rfl, rfl⟩

end Call

/-! ## Counters -/

/-- What counters say that began at `k₀` and have counted the calls. -/
structure Counted (k₀ k : Counters) (calls : List Call) : Prop where
  compiled : k.queriesCompiled =
    k₀.queriesCompiled + .ofNat (calls.filterMap Call.plan?).length
  requests : k.queriesCompiled + k.queriesRejected =
    k₀.queriesCompiled + k₀.queriesRejected + .ofNat (calls.filterMap (·.operation.request?)).length
  nested : k.nestedQueriesBuilt = k₀.nestedQueriesBuilt +
    .ofNat ((calls.filterMap Call.plan?).map (·.nestedQueries.length)).sum
  answers : k.responsesDecoded =
    k₀.responsesDecoded + .ofNat (calls.filterMap (·.outcome.answer?)).length
  merged : k.innerHitGroupsMerged = k₀.innerHitGroupsMerged +
    .ofNat ((calls.filterMap Call.decoded?).map (·.2.innerHitGroups)).sum
  filled : k.nullFieldsFilled = k₀.nullFieldsFilled +
    .ofNat ((calls.filterMap Call.decoded?).map (·.2.nullFields)).sum
  reloads : k.catalogReloads =
    k₀.catalogReloads + .ofNat (calls.filterMap (·.outcome.catalog?)).length

namespace Counted

theorem nil (k : Counters) : Counted k k [] := by
  constructor <;> simp

theorem add_ofNat_trans {a b c : UInt64} {m n : Nat} (h₁ : b = a + .ofNat m)
    (h₂ : c = b + .ofNat n) : c = a + .ofNat (m + n) := by
  rw [h₂, h₁, UInt64.ofNat_add, UInt64.add_assoc]

/-- Calls may be counted in parts. -/
theorem append {k₁ k₂ k₃ : Counters} {calls₁ calls₂ : List Call} (h₁ : Counted k₁ k₂ calls₁)
    (h₂ : Counted k₂ k₃ calls₂) : Counted k₁ k₃ (calls₁ ++ calls₂) where
  compiled := by simpa using add_ofNat_trans h₁.compiled h₂.compiled
  requests := by simpa using add_ofNat_trans h₁.requests h₂.requests
  nested := by simpa using add_ofNat_trans h₁.nested h₂.nested
  answers := by simpa using add_ofNat_trans h₁.answers h₂.answers
  merged := by simpa using add_ofNat_trans h₁.merged h₂.merged
  filled := by simpa using add_ofNat_trans h₁.filled h₂.filled
  reloads := by simpa using add_ofNat_trans h₁.reloads h₂.reloads

/-- A call is counted once: a request as rejected or compiled, and then perhaps as answered, and a
reload if it succeeds. -/
theorem singleton (call : Call) :
    Counted call.before.service.counters call.after.service.counters [call] := by
  obtain ⟨hanswer, hcatalog, hafter⟩ := call.spec
  rw [hafter]
  simp only [Call.countReload, Call.countAnswer, Call.countPlan]
  cases hrequest : call.operation.request? with
  | none =>
    have hplan : call.plan? = none := by simp [Call.plan?, hrequest]
    have hdecoded : call.decoded? = none := by simp [Call.decoded?, hplan]
    cases hreloaded : call.operation.reloaded? <;> constructor <;>
      simp [hanswer, hcatalog, hrequest, hplan, hdecoded, hreloaded, Counters.reloaded]
  | some r =>
    have hreloaded : call.operation.reloaded? = none := call.operation.reloaded?_of_request hrequest
    cases hplan : call.plan? with
    | none =>
      have hdecoded : call.decoded? = none := by simp [Call.decoded?, hplan]
      constructor <;>
        simp [hanswer, hcatalog, hrequest, hplan, hdecoded, hreloaded, Counters.rejected,
          UInt64.add_assoc]
    | some plan =>
      cases hdecoded : call.decoded? <;> constructor <;>
        simp [hanswer, hcatalog, hrequest, hplan, hdecoded, hreloaded, Counters.compiled,
          Counters.decoded, UInt64.add_assoc, UInt64.add_comm 1]

end Counted

theorem counted_run (s : Session) (operations : List Operation) :
    Counted s.service.counters (s.run operations).service.counters (s.calls operations) := by
  induction operations generalizing s with
  | nil => exact .nil _
  | cons operation operations ih =>
    exact (Counted.singleton ⟨s, operation⟩).append (ih (s.perform operation).2)

/-- An answer is only given to a request that was compiled. -/
theorem length_answers_le (calls : List Call) :
    (calls.filterMap (·.outcome.answer?)).length ≤ (calls.filterMap Call.plan?).length := by
  simp only [List.length_filterMap_eq_countP]
  refine List.countP_mono_left fun call _ h => ?_
  rw [call.spec.1, Option.isSome_map] at h
  obtain ⟨decoded, hdecoded⟩ := Option.isSome_iff_exists.1 h
  obtain ⟨plan, hplan, -⟩ := Option.bind_eq_some_iff.1 hdecoded
  rw [hplan, Option.isSome_some]

theorem length_calls (s : Session) (operations : List Operation) :
    (s.calls operations).length = operations.length := by
  induction operations generalizing s with
  | nil => rfl
  | cons operation operations ih => exact congrArg (· + 1) (ih _)

/-- As long as no counter has begun anew, no more answers are counted than requests compiled. -/
theorem Counted.answers_le {k : Counters} {calls : List Call} (h : Counted {} k calls)
    (hlt : calls.length < UInt64.size) : k.responsesDecoded ≤ k.queriesCompiled := by
  have hle := length_answers_le calls
  have hplans : (calls.filterMap Call.plan?).length < UInt64.size :=
    Nat.lt_of_le_of_lt (List.length_filterMap_le _ _) hlt
  rw [h.answers, h.compiled, UInt64.zero_add, UInt64.zero_add, UInt64.le_iff_toNat_le,
    UInt64.toNat_ofNat_of_lt' hplans, UInt64.toNat_ofNat_of_lt' (Nat.lt_of_le_of_lt hle hplans)]
  exact hle

/-! ## Catalogs -/

section

variable {s : Session}

/-- The current catalog is the one that was put in place last. -/
theorem catalog_run (s : Session) (operations : List Operation) :
    (s.run operations).service.catalog =
      (operations.filterMap Operation.installed?).getLast?.getD s.service.catalog := by
  induction operations generalizing s with
  | nil => rfl
  | cons operation operations ih =>
    have hcall : (s.perform operation).2.service.catalog =
        operation.installed?.getD s.service.catalog :=
      congrArg Service.catalog (Call.spec ⟨s, operation⟩).2.2
    rw [run, List.foldl_cons]
    refine (ih (s.perform operation).2).trans ?_
    rw [hcall, List.filterMap_cons]
    cases operation.installed? with
    | none => rfl
    | some c => rw [List.getLast?_cons]; rfl

/-- Snapshots are never given up. -/
theorem held_perform (s : Session) (operation : Operation) :
    s.held <+: (s.perform operation).2.held := by
  cases operation with
  | hold => exact List.prefix_append _ _
  | lookup snapshot field => cases snapshot <;> exact List.prefix_rfl
  | _ => exact List.prefix_rfl

theorem held_run (s : Session) (operations : List Operation) :
    s.held <+: (s.run operations).held := by
  induction operations generalizing s with
  | nil => exact List.prefix_rfl
  | cons operation operations ih => exact (held_perform s operation).trans (ih _)

/-- A snapshot is the catalog that was current when it was taken, whatever comes after. -/
theorem getElem?_held_run (s : Session) (operations : List Operation) :
    (s.run (.hold :: operations)).held[s.held.length]? = some s.service.catalog := by
  obtain ⟨later, hlater⟩ := held_run (s.perform .hold).2 operations
  have hheld : (s.run (.hold :: operations)).held = s.held ++ s.service.catalog :: later :=
    hlater.symm.trans (List.append_assoc ..)
  rw [hheld, List.getElem?_append_right (Nat.le_refl _), Nat.sub_self, List.getElem?_cons_zero]

/-- A snapshot answers as the session did in which its catalog was current. -/
theorem lookup_held {s s₀ : Session} {n : Nat} (h : s.held[n]? = some s₀.service.catalog)
    (field : String) :
    (s.perform (.lookup (some n) field)).1 = (s₀.perform (.lookup none field)).1 := by
  simp only [perform, h, Option.map_some]

/-- A search that is rejected is answered without the engine. -/
theorem perform_search_of_rejected {r : Request} {rejection : Rejection}
    (h : FlatQuery.compile s.service.catalog s.service.settings r = .error rejection)
    (engine : Engine) (elapsed : Double) : s.perform (.search r engine elapsed) =
      (.answered (.error (.rejected rejection)),
        { s with service := { s.service with counters := s.service.counters.rejected } }) := by
  have hrun := Service.run_search_of_rejected (s := { s.service with engine }) h elapsed
  simp only [perform, hrun]

end

/-- A whole session with a service: which catalog is current, which catalog a snapshot is and what
it answers, that a rejected search is settled without the engine, and what has been counted. -/
theorem state_of_run (service : Service) (operations : List Operation) :
    let s := run ⟨service, []⟩ operations
    let calls := calls ⟨service, []⟩ operations
    s.service.catalog =
      (operations.filterMap Operation.installed?).getLast?.getD service.catalog ∧
    (∀ before after, operations = before ++ .hold :: after →
      let s₀ := run ⟨service, []⟩ before
      s.held[s₀.held.length]? = some s₀.service.catalog ∧
      ∀ field, (s.perform (.lookup (some s₀.held.length) field)).1 =
        (s₀.perform (.lookup none field)).1) ∧
    (∀ call ∈ calls, ∀ r engine elapsed rejection, call.operation = .search r engine elapsed →
      FlatQuery.compile call.before.service.catalog call.before.service.settings r =
        .error rejection →
      call.outcome = .answered (.error (.rejected rejection)) ∧
      call.after.service =
        { call.before.service with counters := call.before.service.counters.rejected }) ∧
    Counted service.counters s.service.counters calls ∧
    (∀ call ∈ calls, call.outcome.answer? = call.decoded?.map Prod.fst) ∧
    (calls.filterMap (·.outcome.answer?)).length ≤ (calls.filterMap Call.plan?).length ∧
    (service.counters = {} → operations.length < UInt64.size →
      s.service.counters.responsesDecoded ≤ s.service.counters.queriesCompiled) := by
  have hcounted := counted_run ⟨service, []⟩ operations
  refine ⟨catalog_run _ _, ?_, ?_, hcounted, fun call _ => call.spec.1, length_answers_le _, ?_⟩
  · rintro before after rfl
    have hheld := getElem?_held_run (run ⟨service, []⟩ before) after
    rw [run, run, ← List.foldl_append] at hheld
    exact ⟨hheld, lookup_held hheld⟩
  · rintro ⟨s, -⟩ - r engine elapsed rejection rfl h
    have hperform := perform_search_of_rejected h engine elapsed
    exact ⟨congrArg Prod.fst hperform, congrArg (·.2.service) hperform⟩
  · intro hfresh hlt
    rw [hfresh] at hcounted
    exact hcounted.answers_le (by rwa [length_calls])

def sizeService : Service where
  catalog := { kinds := [("size", .string)] }

/-- Sizes become numbers, so a search for the size `big` is rejected. The catalog file is
missing. -/
def sizeOperations : List Operation :=
  [.hold, .replace { kinds := [("size", .integer)] },
    .search { params := [⟨"size", .single "1,big"⟩] } .silent .zero,
    .reload "catalog.json" (.error .missing), .decode {} Engine.emptyReply]

/-- The snapshot still says that sizes are text. Of two requests one is rejected. -/
theorem run_sizeOperations :
    let s := run ⟨sizeService, []⟩ sizeOperations
    s.service.catalog.kind "size" = .integer ∧
      s.held[0]? = some sizeService.catalog ∧
      (s.perform (.lookup (some 0) "size")).1 = .described (some (.string, none)) ∧
      (∃ call ∈ calls ⟨sizeService, []⟩ sizeOperations,
        call.outcome = .answered (.error (.rejected (.notInteger "size" "big")))) ∧
      s.service.counters.queriesCompiled + s.service.counters.queriesRejected = 2 ∧
      s.service.counters.responsesDecoded ≤ s.service.counters.queriesCompiled := by
  obtain ⟨hcatalog, hheld, hrejected, hcounted, -, -, hle⟩ :=
    state_of_run sizeService sizeOperations
  have hsearch := hrejected _ (.tail _ (.tail _ (.head _))) _ _ _ (.notInteger "size" "big") rfl rfl
  obtain ⟨hsnapshot, hanswer⟩ := hheld [] _ rfl
  exact ⟨congrArg (·.kind "size") hcatalog, hsnapshot, hanswer "size",
    ⟨_, .tail _ (.tail _ (.head _)), hsearch.1⟩, hcounted.requests, hle rfl (by decide)⟩

end Session

end FlatQuery
