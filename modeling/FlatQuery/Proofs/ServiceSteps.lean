import FlatQuery.Service.Basic

/-!
# What the steps of a service do

The outcome of each step and the state that it leaves, said once. Every request begins with `start`:
it is compiled against the catalog that is current then, and a rejected one goes no further
(`run_start_bind`). After that only its own plan and catalog count, and the engine where it is asked
(`run_send`, `run_finish`).
-/

namespace FlatQuery.Service

/-! ## Running -/

section

variable {α β : Type}

theorem run_get_bind (s : Service) (next : Service → ServiceM α) :
    s.run (get >>= next) = s.run (next s) := rfl

theorem run_bind (s : Service) (step : ServiceM α) (next : α → ServiceM β) :
    s.run (step >>= next) = match s.run step with
      | (.ok a, s) => s.run (next a)
      | (.error e, s) => (.error e, s) := by
  unfold run ExceptT.run StateT.run
  simp only [bind, ExceptT.bind, ExceptT.mk, StateT.bind, ExceptT.bindCont]
  cases step s with
  | mk outcome s => cases outcome <;> rfl

end

/-! ## Steps of a request -/

theorem run_start (s : Service) (r : Request) :
    s.run (start r) = match FlatQuery.compile s.catalog s.settings r with
      | .ok plan => (.ok ⟨s.catalog, plan⟩,
          { s with counters := s.counters.compiled plan.nestedQueries.length })
      | .error rejection => (.error (.rejected rejection),
          { s with counters := s.counters.rejected }) := by
  rw [start, run_get_bind]
  cases FlatQuery.compile s.catalog s.settings r <;> rfl

theorem run_send (s : Service) (flight : InFlight) :
    s.run (send flight) = match s.engine.answer with
      | .ok raw => (.ok raw, { s with lastRequest := some (s.engineRequest flight.plan) })
      | .error e => (.error (.engine e), s) := by
  rw [send, run_get_bind]
  cases s.engine.answer <;> rfl

theorem run_finish (s : Service) (flight : InFlight) (raw : Json) (searchTime : Option Double) :
    s.run (finish flight raw searchTime) =
      match FlatQuery.decode flight.catalog flight.plan raw searchTime with
      | .ok (answer, counts) => (.ok answer, { s with counters := s.counters.decoded counts })
      | .error e => (.error (.reply e), s) := by
  unfold finish
  cases FlatQuery.decode flight.catalog flight.plan raw searchTime <;> rfl

/-! ## Requests -/

theorem run_start_bind {β : Type} (s : Service) (r : Request) (next : InFlight → ServiceM β) :
    s.run (start r >>= next) = match FlatQuery.compile s.catalog s.settings r with
      | .ok plan => ({ s with counters := s.counters.compiled plan.nestedQueries.length } :
          Service).run (next ⟨s.catalog, plan⟩)
      | .error rejection => (.error (.rejected rejection),
          { s with counters := s.counters.rejected }) := by
  rw [run_bind, run_start]
  cases FlatQuery.compile s.catalog s.settings r <;> rfl

theorem run_compile (s : Service) (r : Request) :
    s.run (compile r) = match FlatQuery.compile s.catalog s.settings r with
      | .ok plan => (.ok plan,
          { s with counters := s.counters.compiled plan.nestedQueries.length })
      | .error rejection => (.error (.rejected rejection),
          { s with counters := s.counters.rejected }) := by
  rw [compile, run_start_bind]
  rfl

section

variable {s : Service} {r : Request} {plan : Plan} {rejection : Rejection}

theorem run_search_of_rejected (h : FlatQuery.compile s.catalog s.settings r = .error rejection)
    (elapsed : Double) : s.run (search r elapsed) =
      (.error (.rejected rejection), { s with counters := s.counters.rejected }) := by
  rw [search, run_start_bind, h]

theorem run_search_of_ok (h : FlatQuery.compile s.catalog s.settings r = .ok plan)
    (elapsed : Double) : s.run (search r elapsed) =
      let k := s.counters.compiled plan.nestedQueries.length
      match s.engine.answer with
      | .ok raw =>
        ({ s with counters := k, lastRequest := some (s.engineRequest plan) } : Service).run
          (finish ⟨s.catalog, plan⟩ raw (some elapsed))
      | .error e => (.error (.engine e), { s with counters := k }) := by
  rw [search, run_start_bind, h]
  simp only [run_bind, run_send]
  cases s.engine.answer <;> rfl

theorem run_decode_of_rejected (h : FlatQuery.compile s.catalog s.settings r = .error rejection)
    (raw : Json) : s.run (decode r raw) =
      (.error (.rejected rejection), { s with counters := s.counters.rejected }) := by
  rw [decode, run_start_bind, h]

theorem run_decode_of_ok (h : FlatQuery.compile s.catalog s.settings r = .ok plan)
    (raw : Json) : s.run (decode r raw) =
      ({ s with counters := s.counters.compiled plan.nestedQueries.length } : Service).run
        (finish ⟨s.catalog, plan⟩ raw none) := by
  rw [decode, run_start_bind, h]

end

/-! ## Catalogs -/

theorem run_replace (s : Service) (c : Catalog) :
    s.run (replace c) = (.ok (), { s with catalog := c }) := rfl

theorem run_reload (s : Service) (name : String) (file : Except FileFault String) :
    s.run (reload name file) = match loadCatalog name file with
      | .ok c => (.ok c, { s with catalog := c, counters := s.counters.reloaded })
      | .error e => (.error (.catalog e), s) := by
  unfold reload
  cases loadCatalog name file <;> rfl

end FlatQuery.Service
