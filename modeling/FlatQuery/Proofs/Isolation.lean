import FlatQuery.Proofs.ServiceSteps

/-!
# Requests are isolated

The searches of a service are under way at the same time, and the catalog may change between any two
of their steps. A search keeps what it took at its start: what becomes of it depends on its own
events only (`getElem?_run`). So its outcome is that of `Service.decode` on the same reply and the
catalog of its start, whatever happens in between (`outcome_eq_decode`).
-/

namespace FlatQuery

/-! ## Outcomes -/

/-- The answer without the time of the search. -/
def Answer.untimed (answer : Answer) : Answer :=
  { answer with searchTime := none }

/-- What comes of a request when its reply is read. -/
def InFlight.outcome (flight : InFlight) (raw : Json) (searchTime : Option Double) :
    Except ServiceError Answer :=
  match decode flight.catalog flight.plan raw searchTime with
  | .ok (answer, _) => .ok answer
  | .error e => .error (.reply e)

/-- The time of a search is only written down. -/
theorem InFlight.untimed_outcome (flight : InFlight) (raw : Json) (searchTime : Option Double) :
    (flight.outcome raw searchTime).map Answer.untimed =
      (flight.outcome raw none).map Answer.untimed := by
  unfold outcome decode
  cases Reply.read raw with
  | error e => rfl
  | ok reply => rfl

/-- What comes of asking the engine. -/
def Engine.outcome : Engine → Except ServiceError Json
  | canned reply => .ok reply
  | failing e => .error (.engine e)

namespace Service

theorem run_send_fst (s : Service) (flight : InFlight) :
    (s.run (send flight)).1 = s.engine.outcome := by
  rw [run_send]
  cases s.engine <;> rfl

theorem run_finish_fst (s : Service) (flight : InFlight) (raw : Json)
    (searchTime : Option Double) :
    (s.run (finish flight raw searchTime)).1 = flight.outcome raw searchTime := by
  rw [run_finish, InFlight.outcome]
  cases FlatQuery.decode flight.catalog flight.plan raw searchTime <;> rfl

theorem run_decode_fst (s : Service) (r : Request) (raw : Json) :
    (s.run (decode r raw)).1 = match FlatQuery.compile s.catalog s.settings r with
      | .ok plan => InFlight.outcome ⟨s.catalog, plan⟩ raw none
      | .error rejection => .error (.rejected rejection) := by
  rw [decode, run_start_bind]
  cases FlatQuery.compile s.catalog s.settings r with
  | ok plan => exact run_finish_fst _ _ _ _
  | error rejection => rfl

end Service

namespace Interleaving

/-! ## Searches under way -/

/-- A step of a search, or a change of the catalog. Searches are numbered as they start. -/
inductive Event where
  | start (r : Request)
  | reply (i : Nat) (engine : Engine)
  | finish (i : Nat) (elapsed : Double)
  | replace (c : Catalog)
  | reload (name : String) (file : Except FileFault String)

namespace Event

/-- What the engine does, if the event is a reply to the search `i`. -/
def replyTo? (i : Nat) : Event → Option Engine
  | reply j engine => if j = i then some engine else none
  | _ => none

/-- The time of the search `i`, if the event is its end. -/
def finishOf? (i : Nat) : Event → Option Double
  | finish j elapsed => if j = i then some elapsed else none
  | _ => none

end Event

/-- How far a search is. -/
inductive Stage where
  | sent (flight : InFlight)
  | replied (flight : InFlight) (raw : Json)
  | ended (outcome : Except ServiceError Answer)

namespace Stage

def ofStart : Except ServiceError InFlight → Stage
  | .ok flight => sent flight
  | .error e => ended (.error e)

def ofReply (flight : InFlight) : Except ServiceError Json → Stage
  | .ok raw => replied flight raw
  | .error e => ended (.error e)

/-- What has come of a search that has ended. -/
def outcome? : Stage → Option (Except ServiceError Answer)
  | ended outcome => some outcome
  | _ => none

/-- Asks the engine as it is now. -/
def reply (engine : Engine) (s : Service) : Stage → Stage × Service
  | sent flight =>
    let (outcome, s) := { s with engine }.run (Service.send flight)
    (ofReply flight outcome, s)
  | stage => (stage, s)

def finish (elapsed : Double) (s : Service) : Stage → Stage × Service
  | replied flight raw =>
    let (outcome, s) := s.run (Service.finish flight raw (some elapsed))
    (ended outcome, s)
  | stage => (stage, s)

end Stage

/-- A service with its searches. -/
structure World where
  service : Service
  searches : List Stage := []

namespace World

/-- Takes the search `i` from its stage to the next. -/
def advance (w : World) (i : Nat) (f : Service → Stage → Stage × Service) : World :=
  match w.searches[i]? with
  | some stage =>
    let (stage, service) := f w.service stage
    ⟨service, w.searches.set i stage⟩
  | none => w

/-- An event that does not fit the stage of its search changes nothing. -/
def step (w : World) : Event → World
  | .start r =>
    let (outcome, service) := w.service.run (Service.start r)
    ⟨service, w.searches ++ [.ofStart outcome]⟩
  | .reply i engine => w.advance i (Stage.reply engine)
  | .finish i elapsed => w.advance i (Stage.finish elapsed)
  | .replace c => { w with service := (w.service.run (Service.replace c)).2 }
  | .reload name file => { w with service := (w.service.run (Service.reload name file)).2 }

def run (w : World) (events : List Event) : World :=
  events.foldl step w

/-- What has come of the search `i`. -/
def outcome? (w : World) (i : Nat) : Option (Except ServiceError Answer) :=
  w.searches[i]?.bind Stage.outcome?

end World

/-! ## The stages of one search -/

namespace Stage

variable {i : Nat} {e : Event}

/-- What an event makes of the search `i`. -/
def next (i : Nat) (stage : Stage) (e : Event) : Stage :=
  match stage with
  | sent flight =>
    match e.replyTo? i with
    | some engine => ofReply flight engine.outcome
    | none => sent flight
  | replied flight raw =>
    match e.finishOf? i with
    | some elapsed => ended (flight.outcome raw (some elapsed))
    | none => replied flight raw
  | ended outcome => ended outcome

/-- The events of other searches are nothing to a search. -/
theorem next_eq_self (stage : Stage) (hreply : e.replyTo? i = none)
    (hfinish : e.finishOf? i = none) : stage.next i e = stage := by
  cases stage <;> simp [next, hreply, hfinish]

theorem reply_fst (stage : Stage) (engine : Engine) (s : Service) :
    (stage.reply engine s).1 = stage.next i (.reply i engine) := by
  cases stage with
  | sent flight => simp [reply, next, Event.replyTo?, Service.run_send_fst]
  | replied flight raw => rfl
  | ended outcome => rfl

theorem finish_fst (stage : Stage) (elapsed : Double) (s : Service) :
    (stage.finish elapsed s).1 = stage.next i (.finish i elapsed) := by
  cases stage with
  | sent flight => rfl
  | replied flight raw => simp [finish, next, Event.finishOf?, Service.run_finish_fst]
  | ended outcome => rfl

theorem foldl_next_ended (i : Nat) (outcome : Except ServiceError Answer) (events : List Event) :
    events.foldl (next i) (ended outcome) = ended outcome := by
  induction events with
  | nil => rfl
  | cons e events ih => exact ih

theorem foldl_next_replied (i : Nat) (flight : InFlight) (raw : Json) (events : List Event) :
    events.foldl (next i) (replied flight raw) =
      match events.findSome? (Event.finishOf? i) with
      | some elapsed => ended (flight.outcome raw (some elapsed))
      | none => replied flight raw := by
  induction events with
  | nil => rfl
  | cons e events ih =>
    rw [List.foldl_cons, List.findSome?_cons]
    cases h : e.finishOf? i with
    | none => simp [next, h, ih]
    | some elapsed => simp [next, h, foldl_next_ended]

/-- Until there is a reply, events leave a search as it is. -/
theorem foldl_next_sent (flight : InFlight) {events : List Event}
    (h : ∀ e ∈ events, e.replyTo? i = none) :
    events.foldl (next i) (sent flight) = sent flight := by
  induction events with
  | nil => rfl
  | cons e events ih =>
    obtain ⟨he, hevents⟩ := List.forall_mem_cons.1 h
    have hstays : next i (sent flight) e = sent flight := by simp [next, he]
    rw [List.foldl_cons, hstays, ih hevents]

/-- The first reply to a search is the one that is read, as soon as the search is finished. -/
theorem outcome?_foldl_next_of_reply (flight : InFlight) (raw : Json) {waiting rest : List Event}
    (h : ∀ e ∈ waiting, e.replyTo? i = none) :
    ((waiting ++ .reply i (.canned raw) :: rest).foldl (next i) (sent flight)).outcome? =
      (rest.findSome? (Event.finishOf? i)).map fun elapsed =>
        flight.outcome raw (some elapsed) := by
  have hreplied : next i (sent flight) (.reply i (.canned raw)) = replied flight raw := by
    simp [next, Event.replyTo?, Engine.outcome, ofReply]
  rw [List.foldl_append, foldl_next_sent flight h, List.foldl_cons, hreplied, foldl_next_replied]
  cases rest.findSome? (Event.finishOf? i) <;> rfl

end Stage

/-! ## Steps and runs

What becomes of the search `i` in a run is found by following its own stage through the events.
-/

namespace World

variable {w : World} {i j : Nat} {stage : Stage} {f : Service → Stage → Stage × Service}

theorem getElem?_advance_self (h : w.searches[i]? = some stage) :
    (w.advance i f).searches[i]? = some (f w.service stage).1 := by
  have hlt : i < w.searches.length := (List.getElem?_eq_some_iff.1 h).1
  simp only [advance, h]
  exact List.getElem?_set_self hlt

theorem getElem?_advance_of_ne (w : World) (f : Service → Stage → Stage × Service) (h : j ≠ i) :
    (w.advance j f).searches[i]? = w.searches[i]? := by
  unfold advance
  split
  · exact List.getElem?_set_ne h
  · rfl

/-- An event makes of a search what its own stage says. -/
theorem getElem?_step (h : w.searches[i]? = some stage) (e : Event) :
    (w.step e).searches[i]? = some (stage.next i e) := by
  cases e with
  | start r =>
    rw [stage.next_eq_self rfl rfl, ← h]
    exact List.getElem?_append_left (List.getElem?_eq_some_iff.1 h).1
  | reply j engine =>
    by_cases hj : j = i
    · subst hj
      rw [← stage.reply_fst engine w.service]
      exact getElem?_advance_self h
    · have hother : (Event.reply j engine).replyTo? i = none := if_neg hj
      rw [stage.next_eq_self hother rfl, ← h]
      exact getElem?_advance_of_ne w _ hj
  | finish j elapsed =>
    by_cases hj : j = i
    · subst hj
      rw [← stage.finish_fst elapsed w.service]
      exact getElem?_advance_self h
    · have hother : (Event.finish j elapsed).finishOf? i = none := if_neg hj
      rw [stage.next_eq_self rfl hother, ← h]
      exact getElem?_advance_of_ne w _ hj
  | replace c => rw [stage.next_eq_self rfl rfl, ← h, step]
  | reload name file => rw [stage.next_eq_self rfl rfl, ← h, step]

theorem getElem?_run (h : w.searches[i]? = some stage) (events : List Event) :
    (w.run events).searches[i]? = some (events.foldl (Stage.next i) stage) := by
  induction events generalizing w stage with
  | nil => exact h
  | cons e events ih => exact ih (getElem?_step h e)

theorem settings_advance (hf : ∀ stage, (f w.service stage).2.settings = w.service.settings) :
    (w.advance i f).service.settings = w.service.settings := by
  unfold advance
  split
  · exact hf _
  · rfl

/-- No event changes the settings. -/
theorem settings_step (w : World) (e : Event) :
    (w.step e).service.settings = w.service.settings := by
  cases e with
  | start r =>
    rw [step, Service.run_start]
    cases FlatQuery.compile w.service.catalog w.service.settings r <;> rfl
  | reply i engine =>
    refine settings_advance fun stage => ?_
    cases stage with
    | sent flight =>
      simp only [Stage.reply, Service.run_send]
      cases engine.answer <;> rfl
    | replied flight raw => rfl
    | ended outcome => rfl
  | finish i elapsed =>
    refine settings_advance fun stage => ?_
    cases stage with
    | sent flight => rfl
    | replied flight raw =>
      simp only [Stage.finish, Service.run_finish]
      cases FlatQuery.decode flight.catalog flight.plan raw (some elapsed) <;> rfl
    | ended outcome => rfl
  | replace c => rfl
  | reload name file =>
    rw [step, Service.run_reload]
    cases Service.loadCatalog name file <;> rfl

theorem settings_run (w : World) (events : List Event) :
    (w.run events).service.settings = w.service.settings := by
  induction events generalizing w with
  | nil => rfl
  | cons e events ih => exact (ih (w.step e)).trans (settings_step w e)

/-! ## Isolation -/

/-- A search that starts gets the next number. -/
theorem outcome?_run_start (w : World) (r : Request) (events : List Event) :
    (w.run (.start r :: events)).outcome? w.searches.length =
      (events.foldl (Stage.next w.searches.length)
        (.ofStart (w.service.run (Service.start r)).1)).outcome? := by
  have hstage : (w.step (.start r)).searches[w.searches.length]? =
      some (.ofStart (w.service.run (Service.start r)).1) := List.getElem?_concat_length
  exact congrArg (Option.bind · Stage.outcome?) (getElem?_run hstage events)

/-- A search whose steps follow each other at once is `Service.search`. -/
theorem outcome?_search (w : World) (r : Request) (engine : Engine) (elapsed : Double) :
    (w.run [.start r, .reply w.searches.length engine, .finish w.searches.length elapsed]).outcome?
        w.searches.length =
      some ({ w.service with engine }.run (Service.search r elapsed)).1 := by
  rw [outcome?_run_start, Service.run_start]
  cases h : FlatQuery.compile w.service.catalog w.service.settings r with
  | error rejection =>
    rw [Service.run_search_of_rejected (s := { w.service with engine }) h]
    rfl
  | ok plan =>
    rw [Service.run_search_of_ok (s := { w.service with engine }) h]
    cases engine with
    | failing e =>
      simp [Stage.ofStart, Stage.next, Event.replyTo?, Engine.outcome, Stage.ofReply,
        Stage.outcome?, Engine.answer]
    | canned raw =>
      simp [Stage.ofStart, Stage.next, Event.replyTo?, Event.finishOf?, Engine.outcome,
        Stage.ofReply, Stage.outcome?, Engine.answer, Service.run_finish_fst]

theorem outcome?_of_rejected {r : Request} {rejection : Rejection}
    (h : compile w.service.catalog w.service.settings r = .error rejection) (events : List Event) :
    (w.run (.start r :: events)).outcome? w.searches.length =
      some (.error (.rejected rejection)) := by
  rw [outcome?_run_start, Service.run_start, h]
  exact congrArg Stage.outcome? (Stage.foldl_next_ended _ _ events)

theorem outcome?_of_reply {r : Request} {plan : Plan} {waiting rest : List Event}
    (h : compile w.service.catalog w.service.settings r = .ok plan) (raw : Json)
    (hwaiting : ∀ e ∈ waiting, e.replyTo? w.searches.length = none) :
    (w.run (.start r :: (waiting ++ .reply w.searches.length (.canned raw) :: rest))).outcome?
        w.searches.length =
      (rest.findSome? (Event.finishOf? w.searches.length)).map fun elapsed =>
        InFlight.outcome ⟨w.service.catalog, plan⟩ raw (some elapsed) := by
  rw [outcome?_run_start, Service.run_start, h]
  exact Stage.outcome?_foldl_next_of_reply _ raw hwaiting

/-- A search that starts after some events and goes on among others: if its request is rejected, or
if the engine replies to it, its outcome is that of `Service.decode` alone, on the catalog of its
start and the reply. -/
theorem outcome_eq_decode (s : Service) (before after : List Event) (r : Request) :
    let w := run ⟨s, []⟩ before
    let i := w.searches.length
    let outcome? := (run ⟨s, []⟩ (before ++ .start r :: after)).outcome? i
    let alone (raw : Json) := ({ s with catalog := w.service.catalog }.run (Service.decode r raw)).1
    (∀ rejection, compile w.service.catalog s.settings r = .error rejection →
      ∀ raw, outcome? = some (alone raw)) ∧
    ∀ waiting raw rest, after = waiting ++ .reply i (.canned raw) :: rest →
      (∀ e ∈ waiting, e.replyTo? i = none) →
      (∀ outcome, outcome? = some outcome →
        outcome.map Answer.untimed = (alone raw).map Answer.untimed) ∧
      ∀ elapsed, .finish i elapsed ∈ rest → outcome?.isSome := by
  intro w i outcome? alone
  have hrun : outcome? = (w.run (.start r :: after)).outcome? i :=
    congrArg (World.outcome? · i) List.foldl_append
  have hsettings : w.service.settings = s.settings := settings_run _ before
  cases h : compile w.service.catalog s.settings r with
  | error rejection =>
    have halone : ∀ raw, alone raw = .error (.rejected rejection) := fun raw => by
      simp only [alone, Service.run_decode_fst, h]
    have hended : outcome? = some (.error (.rejected rejection)) :=
      hrun.trans (outcome?_of_rejected (hsettings ▸ h) after)
    simp [hended, halone]
  | ok plan =>
    have halone : ∀ raw, alone raw = InFlight.outcome ⟨w.service.catalog, plan⟩ raw none :=
      fun raw => by simp only [alone, Service.run_decode_fst, h]
    refine ⟨by simp, ?_⟩
    rintro waiting raw rest rfl hwaiting
    rw [hrun, outcome?_of_reply (hsettings ▸ h) raw hwaiting, halone]
    constructor
    · intro outcome houtcome
      obtain ⟨elapsed, -, rfl⟩ := Option.map_eq_some_iff.1 houtcome
      exact InFlight.untimed_outcome _ raw _
    · intro elapsed hfinish
      rw [Option.isSome_map, List.findSome?_isSome_iff]
      exact ⟨_, hfinish, by simp [Event.finishOf?, i]⟩

/-- Tags are subdocuments in this catalog, which the other catalog does not say. -/
def tagService : Service where
  catalog := { nested := ⟨["tags"], List.pairwise_singleton _ _⟩ }

def tagReply : Json :=
  let hit := Json.ofMembers [("fields", .ofMembers [("tags", .arr [.str "a"])])]
  .ofMembers [("hits", .ofMembers [("hits", .arr [hit])])]

/-- The one tag stays in its list although the catalog is replaced before the reply is read. -/
theorem outcome_of_replaced_catalog :
    ((run ⟨tagService, []⟩ [.start { options := { fields := ["tags"] } }, .replace {},
        .reply 0 (.canned tagReply), .finish 0 .zero]).outcome? 0).map
      (Except.map Answer.documents) = some (.ok [.obj [("tags", .arr [.str "a"])]]) := by
  obtain ⟨-, hreply⟩ := outcome_eq_decode tagService []
    [.replace {}, .reply 0 (.canned tagReply), .finish 0 .zero]
    { options := { fields := ["tags"] } }
  obtain ⟨heq, hsome⟩ := hreply [.replace {}] tagReply [.finish 0 .zero] rfl
    (List.forall_mem_singleton.2 rfl)
  obtain ⟨outcome, houtcome⟩ := Option.isSome_iff_exists.1 (hsome .zero (List.mem_singleton_self _))
  have hdocuments : outcome.map Answer.documents =
      (outcome.map Answer.untimed).map Answer.documents := by cases outcome <;> rfl
  rw [heq outcome houtcome] at hdocuments
  exact (congrArg (Option.map (Except.map Answer.documents)) houtcome).trans
    (congrArg some hdocuments)

end World

end Interleaving

end FlatQuery
