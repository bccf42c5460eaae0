import FlatQuery.Proofs.ServiceSteps

/-!
# Reloads that overlap

A reload reads the catalog file, puts the catalog in place, and takes the snapshot that it returns.
Each step is made at once, but several reloads may be under way, and the file may be written between
their steps. The catalog that stays is the one that was put in place last (`catalog_of_complete`).
It is the one that was read last as long as catalogs are put in place in the order of their
readings, which nothing ensures (`older_catalog_stays`).
-/

namespace FlatQuery.Reloading

/-- How far a reload is. -/
inductive Stage where
  | read (c : Catalog)
  | placed (c : Catalog)
  | returned (c snapshot : Catalog)
  | failed (e : CatalogError)

namespace Stage

def ofRead : Except CatalogError Catalog → Stage
  | .ok c => read c
  | .error e => failed e

/-- The catalog that the reload has read. -/
def parsed? : Stage → Option Catalog
  | read c | placed c | returned c _ => some c
  | failed _ => none

def isPlaced : Stage → Bool
  | placed _ | returned .. => true
  | read _ | failed _ => false

def isOver : Stage → Bool
  | returned .. | failed _ => true
  | read _ | placed _ => false

end Stage

/-- A step of a reload, or of whoever writes the file. Reloads are numbered as they read it. -/
inductive Event where
  | write (file : Except FileFault String)
  | read
  | place (i : Nat)
  | snapshot (i : Nat)

/-- A service with its reloads, and what the catalog file holds. -/
structure World where
  service : Service
  file : Except FileFault String
  reloads : List Stage := []
  /-- The reloads whose catalogs have been put in place, the last one first. -/
  places : List Nat := []

namespace World

/-- Puts the catalog of a reload that has read it in place. -/
def place (w : World) (i : Nat) : World :=
  match w.reloads[i]? with
  | some (.read c) =>
    { w with
      service := (w.service.run (Service.replace c)).2
      reloads := w.reloads.set i (.placed c)
      places := i :: w.places }
  | _ => w

/-- Takes the snapshot that a reload returns. -/
def snapshot (w : World) (i : Nat) : World :=
  match w.reloads[i]? with
  | some (.placed c) => { w with reloads := w.reloads.set i (.returned c w.service.catalog) }
  | _ => w

/-- An event that does not fit the stage of its reload changes nothing. -/
def step (name : String) (w : World) : Event → World
  | .write file => { w with file }
  | .read => { w with reloads := w.reloads ++ [.ofRead (Service.loadCatalog name w.file)] }
  | .place i => w.place i
  | .snapshot i => w.snapshot i

def run (name : String) (w : World) (events : List Event) : World :=
  events.foldl (step name) w

/-- The catalog that the reload `i` has read. -/
def parsed? (w : World) (i : Nat) : Option Catalog :=
  (w.reloads[i]?.map Stage.parsed?).join

/-- All reloads that have begun are over. -/
def isComplete (w : World) : Bool :=
  w.reloads.all Stage.isOver

variable {name : String} {w : World} {i : Nat}

theorem place_cases (w : World) (i : Nat) :
    (∃ c, w.reloads[i]? = some (.read c) ∧ w.place i =
      { w with
        service := { w.service with catalog := c }
        reloads := w.reloads.set i (.placed c)
        places := i :: w.places }) ∨ w.place i = w := by
  unfold place
  split
  · exact .inl ⟨_, ‹_›, rfl⟩
  · exact .inr rfl

theorem snapshot_cases (w : World) (i : Nat) :
    (∃ c, w.reloads[i]? = some (.placed c) ∧
      w.snapshot i = { w with reloads := w.reloads.set i (.returned c w.service.catalog) }) ∨
    w.snapshot i = w := by
  unfold snapshot
  split
  · exact .inl ⟨_, ‹_›, rfl⟩
  · exact .inr rfl

/-! ## What is read -/

theorem length_reloads_step (name : String) (w : World) (e : Event) :
    w.reloads.length ≤ (w.step name e).reloads.length := by
  cases e with
  | write file => exact Nat.le_refl _
  | read => simp [step]
  | place i => obtain ⟨c, -, h⟩ | h := w.place_cases i <;> simp [step, h]
  | snapshot i => obtain ⟨c, -, h⟩ | h := w.snapshot_cases i <;> simp [step, h]

/-- What is the same of a new element and of the old one stays the same everywhere. -/
theorem map_getElem?_set {α β : Type} {f : α → β} {l : List α} {a : α} (h : l[i]? = some a)
    (b : α) (hf : f b = f a) (j : Nat) : (l.set i b)[j]?.map f = l[j]?.map f := by
  by_cases hij : i = j
  · subst hij
    rw [List.getElem?_set_self (List.getElem?_eq_some_iff.1 h).1, h]
    exact congrArg some hf
  · rw [List.getElem?_set_ne hij]

/-- A reload reads the file once. -/
theorem parsed?_step (h : i < w.reloads.length) (e : Event) :
    (w.step name e).parsed? i = w.parsed? i := by
  cases e with
  | write file => rfl
  | read => simp [parsed?, step, List.getElem?_append_left h]
  | place j =>
    obtain ⟨c, hread, hplace⟩ | hplace := w.place_cases j <;> rw [step, hplace]
    exact congrArg Option.join (map_getElem?_set hread (.placed c) rfl i)
  | snapshot j =>
    obtain ⟨c, hplaced, hsnapshot⟩ | hsnapshot := w.snapshot_cases j <;> rw [step, hsnapshot]
    exact congrArg Option.join (map_getElem?_set hplaced (.returned c w.service.catalog) rfl i)

theorem parsed?_run (h : i < w.reloads.length) (events : List Event) :
    (w.run name events).parsed? i = w.parsed? i := by
  induction events generalizing w with
  | nil => rfl
  | cons e events ih =>
    exact (ih (Nat.lt_of_lt_of_le h (length_reloads_step name w e))).trans (parsed?_step h e)

/-- The catalog of a reload is the one that the file holds when it is read. -/
theorem parsed?_run_read (name : String) (w : World) (events : List Event) :
    (w.run name (.read :: events)).parsed? w.reloads.length =
      (Service.loadCatalog name w.file).toOption := by
  have hlt : w.reloads.length < (w.step name .read).reloads.length := by simp [step]
  refine (parsed?_run hlt events).trans ?_
  cases h : Service.loadCatalog name w.file <;>
    simp [parsed?, step, h, Stage.ofRead, Stage.parsed?, Except.toOption]

/-! ## What is put in place -/

/-- What holds at any time, if `initial` is the catalog that is current before all reloads. -/
structure Invariant (initial : Catalog) (w : World) : Prop where
  mem_places : ∀ i, i ∈ w.places ↔ w.reloads[i]?.map Stage.isPlaced = some true
  initial : w.places = [] → w.service.catalog = initial
  current : ∀ i, w.places.head? = some i → w.parsed? i = some w.service.catalog

theorem Invariant.lt_length {initial : Catalog} (h : Invariant initial w) (hi : i ∈ w.places) :
    i < w.reloads.length := by
  obtain ⟨stage, hstage, -⟩ := Option.map_eq_some_iff.1 ((h.mem_places i).1 hi)
  exact (List.getElem?_eq_some_iff.1 hstage).1

theorem Invariant.step {initial : Catalog} (h : Invariant initial w) (e : Event) :
    Invariant initial (w.step name e) := by
  cases e with
  | write file => exact ⟨h.mem_places, h.initial, h.current⟩
  | read =>
    refine ⟨fun i => (h.mem_places i).trans ?_, h.initial, fun i hi => ?_⟩
    · obtain hi | hi := Nat.lt_or_ge i w.reloads.length
      · rw [World.step, List.getElem?_append_left hi]
      · rw [World.step, List.getElem?_append_right hi, List.getElem?_eq_none hi,
          List.getElem?_singleton]
        cases Service.loadCatalog name w.file <;> split <;> simp [Stage.ofRead, Stage.isPlaced]
    · have hread : (w.step name .read).parsed? i = w.parsed? i :=
        parsed?_step (h.lt_length (List.mem_of_head? hi)) _
      exact hread.trans (h.current i hi)
  | place i =>
    obtain ⟨c, hread, hplace⟩ | hplace := w.place_cases i <;> rw [World.step, hplace]
    · have hi : i < w.reloads.length := (List.getElem?_eq_some_iff.1 hread).1
      refine ⟨fun j => ?_, nofun, fun j hj => ?_⟩
      · by_cases hij : i = j
        · subst hij
          simp [hi, Stage.isPlaced]
        · rw [List.getElem?_set_ne hij, ← h.mem_places, List.mem_cons, or_iff_right (Ne.symm hij)]
      · obtain rfl := Option.some.inj hj
        simp [parsed?, hi, Stage.parsed?]
    · exact h
  | snapshot i =>
    obtain ⟨c, hplaced, hsnapshot⟩ | hsnapshot := w.snapshot_cases i <;>
      rw [World.step, hsnapshot]
    · have hparsed := map_getElem?_set (f := Stage.parsed?) hplaced
        (.returned c w.service.catalog) rfl
      have hisPlaced := map_getElem?_set (f := Stage.isPlaced) hplaced
        (.returned c w.service.catalog) rfl
      refine ⟨fun j => ?_, h.initial, fun j hj => ?_⟩
      · rw [hisPlaced, ← h.mem_places]
      · exact (congrArg Option.join (hparsed j)).trans (h.current j hj)
    · exact h

theorem invariant_run (name : String) (service : Service) (file : Except FileFault String)
    (events : List Event) :
    Invariant service.catalog (run name ⟨service, file, [], []⟩ events) := by
  have hstart : Invariant service.catalog ⟨service, file, [], []⟩ :=
    ⟨by simp, fun _ => rfl, nofun⟩
  -- The induction is on the events, from any world that keeps the invariant.
  generalize (⟨service, file, [], []⟩ : World) = w at hstart ⊢
  induction events generalizing w with
  | nil => exact hstart
  | cons e events ih => exact ih _ (hstart.step e)

/-- A reload whose steps follow each other at once leaves the catalog that `Service.reload` leaves,
and returns what that returns. -/
theorem run_reload (name : String) (w : World) :
    let w' := w.run name [.read, .place w.reloads.length, .snapshot w.reloads.length]
    let (outcome, service) := w.service.run (Service.reload name w.file)
    w'.service.catalog = service.catalog ∧ w'.reloads = w.reloads ++
      [match outcome with
        | .ok c => .returned c c
        | .error _ => .ofRead (Service.loadCatalog name w.file)] := by
  rw [Service.run_reload]
  cases h : Service.loadCatalog name w.file <;>
    simp [run, step, place, snapshot, h, Stage.ofRead, Service.run_replace]

/-- Once all reloads are over, those that have read a catalog have put it in place. -/
theorem Invariant.mem_places_iff {initial : Catalog} (h : Invariant initial w)
    (hcomplete : w.isComplete) : i ∈ w.places ↔ ∃ c, w.parsed? i = some c := by
  rw [h.mem_places]
  cases hstage : w.reloads[i]? with
  | none => simp [parsed?, hstage]
  | some stage =>
    have hover : stage.isOver := List.all_eq_true.1 hcomplete _ (List.mem_of_getElem? hstage)
    cases stage <;> simp_all [parsed?, Stage.isPlaced, Stage.parsed?, Stage.isOver]

/-- If catalogs are put in place in the order of their readings, the one read last stays. -/
theorem Invariant.catalog_eq_of_ordered {initial c : Catalog} (h : Invariant initial w)
    (hcomplete : w.isComplete) (hordered : w.places.Pairwise (· > ·))
    (hlast : w.parsed? (w.reloads.length - 1) = some c) : w.service.catalog = c := by
  have hmem : w.reloads.length - 1 ∈ w.places := (h.mem_places_iff hcomplete).2 ⟨c, hlast⟩
  cases hplaces : w.places with
  | nil => simp [hplaces] at hmem
  | cons j places =>
    have hcurrent := h.current j (by rw [hplaces, List.head?_cons])
    have hj : j < w.reloads.length := h.lt_length (hplaces ▸ List.mem_cons_self)
    rw [hplaces] at hmem hordered
    -- Whatever was placed earlier was also read earlier, so the last reader was placed last.
    obtain heq | hmem := List.mem_cons.1 hmem
    · rw [heq, hcurrent] at hlast
      exact Option.some.inj hlast
    · have hlt := List.rel_of_pairwise_cons hordered hmem
      omega

/-- Once all reloads that have begun are over, the current catalog is the one that was put in place
last. Each reload that has read a catalog, from the file as it then was, has put it in place; so the
catalog is the one that was read last if they are put in place in the order of their readings. -/
theorem catalog_of_complete (name : String) (service : Service) (file : Except FileFault String)
    (events : List Event) :
    let w₀ : World := ⟨service, file, [], []⟩
    let w := run name w₀ events
    w.isComplete →
      (∀ before after, events = before ++ .read :: after →
        w.parsed? (run name w₀ before).reloads.length =
          (Service.loadCatalog name (run name w₀ before).file).toOption) ∧
      (∀ i, i ∈ w.places ↔ ∃ c, w.parsed? i = some c) ∧
      (w.places = [] → w.service.catalog = service.catalog) ∧
      (∀ i, w.places.head? = some i → w.parsed? i = some w.service.catalog) ∧
      (w.places.Pairwise (· > ·) → ∀ c, w.parsed? (w.reloads.length - 1) = some c →
        w.service.catalog = c) := by
  intro w₀ w hcomplete
  have h : Invariant service.catalog w := invariant_run name service file events
  refine ⟨?_, fun i => h.mem_places_iff hcomplete, h.initial, h.current,
    fun hordered c hlast => h.catalog_eq_of_ordered hcomplete hordered hlast⟩
  rintro before after rfl
  have happend : w = run name (run name w₀ before) (.read :: after) := List.foldl_append
  rw [happend, parsed?_run_read]

/-! ## Two reloads -/

def integerFile : String := "\x7b\"field_types\":\x7b\"size\":\"integer\"\x7d\x7d"

def floatFile : String := "\x7b\"field_types\":\x7b\"size\":\"float\"\x7d\x7d"

/-- The file is written between the readings of two reloads, which then put their catalogs in place
in either order. -/
def twoReloads (first second : Nat) : List Event :=
  [.read, .write (.ok floatFile), .read, .place first, .place second, .snapshot 0, .snapshot 1]

def afterTwoReloads (first second : Nat) : World :=
  run "catalog.json" ⟨{ catalog := {} }, .ok integerFile, [], []⟩ (twoReloads first second)

/-- The reload that has read last puts its catalog in place last. -/
theorem newer_catalog_stays : (afterTwoReloads 0 1).service.catalog.kind "size" = .float := by
  have hcomplete : (afterTwoReloads 0 1).isComplete := by decide +kernel
  have hordered : (afterTwoReloads 0 1).places.Pairwise (· > ·) := by decide +kernel
  have hlast : ((afterTwoReloads 0 1).parsed? ((afterTwoReloads 0 1).reloads.length - 1)).map
      (·.kind "size") = some .float := by decide +kernel
  obtain ⟨c, hparsed, hkind⟩ := Option.map_eq_some_iff.1 hlast
  unfold afterTwoReloads at hcomplete hordered hparsed ⊢
  obtain ⟨-, -, -, -, hcurrent⟩ := catalog_of_complete "catalog.json" { catalog := {} }
    (.ok integerFile) (twoReloads 0 1) hcomplete
  rw [hcurrent hordered c hparsed, hkind]

/-- The reload that has read first puts its catalog in place last, so the older one stays. -/
theorem older_catalog_stays :
    ¬∀ (name : String) (service : Service) (file : Except FileFault String) (events : List Event),
      (Service.loadCatalog name file).isOk →
      (∀ file', .write file' ∈ events → (Service.loadCatalog name file').isOk) →
      let w := run name ⟨service, file, [], []⟩ events
      w.isComplete → w.reloads ≠ [] →
        w.parsed? (w.reloads.length - 1) = some w.service.catalog := by
  intro hall
  have hwrites : ∀ file', .write file' ∈ twoReloads 1 0 →
      (Service.loadCatalog "catalog.json" file').isOk := by
    intro file' hmem
    obtain rfl : file' = .ok floatFile := by simpa [twoReloads] using hmem
    decide +kernel
  have hcomplete : (afterTwoReloads 1 0).isComplete := by decide +kernel
  have hlength : (afterTwoReloads 1 0).reloads.length = 2 := by decide +kernel
  have hkinds : ((afterTwoReloads 1 0).parsed? ((afterTwoReloads 1 0).reloads.length - 1)).map
      (·.kind "size") ≠ some ((afterTwoReloads 1 0).service.catalog.kind "size") := by
    decide +kernel
  unfold afterTwoReloads at hcomplete hlength hkinds
  have hlast := hall "catalog.json" { catalog := {} } (.ok integerFile) (twoReloads 1 0)
    (by decide +kernel) hwrites hcomplete (List.ne_nil_of_length_eq_add_one hlength)
  rw [hlast] at hkinds
  exact hkinds rfl

end World

end FlatQuery.Reloading
