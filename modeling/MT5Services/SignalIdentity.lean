import MT5Services.SignalStates

/-!
The ids of signals. A published event carries a `signal_id`, and so does the record that is
stored for it; what is known of the event later is written under the id of the event. The
events are the ones of the signal state machine, with the ids that are drawn on the way.
-/
namespace MT5Services.SignalIdentity

open Runs SignalStates
open SignalQueues (Scope)

/-- `uuid4().hex`. -/
structure Uuid where
  hex : String
  length_hex : hex.length = 32

/-- `uuid4().hex[:12]`. -/
def Uuid.short (id : Uuid) : String := String.ofList (id.hex.toList.take 12)

theorem Uuid.length_short (id : Uuid) : id.short.length = 12 := by
  have hlength : id.hex.toList.length = 32 := id.length_hex
  rw [short, String.length_ofList, List.length_take, hlength]
  rfl

/-- The ids drawn while a decision is published: of the record and of the event. -/
structure Draws where
  record : Uuid
  event : Uuid

structure SignalRecord extends Row where
  signalId : String
  direction : Option Side
  deriving DecidableEq

structure SignalEvent (V : Type*) extends Published V where
  signalId : String
  direction : Option Side
  scope : Scope
  deriving DecidableEq

variable {V : Type*}

/-- A published event and what `persist_decision` returned for it. -/
structure Publication (V : Type*) where
  event : SignalEvent V
  record : Option SignalRecord
  deriving DecidableEq

/-- `none` when there is no repository or the write fails. -/
def persistDecision (d : Delivery V) (signalState : SignalState) (draws : Draws) :
    Option SignalRecord :=
  if d.persisted then
    some {
      target := d.target
      signalState := signalState
      generatedAt := d.timestamp
      barTime := d.barTime
      signalId := draws.record.hex
      direction := d.direction }
  else none

def signalEvent (d : Delivery V) (signalState : SignalState) (signalId : String) :
    SignalEvent V where
  target := d.target
  signalState := signalState
  barTime := d.barTime
  indicators := d.indicators
  signalId := signalId
  direction := d.direction
  scope := d.scope

/-- The armed signal of the coordinator. -/
def publishArmed (d : Delivery V) (side : Side) (draws : Draws) : Publication V where
  event := signalEvent d (.intrabarArmed side) draws.event.short
  record := persistDecision d (.intrabarArmed side) draws

/-- The signal of a transition. -/
def publishTransition (d : Delivery V) (t : Transition) (draws : Draws) : Publication V :=
  if t.stateChanged then
    let record := persistDecision d t.signalState draws
    let signalId :=
      match record with
      | some record => record.signalId
      | none => draws.event.short
    ⟨signalEvent d t.signalState signalId, record⟩
  else if d.direction.isSome then ⟨signalEvent d t.signalState draws.event.short, none⟩
  else ⟨signalEvent d t.signalState "", none⟩

/-- What `transition_and_publish` publishes for a snapshot that was found new. -/
def publication (state : RuntimeSignalState) (d : Delivery V) (draws : Draws) :
    Option (Publication V) :=
  match d.scope, d.direction with
  | .confirmed, direction =>
    (transitionConfirmed state direction d.eventTime d.barTime).2.map fun t =>
      publishTransition d t draws
  | .tickDerived, some side => some (publishTransition d ⟨.tickDerived side, true⟩ draws)
  | .intrabar, some side => if d.armed then some (publishArmed d side draws) else none
  | .tickDerived, none => none
  | .intrabar, none => none

def publicationOf (c : Config V) (s : Runtime V) (draws : Draws) : Act V → Option (Publication V)
  | .deliver d =>
    match isNewSnapshot c (stateOf s d.target) d with
    | none => none
    | some state => publication state d draws
  | .restart | .newProcess => none

/-- The stored records stand latest first, the publications in order. -/
structure IdentifiedRuntime (V : Type*) where
  signals : Runtime V := SignalStates.start
  stored : List SignalRecord := []
  publications : List (Publication V) := []

def stepIdentified (c : Config V) (s : IdentifiedRuntime V) (act : Act V × Draws) :
    Option (IdentifiedRuntime V) :=
  let published := publicationOf c s.signals act.2 act.1
  (step c s.signals act.1).map fun signals => {
    signals := signals
    stored := (published.bind Publication.record).toList ++ s.stored
    publications := s.publications ++ published.toList }

def SignalEvent.armed (event : SignalEvent V) : Bool :=
  match event.signalState with
  | .intrabarArmed _ => true
  | .confirmed _ | .confirmedCancelled | .tickDerived _ => false

/-- The row that a write under the id finds. -/
def storedUnder (stored : List SignalRecord) (signalId : String) : Option SignalRecord :=
  stored.find? fun record => record.signalId = signalId

/-- The event has the id of its record. -/
def Identified (p : Publication V) : Prop :=
  ∀ record, p.record = some record → p.event.signalId = record.signalId

instance (p : Publication V) : Decidable (Identified p) :=
  inferInstanceAs (Decidable (∀ record ∈ p.record, p.event.signalId = record.signalId))

/-- Where the ids of a publication come from. -/
structure Drawn (p : Publication V) : Prop where
  record : ∀ record, p.record = some record → ∃ id : Uuid, record.signalId = id.hex
  armed : p.event.armed = true → ∃ id : Uuid, p.event.signalId = id.short
  other : p.event.armed = false → Identified p

variable {draws : Draws}

theorem persistDecision_drawn {d : Delivery V} {signalState : SignalState}
    {record : SignalRecord} (h : persistDecision d signalState draws = some record) :
    record.signalId = draws.record.hex := by
  unfold persistDecision at h
  split at h
  · rw [← Option.some.inj h]
  · cases h

theorem publishArmed_drawn (d : Delivery V) (side : Side) (draws : Draws) :
    Drawn (publishArmed d side draws) where
  record := fun _ hrecord => ⟨draws.record, persistDecision_drawn hrecord⟩
  armed := fun _ => ⟨draws.event, rfl⟩
  other := by
    intro hother
    cases hother

variable {p : Publication V}

/-- Nothing is stored for the publication. -/
theorem drawn_of_unrecorded (hrecord : p.record = none)
    (harmed : p.event.armed = false) : Drawn p where
  record := by simp [hrecord]
  armed := by simp [harmed]
  other := by simp [Identified, hrecord]

theorem publishTransition_drawn (d : Delivery V) {t : Transition} (draws : Draws)
    (ht : ∀ side, t.signalState ≠ .intrabarArmed side) : Drawn (publishTransition d t draws) := by
  have hplain (signalId : String) : (signalEvent d t.signalState signalId).armed = false := by
    cases hstate : t.signalState with
    | intrabarArmed side => exact absurd hstate (ht side)
    | confirmed side => rfl
    | confirmedCancelled => rfl
    | tickDerived side => rfl
  unfold publishTransition
  split
  · cases hrecord : persistDecision d t.signalState draws with
    | none => exact drawn_of_unrecorded rfl (hplain _)
    | some stored =>
      refine ⟨?_, by simp [hplain], ?_⟩
      · intro record hsame
        cases Option.some.inj hsame
        exact ⟨draws.record, persistDecision_drawn hrecord⟩
      · intro _ record hsame
        rw [← Option.some.inj hsame]
        rfl
  · split
    · exact drawn_of_unrecorded rfl (hplain _)
    · exact drawn_of_unrecorded rfl (hplain _)

theorem transitionConfirmed_not_armed {state : RuntimeSignalState} {direction : Option Side}
    {eventTime barTime : ℚ} {t : Transition}
    (h : (transitionConfirmed state direction eventTime barTime).2 = some t) (side : Side) :
    t.signalState ≠ .intrabarArmed side := by
  unfold transitionConfirmed at h
  cases direction with
  | none =>
    simp only at h
    split at h
    · rw [← Option.some.inj h]
      simp
    · cases h
  | some other =>
    simp only at h
    split at h
    · rw [← Option.some.inj h]
      simp
    · cases h

theorem publication_drawn {state : RuntimeSignalState} {d : Delivery V}
    (h : publication state d draws = some p) : Drawn p := by
  unfold publication at h
  split at h
  · obtain ⟨t, ht, rfl⟩ := Option.map_eq_some_iff.mp h
    exact publishTransition_drawn d draws (transitionConfirmed_not_armed ht)
  · rw [← Option.some.inj h]
    exact publishTransition_drawn d draws (by simp)
  · split at h
    · rw [← Option.some.inj h]
      exact publishArmed_drawn d _ draws
    · cases h
  · cases h
  · cases h

variable {c : Config V}

theorem publicationOf_drawn {s : Runtime V} {act : Act V}
    (h : publicationOf c s draws act = some p) : Drawn p := by
  cases act with
  | deliver d =>
    simp only [publicationOf] at h
    split at h
    · cases h
    · exact publication_drawn h
  | restart => cases h
  | newProcess => cases h

/-- What holds of the publications and the stored records along every run. -/
structure Sound (s : IdentifiedRuntime V) : Prop where
  drawn : ∀ p ∈ s.publications, Drawn p
  kept : ∀ p ∈ s.publications, ∀ record, p.record = some record → record ∈ s.stored
  full : ∀ record ∈ s.stored, ∃ id : Uuid, record.signalId = id.hex

theorem stepIdentified_sound (s : IdentifiedRuntime V) (act : Act V × Draws)
    (t : IdentifiedRuntime V) (h : Sound s) (hstep : stepIdentified c s act = some t) :
    Sound t := by
  obtain ⟨signals, -, rfl⟩ := Option.map_eq_some_iff.mp hstep
  have hnew : ∀ p ∈ (publicationOf c s.signals act.2 act.1).toList, Drawn p := by
    intro p hp
    exact publicationOf_drawn (Option.mem_toList.mp hp)
  constructor
  · intro p hp
    rcases List.mem_append.mp hp with hold | hadded
    · exact h.drawn p hold
    · exact hnew p hadded
  · intro p hp record hrecord
    apply List.mem_append.mpr
    rcases List.mem_append.mp hp with hold | hadded
    · exact Or.inr (h.kept p hold record hrecord)
    · left
      rw [Option.mem_toList]
      exact Option.bind_eq_some_iff.mpr ⟨p, Option.mem_toList.mp hadded, hrecord⟩
  · intro record hrecord
    rcases List.mem_append.mp hrecord with hadded | hold
    · obtain ⟨p, hp, hsame⟩ := Option.mem_bind_iff.mp (Option.mem_toList.mp hadded)
      exact (hnew p (Option.mem_toList.mpr hp)).record record hsame
    · exact h.full record hold

variable {s : IdentifiedRuntime V}

theorem run_sound {acts : List (Act V × Draws)}
    (hrun : run (stepIdentified c) {} acts = some s) : Sound s := by
  apply run_invariant stepIdentified_sound ?_ hrun
  exact ⟨by simp, by simp, by simp⟩

/-- Without the ids the publications and the records are the log and the rows of the state
machine. -/
structure Projects (published : Option (Publication V)) (s t : Runtime V) : Prop where
  log : t.log = s.log ++ published.toList.map fun p => p.event.toPublished
  rows : t.rows = (published.bind Publication.record).toList.map SignalRecord.toRow ++ s.rows

theorem setState_projects (s : Runtime V) (target : Target) (state : RuntimeSignalState) :
    Projects none s (setState s target state) :=
  ⟨by simp [setState], by simp [setState]⟩

theorem persistDecision_row (d : Delivery V) (signalState : SignalState) (draws : Draws) :
    (persistDecision d signalState draws).map SignalRecord.toRow =
      if d.persisted then some ⟨d.target, signalState, d.timestamp, d.barTime⟩ else none := by
  unfold persistDecision
  split <;> rfl

theorem publishTransition_projects (s : Runtime V) (d : Delivery V) (t : Transition)
    (draws : Draws) (state : RuntimeSignalState) :
    Projects (some (publishTransition d t draws)) s (emit (setState s d.target state) d t) := by
  have hrow := persistDecision_row d t.signalState draws
  cases hchanged : t.stateChanged with
  | false =>
    cases hside : d.direction.isSome with
    | false =>
      constructor <;> simp [publishTransition, hchanged, hside, signalEvent, emit, setState]
    | true => constructor <;> simp [publishTransition, hchanged, hside, signalEvent, emit, setState]
  | true =>
    constructor
    · simp [publishTransition, hchanged, signalEvent, emit, setState]
    · simp only [publishTransition, hchanged, if_true, Option.bind_some]
      rw [← Option.toList_map, hrow]
      cases hpersisted : d.persisted with
      | false => simp [emit, setState, hpersisted]
      | true => simp [emit, setState, hpersisted, hchanged]

theorem publishArmed_projects (s : Runtime V) (d : Delivery V) (side : Side) (draws : Draws)
    (state : RuntimeSignalState) :
    Projects (some (publishArmed d side draws)) s
      (emit (setState s d.target state) d ⟨.intrabarArmed side, true⟩) := by
  have hrow := persistDecision_row d (.intrabarArmed side) draws
  constructor
  · simp [publishArmed, signalEvent, emit, setState]
  · simp only [publishArmed, Option.bind_some]
    rw [← Option.toList_map, hrow]
    cases hpersisted : d.persisted with
    | false => simp [emit, setState, hpersisted]
    | true => simp [emit, setState, hpersisted]

theorem transitionAndPublish_projects (s : Runtime V) (state : RuntimeSignalState)
    (d : Delivery V) (draws : Draws) :
    Projects (publication state d draws) s (transitionAndPublish s state d) := by
  unfold publication transitionAndPublish
  cases hscope : d.scope with
  | confirmed =>
    simp only
    obtain ⟨after, transition⟩ := transitionConfirmed state d.direction d.eventTime d.barTime
    cases transition with
    | none => exact setState_projects s d.target after
    | some t => exact publishTransition_projects s d t draws after
  | tickDerived =>
    cases hside : d.direction with
    | none => exact setState_projects s d.target state
    | some side => exact publishTransition_projects s d _ draws _
  | intrabar =>
    cases hside : d.direction with
    | none => exact setState_projects s d.target state
    | some side =>
      cases harmed : d.armed with
      | false => exact setState_projects s d.target state
      | true => exact publishArmed_projects s d side draws state

theorem restoreState_projects (c : Config V) (s : Runtime V) :
    Projects none s (restoreState c s) := by
  obtain ⟨hlog, hrows⟩ := restoreRows_frame [] s (recentSignals s.rows (max (c.targets * 6) 200))
  constructor
  · rw [restoreState, hlog]
    simp
  · rw [restoreState, hrows]
    simp

theorem step_projects {s t : Runtime V} {act : Act V} (h : step c s act = some t) (draws : Draws) :
    Projects (publicationOf c s draws act) s t := by
  cases act with
  | deliver d =>
    rw [← Option.some.inj h]
    simp only [publicationOf, deliver]
    cases isNewSnapshot c (stateOf s d.target) d with
    | none => exact setState_projects s d.target _
    | some state => exact transitionAndPublish_projects s state d draws
  | restart =>
    rw [← Option.some.inj h]
    exact restoreState_projects c s
  | newProcess =>
    rw [← Option.some.inj h]
    obtain ⟨hlog, hrows⟩ := restoreState_projects c { s with stateByTarget := Dict.empty }
    exact ⟨hlog, hrows⟩

/-- The run is one of the state machine, with its log and its rows. -/
theorem run_projects {acts : List (Act V × Draws)}
    (hrun : run (stepIdentified c) {} acts = some s) :
    s.publications.map (fun p => p.event.toPublished) = s.signals.log ∧
      s.stored.map SignalRecord.toRow = s.signals.rows := by
  refine run_invariant (I := fun s : IdentifiedRuntime V =>
    s.publications.map (fun p => p.event.toPublished) = s.signals.log ∧
      s.stored.map SignalRecord.toRow = s.signals.rows) ?_ ⟨rfl, rfl⟩ hrun
  intro s act t hs hstep
  obtain ⟨signals, hsignals, rfl⟩ := Option.map_eq_some_iff.mp hstep
  obtain ⟨hlog, hrows⟩ := step_projects hsignals act.2
  constructor
  · rw [List.map_append, hs.1, hlog]
  · rw [List.map_append, hs.2, hrows]

/-- What is stored has whole ids, so nothing is stored under the id of an armed event. -/
theorem not_stored_of_armed (h : Sound s)
    (hp : p ∈ s.publications) (harmed : p.event.armed = true) :
    ∀ record ∈ s.stored, p.event.signalId ≠ record.signalId := by
  intro record hrecord hsame
  obtain ⟨event, hevent⟩ := (h.drawn p hp).armed harmed
  obtain ⟨full, hfull⟩ := h.full record hrecord
  have hlength : event.short.length = full.hex.length := by rw [← hevent, ← hfull, hsame]
  rw [event.length_short, full.length_hex] at hlength
  omega

/-- The write-back finds a row for a stored decision exactly when its event has the id. -/
theorem storedUnder_isSome_iff (h : Sound s)
    (hp : p ∈ s.publications) {record : SignalRecord} (hrecord : p.record = some record) :
    (storedUnder s.stored p.event.signalId).isSome ↔ p.event.armed = false := by
  rw [storedUnder, List.find?_isSome]
  constructor
  · intro hfound
    obtain ⟨found, hmem, hsame⟩ := hfound
    by_contra harmed
    exact not_stored_of_armed h hp (Bool.not_eq_false _ ▸ harmed) found hmem
      (of_decide_eq_true hsame).symm
  · intro hother
    have hsame := (h.drawn p hp).other hother record hrecord
    exact ⟨record, h.kept p hp record hrecord, decide_eq_true hsame.symm⟩

/-- In every run a published event has the id of its record unless it is an armed one. -/
theorem identified_iff (c : Config V) (acts : List (Act V × Draws)) (s : IdentifiedRuntime V)
    (hrun : run (stepIdentified c) {} acts = some s) (p : Publication V)
    (hp : p ∈ s.publications) :
    Identified p ↔ ¬(p.event.armed = true ∧ p.record.isSome = true) := by
  have hsound := run_sound hrun
  constructor
  · rintro hidentified ⟨harmed, hstored⟩
    obtain ⟨record, hrecord⟩ := Option.isSome_iff_exists.mp hstored
    exact not_stored_of_armed hsound hp harmed record (hsound.kept p hp record hrecord)
      (hidentified record hrecord)
  · intro hnot
    cases harmed : p.event.armed with
    | false => exact (hsound.drawn p hp).other harmed
    | true =>
      intro record hrecord
      exact absurd ⟨harmed, by rw [hrecord]; rfl⟩ hnot

/-- A buy of the strategy; an intrabar one is armed. -/
def goldBuy (scope : Scope) : Act ℕ :=
  .deliver
    { target := goldRsi
      scope := scope
      snapshotTime := 601
      barTime := 300
      indicators := 22
      direction := some .buy
      armed := true
      timestamp := 601 }

def someDraws : Draws where
  record := ⟨"3f2b8c1d9e704a6583b5c7d1e0f94a26", by decide⟩
  event := ⟨"a17c5be84d2f4c0f9b6e1d38720f5ac4", by decide⟩

/-- The publication of the buy, with the ids of the record and of the event. -/
def goldPublication (scope : Scope) (signalState : SignalState) (signalId : String) :
    Publication ℕ where
  event := ⟨⟨goldRsi, signalState, 300, 22⟩, signalId, some .buy, scope⟩
  record := some ⟨⟨goldRsi, signalState, 601, 300⟩, "3f2b8c1d9e704a6583b5c7d1e0f94a26", some .buy⟩

theorem identified_iff_confirmed :
    Identified
      (goldPublication .confirmed (.confirmed .buy) "3f2b8c1d9e704a6583b5c7d1e0f94a26") := by
  have hend : (run (stepIdentified signature) {} [(goldBuy .confirmed, someDraws)]).map
      IdentifiedRuntime.publications = some [goldPublication .confirmed (.confirmed .buy)
        "3f2b8c1d9e704a6583b5c7d1e0f94a26"] := by
    decide +kernel
  obtain ⟨s, hrun, hpublications⟩ := Option.map_eq_some_iff.mp hend
  refine (identified_iff signature _ s hrun _ ?_).mpr (by decide)
  rw [hpublications]
  exact List.mem_singleton_self _

/-- The armed buy is stored, and published under another id. -/
theorem not_identified :
    ¬ ∀ (c : Config ℕ) (acts : List (Act ℕ × Draws)) (s : IdentifiedRuntime ℕ)
        (p : Publication ℕ),
      run (stepIdentified c) {} acts = some s → p ∈ s.publications → Identified p := by
  intro hall
  have hend : (run (stepIdentified signature) {} [(goldBuy .intrabar, someDraws)]).map
      IdentifiedRuntime.publications = some [goldPublication .intrabar (.intrabarArmed .buy)
        "a17c5be84d2f"] := by
    decide +kernel
  obtain ⟨s, hrun, hpublications⟩ := Option.map_eq_some_iff.mp hend
  have hidentified := hall signature _ s _ hrun
    (by rw [hpublications]; exact List.mem_singleton_self _)
  exact absurd hidentified (by decide)

end MT5Services.SignalIdentity
