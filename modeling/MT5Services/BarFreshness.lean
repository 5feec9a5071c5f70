import MT5Services.SignalQueues
import Mathlib.Algebra.Order.Ring.Rat
import Mathlib.Tactic.Linarith

/-!
Confirmed bars from the snapshot listener to `service.evaluate`, over a clock. The warmup
barrier checks the age of every confirmed bar when its snapshot arrives; the put may wait
for room, the event waits in the queue, and with the WAL it also waits through a stop, a
crash and the next start. Nothing looks at the age again before the evaluation.
-/
namespace MT5Services.BarFreshness

open Runs SignalQueues

/-- Seconds. -/
def timeframeSeconds (timeframe : String) : ℚ :=
  match timeframe.toUpper with
  | "M1" => 60
  | "M5" => 300
  | "M15" => 900
  | "M30" => 1800
  | "H1" => 3600
  | "H4" => 14400
  | "D1" => 86400
  | "W1" => 604800
  | _ => 60

def maxAge (timeframe : String) : ℚ := timeframeSeconds timeframe * 2 + 30

/-- What the runtime reads of a snapshot: its bar time and the names of its indicators. -/
structure Snapshot where
  barTime : ℚ
  indicators : List String
  deriving DecidableEq

abbrev BarEvent := Event Snapshot

structure Config where
  queues : Settings := {}
  enableConfirmedSnapshot : Bool := true
  /-- A `warmup_ready_fn` is set. -/
  hasWarmupFn : Bool := true
  warmupRequiredIndicators : List String := []
  allIntrabarStrategiesSatisfied : List String → Bool := fun _ => true

structure SignalRuntime where
  now : ℚ := 0
  firstRealtimeBarSeen : List (String × String) := []
  firstIntrabarSnapshotSeen : List (String × String) := []
  /-- Events past the barrier whose put is still to come. -/
  offered : List BarEvent := []
  queues : Runtime Snapshot
  /-- The calls of `service.evaluate` with their times. -/
  evaluated : List (BarEvent × ℚ) := []
  deriving DecidableEq

def start (durable : Bool) : SignalRuntime :=
  { queues := SignalQueues.start (if durable then .wal .empty else .memory []) 0 0 }

/-- The staleness gate of every confirmed bar, then the required indicators. -/
def checkConfirmedWarmup (c : Config) (s : SignalRuntime) (event : BarEvent) :
    Bool × SignalRuntime :=
  if c.hasWarmupFn ∧ maxAge event.timeframe < s.now - event.payload.barTime then (false, s)
  else
    let key := (event.symbol, event.timeframe)
    let seen := if key ∈ s.firstRealtimeBarSeen then s.firstRealtimeBarSeen
      else s.firstRealtimeBarSeen ++ [key]
    (c.warmupRequiredIndicators.all fun name => decide (name ∈ event.payload.indicators),
      { s with firstRealtimeBarSeen := seen })

def checkIntrabarWarmup (c : Config) (s : SignalRuntime) (event : BarEvent) :
    Bool × SignalRuntime :=
  let key := (event.symbol, event.timeframe)
  if key ∉ s.firstRealtimeBarSeen then (false, s)
  else if key ∈ s.firstIntrabarSnapshotSeen then (true, s)
  else if c.allIntrabarStrategiesSatisfied event.payload.indicators then
    (true, { s with firstIntrabarSnapshotSeen := s.firstIntrabarSnapshotSeen ++ [key] })
  else (false, s)

/-- `ready` is the answer of the `warmup_ready_fn`. -/
def checkWarmupBarrier (c : Config) (ready : Bool) (s : SignalRuntime) (event : BarEvent) :
    Bool × SignalRuntime :=
  if c.hasWarmupFn ∧ ready = false then (false, s)
  else
    match event.scope with
    | .confirmed => checkConfirmedWarmup c s event
    | .intrabar => if c.hasWarmupFn then checkIntrabarWarmup c s event else (true, s)
    | .tickDerived => (true, s)

def onSnapshot (c : Config) (ready : Bool) (s : SignalRuntime) (event : BarEvent) :
    SignalRuntime :=
  if event.scope = .confirmed ∧ c.enableConfirmedSnapshot = false then s
  else
    match checkWarmupBarrier c ready s event with
    | (true, t) => { t with offered := t.offered ++ [event] }
    | (false, t) => t

def reopened : ConfirmedQueue Snapshot → ConfirmedQueue Snapshot
  | .memory _ => .memory []
  | .wal table => .wal table.initDb

/-- `stop` and `start`: the in-memory queues are cleared only when there is no WAL. -/
def restart (s : SignalRuntime) : SignalRuntime :=
  let fresh := SignalQueues.start (reopened s.queues.confirmed) 0
    s.queues.nonConfirmedTurn
  match s.queues.confirmed with
  | .memory _ => { s with queues := fresh }
  | .wal _ =>
    { s with
      queues :=
        { fresh with intrabar := s.queues.intrabar, tickDerived := s.queues.tickDerived } }

/-- A crash and the start of a new process: only the WAL is left. -/
def crash (s : SignalRuntime) : SignalRuntime :=
  { now := s.now
    queues := SignalQueues.start (reopened s.queues.confirmed) 0 0
    evaluated := s.evaluated }

inductive Act
  | clock (time : ℚ)
  | snapshot (ready : Bool) (event : BarEvent)
  | tickFeature (event : BarEvent)
  /-- The put of the `n`-th offered event. -/
  | enqueue (n : ℕ)
  /-- A step of the consumer. -/
  | consume (act : SignalQueues.Act Snapshot)
  /-- `service.evaluate` for the event in processing. -/
  | evaluate
  | restart
  | crash

def step (c : Config) (s : SignalRuntime) : Act → Option SignalRuntime
  | .clock time => if s.now ≤ time then some { s with now := time } else none
  | .snapshot ready event => some (onSnapshot c ready s event)
  | .tickFeature event =>
    if event.scope = .tickDerived then some { s with offered := s.offered ++ [event] } else none
  | .enqueue n =>
    match s.offered[n]? with
    | some event =>
      some { s with
        offered := s.offered.eraseIdx n
        queues := enqueueEvent c.queues s.queues event }
    | none => none
  | .consume act =>
    if act.brings = [] then
      (SignalQueues.step c.queues s.queues act).map fun queues => { s with queues := queues }
    else none
  | .evaluate =>
    match s.queues.hand with
    | .processing event => some { s with evaluated := s.evaluated ++ [(event, s.now)] }
    | _ => none
  | .restart => some (restart s)
  | .crash => some (crash s)

/-- The event is confirmed and its bar older than the limit at the given time. -/
def Stale (time : ℚ) (event : BarEvent) : Prop :=
  event.scope = .confirmed ∧ maxAge event.timeframe < time - event.payload.barTime

/-- Every event past the barrier and not done with. -/
def waiting (s : SignalRuntime) : List BarEvent := s.offered ++ aboard s.queues

/-- The clock does not pass the age limit of a confirmed bar that is still waiting. -/
def KeepsUp (s : SignalRuntime) : Act → Prop
  | .clock time => ∀ event ∈ waiting s, ¬ Stale time event
  | _ => True

instance (time : ℚ) : DecidablePred (Stale time) := fun event =>
  inferInstanceAs (Decidable
    (event.scope = .confirmed ∧ maxAge event.timeframe < time - event.payload.barTime))

instance (s : SignalRuntime) : DecidablePred (KeepsUp s)
  | .clock time => inferInstanceAs (Decidable (∀ event ∈ waiting s, ¬ Stale time event))
  | .snapshot _ _ | .tickFeature _ | .enqueue _ | .consume _ | .evaluate | .restart | .crash =>
    inferInstanceAs (Decidable True)

/-- No stale bar waits and none was evaluated. -/
structure Fresh (s : SignalRuntime) : Prop where
  waiting : ∀ event ∈ waiting s, ¬ Stale s.now event
  evaluated : ∀ entry ∈ s.evaluated, ¬ Stale entry.2 entry.1

/-- The barrier touches its own records only. -/
structure SameWork (s t : SignalRuntime) : Prop where
  now : t.now = s.now
  offered : t.offered = s.offered
  queues : t.queues = s.queues
  evaluated : t.evaluated = s.evaluated

theorem checkConfirmedWarmup_sameWork (c : Config) (s : SignalRuntime) (event : BarEvent) :
    SameWork s (checkConfirmedWarmup c s event).2 := by
  unfold checkConfirmedWarmup
  split_ifs
  · exact ⟨rfl, rfl, rfl, rfl⟩
  · exact ⟨rfl, rfl, rfl, rfl⟩

theorem checkIntrabarWarmup_sameWork (c : Config) (s : SignalRuntime) (event : BarEvent) :
    SameWork s (checkIntrabarWarmup c s event).2 := by
  unfold checkIntrabarWarmup
  dsimp only
  split_ifs
  all_goals exact ⟨rfl, rfl, rfl, rfl⟩

theorem checkWarmupBarrier_sameWork (c : Config) (ready : Bool) (s : SignalRuntime)
    (event : BarEvent) : SameWork s (checkWarmupBarrier c ready s event).2 := by
  unfold checkWarmupBarrier
  split_ifs
  · exact ⟨rfl, rfl, rfl, rfl⟩
  · cases event.scope with
    | confirmed => exact checkConfirmedWarmup_sameWork c s event
    | intrabar => exact checkIntrabarWarmup_sameWork c s event
    | tickDerived => exact ⟨rfl, rfl, rfl, rfl⟩
  · cases event.scope with
    | confirmed => exact checkConfirmedWarmup_sameWork c s event
    | intrabar => exact ⟨rfl, rfl, rfl, rfl⟩
    | tickDerived => exact ⟨rfl, rfl, rfl, rfl⟩

variable {s : SignalRuntime} {c : Config}

/-- With a `warmup_ready_fn` set no stale confirmed bar passes the barrier. -/
theorem checkWarmupBarrier_not_stale (hwarmup : c.hasWarmupFn = true) {ready : Bool}
    {event : BarEvent}
    (hpasses : (checkWarmupBarrier c ready s event).1 = true) : ¬ Stale s.now event := by
  rintro ⟨hscope, hold⟩
  have hgate : (checkConfirmedWarmup c s event).1 = false := by
    rw [checkConfirmedWarmup, if_pos ⟨hwarmup, hold⟩]
  unfold checkWarmupBarrier at hpasses
  rw [hscope] at hpasses
  dsimp only at hpasses
  split_ifs at hpasses
  · rw [hgate] at hpasses
    cases hpasses

theorem Fresh.of_subset {s t : SignalRuntime} (h : Fresh s) (hnow : t.now = s.now)
    (hwaiting : BarFreshness.waiting t ⊆ BarFreshness.waiting s)
    (hevaluated : t.evaluated = s.evaluated) : Fresh t where
  waiting := by
    intro event hevent
    rw [hnow]
    exact h.waiting event (hwaiting hevent)
  evaluated := by
    rw [hevaluated]
    exact h.evaluated

/-- An event that is not stale may join those that wait. -/
theorem Fresh.offer (h : Fresh s) {event : BarEvent}
    (hfresh : ¬ Stale s.now event) : Fresh { s with offered := s.offered ++ [event] } where
  waiting := by
    intro other hother
    rcases List.mem_append.mp hother with hother | hother
    · rcases List.mem_append.mp hother with hother | hother
      · exact h.waiting other (List.mem_append_left _ hother)
      · rw [List.mem_singleton.mp hother]
        exact hfresh
    · exact h.waiting other (List.mem_append_right _ hother)
  evaluated := h.evaluated

theorem onSnapshot_fresh (hwarmup : c.hasWarmupFn = true) (ready : Bool)
    (h : Fresh s) (event : BarEvent) : Fresh (onSnapshot c ready s event) := by
  have hsame := checkWarmupBarrier_sameWork c ready s event
  have hkept : Fresh (checkWarmupBarrier c ready s event).2 := by
    apply h.of_subset hsame.now _ hsame.evaluated
    rw [waiting, waiting, hsame.offered, hsame.queues]
    exact List.Subset.refl _
  unfold onSnapshot
  split_ifs
  · exact h
  · split
    · next t hcheck =>
      rw [hcheck] at hkept hsame
      apply hkept.offer
      rw [hsame.now]
      apply checkWarmupBarrier_not_stale hwarmup
      rw [hcheck]
    · next t hcheck =>
      rw [hcheck] at hkept
      exact hkept

theorem reopened_stored (queue : ConfirmedQueue Snapshot) :
    (reopened queue).stored ⊆ queue.stored := by
  cases queue with
  | memory items => exact List.nil_subset items
  | wal table =>
    rw [reopened, ConfirmedQueue.stored, WalQueue.WalSignalQueue.initDb,
      WalQueue.WalSignalQueue.entries_setInFlight, ConfirmedQueue.stored]
    exact List.Subset.refl _

theorem restart_fresh (h : Fresh s) : Fresh (restart s) := by
  have hstored := List.Subset.trans (reopened_stored s.queues.confirmed) (stored_aboard s.queues)
  unfold restart
  dsimp only
  split
  · refine h.of_subset rfl ?_ rfl
    refine List.append_subset.mpr ⟨List.subset_append_left _ _, ?_⟩
    refine List.Subset.trans ?_ (List.subset_append_right s.offered (aboard s.queues))
    exact aboard_subset hstored (List.nil_subset _) (List.nil_subset _) (List.nil_subset _)
  · refine h.of_subset rfl ?_ rfl
    refine List.append_subset.mpr ⟨List.subset_append_left _ _, ?_⟩
    refine List.Subset.trans ?_ (List.subset_append_right s.offered (aboard s.queues))
    exact aboard_subset hstored (intrabar_aboard s.queues) (tickDerived_aboard s.queues)
      (List.nil_subset _)

theorem crash_fresh (h : Fresh s) : Fresh (crash s) := by
  have hstored := List.Subset.trans (reopened_stored s.queues.confirmed) (stored_aboard s.queues)
  refine h.of_subset rfl ?_ rfl
  refine List.append_subset.mpr ⟨List.nil_subset _, ?_⟩
  refine List.Subset.trans ?_ (List.subset_append_right s.offered (aboard s.queues))
  exact aboard_subset hstored (List.nil_subset _) (List.nil_subset _) (List.nil_subset _)

theorem enqueue_fresh {n : ℕ} {t : SignalRuntime} (h : Fresh s)
    (hstep : step c s (.enqueue n) = some t) : Fresh t := by
  unfold step at hstep
  dsimp only at hstep
  split at hstep
  · next event hoffered =>
    cases Option.some.inj hstep
    have hevent : event ∈ s.offered := List.mem_of_getElem? hoffered
    refine h.of_subset rfl ?_ rfl
    refine List.append_subset.mpr ⟨?_, ?_⟩
    · exact List.Subset.trans List.eraseIdx_subset (List.subset_append_left _ _)
    · refine List.Subset.trans (enqueueEvent_aboard c.queues s.queues event) ?_
      refine List.append_subset.mpr ⟨List.subset_append_right _ _, ?_⟩
      exact List.cons_subset.mpr ⟨List.mem_append_left _ hevent, List.nil_subset _⟩
  · cases hstep

theorem consume_fresh {act : SignalQueues.Act Snapshot} {t : SignalRuntime} (h : Fresh s)
    (hstep : step c s (.consume act) = some t) : Fresh t := by
  unfold step at hstep
  dsimp only at hstep
  split_ifs at hstep with hbrings
  obtain ⟨queues, hqueues, rfl⟩ := Option.map_eq_some_iff.mp hstep
  have haboard := step_aboard hqueues
  rw [hbrings, List.append_nil] at haboard
  refine h.of_subset rfl ?_ rfl
  exact List.append_subset.mpr
    ⟨List.subset_append_left _ _, List.Subset.trans haboard (List.subset_append_right _ _)⟩

/-- What is evaluated was waiting, so its bar is not stale. -/
theorem evaluate_fresh {t : SignalRuntime} (h : Fresh s)
    (hstep : step c s .evaluate = some t) : Fresh t := by
  unfold step at hstep
  dsimp only at hstep
  split at hstep
  · next event hprocessing =>
    cases Option.some.inj hstep
    refine ⟨h.waiting, ?_⟩
    intro entry hentry
    rcases List.mem_append.mp hentry with hentry | hentry
    · exact h.evaluated entry hentry
    · rw [List.mem_singleton.mp hentry]
      apply h.waiting event
      apply List.mem_append_right
      apply events_aboard s.queues
      rw [hprocessing]
      exact List.mem_singleton_self event
  · cases hstep

theorem step_fresh (hwarmup : c.hasWarmupFn = true) (s : SignalRuntime) (act : Act)
    (t : SignalRuntime) (h : Fresh s) (hguard : KeepsUp s act) (hstep : step c s act = some t) :
    Fresh t := by
  cases act with
  | clock time =>
    unfold step at hstep
    dsimp only at hstep
    split_ifs at hstep
    cases Option.some.inj hstep
    exact ⟨hguard, h.evaluated⟩
  | snapshot ready event =>
    cases Option.some.inj hstep
    exact onSnapshot_fresh hwarmup ready h event
  | tickFeature event =>
    unfold step at hstep
    dsimp only at hstep
    split_ifs at hstep with hscope
    cases Option.some.inj hstep
    apply h.offer
    rintro ⟨hconfirmed, _⟩
    rw [hscope] at hconfirmed
    cases hconfirmed
  | enqueue n => exact enqueue_fresh h hstep
  | consume act => exact consume_fresh h hstep
  | evaluate => exact evaluate_fresh h hstep
  | restart =>
    cases Option.some.inj hstep
    exact restart_fresh h
  | crash =>
    cases Option.some.inj hstep
    exact crash_fresh h

theorem start_fresh (durable : Bool) : Fresh (start durable) := by
  cases durable
  · exact ⟨by simp [waiting, start, SignalQueues.start, aboard, ConfirmedQueue.stored, Hand.events],
      by simp [start]⟩
  · exact ⟨by simp [waiting, start, SignalQueues.start, aboard, ConfirmedQueue.stored, Hand.events,
      WalQueue.WalSignalQueue.entries, WalQueue.WalSignalQueue.empty], by simp [start]⟩

/-- As long as the clock does not overtake the bars that wait, every confirmed bar is young
enough when it is evaluated, across stops and crashes. -/
theorem evaluated_bars_fresh (c : Config) (hwarmup : c.hasWarmupFn = true) (durable : Bool)
    (acts front back : List Act) (hkeeps : Along (step c) KeepsUp (start durable) acts)
    (hacts : acts = front ++ back) (s : SignalRuntime)
    (hrun : run (step c) (start durable) front = some s) :
    ∀ entry ∈ s.evaluated, entry.1.scope = .confirmed →
      entry.2 - entry.1.payload.barTime ≤ maxAge entry.1.timeframe := by
  rw [hacts] at hkeeps
  have hfresh := run_invariant_along (step_fresh hwarmup) (start_fresh durable)
    (along_front hkeeps) hrun
  intro entry hentry hscope
  by_contra hold
  exact hfresh.evaluated entry hentry ⟨hscope, not_le.mp hold⟩

def goldBar : BarEvent := ⟨.confirmed, "XAUUSD", "M5", ⟨900, []⟩⟩

/-- A bar survives a crash and is evaluated after a wait of the given length. -/
def recovered (wait : ℚ) : List Act :=
  [.clock 1000, .snapshot true goldBar, .enqueue 0, .crash, .clock (1000 + wait),
    .consume .dequeue, .evaluate]

def recoveredState (wait : ℚ) : SignalRuntime :=
  { now := 1000 + wait
    queues :=
      { confirmed := .wal ⟨[], 1, by decide, by decide⟩
        confirmedBurstCount := 1
        hand := .processing goldBar
        accepted := [goldBar]
        handed := [goldBar] }
    evaluated := [(goldBar, 1000 + wait)] }

theorem evaluated_bars_fresh_recovered :
    (goldBar, 1120) ∈ (recoveredState 120).evaluated ∧
      1120 - goldBar.payload.barTime ≤ maxAge goldBar.timeframe := by
  have hmem : (goldBar, 1120) ∈ (recoveredState 120).evaluated := by decide +kernel
  refine ⟨hmem, ?_⟩
  exact evaluated_bars_fresh {} rfl true (recovered 120) (recovered 120) [] (by decide +kernel)
    (List.append_nil _).symm (recoveredState 120) (by decide +kernel) (goldBar, 1120) hmem rfl

/-- After a stop of a weekend the bar is evaluated all the same. -/
theorem stale_bar_is_evaluated :
    ¬ ∀ (c : Config) (durable : Bool) (acts front back : List Act) (s : SignalRuntime),
      c.hasWarmupFn = true → acts = front ++ back →
      run (step c) (start durable) front = some s →
      ∀ entry ∈ s.evaluated, entry.1.scope = .confirmed →
        entry.2 - entry.1.payload.barTime ≤ maxAge entry.1.timeframe := by
  intro hall
  have hyoung := hall {} true (recovered 234000) (recovered 234000) [] (recoveredState 234000) rfl
    (List.append_nil _).symm (by decide +kernel) (goldBar, 1000 + 234000)
    (List.mem_singleton_self _) rfl
  exact absurd hyoung (by decide +kernel)

end MT5Services.BarFreshness
