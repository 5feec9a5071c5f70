import MT5Services.RecoveryAverages
import MT5Services.RecoveryExposure

/-!
`TickRecoveryReplayRunner.run`: a recovery cycle replayed on bid and ask ticks, with the exit
model that is asked before every step. The loop keeps the cycle, the fills, the events, two
counters and the largest total; they stay consistent with each other on every tick. The
constructor of the cycle refuses a direction that is neither side and prices or volumes that
are not positive once rounded, and then there is no report.
-/
namespace MT5Services.RecoveryReplay

open PyText PyNumber RecoveryModels RecoveryController RecoveryExposure RecoveryAverages

/-- `_favorable_points`. -/
def favorablePoints (policy : RecoveryPolicy) (cycle : RecoveryCycleState) (exitPrice : ℚ) : ℚ :=
  let raw :=
    if cycle.direction = "buy" then exitPrice - cycle.averageEntryPrice
    else cycle.averageEntryPrice - exitPrice
  round (raw / policy.point) 10

/-- The age in seconds that `_cycle_age_seconds` and `_last_step_age_seconds` compute. -/
def ageSeconds (since observedAt : ℤ) : ℚ := round (max 0 ((observedAt - since : ℤ) / 10 ^ 6)) 10

/-- What `evaluate_exit` decides on an exit price. -/
def exitDecision (policy : RecoveryPolicy) (cycle : RecoveryCycleState)
    (snapshot : RecoveryMarketSnapshot) (exitPrice : ℚ) : RecoveryDecision :=
  let favorable := favorablePoints policy cycle exitPrice
  let costBuffer := round (policy.slippageBudgetPoints + policy.commissionPoints) 10
  let netProfit := round (favorable - costBuffer) 10
  let lossPoints := round (max 0 (-netProfit)) 10
  let cycleAge := ageSeconds cycle.startedAt snapshot.time
  let stepAge := cycle.lastStepAt.map fun last => ageSeconds last snapshot.time
  let exitMode := normalized policy.maxStepsExitMode "hold"
  let profit : Metadata :=
    [("exit_price", .number exitPrice), ("favorable_points", .number favorable),
      ("cost_buffer_points", .number costBuffer), ("net_profit_points", .number netProfit),
      ("target_net_points", .number policy.recoveryTargetPoints)]
  let loss := profit ++
    [("loss_points", .number lossPoints),
      ("max_cycle_loss_points", .number policy.maxCycleLossPoints)]
  let duration := loss ++
    [("cycle_age_seconds", .number cycleAge),
      ("max_cycle_duration_seconds", .number policy.maxCycleDurationSeconds)]
  let steps := duration ++
    [("step_count", .number cycle.stepCount), ("max_steps", .number policy.maxSteps),
      ("max_steps_exit_mode", .text exitMode),
      ("max_steps_hold_seconds", .number policy.maxStepsHoldSeconds),
      ("max_steps_hold_elapsed_seconds", .optional stepAge)]
  let answer (action : Action) (reason : String) (metadata : Metadata) : RecoveryDecision :=
    { action := action, reason := reason, exitPrice := some exitPrice, metadata := metadata }
  if 0 < policy.recoveryTargetPoints ∧ policy.recoveryTargetPoints ≤ netProfit then
    answer .closeCycle "net_recovery_target_reached" profit
  else if 0 < policy.maxCycleLossPoints ∧ policy.maxCycleLossPoints ≤ lossPoints then
    answer .closeCycle "cycle_loss_limit_reached" loss
  else if 0 < policy.maxCycleDurationSeconds ∧ policy.maxCycleDurationSeconds ≤ cycleAge then
    answer .closeCycle "max_cycle_duration_reached" duration
  else if 0 < policy.maxStepsHoldSeconds ∧ policy.maxSteps ≤ cycle.stepCount ∧
      (stepAge.any fun age => policy.maxStepsHoldSeconds ≤ age) = true then
    answer .closeCycle "max_steps_hold_time_reached" steps
  else if exitMode = "close_cycle" ∧ policy.maxSteps ≤ cycle.stepCount then
    answer .closeCycle "max_steps_exit_reached" steps
  else if policy.recoveryTargetPoints ≤ 0 then answer .hold "recovery_target_disabled" steps
  else answer .hold "net_recovery_target_not_reached" steps

/-- `RecoveryExitModel.evaluate_exit`. -/
def evaluateExit (policy : RecoveryPolicy) (cycle : RecoveryCycleState)
    (snapshot : RecoveryMarketSnapshot) : Except String RecoveryDecision :=
  if cycle.status ≠ "open" then .ok (hold "cycle_not_open" [])
  else if snapshot.symbol ≠ cycle.symbol then
    .ok (block "symbol_mismatch"
      [("expected", .text cycle.symbol), ("actual", .text snapshot.symbol)])
  else if !snapshot.hasBidAsk then .ok (block "quote_side_missing" [])
  else
    match snapshot.exitPrice cycle.direction with
    | .error message => .error message
    | .ok none => .error "AssertionError"
    | .ok (some exitPrice) => .ok (exitDecision policy cycle snapshot exitPrice)

/-- A tick, as far as the replay reads it. -/
structure Tick where
  bid : Option ℚ
  ask : Option ℚ
  time : ℤ
  timeMsc : Option ℤ := none
  deriving DecidableEq, Repr

inductive Role
  | initial
  | recovery
  deriving DecidableEq, Repr

structure RecoveryReplayFill where
  role : Role
  stepIndex : ℤ
  side : String
  volume : ℚ
  fillPrice : ℚ
  fillTime : ℤ
  fillTimeMsc : Option ℤ
  tick : Tick
  deriving DecidableEq, Repr

structure RecoveryReplayReport where
  symbol : String
  direction : String
  tickCount : ℕ
  tradableTickCount : ℕ
  tickCoverage : ℚ
  fills : List RecoveryReplayFill
  events : List RecoveryDecision
  closed : Bool
  closeReason : Option String
  closePrice : Option ℚ
  estimatedPnl : ℚ
  blockedCount : ℕ
  holdCount : ℕ
  maxStepCount : ℤ
  maxTotalVolume : ℚ
  deriving DecidableEq, Repr

/-- How the loop closed the cycle. -/
structure Closing where
  reason : String
  price : ℚ
  estimatedPnl : ℚ

/-- What the loop carries from tick to tick. -/
structure Replay where
  cycle : RecoveryCycleState
  fills : List RecoveryReplayFill
  events : List RecoveryDecision
  blockedCount : ℕ
  holdCount : ℕ
  maxTotalVolume : ℚ
  closing : Option Closing

namespace Replay

def blocked (s : Replay) (event : RecoveryDecision) : Replay :=
  { s with events := s.events ++ [event], blockedCount := s.blockedCount + 1 }

def held (s : Replay) (event : RecoveryDecision) : Replay :=
  { s with events := s.events ++ [event], holdCount := s.holdCount + 1 }

def closedBy (s : Replay) (event : RecoveryDecision) (closing : Closing) : Replay :=
  { s with events := s.events ++ [event], closing := some closing }

def filled (s : Replay) (event : RecoveryDecision) (fill : RecoveryReplayFill)
    (cycle : RecoveryCycleState) : Replay :=
  { s with
    events := s.events ++ [event]
    fills := s.fills ++ [fill]
    cycle := cycle
    maxTotalVolume := max s.maxTotalVolume cycle.totalVolume }

end Replay

/-- `_ordered_ticks`: by milliseconds, then by time. -/
def orderedTicks (ticks : List Tick) : List Tick :=
  let key (tick : Tick) : ℤ := tick.timeMsc.getD (tick.time.tdiv 1000)
  ticks.mergeSort fun a b => key a < key b ∨ (key a = key b ∧ a.time ≤ b.time)

def snapshotOf (symbol : String) (tick : Tick) : RecoveryMarketSnapshot :=
  ⟨symbol, tick.bid, tick.ask, tick.time⟩

def isTradable (tick : Tick) : Bool := tick.bid.isSome && tick.ask.isSome

/-- The fill that an open step brings. -/
def recoveryFill (side : String) (tick : Tick) (stepIndex : ℤ) (volume entryPrice : ℚ) :
    RecoveryReplayFill :=
  ⟨.recovery, stepIndex, side, volume, entryPrice, tick.time, tick.timeMsc, tick⟩

/-- The decision on the next step, once the exit model has let the tick pass. -/
def replayStep (s : Replay) (tick : Tick) (decision : RecoveryDecision) :
    Except String Replay :=
  match decision.action with
  | .block => .ok (s.blocked decision)
  | .hold => .ok (s.held decision)
  | _ =>
    match decision.volume, decision.entryPrice, decision.stepIndex with
    | some volume, some entryPrice, some stepIndex =>
      (applyOpenStep s.cycle decision tick.time).map fun cycle =>
        s.filled decision (recoveryFill s.cycle.direction tick stepIndex volume entryPrice) cycle
    | _, _, _ => .error "AssertionError"

/-- One turn of the loop. -/
def replayTick (policy : RecoveryPolicy) (symbol : String) (s : Replay) (tick : Tick) :
    Except String Replay :=
  match evaluateExit policy s.cycle (snapshotOf symbol tick) with
  | .error message => .error message
  | .ok exit =>
    match exit.action with
    | .block => .ok (s.blocked exit)
    | .closeCycle =>
      match exit.exitPrice with
      | none => .error "AssertionError"
      | some price =>
        .ok (s.closedBy exit ⟨exit.reason, price, estimatePnl policy s.cycle price⟩)
    | _ =>
      (evaluateNextStep policy s.cycle (snapshotOf symbol tick) (some tick.time)).bind
        (replayStep s tick)

/-- The loop, which breaks off once the cycle is closed. -/
def replay (policy : RecoveryPolicy) (symbol : String) : Replay → List Tick → Except String Replay
  | s, [] => .ok s
  | s, tick :: rest =>
    (replayTick policy symbol s tick).bind fun next =>
      if next.closing.isSome then .ok next else replay policy symbol next rest

/-- A report without fills. -/
def emptyReport (symbol direction : String) (ticks : List Tick) (events : List RecoveryDecision)
    (blockedCount : ℕ) : RecoveryReplayReport where
  symbol := symbol
  direction := direction
  tickCount := ticks.length
  tradableTickCount := ticks.countP isTradable
  tickCoverage :=
    if ticks.length = 0 then 0 else round (ticks.countP isTradable / ticks.length) 8
  fills := []
  events := events
  closed := false
  closeReason := none
  closePrice := none
  estimatedPnl := 0
  blockedCount := blockedCount
  holdCount := 0
  maxStepCount := 0
  maxTotalVolume := 0

def report (symbol : String) (ticks : List Tick) (s : Replay) : RecoveryReplayReport :=
  { emptyReport symbol s.cycle.direction ticks s.events s.blockedCount with
    fills := s.fills
    closed := s.closing.isSome
    closeReason := s.closing.map Closing.reason
    closePrice := s.closing.map Closing.price
    estimatedPnl := (s.closing.map Closing.estimatedPnl).getD 0
    holdCount := s.holdCount
    maxStepCount := s.cycle.stepCount
    maxTotalVolume := round s.maxTotalVolume 8 }

def initialFields (symbol direction accountKey cycleId : String) (policy : RecoveryPolicy)
    (price : ℚ) (time : ℤ) : CycleFields where
  cycleId := cycleId
  accountKey := accountKey
  symbol := symbol
  direction := lower (strip direction)
  status := "open"
  baseVolume := policy.baseVolume
  totalVolume := policy.baseVolume
  stepCount := 0
  averageEntryPrice := price
  lastEntryPrice := price
  startedAt := time
  updatedAt := time
  lastStepAt := some time

/-- The loop starts with the initial fill. -/
def startReplay (cycle : RecoveryCycleState) (volume price : ℚ) (tick : Tick) : Replay where
  cycle := cycle
  fills := [⟨.initial, 0, cycle.direction, volume, price, tick.time, tick.timeMsc, tick⟩]
  events := []
  blockedCount := 0
  holdCount := 0
  maxTotalVolume := cycle.totalVolume
  closing := none

/-- `TickRecoveryReplayRunner.run`. -/
def run (symbol direction : String) (ticks : List Tick) (policy : RecoveryPolicy)
    (accountKey cycleId : String) : Except String RecoveryReplayReport :=
  match orderedTicks ticks with
  | [] => .ok (emptyReport symbol direction [] [] 0)
  | first :: rest =>
    if isTradable first then
      match (snapshotOf symbol first).entryPrice direction with
      | .error message => .error message
      | .ok none =>
        .ok (emptyReport symbol direction (first :: rest) [block "quote_side_missing" []] 1)
      | .ok (some price) =>
        (RecoveryCycleState.mk?
            (initialFields symbol direction accountKey cycleId policy price first.time)).bind
          fun cycle =>
            (replay policy symbol (startReplay cycle policy.baseVolume price first) rest).map
              (report symbol (first :: rest))
    else .ok (emptyReport symbol direction (first :: rest) [block "quote_side_missing" []] 1)

/-- The fills of a report are none, or the initial one and the steps in order. -/
inductive InOrder : List RecoveryReplayFill → ℤ → Prop
  | none : InOrder [] 0
  | filled {first : RecoveryReplayFill} {rest : List RecoveryReplayFill}
      (hfirst : first.role = .initial) (hrest : ∀ fill ∈ rest, fill.role = .recovery)
      (hindex : (first :: rest).map RecoveryReplayFill.stepIndex =
        (List.range (rest.length + 1)).map Nat.cast) :
      InOrder (first :: rest) rest.length

/-- The parts of a report agree. -/
structure Consistent (report : RecoveryReplayReport) : Prop where
  fills : InOrder report.fills report.maxStepCount
  events : report.events.length = report.blockedCount + report.holdCount +
    report.fills.countP (fun fill => fill.role = .recovery) + if report.closed then 1 else 0
  volume : |(report.fills.map RecoveryReplayFill.volume).sum - report.maxTotalVolume| ≤
    1 / 2 / 10 ^ 8
  closing : ∀ front event back, report.events = front ++ event :: back →
    event.action = .closeCycle → back = []

/-- A side, a base volume and quotes that rounding leaves positive. -/
structure Replayable (direction : String) (ticks : List Tick) (policy : RecoveryPolicy) :
    Prop where
  side : lower (strip direction) = "buy" ∨ lower (strip direction) = "sell"
  baseVolume : 0 < round policy.baseVolume 8
  quotes : ∀ tick ∈ ticks, ∀ price, tick.bid = some price ∨ tick.ask = some price →
    0 < round price 10

/-- No check of the next step closes the cycle. -/
theorem ne_close_of_check {check : Prop} [Decidable check] {refusal decision : RecoveryDecision}
    {rest : Except String RecoveryDecision} (hrefusal : refusal.action ≠ .closeCycle)
    (hrest : rest = .ok decision → decision.action ≠ .closeCycle)
    (h : (if check then .ok refusal else rest) = .ok decision) :
    decision.action ≠ .closeCycle := by
  split at h
  · cases h
    exact hrefusal
  · exact hrest h

theorem hold_ne_close (reason : String) (metadata : Metadata) :
    (hold reason metadata).action ≠ .closeCycle :=
  RecoveryModels.Action.noConfusion

theorem block_ne_close (reason : String) (metadata : Metadata) :
    (block reason metadata).action ≠ .closeCycle :=
  RecoveryModels.Action.noConfusion

variable {policy : RecoveryPolicy} {cycle : RecoveryCycleState} {decision : RecoveryDecision}
  {snapshot : RecoveryMarketSnapshot}

theorem assessStep_ne_close {adverse : ℚ}
    (h : assessStep policy cycle snapshot adverse = .ok decision) :
    decision.action ≠ .closeCycle := by
  simp only [assessStep] at h
  refine ne_close_of_check RecoveryModels.Action.noConfusion (fun h => ?_) h
  refine ne_close_of_check RecoveryModels.Action.noConfusion (fun h => ?_) h
  cases hprice : snapshot.entryPrice cycle.direction with
  | error message =>
    rw [hprice] at h
    cases h
  | ok price =>
    rw [hprice] at h
    cases h
    exact RecoveryModels.Action.noConfusion

theorem evaluateNextStep_ne_close {now : Option ℤ}
    (h : evaluateNextStep policy cycle snapshot now = .ok decision) :
    decision.action ≠ .closeCycle := by
  unfold evaluateNextStep at h
  refine ne_close_of_check (hold_ne_close _ _) (fun h => ?_) h
  refine ne_close_of_check (hold_ne_close _ _) (fun h => ?_) h
  refine ne_close_of_check (block_ne_close _ _) (fun h => ?_) h
  refine ne_close_of_check (block_ne_close _ _) (fun h => ?_) h
  refine ne_close_of_check (block_ne_close _ _) (fun h => ?_) h
  refine ne_close_of_check (hold_ne_close _ _) (fun h => ?_) h
  cases hadverse : adverseMovePoints policy cycle snapshot with
  | error message =>
    rw [hadverse] at h
    cases h
  | ok adverse =>
    rw [hadverse] at h
    simp only [bind, Except.bind] at h
    refine ne_close_of_check (hold_ne_close _ _) (fun h => ?_) h
    refine ne_close_of_check (hold_ne_close _ _) (fun h => ?_) h
    exact assessStep_ne_close h

/-- What a turn of the loop can do. -/
inductive Turn (policy : RecoveryPolicy) (s : Replay) (tick : Tick) : Replay → Prop
  | blocked {event : RecoveryDecision} (hevent : event.action ≠ .closeCycle) :
      Turn policy s tick (s.blocked event)
  | held {event : RecoveryDecision} (hevent : event.action ≠ .closeCycle) :
      Turn policy s tick (s.held event)
  | closed {event : RecoveryDecision} {closing : Closing} (hevent : event.action = .closeCycle) :
      Turn policy s tick (s.closedBy event closing)
  | filled {event : RecoveryDecision} {cycle : RecoveryCycleState} {price : ℚ}
      (hevent : event.action ≠ .closeCycle)
      (hstep : AppliedStep policy s.cycle tick.time price cycle) :
      Turn policy s tick (s.filled event (recoveryFill s.cycle.direction tick
        (s.cycle.stepCount + 1) (nextVolume policy s.cycle) price) cycle)

variable {next s : Replay} {symbol : String} {tick : Tick}

theorem replayStep_cases
    (hdecision : evaluateNextStep policy s.cycle (snapshotOf symbol tick) (some tick.time) =
      .ok decision) (h : replayStep s tick decision = .ok next) : Turn policy s tick next := by
  have hevent := evaluateNextStep_ne_close hdecision
  unfold replayStep at h
  cases haction : decision.action with
  | block =>
    rw [haction] at h
    cases h
    exact .blocked hevent
  | hold =>
    rw [haction] at h
    cases h
    exact .held hevent
  | closeCycle => exact absurd haction hevent
  | openStep =>
    have hopens := evaluateNextStep_opens hdecision haction
    rw [haction, hopens.volume, hopens.stepIndex] at h
    dsimp only at h
    cases hprice : decision.entryPrice with
    | none =>
      rw [hprice] at h
      cases h
    | some price =>
      rw [hprice] at h
      dsimp only at h
      cases hcycle : applyOpenStep s.cycle decision tick.time with
      | error message =>
        rw [hcycle] at h
        cases h
      | ok cycle =>
        rw [hcycle] at h
        cases h
        obtain ⟨price', hprice', hstep⟩ := appliedStep_of_ok hopens hcycle
        rw [hprice] at hprice'
        cases hprice'
        exact .filled hevent hstep

theorem replayTick_cases (h : replayTick policy symbol s tick = .ok next) :
    Turn policy s tick next := by
  unfold replayTick at h
  cases hexit : evaluateExit policy s.cycle (snapshotOf symbol tick) with
  | error message =>
    rw [hexit] at h
    cases h
  | ok exit =>
    rw [hexit] at h
    dsimp only at h
    have hnext : ∀ {x : Except String RecoveryDecision},
        x = evaluateNextStep policy s.cycle (snapshotOf symbol tick) (some tick.time) →
        x.bind (replayStep s tick) = .ok next → Turn policy s tick next := by
      intro x hx hbind
      cases x with
      | error message => cases hbind
      | ok decision => exact replayStep_cases hx.symm hbind
    cases haction : exit.action with
    | block =>
      rw [haction] at h
      cases h
      exact .blocked (by rw [haction]; exact RecoveryModels.Action.noConfusion)
    | closeCycle =>
      rw [haction] at h
      dsimp only at h
      cases hprice : exit.exitPrice with
      | none =>
        rw [hprice] at h
        cases h
      | some price =>
        rw [hprice] at h
        cases h
        exact .closed haction
    | hold =>
      rw [haction] at h
      exact hnext rfl h
    | openStep =>
      rw [haction] at h
      exact hnext rfl h

/-- The accounts of the loop, with the initial fill and the recovery fills after it. -/
structure Booked (base : ℚ) (s : Replay) (first : RecoveryReplayFill)
    (rest : List RecoveryReplayFill) : Prop where
  fills : s.fills = first :: rest
  initialRole : first.role = .initial
  initialVolume : first.volume = base
  recoveryRole : ∀ fill ∈ rest, fill.role = .recovery
  indices : (first :: rest).map RecoveryReplayFill.stepIndex =
    (List.range (rest.length + 1)).map Nat.cast
  stepCount : s.cycle.stepCount = rest.length
  added : AddedUp base (rest.map RecoveryReplayFill.volume) s.cycle.totalVolume
  largest : round s.maxTotalVolume 8 = round s.cycle.totalVolume 8
  events : s.events.length = s.blockedCount + s.holdCount + rest.length +
    if s.closing.isSome then 1 else 0
  running : s.closing = none → ∀ event ∈ s.events, event.action ≠ .closeCycle
  closing : ∀ front event back, s.events = front ++ event :: back →
    event.action = .closeCycle → back = []

variable {events : List RecoveryDecision}

theorem last_of_append {last : RecoveryDecision}
    (hrunning : ∀ event ∈ events, event.action ≠ .closeCycle) :
    ∀ front event back, events ++ [last] = front ++ event :: back →
      event.action = .closeCycle → back = [] := by
  intro front event back hsplit hclose
  rcases List.eq_nil_or_concat back with hnil | ⟨init, final, rfl⟩
  · exact hnil
  · rw [List.concat_eq_append, ← List.cons_append, ← List.append_assoc] at hsplit
    have hevents := (List.append_inj' hsplit rfl).1
    exact absurd hclose (hrunning event (by rw [hevents]; simp))

theorem running_append {last : RecoveryDecision}
    (hrunning : ∀ event ∈ events, event.action ≠ .closeCycle) (hlast : last.action ≠ .closeCycle) :
    ∀ event ∈ events ++ [last], event.action ≠ .closeCycle := by
  intro event hevent
  rcases List.mem_append.mp hevent with hold | hnew
  · exact hrunning event hold
  · rw [List.mem_singleton.mp hnew]
    exact hlast

/-- A step never brings the rounded total below the largest one so far. -/
theorem largest_filled {cycle next : RecoveryCycleState} {now : ℤ}
    {price largest : ℚ} (hstep : AppliedStep policy cycle now price next)
    (h : round largest 8 = round cycle.totalVolume 8) :
    round (max largest next.totalVolume) 8 = round next.totalVolume 8 := by
  have hmono : Monotone fun x : ℚ => round x 8 := fun _ _ hle => round_mono hle 8
  have hmax : round (max largest next.totalVolume) 8 =
      max (round largest 8) (round next.totalVolume 8) := hmono.map_max
  have hnext :
      round next.totalVolume 8 = round (cycle.totalVolume + nextVolume policy cycle) 8 := by
    rw [hstep.totalVolume, round_round]
  have hle : round cycle.totalVolume 8 ≤ round (cycle.totalVolume + nextVolume policy cycle) 8 :=
    round_mono (le_add_of_nonneg_right (nextVolume_nonneg policy cycle)) 8
  rw [hmax, h, hnext]
  exact max_eq_right hle

variable {base : ℚ} {first : RecoveryReplayFill} {rest : List RecoveryReplayFill}

/-- While the loop runs, every event is a block, a hold or a step. -/
theorem Booked.events_of_open (h : Booked base s first rest) (hopen : s.closing = none) :
    s.events.length = s.blockedCount + s.holdCount + rest.length := by
  have hcount := h.events
  rw [hopen] at hcount
  exact hcount

variable {price : ℚ}

/-- A fill is booked with its index, its volume and the new total. -/
theorem booked_filled {event : RecoveryDecision}
    (h : Booked base s first rest) (hopen : s.closing = none) (hevent : event.action ≠ .closeCycle)
    (hstep : AppliedStep policy s.cycle tick.time price cycle) :
    Booked base (s.filled event (recoveryFill s.cycle.direction tick (s.cycle.stepCount + 1)
        (nextVolume policy s.cycle) price) cycle) first
      (rest ++ [recoveryFill s.cycle.direction tick (s.cycle.stepCount + 1)
        (nextVolume policy s.cycle) price]) := by
  have hrunning := h.running hopen
  have hevents := h.events_of_open hopen
  have hcount : cycle.stepCount = (rest.length : ℤ) + 1 := by rw [hstep.stepCount, h.stepCount]
  have hlength : (rest ++ [recoveryFill s.cycle.direction tick (s.cycle.stepCount + 1)
      (nextVolume policy s.cycle) price]).length = rest.length + 1 := by
    rw [List.length_append, List.length_singleton]
  refine
    { fills := by rw [Replay.filled, h.fills, List.cons_append]
      initialRole := h.initialRole
      initialVolume := h.initialVolume
      recoveryRole := ?_
      indices := ?_
      stepCount := ?_
      added := ?_
      largest := largest_filled hstep h.largest
      events := ?_
      running := fun _ => running_append hrunning hevent
      closing := last_of_append hrunning }
  · intro fill hfill
    rcases List.mem_append.mp hfill with hold | hnew
    · exact h.recoveryRole fill hold
    · rw [List.mem_singleton.mp hnew]
      rfl
  · rw [← List.cons_append, List.map_append, h.indices, hlength,
      List.range_succ (n := rest.length + 1), List.map_append, h.stepCount]
    rfl
  · rw [hlength]
    exact hcount
  · rw [List.map_append, List.map_singleton]
    show AddedUp base (_ ++ [nextVolume policy s.cycle]) cycle.totalVolume
    rw [hstep.totalVolume]
    exact h.added.add (hasDecimals_nextVolume policy s.cycle)
  · simp only [Replay.filled, List.length_append, List.length_singleton, hevents, hopen,
      Option.isSome_none, Bool.false_eq_true, if_false]
    omega

theorem booked_turn (h : Booked base s first rest)
    (hopen : s.closing = none) (hturn : Turn policy s tick next) :
    ∃ rest', Booked base next first rest' := by
  have hrunning := h.running hopen
  have hevents := h.events_of_open hopen
  cases hturn with
  | @blocked event hevent =>
    refine ⟨rest, { h with
      events := ?_
      running := fun _ => running_append hrunning hevent
      closing := last_of_append hrunning }⟩
    simp only [Replay.blocked, List.length_append, List.length_singleton, hevents, hopen,
      Option.isSome_none, Bool.false_eq_true, if_false]
    omega
  | @held event hevent =>
    refine ⟨rest, { h with
      events := ?_
      running := fun _ => running_append hrunning hevent
      closing := last_of_append hrunning }⟩
    simp only [Replay.held, List.length_append, List.length_singleton, hevents, hopen,
      Option.isSome_none, Bool.false_eq_true, if_false]
    omega
  | @closed event closing hevent =>
    refine ⟨rest, { h with
      events := ?_
      running := fun hnone => absurd hnone (Option.some_ne_none closing)
      closing := last_of_append hrunning }⟩
    simp only [Replay.closedBy, List.length_append, List.length_singleton, hevents,
      Option.isSome_some, if_true]
  | filled hevent hstep => exact ⟨_, booked_filled h hopen hevent hstep⟩

variable {ticks : List Tick}

theorem booked_replay {s final : Replay} (h : Booked base s first rest) (hopen : s.closing = none)
    (hreplay : replay policy symbol s ticks = .ok final) :
    ∃ rest', Booked base final first rest' := by
  induction ticks generalizing s rest with
  | nil =>
    cases hreplay
    exact ⟨rest, h⟩
  | cons tick ticks ih =>
    rw [replay] at hreplay
    cases hturn : replayTick policy symbol s tick with
    | error message =>
      rw [hturn] at hreplay
      cases hreplay
    | ok next =>
      rw [hturn] at hreplay
      obtain ⟨rest', hnext⟩ := booked_turn h hopen (replayTick_cases hturn)
      dsimp only [Except.bind] at hreplay
      split at hreplay
      · cases hreplay
        exact ⟨rest', hnext⟩
      · rename_i hclosing
        exact ih hnext (Option.not_isSome_iff_eq_none.mp hclosing) hreplay

theorem AddedUp.close_round {initial total : ℚ} {added : List ℚ}
    (h : AddedUp initial added total) :
    |initial + added.sum - round total 8| ≤ 1 / 2 / 10 ^ 8 := by
  cases h with
  | nothing =>
    rw [List.sum_nil, add_zero]
    exact abs_sub_round_le initial 8
  | volumes hdecimals hclose =>
    rw [round_of_hasDecimals hdecimals, abs_sub_comm]
    exact hclose

/-- What the loop has booked makes a consistent report. -/
theorem consistent_report (h : Booked base s first rest) (symbol : String)
    (ticks : List Tick) : Consistent (report symbol ticks s) where
  fills := by
    show InOrder s.fills s.cycle.stepCount
    rw [h.fills, h.stepCount]
    exact .filled h.initialRole h.recoveryRole h.indices
  events := by
    have hcount : s.fills.countP (fun fill => fill.role = .recovery) = rest.length := by
      rw [h.fills, List.countP_cons_of_neg (by simp [h.initialRole]), List.countP_eq_length]
      exact fun fill hfill => decide_eq_true (h.recoveryRole fill hfill)
    show s.events.length = s.blockedCount + s.holdCount +
      s.fills.countP (fun fill => fill.role = .recovery) + if s.closing.isSome then 1 else 0
    rw [hcount, h.events]
  volume := by
    show |(s.fills.map RecoveryReplayFill.volume).sum - round s.maxTotalVolume 8| ≤ 1 / 2 / 10 ^ 8
    rw [h.fills, List.map_cons, List.sum_cons, h.initialVolume, h.largest]
    exact AddedUp.close_round h.added
  closing := h.closing

/-- A report without fills says that nothing was opened, or that the first tick was. -/
theorem consistent_emptyReport (symbol direction : String) (ticks : List Tick)
    {blockedCount : ℕ} (hcount : events.length = blockedCount)
    (hevents : ∀ event ∈ events, event.action ≠ .closeCycle) :
    Consistent (emptyReport symbol direction ticks events blockedCount) where
  fills := .none
  events := by simpa [emptyReport] using hcount
  volume := by
    show |((([] : List RecoveryReplayFill).map RecoveryReplayFill.volume).sum - (0 : ℚ))| ≤ _
    rw [List.map_nil, List.sum_nil, sub_self, abs_zero]
    positivity
  closing := by
    intro front event back hsplit hclose
    refine absurd hclose (hevents event ?_)
    have hsplit' : events = front ++ event :: back := hsplit
    rw [hsplit']
    simp

variable {accountKey cycleId direction : String}

theorem booked_start
    (h : RecoveryCycleState.mk?
      (initialFields symbol direction accountKey cycleId policy price tick.time) = .ok cycle) :
    ∃ first,
      Booked policy.baseVolume (startReplay cycle policy.baseVolume price tick) first [] := by
  have hfields := RecoveryCycleState.fields_of_mk? h
  have htotal : cycle.totalVolume = policy.baseVolume := congrArg CycleFields.totalVolume hfields
  have hcount : cycle.stepCount = 0 := congrArg CycleFields.stepCount hfields
  refine ⟨_,
    { fills := rfl
      initialRole := rfl
      initialVolume := rfl
      recoveryRole := fun _ hfill => absurd hfill List.not_mem_nil
      indices := rfl
      stepCount := hcount
      added := ?_
      largest := rfl
      events := rfl
      running := fun _ _ hevent => absurd hevent List.not_mem_nil
      closing := fun front event back hsplit _ => ?_ }⟩
  · show AddedUp policy.baseVolume [] cycle.totalVolume
    rw [htotal]
    exact .nothing
  · have hempty : [] = front ++ event :: back := hsplit
    simp at hempty

/-- The report of a replay that starts with an accepted cycle. -/
theorem consistent_of_replay {first : Tick} {rest : List Tick} {result : RecoveryReplayReport}
    (h : ((RecoveryCycleState.mk?
        (initialFields symbol direction accountKey cycleId policy price first.time)).bind
      fun cycle => (replay policy symbol (startReplay cycle policy.baseVolume price first) rest).map
        (report symbol (first :: rest))) = .ok result) : Consistent result := by
  cases hcycle : RecoveryCycleState.mk?
      (initialFields symbol direction accountKey cycleId policy price first.time) with
  | error message =>
    rw [hcycle] at h
    cases h
  | ok cycle =>
    rw [hcycle] at h
    dsimp only [Except.bind] at h
    cases hreplay : replay policy symbol (startReplay cycle policy.baseVolume price first) rest with
    | error message =>
      rw [hreplay] at h
      cases h
    | ok final =>
      rw [hreplay] at h
      cases h
      obtain ⟨initial, hstart⟩ := booked_start hcycle
      obtain ⟨recoveries, hfinal⟩ := booked_replay hstart rfl hreplay
      exact consistent_report hfinal symbol (first :: rest)

theorem consistent_of_run {result : RecoveryReplayReport}
    (h : run symbol direction ticks policy accountKey cycleId = .ok result) :
    Consistent result := by
  have hnone : ∀ event ∈ ([] : List RecoveryDecision), event.action ≠ .closeCycle :=
    fun _ hevent => absurd hevent List.not_mem_nil
  have hblock : ∀ event ∈ [block "quote_side_missing" []], event.action ≠ .closeCycle := by
    intro event hevent
    rw [List.mem_singleton.mp hevent]
    exact block_ne_close _ _
  unfold run at h
  cases hordered : orderedTicks ticks with
  | nil =>
    rw [hordered] at h
    cases h
    exact consistent_emptyReport symbol direction [] rfl hnone
  | cons first rest =>
    rw [hordered] at h
    dsimp only at h
    split at h
    · cases hprice : (snapshotOf symbol first).entryPrice direction with
      | error message =>
        rw [hprice] at h
        cases h
      | ok price =>
        rw [hprice] at h
        cases price with
        | none =>
          cases h
          exact consistent_emptyReport symbol direction (first :: rest) rfl hblock
        | some price => exact consistent_of_replay h
    · cases h
      exact consistent_emptyReport symbol direction (first :: rest) rfl hblock

/-- A cycle that every further step leaves acceptable. -/
structure Sound (cycle : RecoveryCycleState) : Prop where
  side : cycle.direction = "buy" ∨ cycle.direction = "sell"
  average : 0 < round cycle.averageEntryPrice 10
  total : 0 < round cycle.totalVolume 8

theorem lower_strip_side (h : direction = "buy" ∨ direction = "sell") :
    lower (strip direction) = direction := by
  rcases h with rfl | rfl
  · decide
  · decide

theorem Sound.lowered (h : Sound cycle) :
    lower (strip cycle.direction) = "buy" ∨ lower (strip cycle.direction) = "sell" := by
  rw [lower_strip_side h.side]
  exact h.side

theorem pos_of_round_pos {x : ℚ} {digits : ℕ} (h : 0 < round x digits) : 0 < x := by
  by_contra hle
  have hround := round_mono (not_lt.mp hle) digits
  have hzero : round 0 digits = 0 := by
    unfold PyNumber.round
    rw [zero_mul]
    simp [show roundHalfEven 0 = 0 from roundHalfEven_intCast 0]
  rw [hzero] at hround
  exact absurd h (not_lt.mpr hround)

theorem exists_exitPrice (symbol : String) (tick : Tick)
    (hside : direction = "buy" ∨ direction = "sell")
    (hquotes : (snapshotOf symbol tick).hasBidAsk = true) :
    ∃ price, (snapshotOf symbol tick).exitPrice direction = .ok (some price) := by
  obtain ⟨hbid, hask⟩ := Bool.and_eq_true_iff.mp hquotes
  obtain ⟨bid, hbid⟩ := Option.isSome_iff_exists.mp hbid
  obtain ⟨ask, hask⟩ := Option.isSome_iff_exists.mp hask
  unfold RecoveryMarketSnapshot.exitPrice
  rw [lower_strip_side hside, hbid, hask]
  rcases hside with rfl | rfl
  · exact ⟨bid, rfl⟩
  · exact ⟨ask, rfl⟩

/-- The entry price of a tradable tick is one of its quotes. -/
theorem exists_entryPrice (symbol direction : String)
    (hside : lower (strip direction) = "buy" ∨ lower (strip direction) = "sell")
    (hquotes : (snapshotOf symbol tick).hasBidAsk = true) :
    ∃ price, (snapshotOf symbol tick).entryPrice direction = .ok (some price) ∧
      (tick.bid = some price ∨ tick.ask = some price) := by
  obtain ⟨hbid, hask⟩ := Bool.and_eq_true_iff.mp hquotes
  obtain ⟨bid, hbid⟩ := Option.isSome_iff_exists.mp hbid
  obtain ⟨ask, hask⟩ := Option.isSome_iff_exists.mp hask
  unfold RecoveryMarketSnapshot.entryPrice
  rw [hbid, hask]
  rcases hside with hside | hside
  · rw [hside]
    exact ⟨ask, rfl, Or.inr hask⟩
  · rw [hside]
    exact ⟨bid, rfl, Or.inl hbid⟩

/-- A check before the rest leaves a decision when the rest does. -/
theorem exists_of_check {check : Prop} [Decidable check] {refusal : RecoveryDecision}
    {rest : Except String RecoveryDecision} (h : ¬ check → ∃ decision, rest = .ok decision) :
    ∃ decision, (if check then .ok refusal else rest) = .ok decision := by
  by_cases hcheck : check
  · rw [if_pos hcheck]
    exact ⟨refusal, rfl⟩
  · rw [if_neg hcheck]
    exact h hcheck

theorem exists_evaluateExit (policy : RecoveryPolicy)
    (symbol : String) (tick : Tick) (h : Sound cycle) :
    ∃ decision, evaluateExit policy cycle (snapshotOf symbol tick) = .ok decision := by
  unfold evaluateExit
  refine exists_of_check fun _ => exists_of_check fun _ => exists_of_check fun hquotes => ?_
  obtain ⟨price, hprice⟩ := exists_exitPrice symbol tick h.side
    (by simpa using hquotes)
  rw [hprice]
  exact ⟨_, rfl⟩

/-- The exit model closes a cycle at a price. -/
theorem exitPrice_of_close (h : evaluateExit policy cycle snapshot = .ok decision)
    (hclose : decision.action = .closeCycle) : decision.exitPrice ≠ none := by
  unfold evaluateExit at h
  split at h
  · cases h
    exact absurd hclose (hold_ne_close _ _)
  split at h
  · cases h
    exact absurd hclose (block_ne_close _ _)
  split at h
  · cases h
    exact absurd hclose (block_ne_close _ _)
  cases hprice : snapshot.exitPrice cycle.direction with
  | error message =>
    rw [hprice] at h
    cases h
  | ok price =>
    rw [hprice] at h
    cases price with
    | none => cases h
    | some price =>
      cases h
      unfold exitDecision
      dsimp only
      split_ifs <;> exact Option.some_ne_none price

theorem exists_evaluateNextStep (policy : RecoveryPolicy)
    (symbol : String) (tick : Tick) (now : Option ℤ) (h : Sound cycle) :
    ∃ decision, evaluateNextStep policy cycle (snapshotOf symbol tick) now = .ok decision := by
  unfold evaluateNextStep
  refine exists_of_check fun _ => exists_of_check fun _ => exists_of_check fun _ =>
    exists_of_check fun hquotes => exists_of_check fun _ => exists_of_check fun _ => ?_
  have hquotes : (snapshotOf symbol tick).hasBidAsk = true := by simpa using hquotes
  obtain ⟨exit, hexit⟩ := exists_exitPrice symbol tick h.side hquotes
  obtain ⟨entry, hentry, _⟩ := exists_entryPrice symbol cycle.direction h.lowered hquotes
  simp only [adverseMovePoints, hexit, bind, Except.bind]
  refine exists_of_check fun _ => exists_of_check fun _ => ?_
  unfold assessStep
  refine exists_of_check fun _ => exists_of_check fun _ => ?_
  rw [hentry]
  exact ⟨_, rfl⟩

/-- The constructor accepts what passes its checks one by one. -/
theorem exists_mk? {c : CycleFields}
    (hdirection : ["buy", "sell"].contains (lower (strip c.direction)) = true)
    (hstatus : ["open", "closed", "blocked"].contains (lower (strip c.status)) = true)
    (hbase : 0 < c.baseVolume) (htotal : 0 < c.totalVolume) (hcount : 0 ≤ c.stepCount)
    (haverage : 0 < c.averageEntryPrice) (hlast : 0 < c.lastEntryPrice) :
    ∃ cycle, RecoveryCycleState.mk? c = .ok cycle := by
  rw [RecoveryCycleState.exists_mk?_eq_ok, firstFailure_eq_none]
  simp only [CycleFields.checks, List.forall_mem_cons, decide_eq_true_eq]
  exact ⟨hdirection, hstatus, hbase, htotal, hcount, ⟨haverage, hlast⟩,
    fun _ hnone => absurd hnone List.not_mem_nil⟩

theorem round_mean_pos {average total price volume : ℚ} (htotal : 0 < total)
    (hvolume : 0 ≤ volume) (haverage : 0 < round average 10) (hprice : 0 < round price 10) :
    0 < round (round (mean average total price volume) 10) 10 := by
  rw [round_round]
  rcases le_total average price with hle | hle
  · exact haverage.trans_le (round_mono (le_mean htotal hvolume le_rfl hle) 10)
  · exact hprice.trans_le (round_mono (le_mean htotal hvolume hle le_rfl) 10)

/-- A step at a price that stays positive is applied, and the cycle stays sound. -/
theorem exists_applyOpenStep (now : ℤ)
    (hsound : Sound cycle) (hopens : OpensStep policy cycle snapshot decision)
    (haction : decision.action = .openStep) (hentry : decision.entryPrice = some price)
    (hprice : 0 < round price 10) :
    ∃ next, applyOpenStep cycle decision now = .ok next ∧ Sound next := by
  have hcycle := firstFailure_eq_none.mp cycle.accepted
  simp only [CycleFields.checks, List.forall_mem_cons, decide_eq_true_eq] at hcycle
  obtain ⟨hdirection, hstatus, hbase, htotal, hcount, _⟩ := hcycle
  have hvolume := nextVolume_nonneg policy cycle
  have haverage := round_mean_pos htotal hvolume hsound.average hprice
  have hsum : 0 < round (cycle.totalVolume + nextVolume policy cycle) 8 :=
    hsound.total.trans_le (round_mono (le_add_of_nonneg_right hvolume) 8)
  unfold applyOpenStep
  rw [if_neg (not_not.mpr haction), hopens.volume, hentry, hopens.stepIndex]
  dsimp only
  obtain ⟨next, hnext⟩ := exists_mk? (c :=
    { cycle.toCycleFields with
      totalVolume := round (cycle.totalVolume + nextVolume policy cycle) 8
      stepCount := cycle.stepCount + 1
      averageEntryPrice :=
        round (mean cycle.averageEntryPrice cycle.totalVolume price (nextVolume policy cycle)) 10
      lastEntryPrice := price
      lastStepAt := some now
      updatedAt := now }) hdirection hstatus hbase
    (pos_of_round_pos (by rwa [round_round])) (by dsimp only; omega)
    (pos_of_round_pos haverage) (pos_of_round_pos hprice)
  have hfields := RecoveryCycleState.fields_of_mk? hnext
  refine ⟨next, hnext, ?_, ?_, ?_⟩
  · rw [hfields]
    exact hsound.side
  · rw [hfields]
    exact haverage
  · rw [hfields]
    dsimp only
    rw [round_round]
    exact hsum

/-- The two quotes of a tick stay positive when prices are rounded. -/
def Quoted (tick : Tick) : Prop :=
  ∀ price, tick.bid = some price ∨ tick.ask = some price → 0 < round price 10

theorem exists_replayStep (hsound : Sound s.cycle) (htick : Quoted tick)
    (hdecision : evaluateNextStep policy s.cycle (snapshotOf symbol tick) (some tick.time) =
      .ok decision) : ∃ next, replayStep s tick decision = .ok next ∧ Sound next.cycle := by
  unfold replayStep
  cases haction : decision.action with
  | block => exact ⟨_, rfl, hsound⟩
  | hold => exact ⟨_, rfl, hsound⟩
  | closeCycle => exact absurd haction (evaluateNextStep_ne_close hdecision)
  | openStep =>
    have hopens := evaluateNextStep_opens hdecision haction
    obtain ⟨price, hprice, hquote⟩ :=
      exists_entryPrice symbol s.cycle.direction hsound.lowered hopens.hasBidAsk
    have hentry : decision.entryPrice = some price :=
      Except.ok.inj (hopens.entryPrice.symm.trans hprice)
    obtain ⟨next, hnext, hsound'⟩ := exists_applyOpenStep tick.time hsound hopens haction
      hentry (htick price hquote)
    rw [hopens.volume, hentry, hopens.stepIndex, hnext]
    exact ⟨_, rfl, hsound'⟩

theorem exists_replayTick (policy : RecoveryPolicy) (symbol : String)
    (hsound : Sound s.cycle) (htick : Quoted tick) :
    ∃ next, replayTick policy symbol s tick = .ok next ∧ Sound next.cycle := by
  obtain ⟨decision, hdecision⟩ :=
    exists_evaluateNextStep policy symbol tick (some tick.time) hsound
  have hstep := exists_replayStep hsound htick hdecision
  obtain ⟨exit, hexit⟩ := exists_evaluateExit policy symbol tick hsound
  unfold replayTick
  rw [hexit, hdecision]
  dsimp only [Except.bind]
  cases haction : exit.action with
  | block => exact ⟨_, rfl, hsound⟩
  | closeCycle =>
    dsimp only
    cases hprice : exit.exitPrice with
    | none => exact absurd hprice (exitPrice_of_close hexit haction)
    | some price => exact ⟨_, rfl, hsound⟩
  | hold => exact hstep
  | openStep => exact hstep

theorem exists_replay (policy : RecoveryPolicy) (symbol : String)
    (hsound : Sound s.cycle) (hticks : ∀ tick ∈ ticks, Quoted tick) :
    ∃ final, replay policy symbol s ticks = .ok final := by
  induction ticks generalizing s with
  | nil => exact ⟨s, rfl⟩
  | cons tick ticks ih =>
    obtain ⟨next, hnext, hsound'⟩ :=
      exists_replayTick policy symbol hsound (hticks tick List.mem_cons_self)
    rw [replay, hnext]
    dsimp only [Except.bind]
    by_cases hclosing : next.closing.isSome = true
    · rw [if_pos hclosing]
      exact ⟨next, rfl⟩
    · rw [if_neg hclosing]
      exact ih hsound' fun other hother => hticks other (List.mem_cons_of_mem _ hother)

/-- The initial cycle at a positive price is accepted, and it is sound. -/
theorem exists_initial (symbol : String) (accountKey cycleId : String) (time : ℤ)
    (h : Replayable direction ticks policy) (hpositive : 0 < round price 10) :
    ∃ cycle, RecoveryCycleState.mk?
      (initialFields symbol direction accountKey cycleId policy price time) = .ok cycle ∧
        Sound cycle := by
  have hdirection : ["buy", "sell"].contains (lower (strip (lower (strip direction)))) = true := by
    rw [lower_strip_side h.side]
    rcases h.side with hside | hside
    · simp [hside]
    · simp [hside]
  have hstatus : ["open", "closed", "blocked"].contains (lower (strip "open")) = true := by
    decide
  obtain ⟨cycle, hcycle⟩ := exists_mk?
    (c := initialFields symbol direction accountKey cycleId policy price time)
    hdirection hstatus policy.baseVolume_pos policy.baseVolume_pos le_rfl
    (pos_of_round_pos hpositive) (pos_of_round_pos hpositive)
  have hfields := RecoveryCycleState.fields_of_mk? hcycle
  refine ⟨cycle, hcycle, ?_, ?_, ?_⟩
  · rw [hfields]
    exact h.side
  · rw [hfields]
    exact hpositive
  · rw [hfields]
    exact h.baseVolume

theorem exists_run (h : Replayable direction ticks policy) :
    ∃ report, run symbol direction ticks policy accountKey cycleId = .ok report := by
  have hticks : ∀ tick ∈ orderedTicks ticks, Quoted tick := by
    intro tick htick
    exact h.quotes tick (List.mem_mergeSort.mp htick)
  unfold run
  cases hordered : orderedTicks ticks with
  | nil => exact ⟨_, rfl⟩
  | cons first rest =>
    rw [hordered] at hticks
    dsimp only
    by_cases htradable : isTradable first = true
    · rw [if_pos htradable]
      obtain ⟨price, hprice, hquote⟩ := exists_entryPrice symbol direction h.side htradable
      have hpositive := hticks first List.mem_cons_self price hquote
      obtain ⟨cycle, hcycle, hsound⟩ :=
        exists_initial symbol accountKey cycleId first.time h hpositive
      obtain ⟨final, hfinal⟩ := exists_replay policy symbol
        (s := startReplay cycle policy.baseVolume price first) hsound
        fun tick htick => hticks tick (List.mem_cons_of_mem _ htick)
      rw [hprice]
      dsimp only
      rw [hcycle]
      dsimp only [Except.bind]
      rw [hfinal]
      exact ⟨_, rfl⟩
    · rw [if_neg htradable]
      exact ⟨_, rfl⟩

/-- A report that is returned is consistent, and there is one when the direction is a side
and the base volume and the quotes stay positive when rounded. -/
theorem replay_consistent (symbol direction : String) (ticks : List Tick) (policy : RecoveryPolicy)
    (accountKey cycleId : String) :
    (∀ report, run symbol direction ticks policy accountKey cycleId = .ok report →
      Consistent report) ∧
      (Replayable direction ticks policy →
        ∃ report, run symbol direction ticks policy accountKey cycleId = .ok report) :=
  ⟨fun _ h => consistent_of_run h, exists_run⟩

/-- Sold at 1999, with a step at 2001. -/
def risingTicks : List Tick :=
  [{ bid := some 2001, ask := some 2002, time := 10 ^ 6 },
    { bid := some 1999, ask := some 2000, time := 0 }]

theorem rising_replayable : Replayable " Sell" risingTicks doublingPolicy where
  side := Or.inr (by decide)
  baseVolume := by decide +kernel
  quotes := by
    simp only [risingTicks, List.forall_mem_cons, Option.some.injEq]
    refine ⟨?_, ?_, fun _ hnone => absurd hnone List.not_mem_nil⟩
    · rintro price (rfl | rfl) <;> decide +kernel
    · rintro price (rfl | rfl) <;> decide +kernel

theorem replay_consistent_rising : ∃ report,
    run "XAUUSD" " Sell" risingTicks doublingPolicy "demo" "c1" = .ok report ∧
      Consistent report := by
  obtain ⟨report, hreport⟩ :=
    (replay_consistent "XAUUSD" " Sell" risingTicks doublingPolicy "demo" "c1").2 rising_replayable
  exact ⟨report, hreport,
    (replay_consistent "XAUUSD" " Sell" risingTicks doublingPolicy "demo" "c1").1 report hreport⟩

def openingTick : Tick := { bid := some 2000, ask := some 2000, time := 0 }

/-- `direction` is checked by the constructors only, and they raise. -/
theorem run_unknown_direction :
    ¬ ∀ (symbol direction : String) (ticks : List Tick) (policy : RecoveryPolicy)
      (accountKey cycleId : String), ∃ report,
        run symbol direction ticks policy accountKey cycleId = .ok report ∧ Consistent report := by
  intro h
  obtain ⟨report, hreport, _⟩ := h "XAUUSD" "up" [openingTick] doublingPolicy "demo" "c1"
  have herror : run "XAUUSD" "up" [openingTick] doublingPolicy "demo" "c1" =
      .error "direction must be buy or sell" := by
    decide +kernel
  rw [herror] at hreport
  cases hreport

end MT5Services.RecoveryReplay
