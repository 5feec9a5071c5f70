import MT5Services.PyText
import MT5Services.PyNumber

/-!
The data of the bounded recovery: policy, cycle, market snapshot, decision, scaling
intent and execution plan, with the checks of their constructors in the order of the
source. Volumes, prices and points are exact rationals and times are integers in
microseconds. Of a cycle's metadata only the submitted tickets are read; an entry is
what `int(item.get("ticket"))` gives, if it gives anything.
-/
namespace MT5Services.RecoveryModels

open PyText

/-- The first check that fails, with its message. -/
def firstFailure (checks : List (Bool × String)) : Option String :=
  (checks.find? fun check => !check.1).map Prod.snd

theorem firstFailure_eq_none {checks : List (Bool × String)} :
    firstFailure checks = none ↔ ∀ check ∈ checks, check.1 = true := by
  simp [firstFailure]

/-- `str(text or fallback).strip().lower()`. -/
def normalized (text fallback : String) : String :=
  lower (strip (if text = "" then fallback else text))

structure PolicyFields where
  enabled : Bool
  baseVolume : ℚ
  multiplier : ℚ
  maxSteps : ℤ
  maxTotalVolume : ℚ
  stepDistancePoints : ℚ
  recoveryTargetPoints : ℚ
  point : ℚ
  maxNextVolume : Option ℚ := none
  minStepIntervalMs : ℤ := 0
  maxStepAdverseMovePoints : ℚ := 0
  volumeStep : ℚ := 1 / 100
  contractSize : ℚ := 100
  directionMode : String := "fixed"
  minDirectionalMovePoints : ℚ := 0
  maxDirectionalMovePoints : ℚ := 0
  minPressureDelta : ℚ := 0
  maxEntrySpreadPoints : Option ℚ := none
  slippageBudgetPoints : ℚ := 0
  commissionPoints : ℚ := 0
  minNetProfitPoints : ℚ := 0
  maxCycleLossPoints : ℚ := 0
  maxCycleDurationSeconds : ℚ := 0
  maxStepsExitMode : String := "hold"
  maxStepsHoldSeconds : ℚ := 0

def positiveOrNone (value : Option ℚ) : Bool := value.all fun x => 0 < x

/-- The checks of `RecoveryPolicy.__post_init__`. -/
def PolicyFields.checks (p : PolicyFields) : List (Bool × String) :=
  [(["fixed", "auto"].contains (normalized p.directionMode "fixed"),
      "direction_mode must be fixed or auto"),
    (0 < p.baseVolume, "base_volume must be > 0"),
    (1 ≤ p.multiplier, "multiplier must be >= 1.0"),
    (0 ≤ p.maxSteps, "max_steps must be >= 0"),
    (p.baseVolume ≤ p.maxTotalVolume, "max_total_volume must be >= base_volume"),
    (positiveOrNone p.maxNextVolume, "max_next_volume must be None or > 0"),
    (0 < p.stepDistancePoints, "step_distance_points must be > 0"),
    (0 ≤ p.recoveryTargetPoints, "recovery_target_points must be >= 0"),
    (0 < p.point, "point must be > 0"),
    (0 ≤ p.minStepIntervalMs, "min_step_interval_ms must be >= 0"),
    (0 ≤ p.maxStepAdverseMovePoints, "max_step_adverse_move_points must be >= 0"),
    (0 ≤ p.volumeStep, "volume_step must be >= 0"),
    (0 < p.contractSize, "contract_size must be > 0"),
    (0 ≤ p.minDirectionalMovePoints, "min_directional_move_points must be >= 0"),
    (0 ≤ p.maxDirectionalMovePoints, "max_directional_move_points must be >= 0"),
    (0 ≤ p.minPressureDelta, "min_pressure_delta must be >= 0"),
    (positiveOrNone p.maxEntrySpreadPoints, "max_entry_spread_points must be None or > 0"),
    (0 ≤ p.slippageBudgetPoints, "slippage_budget_points must be >= 0"),
    (0 ≤ p.commissionPoints, "commission_points must be >= 0"),
    (0 ≤ p.minNetProfitPoints, "min_net_profit_points must be >= 0"),
    (0 ≤ p.maxCycleLossPoints, "max_cycle_loss_points must be >= 0"),
    (0 ≤ p.maxCycleDurationSeconds, "max_cycle_duration_seconds must be >= 0"),
    (0 ≤ p.maxStepsHoldSeconds, "max_steps_hold_seconds must be >= 0"),
    (["hold", "close_cycle"].contains (normalized p.maxStepsExitMode "hold"),
      "max_steps_exit_mode must be hold or close_cycle")]

/-- A policy its constructor accepts. -/
structure RecoveryPolicy extends PolicyFields where
  accepted : firstFailure toPolicyFields.checks = none

namespace RecoveryPolicy

theorem baseVolume_pos (policy : RecoveryPolicy) : 0 < policy.baseVolume := by
  have h := firstFailure_eq_none.mp policy.accepted
  simp only [PolicyFields.checks, List.forall_mem_cons, decide_eq_true_eq] at h
  exact h.2.1

theorem maxSteps_nonneg (policy : RecoveryPolicy) : 0 ≤ policy.maxSteps := by
  have h := firstFailure_eq_none.mp policy.accepted
  simp only [PolicyFields.checks, List.forall_mem_cons, decide_eq_true_eq] at h
  exact h.2.2.2.1

theorem baseVolume_le (policy : RecoveryPolicy) :
    policy.baseVolume ≤ policy.maxTotalVolume := by
  have h := firstFailure_eq_none.mp policy.accepted
  simp only [PolicyFields.checks, List.forall_mem_cons, decide_eq_true_eq] at h
  exact h.2.2.2.2.1

theorem volumeStep_nonneg (policy : RecoveryPolicy) : 0 ≤ policy.volumeStep := by
  have h := firstFailure_eq_none.mp policy.accepted
  simp only [PolicyFields.checks, List.forall_mem_cons, decide_eq_true_eq] at h
  exact h.2.2.2.2.2.2.2.2.2.2.2.1

end RecoveryPolicy

structure CycleFields where
  cycleId : String
  accountKey : String
  symbol : String
  direction : String
  status : String
  baseVolume : ℚ
  totalVolume : ℚ
  stepCount : ℤ
  averageEntryPrice : ℚ
  lastEntryPrice : ℚ
  startedAt : ℤ
  updatedAt : ℤ
  lastStepAt : Option ℤ := none
  strategy : String := ""
  timeframe : String := ""
  sourceSignalId : Option String := none
  submittedTickets : List (Option ℤ) := []

/-- The checks of `RecoveryCycleState.__post_init__`, which normalises nothing. -/
def CycleFields.checks (c : CycleFields) : List (Bool × String) :=
  [(["buy", "sell"].contains (lower (strip c.direction)), "direction must be buy or sell"),
    (["open", "closed", "blocked"].contains (lower (strip c.status)),
      "status must be open, closed, or blocked"),
    (0 < c.baseVolume, "base_volume must be > 0"),
    (0 < c.totalVolume, "total_volume must be > 0"),
    (0 ≤ c.stepCount, "step_count must be >= 0"),
    (0 < c.averageEntryPrice ∧ 0 < c.lastEntryPrice, "entry prices must be > 0")]

/-- A cycle its constructor accepts. -/
structure RecoveryCycleState extends CycleFields where
  accepted : firstFailure toCycleFields.checks = none

theorem RecoveryCycleState.stepCount_nonneg (cycle : RecoveryCycleState) :
    0 ≤ cycle.stepCount := by
  have h := firstFailure_eq_none.mp cycle.accepted
  simp only [CycleFields.checks, List.forall_mem_cons, decide_eq_true_eq] at h
  exact h.2.2.2.2.1

theorem RecoveryCycleState.direction_valid (cycle : RecoveryCycleState) :
    ["buy", "sell"].contains (lower (strip cycle.direction)) = true := by
  have h := firstFailure_eq_none.mp cycle.accepted
  simp only [CycleFields.checks, List.forall_mem_cons] at h
  exact h.1

/-- The constructor, which `dataclasses.replace` also runs. -/
def RecoveryCycleState.mk? (c : CycleFields) : Except String RecoveryCycleState :=
  match h : firstFailure c.checks with
  | none => .ok ⟨c, h⟩
  | some message => .error message

theorem RecoveryCycleState.fields_of_mk? {c : CycleFields} {cycle : RecoveryCycleState}
    (h : mk? c = .ok cycle) : cycle.toCycleFields = c := by
  unfold mk? at h
  split at h
  · cases h
    rfl
  · cases h

theorem RecoveryCycleState.exists_mk?_eq_ok {c : CycleFields} :
    (∃ cycle, mk? c = .ok cycle) ↔ firstFailure c.checks = none := by
  unfold mk?
  split
  · rename_i hnone
    exact ⟨fun _ => hnone, fun _ => ⟨_, rfl⟩⟩
  · rename_i message hmessage
    constructor
    · rintro ⟨cycle, h⟩
      cases h
    · intro h
      rw [hmessage] at h
      cases h

structure RecoveryMarketSnapshot where
  symbol : String
  bid : Option ℚ
  ask : Option ℚ
  time : ℤ

namespace RecoveryMarketSnapshot

def hasBidAsk (snapshot : RecoveryMarketSnapshot) : Bool :=
  snapshot.bid.isSome && snapshot.ask.isSome

def entryPrice (snapshot : RecoveryMarketSnapshot) (direction : String) :
    Except String (Option ℚ) :=
  if lower (strip direction) = "buy" then .ok snapshot.ask
  else if lower (strip direction) = "sell" then .ok snapshot.bid
  else .error "direction must be buy or sell"

def exitPrice (snapshot : RecoveryMarketSnapshot) (direction : String) :
    Except String (Option ℚ) :=
  if lower (strip direction) = "buy" then .ok snapshot.bid
  else if lower (strip direction) = "sell" then .ok snapshot.ask
  else .error "direction must be buy or sell"

end RecoveryMarketSnapshot

/-- A value in the metadata of a decision. -/
inductive Datum
  | text (value : String)
  | number (value : ℚ)
  | missing
  deriving DecidableEq, Repr

def Datum.optional (value : Option ℚ) : Datum := value.elim .missing .number

abbrev Metadata := List (String × Datum)

inductive Action
  | openStep
  | closeCycle
  | hold
  | block
  deriving DecidableEq, Repr

structure RecoveryDecision where
  action : Action
  reason : String
  stepIndex : Option ℤ := none
  volume : Option ℚ := none
  entryPrice : Option ℚ := none
  exitPrice : Option ℚ := none
  metadata : Metadata := []
  deriving DecidableEq, Repr

structure PositionScalingIntent where
  cycleId : String
  accountKey : String
  symbol : String
  direction : String
  strategy : String
  timeframe : String
  stepIndex : ℤ
  volume : ℚ
  entryPrice : Option ℚ
  reason : String
  createdAt : ℤ
  sourceSignalId : Option String
  metadata : Metadata
  deriving DecidableEq, Repr

/-- The checks of `PositionScalingIntent.__post_init__`. -/
def PositionScalingIntent.checks (intent : PositionScalingIntent) : List (Bool × String) :=
  [(strip intent.cycleId ≠ "", "cycle_id is required"),
    (strip intent.accountKey ≠ "", "account_key is required"),
    (strip intent.symbol ≠ "", "symbol is required"),
    (["buy", "sell"].contains (lower (strip intent.direction)), "direction must be buy or sell"),
    (0 < intent.stepIndex, "step_index must be > 0"),
    (0 < intent.volume, "volume must be > 0"),
    (positiveOrNone intent.entryPrice, "entry_price must be None or > 0"),
    (strip intent.reason ≠ "", "reason is required")]

/-- The constructor keeps the normalised direction. -/
def PositionScalingIntent.postInit (intent : PositionScalingIntent) :
    Except String PositionScalingIntent :=
  match firstFailure intent.checks with
  | none => .ok { intent with direction := lower (strip intent.direction) }
  | some message => .error message

theorem PositionScalingIntent.postInit_eq_ok {intent built : PositionScalingIntent} :
    intent.postInit = .ok built ↔
      firstFailure intent.checks = none ∧
        built = { intent with direction := lower (strip intent.direction) } := by
  unfold postInit
  split
  · rename_i hnone
    rw [Except.ok.injEq, hnone]
    exact ⟨fun h => ⟨rfl, h.symm⟩, fun h => h.2.symm⟩
  · rename_i message hmessage
    rw [hmessage]
    constructor
    · intro h
      cases h
    · rintro ⟨h, _⟩
      cases h

structure RecoveryExecutionPlan where
  action : Action
  reason : String
  cycleId : String
  accountKey : String
  createdAt : ℤ
  positionScalingIntent : Option PositionScalingIntent
  exitPrice : Option ℚ
  metadata : Metadata
  deriving DecidableEq, Repr

/-- The intent an `open_step` decision asks for. -/
def intentOf (cycle : RecoveryCycleState) (decision : RecoveryDecision) (createdAt stepIndex : ℤ)
    (volume entryPrice : ℚ) : PositionScalingIntent where
  cycleId := cycle.cycleId
  accountKey := cycle.accountKey
  symbol := cycle.symbol
  direction := cycle.direction
  strategy := cycle.strategy
  timeframe := cycle.timeframe
  stepIndex := stepIndex
  volume := volume
  entryPrice := some entryPrice
  reason := decision.reason
  createdAt := createdAt
  sourceSignalId := cycle.sourceSignalId
  metadata := decision.metadata

/-- The plan of a decision around the intent built for it. -/
def planOf (cycle : RecoveryCycleState) (decision : RecoveryDecision) (createdAt : ℤ)
    (intent : Option PositionScalingIntent) : RecoveryExecutionPlan where
  action := decision.action
  reason := decision.reason
  cycleId := cycle.cycleId
  accountKey := cycle.accountKey
  createdAt := createdAt
  positionScalingIntent := intent
  exitPrice := decision.exitPrice
  metadata := decision.metadata

/-- `RecoveryExecutionPlan.from_decision`; the actions are those it supports. -/
def fromDecision (cycle : RecoveryCycleState) (decision : RecoveryDecision) (createdAt : ℤ) :
    Except String RecoveryExecutionPlan :=
  if decision.action = .openStep then
    match decision.stepIndex, decision.volume, decision.entryPrice with
    | none, _, _ => .error "open_step decision requires step_index"
    | some _, none, _ => .error "open_step decision requires volume"
    | some _, some _, none => .error "open_step decision requires entry_price"
    | some stepIndex, some volume, some entryPrice =>
      (intentOf cycle decision createdAt stepIndex volume entryPrice).postInit.map
        fun intent => planOf cycle decision createdAt (some intent)
  else .ok (planOf cycle decision createdAt none)

end MT5Services.RecoveryModels
