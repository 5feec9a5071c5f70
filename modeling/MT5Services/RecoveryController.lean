import MT5Services.RecoveryModels
import MT5Services.Runs

/-!
`BoundedRecoveryController` and `RecoveryPreTradeGuard`, the two places that apply the
caps of a `RecoveryPolicy`. The controller compares the total rounded to `volume_step`
with the cap, while `apply_open_step` and the guard go by the sum itself. So the caps
hold in the runs of a policy whose base volume lies on the grid of the volume steps such that
this rounding hides no excess, and the guard allows what the controller decides as long as
the sum itself respects the cap. Volumes are exact decimals, `round` is half-even.
-/
namespace MT5Services.RecoveryController

open PyText PyNumber RecoveryModels Runs

/-- `_round_volume`. -/
def roundVolume (value step : ℚ) : ℚ :=
  if step ≤ 0 then round value 8 else round (roundHalfEven (value / step) * step) 8

/-- `_elapsed_ms`; times are in microseconds. -/
def elapsedMs (previous : Option ℤ) (now : ℤ) : Option ℤ :=
  previous.map fun previous => max 0 ((now - previous) / 1000)

/-- `_adverse_move_points`; the missing quote side is excluded by its caller. -/
def adverseMovePoints (policy : RecoveryPolicy) (cycle : RecoveryCycleState)
    (snapshot : RecoveryMarketSnapshot) : Except String ℚ := do
  match ← snapshot.exitPrice cycle.direction with
  | none => .error "AssertionError"
  | some exitPrice =>
    let adverse :=
      if cycle.direction = "buy" then max 0 (cycle.lastEntryPrice - exitPrice)
      else max 0 (exitPrice - cycle.lastEntryPrice)
    .ok (round (adverse / policy.point) 10)

def nextVolume (policy : RecoveryPolicy) (cycle : RecoveryCycleState) : ℚ :=
  roundVolume (cycle.baseVolume * policy.multiplier ^ (cycle.stepCount + 1).toNat)
    policy.volumeStep

def hold (reason : String) (metadata : Metadata) : RecoveryDecision :=
  { action := .hold, reason := reason, metadata := metadata }

def block (reason : String) (metadata : Metadata) : RecoveryDecision :=
  { action := .block, reason := reason, metadata := metadata }

/-- The caps and the decision, once the move has gone far enough. -/
def assessStep (policy : RecoveryPolicy) (cycle : RecoveryCycleState)
    (snapshot : RecoveryMarketSnapshot) (adverse : ℚ) : Except String RecoveryDecision :=
  let stepIndex := cycle.stepCount + 1
  let volume := nextVolume policy cycle
  let totalAfter := roundVolume (cycle.totalVolume + volume) policy.volumeStep
  if policy.maxNextVolume.any fun cap => cap < volume then
    .ok { block "max_next_volume_exceeded"
            [("next_volume", .number volume), ("max_next_volume", .optional policy.maxNextVolume)]
          with stepIndex := some stepIndex, volume := some volume }
  else if policy.maxTotalVolume < totalAfter then
    .ok { block "max_total_volume_exceeded"
            [("total_after", .number totalAfter), ("max_total_volume", .number policy.maxTotalVolume)]
          with stepIndex := some stepIndex, volume := some volume }
  else
    (snapshot.entryPrice cycle.direction).map fun entryPrice =>
      { action := .openStep
        reason := "adverse_move_triggered"
        stepIndex := some stepIndex
        volume := some volume
        entryPrice := entryPrice
        metadata := [("adverse_move_points", .number adverse), ("total_after", .number totalAfter)] }

/-- `evaluate_next_step`. -/
def evaluateNextStep (policy : RecoveryPolicy) (cycle : RecoveryCycleState)
    (snapshot : RecoveryMarketSnapshot) (now : Option ℤ) : Except String RecoveryDecision :=
  let elapsed := elapsedMs cycle.lastStepAt (now.getD snapshot.time)
  if !policy.enabled then .ok (hold "policy_disabled" [])
  else if cycle.status ≠ "open" then .ok (hold "cycle_not_open" [])
  else if snapshot.symbol ≠ cycle.symbol then
    .ok (block "symbol_mismatch"
      [("expected", .text cycle.symbol), ("actual", .text snapshot.symbol)])
  else if !snapshot.hasBidAsk then .ok (block "quote_side_missing" [])
  else if policy.maxSteps ≤ cycle.stepCount then
    .ok (block "max_steps_reached"
      [("step_count", .number cycle.stepCount), ("max_steps", .number policy.maxSteps)])
  else if elapsed.any fun ms => ms < policy.minStepIntervalMs then
    .ok (hold "step_cooldown_active"
      [("elapsed_ms", .optional (elapsed.map Int.cast)),
        ("min_step_interval_ms", .number policy.minStepIntervalMs)])
  else do
    let adverse ← adverseMovePoints policy cycle snapshot
    if adverse < policy.stepDistancePoints then
      .ok (hold "adverse_move_below_trigger"
        [("adverse_move_points", .number adverse),
          ("step_distance_points", .number policy.stepDistancePoints)])
    else if 0 < policy.maxStepAdverseMovePoints ∧
        policy.maxStepAdverseMovePoints < adverse then
      .ok (hold "step_adverse_move_overextended"
        [("adverse_move_points", .number adverse),
          ("step_distance_points", .number policy.stepDistancePoints),
          ("max_step_adverse_move_points", .number policy.maxStepAdverseMovePoints)])
    else assessStep policy cycle snapshot adverse

/-- `apply_open_step`. -/
def applyOpenStep (cycle : RecoveryCycleState) (decision : RecoveryDecision) (now : ℤ) :
    Except String RecoveryCycleState :=
  if decision.action ≠ .openStep then .error "decision must be open_step"
  else
    match decision.volume, decision.entryPrice, decision.stepIndex with
    | some volume, some entryPrice, some stepIndex =>
      let newTotal := cycle.totalVolume + volume
      let newAverage :=
        (cycle.averageEntryPrice * cycle.totalVolume + entryPrice * volume) / newTotal
      RecoveryCycleState.mk?
        { cycle.toCycleFields with
          totalVolume := round newTotal 8
          stepCount := stepIndex
          averageEntryPrice := round newAverage 10
          lastEntryPrice := entryPrice
          lastStepAt := some now
          updatedAt := now }
    | _, _, _ => .error "open_step decision requires volume, entry_price, and step_index"

structure RecoveryPreTradeDecision where
  allowed : Bool
  reason : String
  details : Metadata
  deriving DecidableEq, Repr

/-- `RecoveryPreTradeGuard.assess`. -/
def assess (policy : RecoveryPolicy) (cycle : RecoveryCycleState)
    (intent : PositionScalingIntent) : RecoveryPreTradeDecision :=
  let details : Metadata :=
    [("cycle_id", .text cycle.cycleId), ("intent_cycle_id", .text intent.cycleId),
      ("account_key", .text cycle.accountKey), ("intent_account_key", .text intent.accountKey),
      ("cycle_status", .text cycle.status), ("current_step_count", .number cycle.stepCount),
      ("actual_step_index", .number intent.stepIndex), ("intent_volume", .number intent.volume),
      ("current_total_volume", .number cycle.totalVolume),
      ("projected_total_volume", .number (cycle.totalVolume + intent.volume)),
      ("max_steps", .number policy.maxSteps),
      ("max_next_volume", .optional policy.maxNextVolume),
      ("max_total_volume", .number policy.maxTotalVolume)]
  let expected : Metadata :=
    details ++ [("expected_step_index", .number (cycle.stepCount + 1 : ℤ))]
  if !policy.enabled then ⟨false, "policy_disabled", details⟩
  else if cycle.accountKey ≠ intent.accountKey then ⟨false, "account_key_mismatch", details⟩
  else if cycle.cycleId ≠ intent.cycleId then ⟨false, "cycle_id_mismatch", details⟩
  else if cycle.status ≠ "open" then ⟨false, "cycle_not_open", details⟩
  else if cycle.symbol ≠ intent.symbol then ⟨false, "symbol_mismatch", details⟩
  else if cycle.direction ≠ intent.direction then ⟨false, "direction_mismatch", details⟩
  else if intent.stepIndex ≠ cycle.stepCount + 1 then ⟨false, "step_index_mismatch", expected⟩
  else if policy.maxSteps < intent.stepIndex then ⟨false, "max_steps_exceeded", expected⟩
  else if policy.maxNextVolume.any fun cap => cap < intent.volume then
    ⟨false, "max_next_volume_exceeded", expected⟩
  else if policy.maxTotalVolume < cycle.totalVolume + intent.volume then
    ⟨false, "max_total_volume_exceeded", expected⟩
  else ⟨true, "allowed", expected⟩

/-- What an `open_step` decision says of the state it was taken in. -/
structure OpensStep (policy : RecoveryPolicy) (cycle : RecoveryCycleState)
    (snapshot : RecoveryMarketSnapshot) (decision : RecoveryDecision) : Prop where
  enabled : policy.enabled = true
  statusOpen : cycle.status = "open"
  stepCount_lt : cycle.stepCount < policy.maxSteps
  stepIndex : decision.stepIndex = some (cycle.stepCount + 1)
  volume : decision.volume = some (nextVolume policy cycle)
  entryPrice : snapshot.entryPrice cycle.direction = .ok decision.entryPrice
  hasBidAsk : snapshot.hasBidAsk = true
  reason : decision.reason = "adverse_move_triggered"
  nextVolume_le : ∀ cap, policy.maxNextVolume = some cap → nextVolume policy cycle ≤ cap
  rounded_le : roundVolume (cycle.totalVolume + nextVolume policy cycle) policy.volumeStep ≤
    policy.maxTotalVolume

theorem hold_ne_openStep (reason : String) (metadata : Metadata) :
    (hold reason metadata).action ≠ .openStep :=
  RecoveryModels.Action.noConfusion

theorem block_ne_openStep (reason : String) (metadata : Metadata) :
    (block reason metadata).action ≠ .openStep :=
  RecoveryModels.Action.noConfusion

/-- Where a step is opened no check has refused it. -/
theorem opens_of_check {check : Prop} [Decidable check] {refusal decision : RecoveryDecision}
    {rest : Except String RecoveryDecision} (hrefusal : refusal.action ≠ .openStep)
    (h : (if check then .ok refusal else rest) = .ok decision)
    (hopen : decision.action = .openStep) : ¬ check ∧ rest = .ok decision := by
  split at h
  · cases h
    exact absurd hopen hrefusal
  · rename_i hcheck
    exact ⟨hcheck, h⟩

variable {policy : RecoveryPolicy} {cycle : RecoveryCycleState} {decision : RecoveryDecision}
  {snapshot : RecoveryMarketSnapshot}

/-- Once the move has gone far enough only the caps decide. -/
theorem assessStep_opens {adverse : ℚ} (h : assessStep policy cycle snapshot adverse = .ok decision)
    (hopen : decision.action = .openStep) : decision.stepIndex = some (cycle.stepCount + 1) ∧
      decision.volume = some (nextVolume policy cycle) ∧
      snapshot.entryPrice cycle.direction = .ok decision.entryPrice ∧
      decision.reason = "adverse_move_triggered" ∧
      (∀ cap, policy.maxNextVolume = some cap → nextVolume policy cycle ≤ cap) ∧
      roundVolume (cycle.totalVolume + nextVolume policy cycle) policy.volumeStep ≤
        policy.maxTotalVolume := by
  simp only [assessStep] at h
  obtain ⟨hnext, h⟩ := opens_of_check RecoveryModels.Action.noConfusion h hopen
  obtain ⟨htotal, h⟩ := opens_of_check RecoveryModels.Action.noConfusion h hopen
  cases hprice : snapshot.entryPrice cycle.direction with
  | error message =>
    rw [hprice] at h
    cases h
  | ok entryPrice =>
    rw [hprice] at h
    cases h
    refine ⟨rfl, rfl, rfl, rfl, ?_, not_lt.mp htotal⟩
    intro cap hcap
    rw [hcap] at hnext
    simpa using hnext

theorem evaluateNextStep_opens {now : Option ℤ}
    (h : evaluateNextStep policy cycle snapshot now = .ok decision)
    (hopen : decision.action = .openStep) : OpensStep policy cycle snapshot decision := by
  unfold evaluateNextStep at h
  obtain ⟨henabled, h⟩ := opens_of_check (hold_ne_openStep _ _) h hopen
  obtain ⟨hstatus, h⟩ := opens_of_check (hold_ne_openStep _ _) h hopen
  obtain ⟨_, h⟩ := opens_of_check (block_ne_openStep _ _) h hopen
  obtain ⟨hquotes, h⟩ := opens_of_check (block_ne_openStep _ _) h hopen
  obtain ⟨hsteps, h⟩ := opens_of_check (block_ne_openStep _ _) h hopen
  obtain ⟨_, h⟩ := opens_of_check (hold_ne_openStep _ _) h hopen
  cases hadverse : adverseMovePoints policy cycle snapshot with
  | error message =>
    rw [hadverse] at h
    cases h
  | ok adverse =>
    rw [hadverse] at h
    simp only [bind, Except.bind] at h
    obtain ⟨_, h⟩ := opens_of_check (hold_ne_openStep _ _) h hopen
    obtain ⟨_, h⟩ := opens_of_check (hold_ne_openStep _ _) h hopen
    obtain ⟨hindex, hvolume, hprice, hreason, hnext, hrounded⟩ := assessStep_opens h hopen
    exact
      { enabled := by simpa using henabled
        statusOpen := by simpa using hstatus
        stepCount_lt := not_le.mp hsteps
        stepIndex := hindex
        volume := hvolume
        entryPrice := hprice
        hasBidAsk := by simpa using hquotes
        reason := hreason
        nextVolume_le := hnext
        rounded_le := hrounded }

variable {next : RecoveryCycleState}

/-- What `apply_open_step` leaves, when it accepts the decision. -/
theorem applyOpenStep_ok {now : ℤ} (hopens : OpensStep policy cycle snapshot decision)
    (h : applyOpenStep cycle decision now = .ok next) :
    next.stepCount = cycle.stepCount + 1 ∧ next.baseVolume = cycle.baseVolume ∧
      next.totalVolume = round (cycle.totalVolume + nextVolume policy cycle) 8 := by
  unfold applyOpenStep at h
  split at h
  · cases h
  rw [hopens.volume, hopens.stepIndex] at h
  cases hprice : decision.entryPrice with
  | none =>
    rw [hprice] at h
    cases h
  | some entryPrice =>
    rw [hprice] at h
    have hfields := RecoveryCycleState.fields_of_mk? h
    simp [hfields]

/-- A snapshot with the time of the evaluation and that of its application. -/
structure Tick where
  snapshot : RecoveryMarketSnapshot
  now : Option ℤ
  appliedAt : ℤ

/-- One round: evaluate, and apply the decision when it opens a step. -/
def step (policy : RecoveryPolicy) (cycle : RecoveryCycleState) (tick : Tick) :
    Option RecoveryCycleState :=
  match evaluateNextStep policy cycle tick.snapshot tick.now with
  | .error _ => none
  | .ok decision =>
    if decision.action = .openStep then (applyOpenStep cycle decision tick.appliedAt).toOption
    else some cycle

/-- A new cycle of the policy. -/
structure FreshCycle (policy : RecoveryPolicy) extends RecoveryCycleState where
  statusOpen : status = "open"
  base : baseVolume = policy.baseVolume
  total : totalVolume = policy.baseVolume
  noSteps : stepCount = 0

/-- The caps on a state of the cycle. -/
def WithinCaps (policy : RecoveryPolicy) (cycle : RecoveryCycleState) : Prop :=
  cycle.stepCount ≤ policy.maxSteps ∧ cycle.totalVolume ≤ policy.maxTotalVolume

/-- The cap on what a round emits. -/
def EmitsWithinCap (policy : RecoveryPolicy) (cycle : RecoveryCycleState) (tick : Tick) : Prop :=
  ∀ decision, evaluateNextStep policy cycle tick.snapshot tick.now = .ok decision →
    decision.action = .openStep →
    ∀ volume cap, decision.volume = some volume → policy.maxNextVolume = some cap → volume ≤ cap

/-- The hard caps at every point of a run. -/
def CapsKept (policy : RecoveryPolicy) (start : RecoveryCycleState) (ticks : List Tick) : Prop :=
  (∀ front back cycle, ticks = front ++ back → run (step policy) start front = some cycle →
    WithinCaps policy cycle) ∧
  ∀ front tick back cycle, ticks = front ++ tick :: back →
    run (step policy) start front = some cycle → EmitsWithinCap policy cycle tick

/-- Rounding to `volume_step` hides no excess over the cap: there is no volume step, or with
volumes of at most eight decimals the base volume is above a whole number of steps by no more
than the cap is, or by more than half a step, so that it is rounded up. -/
def RoundsSafely (policy : RecoveryPolicy) : Prop :=
  policy.volumeStep = 0 ∨
    (∃ n : ℤ, policy.volumeStep * 10 ^ 8 = n) ∧ (∃ n : ℤ, policy.baseVolume * 10 ^ 8 = n) ∧
      (Int.fract (policy.baseVolume / policy.volumeStep) ≤
          Int.fract (policy.maxTotalVolume / policy.volumeStep) ∨
        1 / 2 < Int.fract (policy.baseVolume / policy.volumeStep))

theorem step_cases {tick : Tick} (h : step policy cycle tick = some next) : next = cycle ∨
      ∃ decision, evaluateNextStep policy cycle tick.snapshot tick.now = .ok decision ∧
        decision.action = .openStep ∧
        applyOpenStep cycle decision tick.appliedAt = .ok next := by
  unfold step at h
  cases hdecision : evaluateNextStep policy cycle tick.snapshot tick.now with
  | error message =>
    rw [hdecision] at h
    cases h
  | ok decision =>
    rw [hdecision] at h
    simp only at h
    split at h
    · rename_i hopen
      refine Or.inr ⟨decision, rfl, hopen, ?_⟩
      cases happlied : applyOpenStep cycle decision tick.appliedAt with
      | error message =>
        rw [happlied] at h
        cases h
      | ok applied =>
        rw [happlied] at h
        cases h
        rfl
    · exact Or.inl (Option.some.inj h).symm

theorem emitsWithinCap (policy : RecoveryPolicy) (cycle : RecoveryCycleState) (tick : Tick) :
    EmitsWithinCap policy cycle tick := by
  intro decision hdecision hopen volume cap hvolume hcap
  have hopens := evaluateNextStep_opens hdecision hopen
  rw [hopens.volume] at hvolume
  cases hvolume
  exact hopens.nextVolume_le cap hcap

theorem freshCycle_withinCaps (start : FreshCycle policy) :
    WithinCaps policy start.toRecoveryCycleState := by
  constructor
  · rw [start.noSteps]
    exact policy.maxSteps_nonneg
  · rw [start.total]
    exact policy.baseVolume_le

/-- On multiples of a step of eight decimals rounding does nothing. -/
theorem round_multiple {step : ℚ} (hgrid : ∃ n : ℤ, step * 10 ^ 8 = n) (k : ℤ) :
    round (k * step) 8 = k * step := by
  obtain ⟨n, hn⟩ := hgrid
  refine round_eq_self (n := k * n) ?_
  rw [mul_assoc, hn, Int.cast_mul]

theorem nextVolume_multiple (hpos : 0 < policy.volumeStep)
    (hgrid : ∃ n : ℤ, policy.volumeStep * 10 ^ 8 = n) (cycle : RecoveryCycleState) :
    ∃ n : ℤ, nextVolume policy cycle = n * policy.volumeStep := by
  rw [nextVolume, roundVolume, if_neg (not_le.mpr hpos)]
  exact ⟨_, round_multiple hgrid _⟩

/-- Rounding up, and rounding down over no further than the cap lies off the grid, hide no
excess over the cap. -/
theorem le_cap_of_rounded {step base cap : ℚ} (hpos : 0 < step) (k : ℤ)
    (hsafe : Int.fract (base / step) ≤ Int.fract (cap / step) ∨ 1 / 2 < Int.fract (base / step))
    (hrounded : roundHalfEven ((base + k * step) / step) * step ≤ cap) :
    base + k * step ≤ cap := by
  have hquotient : (base + k * step) / step = base / step + k := by
    rw [add_div, mul_div_cancel_right₀ _ hpos.ne']
  have hfract : Int.fract ((base + k * step) / step) = Int.fract (base / step) := by
    rw [hquotient, Int.fract_add_intCast]
  rw [← hfract] at hsafe
  suffices hsteps : (base + k * step) / step ≤ cap / step by
    rwa [div_le_div_iff_of_pos_right hpos] at hsteps
  rw [← le_div_iff₀ hpos] at hrounded
  generalize (base + k * step) / step = total at hsafe hrounded ⊢
  have hsplit := Int.floor_add_fract total
  rcases hsafe with hbelow | habove
  · have hfloor : ⌊total⌋ ≤ ⌊cap / step⌋ := by
      apply Int.le_floor.mpr
      exact le_trans (by exact_mod_cast floor_le_roundHalfEven total) hrounded
    have hfloor' : (⌊total⌋ : ℚ) ≤ ⌊cap / step⌋ := by exact_mod_cast hfloor
    have hcap := Int.floor_add_fract (cap / step)
    linarith
  · refine le_trans ?_ hrounded
    have hdistance := abs_le.mp (abs_sub_roundHalfEven_le total)
    have hup : ⌊total⌋ < roundHalfEven total := by
      have hlt : (⌊total⌋ : ℚ) < roundHalfEven total := by linarith
      exact_mod_cast hlt
    have hup' : (⌊total⌋ : ℚ) + 1 ≤ roundHalfEven total := by exact_mod_cast hup
    have hone := Int.fract_lt_one total
    linarith

/-- The total is the base volume and a number of volume steps. -/
def OnGrid (policy : RecoveryPolicy) (cycle : RecoveryCycleState) : Prop :=
  ∃ k : ℤ, cycle.totalVolume = policy.baseVolume + k * policy.volumeStep

/-- A total on the grid respects the cap when the controller lets its rounding pass. -/
theorem onGrid_step (hpos : 0 < policy.volumeStep) (hgrid : ∃ n : ℤ, policy.volumeStep * 10 ^ 8 = n)
    (hbase : ∃ n : ℤ, policy.baseVolume * 10 ^ 8 = n) (h : OnGrid policy cycle) :
    ∃ k : ℤ, round (cycle.totalVolume + nextVolume policy cycle) 8 =
        policy.baseVolume + k * policy.volumeStep ∧
      roundVolume (cycle.totalVolume + nextVolume policy cycle) policy.volumeStep =
        roundHalfEven ((policy.baseVolume + k * policy.volumeStep) / policy.volumeStep) *
          policy.volumeStep := by
  obtain ⟨m, hm⟩ := h
  obtain ⟨n, hn⟩ := nextVolume_multiple hpos hgrid cycle
  have hsum : cycle.totalVolume + nextVolume policy cycle =
      policy.baseVolume + (m + n : ℤ) * policy.volumeStep := by
    rw [hm, hn, Int.cast_add]
    ring
  refine ⟨m + n, ?_, ?_⟩
  · obtain ⟨b, hb⟩ := hbase
    obtain ⟨g, hg⟩ := hgrid
    rw [hsum]
    refine round_eq_self (n := b + (m + n) * g) ?_
    rw [add_mul, hb, mul_assoc, hg]
    push_cast
    ring
  · rw [hsum, roundVolume, if_neg (not_le.mpr hpos), round_multiple hgrid]

/-- One round of a policy that rounds safely keeps the caps. -/
theorem step_withinCaps (hsafe : RoundsSafely policy) {tick : Tick}
    (hcycle : WithinCaps policy cycle ∧ (0 < policy.volumeStep → OnGrid policy cycle))
    (h : step policy cycle tick = some next) :
    WithinCaps policy next ∧ (0 < policy.volumeStep → OnGrid policy next) := by
  rcases step_cases h with rfl | ⟨decision, hdecision, hopen, happlied⟩
  · exact hcycle
  have hopens := evaluateNextStep_opens hdecision hopen
  obtain ⟨hcount, _, htotal⟩ := applyOpenStep_ok hopens happlied
  have hsteps : next.stepCount ≤ policy.maxSteps := by
    have hlt := hopens.stepCount_lt
    omega
  have hrounded := hopens.rounded_le
  rcases hsafe with hzero | ⟨hgrid, hbase, hoffset⟩
  · rw [roundVolume, if_pos hzero.le] at hrounded
    exact ⟨⟨hsteps, htotal ▸ hrounded⟩, fun hpos => absurd hzero hpos.ne'⟩
  · rcases policy.volumeStep_nonneg.eq_or_lt with hzero | hpos
    · rw [roundVolume, if_pos hzero.ge] at hrounded
      exact ⟨⟨hsteps, htotal ▸ hrounded⟩, fun hpos => absurd hzero hpos.ne⟩
    · obtain ⟨k, hsum, hround⟩ := onGrid_step hpos hgrid hbase (hcycle.2 hpos)
      rw [hround] at hrounded
      refine ⟨⟨hsteps, ?_⟩, fun _ => ⟨k, htotal.trans hsum⟩⟩
      rw [htotal, hsum]
      exact le_cap_of_rounded hpos k hoffset hrounded

/-- In every run from a new cycle of a policy that rounds safely the hard caps hold at every
point. -/
theorem caps_kept_of_steps (policy : RecoveryPolicy) (start : FreshCycle policy)
    (ticks : List Tick) (hsafe : RoundsSafely policy) :
    CapsKept policy start.toRecoveryCycleState ticks := by
  refine ⟨?_, fun _ tick _ cycle _ _ => emitsWithinCap policy cycle tick⟩
  intro front back cycle _ hrun
  refine (run_invariant (I := fun cycle => WithinCaps policy cycle ∧
    (0 < policy.volumeStep → OnGrid policy cycle))
    (fun _ _ _ hcycle hstep => step_withinCaps hsafe hcycle hstep) ?_ hrun).1
  exact ⟨freshCycle_withinCaps start, fun _ => ⟨0, by rw [start.total]; simp⟩⟩

/-- A base volume between two volume steps. -/
def betweenStepsFields : PolicyFields where
  enabled := true
  baseVolume := 14 / 1000
  multiplier := 1
  maxSteps := 1
  maxTotalVolume := 2 / 100
  stepDistancePoints := 10
  recoveryTargetPoints := 0
  point := 1 / 100

theorem betweenSteps_accepted : firstFailure betweenStepsFields.checks = none := by
  rw [firstFailure_eq_none]
  norm_num [PolicyFields.checks, betweenStepsFields]
  decide

def betweenStepsPolicy : RecoveryPolicy := ⟨betweenStepsFields, betweenSteps_accepted⟩

def boughtFields : CycleFields where
  cycleId := "c"
  accountKey := "demo"
  symbol := "XAUUSD"
  direction := "buy"
  status := "open"
  baseVolume := 14 / 1000
  totalVolume := 14 / 1000
  stepCount := 0
  averageEntryPrice := 2000
  lastEntryPrice := 2000
  startedAt := 0
  updatedAt := 0

theorem bought_accepted : firstFailure boughtFields.checks = none := by
  rw [firstFailure_eq_none]
  norm_num [CycleFields.checks, boughtFields]
  decide

def boughtCycle : FreshCycle betweenStepsPolicy where
  toCycleFields := boughtFields
  accepted := bought_accepted
  statusOpen := rfl
  base := rfl
  total := rfl
  noSteps := rfl

def fallenTick : Tick := ⟨⟨"XAUUSD", some 1999, some 1999, 0⟩, none, 0⟩

/-- The second volume of 0.01 brings the total to 0.024, over the cap of 0.02. -/
theorem total_exceeds_cap :
    ¬ CapsKept betweenStepsPolicy boughtCycle.toRecoveryCycleState [fallenTick] := by
  intro hkept
  have htotal : (run (step betweenStepsPolicy) boughtCycle.toRecoveryCycleState
      [fallenTick]).map (fun cycle => cycle.totalVolume) = some (24 / 1000) := by
    decide +kernel
  obtain ⟨cycle, hcycle, hvolume⟩ := Option.map_eq_some_iff.mp htotal
  have hcap := (hkept.1 [fallenTick] [] cycle rfl hcycle).2
  rw [hvolume] at hcap
  norm_num [betweenStepsPolicy, betweenStepsFields] at hcap

def wholeStepPolicy : RecoveryPolicy :=
  ⟨{ betweenStepsFields with baseVolume := 1 / 100 }, by decide +kernel⟩

def wholeStepCycle : FreshCycle wholeStepPolicy where
  toCycleFields := { boughtFields with baseVolume := 1 / 100, totalVolume := 1 / 100 }
  accepted := by decide +kernel
  statusOpen := rfl
  base := rfl
  total := rfl
  noSteps := rfl

theorem caps_kept_of_steps_whole :
    CapsKept wholeStepPolicy wholeStepCycle.toRecoveryCycleState [fallenTick] :=
  caps_kept_of_steps wholeStepPolicy wholeStepCycle [fallenTick]
    (Or.inr ⟨⟨1000000, by norm_num [wholeStepPolicy, betweenStepsFields]⟩,
      ⟨1000000, by norm_num [wholeStepPolicy, wholeStepCycle, boughtFields]⟩,
      Or.inl (by norm_num [wholeStepPolicy, betweenStepsFields])⟩)

/-- The state and the sums for which the guard follows the controller. -/
structure Executable (policy : RecoveryPolicy) (cycle : RecoveryCycleState) : Prop where
  volume_pos : 0 < nextVolume policy cycle
  total_le : cycle.totalVolume + nextVolume policy cycle ≤ policy.maxTotalVolume
  cycleId : strip cycle.cycleId ≠ ""
  accountKey : strip cycle.accountKey ≠ ""
  symbol : strip cycle.symbol ≠ ""
  direction : lower (strip cycle.direction) = cycle.direction

/-- A refusal that applies decides. -/
theorem allowed_refusal {refused : Prop} [Decidable refused] {reason : String}
    {details : Metadata} {rest : RecoveryPreTradeDecision} :
    (if refused then ⟨false, reason, details⟩ else rest).allowed = true ↔
      ¬ refused ∧ rest.allowed = true := by
  by_cases h : refused
  · simp [h]
  · simp [h]

theorem assess_allowed_iff (policy : RecoveryPolicy) (cycle : RecoveryCycleState)
    (intent : PositionScalingIntent) :
    (assess policy cycle intent).allowed = true ↔
      policy.enabled = true ∧ cycle.accountKey = intent.accountKey ∧
        cycle.cycleId = intent.cycleId ∧ cycle.status = "open" ∧
        cycle.symbol = intent.symbol ∧ cycle.direction = intent.direction ∧
        intent.stepIndex = cycle.stepCount + 1 ∧ intent.stepIndex ≤ policy.maxSteps ∧
        (∀ cap, policy.maxNextVolume = some cap → intent.volume ≤ cap) ∧
        cycle.totalVolume + intent.volume ≤ policy.maxTotalVolume := by
  have hcap : ¬ (policy.maxNextVolume.any fun cap => cap < intent.volume) = true ↔
      ∀ cap, policy.maxNextVolume = some cap → intent.volume ≤ cap := by
    cases policy.maxNextVolume with
    | none => simp
    | some cap => simp
  rw [← hcap]
  simp only [assess, allowed_refusal, Bool.not_eq_true', Bool.not_eq_false, not_not, not_lt,
    and_true]

theorem trigger_not_blank : strip "adverse_move_triggered" ≠ "" := by
  decide

/-- The intent of an open step passes its constructor exactly when its volume is positive
and the identifiers of the cycle are not blank. -/
theorem checks_intentOf {entryPrice : ℚ}
    (hopens : OpensStep policy cycle snapshot decision) (hprice : 0 < entryPrice) (createdAt : ℤ) :
    firstFailure (intentOf cycle decision createdAt (cycle.stepCount + 1)
        (nextVolume policy cycle) entryPrice).checks = none ↔
      0 < nextVolume policy cycle ∧ strip cycle.cycleId ≠ "" ∧ strip cycle.accountKey ≠ "" ∧
        strip cycle.symbol ≠ "" := by
  have hindex : 0 < cycle.stepCount + 1 := by
    have hcount := cycle.stepCount_nonneg
    omega
  have hdirection := cycle.direction_valid
  have hreason : ¬ strip decision.reason = "" := hopens.reason ▸ trigger_not_blank
  rw [firstFailure_eq_none]
  simp only [PositionScalingIntent.checks, List.forall_mem_cons, decide_eq_true_eq]
  simp only [intentOf, positiveOrNone, Option.all_some, hdirection, hprice, hindex, ne_eq,
    hreason, List.not_mem_nil, false_implies, implies_true, decide_true, and_true, true_and,
    not_false_eq_true]
  exact ⟨fun h => ⟨h.2.2.2, h.1, h.2.1, h.2.2.1⟩, fun h => ⟨h.2.1, h.2.2.1, h.2.2.2, h.1⟩⟩

theorem entryPrice_pos {direction : String}
    {entryPrice : Option ℚ} (h : snapshot.entryPrice direction = .ok entryPrice)
    (hquotes : snapshot.hasBidAsk = true) (hbid : ∀ bid, snapshot.bid = some bid → 0 < bid)
    (hask : ∀ ask, snapshot.ask = some ask → 0 < ask) :
    ∃ price, entryPrice = some price ∧ 0 < price := by
  obtain ⟨hsomeBid, hsomeAsk⟩ := Bool.and_eq_true_iff.mp hquotes
  obtain ⟨bid, hbidEq⟩ := Option.isSome_iff_exists.mp hsomeBid
  obtain ⟨ask, haskEq⟩ := Option.isSome_iff_exists.mp hsomeAsk
  unfold RecoveryMarketSnapshot.entryPrice at h
  split at h
  · cases h
    exact ⟨ask, haskEq, hask ask haskEq⟩
  split at h
  · cases h
    exact ⟨bid, hbidEq, hbid bid hbidEq⟩
  · cases h

/-- The plan of the decision carries an intent that the guard allows. -/
def PlanAllowed (policy : RecoveryPolicy) (cycle : RecoveryCycleState)
    (decision : RecoveryDecision) (createdAt : ℤ) : Prop :=
  ∃ plan intent, fromDecision cycle decision createdAt = .ok plan ∧
    plan.positionScalingIntent = some intent ∧ (assess policy cycle intent).allowed = true

/-- An open step can be planned and passes the guard exactly when its volume is not
rounded to zero, the sum itself respects the cap, and the cycle carries its identifiers
and a normalised direction. -/
theorem open_step_allowed_iff (policy : RecoveryPolicy) (cycle : RecoveryCycleState)
    (snapshot : RecoveryMarketSnapshot) (now : Option ℤ) (createdAt : ℤ)
    (decision : RecoveryDecision) (hbid : ∀ bid, snapshot.bid = some bid → 0 < bid)
    (hask : ∀ ask, snapshot.ask = some ask → 0 < ask)
    (hdecision : evaluateNextStep policy cycle snapshot now = .ok decision)
    (hopen : decision.action = .openStep) :
    PlanAllowed policy cycle decision createdAt ↔ Executable policy cycle := by
  have hopens := evaluateNextStep_opens hdecision hopen
  obtain ⟨price, hprice, hpositive⟩ :=
    entryPrice_pos hopens.entryPrice hopens.hasBidAsk hbid hask
  have hplan : fromDecision cycle decision createdAt =
      (intentOf cycle decision createdAt (cycle.stepCount + 1) (nextVolume policy cycle)
        price).postInit.map fun intent => planOf cycle decision createdAt (some intent) := by
    rw [fromDecision, if_pos hopen, hopens.stepIndex, hopens.volume, hprice]
  have hallowed : ∀ intent, intent = { intentOf cycle decision createdAt (cycle.stepCount + 1)
      (nextVolume policy cycle) price with direction := lower (strip cycle.direction) } →
      ((assess policy cycle intent).allowed = true ↔
        cycle.direction = lower (strip cycle.direction) ∧
          cycle.totalVolume + nextVolume policy cycle ≤ policy.maxTotalVolume) := by
    rintro intent rfl
    have hsteps : cycle.stepCount + 1 ≤ policy.maxSteps := hopens.stepCount_lt
    rw [assess_allowed_iff]
    exact ⟨fun h => ⟨h.2.2.2.2.2.1, h.2.2.2.2.2.2.2.2.2⟩, fun h => ⟨hopens.enabled, rfl, rfl,
      hopens.statusOpen, rfl, h.1, rfl, hsteps, hopens.nextVolume_le, h.2⟩⟩
  constructor
  · rintro ⟨plan, intent, hbuilt, hintent, hguard⟩
    rw [hplan] at hbuilt
    cases hinit : (intentOf cycle decision createdAt (cycle.stepCount + 1)
        (nextVolume policy cycle) price).postInit with
    | error message =>
      rw [hinit] at hbuilt
      cases hbuilt
    | ok built =>
      rw [hinit] at hbuilt
      cases hbuilt
      cases hintent
      obtain ⟨hchecks, heq⟩ := PositionScalingIntent.postInit_eq_ok.mp hinit
      obtain ⟨hvolume, hcycleId, haccountKey, hsymbol⟩ :=
        (checks_intentOf hopens hpositive createdAt).mp hchecks
      obtain ⟨hdirection, htotal⟩ := (hallowed intent heq).mp hguard
      exact ⟨hvolume, htotal, hcycleId, haccountKey, hsymbol, hdirection.symm⟩
  · rintro ⟨hvolume, htotal, hcycleId, haccountKey, hsymbol, hdirection⟩
    have hchecks := (checks_intentOf hopens hpositive createdAt).mpr
      ⟨hvolume, hcycleId, haccountKey, hsymbol⟩
    have hinit := PositionScalingIntent.postInit_eq_ok.mpr ⟨hchecks, rfl⟩
    rw [hinit] at hplan
    exact ⟨_, _, hplan, rfl, (hallowed _ rfl).mpr ⟨hdirection.symm, htotal⟩⟩

def fallenDecision (volume totalAfter : ℚ) : RecoveryDecision where
  action := .openStep
  reason := "adverse_move_triggered"
  stepIndex := some 1
  volume := some volume
  entryPrice := some 1999
  metadata := [("adverse_move_points", .number 100), ("total_after", .number totalAfter)]

/-- A base volume of one step, doubled once. -/
def doublingFields : PolicyFields where
  enabled := true
  baseVolume := 1 / 100
  multiplier := 2
  maxSteps := 1
  maxTotalVolume := 3 / 100
  stepDistancePoints := 10
  recoveryTargetPoints := 0
  point := 1 / 100

theorem doubling_accepted : firstFailure doublingFields.checks = none := by
  rw [firstFailure_eq_none]
  norm_num [PolicyFields.checks, doublingFields]
  decide

def doublingPolicy : RecoveryPolicy := ⟨doublingFields, doubling_accepted⟩

def smallFields : CycleFields :=
  { boughtFields with baseVolume := 1 / 100, totalVolume := 1 / 100 }

theorem small_accepted : firstFailure smallFields.checks = none := by
  rw [firstFailure_eq_none]
  norm_num [CycleFields.checks, smallFields, boughtFields]
  decide

def smallCycle : RecoveryCycleState := ⟨smallFields, small_accepted⟩

theorem open_step_allowed_doubling :
    PlanAllowed doublingPolicy smallCycle (fallenDecision (2 / 100) (3 / 100)) 0 :=
  (open_step_allowed_iff doublingPolicy smallCycle fallenTick.snapshot none 0
    (fallenDecision (2 / 100) (3 / 100)) (fun bid h => by cases h; norm_num)
    (fun ask h => by cases h; norm_num) (by decide +kernel) rfl).mpr
    { volume_pos := by decide +kernel
      total_le := by decide +kernel
      cycleId := by decide
      accountKey := by decide +kernel
      symbol := by decide
      direction := by decide }

/-- The controller opens a step that its own guard refuses. -/
theorem guard_refuses_open_step :
    ¬ ∀ policy cycle (snapshot : RecoveryMarketSnapshot) now createdAt decision,
      (∀ bid, snapshot.bid = some bid → 0 < bid) → (∀ ask, snapshot.ask = some ask → 0 < ask) →
      evaluateNextStep policy cycle snapshot now = .ok decision → decision.action = .openStep →
      PlanAllowed policy cycle decision createdAt := by
  intro hclaim
  obtain ⟨plan, intent, hplan, hintent, hallowed⟩ :=
    hclaim betweenStepsPolicy boughtCycle.toRecoveryCycleState fallenTick.snapshot none 0
      (fallenDecision (1 / 100) (2 / 100)) (fun bid h => by cases h; norm_num)
      (fun ask h => by cases h; norm_num) (by decide +kernel) rfl
  have htotal := ((assess_allowed_iff _ _ _).mp hallowed).2.2.2.2.2.2.2.2.2
  have hvolume : (fromDecision boughtCycle.toRecoveryCycleState
      (fallenDecision (1 / 100) (2 / 100)) 0).toOption.bind (fun plan =>
        plan.positionScalingIntent.map fun intent => intent.volume) = some (1 / 100) := by
    decide +kernel
  rw [hplan, Except.toOption, Option.bind_some, hintent, Option.map_some] at hvolume
  rw [Option.some.inj hvolume] at htotal
  revert htotal
  decide +kernel

end MT5Services.RecoveryController
