import MT5Services.PositionManager
import MT5Services.Portfolio

/-!
One rule set for two callers. The backtest and live trading hand the exit rules the same
position in their own words: the backtest keeps the peak of the bar's opening apart and
does not pass the entry ATR, live trading has no opening peak. On a bar of one price both
decisions, to close or hold, why, and the stop from then on, are compared for a position
in the same state.
-/
namespace MT5Services.ExitAgreement

open PyNumber ExitRules PositionManager

/-- Close or hold, the reason and the next stop. -/
def decision (stopLoss : ℚ) (result : ExitCheckResult) : Bool × Option CloseReason × ℚ :=
  (result.shouldClose, result.closeReason, result.newStopLoss.getD stopLoss)

/-- What `update_price` obtains; without an initial risk it holds and asks no rule. -/
def liveDecision (config : ChandelierConfig) (pos : TrackedPosition) (tick : Tick)
    (readings : Readings) : Option (Bool × Option CloseReason × ℚ) :=
  if pos.initialRisk ≤ 0 then some (false, none, pos.stopLoss)
  else
    (evaluateExit config (exitQuery (notePrice pos tick.price) tick readings)).map
      (decision pos.stopLoss)

/-- What `check_exits` takes from the rules on a bar of one price. -/
def backtestDecision (config : ChandelierConfig) (pos : Portfolio.Position) (time : ℤ) (price : ℚ)
    (readings : Portfolio.BarReadings) : Option (Bool × Option CloseReason × ℚ) :=
  (Portfolio.ruleExit config (Portfolio.flatBar time price) readings pos).map
    (decision pos.stopLoss)

/-- The two callers hold the same position and read the same market. -/
structure SameState (config : ChandelierConfig) (live : TrackedPosition)
    (held : Portfolio.Position) (tick : Tick) (readings : Readings)
    (barReadings : Portfolio.BarReadings) : Prop where
  action : held.direction = live.action
  entryPrice : held.entryPrice = live.entryPrice
  stopLoss : held.stopLoss = live.stopLoss
  initialRisk : held.initialRisk = live.initialRisk
  peakPrice : Portfolio.peakAtBarOpen held = orElse live.peakPrice live.entryPrice
  bestPrice : bestPrice live = some (Portfolio.peakAtBarOpen held)
  breakeven : held.breakevenActivated = live.breakevenActivated
  strategyCategory : held.strategyCategory = live.strategyCategory
  exitSpec : held.exitSpec = live.exitSpec
  atrAtEntry : held.atrAtEntry = live.atrAtEntry
  timeframe : held.timeframe = live.timeframe
  slAtrMult : held.slAtrMult = live.slAtrMult
  barsHeld : held.barsHeld + 1 = computeBarsHeld live tick.now
  recentSignals :
    (Portfolio.noteDirection config barReadings.signalDirections held).recentSignalDirs =
      live.recentSignalDirs
  currentAtr : barReadings.currentAtr = getCurrentAtr live readings
  currentRegime : barReadings.currentRegime = getCurrentRegime live readings.regime

/-- The touched price barrier, if the width is usable. -/
def touched (q : ExitQuery) (b : Barriers) : Option (CloseReason × ℚ) :=
  if 0 < b.atr then hitBarrier q b else none

/-- Barrier mode: the entry ATR is the current one, or the barriers are unusable, or the
price touches them at neither width and a timeout does not depend on the width. -/
def BarrierAgrees (q : ExitQuery) (b : Barriers) : Prop :=
  b.atr = q.currentAtr ∨ b.slAtr ≤ 0 ∨ b.tpAtr ≤ 0 ∨ b.timeBars < 1 ∨
    (touched q b = none ∧ touched q { b with atr := q.currentAtr } = none ∧
      (b.timeBars ≤ q.barsHeld → (0 < b.atr ↔ 0 < q.currentAtr)))

/-- The price is behind the trailing stop of a peak. -/
def reachedFrom (config : ChandelierConfig) (q : ExitQuery) (profile : ExitProfile) (peak : ℚ) :
    Bool :=
  q.stopReachedAt ((trailingSl config q profile peak).getD q.currentStopLoss)

/-- Chandelier mode: the stop or the hard target decides first, or the price passes the
trailing stop of the peak before it exactly when it passes that of the peak with it, and
both are then the same. A price that is no new peak always qualifies. -/
def TrailAgrees (config : ChandelierConfig) (q : ExitQuery) (profile : ExitProfile)
    (peakOpen : ℚ) : Prop :=
  q.stopReachedAt q.currentStopLoss = true ∨
    (checkHardTp q.action q.entryPrice q.barHigh q.barLow q.initialRisk config.maxTpR).isSome ∨
    (reachedFrom config q profile q.peakPrice = reachedFrom config q profile peakOpen ∧
      (reachedFrom config q profile q.peakPrice = true →
        (trailingSl config q profile q.peakPrice).getD q.currentStopLoss =
          (trailingSl config q profile peakOpen).getD q.currentStopLoss))

/-- Without an initial risk live trading holds, so the rules must have nothing to say. -/
def Silent (config : ChandelierConfig) (q : ExitQuery) (peakOpen : ℚ) : Prop :=
  if q.exitSpec.isBarrier then
    ∃ b, barriersOf q = some b ∧ (({ b with atr := q.currentAtr } : Barriers).Degenerate ∨
      (hitBarrier q { b with atr := q.currentAtr } = none ∧ q.barsHeld < b.timeBars))
  else
    ∃ profile, exitProfile config q = some profile ∧
      q.stopReachedAt q.currentStopLoss = false ∧
      reachedFrom config q profile peakOpen = false ∧ activeExit config q profile = none ∧
      (trailingSl config q profile q.peakPrice).getD q.currentStopLoss = q.currentStopLoss

/-- The condition on the query of live trading and the peak before the price. -/
def Agrees (config : ChandelierConfig) (q : ExitQuery) (peakOpen : ℚ) : Prop :=
  if q.initialRisk ≤ 0 then Silent config q peakOpen
  else if q.exitSpec.isBarrier then ∀ b, barriersOf q = some b → BarrierAgrees q b
  else ∀ profile, exitProfile config q = some profile → TrailAgrees config q profile peakOpen

/-- The rules are asked the same but for the entry ATR and the peak at the bar's opening. -/
theorem backtest_query_eq {config : ChandelierConfig} {live : TrackedPosition}
    {held : Portfolio.Position} {tick : Tick} {readings : Readings}
    {barReadings : Portfolio.BarReadings} (time : ℤ)
    (hsame : SameState config live held tick readings barReadings) :
    Portfolio.exitQuery
        (Portfolio.evaluated config (Portfolio.flatBar time tick.price) barReadings held)
        (Portfolio.peakAtBarOpen held) (Portfolio.flatBar time tick.price) barReadings =
      { exitQuery (notePrice live tick.price) tick readings with
        atrAtEntry := 0
        peakPriceAtBarOpen := some (Portfolio.peakAtBarOpen held) } := by
  have hpeak : orElse (Portfolio.noteBar held (Portfolio.flatBar time tick.price)).peakPrice
      held.entryPrice = orElse (notePrice live tick.price).peakPrice live.entryPrice := by
    rw [notePrice_peak_eq live tick.price _ hsame.bestPrice]
    have hfavorable : (Portfolio.noteBar held (Portfolio.flatBar time tick.price)).peakPrice =
        if held.direction.better (Portfolio.peakAtBarOpen held) tick.price then some tick.price
        else held.peakPrice := by
      unfold Portfolio.noteBar Portfolio.flatBar
      cases held.direction with
      | buy => rfl
      | sell => rfl
    rw [hfavorable, hsame.action]
    split_ifs
    · rw [hsame.entryPrice]
    · exact hsame.peakPrice
  have hsignals : (Portfolio.noteDirection config barReadings.signalDirections
      (Portfolio.noteBar held (Portfolio.flatBar time tick.price))).recentSignalDirs =
      live.recentSignalDirs := by
    rw [← hsame.recentSignals]
    unfold Portfolio.noteDirection
    rw [show (Portfolio.noteBar held (Portfolio.flatBar time tick.price)).strategy =
      held.strategy from rfl]
    cases barReadings.signalDirections.get? held.strategy with
    | none => rfl
    | some direction => rfl
  rw [exitQuery_notePrice_eq]
  unfold Portfolio.evaluated
  rw [Portfolio.noteDirection_eq, hsignals]
  simp only [Portfolio.exitQuery, exitQuery, ExitQuery.mk.injEq]
  exact ⟨hsame.action, hsame.entryPrice, rfl, rfl, rfl, hsame.stopLoss, hsame.initialRisk, hpeak,
    hsame.currentAtr, hsame.barsHeld, hsame.breakeven, trivial, hsame.strategyCategory,
    hsame.currentRegime, hsame.timeframe, hsame.slAtrMult, trivial, hsame.exitSpec, trivial⟩

section Barrier

variable (q : ExitQuery) (b : Barriers) (stopLoss : ℚ)

/-- With usable distances only the width of the barriers matters. -/
theorem decision_barrier_eq (hsl : 0 < b.slAtr) (htp : 0 < b.tpAtr) (htime : 1 ≤ b.timeBars) :
    decision stopLoss (evaluateBarrierExit q b) =
      match touched q b with
      | some (reason, level) => (true, some reason, level)
      | none =>
        if 0 < b.atr ∧ b.timeBars ≤ q.barsHeld then (true, some .timeout, stopLoss)
        else (false, none, stopLoss) := by
  have hdegenerate : b.Degenerate ↔ ¬0 < b.atr := by
    unfold Barriers.Degenerate
    rw [not_lt]
    constructor
    · rintro (h | h | h | h)
      · exact h
      · exact absurd h (not_le.mpr hsl)
      · exact absurd h (not_le.mpr htp)
      · omega
    · exact Or.inl
  unfold evaluateBarrierExit touched
  by_cases hatr : 0 < b.atr
  · rw [if_neg (by rw [hdegenerate]; exact not_not.mpr hatr), if_pos hatr]
    cases hitBarrier q b with
    | some hit => rfl
    | none =>
      simp only [hatr, true_and]
      split_ifs
      · rfl
      · rfl
  · rw [if_pos (hdegenerate.mpr hatr), if_neg hatr]
    simp only [hatr, false_and, if_false]
    rfl

theorem decision_barrier_unusable (h : b.slAtr ≤ 0 ∨ b.tpAtr ≤ 0 ∨ b.timeBars < 1) :
    decision stopLoss (evaluateBarrierExit q b) = (false, none, stopLoss) := by
  have hdegenerate : b.Degenerate := Or.inr h
  unfold evaluateBarrierExit
  rw [if_pos hdegenerate]
  rfl

/-- Distance of a barrier from the entry in units of the ATR, with its sign. -/
def barrierDistance (action : Direction) (b : Barriers) (reason : CloseReason) : ℚ :=
  match action, reason with
  | .buy, .stopLoss => -b.slAtr
  | .buy, _ => b.tpAtr
  | .sell, .stopLoss => b.slAtr
  | .sell, _ => -b.tpAtr

theorem hitBarrier_level (reason : CloseReason) (level : ℚ)
    (h : hitBarrier q b = some (reason, level)) :
    level = q.entryPrice + barrierDistance q.action b reason * b.atr := by
  unfold hitBarrier at h
  split at h
  · rename_i haction
    rw [haction]
    split_ifs at h
    · cases Option.some.inj h
      simp only [barrierDistance]
      ring
    · cases Option.some.inj h
      rfl
  · rename_i haction
    rw [haction]
    split_ifs at h
    · cases Option.some.inj h
      rfl
    · cases Option.some.inj h
      simp only [barrierDistance]
      ring

theorem barrierDistance_ne_zero (action : Direction) (reason : CloseReason) (hsl : 0 < b.slAtr)
    (htp : 0 < b.tpAtr) : barrierDistance action b reason ≠ 0 := by
  unfold barrierDistance
  split
  · exact (neg_neg_of_pos hsl).ne
  · exact htp.ne'
  · exact hsl.ne'
  · exact (neg_neg_of_pos htp).ne

/-- The same barrier at the same level has the same width. -/
theorem atr_eq_of_same_hit (atr : ℚ) (hit : CloseReason × ℚ) (hsl : 0 < b.slAtr)
    (htp : 0 < b.tpAtr) (hlive : hitBarrier q b = some hit)
    (hother : hitBarrier q { b with atr := atr } = some hit) : b.atr = atr := by
  have hlevel := hitBarrier_level q b hit.1 hit.2 hlive
  have hlevel' : hit.2 = q.entryPrice + barrierDistance q.action b hit.1 * atr :=
    hitBarrier_level q { b with atr := atr } hit.1 hit.2 hother
  apply mul_left_cancel₀ (barrierDistance_ne_zero b q.action hit.1 hsl htp)
  linarith

theorem hitBarrier_of_touched {q : ExitQuery} {b : Barriers} {hit : CloseReason × ℚ}
    (h : touched q b = some hit) : hitBarrier q b = some hit := by
  unfold touched at h
  split_ifs at h
  exact h

/-- A touched barrier is neither a timeout nor a reason to hold. -/
theorem touched_ne_waiting {q : ExitQuery} {b : Barriers} {hit : CloseReason × ℚ}
    (h : touched q b = some hit) (timeUp : Prop) [Decidable timeUp] (stopLoss : ℚ) :
    (true, some hit.1, hit.2) ≠
      if timeUp then (true, some CloseReason.timeout, stopLoss) else (false, none, stopLoss) := by
  have hreason := (hitBarrier_reason (hitBarrier_of_touched h)).2
  split_ifs
  · intro heq
    exact hreason (congrArg (fun d => d.2.1) heq)
  · intro heq
    exact absurd (congrArg Prod.fst heq) (by simp)

theorem barrier_agrees_iff :
    decision stopLoss (evaluateBarrierExit q b) =
        decision stopLoss (evaluateBarrierExit q { b with atr := q.currentAtr }) ↔
      BarrierAgrees q b := by
  unfold BarrierAgrees
  by_cases hunusable : b.slAtr ≤ 0 ∨ b.tpAtr ≤ 0 ∨ b.timeBars < 1
  · rw [decision_barrier_unusable q b stopLoss hunusable,
      decision_barrier_unusable q { b with atr := q.currentAtr } stopLoss hunusable]
    refine iff_of_true rfl (Or.inr ?_)
    rcases hunusable with h | h | h
    · exact Or.inl h
    · exact Or.inr (Or.inl h)
    · exact Or.inr (Or.inr (Or.inl h))
  · simp only [not_or, not_le, not_lt] at hunusable
    obtain ⟨hsl, htp, htime⟩ := hunusable
    rw [decision_barrier_eq q b stopLoss hsl htp htime,
      decision_barrier_eq q { b with atr := q.currentAtr } stopLoss hsl htp htime]
    by_cases hsame : b.atr = q.currentAtr
    · refine iff_of_true ?_ (Or.inl hsame)
      rw [← hsame]
    · rw [or_iff_right hsame, or_iff_right (not_le.mpr hsl), or_iff_right (not_le.mpr htp),
        or_iff_right (not_lt.mpr htime)]
      cases hlive : touched q b with
      | some hit =>
        cases hother : touched q { b with atr := q.currentAtr } with
        | some hit' =>
          refine iff_of_false ?_ (by simp)
          intro h
          have hhit : hit = hit' := by
            obtain ⟨reason, level⟩ := hit
            obtain ⟨reason', level'⟩ := hit'
            simpa using h
          subst hhit
          exact hsame (atr_eq_of_same_hit q b q.currentAtr hit hsl htp (hitBarrier_of_touched hlive)
            (hitBarrier_of_touched hother))
        | none => exact iff_of_false (touched_ne_waiting hlive _ stopLoss) (by simp)
      | none =>
        cases hother : touched q { b with atr := q.currentAtr } with
        | some hit' => exact iff_of_false (touched_ne_waiting hother _ stopLoss).symm (by simp)
        | none =>
          dsimp only
          by_cases htimeUp : b.timeBars ≤ q.barsHeld
          · simp only [htimeUp, and_true, true_and, forall_const]
            by_cases hwide : 0 < b.atr <;> by_cases hwide' : 0 < q.currentAtr <;>
              simp [hwide, hwide']
          · simp [htimeUp]

end Barrier

section Trail

variable (config : ChandelierConfig) (q : ExitQuery) (profile : ExitProfile) (peakOpen : ℚ)

/-- The query of the backtest, which differs from that of live trading in two fields. -/
def backtestQuery : ExitQuery := { q with atrAtEntry := 0, peakPriceAtBarOpen := some peakOpen }

theorem decision_trailing_eq (stopLoss : ℚ) :
    decision stopLoss (evaluateTrailing config (backtestQuery q peakOpen) profile) =
      if reachedFrom config q profile peakOpen then
        (true, some .trailingStop, (trailingSl config q profile peakOpen).getD stopLoss)
      else
        ((activeExit config q profile).isSome, activeExit config q profile,
          (trailingSl config q profile q.peakPrice).getD stopLoss) := by
  have hreached : trailingReached config (backtestQuery q peakOpen) profile =
      reachedFrom config q profile peakOpen := rfl
  unfold evaluateTrailing
  rw [hreached]
  split_ifs
  · rfl
  · rfl

theorem decision_live_trailing_eq (stopLoss : ℚ) (hopen : q.peakPriceAtBarOpen = none) :
    decision stopLoss (evaluateTrailing config q profile) =
      if reachedFrom config q profile q.peakPrice then
        (true, some .trailingStop, (trailingSl config q profile q.peakPrice).getD stopLoss)
      else
        ((activeExit config q profile).isSome, activeExit config q profile,
          (trailingSl config q profile q.peakPrice).getD stopLoss) := by
  have hreached : trailingReached config q profile =
      reachedFrom config q profile q.peakPrice := by
    unfold trailingReached reachedFrom
    rw [hopen]
    rfl
  unfold evaluateTrailing
  rw [hreached, hopen]
  split_ifs
  · rfl
  · rfl

/-- A reversal or a timeout is no trailing stop. -/
theorem trailing_ne_active (stopLoss stopLoss' : ℚ) :
    (true, some CloseReason.trailingStop, stopLoss) ≠
      ((activeExit config q profile).isSome, activeExit config q profile, stopLoss') := by
  intro h
  have hreason : some CloseReason.trailingStop = activeExit config q profile :=
    congrArg (fun d => d.2.1) h
  rcases activeExit_cases config q profile with hnone | hsignal | htimeout
  · rw [hnone] at hreason
    cases hreason
  · rw [hsignal] at hreason
    cases hreason
  · rw [htimeout] at hreason
    cases hreason

theorem trail_agrees_iff (hopen : q.peakPriceAtBarOpen = none) :
    decision q.currentStopLoss (evaluateChandelier config q profile) =
        decision q.currentStopLoss
          (evaluateChandelier config (backtestQuery q peakOpen) profile) ↔
      TrailAgrees config q profile peakOpen := by
  unfold TrailAgrees
  cases hstop : q.stopReachedAt q.currentStopLoss with
  | true =>
    rw [evaluateChandelier_of_stop config q profile hstop,
      evaluateChandelier_of_stop config (backtestQuery q peakOpen) profile hstop]
    exact iff_of_true rfl (Or.inl rfl)
  | false =>
    rw [or_iff_right Bool.false_ne_true]
    cases htarget : (checkHardTp q.action q.entryPrice q.barHigh q.barLow q.initialRisk
        config.maxTpR).isSome with
    | true =>
      rw [evaluateChandelier_of_target config q profile hstop htarget,
        evaluateChandelier_of_target config (backtestQuery q peakOpen) profile hstop htarget]
      exact iff_of_true rfl (Or.inl rfl)
    | false =>
      rw [or_iff_right Bool.false_ne_true,
        evaluateChandelier_of_trail config q profile hstop htarget,
        evaluateChandelier_of_trail config (backtestQuery q peakOpen) profile hstop htarget,
        decision_trailing_eq, decision_live_trailing_eq config q profile _ hopen]
      cases hlive : reachedFrom config q profile q.peakPrice with
      | true =>
        cases hother : reachedFrom config q profile peakOpen with
        | true => simp
        | false =>
          refine iff_of_false ?_ (by simp)
          exact trailing_ne_active config q profile _ _
      | false =>
        cases hother : reachedFrom config q profile peakOpen with
        | true =>
          refine iff_of_false ?_ (by simp)
          exact (trailing_ne_active config q profile _ _).symm
        | false => simp

theorem trail_silent_iff (hrisk : q.initialRisk ≤ 0) :
    decision q.currentStopLoss
        (evaluateChandelier config (backtestQuery q peakOpen) profile) =
        (false, none, q.currentStopLoss) ↔
      q.stopReachedAt q.currentStopLoss = false ∧
        reachedFrom config q profile peakOpen = false ∧ activeExit config q profile = none ∧
        (trailingSl config q profile q.peakPrice).getD q.currentStopLoss = q.currentStopLoss := by
  have htarget : (checkHardTp q.action q.entryPrice q.barHigh q.barLow q.initialRisk
      config.maxTpR).isSome = false := by
    unfold checkHardTp
    rw [if_pos (Or.inl hrisk), Option.isSome_none]
  cases hstop : q.stopReachedAt q.currentStopLoss with
  | true =>
    rw [evaluateChandelier_of_stop config (backtestQuery q peakOpen) profile hstop]
    simp [decision]
  | false =>
    rw [evaluateChandelier_of_trail config (backtestQuery q peakOpen) profile hstop htarget,
      decision_trailing_eq]
    cases reachedFrom config q profile peakOpen with
    | true => simp
    | false =>
      cases activeExit config q profile with
      | none => simp
      | some reason => simp

end Trail

theorem barrier_silent_iff (q : ExitQuery) (b : Barriers) (stopLoss : ℚ) :
    decision stopLoss (evaluateBarrierExit q b) = (false, none, stopLoss) ↔
      b.Degenerate ∨ (hitBarrier q b = none ∧ q.barsHeld < b.timeBars) := by
  unfold evaluateBarrierExit
  by_cases hdegenerate : b.Degenerate
  · rw [if_pos hdegenerate]
    exact iff_of_true rfl (Or.inl hdegenerate)
  · rw [if_neg hdegenerate, or_iff_right hdegenerate]
    cases hitBarrier q b with
    | some hit => simp [decision]
    | none =>
      dsimp only
      by_cases htimeUp : b.timeBars ≤ q.barsHeld
      · rw [if_pos htimeUp]
        simp [decision, htimeUp]
      · rw [if_neg htimeUp]
        exact iff_of_true rfl ⟨rfl, not_le.mp htimeUp⟩

theorem barriersOf_backtestQuery (q : ExitQuery) (peakOpen : ℚ) :
    barriersOf (backtestQuery q peakOpen) =
      (barriersOf q).map fun b => { b with atr := q.currentAtr } := by
  unfold barriersOf backtestQuery
  cases q.exitSpec.slAtr.toFloat with
  | none => rfl
  | some slAtr =>
    cases q.exitSpec.tpAtr.toFloat with
    | none => rfl
    | some tpAtr =>
      cases q.exitSpec.timeBars.toFloat with
      | none => rfl
      | some timeBars => simp

/-- The two queries lead to the same decision exactly under the condition. -/
theorem query_agrees_iff (config : ChandelierConfig) (q : ExitQuery) (peakOpen : ℚ)
    (hopen : q.peakPriceAtBarOpen = none) :
    (if q.initialRisk ≤ 0 then some (false, none, q.currentStopLoss)
        else (evaluateExit config q).map (decision q.currentStopLoss)) =
        (evaluateExit config (backtestQuery q peakOpen)).map (decision q.currentStopLoss) ↔
      Agrees config q peakOpen := by
  have hmode : (backtestQuery q peakOpen).exitSpec.isBarrier = q.exitSpec.isBarrier := rfl
  have hprofile : exitProfile config (backtestQuery q peakOpen) = exitProfile config q := rfl
  have hbarrier : evaluateBarrierExit (backtestQuery q peakOpen) = evaluateBarrierExit q := rfl
  unfold Agrees Silent evaluateExit
  rw [hmode, hprofile, barriersOf_backtestQuery, hbarrier]
  by_cases hrisk : q.initialRisk ≤ 0
  · rw [if_pos hrisk, if_pos hrisk, eq_comm]
    by_cases hbarriers : q.exitSpec.isBarrier = true
    · rw [if_pos hbarriers, if_pos hbarriers]
      cases barriersOf q with
      | none => simp
      | some b => simpa using barrier_silent_iff q { b with atr := q.currentAtr } _
    · rw [if_neg hbarriers, if_neg hbarriers]
      cases exitProfile config q with
      | none => simp
      | some profile => simpa using trail_silent_iff config q profile peakOpen hrisk
  · rw [if_neg hrisk, if_neg hrisk]
    by_cases hbarriers : q.exitSpec.isBarrier = true
    · rw [if_pos hbarriers, if_pos hbarriers, if_pos hbarriers]
      cases barriersOf q with
      | none => simp
      | some b => simpa using barrier_agrees_iff q b q.currentStopLoss
    · rw [if_neg hbarriers, if_neg hbarriers, if_neg hbarriers]
      cases exitProfile config q with
      | none => simp
      | some profile => simpa using trail_agrees_iff config q profile peakOpen hopen

/-- For a position in the same state the backtest decides like live trading exactly under
the condition. -/
theorem exits_agree_iff (config : ChandelierConfig) (live : TrackedPosition)
    (held : Portfolio.Position) (tick : Tick) (readings : Readings)
    (barReadings : Portfolio.BarReadings) (time : ℤ)
    (hsame : SameState config live held tick readings barReadings) :
    liveDecision config live tick readings =
        backtestDecision config held time tick.price barReadings ↔
      Agrees config (exitQuery (notePrice live tick.price) tick readings)
        (Portfolio.peakAtBarOpen held) := by
  rw [← query_agrees_iff config _ _ rfl]
  unfold liveDecision backtestDecision Portfolio.ruleExit
  rw [backtest_query_eq time hsame, hsame.stopLoss]
  rw [exitQuery_notePrice_eq]
  exact Iff.rfl

/-- A tracked position as the backtest would hold it on the bar before a given age. -/
def asHeld (pos : TrackedPosition) (barsHeld : ℤ) (takeProfit : ℚ) : Portfolio.Position where
  signalId := ""
  strategy := pos.strategy
  direction := pos.action
  entryTime := pos.openedAt
  entryPrice := pos.entryPrice
  stopLoss := pos.stopLoss
  takeProfit := takeProfit
  positionSize := 1 / 10
  regime := ""
  confidence := 0
  entryBarIndex := 0
  atrAtEntry := pos.atrAtEntry
  initialRisk := pos.initialRisk
  peakPrice := some (orElse pos.peakPrice pos.entryPrice)
  barsHeld := barsHeld
  breakevenActivated := pos.breakevenActivated
  recentSignalDirs := pos.recentSignalDirs
  strategyCategory := pos.strategyCategory
  exitSpec := pos.exitSpec
  timeframe := pos.timeframe
  slAtrMult := pos.slAtrMult

/-- A price one hour after the opening. -/
def hourLater (price : ℚ) : Tick where
  price := price
  now := 3600
  answer := .unreported

/-- A buy at 100 with barriers of two and four times an entry ATR of 5/2. -/
def barrierBuy : Opening := { buyAtHundred with exitSpec := filledBelowQuote.exitSpec }

theorem exits_agree_iff_barrierBuy :
    liveDecision {} (trackPosition 1 barrierBuy) (hourLater 104) { atr := some 5 } =
        backtestDecision {} (asHeld (trackPosition 1 barrierBuy) 0 130) 3600 104
          { currentAtr := 5 } ↔
      Agrees {} (exitQuery (notePrice (trackPosition 1 barrierBuy) 104) (hourLater 104)
        { atr := some 5 }) 100 :=
  exits_agree_iff {} (trackPosition 1 barrierBuy) (asHeld (trackPosition 1 barrierBuy) 0 130)
    (hourLater 104) { atr := some 5 } { currentAtr := 5 } 3600
    (by constructor <;> decide +kernel)

/-- In the same state and without a hard boundary the decisions differ: a barrier target at
the entry ATR is reached live and not at the doubled current one, and a new peak closes
live on its own breakeven stop. -/
theorem backtest_and_live_disagree :
    (SameState {} (trackPosition 1 barrierBuy) (asHeld (trackPosition 1 barrierBuy) 0 130)
        (hourLater 110) { atr := some 5 } { currentAtr := 5 } ∧
      Portfolio.resolveHardBoundaryExit (Portfolio.flatBar 3600 110)
        (Portfolio.noteBar (asHeld (trackPosition 1 barrierBuy) 0 130)
          (Portfolio.flatBar 3600 110)) = none ∧
      liveDecision {} (trackPosition 1 barrierBuy) (hourLater 110) { atr := some 5 } ≠
        backtestDecision {} (asHeld (trackPosition 1 barrierBuy) 0 130) 3600 110
          { currentAtr := 5 }) ∧
    (SameState {} (trackPosition 1 nearStopBuy) (asHeld (trackPosition 1 nearStopBuy) 0 130)
        (hourLater (503 / 5)) { atr := some (1 / 4) } { currentAtr := 1 / 4 } ∧
      Portfolio.resolveHardBoundaryExit (Portfolio.flatBar 3600 (503 / 5))
        (Portfolio.noteBar (asHeld (trackPosition 1 nearStopBuy) 0 130)
          (Portfolio.flatBar 3600 (503 / 5))) = none ∧
      liveDecision {} (trackPosition 1 nearStopBuy) (hourLater (503 / 5))
          { atr := some (1 / 4) } ≠
        backtestDecision {} (asHeld (trackPosition 1 nearStopBuy) 0 130) 3600 (503 / 5)
          { currentAtr := 1 / 4 }) := by
  refine ⟨⟨?_, ?_, ?_⟩, ⟨?_, ?_, ?_⟩⟩
  · constructor <;> decide +kernel
  · decide +kernel
  · decide +kernel
  · constructor <;> decide +kernel
  · decide +kernel
  · decide +kernel

end MT5Services.ExitAgreement
