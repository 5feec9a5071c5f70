import MT5Services.Dict
import MT5Services.PyNumber
import MT5Services.PyText

/-!
The exit rules that live trading and the backtest share: `exit_rules.py` as pure
functions of one bar. The chandelier rules come in their source order (initial stop,
hard target, trailing stop with breakeven, reversal, timeout); an exit spec in
barrier mode has its own fixed levels. `evaluateExit` is `none` where the source
raises. The flag `breakeven_enabled` is not part of the configuration: no rule reads
it.
-/
namespace MT5Services.ExitRules

open PyNumber

inductive Direction
  | buy
  | sell
  deriving DecidableEq, Repr

namespace Direction

def opposite : Direction → Direction
  | .buy => .sell
  | .sell => .buy

/-- The second price is at least as good as the first to a position of this side. -/
def AtLeast : Direction → ℚ → ℚ → Prop
  | .buy, old, new => old ≤ new
  | .sell, old, new => new ≤ old

instance (action : Direction) (old new : ℚ) : Decidable (action.AtLeast old new) :=
  match action with
  | .buy => inferInstanceAs (Decidable (old ≤ new))
  | .sell => inferInstanceAs (Decidable (new ≤ old))

/-- The second price is strictly better. -/
def better : Direction → ℚ → ℚ → Bool
  | .buy, old, new => old < new
  | .sell, old, new => new < old

theorem atLeast_refl (action : Direction) (price : ℚ) : action.AtLeast price price := by
  cases action with
  | buy => exact le_refl price
  | sell => exact le_refl price

theorem AtLeast.trans {action : Direction} {a b c : ℚ} (hab : action.AtLeast a b)
    (hbc : action.AtLeast b c) : action.AtLeast a c := by
  cases action with
  | buy => exact le_trans hab hbc
  | sell => exact le_trans hbc hab

theorem atLeast_of_better {action : Direction} {old new : ℚ} (h : action.better old new = true) :
    action.AtLeast old new := by
  cases action with
  | buy => exact (of_decide_eq_true h).le
  | sell => exact (of_decide_eq_true h).le

/-- Rounding does not change which of two prices is the better one. -/
theorem AtLeast.round {action : Direction} {old new : ℚ} (h : action.AtLeast old new)
    (digits : ℕ) : action.AtLeast (round old digits) (round new digits) := by
  cases action with
  | buy => exact round_mono h digits
  | sell => exact round_mono h digits

end Direction

structure ExitProfile where
  chandelierAtrMultiplier : ℚ := 5 / 2
  lockRatio : ℚ := 1 / 2
  breakevenR : ℚ := 1
  deriving DecidableEq, Repr

def profileFromAggression (alpha : ℚ) : ExitProfile :=
  let alpha := max 0 (min 1 alpha)
  { chandelierAtrMultiplier := round (3 / 2 + 2 * alpha) 4
    lockRatio := round (9 / 10 - 1 / 2 * alpha) 4
    breakevenR := round (3 / 5 + 3 / 5 * alpha) 4 }

def defaultAggressionMap : List ((String × String) × ℚ) :=
  [ (("trend", "trending"), 85 / 100), (("trend", "ranging"), 15 / 100),
    (("trend", "breakout"), 65 / 100), (("trend", "uncertain"), 50 / 100),
    (("reversion", "trending"), 10 / 100), (("reversion", "ranging"), 80 / 100),
    (("reversion", "breakout"), 10 / 100), (("reversion", "uncertain"), 45 / 100),
    (("breakout", "trending"), 85 / 100), (("breakout", "ranging"), 10 / 100),
    (("breakout", "breakout"), 85 / 100), (("breakout", "uncertain"), 50 / 100),
    (("session", "trending"), 80 / 100), (("session", "ranging"), 20 / 100),
    (("session", "breakout"), 80 / 100), (("session", "uncertain"), 50 / 100),
    (("multi_tf", "trending"), 85 / 100), (("multi_tf", "ranging"), 15 / 100),
    (("multi_tf", "breakout"), 65 / 100), (("multi_tf", "uncertain"), 50 / 100),
    (("price_action", "trending"), 15 / 100), (("price_action", "ranging"), 70 / 100),
    (("price_action", "breakout"), 15 / 100), (("price_action", "uncertain"), 45 / 100) ]

def defaultAggression : ℚ := 50 / 100

def defaultTfTrailScale : List (String × ℚ) :=
  [ ("M5", 120 / 100), ("M15", 110 / 100), ("M30", 1), ("H1", 1), ("H4", 95 / 100),
    ("D1", 90 / 100) ]

/-- The overrides come first, then the default table, then the default. -/
def resolveAggression (strategyCategory currentRegime : String)
    (overrides : Dict (String × String) ℚ) : ℚ :=
  let key := (strategyCategory.toLower, currentRegime.toLower)
  match overrides.get? key with
  | some alpha => alpha
  | none => (defaultAggressionMap.lookup key).getD defaultAggression

def resolveExitProfile (strategyCategory currentRegime : String)
    (overrides : Dict (String × String) ℚ) : ExitProfile :=
  profileFromAggression (resolveAggression strategyCategory currentRegime overrides)

def resolveTfTrailScale (timeframe : String) (overrides : Dict String ℚ) : ℚ :=
  let tf := (PyText.strip timeframe).toUpper
  match overrides.get? tf with
  | some scale => scale
  | none => (defaultTfTrailScale.lookup tf).getD 1

structure ChandelierConfig where
  breakevenBufferR : ℚ := 1 / 10
  minBreakevenBuffer : ℚ := 1
  signalExitEnabled : Bool := true
  signalExitConfirmationBars : ℤ := 2
  timeoutBars : ℤ := 0
  maxTpR : ℚ := 5
  regimeAware : Bool := true
  defaultProfile : ExitProfile := {}
  aggressionOverrides : Dict (String × String) ℚ := Dict.empty
  tfTrailScale : Dict String ℚ := Dict.empty
  enforceRFloor : Bool := true

inductive CloseReason
  | stopLoss
  | takeProfit
  | trailingStop
  | signalExit
  | timeout
  deriving DecidableEq, Repr

structure ExitCheckResult where
  shouldClose : Bool
  closeReason : Option CloseReason
  newStopLoss : Option ℚ
  rMultiple : ℚ
  breakevenActivated : Bool
  deriving DecidableEq, Repr

/-- A value of the `exit_spec` dictionary; `malformed` is one that is no number. -/
inductive SpecValue
  | missing
  | number (value : ℚ)
  | malformed
  deriving DecidableEq, Repr

/-- `float(value or 0.0)`; `none` when it raises. -/
def SpecValue.toFloat : SpecValue → Option ℚ
  | .missing => some 0
  | .number value => some value
  | .malformed => none

structure ExitSpec where
  mode : String := ""
  aggression : SpecValue := .missing
  slAtr : SpecValue := .missing
  tpAtr : SpecValue := .missing
  timeBars : SpecValue := .missing
  deriving DecidableEq, Repr

/-- The arguments of `evaluate_exit` apart from the configuration. -/
structure ExitQuery where
  action : Direction
  entryPrice : ℚ
  barHigh : ℚ
  barLow : ℚ
  barClose : ℚ
  currentStopLoss : ℚ
  initialRisk : ℚ
  peakPrice : ℚ
  currentAtr : ℚ
  barsHeld : ℤ := 0
  breakevenAlreadyActivated : Bool := false
  recentSignalDirs : List Direction := []
  strategyCategory : String := ""
  currentRegime : String := ""
  timeframe : String := ""
  initialSlAtrMult : ℚ := 0
  atrAtEntry : ℚ := 0
  exitSpec : ExitSpec := {}
  peakPriceAtBarOpen : Option ℚ := none

/-- The bar touches the stop. -/
def stopReached (action : Direction) (barHigh barLow stop : ℚ) : Bool :=
  match action with
  | .buy => barLow ≤ stop
  | .sell => stop ≤ barHigh

/-- Profit at a price in units of the initial risk. -/
def profitR (action : Direction) (entryPrice price initialRisk : ℚ) : ℚ :=
  match action with
  | .buy => (price - entryPrice) / initialRisk
  | .sell => (entryPrice - price) / initialRisk

def checkInitialSl (action : Direction) (barHigh barLow currentStopLoss rMultiple : ℚ) :
    Option ExitCheckResult :=
  if stopReached action barHigh barLow currentStopLoss then
    some
      { shouldClose := true
        closeReason := some .stopLoss
        newStopLoss := none
        rMultiple := rMultiple
        breakevenActivated := false }
  else none

def checkHardTp (action : Direction) (entryPrice barHigh barLow initialRisk maxTpR : ℚ) :
    Option ExitCheckResult :=
  let reached : Bool :=
    match action with
    | .buy => entryPrice + maxTpR * initialRisk ≤ barHigh
    | .sell => barLow ≤ entryPrice - maxTpR * initialRisk
  if initialRisk ≤ 0 ∨ maxTpR ≤ 0 then none
  else if reached then
    some
      { shouldClose := true
        closeReason := some .takeProfit
        newStopLoss := none
        rMultiple := maxTpR
        breakevenActivated := true }
  else none

def computeChandelierSl (action : Direction) (peakPrice currentAtr multiplier : ℚ) : Option ℚ :=
  if currentAtr ≤ 0 ∨ multiplier ≤ 0 then none
  else
    match action with
    | .buy => some (peakPrice - currentAtr * multiplier)
    | .sell => some (peakPrice + currentAtr * multiplier)

/-- The level that protects the entry and then a share of the peak profit, and
whether breakeven is active. -/
def computeBreakevenSl (action : Direction)
    (entryPrice peakPrice initialRisk breakevenR breakevenBufferR minBuffer : ℚ)
    (alreadyActivated : Bool) (lockRatio : ℚ) : Option ℚ × Bool :=
  if initialRisk ≤ 0 then (none, alreadyActivated)
  else
    let peakProfitR := profitR action entryPrice peakPrice initialRisk
    if alreadyActivated ∨ breakevenR ≤ peakProfitR then
      let buffer := max (breakevenBufferR * initialRisk) minBuffer
      let lockAmount :=
        if 0 < lockRatio ∧ breakevenR < peakProfitR then
          max (peakProfitR * lockRatio * initialRisk) buffer
        else buffer
      match action with
      | .buy => (some (entryPrice + lockAmount), true)
      | .sell => (some (entryPrice - lockAmount), true)
    else (none, false)

/-- The best of the current stop and the candidates, before rounding. -/
def tightestStop (action : Direction) (currentStopLoss : ℚ)
    (chandelierSl breakevenSl : Option ℚ) : ℚ :=
  let candidates := chandelierSl.toList ++ breakevenSl.toList
  match action with
  | .buy => candidates.foldl max currentStopLoss
  | .sell => candidates.foldl min currentStopLoss

def mergeTrailingSl (action : Direction) (currentStopLoss : ℚ)
    (chandelierSl breakevenSl : Option ℚ) : Option ℚ :=
  let best := tightestStop action currentStopLoss chandelierSl breakevenSl
  if action.better currentStopLoss best then some (round best 2) else none

/-- Python's `items[-count:]`; a count of zero or less does not count from the end. -/
def takeLast {α : Type*} (items : List α) (count : ℤ) : List α :=
  if 0 < count then items.drop (items.length - count.toNat) else items.drop (-count).toNat

def checkSignalReversal (action : Direction) (recentSignalDirs : List Direction)
    (confirmationBars : ℤ) : Bool :=
  if recentSignalDirs = [] ∨ (recentSignalDirs.length : ℤ) < confirmationBars then false
  else (takeLast recentSignalDirs confirmationBars).all (· = action.opposite)

def checkTimeout (action : Direction) (entryPrice barPrice initialRisk : ℚ)
    (barsHeld timeoutBars : ℤ) (breakevenR : ℚ) : Bool :=
  if timeoutBars ≤ 0 ∨ barsHeld < timeoutBars then false
  else if initialRisk ≤ 0 then false
  else profitR action entryPrice barPrice initialRisk < breakevenR

namespace ExitQuery

variable (q : ExitQuery)

def rMultiple : ℚ :=
  if 0 < q.initialRisk then profitR q.action q.entryPrice q.barClose q.initialRisk else 0

def stopReachedAt (stop : ℚ) : Bool := stopReached q.action q.barHigh q.barLow stop

end ExitQuery

structure Barriers where
  atr : ℚ
  slAtr : ℚ
  tpAtr : ℚ
  timeBars : ℤ
  deriving DecidableEq, Repr

def Barriers.Degenerate (b : Barriers) : Prop :=
  b.atr ≤ 0 ∨ b.slAtr ≤ 0 ∨ b.tpAtr ≤ 0 ∨ b.timeBars < 1

instance (b : Barriers) : Decidable b.Degenerate :=
  inferInstanceAs (Decidable (b.atr ≤ 0 ∨ b.slAtr ≤ 0 ∨ b.tpAtr ≤ 0 ∨ b.timeBars < 1))

/-- The price barrier the bar touches, with its level; the stop side comes first. -/
def hitBarrier (q : ExitQuery) (b : Barriers) : Option (CloseReason × ℚ) :=
  match q.action with
  | .buy =>
    if q.barLow ≤ q.entryPrice - b.slAtr * b.atr then
      some (.stopLoss, q.entryPrice - b.slAtr * b.atr)
    else if q.entryPrice + b.tpAtr * b.atr ≤ q.barHigh then
      some (.takeProfit, q.entryPrice + b.tpAtr * b.atr)
    else none
  | .sell =>
    if q.entryPrice + b.slAtr * b.atr ≤ q.barHigh then
      some (.stopLoss, q.entryPrice + b.slAtr * b.atr)
    else if q.barLow ≤ q.entryPrice - b.tpAtr * b.atr then
      some (.takeProfit, q.entryPrice - b.tpAtr * b.atr)
    else none

def evaluateBarrierExit (q : ExitQuery) (b : Barriers) : ExitCheckResult :=
  if b.Degenerate then ⟨false, none, none, 0, false⟩
  else
    match hitBarrier q b with
    | some (reason, level) => ⟨true, some reason, some level, round q.rMultiple 4, false⟩
    | none =>
      if b.timeBars ≤ q.barsHeld then ⟨true, some .timeout, none, round q.rMultiple 4, false⟩
      else ⟨false, none, none, round q.rMultiple 4, false⟩

/-- The strategy's own aggression first, then category and regime, then the default. -/
def exitProfile (config : ChandelierConfig) (q : ExitQuery) : Option ExitProfile :=
  match q.exitSpec.aggression with
  | .number alpha => some (profileFromAggression alpha)
  | .malformed => none
  | .missing =>
    if config.regimeAware ∧ q.strategyCategory ≠ "" ∧ q.currentRegime ≠ "" then
      some (resolveExitProfile q.strategyCategory q.currentRegime config.aggressionOverrides)
    else some config.defaultProfile

/-- Scaled by timeframe and never below the multiple of the initial stop. -/
def effectiveChandelierMult (config : ChandelierConfig) (q : ExitQuery)
    (profile : ExitProfile) : ℚ :=
  let scaled :=
    profile.chandelierAtrMultiplier * resolveTfTrailScale q.timeframe config.tfTrailScale
  if config.enforceRFloor ∧ 0 < q.initialSlAtrMult then max scaled q.initialSlAtrMult else scaled

section Chandelier

variable (config : ChandelierConfig) (q : ExitQuery) (profile : ExitProfile)

def breakevenAt (peak : ℚ) : Option ℚ × Bool :=
  computeBreakevenSl q.action q.entryPrice peak q.initialRisk profile.breakevenR
    config.breakevenBufferR config.minBreakevenBuffer q.breakevenAlreadyActivated
    profile.lockRatio

def chandelierAt (peak : ℚ) : Option ℚ :=
  computeChandelierSl q.action peak q.currentAtr (effectiveChandelierMult config q profile)

/-- The tightest level the trailing rules reach from a peak, before rounding. -/
def trailLevel (peak : ℚ) : ℚ :=
  tightestStop q.action q.currentStopLoss (chandelierAt config q profile peak)
    (breakevenAt config q profile peak).1

/-- The stop the trailing rules ask for, if it is tighter than the current one. -/
def trailingSl (peak : ℚ) : Option ℚ :=
  mergeTrailingSl q.action q.currentStopLoss (chandelierAt config q profile peak)
    (breakevenAt config q profile peak).1

/-- A confirmed reversal in profit, or a timeout. -/
def activeExit : Option CloseReason :=
  if config.signalExitEnabled ∧ q.recentSignalDirs ≠ [] ∧ 0 ≤ q.rMultiple ∧
      checkSignalReversal q.action q.recentSignalDirs config.signalExitConfirmationBars then
    some .signalExit
  else if 0 < config.timeoutBars ∧
      checkTimeout q.action q.entryPrice q.barClose q.initialRisk q.barsHeld
        config.timeoutBars profile.breakevenR then
    some .timeout
  else none

/-- The stop that is in force on this bar uses the peak known when the bar opened. -/
def trailingReached : Bool :=
  let peak := q.peakPriceAtBarOpen.getD q.peakPrice
  q.stopReachedAt ((trailingSl config q profile peak).getD q.currentStopLoss)

def evaluateTrailing : ExitCheckResult :=
  if trailingReached config q profile then
    let peak := q.peakPriceAtBarOpen.getD q.peakPrice
    { shouldClose := true
      closeReason := some .trailingStop
      newStopLoss := trailingSl config q profile peak
      rMultiple := round q.rMultiple 4
      breakevenActivated := (breakevenAt config q profile peak).2 }
  else
    { shouldClose := (activeExit config q profile).isSome
      closeReason := activeExit config q profile
      newStopLoss := trailingSl config q profile q.peakPrice
      rMultiple := round q.rMultiple 4
      breakevenActivated := (breakevenAt config q profile q.peakPrice).2 }

def evaluateChandelier : ExitCheckResult :=
  match checkInitialSl q.action q.barHigh q.barLow q.currentStopLoss q.rMultiple with
  | some result => result
  | none =>
    match checkHardTp q.action q.entryPrice q.barHigh q.barLow q.initialRisk config.maxTpR with
    | some result => result
    | none => evaluateTrailing config q profile

end Chandelier

/-- Only a spec in barrier mode has barriers; `none` inside when one is malformed. -/
def barriersOf (q : ExitQuery) : Option Barriers := do
  let slAtr ← q.exitSpec.slAtr.toFloat
  let tpAtr ← q.exitSpec.tpAtr.toFloat
  let timeBars ← q.exitSpec.timeBars.toFloat
  return ⟨if 0 < q.atrAtEntry then q.atrAtEntry else q.currentAtr, slAtr, tpAtr, toInt timeBars⟩

def ExitSpec.isBarrier (spec : ExitSpec) : Bool := spec.mode.toLower = "barrier"

def evaluateExit (config : ChandelierConfig) (q : ExitQuery) : Option ExitCheckResult :=
  if q.exitSpec.isBarrier then (barriersOf q).map (evaluateBarrierExit q)
  else (exitProfile config q).map (evaluateChandelier config q)

variable {q : ExitQuery} {b : Barriers} {reason : CloseReason} {level : ℚ}

/-- A price barrier is the stop or the target. -/
theorem hitBarrier_side
    (h : hitBarrier q b = some (reason, level)) : reason = .stopLoss ∨ reason = .takeProfit := by
  unfold hitBarrier at h
  split at h
  · split_ifs at h
    · exact Or.inl (congrArg Prod.fst (Option.some.inj h)).symm
    · exact Or.inr (congrArg Prod.fst (Option.some.inj h)).symm
  · split_ifs at h
    · exact Or.inl (congrArg Prod.fst (Option.some.inj h)).symm
    · exact Or.inr (congrArg Prod.fst (Option.some.inj h)).symm

/-- A price barrier is never a reversal or a timeout. -/
theorem hitBarrier_reason (h : hitBarrier q b = some (reason, level)) :
    some reason ≠ some CloseReason.signalExit ∧ some reason ≠ some CloseReason.timeout := by
  rcases hitBarrier_side h with rfl | rfl
  · decide
  · decide

theorem evaluateBarrierExit_breakeven (q : ExitQuery) (b : Barriers) :
    (evaluateBarrierExit q b).breakevenActivated = false := by
  unfold evaluateBarrierExit
  by_cases hdegenerate : b.Degenerate
  · rw [if_pos hdegenerate]
  · rw [if_neg hdegenerate]
    cases hitBarrier q b with
    | some hit => rfl
    | none =>
      dsimp only
      split
      · rfl
      · rfl

theorem evaluateBarrierExit_newStopLoss (q : ExitQuery) (b : Barriers) :
    (evaluateBarrierExit q b).newStopLoss =
      if b.Degenerate then none else (hitBarrier q b).map Prod.snd := by
  unfold evaluateBarrierExit
  by_cases hdegenerate : b.Degenerate
  · rw [if_pos hdegenerate, if_pos hdegenerate]
  · rw [if_neg hdegenerate, if_neg hdegenerate]
    cases hitBarrier q b with
    | some hit => rfl
    | none =>
      dsimp only
      split
      · rfl
      · rfl

theorem evaluateBarrierExit_of_hit
    (hdegenerate : ¬b.Degenerate) (hhit : hitBarrier q b = some (reason, level)) :
    evaluateBarrierExit q b = ⟨true, some reason, some level, round q.rMultiple 4, false⟩ := by
  unfold evaluateBarrierExit
  rw [if_neg hdegenerate, hhit]

section Chandelier

variable (config : ChandelierConfig) (q : ExitQuery) (profile : ExitProfile)

/-- Rules one and two are silent and no market close comes before the trailing stop. -/
def trails : Bool :=
  !q.stopReachedAt q.currentStopLoss &&
    (checkHardTp q.action q.entryPrice q.barHigh q.barLow q.initialRisk config.maxTpR).isNone &&
    (trailingReached config q profile || (activeExit config q profile).isNone)

theorem trailingSl_eq (peak : ℚ) :
    trailingSl config q profile peak =
      if q.action.better q.currentStopLoss (trailLevel config q profile peak) then
        some (round (trailLevel config q profile peak) 2)
      else none := rfl

theorem breakevenAt_of_activated (peak : ℚ) (hrisk : 0 < q.initialRisk)
    (hactivated : q.breakevenAlreadyActivated = true) :
    (breakevenAt config q profile peak).2 = true := by
  unfold breakevenAt computeBreakevenSl
  rw [if_neg (not_le.mpr hrisk), if_pos (Or.inl hactivated)]
  cases q.action with
  | buy => rfl
  | sell => rfl

theorem checkHardTp_result {action : Direction}
    {entryPrice barHigh barLow initialRisk maxTpR : ℚ} {result : ExitCheckResult}
    (h : checkHardTp action entryPrice barHigh barLow initialRisk maxTpR = some result) :
    result = ⟨true, some .takeProfit, none, maxTpR, true⟩ := by
  simp only [checkHardTp] at h
  split_ifs at h
  exact (Option.some.inj h).symm

theorem activeExit_cases :
    activeExit config q profile = none ∨ activeExit config q profile = some .signalExit ∨
      activeExit config q profile = some .timeout := by
  unfold activeExit
  split_ifs
  · exact Or.inr (Or.inl rfl)
  · exact Or.inr (Or.inr rfl)
  · exact Or.inl rfl

/-- On a bar without a remembered opening peak both uses of the trailing stop agree. -/
theorem evaluateTrailing_eq (hopen : q.peakPriceAtBarOpen = none) :
    evaluateTrailing config q profile =
      { shouldClose := trailingReached config q profile || (activeExit config q profile).isSome
        closeReason :=
          if trailingReached config q profile then some .trailingStop
          else activeExit config q profile
        newStopLoss := trailingSl config q profile q.peakPrice
        rMultiple := round q.rMultiple 4
        breakevenActivated := (breakevenAt config q profile q.peakPrice).2 } := by
  unfold evaluateTrailing
  simp only [hopen, Option.getD_none]
  split
  · rename_i hreached
    simp only [hreached, Bool.true_or]
  · rename_i hreached
    simp only [hreached, Bool.false_or]

theorem evaluateChandelier_of_stop (hstop : q.stopReachedAt q.currentStopLoss = true) :
    evaluateChandelier config q profile = ⟨true, some .stopLoss, none, q.rMultiple, false⟩ := by
  unfold evaluateChandelier checkInitialSl
  rw [if_pos (show stopReached q.action q.barHigh q.barLow q.currentStopLoss = true from hstop)]

/-- Past the first rule. -/
theorem checkInitialSl_of_not_reached (hstop : q.stopReachedAt q.currentStopLoss = false) :
    checkInitialSl q.action q.barHigh q.barLow q.currentStopLoss q.rMultiple = none := by
  unfold checkInitialSl
  rw [if_neg]
  rw [show stopReached q.action q.barHigh q.barLow q.currentStopLoss = false from hstop]
  exact Bool.false_ne_true

theorem evaluateChandelier_of_target (hstop : q.stopReachedAt q.currentStopLoss = false)
    (htarget : (checkHardTp q.action q.entryPrice q.barHigh q.barLow q.initialRisk
      config.maxTpR).isSome = true) :
    evaluateChandelier config q profile = ⟨true, some .takeProfit, none, config.maxTpR, true⟩ := by
  obtain ⟨result, hresult⟩ := Option.isSome_iff_exists.mp htarget
  unfold evaluateChandelier
  rw [checkInitialSl_of_not_reached q hstop, hresult]
  exact checkHardTp_result hresult

theorem evaluateChandelier_of_trail (hstop : q.stopReachedAt q.currentStopLoss = false)
    (htarget : (checkHardTp q.action q.entryPrice q.barHigh q.barLow q.initialRisk
      config.maxTpR).isSome = false) :
    evaluateChandelier config q profile = evaluateTrailing config q profile := by
  have hnone : checkHardTp q.action q.entryPrice q.barHigh q.barLow q.initialRisk config.maxTpR =
      none := by simpa using htarget
  unfold evaluateChandelier
  rw [checkInitialSl_of_not_reached q hstop, hnone]

/-- The three ways a chandelier evaluation ends. -/
theorem evaluateChandelier_cases :
    (q.stopReachedAt q.currentStopLoss = true ∧ trails config q profile = false ∧
        evaluateChandelier config q profile = ⟨true, some .stopLoss, none, q.rMultiple, false⟩) ∨
      (q.stopReachedAt q.currentStopLoss = false ∧ trails config q profile = false ∧
        evaluateChandelier config q profile =
          ⟨true, some .takeProfit, none, config.maxTpR, true⟩) ∨
      (q.stopReachedAt q.currentStopLoss = false ∧
        trails config q profile =
          (trailingReached config q profile || (activeExit config q profile).isNone) ∧
        evaluateChandelier config q profile = evaluateTrailing config q profile) := by
  unfold trails
  cases hstop : q.stopReachedAt q.currentStopLoss with
  | true => exact Or.inl ⟨rfl, rfl, evaluateChandelier_of_stop config q profile hstop⟩
  | false =>
    cases htarget : (checkHardTp q.action q.entryPrice q.barHigh q.barLow q.initialRisk
        config.maxTpR).isSome with
    | true =>
      refine Or.inr (Or.inl ⟨rfl, ?_, evaluateChandelier_of_target config q profile hstop htarget⟩)
      simp [← Option.not_isSome, htarget]
    | false =>
      refine Or.inr (Or.inr ⟨rfl, ?_, evaluateChandelier_of_trail config q profile hstop htarget⟩)
      simp [← Option.not_isSome, htarget]

end Chandelier

end MT5Services.ExitRules
