import MT5Services.Dict
import Mathlib.Algebra.Order.Field.Basic
import Mathlib.Algebra.Order.Field.Rat

/-!
The performance multiplier of a strategy within the session. The outcomes of a strategy, alone
and by regime, of its category and of its trades each give a multiplier; which of them are mixed
depends on how many there are. The square root of the source is a parameter.
-/
namespace MT5Services.SessionPerformance

structure StrategyStats where
  wins : ℕ := 0
  losses : ℕ := 0
  totalWinPnl : ℚ := 0
  totalLossPnl : ℚ := 0
  currentStreak : ℤ := 0
  deriving DecidableEq, Repr

namespace StrategyStats

def total (stats : StrategyStats) : ℕ := stats.wins + stats.losses

def winRate (stats : StrategyStats) : Option ℚ :=
  if stats.total = 0 then none else some (stats.wins / stats.total)

def profitFactor (stats : StrategyStats) : Option ℚ :=
  if stats.totalLossPnl = 0 then none
  else if stats.totalWinPnl = 0 then some 0
  else some (min (stats.totalWinPnl / |stats.totalLossPnl|) 50)

end StrategyStats

structure PerformanceTrackerConfig where
  enabled : Bool := true
  baselineWinRate : ℚ := 1 / 2
  minMultiplier : ℚ := 8 / 10
  maxMultiplier : ℚ := 12 / 10
  streakPenaltyThreshold : ℤ := 3
  streakPenaltyFactor : ℚ := 9 / 10
  categoryFallbackMinSamples : ℕ := 3
  minSamplesForPenalty : ℕ := 8
  deriving DecidableEq, Repr

structure StrategyPerformanceTracker where
  config : PerformanceTrackerConfig := {}
  strategyCategories : Dict String String := Dict.empty
  stats : Dict String StrategyStats := Dict.empty
  regimeStats : Dict (String × String) StrategyStats := Dict.empty
  categoryStats : Dict String StrategyStats := Dict.empty
  tradeStats : Dict String StrategyStats := Dict.empty

/-- The third factor of the multiplier. -/
def profitAdjustment (stats : StrategyStats) : ℚ :=
  if stats.total < 2 then 1
  else
    match stats.profitFactor with
    | some pf =>
      if pf < 5 / 10 then 90 / 100
      else if pf < 8 / 10 then 95 / 100
      else if pf < 1 then 98 / 100
      else if 2 < pf then 105 / 100
      else if 15 / 10 < pf then 102 / 100
      else 1
    | none =>
      if 0 < stats.losses ∧ stats.totalWinPnl = 0 then 90 / 100
      else if 0 < stats.wins ∧ stats.totalLossPnl = 0 then 105 / 100
      else 1

/-- The second factor, for losing streaks only. -/
def streakPenalty (config : PerformanceTrackerConfig) (stats : StrategyStats) : ℚ :=
  if stats.currentStreak < -config.streakPenaltyThreshold then
    config.streakPenaltyFactor ^
      (min (|stats.currentStreak| - config.streakPenaltyThreshold) 10).toNat
  else 1

section Multipliers

-- `x ** 0.5`
variable (root : ℚ → ℚ)

def computeMultiplier (config : PerformanceTrackerConfig) (stats : StrategyStats) : ℚ :=
  if stats.total < config.minSamplesForPenalty then 1
  else
    let rate :=
      match stats.winRate with
      | some winRate => root (winRate / max config.baselineWinRate (1 / 100))
      | none => 1
    max config.minMultiplier
      (min config.maxMultiplier (rate * streakPenalty config stats * profitAdjustment stats))

def categoryFallbackMultiplier (t : StrategyPerformanceTracker) (strategy : String) : ℚ :=
  match t.categoryStats.get? ((t.strategyCategories.get? strategy).getD "unknown") with
  | none => 1
  | some stats => if stats.total = 0 then 1 else computeMultiplier root t.config stats

/-- The statistics under the key, when they count anything. -/
def counted {K : Type*} [DecidableEq K] (table : Dict K StrategyStats) (key : K) :
    Option StrategyStats :=
  (table.get? key).filter fun stats => 0 < stats.total

def blend (weight first second : ℚ) : ℚ := first * weight + second * (1 - weight)

def regimeAwareMultiplier (t : StrategyPerformanceTracker) (strategy : String)
    (regime : Option String) : Option ℚ :=
  if regime.getD "" = "" then none
  else
    match counted t.regimeStats (strategy, regime.getD "") with
    | none => none
    | some regimeStats =>
      let regimeMult := computeMultiplier root t.config regimeStats
      let minSamples := t.config.categoryFallbackMinSamples
      if minSamples ≤ regimeStats.total then
        match counted t.stats strategy with
        | some globalStats =>
          some (blend (7 / 10) regimeMult (computeMultiplier root t.config globalStats))
        | none => some regimeMult
      else
        let weight := root (regimeStats.total / minSamples) * (7 / 10)
        match counted t.stats strategy with
        | some globalStats =>
          some (blend weight regimeMult (computeMultiplier root t.config globalStats))
        | none => some (blend weight regimeMult (categoryFallbackMultiplier root t strategy))

/-- Without the regime: the trades when there are enough of them, then the strategy, then its
category. -/
def globalMultiplier (t : StrategyPerformanceTracker) (strategy : String) : ℚ :=
  let minSamples := t.config.categoryFallbackMinSamples
  match (t.tradeStats.get? strategy).filter fun stats => minSamples ≤ stats.total with
  | some tradeStats =>
    let tradeMult := computeMultiplier root t.config tradeStats
    match counted t.stats strategy with
    | some primaryStats => blend (7 / 10) tradeMult (computeMultiplier root t.config primaryStats)
    | none => tradeMult
  | none =>
    match counted t.stats strategy with
    | none => categoryFallbackMultiplier root t strategy
    | some stats =>
      let individual := computeMultiplier root t.config stats
      if stats.total < minSamples then
        blend (root (stats.total / minSamples)) individual
          (categoryFallbackMultiplier root t strategy)
      else individual

def getMultiplier (t : StrategyPerformanceTracker) (strategy : String) (regime : Option String) :
    ℚ :=
  if !t.config.enabled then 1
  else (regimeAwareMultiplier root t strategy regime).getD (globalMultiplier root t strategy)

end Multipliers

end MT5Services.SessionPerformance
