import MT5Services.IntrabarSynthesis
import MT5Services.Portfolio

/-!
From a signal to the parameters of a trade in the backtest: stop, target and size from the
ATR (`compute_trade_params`), then the size again under the execution semantics of the
simulation mode (`resolve_trade_parameters`). The first raises `ValueError` on numbers
that make no trade, the second answers with a reason.
-/
namespace MT5Services.TradeSizing

open PyNumber ExitRules Portfolio

inductive RegimeType
  | trending
  | ranging
  | breakout
  | uncertain
  deriving DecidableEq, Repr

def RegimeType.value : RegimeType → String
  | .trending => "trending"
  | .ranging => "ranging"
  | .breakout => "breakout"
  | .uncertain => "uncertain"

inductive SimulationMode
  | research
  | executionFeasibility
  deriving DecidableEq, Repr

/-- The fields of `PositionConfig` that sizing and the portfolio read. -/
structure PositionConfig where
  contractSize : ℚ := 100
  riskPercent : ℚ := 1
  minVolume : ℚ := 1 / 100
  maxVolume : ℚ := 1
  allowMinVolumeFallback : Bool := false
  maxActualRiskPct : ℚ := 5
  endOfDayCloseEnabled : Bool := false
  endOfDayCloseHourUtc : ℤ := 21
  endOfDayCloseMinuteUtc : ℤ := 0
  regimeTpTrending : ℚ := 13 / 10
  regimeSlTrending : ℚ := 11 / 10
  regimeTpRanging : ℚ := 75 / 100
  regimeSlRanging : ℚ := 85 / 100
  regimeTpBreakout : ℚ := 12 / 10
  regimeSlBreakout : ℚ := 11 / 10
  regimeTpUncertain : ℚ := 1
  regimeSlUncertain : ℚ := 1
  deriving DecidableEq, Repr

/-- `str(timeframe).strip().upper()`. -/
def timeframeKey (timeframe : String) : String := IntrabarSynthesis.upper (PyText.strip timeframe)

/-- `TIMEFRAME_SL_TP`. -/
def timeframeSlTp : List (String × ℚ × ℚ) :=
  [("M5", 18 / 10, 25 / 10), ("M15", 18 / 10, 25 / 10), ("M30", 2, 25 / 10), ("H1", 2, 25 / 10),
    ("H4", 22 / 10, 3), ("D1", 25 / 10, 35 / 10)]

/-- `TIMEFRAME_RISK_MULTIPLIER`. -/
def timeframeRiskMultiplier : List (String × ℚ) :=
  [("M5", 1 / 2), ("M15", 3 / 4), ("M30", 9 / 10), ("H1", 1), ("H4", 12 / 10), ("D1", 15 / 10)]

def resolveTimeframeRiskMultiplier (timeframe : String) : ℚ :=
  (timeframeRiskMultiplier.lookup (timeframeKey timeframe)).getD 1

/-- `exit_spec.get(key) or default`; `none` is a value that no product accepts. -/
def specOr (value : SpecValue) (fallback : ℚ) : Option ℚ :=
  match value with
  | .missing => some fallback
  | .number multiplier => some (if multiplier = 0 then fallback else multiplier)
  | .malformed => none

/-- The multipliers of a strategy count only where the timeframe has none of its own. -/
def resolveTimeframeSlTp (timeframe : String) (spec : ExitSpec) : Option (ℚ × ℚ) :=
  match timeframeSlTp.lookup (timeframeKey timeframe) with
  | some profile => some profile
  | none => (specOr spec.slAtr (3 / 2)).bind fun sl => (specOr spec.tpAtr 3).map fun tp => (sl, tp)

def resolveRegimeSlTpMultiplier (c : PositionConfig) : RegimeType → ℚ × ℚ
  | .trending => (c.regimeSlTrending, c.regimeTpTrending)
  | .ranging => (c.regimeSlRanging, c.regimeTpRanging)
  | .breakout => (c.regimeSlBreakout, c.regimeTpBreakout)
  | .uncertain => (c.regimeSlUncertain, c.regimeTpUncertain)

/-- What a trade is sized from. -/
structure SizingQuery where
  action : Direction
  currentPrice : ℚ
  atrValue : ℚ
  accountBalance : ℚ
  timeframe : String
  exitSpec : ExitSpec
  regime : RegimeType

/-- Aligned to a step of a hundredth and put between the limits. -/
def boundedVolume (c : PositionConfig) (rawVolume : ℚ) : ℚ :=
  let aligned := (roundHalfEven (rawVolume / (1 / 100)) : ℚ) * (1 / 100)
  max c.minVolume (min c.maxVolume (round aligned 8))

/-- How a sizing ends: with parameters, with the `ValueError` that the caller handles, or
with an exception that nobody does. -/
inductive Sizing
  | params (trade : TradeParameters)
  | valueError
  | raises

def computeTradeParams (c : PositionConfig) (q : SizingQuery) : Sizing :=
  if q.atrValue ≤ 0 ∨ q.accountBalance ≤ 0 then .valueError
  else
    match resolveTimeframeSlTp q.timeframe q.exitSpec with
    | none => .raises
    | some (sl, tp) =>
      let scale := resolveRegimeSlTpMultiplier c q.regime
      let slDistance := q.atrValue * (sl * scale.1)
      let tpDistance := q.atrValue * (tp * scale.2)
      let stopLoss := moved q.action q.currentPrice (-slDistance)
      let takeProfit := moved q.action q.currentPrice tpDistance
      if stopLoss ≤ 0 ∨ takeProfit ≤ 0 then .valueError
      else
        let riskPct := c.riskPercent * resolveTimeframeRiskMultiplier q.timeframe
        let riskPerLot := slDistance * c.contractSize
        let rawVolume :=
          if 0 < riskPerLot then q.accountBalance * (riskPct / 100) / riskPerLot else c.minVolume
        .params {
          stopLoss := round stopLoss 2
          takeProfit := round takeProfit 2
          positionSize := boundedVolume c rawVolume
          slDistance := round slDistance 2 }

/-! The execution semantics. -/

inductive SizeRefusal
  | nonPositiveTheoreticalVolume
  | nonPositiveResearchVolume
  | maxVolumeBelowMinVolume
  | belowMinVolumeForExecutionFeasibility
  | exceedsMaxActualRiskPct
  deriving DecidableEq, Repr

def SizeRefusal.reason : SizeRefusal → String
  | .nonPositiveTheoreticalVolume => "non_positive_theoretical_volume"
  | .nonPositiveResearchVolume => "non_positive_research_volume"
  | .maxVolumeBelowMinVolume => "max_volume_below_min_volume"
  | .belowMinVolumeForExecutionFeasibility => "below_min_volume_for_execution_feasibility"
  | .exceedsMaxActualRiskPct => "exceeds_max_actual_risk_pct"

def computeRawPositionSize (c : PositionConfig) (timeframe : String)
    (slDistance accountBalance : ℚ) : ℚ :=
  let riskPct := c.riskPercent * resolveTimeframeRiskMultiplier timeframe
  if slDistance ≤ 0 ∨ accountBalance ≤ 0 ∨ riskPct ≤ 0 ∨ c.contractSize ≤ 0 then 0
  else accountBalance * (riskPct / 100) / (slDistance * c.contractSize)

def alignVolume (value step : ℚ) : ℚ :=
  if value ≤ 0 then 0
  else if step ≤ 0 then round value 8
  else round (⌊value / step⌋ * step) 8

def executionVolumeStep (minVolume : ℚ) : ℚ :=
  if 0 < minVolume then min (1 / 100) minVolume else 1 / 100

/-- A size below the minimum is refused, or lifted to it when its risk stays bounded. -/
def resolveExecutionFeasiblePositionSize (c : PositionConfig)
    (rawPositionSize slDistance accountBalance : ℚ) : Except SizeRefusal ℚ :=
  let aligned := alignVolume rawPositionSize (executionVolumeStep c.minVolume)
  if c.maxVolume < c.minVolume then .error .maxVolumeBelowMinVolume
  else if c.minVolume ≤ aligned then .ok (round (min c.maxVolume aligned) 8)
  else if !c.allowMinVolumeFallback then .error .belowMinVolumeForExecutionFeasibility
  else if accountBalance ≤ 0 then .error .belowMinVolumeForExecutionFeasibility
  else if c.maxActualRiskPct < c.minVolume * slDistance * c.contractSize / accountBalance * 100 then
    .error .exceedsMaxActualRiskPct
  else .ok (round c.minVolume 8)

def resolvePositionSize (c : PositionConfig) (mode : SimulationMode)
    (rawPositionSize slDistance accountBalance : ℚ) : Except SizeRefusal ℚ :=
  if rawPositionSize ≤ 0 then .error .nonPositiveTheoreticalVolume
  else
    match mode with
    | .research =>
      let resolved := round (min c.maxVolume rawPositionSize) 8
      if resolved ≤ 0 then .error .nonPositiveResearchVolume else .ok resolved
    | .executionFeasibility =>
      resolveExecutionFeasiblePositionSize c rawPositionSize slDistance accountBalance

def resolveTradeParameters (c : PositionConfig) (mode : SimulationMode) (timeframe : String)
    (trade : TradeParameters) (accountBalance : ℚ) : Except SizeRefusal TradeParameters :=
  (resolvePositionSize c mode (computeRawPositionSize c timeframe trade.slDistance accountBalance)
    trade.slDistance accountBalance).map fun size => { trade with positionSize := size }

end MT5Services.TradeSizing
