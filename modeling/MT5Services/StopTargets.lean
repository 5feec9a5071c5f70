import Mathlib.Tactic.Linarith
import Mathlib.Tactic.Positivity
import MT5Services.CostGuard
import MT5Services.TradeSizing

/-!
Where a trade puts its stop and its target. `compute_trade_params` takes multipliers of the
ATR from its caller, the executor or the backtest, who both take those of the strategy's
`exit_spec` first; then the built-in table of the timeframe replaces them. So the strategy's
multipliers are honoured exactly on timeframes without a row, or with a row that says the
same, under regime multipliers that are positive.
-/
namespace MT5Services.StopTargets

open ExitRules PyNumber PyText PyValue
open CostGuard (Payload estimatePrice)
open MarketOrders (TradeParameters)
open TradeSizing (PositionConfig RegimeType SizingQuery specOr timeframeKey
  timeframeRiskMultiplier timeframeSlTp)

/-! ### Sizing -/

structure RegimeSizing where
  tpTrending : ℚ := 12 / 10
  tpRanging : ℚ := 8 / 10
  tpBreakout : ℚ := 11 / 10
  tpUncertain : ℚ := 1
  slTrending : ℚ := 1
  slRanging : ℚ := 9 / 10
  slBreakout : ℚ := 11 / 10
  slUncertain : ℚ := 1
  deriving DecidableEq, Repr

/-- The name of a regime without the prefix that `str` of the enumeration has. -/
def regimeKey (regime : String) : String :=
  let key := lower (strip regime)
  if "regimetype.".toList.isPrefixOf key.toList then String.ofList (key.toList.drop 11) else key

def resolveRegimeSlTpMultiplier (regime : Option String) (regimeSizing : Option RegimeSizing) :
    ℚ × ℚ :=
  let sizing := regimeSizing.getD {}
  let key := regimeKey (regime.getD "")
  if regime.getD "" = "" then (1, 1)
  else if key = RegimeType.trending.value then (sizing.slTrending, sizing.tpTrending)
  else if key = RegimeType.ranging.value then (sizing.slRanging, sizing.tpRanging)
  else if key = RegimeType.breakout.value then (sizing.slBreakout, sizing.tpBreakout)
  else if key = RegimeType.uncertain.value then (sizing.slUncertain, sizing.tpUncertain)
  else (1, 1)

/-- The row of a timeframe, or else the multipliers of the caller. -/
def resolveTimeframeSlTp (timeframe : Option String) (defaultSl defaultTp : Option ℚ) :
    Option ℚ × Option ℚ :=
  if timeframe.getD "" = "" then (defaultSl, defaultTp)
  else
    match timeframeSlTp.lookup (timeframeKey (timeframe.getD "")) with
    | none => (defaultSl, defaultTp)
    | some profile => (some profile.1, some profile.2)

def resolveTimeframeRiskMultiplier (timeframe : Option String) (overrides : Dict String ℚ) : ℚ :=
  if timeframe.getD "" = "" then 1
  else
    match overrides.get? (timeframeKey (timeframe.getD "")) with
    | some multiplier => multiplier
    | none => (timeframeRiskMultiplier.lookup (timeframeKey (timeframe.getD ""))).getD 1

/-- The arguments of `compute_trade_params`; a multiplier that is no number is `none`. -/
structure TradeQuery where
  action : String
  currentPrice : ℚ
  atrValue : ℚ
  accountBalance : ℚ
  timeframe : Option String := none
  riskPercent : ℚ := 1
  slAtrMultiplier : Option ℚ := some (3 / 2)
  tpAtrMultiplier : Option ℚ := some 3
  minVolume : ℚ := 1 / 100
  maxVolume : ℚ := 1
  contractSize : ℚ := 100
  timeframeRiskOverrides : Dict String ℚ := Dict.empty
  regime : Option String := none
  regimeSizing : Option RegimeSizing := none
  digits : ℕ := 2
  volumeStep : ℚ := 1 / 100

inductive SizingError
  | atrNotPositive
  | balanceNotPositive
  | badAction (action : String)
  | stopLossNotPositive (stopLoss : ℚ)
  | takeProfitNotPositive (takeProfit : ℚ)
  /-- A product with something that is no number. -/
  | typeError
  deriving DecidableEq, Repr

namespace TradeQuery

/-- `regime_sl_multiplier` and `regime_tp_multiplier`. -/
def regimeMultipliers (q : TradeQuery) : ℚ × ℚ :=
  resolveRegimeSlTpMultiplier q.regime q.regimeSizing

/-- `sl_distance` and `tp_distance`. -/
def distances (q : TradeQuery) : Option (ℚ × ℚ) :=
  let resolved := resolveTimeframeSlTp q.timeframe q.slAtrMultiplier q.tpAtrMultiplier
  resolved.1.bind fun sl => resolved.2.map fun tp =>
    (q.atrValue * (sl * q.regimeMultipliers.1), q.atrValue * (tp * q.regimeMultipliers.2))

/-- `stop_loss` and `take_profit` before rounding. -/
def levels (q : TradeQuery) (slDistance tpDistance : ℚ) : Option (ℚ × ℚ) :=
  if q.action = "buy" then some (q.currentPrice - slDistance, q.currentPrice + tpDistance)
  else if q.action = "sell" then some (q.currentPrice + slDistance, q.currentPrice - tpDistance)
  else none

def rawVolume (q : TradeQuery) (slDistance : ℚ) : ℚ :=
  let effectiveRiskPct :=
    q.riskPercent * resolveTimeframeRiskMultiplier q.timeframe q.timeframeRiskOverrides
  let riskAmount := q.accountBalance * (effectiveRiskPct / 100)
  let riskPerLot := slDistance * q.contractSize
  if 0 < riskPerLot then riskAmount / riskPerLot else q.minVolume

def positionSize (q : TradeQuery) (slDistance : ℚ) : ℚ :=
  let raw := q.rawVolume slDistance
  let aligned :=
    if 0 < q.volumeStep then (roundHalfEven (raw / q.volumeStep) : ℚ) * q.volumeStep
    else round raw 2
  max q.minVolume (min q.maxVolume (round aligned 8))

def parameters (q : TradeQuery) (slDistance tpDistance stopLoss takeProfit : ℚ) :
    TradeParameters where
  entryPrice := round q.currentPrice q.digits
  stopLoss := round stopLoss q.digits
  takeProfit := round takeProfit q.digits
  positionSize := q.positionSize slDistance
  riskRewardRatio := round (if 0 < slDistance then tpDistance / slDistance else 0) 2
  atrValue := q.atrValue
  slDistance := round slDistance q.digits
  tpDistance := round tpDistance q.digits

end TradeQuery

def computeTradeParams (q : TradeQuery) : Except SizingError TradeParameters :=
  if q.atrValue ≤ 0 then .error .atrNotPositive
  else if q.accountBalance ≤ 0 then .error .balanceNotPositive
  else
    match q.distances with
    | none => .error .typeError
    | some distances =>
      match q.levels distances.1 distances.2 with
      | none => .error (.badAction q.action)
      | some levels =>
        if levels.1 ≤ 0 then .error (.stopLossNotPositive levels.1)
        else if levels.2 ≤ 0 then .error (.takeProfitNotPositive levels.2)
        else .ok (q.parameters distances.1 distances.2 levels.1 levels.2)

/-! ### The executor -/

/-- The first field of the first indicator of the ATR that is a number. -/
def extractAtrFromIndicators (indicators : Dict String Payload) : Option ℚ :=
  ["atr14", "atr", "atr20"].findSome? fun name =>
    match indicators.get? name with
    | some (.fields payload) =>
      ["atr", "value"].findSome? fun field => (payload.get? field).bind Value.toFloat
    | _ => none

/-- What sizing reads of a signal event. -/
structure SignalEvent where
  symbol : String
  direction : String
  timeframe : String
  indicators : Dict String Payload := Dict.empty
  closePrice : Value := .missing
  exitSpec : ExitSpec := {}
  regime : Option String := none
  regimeHard : Option String := none

structure ExecutorConfig where
  riskPercent : ℚ := 1
  slAtrMultiplier : ℚ := 3 / 2
  tpAtrMultiplier : ℚ := 3
  minVolume : ℚ := 1 / 100
  maxVolume : ℚ := 1
  contractSizeMap : Dict String ℚ := Dict.empty
  timeframeRiskMultipliers : Dict String ℚ := Dict.empty
  regimeSizing : RegimeSizing := {}

structure Executor where
  config : ExecutorConfig := {}
  /-- `get_account_balance`. -/
  accountBalance : Option ℚ

def getContractSize (executor : Executor) (symbol : String) : ℚ :=
  (executor.config.contractSizeMap.get? symbol).getD
    ((executor.config.contractSizeMap.get? "default").getD 100)

/-- The close of the metadata, or an estimate. -/
def closePrice (event : SignalEvent) : Option ℚ :=
  (event.closePrice.toFloat.filter fun close => 0 < close) <|> estimatePrice event.indicators

/-- `str(metadata.get(REGIME) or metadata.get(REGIME_HARD) or "")`. -/
def eventRegime (event : SignalEvent) : String :=
  if event.regime.getD "" ≠ "" then event.regime.getD "" else event.regimeHard.getD ""

/-- The call of `compute_trade_params` that the executor makes. -/
def liveQuery (executor : Executor) (event : SignalEvent) (atr balance close : ℚ) :
    TradeQuery where
  action := event.direction
  currentPrice := close
  atrValue := atr
  accountBalance := balance
  timeframe := some event.timeframe
  riskPercent := executor.config.riskPercent
  slAtrMultiplier := specOr event.exitSpec.slAtr executor.config.slAtrMultiplier
  tpAtrMultiplier := specOr event.exitSpec.tpAtr executor.config.tpAtrMultiplier
  minVolume := executor.config.minVolume
  maxVolume := executor.config.maxVolume
  contractSize := getContractSize executor event.symbol
  timeframeRiskOverrides := executor.config.timeframeRiskMultipliers
  regime := some (eventRegime event)
  regimeSizing := some executor.config.regimeSizing
  digits := 2
  volumeStep := 1 / 100

def computeParams (executor : Executor) (event : SignalEvent) :
    Except SizingError (Option TradeParameters) :=
  match (extractAtrFromIndicators event.indicators).filter fun atr => 0 < atr,
    executor.accountBalance.filter fun balance => 0 < balance,
    (closePrice event).filter fun close => 0 < close with
  | some atr, some balance, some close =>
    (computeTradeParams (liveQuery executor event atr balance close)).map some
  | _, _, _ => .ok none

/-! ### The backtest -/

def actionText : Direction → String
  | .buy => "buy"
  | .sell => "sell"

def positionSizing (c : PositionConfig) : RegimeSizing where
  tpTrending := c.regimeTpTrending
  tpRanging := c.regimeTpRanging
  tpBreakout := c.regimeTpBreakout
  tpUncertain := c.regimeTpUncertain
  slTrending := c.regimeSlTrending
  slRanging := c.regimeSlRanging
  slBreakout := c.regimeSlBreakout
  slUncertain := c.regimeSlUncertain

/-- The call of `compute_trade_params` that `execute_entry` makes. -/
def backtestQuery (c : PositionConfig) (q : SizingQuery) : TradeQuery where
  action := actionText q.action
  currentPrice := q.currentPrice
  atrValue := q.atrValue
  accountBalance := q.accountBalance
  timeframe := some q.timeframe
  riskPercent := c.riskPercent
  slAtrMultiplier := specOr q.exitSpec.slAtr (3 / 2)
  tpAtrMultiplier := specOr q.exitSpec.tpAtr 3
  minVolume := c.minVolume
  maxVolume := c.maxVolume
  contractSize := c.contractSize
  regime := some q.regime.value
  regimeSizing := some (positionSizing c)

/-- What the backtest goes on with. -/
def sizingOf : Except SizingError TradeParameters → TradeSizing.Sizing
  | .ok params => .params ⟨params.stopLoss, params.takeProfit, params.positionSize,
      params.slDistance⟩
  | .error .typeError => .raises
  | .error _ => .valueError

theorem regimeKey_value (regime : RegimeType) : regimeKey regime.value = regime.value := by
  cases regime
  · decide
  · decide
  · decide
  · decide

theorem regimeMultipliers_backtest (c : PositionConfig) (q : SizingQuery) :
    (backtestQuery c q).regimeMultipliers =
      TradeSizing.resolveRegimeSlTpMultiplier c q.regime := by
  show resolveRegimeSlTpMultiplier (some q.regime.value) (some (positionSizing c)) = _
  unfold resolveRegimeSlTpMultiplier
  dsimp only [Option.getD_some]
  rw [regimeKey_value]
  cases q.regime
  · rfl
  · rfl
  · rfl
  · rfl

variable {timeframe : String}

/-- An empty name has no row. -/
theorem lookup_empty (h : timeframe = "") :
    timeframeSlTp.lookup (timeframeKey timeframe) = none := by
  subst h
  rfl

/-- The row of a timeframe wins over what the caller asks for. -/
theorem resolveTimeframeSlTp_row {profile : ℚ × ℚ}
    (h : timeframeSlTp.lookup (timeframeKey timeframe) = some profile)
    (defaultSl defaultTp : Option ℚ) : resolveTimeframeSlTp (some timeframe) defaultSl defaultTp =
      (some profile.1, some profile.2) := by
  unfold resolveTimeframeSlTp
  rw [Option.getD_some, h]
  split
  · rename_i hempty
    rw [lookup_empty hempty] at h
    cases h
  · rfl

theorem resolveTimeframeSlTp_no_row
    (h : timeframeSlTp.lookup (timeframeKey timeframe) = none) (defaultSl defaultTp : Option ℚ) :
    resolveTimeframeSlTp (some timeframe) defaultSl defaultTp = (defaultSl, defaultTp) := by
  unfold resolveTimeframeSlTp
  rw [Option.getD_some, h]
  split
  · rfl
  · rfl

/-- Multipliers of the timeframe or of the caller, scaled by those of the regime. -/
theorem distances_eq (q : TradeQuery) {resolved : Option ℚ × Option ℚ}
    (h : resolveTimeframeSlTp q.timeframe q.slAtrMultiplier q.tpAtrMultiplier = resolved) :
    q.distances = resolved.1.bind fun sl => resolved.2.map fun tp =>
      (q.atrValue * (sl * q.regimeMultipliers.1), q.atrValue * (tp * q.regimeMultipliers.2)) := by
  subst h
  rfl

theorem distances_backtest (c : PositionConfig) (q : SizingQuery) :
    (backtestQuery c q).distances =
      (TradeSizing.resolveTimeframeSlTp q.timeframe q.exitSpec).map fun profile =>
        (q.atrValue * (profile.1 * (TradeSizing.resolveRegimeSlTpMultiplier c q.regime).1),
          q.atrValue * (profile.2 * (TradeSizing.resolveRegimeSlTpMultiplier c q.regime).2)) := by
  have htimeframe : (backtestQuery c q).timeframe = some q.timeframe := rfl
  have hsl : (backtestQuery c q).slAtrMultiplier = specOr q.exitSpec.slAtr (3 / 2) := rfl
  have htp : (backtestQuery c q).tpAtrMultiplier = specOr q.exitSpec.tpAtr 3 := rfl
  have hatr : (backtestQuery c q).atrValue = q.atrValue := rfl
  unfold TradeSizing.resolveTimeframeSlTp
  cases hrow : timeframeSlTp.lookup (timeframeKey q.timeframe) with
  | some profile =>
    have hresolved := resolveTimeframeSlTp_row hrow (specOr q.exitSpec.slAtr (3 / 2))
      (specOr q.exitSpec.tpAtr 3)
    rw [← htimeframe, ← hsl, ← htp] at hresolved
    rw [distances_eq _ hresolved, regimeMultipliers_backtest, hatr]
    rfl
  | none =>
    have hresolved := resolveTimeframeSlTp_no_row hrow (specOr q.exitSpec.slAtr (3 / 2))
      (specOr q.exitSpec.tpAtr 3)
    rw [← htimeframe, ← hsl, ← htp] at hresolved
    rw [distances_eq _ hresolved, regimeMultipliers_backtest, hatr, hsl, htp]
    dsimp only
    cases specOr q.exitSpec.slAtr (3 / 2) with
    | none => rfl
    | some sl =>
      cases specOr q.exitSpec.tpAtr 3 with
      | none => rfl
      | some tp => rfl

theorem levels_backtest (c : PositionConfig) (q : SizingQuery) (slDistance tpDistance : ℚ) :
    (backtestQuery c q).levels slDistance tpDistance =
      some (Portfolio.moved q.action q.currentPrice (-slDistance),
        Portfolio.moved q.action q.currentPrice tpDistance) := by
  have haction : (backtestQuery c q).action = actionText q.action := rfl
  have hprice : (backtestQuery c q).currentPrice = q.currentPrice := rfl
  unfold TradeQuery.levels
  rw [haction, hprice]
  cases q.action with
  | buy =>
    rw [actionText, if_pos rfl, Portfolio.moved, Portfolio.moved, sub_eq_add_neg]
  | sell =>
    rw [actionText, if_neg (by decide), if_pos rfl, Portfolio.moved, Portfolio.moved,
      sub_neg_eq_add]

theorem resolveTimeframeRiskMultiplier_backtest (timeframe : String) :
    resolveTimeframeRiskMultiplier (some timeframe) Dict.empty =
      TradeSizing.resolveTimeframeRiskMultiplier timeframe := by
  unfold resolveTimeframeRiskMultiplier TradeSizing.resolveTimeframeRiskMultiplier
  rw [Option.getD_some]
  split
  · rename_i hempty
    subst hempty
    decide
  · rfl

theorem positionSize_backtest (c : PositionConfig) (q : SizingQuery) (slDistance : ℚ) :
    (backtestQuery c q).positionSize slDistance =
      TradeSizing.boundedVolume c
        (if 0 < slDistance * c.contractSize then
          q.accountBalance * (c.riskPercent *
            TradeSizing.resolveTimeframeRiskMultiplier q.timeframe / 100) /
              (slDistance * c.contractSize)
        else c.minVolume) := by
  have hrisk : resolveTimeframeRiskMultiplier (backtestQuery c q).timeframe
      (backtestQuery c q).timeframeRiskOverrides =
        TradeSizing.resolveTimeframeRiskMultiplier q.timeframe :=
    resolveTimeframeRiskMultiplier_backtest q.timeframe
  have hstep : (backtestQuery c q).volumeStep = 1 / 100 := rfl
  unfold TradeQuery.positionSize TradeQuery.rawVolume TradeSizing.boundedVolume
  dsimp only
  rw [hrisk, hstep, if_pos (by norm_num : (0 : ℚ) < 1 / 100)]
  rfl

/-- The backtest sizes by `compute_trade_params`. -/
theorem computeTradeParams_backtest (c : PositionConfig) (q : SizingQuery) :
    TradeSizing.computeTradeParams c q = sizingOf (computeTradeParams (backtestQuery c q)) := by
  have hatr : (backtestQuery c q).atrValue = q.atrValue := rfl
  have hbalance : (backtestQuery c q).accountBalance = q.accountBalance := rfl
  unfold TradeSizing.computeTradeParams computeTradeParams
  rw [distances_backtest, hatr, hbalance]
  by_cases hbadAtr : q.atrValue ≤ 0
  · rw [if_pos (Or.inl hbadAtr), if_pos hbadAtr]
    rfl
  · by_cases hbadBalance : q.accountBalance ≤ 0
    · rw [if_pos (Or.inr hbadBalance), if_neg hbadAtr, if_pos hbadBalance]
      rfl
    · rw [if_neg (not_or.mpr ⟨hbadAtr, hbadBalance⟩), if_neg hbadAtr, if_neg hbadBalance]
      cases TradeSizing.resolveTimeframeSlTp q.timeframe q.exitSpec with
      | none => rfl
      | some profile =>
        dsimp only [Option.map_some]
        rw [levels_backtest]
        dsimp only
        split
        · rename_i hbad
          by_cases hstop : Portfolio.moved q.action q.currentPrice (-(q.atrValue *
              (profile.1 * (TradeSizing.resolveRegimeSlTpMultiplier c q.regime).1))) ≤ 0
          · rw [if_pos hstop]
            rfl
          · rw [if_neg hstop, if_pos (hbad.resolve_left hstop)]
            rfl
        · rename_i hgood
          obtain ⟨hstop, htarget⟩ := not_or.mp hgood
          rw [if_neg hstop, if_neg htarget]
          simp only [sizingOf, TradeQuery.parameters]
          rw [positionSize_backtest]
          rfl

/-! ### What the strategy asks for -/

/-- A query with the multipliers of a strategy, the regime and the decimals of a price. -/
structure Asks (timeframe : String) (sl tp : ℚ) (regime : String) (sizing : RegimeSizing)
    (q : TradeQuery) : Prop where
  timeframe : q.timeframe = some timeframe
  sl : q.slAtrMultiplier = some sl
  tp : q.tpAtrMultiplier = some tp
  regime : q.regime = some regime
  sizing : q.regimeSizing = some sizing
  digits : q.digits = 2

/-- The stop stands below a purchase and the target above it, and the other way round for a
sale. -/
def Between (action : String) (stopLoss entry takeProfit : ℚ) : Prop :=
  (action = "buy" → stopLoss < entry ∧ entry < takeProfit) ∧
    (action = "sell" → takeProfit < entry ∧ entry < stopLoss)

/-- The parameters are those of the strategy's multipliers, and the levels that they were
rounded from stand on the right sides. -/
structure Honoured (sl tp : ℚ) (q : TradeQuery) (params : TradeParameters) : Prop where
  slDistance : params.slDistance = round (q.atrValue * (sl * q.regimeMultipliers.1)) q.digits
  tpDistance : params.tpDistance = round (q.atrValue * (tp * q.regimeMultipliers.2)) q.digits
  levels : ∃ levels,
    q.levels (q.atrValue * (sl * q.regimeMultipliers.1))
      (q.atrValue * (tp * q.regimeMultipliers.2)) = some levels ∧
    params.stopLoss = round levels.1 q.digits ∧ params.takeProfit = round levels.2 q.digits
  between : ∀ distances levels, q.distances = some distances →
    q.levels distances.1 distances.2 = some levels →
      Between q.action levels.1 q.currentPrice levels.2

/-- The multipliers that a strategy gives in its `exit_spec`. -/
def SpecOf (sl tp : ℚ) (spec : ExitSpec) : Prop :=
  spec.slAtr = .number sl ∧ spec.tpAtr = .number tp

/-- The multipliers of a strategy are honoured on a timeframe, in a regime: live, in the
backtest, and by both alike. -/
structure Honours (timeframe : String) (sl tp : ℚ) (regime : String) (sizing : RegimeSizing) :
    Prop where
  live : ∀ executor event params, event.timeframe = timeframe → SpecOf sl tp event.exitSpec →
    eventRegime event = regime → executor.config.regimeSizing = sizing →
    computeParams executor event = .ok (some params) →
    ∃ atr balance close, extractAtrFromIndicators event.indicators = some atr ∧
      executor.accountBalance = some balance ∧ closePrice event = some close ∧
      Honoured sl tp (liveQuery executor event atr balance close) params
  backtest : ∀ c q params, q.timeframe = timeframe → SpecOf sl tp q.exitSpec →
    q.regime.value = regime → positionSizing c = sizing →
    computeTradeParams (backtestQuery c q) = .ok params →
    Honoured sl tp (backtestQuery c q) params
  alike : ∀ executor event c q live back, event.timeframe = timeframe → q.timeframe = timeframe →
    SpecOf sl tp event.exitSpec → SpecOf sl tp q.exitSpec → eventRegime event = regime →
    q.regime.value = regime → executor.config.regimeSizing = sizing → positionSizing c = sizing →
    event.direction = actionText q.action → closePrice event = some q.currentPrice →
    extractAtrFromIndicators event.indicators = some q.atrValue →
    computeParams executor event = .ok (some live) →
    computeTradeParams (backtestQuery c q) = .ok back →
    live.stopLoss = back.stopLoss ∧ live.takeProfit = back.takeProfit

variable {q : TradeQuery}

theorem computeTradeParams_ok {params : TradeParameters} (h : computeTradeParams q = .ok params) :
    0 < q.atrValue ∧ 0 < q.accountBalance ∧ ∃ distances levels,
      q.distances = some distances ∧ q.levels distances.1 distances.2 = some levels ∧
        params = q.parameters distances.1 distances.2 levels.1 levels.2 := by
  unfold computeTradeParams at h
  split at h
  · cases h
  · rename_i hatr
    split at h
    · cases h
    · rename_i hbalance
      split at h
      · cases h
      · rename_i distances hdistances
        split at h
        · cases h
        · rename_i levels hlevels
          split at h
          · cases h
          · split at h
            · cases h
            · refine ⟨not_le.mp hatr, not_le.mp hbalance, distances, levels, hdistances, hlevels,
                ?_⟩
              exact (Except.ok.inj h).symm

theorem computeTradeParams_eq_ok {distances levels : ℚ × ℚ}
    (hatr : 0 < q.atrValue) (hbalance : 0 < q.accountBalance)
    (hdistances : q.distances = some distances)
    (hlevels : q.levels distances.1 distances.2 = some levels) (hstop : 0 < levels.1)
    (htarget : 0 < levels.2) :
    computeTradeParams q = .ok (q.parameters distances.1 distances.2 levels.1 levels.2) := by
  unfold computeTradeParams
  rw [if_neg (not_le.mpr hatr), if_neg (not_le.mpr hbalance), hdistances]
  dsimp only
  rw [hlevels]
  dsimp only
  rw [if_neg (not_le.mpr hstop), if_neg (not_le.mpr htarget)]

/-- The multipliers that the code takes: those of the row, if there is one. -/
def taken (timeframe : String) (sl tp : ℚ) : ℚ × ℚ :=
  (timeframeSlTp.lookup (timeframeKey timeframe)).getD (sl, tp)

variable {regime : String} {sizing : RegimeSizing}

theorem Asks.distances {sl tp : ℚ} (h : Asks timeframe sl tp regime sizing q) : q.distances =
      some (q.atrValue * ((taken timeframe sl tp).1 * q.regimeMultipliers.1),
        q.atrValue * ((taken timeframe sl tp).2 * q.regimeMultipliers.2)) := by
  unfold taken
  cases hrow : timeframeSlTp.lookup (timeframeKey timeframe) with
  | none =>
    have hresolved := resolveTimeframeSlTp_no_row hrow (some sl) (some tp)
    rw [← h.timeframe, ← h.sl, ← h.tp] at hresolved
    rw [distances_eq _ hresolved, h.sl, h.tp]
    rfl
  | some profile =>
    have hresolved := resolveTimeframeSlTp_row hrow (some sl) (some tp)
    rw [← h.timeframe, ← h.sl, ← h.tp] at hresolved
    rw [distances_eq _ hresolved]
    rfl

theorem between_of_levels {slDistance tpDistance : ℚ} {levels : ℚ × ℚ}
    (hsl : 0 < slDistance) (htp : 0 < tpDistance)
    (h : q.levels slDistance tpDistance = some levels) :
    Between q.action levels.1 q.currentPrice levels.2 := by
  unfold TradeQuery.levels at h
  constructor
  · intro hbuy
    rw [if_pos hbuy] at h
    cases h
    constructor
    · show q.currentPrice - slDistance < q.currentPrice
      linarith
    · show q.currentPrice < q.currentPrice + tpDistance
      linarith
  · intro hsell
    rw [if_neg (by rw [hsell]; decide), if_pos hsell] at h
    cases h
    constructor
    · show q.currentPrice - tpDistance < q.currentPrice
      linarith
    · show q.currentPrice < q.currentPrice + slDistance
      linarith

/-- With the strategy's own multipliers and positive ones of the regime the query is
honoured. -/
theorem Asks.honoured {sl tp : ℚ} (h : Asks timeframe sl tp regime sizing q)
    (hsl : 0 < sl) (htp : 0 < tp) (htaken : taken timeframe sl tp = (sl, tp))
    (hregime : 0 < q.regimeMultipliers.1 ∧ 0 < q.regimeMultipliers.2)
    {params : TradeParameters} (hok : computeTradeParams q = .ok params) :
    Honoured sl tp q params := by
  obtain ⟨hatr, -, distances, levels, hdistances, hlevels, hparams⟩ := computeTradeParams_ok hok
  have hown := h.distances
  rw [htaken] at hown
  rw [hown] at hdistances
  cases hdistances
  have hslDistance : 0 < q.atrValue * (sl * q.regimeMultipliers.1) :=
    mul_pos hatr (mul_pos hsl hregime.1)
  have htpDistance : 0 < q.atrValue * (tp * q.regimeMultipliers.2) :=
    mul_pos hatr (mul_pos htp hregime.2)
  rw [hparams]
  refine ⟨rfl, rfl, ⟨levels, hlevels, rfl, rfl⟩, ?_⟩
  intro others otherLevels hothers hotherLevels
  rw [hown] at hothers
  cases hothers
  exact between_of_levels hslDistance htpDistance hotherLevels

theorem specOr_number {multiplier fallback : ℚ} (h : 0 < multiplier) :
    specOr (.number multiplier) fallback = some multiplier := by
  rw [specOr, if_neg h.ne']

section Callers

variable {timeframe : String} {sl tp : ℚ} {regime : String} {sizing : RegimeSizing}

theorem asks_live (executor : Executor) (event : SignalEvent) (hsl : 0 < sl) (htp : 0 < tp)
    (htimeframe : event.timeframe = timeframe) (hspec : SpecOf sl tp event.exitSpec)
    (hregime : eventRegime event = regime) (hsizing : executor.config.regimeSizing = sizing)
    (atr balance close : ℚ) :
    Asks timeframe sl tp regime sizing (liveQuery executor event atr balance close) where
  timeframe := congrArg some htimeframe
  sl := by
    show specOr event.exitSpec.slAtr executor.config.slAtrMultiplier = some sl
    rw [hspec.1, specOr_number hsl]
  tp := by
    show specOr event.exitSpec.tpAtr executor.config.tpAtrMultiplier = some tp
    rw [hspec.2, specOr_number htp]
  regime := congrArg some hregime
  sizing := congrArg some hsizing
  digits := rfl

theorem asks_backtest {c : PositionConfig} {q : SizingQuery} (hsl : 0 < sl) (htp : 0 < tp)
    (htimeframe : q.timeframe = timeframe) (hspec : SpecOf sl tp q.exitSpec)
    (hregime : q.regime.value = regime) (hsizing : positionSizing c = sizing) :
    Asks timeframe sl tp regime sizing (backtestQuery c q) where
  timeframe := congrArg some htimeframe
  sl := by
    show specOr q.exitSpec.slAtr (3 / 2) = some sl
    rw [hspec.1, specOr_number hsl]
  tp := by
    show specOr q.exitSpec.tpAtr 3 = some tp
    rw [hspec.2, specOr_number htp]
  regime := congrArg some hregime
  sizing := congrArg some hsizing
  digits := rfl

theorem Asks.regimeMultipliers {q : TradeQuery} (h : Asks timeframe sl tp regime sizing q) :
    q.regimeMultipliers = resolveRegimeSlTpMultiplier (some regime) (some sizing) := by
  rw [TradeQuery.regimeMultipliers, h.regime, h.sizing]

theorem computeParams_ok {executor : Executor} {event : SignalEvent} {params : TradeParameters}
    (h : computeParams executor event = .ok (some params)) :
    ∃ atr balance close, extractAtrFromIndicators event.indicators = some atr ∧
      executor.accountBalance = some balance ∧ closePrice event = some close ∧
      computeTradeParams (liveQuery executor event atr balance close) = .ok params := by
  unfold computeParams at h
  split at h
  · rename_i atr balance close hatr hbalance hclose
    refine ⟨atr, balance, close, (Option.filter_eq_some_iff.mp hatr).1,
      (Option.filter_eq_some_iff.mp hbalance).1, (Option.filter_eq_some_iff.mp hclose).1, ?_⟩
    cases hsized : computeTradeParams (liveQuery executor event atr balance close) with
    | error refusal =>
      rw [hsized] at h
      cases h
    | ok sized =>
      rw [hsized] at h
      cases h
      rfl
  · cases h

/-- Two queries that ask alike at one price and ATR get one stop and one target. -/
theorem Asks.alike {q r : TradeQuery} (hq : Asks timeframe sl tp regime sizing q)
    (hr : Asks timeframe sl tp regime sizing r) (haction : q.action = r.action)
    (hprice : q.currentPrice = r.currentPrice) (hatr : q.atrValue = r.atrValue)
    {first second : TradeParameters} (hfirst : computeTradeParams q = .ok first)
    (hsecond : computeTradeParams r = .ok second) :
    first.stopLoss = second.stopLoss ∧ first.takeProfit = second.takeProfit := by
  obtain ⟨-, -, distances, levels, hdistances, hlevels, rfl⟩ := computeTradeParams_ok hfirst
  obtain ⟨-, -, distances', levels', hdistances', hlevels', rfl⟩ := computeTradeParams_ok hsecond
  have hsame : q.distances = r.distances := by
    rw [hq.distances, hr.distances, hq.regimeMultipliers, hr.regimeMultipliers, hatr]
  rw [hdistances, hdistances'] at hsame
  cases hsame
  have hsameLevels : q.levels distances.1 distances.2 = r.levels distances.1 distances.2 := by
    unfold TradeQuery.levels
    rw [haction, hprice]
  rw [hlevels, hlevels'] at hsameLevels
  cases hsameLevels
  have hdigits : q.digits = r.digits := by rw [hq.digits, hr.digits]
  constructor
  · show round levels.1 q.digits = round levels.1 r.digits
    rw [hdigits]
  · show round levels.2 q.digits = round levels.2 r.digits
    rw [hdigits]

/-! ### A purchase at any ATR and price -/

/-- A purchase by a strategy, at an ATR and a price of one's choice. -/
def purchase (timeframe : String) (sl tp : ℚ) (regime : String) (atr close : ℚ) :
    SignalEvent where
  symbol := "XAUUSD"
  direction := "buy"
  timeframe := timeframe
  indicators := Dict.empty.set "atr14" (.fields (Dict.empty.set "atr" (.number atr)))
  closePrice := .number close
  exitSpec := { slAtr := .number sl, tpAtr := .number tp }
  regime := some regime

def buyer (sizing : RegimeSizing) : Executor where
  config := { regimeSizing := sizing }
  accountBalance := some 1

theorem eventRegime_purchase (timeframe : String) (sl tp : ℚ) (regime : String) (atr close : ℚ) :
    eventRegime (purchase timeframe sl tp regime atr close) = regime := by
  unfold eventRegime purchase
  dsimp only [Option.getD_some, Option.getD_none]
  split
  · rfl
  · rename_i hempty
    exact (not_not.mp hempty).symm

theorem extractAtr_purchase (timeframe : String) (sl tp : ℚ) (regime : String) (atr close : ℚ) :
    extractAtrFromIndicators (purchase timeframe sl tp regime atr close).indicators = some atr := by
  simp [extractAtrFromIndicators, purchase, Value.toFloat]

theorem closePrice_purchase (timeframe : String) (sl tp : ℚ) (regime : String) (atr : ℚ)
    {close : ℚ} (hclose : 0 < close) :
    closePrice (purchase timeframe sl tp regime atr close) = some close := by
  simp [closePrice, purchase, Value.toFloat, hclose]

theorem asks_purchase (timeframe : String) (regime : String) (sizing : RegimeSizing)
    (hsl : 0 < sl) (htp : 0 < tp) (atr close : ℚ) : Asks timeframe sl tp regime sizing
      (liveQuery (buyer sizing) (purchase timeframe sl tp regime atr close) atr 1 close) :=
  asks_live (buyer sizing) _ hsl htp rfl ⟨rfl, rfl⟩
    (eventRegime_purchase timeframe sl tp regime atr close) rfl atr 1 close

/-- At a price that is far enough from zero the executor trades, with the multipliers that
the code takes. -/
theorem exists_params_purchase (timeframe : String) (regime : String) (sizing : RegimeSizing)
    (hsl : 0 < sl) (htp : 0 < tp) {atr : ℚ} (hatr : 0 < atr) :
    ∃ close params, closePrice (purchase timeframe sl tp regime atr close) = some close ∧
      computeParams (buyer sizing) (purchase timeframe sl tp regime atr close) =
        .ok (some params) ∧
      params.slDistance = round (atr * ((taken timeframe sl tp).1 *
        (resolveRegimeSlTpMultiplier (some regime) (some sizing)).1)) 2 ∧
      params.tpDistance = round (atr * ((taken timeframe sl tp).2 *
        (resolveRegimeSlTpMultiplier (some regime) (some sizing)).2)) 2 := by
  set slDistance := atr * ((taken timeframe sl tp).1 *
    (resolveRegimeSlTpMultiplier (some regime) (some sizing)).1) with hslDistance
  set tpDistance := atr * ((taken timeframe sl tp).2 *
    (resolveRegimeSlTpMultiplier (some regime) (some sizing)).2) with htpDistance
  have hclose : 0 < 1 + |slDistance| + |tpDistance| := by
    have hslAbs := abs_nonneg slDistance
    have htpAbs := abs_nonneg tpDistance
    linarith
  generalize hcloseEq : 1 + |slDistance| + |tpDistance| = close at hclose
  have hasks := asks_purchase timeframe regime sizing hsl htp atr close
  have hdistances := hasks.distances
  rw [hasks.regimeMultipliers] at hdistances
  have hlevels : (liveQuery (buyer sizing) (purchase timeframe sl tp regime atr close) atr 1
      close).levels slDistance tpDistance = some (close - slDistance, close + tpDistance) := rfl
  have hstop : 0 < close - slDistance := by
    have hle := le_abs_self slDistance
    have htpAbs := abs_nonneg tpDistance
    linarith
  have htarget : 0 < close + tpDistance := by
    have hle := neg_abs_le tpDistance
    have hslAbs := abs_nonneg slDistance
    linarith
  have hok := computeTradeParams_eq_ok (q := liveQuery (buyer sizing)
    (purchase timeframe sl tp regime atr close) atr 1 close) hatr one_pos hdistances hlevels hstop
    htarget
  refine ⟨close, (liveQuery (buyer sizing) (purchase timeframe sl tp regime atr close) atr 1
    close).parameters slDistance tpDistance (close - slDistance) (close + tpDistance),
    closePrice_purchase timeframe sl tp regime atr hclose, ?_, rfl, rfl⟩
  unfold computeParams
  rw [extractAtr_purchase, closePrice_purchase timeframe sl tp regime atr hclose]
  have hbalance : (buyer sizing).accountBalance = some 1 := rfl
  rw [hbalance]
  simp only [Option.filter_some, decide_eq_true_eq, hatr, hclose, one_pos, if_true]
  rw [hok]
  rfl

end Callers

/-- Two distances that round alike at every ATR are one. -/
theorem eq_of_round_eq {x y : ℚ} (h : ∀ atr : ℚ, 0 < atr → round (atr * x) 2 = round (atr * y) 2) :
    x = y := by
  by_contra hne
  have hpos : 0 < |x - y| := abs_pos.mpr (sub_ne_zero.mpr hne)
  have hround := h (1 / |x - y|) (by positivity)
  have hx := abs_sub_round_le (1 / |x - y| * x) 2
  have hy := abs_sub_round_le (1 / |x - y| * y) 2
  rw [hround] at hx
  have hdiff : |1 / |x - y| * x - 1 / |x - y| * y| = 1 := by
    rw [← mul_sub, abs_mul, abs_of_pos (by positivity), one_div, inv_mul_cancel₀ hpos.ne']
  have htriangle := abs_sub_le (1 / |x - y| * x) (round (1 / |x - y| * y) 2) (1 / |x - y| * y)
  have hunit : (1 : ℚ) / 2 / 10 ^ 2 = 1 / 200 := by norm_num
  rw [hdiff, abs_sub_comm (round (1 / |x - y| * y) 2)] at htriangle
  rw [hunit] at hx hy
  linarith

theorem taken_eq_iff (timeframe : String) (sl tp : ℚ) : taken timeframe sl tp = (sl, tp) ↔
    ∀ profile, timeframeSlTp.lookup (timeframeKey timeframe) = some profile →
      profile = (sl, tp) := by
  unfold taken
  cases timeframeSlTp.lookup (timeframeKey timeframe) with
  | none => simp
  | some profile => simp

/-- What an executor that honours the multipliers answers for the purchase at an ATR. -/
theorem Honours.purchase
    (h : Honours timeframe sl tp regime sizing) (hsl : 0 < sl) (htp : 0 < tp) {atr : ℚ}
    (hatr : 0 < atr) : ∃ close params,
      Honoured sl tp (liveQuery (buyer sizing) (purchase timeframe sl tp regime atr close) atr 1
        close) params ∧
      params.slDistance = round (atr * ((taken timeframe sl tp).1 *
        (resolveRegimeSlTpMultiplier (some regime) (some sizing)).1)) 2 ∧
      params.tpDistance = round (atr * ((taken timeframe sl tp).2 *
        (resolveRegimeSlTpMultiplier (some regime) (some sizing)).2)) 2 := by
  obtain ⟨close, params, hclose, hparams, hslDistance, htpDistance⟩ :=
    exists_params_purchase timeframe regime sizing hsl htp hatr
  obtain ⟨atr', balance, close', hatr', hbalance, hclose', hhonoured⟩ :=
    h.live (buyer sizing) (StopTargets.purchase timeframe sl tp regime atr close) params rfl
      ⟨rfl, rfl⟩ (eventRegime_purchase timeframe sl tp regime atr close) rfl hparams
  rw [extractAtr_purchase] at hatr'
  rw [hclose] at hclose'
  cases hatr'
  cases hclose'
  cases hbalance
  exact ⟨close, params, hhonoured, hslDistance, htpDistance⟩

/-- The purchases at all ATRs tell the multipliers that are taken from those asked for. -/
theorem Honours.taken_eq (h : Honours timeframe sl tp regime sizing) (hsl : 0 < sl) (htp : 0 < tp) :
    taken timeframe sl tp = (sl, tp) ∧
      0 < (resolveRegimeSlTpMultiplier (some regime) (some sizing)).1 ∧
      0 < (resolveRegimeSlTpMultiplier (some regime) (some sizing)).2 := by
  set scale := resolveRegimeSlTpMultiplier (some regime) (some sizing) with hscale
  have hslSame : (taken timeframe sl tp).1 * scale.1 = sl * scale.1 := by
    refine eq_of_round_eq fun atr hatr => ?_
    obtain ⟨close, params, hhonoured, hslDistance, -⟩ := h.purchase hsl htp hatr
    have hasks := asks_purchase timeframe regime sizing hsl htp atr close
    have hown := hhonoured.slDistance
    rw [hasks.regimeMultipliers, ← hscale, hslDistance] at hown
    exact hown
  have htpSame : (taken timeframe sl tp).2 * scale.2 = tp * scale.2 := by
    refine eq_of_round_eq fun atr hatr => ?_
    obtain ⟨close, params, hhonoured, -, htpDistance⟩ := h.purchase hsl htp hatr
    have hasks := asks_purchase timeframe regime sizing hsl htp atr close
    have hown := hhonoured.tpDistance
    rw [hasks.regimeMultipliers, ← hscale, htpDistance] at hown
    exact hown
  obtain ⟨close, params, hhonoured, -, -⟩ := h.purchase hsl htp one_pos
  have hasks := asks_purchase timeframe regime sizing hsl htp 1 close
  have hdistances := hasks.distances
  rw [hasks.regimeMultipliers, ← hscale, hslSame, htpSame] at hdistances
  have hsides := (hhonoured.between _ _ hdistances rfl).1 rfl
  have hslPos : 0 < sl * scale.1 := by
    have hstop : close - 1 * (sl * scale.1) < close := hsides.1
    linarith
  have htpPos : 0 < tp * scale.2 := by
    have htarget : close < close + 1 * (tp * scale.2) := hsides.2
    linarith
  have hslScale : 0 < scale.1 := (mul_pos_iff_of_pos_left hsl).mp hslPos
  have htpScale : 0 < scale.2 := (mul_pos_iff_of_pos_left htp).mp htpPos
  refine ⟨Prod.ext ?_ ?_, hslScale, htpScale⟩
  · exact mul_right_cancel₀ hslScale.ne' hslSame
  · exact mul_right_cancel₀ htpScale.ne' htpSame

/-- The multipliers of a strategy are honoured exactly where no row of the timeframe says
something else, under positive multipliers of the regime. -/
theorem honours_iff (timeframe : String) (sl tp : ℚ) (regime : String) (sizing : RegimeSizing)
    (hsl : 0 < sl) (htp : 0 < tp) :
    Honours timeframe sl tp regime sizing ↔
      (∀ profile, timeframeSlTp.lookup (timeframeKey timeframe) = some profile →
        profile = (sl, tp)) ∧
      0 < (resolveRegimeSlTpMultiplier (some regime) (some sizing)).1 ∧
      0 < (resolveRegimeSlTpMultiplier (some regime) (some sizing)).2 := by
  rw [← taken_eq_iff]
  constructor
  · intro hhonours
    exact hhonours.taken_eq hsl htp
  · rintro ⟨hrow, hslScale, htpScale⟩
    constructor
    · intro executor event params htimeframe hspec hregime hsizing hparams
      obtain ⟨atr, balance, close, hatr, hbalance, hclose, hok⟩ := computeParams_ok hparams
      have hasks := asks_live executor event hsl htp htimeframe hspec hregime hsizing atr balance
        close
      refine ⟨atr, balance, close, hatr, hbalance, hclose, hasks.honoured hsl htp hrow ?_ hok⟩
      rw [hasks.regimeMultipliers]
      exact ⟨hslScale, htpScale⟩
    · intro c q params htimeframe hspec hregime hsizing hok
      have hasks := asks_backtest hsl htp htimeframe hspec hregime hsizing
      refine hasks.honoured hsl htp hrow ?_ hok
      rw [hasks.regimeMultipliers]
      exact ⟨hslScale, htpScale⟩
    · intro executor event c q live back htimeframe htimeframe' hspec hspec' hregime hregime'
        hsizing hsizing' hdirection hprice hatr hlive hback
      obtain ⟨atr, balance, close, hatr', -, hclose, hok⟩ := computeParams_ok hlive
      rw [hatr] at hatr'
      rw [hprice] at hclose
      cases hatr'
      cases hclose
      have hasks := asks_live executor event hsl htp htimeframe hspec hregime hsizing q.atrValue
        balance q.currentPrice
      exact hasks.alike (asks_backtest hsl htp htimeframe' hspec' hregime' hsizing') hdirection rfl
        rfl hok hback

/-- Weekly bars have no row, so a strategy gets what it asks for. -/
theorem honours_weekly : Honours "W1" 1 2 "trending" {} := by
  refine (honours_iff "W1" 1 2 "trending" {} (by norm_num) (by norm_num)).mpr ⟨?_, ?_, ?_⟩
  · have hnone : timeframeSlTp.lookup (timeframeKey "W1") = none := by decide
    intro profile hprofile
    rw [hnone] at hprofile
    cases hprofile
  · decide +kernel
  · decide +kernel

/-- A purchase on M15 by a strategy that wants its stop one ATR away. -/
def tightPurchase : SizingQuery where
  action := .buy
  currentPrice := 2000
  atrValue := 10
  accountBalance := 10000
  timeframe := "M15"
  exitSpec := { slAtr := .number 1, tpAtr := .number 2 }
  regime := .uncertain

/-- The row of M15 puts the stop at 1.8 times the ATR instead. -/
theorem tightPurchase_stop :
    (computeTradeParams (backtestQuery {} tightPurchase)).toOption.map
      TradeParameters.slDistance = some 18 := by
  decide +kernel

theorem tightPurchase_not_honoured :
    ¬ ∀ (timeframe : String) (sl tp : ℚ) (regime : String) (sizing : RegimeSizing), 0 < sl →
      0 < tp → Honours timeframe sl tp regime sizing := by
  intro hclaim
  have hhonours := hclaim "M15" 1 2 RegimeType.uncertain.value (positionSizing {}) one_pos two_pos
  have hstop := tightPurchase_stop
  cases hparams : computeTradeParams (backtestQuery {} tightPurchase) with
  | error refusal =>
    rw [hparams] at hstop
    cases hstop
  | ok params =>
    rw [hparams] at hstop
    have hown :=
      (hhonours.backtest {} tightPurchase params rfl ⟨rfl, rfl⟩ rfl rfl hparams).slDistance
    have hasked : round ((backtestQuery {} tightPurchase).atrValue *
        (1 * (backtestQuery {} tightPurchase).regimeMultipliers.1))
          (backtestQuery {} tightPurchase).digits = 10 := by decide +kernel
    rw [hasked] at hown
    have hcode : params.slDistance = 18 := Option.some.inj hstop
    rw [hcode] at hown
    norm_num at hown

end MT5Services.StopTargets
