import MT5Services.ExitRules
import MT5Services.Runs
import Mathlib.Algebra.BigOperators.Group.List.Basic
import Mathlib.Tactic.Linarith
import Mathlib.Tactic.Ring

/-!
The simulated portfolio of the backtest: `PortfolioTracker` with its gates for new
positions, its costs (commission, slippage, spread by session and volatility, overnight
swap) and its exits. Time is in whole seconds since the epoch, UTC; dates are day
numbers. Cash moves when a position opens, at a swap and at a close, while the trade
record is written at the close only; the ledger compares the two over every run.
-/
namespace MT5Services.Portfolio

open PyNumber ExitRules Runs

structure Bar where
  time : ℤ
  openPrice : ℚ
  high : ℚ
  low : ℚ
  close : ℚ

def dayOf (time : ℤ) : ℤ := time / 86400

def hourOf (time : ℤ) : ℤ := time % 86400 / 3600

/-- Monday is 0; day 0 of the epoch was a Thursday. -/
def weekdayOf (time : ℤ) : ℤ := (dayOf time + 3) % 7

structure CostModel where
  dynamicSpreadEnabled : Bool := false
  spreadBasePoints : ℚ := 15
  spreadLondonMult : ℚ := 12 / 10
  spreadNyMult : ℚ := 13 / 10
  spreadAsiaMult : ℚ := 1
  spreadVolatilityThreshold : ℚ := 18 / 10
  spreadVolatilityMult : ℚ := 2
  swapEnabled : Bool := false
  swapLongPerLot : ℚ := -3 / 10
  swapShortPerLot : ℚ := 15 / 100
  swapWednesdayTriple : Bool := true
  swapChargeHourUtc : ℤ := 21

namespace CostModel

variable (cm : CostModel)

def sessionMult (time : ℤ) : ℚ :=
  if 7 ≤ hourOf time ∧ hourOf time < 12 then cm.spreadLondonMult
  else if 12 ≤ hourOf time ∧ hourOf time < 21 then cm.spreadNyMult
  else cm.spreadAsiaMult

/-- The whole spread; opening and closing bear one half each. -/
def effectiveSpreadPoints (time : ℤ) (atrRatio : ℚ) : ℚ :=
  if cm.dynamicSpreadEnabled then
    let spread := cm.spreadBasePoints * cm.sessionMult time
    let volatile := cm.spreadVolatilityThreshold ≤ atrRatio ∧ 0 < cm.spreadVolatilityThreshold
    max 0 (if volatile then spread * cm.spreadVolatilityMult else spread)
  else 0

def swapCharge (direction : Direction) (positionSize : ℚ) (time : ℤ) : ℚ :=
  if cm.swapEnabled then
    let perLot :=
      match direction with
      | .buy => cm.swapLongPerLot
      | .sell => cm.swapShortPerLot
    let mult : ℚ := if cm.swapWednesdayTriple ∧ weekdayOf time = 2 then 3 else 1
    perLot * positionSize * mult
  else 0

end CostModel

structure WeekendFlatPolicy where
  enabled : Bool := false
  weekday : ℤ := 4
  hourUtc : ℤ := 20
  minuteUtc : ℤ := 0

/-- The clock of the day has reached the hour and minute, and the date is not done yet. -/
def dueToday (time hour minute : ℤ) (lastDate : Option ℤ) : Bool :=
  hour * 3600 + minute * 60 ≤ time % 86400 ∧ lastDate ≠ some (dayOf time)

def checkWeekendFlat (time : ℤ) (policy : WeekendFlatPolicy) (lastFlatDate : Option ℤ) : Bool :=
  policy.enabled && weekdayOf time = policy.weekday &&
    dueToday time policy.hourUtc policy.minuteUtc lastFlatDate

def checkEndOfDay (time closeHourUtc closeMinuteUtc : ℤ) (lastCloseDate : Option ℤ) : Bool :=
  dueToday time closeHourUtc closeMinuteUtc lastCloseDate

structure EquityCurveFilterConfig where
  enabled : Bool := false
  maPeriod : ℕ := 20
  minSamples : ℕ := 5

structure Settings where
  initialBalance : ℚ
  maxPositions : ℕ := 3
  commissionPerLot : ℚ := 0
  slippagePoints : ℚ := 0
  contractSize : ℚ := 100
  minVolume : ℚ := 1 / 100
  maxVolume : ℚ := 1
  maxVolumePerOrder : Option ℚ := none
  maxVolumePerSymbol : Option ℚ := none
  maxVolumePerDay : Option ℚ := none
  dailyLossLimitPct : Option ℚ := none
  maxTradesPerDay : Option ℤ := none
  maxTradesPerHour : Option ℤ := none
  chandelierConfig : ChandelierConfig := {}
  endOfDayCloseEnabled : Bool := false
  endOfDayCloseHourUtc : ℤ := 21
  endOfDayCloseMinuteUtc : ℤ := 0
  weekendFlatPolicy : WeekendFlatPolicy := {}
  costModel : CostModel := {}
  equityCurveFilter : EquityCurveFilterConfig := {}

structure Position where
  signalId : String
  strategy : String
  direction : Direction
  entryTime : ℤ
  entryPrice : ℚ
  stopLoss : ℚ
  takeProfit : ℚ
  positionSize : ℚ
  regime : String
  confidence : ℚ
  entryBarIndex : ℤ
  entryScope : String := "confirmed"
  atrAtEntry : ℚ := 0
  initialRisk : ℚ := 0
  peakPrice : Option ℚ := none
  barsHeld : ℤ := 0
  breakevenActivated : Bool := false
  recentSignalDirs : List Direction := []
  strategyCategory : String := ""
  exitSpec : ExitSpec := {}
  timeframe : String := ""
  slAtrMult : ℚ := 0
  entrySpreadPoints : ℚ := 0
  swapCost : ℚ := 0
  mfePrice : Option ℚ := none
  maePrice : Option ℚ := none

/-- Why a trade was closed. -/
inductive ExitReason
  | rule (reason : CloseReason)
  | weekendFlat
  | endOfDay
  | endOfTest
  deriving DecidableEq, Repr

structure TradeRecord where
  signalId : String
  strategy : String
  direction : Direction
  entryTime : ℤ
  entryPrice : ℚ
  exitTime : ℤ
  exitPrice : ℚ
  stopLoss : ℚ
  takeProfit : ℚ
  positionSize : ℚ
  pnl : ℚ
  pnlPct : ℚ
  barsHeld : ℤ
  regime : String
  confidence : ℚ
  exitReason : ExitReason
  entryScope : String
  slippageCost : ℚ
  commissionCost : ℚ
  swapCost : ℚ
  mfePct : Option ℚ
  maePct : Option ℚ
  holdMinutes : ℤ

/-- The tracker's own state; `equityHistory` is that of its equity filter. -/
structure Tracker where
  currentBalance : ℚ
  peakBalance : ℚ
  lastEndOfDayCloseDate : Option ℤ := none
  lastWeekendFlatDate : Option ℤ := none
  lastBarCloseForEquity : ℚ
  swapChargedDates : List ℤ := []
  atrRefWindow : List ℚ := []
  openPositions : List Position := []
  closedTrades : List TradeRecord := []
  equityCurve : List (ℤ × ℚ) := []
  dailyTradeCounts : Dict ℤ ℤ := Dict.empty
  hourlyWindow : List ℤ := []
  dailyOpenedVolume : Dict ℤ ℚ := Dict.empty
  dailyStartEquity : Dict ℤ ℚ := Dict.empty
  equityHistory : List ℚ := []

def start (c : Settings) : Tracker where
  currentBalance := c.initialBalance
  peakBalance := c.initialBalance
  lastBarCloseForEquity := c.initialBalance

/-- `deque(maxlen=limit).append(item)`. -/
def appendBounded {α : Type*} (limit : ℕ) (items : List α) (item : α) : List α :=
  (items ++ [item]).drop (items.length + 1 - limit)

def floatingPnl (c : Settings) (positions : List Position) (price : ℚ) : ℚ :=
  (positions.map fun pos =>
    let diff :=
      match pos.direction with
      | .buy => price - pos.entryPrice
      | .sell => pos.entryPrice - price
    diff * pos.positionSize * c.contractSize).sum

/-- The first equity of a day stays. -/
def ensureDayStartEquity (s : Tracker) (time : ℤ) (equity : ℚ) : Tracker :=
  if s.dailyStartEquity.contains (dayOf time) then s
  else { s with dailyStartEquity := s.dailyStartEquity.set (dayOf time) equity }

def recordEquity (c : Settings) (s : Tracker) (bar : Bar) : Tracker :=
  let equity := s.currentBalance + floatingPnl c s.openPositions bar.close
  let s := ensureDayStartEquity s bar.time equity
  { s with
    lastBarCloseForEquity := bar.close
    equityCurve := s.equityCurve ++ [(bar.time, equity)]
    equityHistory :=
      if 0 < equity then
        appendBounded (max c.equityCurveFilter.maPeriod 5) s.equityHistory equity
      else s.equityHistory }

def observeBar (c : Settings) (s : Tracker) (bar : Bar) : Tracker :=
  ensureDayStartEquity s bar.time
    (s.currentBalance + floatingPnl c s.openPositions bar.openPrice)

def updateAtrReference (s : Tracker) (atr : ℚ) : Tracker :=
  if 0 < atr then { s with atrRefWindow := appendBounded 90 s.atrRefWindow atr } else s

/-- The last ATR against the mean of the window; 1 while the window is short. -/
def currentAtrRatio (s : Tracker) : ℚ :=
  let average := s.atrRefWindow.sum / s.atrRefWindow.length
  if s.atrRefWindow.length < 10 then 1
  else if 0 < average then s.atrRefWindow.getLastD 0 / average
  else 1

def halfSpread (c : Settings) (s : Tracker) (time : ℤ) : ℚ :=
  c.costModel.effectiveSpreadPoints time (currentAtrRatio s) / 2

/-- One charge on an open position. -/
def chargeSwap (c : Settings) (time : ℤ) (pos : Position) : Position :=
  { pos with
    swapCost := pos.swapCost + c.costModel.swapCharge pos.direction pos.positionSize time }

/-- Once a date, on the bar of the charge hour. -/
def applyOvernightSwap (c : Settings) (s : Tracker) (bar : Bar) : Tracker :=
  if c.costModel.swapEnabled = false ∨ s.openPositions = [] then s
  else if hourOf bar.time ≠ c.costModel.swapChargeHourUtc then s
  else if dayOf bar.time ∈ s.swapChargedDates then s
  else
    { s with
      swapChargedDates := s.swapChargedDates ++ [dayOf bar.time]
      openPositions := s.openPositions.map (chargeSwap c bar.time)
      currentBalance := s.currentBalance +
        (s.openPositions.map fun pos =>
          c.costModel.swapCharge pos.direction pos.positionSize bar.time).sum }

/-- The computed parameters of a trade that the tracker reads. -/
structure TradeParameters where
  stopLoss : ℚ
  takeProfit : ℚ
  positionSize : ℚ
  slDistance : ℚ

inductive OpenRefusal
  | maxPositions
  | minVolume
  | maxVolume
  | maxVolumePerOrder
  | maxVolumePerSymbol
  | maxVolumePerDay
  | maxTradesPerDay
  | maxTradesPerHour
  | dailyLossLimitPct
  | equityCurveBelowMa
  deriving DecidableEq, Repr

/-- An optional upper limit is passed. -/
def exceeds (limit : Option ℚ) (value : ℚ) : Bool := limit.any fun most => most < value

/-- An optional number of trades is used up; zero and less mean no limit. -/
def usedUp (limit : Option ℤ) (count : ℤ) : Bool :=
  limit.any fun most => 0 < most ∧ most ≤ count

/-- Entries that left the last hour are dropped, but only when there is an hourly limit. -/
def trimHourlyWindow (c : Settings) (s : Tracker) (time : ℤ) : Tracker :=
  if c.maxTradesPerHour.any fun most => 0 < most then
    { s with hourlyWindow := s.hourlyWindow.dropWhile fun opened => opened < time - 3600 }
  else s

def shouldBlock (config : EquityCurveFilterConfig) (history : List ℚ) : Bool :=
  config.enabled && config.minSamples ≤ history.length &&
    history.getLastD 0 < history.sum / history.length

def dailyLossReached (c : Settings) (s : Tracker) (time : ℤ) (equity : ℚ) : Bool :=
  match c.dailyLossLimitPct, s.dailyStartEquity.get? (dayOf time) with
  | some limit, some startEquity =>
    0 < startEquity ∧ limit ≤ max 0 ((startEquity - equity) / startEquity * 100)
  | _, _ => false

/-- The gates of `can_open_position` on counts and volumes, in source order. -/
def volumeRefusal (c : Settings) (s : Tracker) (bar : Bar) (volume : ℚ) : Option OpenRefusal :=
  let openVolume := (s.openPositions.map Position.positionSize).sum
  let dayOpenedVolume := (s.dailyOpenedVolume.get? (dayOf bar.time)).getD 0
  let tradesToday := (s.dailyTradeCounts.get? (dayOf bar.time)).getD 0
  if c.maxPositions ≤ s.openPositions.length then some .maxPositions
  else if volume < c.minVolume then some .minVolume
  else if c.maxVolume < volume then some .maxVolume
  else if exceeds c.maxVolumePerOrder volume then some .maxVolumePerOrder
  else if exceeds c.maxVolumePerSymbol (openVolume + volume) then some .maxVolumePerSymbol
  else if exceeds c.maxVolumePerDay (dayOpenedVolume + volume) then some .maxVolumePerDay
  else if usedUp c.maxTradesPerDay tradesToday then some .maxTradesPerDay
  else none

/-- The gates that come last, on the equity of the day. -/
def equityRefusal (c : Settings) (s : Tracker) (time : ℤ) (equity : ℚ) : Option OpenRefusal :=
  if dailyLossReached c s time equity then some .dailyLossLimitPct
  else if shouldBlock c.equityCurveFilter s.equityHistory then some .equityCurveBelowMa
  else none

/-- All gates, with what they change on the way. -/
def canOpenPosition (c : Settings) (s : Tracker) (bar : Bar) (params : TradeParameters) :
    Tracker × Option OpenRefusal :=
  match volumeRefusal c s bar params.positionSize with
  | some refusal => (s, some refusal)
  | none =>
    let trimmed := trimHourlyWindow c s bar.time
    if usedUp c.maxTradesPerHour trimmed.hourlyWindow.length then (trimmed, some .maxTradesPerHour)
    else
      let equity := trimmed.currentBalance + floatingPnl c trimmed.openPositions bar.close
      let started := ensureDayStartEquity trimmed bar.time equity
      (started, equityRefusal c started bar.time equity)

/-- The arguments of `open_position`, with the identifier it draws. -/
structure OpenOrder where
  signalId : String
  strategy : String
  action : Direction
  bar : Bar
  tradeParams : TradeParameters
  regime : String := ""
  confidence : ℚ := 0
  barIndex : ℤ := 0
  atrAtEntry : ℚ := 0
  strategyCategory : String := ""
  timeframe : String := ""
  exitSpec : ExitSpec := {}
  fillPrice : Option ℚ := none
  entryScope : String := "confirmed"

/-- A price moved by a distance to the side of a trade. -/
def moved (action : Direction) (price distance : ℚ) : ℚ :=
  match action with
  | .buy => price + distance
  | .sell => price - distance

def newPosition (c : Settings) (s : Tracker) (order : OpenOrder) : Position :=
  let basePrice := order.fillPrice.getD order.bar.close
  let entryHalfSpread := halfSpread c s order.bar.time
  let entryPrice := moved order.action basePrice (c.slippagePoints + entryHalfSpread)
  { signalId := order.signalId
    strategy := order.strategy
    direction := order.action
    entryTime := order.bar.time
    entryPrice := entryPrice
    stopLoss := order.tradeParams.stopLoss
    takeProfit := order.tradeParams.takeProfit
    positionSize := order.tradeParams.positionSize
    regime := order.regime
    confidence := order.confidence
    entryBarIndex := order.barIndex
    entryScope := order.entryScope
    atrAtEntry := order.atrAtEntry
    initialRisk := |entryPrice - order.tradeParams.stopLoss|
    peakPrice := some entryPrice
    strategyCategory := order.strategyCategory
    exitSpec := order.exitSpec
    timeframe := order.timeframe
    slAtrMult :=
      if 0 < order.atrAtEntry then round (order.tradeParams.slDistance / order.atrAtEntry) 4 else 0
    entrySpreadPoints := entryHalfSpread
    mfePrice := some entryPrice
    maePrice := some entryPrice }

/-- Commission of one side of a trade. -/
def commission (c : Settings) (positionSize : ℚ) : ℚ := c.commissionPerLot * positionSize

def openPosition (c : Settings) (s : Tracker) (order : OpenOrder) : Tracker :=
  match canOpenPosition c s order.bar order.tradeParams with
  | (s, some _) => s
  | (s, none) =>
    let day := dayOf order.bar.time
    let balance := s.currentBalance - commission c order.tradeParams.positionSize
    let positions := s.openPositions ++ [newPosition c s order]
    { s with
      currentBalance := balance
      openPositions := positions
      dailyTradeCounts := s.dailyTradeCounts.set day ((s.dailyTradeCounts.get? day).getD 0 + 1)
      hourlyWindow := s.hourlyWindow ++ [order.bar.time]
      dailyOpenedVolume := s.dailyOpenedVolume.set day
        ((s.dailyOpenedVolume.get? day).getD 0 + order.tradeParams.positionSize)
      equityCurve := s.equityCurve ++
        [(order.bar.time, balance + floatingPnl c positions order.bar.close)] }

/-- Where and why a position is closed. -/
structure Closing where
  exitPrice : ℚ
  exitTime : ℤ
  barIndex : ℤ
  reason : ExitReason

def actualExit (c : Settings) (s : Tracker) (pos : Position) (closing : Closing) : ℚ :=
  moved pos.direction.opposite closing.exitPrice (c.slippagePoints + halfSpread c s closing.exitTime)

/-- Profit from the price difference less the commission of the exit. -/
def closePnl (c : Settings) (s : Tracker) (pos : Position) (closing : Closing) : ℚ :=
  let priceDiff :=
    match pos.direction with
    | .buy => actualExit c s pos closing - pos.entryPrice
    | .sell => pos.entryPrice - actualExit c s pos closing
  priceDiff * pos.positionSize * c.contractSize - commission c pos.positionSize

/-- The best or worst excursion in percent of the entry. -/
def excursionPct (pos : Position) (price : ℚ) (gain : Bool) : ℚ :=
  let forward := (price - pos.entryPrice) / pos.entryPrice * 100
  let raw :=
    match pos.direction with
    | .buy => if gain then forward else -forward
    | .sell => if gain then -forward else forward
  round (max 0 raw) 4

def tradeRecord (c : Settings) (s : Tracker) (pos : Position) (closing : Closing) : TradeRecord :=
  let pnl := closePnl c s pos closing
  let totalCostPoints :=
    c.slippagePoints * 2 + pos.entrySpreadPoints + halfSpread c s closing.exitTime
  let tracked := 0 < pos.entryPrice ∧ pos.mfePrice.isSome ∧ pos.maePrice.isSome
  let held := closing.exitTime - pos.entryTime
  { signalId := pos.signalId
    strategy := pos.strategy
    direction := pos.direction
    entryTime := pos.entryTime
    entryPrice := pos.entryPrice
    exitTime := closing.exitTime
    exitPrice := actualExit c s pos closing
    stopLoss := pos.stopLoss
    takeProfit := pos.takeProfit
    positionSize := pos.positionSize
    pnl := round pnl 2
    pnlPct := round (if 0 < c.initialBalance then pnl / c.initialBalance * 100 else 0) 4
    barsHeld := closing.barIndex - pos.entryBarIndex
    regime := pos.regime
    confidence := pos.confidence
    exitReason := closing.reason
    entryScope := pos.entryScope
    slippageCost := round (totalCostPoints * pos.positionSize * c.contractSize) 2
    commissionCost := round (commission c pos.positionSize + commission c pos.positionSize) 2
    swapCost := round pos.swapCost 2
    mfePct := if tracked then pos.mfePrice.map fun price => excursionPct pos price true else none
    maePct := if tracked then pos.maePrice.map fun price => excursionPct pos price false else none
    holdMinutes := if 0 < held then held / 60 else 0 }

/-- The position stays in the list of open ones; the callers replace the list. -/
def closePosition (c : Settings) (s : Tracker) (pos : Position) (closing : Closing) : Tracker :=
  let balance := s.currentBalance + closePnl c s pos closing
  { s with
    currentBalance := balance
    peakBalance := max s.peakBalance balance
    equityCurve := s.equityCurve ++ [(closing.exitTime, balance)]
    closedTrades := s.closedTrades ++ [tradeRecord c s pos closing] }

def closeAllWithReason (c : Settings) (s : Tracker) (bar : Bar) (barIndex : ℤ)
    (reason : ExitReason) : Tracker :=
  let closed := s.openPositions.foldl
    (fun s pos => closePosition c s pos ⟨bar.close, bar.time, barIndex, reason⟩) s
  { closed with openPositions := [] }

def closeAll (c : Settings) (s : Tracker) (bar : Bar) (barIndex : ℤ) : Tracker :=
  closeAllWithReason c s bar barIndex .endOfTest

def closeBySignal (c : Settings) (s : Tracker) (strategy : String) (bar : Bar) (barIndex : ℤ) :
    Tracker :=
  let leaving := s.openPositions.filter fun pos => pos.strategy = strategy
  let closed := leaving.foldl
    (fun s pos => closePosition c s pos ⟨bar.close, bar.time, barIndex, .rule .signalExit⟩) s
  { closed with openPositions := s.openPositions.filter fun pos => pos.strategy ≠ strategy }

/-- The levels the broker would hold, with the fills of a gap first; a bar that touches
only the stop is left to the exit rules. -/
def resolveHardBoundaryExit (bar : Bar) (pos : Position) : Option (ℚ × CloseReason) :=
  let sl := pos.stopLoss
  let tp := pos.takeProfit
  let stopAt (low high : ℚ) : Bool :=
    match pos.direction with
    | .buy => 0 < sl ∧ low ≤ sl
    | .sell => 0 < sl ∧ sl ≤ high
  let targetAt (low high : ℚ) : Bool :=
    match pos.direction with
    | .buy => 0 < tp ∧ tp ≤ high
    | .sell => 0 < tp ∧ low ≤ tp
  if stopAt bar.openPrice bar.openPrice then some (bar.openPrice, .stopLoss)
  else if targetAt bar.openPrice bar.openPrice then some (bar.openPrice, .takeProfit)
  else if targetAt bar.low bar.high && stopAt bar.low bar.high then some (sl, .stopLoss)
  else if targetAt bar.low bar.high then some (tp, .takeProfit)
  else none

def peakAtBarOpen (pos : Position) : ℚ := orElse pos.peakPrice pos.entryPrice

/-- The peak moves on a better extreme of the bar only; the excursions always follow. -/
def noteBar (pos : Position) (bar : Bar) : Position :=
  let (favorable, adverse) : ℚ × ℚ :=
    match pos.direction with
    | .buy => (bar.high, bar.low)
    | .sell => (bar.low, bar.high)
  let best : ℚ → ℚ → ℚ :=
    match pos.direction with
    | .buy => max
    | .sell => min
  let worst : ℚ → ℚ → ℚ :=
    match pos.direction with
    | .buy => min
    | .sell => max
  { pos with
    peakPrice :=
      if pos.direction.better (peakAtBarOpen pos) favorable then some favorable
      else pos.peakPrice
    mfePrice := some (best (orElse pos.mfePrice pos.entryPrice) favorable)
    maePrice := some (worst (orElse pos.maePrice pos.entryPrice) adverse)
    barsHeld := pos.barsHeld + 1 }

/-- What the indicators and the strategies say on a bar. -/
structure BarReadings where
  currentAtr : ℚ := 0
  currentRegime : String := ""
  signalDirections : Dict String Direction := Dict.empty

def noteDirection (config : ChandelierConfig) (directions : Dict String Direction)
    (pos : Position) : Position :=
  match directions.get? pos.strategy with
  | none => pos
  | some direction =>
    let dirs := pos.recentSignalDirs ++ [direction]
    let maxKeep := config.signalExitConfirmationBars + 2
    { pos with
      recentSignalDirs := if maxKeep < dirs.length then takeLast dirs maxKeep else dirs }

/-- The call of `evaluate_exit`: the entry ATR is not passed on. -/
def exitQuery (pos : Position) (peakOpen : ℚ) (bar : Bar) (readings : BarReadings) : ExitQuery where
  action := pos.direction
  entryPrice := pos.entryPrice
  barHigh := bar.high
  barLow := bar.low
  barClose := bar.close
  currentStopLoss := pos.stopLoss
  initialRisk := pos.initialRisk
  peakPrice := orElse pos.peakPrice pos.entryPrice
  currentAtr := readings.currentAtr
  barsHeld := pos.barsHeld
  breakevenAlreadyActivated := pos.breakevenActivated
  recentSignalDirs := pos.recentSignalDirs
  strategyCategory := pos.strategyCategory
  currentRegime := readings.currentRegime
  timeframe := pos.timeframe
  initialSlAtrMult := pos.slAtrMult
  exitSpec := pos.exitSpec
  peakPriceAtBarOpen := some peakOpen

/-- The position as the rules see it on a bar. -/
def evaluated (config : ChandelierConfig) (bar : Bar) (readings : BarReadings) (pos : Position) :
    Position :=
  noteDirection config readings.signalDirections (noteBar pos bar)

/-- The decision of the exit rules on a bar that no hard boundary has decided. -/
def ruleExit (config : ChandelierConfig) (bar : Bar) (readings : BarReadings) (pos : Position) :
    Option ExitCheckResult :=
  evaluateExit config
    (exitQuery (evaluated config bar readings pos) (peakAtBarOpen pos) bar readings)

def takeResult (pos : Position) (result : ExitCheckResult) : Position :=
  { pos with
    breakevenActivated := result.breakevenActivated
    stopLoss := result.newStopLoss.getD pos.stopLoss }

/-- The price of a close that the rules ask for. -/
def ruleExitPrice (config : ChandelierConfig) (bar : Bar) (pos : Position)
    (result : ExitCheckResult) : ℚ :=
  match result.closeReason with
  | some .takeProfit =>
    match result.newStopLoss, pos.exitSpec.isBarrier with
    | some level, true => level
    | _, _ => moved pos.direction pos.entryPrice (config.maxTpR * pos.initialRisk)
  | some .stopLoss => pos.stopLoss
  | some .trailingStop => pos.stopLoss
  | _ => bar.close

/-- One round of the loop over the open positions: the tracker and those that remain. -/
def checkPosition (c : Settings) (bar : Bar) (barIndex : ℤ) (readings : BarReadings)
    (loop : Tracker × List Position) (pos : Position) : Option (Tracker × List Position) :=
  match resolveHardBoundaryExit bar (noteBar pos bar) with
  | some (exitPrice, reason) =>
    some (closePosition c loop.1 (noteBar pos bar) ⟨exitPrice, bar.time, barIndex, .rule reason⟩,
      loop.2)
  | none =>
    match ruleExit c.chandelierConfig bar readings pos with
    | none => none
    | some result =>
      let taken := takeResult (evaluated c.chandelierConfig bar readings pos) result
      match result.shouldClose, result.closeReason with
      | true, some reason =>
        some (closePosition c loop.1 taken
          ⟨ruleExitPrice c.chandelierConfig bar taken result, bar.time, barIndex, .rule reason⟩,
          loop.2)
      | _, _ => some (loop.1, loop.2 ++ [taken])

/-- Weekend and end of day first, then every position; `none` when a rule raises. -/
def checkExits (c : Settings) (s : Tracker) (bar : Bar) (barIndex : ℤ) (readings : BarReadings) :
    Option Tracker :=
  if checkWeekendFlat bar.time c.weekendFlatPolicy s.lastWeekendFlatDate ∧
      s.openPositions ≠ [] then
    some (closeAllWithReason c { s with lastWeekendFlatDate := some (dayOf bar.time) } bar
      barIndex .weekendFlat)
  else if c.endOfDayCloseEnabled ∧
      checkEndOfDay bar.time c.endOfDayCloseHourUtc c.endOfDayCloseMinuteUtc
        s.lastEndOfDayCloseDate ∧ s.openPositions ≠ [] then
    some (closeAllWithReason c { s with lastEndOfDayCloseDate := some (dayOf bar.time) } bar
      barIndex .endOfDay)
  else
    (s.openPositions.foldlM (checkPosition c bar barIndex readings) (s, [])).map fun loop =>
      { loop.1 with openPositions := loop.2 }

inductive Act
  | observe (bar : Bar)
  | swap (bar : Bar)
  | atrReference (atr : ℚ)
  | checkOpen (bar : Bar) (params : TradeParameters)
  | openTrade (order : OpenOrder)
  | exits (bar : Bar) (barIndex : ℤ) (readings : BarReadings)
  | signalExit (strategy : String) (bar : Bar) (barIndex : ℤ)
  | equity (bar : Bar)
  | endOfTest (bar : Bar) (barIndex : ℤ)

/-- One call on the tracker. A call that raises ends the backtest. -/
def step (c : Settings) (s : Tracker) : Act → Option Tracker
  | .observe bar => some (observeBar c s bar)
  | .swap bar => some (applyOvernightSwap c s bar)
  | .atrReference atr => some (updateAtrReference s atr)
  | .checkOpen bar params => some (canOpenPosition c s bar params).1
  | .openTrade order => some (openPosition c s order)
  | .exits bar barIndex readings => checkExits c s bar barIndex readings
  | .signalExit strategy bar barIndex => some (closeBySignal c s strategy bar barIndex)
  | .equity bar => some (recordEquity c s bar)
  | .endOfTest bar barIndex => some (closeAll c s bar barIndex)

/-- Cash already booked on an open position. -/
def openCash (c : Settings) (pos : Position) : ℚ := pos.swapCost - commission c pos.positionSize

/-- Cash that a trade record accounts for. -/
def closedCash (trade : TradeRecord) : ℚ := trade.pnl + trade.swapCost

/-- Balance less what the records and the bookings on open positions explain. -/
def gap (c : Settings) (s : Tracker) (booked : ℚ) : ℚ :=
  s.currentBalance - (c.initialBalance + (s.closedTrades.map closedCash).sum + booked)

/-- The gap is no more than the rounding of the records, a cent a trade. -/
def Explained (c : Settings) (s : Tracker) (booked : ℚ) : Prop :=
  |gap c s booked| ≤ s.closedTrades.length / 100

/-- The cash ledger: the balance is explained by the records and the open positions, and
by the records alone once every position is closed. -/
structure Ledger (c : Settings) (s : Tracker) : Prop where
  balance : |s.currentBalance - (c.initialBalance + (s.closedTrades.map closedCash).sum +
    (s.openPositions.map (openCash c)).sum)| ≤ s.closedTrades.length / 100
  flat : s.openPositions = [] →
    |s.currentBalance - c.initialBalance - (s.closedTrades.map closedCash).sum| ≤
      s.closedTrades.length / 100

/-- The ledger holds at every point of the run. -/
def LedgerThroughout (c : Settings) (labels : List Act) : Prop :=
  ∀ front back s, labels = front ++ back → run (step c) (start c) front = some s → Ledger c s

/-- The call closes the position. -/
def Closes (c : Settings) (s : Tracker) (pos : Position) : Act → Prop
  | .exits bar _ readings =>
    checkWeekendFlat bar.time c.weekendFlatPolicy s.lastWeekendFlatDate ∨
      (c.endOfDayCloseEnabled ∧ checkEndOfDay bar.time c.endOfDayCloseHourUtc
        c.endOfDayCloseMinuteUtc s.lastEndOfDayCloseDate) ∨
      resolveHardBoundaryExit bar (noteBar pos bar) ≠ none ∨
      ∃ result, ruleExit c.chandelierConfig bar readings pos = some result ∧
        result.shouldClose = true
  | .signalExit strategy _ _ => pos.strategy = strategy
  | .endOfTest _ _ => True
  | _ => False

/-- No position that the call closes has paid a commission at its entry. -/
def ClosesUncharged (c : Settings) (s : Tracker) (a : Act) : Prop :=
  ∀ pos ∈ s.openPositions, Closes c s pos a → commission c pos.positionSize = 0

/-- A close adds its rounding to the gap and takes the entry commission away. -/
theorem gap_closePosition (c : Settings) (s : Tracker) (pos : Position) (closing : Closing)
    (booked : ℚ) :
    gap c (closePosition c s pos closing) booked =
      gap c s (openCash c pos + booked) +
        (closePnl c s pos closing - round (closePnl c s pos closing) 2) +
        (pos.swapCost - round pos.swapCost 2) - commission c pos.positionSize := by
  unfold gap closePosition openCash
  simp only [List.map_append, List.map_cons, List.map_nil, List.sum_append, List.sum_cons,
    List.sum_nil, closedCash, tradeRecord]
  ring

theorem explained_closePosition (c : Settings) (s : Tracker) (pos : Position) (closing : Closing)
    (booked : ℚ) (huncharged : commission c pos.positionSize = 0)
    (h : Explained c s (openCash c pos + booked)) :
    Explained c (closePosition c s pos closing) booked := by
  unfold Explained at h ⊢
  rw [gap_closePosition, huncharged, sub_zero]
  have hlength : ((closePosition c s pos closing).closedTrades.length : ℚ) =
      s.closedTrades.length + 1 := by
    simp only [closePosition, List.length_append, List.length_singleton]
    push_cast
    ring
  have hpnl := abs_sub_round_le (closePnl c s pos closing) 2
  have hswap := abs_sub_round_le pos.swapCost 2
  rw [hlength]
  rw [abs_le] at h hpnl hswap ⊢
  norm_num at hpnl hswap
  constructor
  · linarith [h.1, hpnl.1, hswap.1]
  · linarith [h.2, hpnl.2, hswap.2]

theorem explained_closeEach (c : Settings) (closing : Closing) (booked : ℚ)
    (positions : List Position) (s : Tracker)
    (huncharged : ∀ pos ∈ positions, commission c pos.positionSize = 0)
    (h : Explained c s ((positions.map (openCash c)).sum + booked)) :
    Explained c (positions.foldl (fun s pos => closePosition c s pos closing) s) booked := by
  induction positions generalizing s with
  | nil => simpa using h
  | cons pos rest ih =>
    rw [List.foldl_cons]
    apply ih
    · intro other hother
      exact huncharged other (List.mem_cons_of_mem pos hother)
    · apply explained_closePosition
      · exact huncharged pos List.mem_cons_self
      · simpa only [List.map_cons, List.sum_cons, add_assoc] using h

/-- What a bar changes in a position leaves its bookings alone. -/
theorem openCash_noteBar (c : Settings) (pos : Position) (bar : Bar) :
    openCash c (noteBar pos bar) = openCash c pos := rfl

theorem noteDirection_eq (config : ChandelierConfig) (directions : Dict String Direction)
    (pos : Position) :
    noteDirection config directions pos =
      { pos with recentSignalDirs := (noteDirection config directions pos).recentSignalDirs } := by
  unfold noteDirection
  split
  · rfl
  · rfl

theorem evaluated_frame (config : ChandelierConfig) (bar : Bar) (readings : BarReadings)
    (pos : Position) (result : ExitCheckResult) :
    (takeResult (evaluated config bar readings pos) result).swapCost = pos.swapCost ∧
      (takeResult (evaluated config bar readings pos) result).positionSize = pos.positionSize := by
  unfold evaluated
  rw [noteDirection_eq]
  exact ⟨rfl, rfl⟩

theorem openCash_evaluated (c : Settings) (config : ChandelierConfig) (bar : Bar)
    (readings : BarReadings) (pos : Position) (result : ExitCheckResult) :
    openCash c (takeResult (evaluated config bar readings pos) result) = openCash c pos := by
  obtain ⟨hswap, hsize⟩ := evaluated_frame config bar readings pos result
  rw [openCash, hswap, hsize, openCash]

/-- One round of the loop closes the position or keeps it with its bookings. -/
theorem explained_checkPosition (c : Settings) (bar : Bar) (barIndex : ℤ)
    (readings : BarReadings) (loop loop' : Tracker × List Position) (pos : Position) (rest : ℚ)
    (hstep : checkPosition c bar barIndex readings loop pos = some loop')
    (huncharged : (resolveHardBoundaryExit bar (noteBar pos bar) ≠ none ∨
      ∃ result, ruleExit c.chandelierConfig bar readings pos = some result ∧
        result.shouldClose = true) → commission c pos.positionSize = 0)
    (h : Explained c loop.1 ((loop.2.map (openCash c)).sum + (openCash c pos + rest))) :
    Explained c loop'.1 ((loop'.2.map (openCash c)).sum + rest) := by
  have hswap : (loop.2.map (openCash c)).sum + (openCash c pos + rest) =
      openCash c pos + ((loop.2.map (openCash c)).sum + rest) := by ring
  unfold checkPosition at hstep
  split at hstep
  · rename_i hhard
    cases Option.some.inj hstep
    apply explained_closePosition
    · exact huncharged (Or.inl (by rw [hhard]; simp))
    · rw [openCash_noteBar, ← hswap]
      exact h
  · split at hstep
    · cases hstep
    · rename_i result hresult
      dsimp only at hstep
      split at hstep
      · rename_i hclose _
        cases Option.some.inj hstep
        apply explained_closePosition
        · rw [(evaluated_frame _ _ _ _ _).2]
          exact huncharged (Or.inr ⟨result, hresult, hclose⟩)
        · rw [openCash_evaluated, ← hswap]
          exact h
      · cases Option.some.inj hstep
        simpa only [List.map_append, List.map_cons, List.map_nil, List.sum_append,
          List.sum_cons, List.sum_nil, openCash_evaluated, add_zero, add_assoc] using h

theorem explained_checkPositions (c : Settings) (bar : Bar) (barIndex : ℤ)
    (readings : BarReadings) (positions : List Position) (loop loop' : Tracker × List Position)
    (hstep : positions.foldlM (checkPosition c bar barIndex readings) loop = some loop')
    (huncharged : ∀ pos ∈ positions, (resolveHardBoundaryExit bar (noteBar pos bar) ≠ none ∨
      ∃ result, ruleExit c.chandelierConfig bar readings pos = some result ∧
        result.shouldClose = true) → commission c pos.positionSize = 0)
    (h : Explained c loop.1
      ((loop.2.map (openCash c)).sum + (positions.map (openCash c)).sum)) :
    Explained c loop'.1 (loop'.2.map (openCash c)).sum := by
  induction positions generalizing loop with
  | nil =>
    cases Option.some.inj hstep
    simpa using h
  | cons pos rest ih =>
    rw [List.foldlM_cons] at hstep
    obtain ⟨middle, hmiddle, hrest⟩ := Option.bind_eq_some_iff.mp hstep
    apply ih middle hrest
    · intro other hother
      exact huncharged other (List.mem_cons_of_mem pos hother)
    · apply explained_checkPosition c bar barIndex readings loop middle pos _ hmiddle
      · exact huncharged pos List.mem_cons_self
      · simpa only [List.map_cons, List.sum_cons] using h

/-- The ledger in terms of the gap. -/
theorem ledger_iff (c : Settings) (s : Tracker) :
    Ledger c s ↔ Explained c s (s.openPositions.map (openCash c)).sum := by
  constructor
  · intro h
    exact h.balance
  · intro h
    refine ⟨h, ?_⟩
    intro hflat
    unfold Explained gap at h
    rw [hflat, List.map_nil, List.sum_nil, add_zero, ← sub_sub] at h
    exact h

instance (c : Settings) (s : Tracker) : Decidable (Ledger c s) :=
  decidable_of_iff (|gap c s (s.openPositions.map (openCash c)).sum| ≤ s.closedTrades.length / 100)
    (ledger_iff c s).symm

/-- Neither cash nor positions have moved. -/
structure SameCash (s t : Tracker) : Prop where
  balance : t.currentBalance = s.currentBalance
  closed : t.closedTrades = s.closedTrades
  positions : t.openPositions = s.openPositions

theorem SameCash.trans {s t u : Tracker} (hst : SameCash s t) (htu : SameCash t u) :
    SameCash s u where
  balance := htu.balance.trans hst.balance
  closed := htu.closed.trans hst.closed
  positions := htu.positions.trans hst.positions

theorem SameCash.ledger {c : Settings} {s t : Tracker} (hsame : SameCash s t) (h : Ledger c s) :
    Ledger c t := by
  rw [ledger_iff] at h ⊢
  unfold Explained gap at h ⊢
  rw [hsame.balance, hsame.closed, hsame.positions]
  exact h

theorem sameCash_ensureDayStartEquity (s : Tracker) (time : ℤ) (equity : ℚ) :
    SameCash s (ensureDayStartEquity s time equity) := by
  unfold ensureDayStartEquity
  split_ifs
  · exact ⟨rfl, rfl, rfl⟩
  · exact ⟨rfl, rfl, rfl⟩

theorem sameCash_recordEquity (c : Settings) (s : Tracker) (bar : Bar) :
    SameCash s (recordEquity c s bar) := by
  have hday := sameCash_ensureDayStartEquity s bar.time
    (s.currentBalance + floatingPnl c s.openPositions bar.close)
  exact ⟨hday.balance, hday.closed, hday.positions⟩

theorem sameCash_updateAtrReference (s : Tracker) (atr : ℚ) :
    SameCash s (updateAtrReference s atr) := by
  unfold updateAtrReference
  split_ifs
  · exact ⟨rfl, rfl, rfl⟩
  · exact ⟨rfl, rfl, rfl⟩

theorem sameCash_trimHourlyWindow (c : Settings) (s : Tracker) (time : ℤ) :
    SameCash s (trimHourlyWindow c s time) := by
  unfold trimHourlyWindow
  split_ifs
  · exact ⟨rfl, rfl, rfl⟩
  · exact ⟨rfl, rfl, rfl⟩

theorem sameCash_canOpenPosition (c : Settings) (s : Tracker) (bar : Bar)
    (params : TradeParameters) : SameCash s (canOpenPosition c s bar params).1 := by
  have htrim := sameCash_trimHourlyWindow c s bar.time
  have hday := htrim.trans (sameCash_ensureDayStartEquity (trimHourlyWindow c s bar.time)
    bar.time ((trimHourlyWindow c s bar.time).currentBalance +
      floatingPnl c (trimHourlyWindow c s bar.time).openPositions bar.close))
  unfold canOpenPosition
  split
  · exact ⟨rfl, rfl, rfl⟩
  · dsimp only
    split_ifs
    · exact htrim
    · exact hday

/-- A new position is booked with its entry commission. -/
theorem openPosition_ledger (c : Settings) (s : Tracker) (order : OpenOrder) (h : Ledger c s) :
    Ledger c (openPosition c s order) := by
  have hsame := sameCash_canOpenPosition c s order.bar order.tradeParams
  unfold openPosition
  split
  · rename_i t _ hgate
    rw [hgate] at hsame
    exact hsame.ledger h
  · rename_i t hgate
    rw [hgate] at hsame
    have hbefore := (ledger_iff c t).mp (hsame.ledger h)
    rw [ledger_iff]
    unfold Explained gap at hbefore ⊢
    have hbooked : openCash c (newPosition c t order) =
        0 - commission c order.tradeParams.positionSize := rfl
    simp only [List.map_append, List.map_cons, List.map_nil, List.sum_append, List.sum_cons,
      List.sum_nil, hbooked]
    have hgap : t.currentBalance - commission c order.tradeParams.positionSize -
        (c.initialBalance + (t.closedTrades.map closedCash).sum +
          ((t.openPositions.map (openCash c)).sum +
            (0 - commission c order.tradeParams.positionSize + 0))) =
        t.currentBalance - (c.initialBalance + (t.closedTrades.map closedCash).sum +
          (t.openPositions.map (openCash c)).sum) := by ring
    rw [hgap]
    exact hbefore

theorem sum_openCash_chargeSwap (c : Settings) (time : ℤ) (positions : List Position) :
    ((positions.map (chargeSwap c time)).map (openCash c)).sum =
      (positions.map (openCash c)).sum +
        (positions.map fun pos =>
          c.costModel.swapCharge pos.direction pos.positionSize time).sum := by
  induction positions with
  | nil => simp
  | cons pos rest ih =>
    simp only [List.map_cons, List.sum_cons, ih, openCash, chargeSwap]
    ring

theorem applyOvernightSwap_ledger (c : Settings) (s : Tracker) (bar : Bar) (h : Ledger c s) :
    Ledger c (applyOvernightSwap c s bar) := by
  unfold applyOvernightSwap
  split_ifs
  · exact h
  · exact h
  · exact h
  · rw [ledger_iff] at h ⊢
    unfold Explained gap at h ⊢
    rw [sum_openCash_chargeSwap, add_comm (s.openPositions.map (openCash c)).sum, ← add_assoc,
      add_right_comm, add_sub_add_right_eq_sub]
    exact h

theorem closeAllWithReason_ledger (c : Settings) (s : Tracker) (bar : Bar) (barIndex : ℤ)
    (reason : ExitReason)
    (huncharged : ∀ pos ∈ s.openPositions, commission c pos.positionSize = 0)
    (h : Ledger c s) : Ledger c (closeAllWithReason c s bar barIndex reason) := by
  rw [ledger_iff] at h ⊢
  have hclosed := explained_closeEach c ⟨bar.close, bar.time, barIndex, reason⟩ 0
    s.openPositions s huncharged (by rw [add_zero]; exact h)
  exact hclosed

theorem closeBySignal_ledger (c : Settings) (s : Tracker) (strategy : String) (bar : Bar)
    (barIndex : ℤ)
    (huncharged : ∀ pos ∈ s.openPositions, pos.strategy = strategy →
      commission c pos.positionSize = 0)
    (h : Ledger c s) : Ledger c (closeBySignal c s strategy bar barIndex) := by
  rw [ledger_iff] at h ⊢
  rw [← List.sum_map_filter_add_sum_map_filter_not fun pos => pos.strategy = strategy] at h
  apply explained_closeEach c _ _ _ s ?_ h
  intro pos hpos
  obtain ⟨hmem, hstrategy⟩ := List.mem_filter.mp hpos
  exact huncharged pos hmem (of_decide_eq_true hstrategy)

theorem checkExits_ledger (c : Settings) (s t : Tracker) (bar : Bar) (barIndex : ℤ)
    (readings : BarReadings) (hstep : checkExits c s bar barIndex readings = some t)
    (huncharged : ClosesUncharged c s (.exits bar barIndex readings)) (h : Ledger c s) :
    Ledger c t := by
  unfold checkExits at hstep
  split_ifs at hstep with hweekend hday
  · cases Option.some.inj hstep
    apply closeAllWithReason_ledger
    · intro pos hpos
      exact huncharged pos hpos (Or.inl hweekend.1)
    · exact SameCash.ledger (s := s) ⟨rfl, rfl, rfl⟩ h
  · cases Option.some.inj hstep
    apply closeAllWithReason_ledger
    · intro pos hpos
      exact huncharged pos hpos (Or.inr (Or.inl ⟨hday.1, hday.2.1⟩))
    · exact SameCash.ledger (s := s) ⟨rfl, rfl, rfl⟩ h
  · obtain ⟨loop, hloop, rfl⟩ := Option.map_eq_some_iff.mp hstep
    rw [ledger_iff] at h ⊢
    apply explained_checkPositions c bar barIndex readings s.openPositions (s, []) loop hloop
    · intro pos hpos hcloses
      exact huncharged pos hpos (Or.inr (Or.inr hcloses))
    · simpa using h

theorem step_ledger (c : Settings) (s t : Tracker) (a : Act) (hstep : step c s a = some t)
    (huncharged : ClosesUncharged c s a) (h : Ledger c s) : Ledger c t := by
  cases a with
  | observe bar =>
    cases Option.some.inj hstep
    exact (sameCash_ensureDayStartEquity _ _ _).ledger h
  | swap bar =>
    cases Option.some.inj hstep
    exact applyOvernightSwap_ledger c s bar h
  | atrReference atr =>
    cases Option.some.inj hstep
    exact (sameCash_updateAtrReference s atr).ledger h
  | checkOpen bar params =>
    cases Option.some.inj hstep
    exact (sameCash_canOpenPosition c s bar params).ledger h
  | openTrade order =>
    cases Option.some.inj hstep
    exact openPosition_ledger c s order h
  | exits bar barIndex readings =>
    exact checkExits_ledger c s t bar barIndex readings hstep huncharged h
  | signalExit strategy bar barIndex =>
    cases Option.some.inj hstep
    exact closeBySignal_ledger c s strategy bar barIndex huncharged h
  | equity bar =>
    cases Option.some.inj hstep
    exact (sameCash_recordEquity c s bar).ledger h
  | endOfTest bar barIndex =>
    cases Option.some.inj hstep
    exact closeAllWithReason_ledger c s bar barIndex .endOfTest
      (fun pos hpos => huncharged pos hpos trivial) h

theorem start_ledger (c : Settings) : Ledger c (start c) := by
  rw [ledger_iff]
  simp [Explained, gap, start]

/-- The balance stays explained through every run that closes no position whose entry was
charged a commission. -/
theorem ledger_throughout (c : Settings) (labels : List Act)
    (huncharged : Along (step c) (ClosesUncharged c) (start c) labels) :
    LedgerThroughout c labels := by
  intro front back s hlabels hrun
  rw [hlabels] at huncharged
  apply run_invariant_along ?_ (start_ledger c) (along_front huncharged) hrun
  intro t a u ht hguard hstep
  exact step_ledger c t u a hstep hguard ht

/-- Without a commission every run qualifies. -/
theorem along_uncharged_of_free (c : Settings) (hfree : c.commissionPerLot = 0) (s : Tracker)
    (labels : List Act) : Along (step c) (ClosesUncharged c) s labels := by
  have hall : Along (step c) (fun _ _ => True) s labels := along_of_forall fun _ _ => trivial
  apply along_mono ?_ hall
  intro t a _ pos _ _
  rw [commission, hfree, zero_mul]

/-- A bar whose four prices are one. -/
def flatBar (time : ℤ) (price : ℚ) : Bar := ⟨time, price, price, price, price⟩

/-- A tenth of a lot bought at 2000. -/
def tenthOfLot : OpenOrder where
  signalId := "bt_1"
  strategy := "test"
  action := .buy
  bar := flatBar 3600 2000
  tradeParams := ⟨1995, 2010, 1 / 10, 5⟩

/-- A position held over a swap and closed at the end of the test. -/
def heldOverNight : List Act :=
  [.openTrade tenthOfLot, .swap (flatBar 75600 2001), .exits (flatBar 79200 2002) 1 {},
    .endOfTest (flatBar 90000 2003) 2]

theorem ledger_throughout_free :
    LedgerThroughout { initialBalance := 10000, costModel := { swapEnabled := true } }
      heldOverNight :=
  ledger_throughout _ heldOverNight (along_uncharged_of_free _ rfl _ heldOverNight)

/-- Seven a lot: the commission of the entry is in the balance and in no record. -/
theorem entry_commission_is_not_recorded :
    ¬LedgerThroughout { initialBalance := 10000, commissionPerLot := 7 }
      [.openTrade tenthOfLot, .endOfTest (flatBar 90000 2000) 1] := by
  intro h
  have hrun : (run (step { initialBalance := 10000, commissionPerLot := 7 })
      (start { initialBalance := 10000, commissionPerLot := 7 })
      [.openTrade tenthOfLot, .endOfTest (flatBar 90000 2000) 1]).map
      (fun s => decide (Ledger { initialBalance := 10000, commissionPerLot := 7 } s)) =
      some false := by
    decide +kernel
  obtain ⟨s, hs, hledger⟩ := Option.map_eq_some_iff.mp hrun
  exact of_decide_eq_false hledger (h _ [] s (List.append_nil _).symm hs)

end MT5Services.Portfolio
