import MT5Services.BacktestIntrabar
import Mathlib.Data.List.Sort

/-!
The main loop of the backtest. A run loads its data, computes everything that a main bar
reads, takes one step for each main bar and closes what is left at the end. A reset makes
the state of a run anew; what the constructor made stays: the circuit breaker, the pending
groups, the statistics of the filters, the intrabar context and the data of the higher
timeframes.
-/
namespace MT5Services.BacktestEngine

open BacktestData BacktestDecisions BacktestIntrabar ExitRules IntrabarSynthesis Portfolio
open PyNumber Runs TradeSizing

/-! The filters and the records of the evaluations. -/

structure FilterRejection where
  barTime : ℤ
  filterName : String
  reason : String
  deriving DecidableEq, Repr

structure BacktestFilterStats where
  totalBarsEvaluated : ℕ := 0
  totalBarsRejected : ℕ := 0
  rejectionsByFilter : Dict String ℕ := Dict.empty
  rejectionDetails : List FilterRejection := []

/-- The part of a reason before the first colon. -/
def filterName (reason : String) : String := String.ofList (reason.toList.takeWhile (· ≠ ':'))

/-- At most a thousand rejections are kept in detail. -/
def recordRejection (stats : BacktestFilterStats) (barTime : ℤ) (reason : String) :
    BacktestFilterStats :=
  let name := filterName reason
  { stats with
    totalBarsRejected := stats.totalBarsRejected + 1
    rejectionsByFilter :=
      stats.rejectionsByFilter.set name ((stats.rejectionsByFilter.get? name).getD 0 + 1)
    rejectionDetails :=
      if stats.rejectionDetails.length < 1000 then
        stats.rejectionDetails ++ [⟨barTime, name, reason⟩]
      else stats.rejectionDetails }

variable {V : Type*}

/-- The reason of a rejection, and the statistics after the call. -/
def shouldEvaluate (e : Engine V) (stats : BacktestFilterStats) (barTime : ℤ)
    (indicators : Snapshot) : Option String × BacktestFilterStats :=
  let counted := { stats with totalBarsEvaluated := stats.totalBarsEvaluated + 1 }
  match e.filterChain.bind fun chain => chain barTime indicators with
  | none => (none, counted)
  | some reason => (some reason, recordRejection counted barTime reason)

/-- `to_dict`. -/
structure FilterReport where
  totalBarsEvaluated : ℕ
  totalBarsRejected : ℕ
  passRate : ℚ
  rejectionsByFilter : List (String × ℕ)
  rejectionSample : List FilterRejection
  deriving DecidableEq, Repr

def filterReport (stats : BacktestFilterStats) : FilterReport where
  totalBarsEvaluated := stats.totalBarsEvaluated
  totalBarsRejected := stats.totalBarsRejected
  passRate :=
    if stats.totalBarsEvaluated = 0 then 0
    else round (((stats.totalBarsEvaluated : ℚ) - stats.totalBarsRejected) /
      stats.totalBarsEvaluated) 4
  rejectionsByFilter := stats.rejectionsByFilter.items
  rejectionSample := stats.rejectionDetails.take 100

structure SignalEvaluation where
  barTime : ℤ
  strategy : String
  direction : Option Direction
  confidence : ℚ
  regime : String
  priceAtSignal : ℚ
  priceAfterNBars : Option ℚ := none
  barsToEvaluate : ℕ
  won : Option Bool := none
  pnlPct : Option ℚ := none
  filtered : Bool := false
  filterReason : String := ""
  incomplete : Bool := false
  deriving DecidableEq, Repr

/-- Only trades are filled; a filled evaluation that does not buy sells. -/
def fillEvaluation (ev : SignalEvaluation) (exitPrice : ℚ) (incomplete : Bool) :
    SignalEvaluation :=
  let gain :=
    if ev.direction = some .buy then exitPrice - ev.priceAtSignal
    else ev.priceAtSignal - exitPrice
  { ev with
    priceAfterNBars := some exitPrice
    won := some (0 < gain)
    pnlPct := some (round (gain / ev.priceAtSignal * 100) 4)
    incomplete := incomplete }

/-- The records of a run. -/
structure Records where
  signalEvaluations : List SignalEvaluation := []
  pendingEvaluations : Dict ℕ (List SignalEvaluation) := Dict.empty
  recordedEvals : List (ℕ × String) := []

/-- A trade waits for its bars; everything else is complete at once. -/
def recordEvaluation (e : Engine V) (records : Records) (barIndex : ℕ) (ev : SignalEvaluation) :
    Records :=
  if e.config.maxSignalEvaluations ≤ records.signalEvaluations.length then records
  else if (barIndex, ev.strategy) ∈ records.recordedEvals then records
  else
    let noted := { records with recordedEvals := records.recordedEvals ++ [(barIndex, ev.strategy)] }
    if ev.direction.isSome ∧ ev.filtered = false then
      let target := barIndex + e.config.confidence.barsToEvaluate
      { noted with
        pendingEvaluations := noted.pendingEvaluations.set target
          ((noted.pendingEvaluations.get? target).getD [] ++ [ev]) }
    else { noted with signalEvaluations := noted.signalEvaluations ++ [ev] }

def backfillEvaluations (records : Records) (barIndex : ℕ) (price : ℚ) : Records :=
  match records.pendingEvaluations.get? barIndex with
  | none => records
  | some pending =>
    { records with
      pendingEvaluations := records.pendingEvaluations.pop barIndex
      signalEvaluations := records.signalEvaluations ++
        pending.map fun ev => fillEvaluation ev price false }

def flushPendingEvaluations (records : Records) (lastPrice : ℚ) : Records :=
  let waiting := records.pendingEvaluations.items.insertionSort fun a b => a.1 ≤ b.1
  { records with
    pendingEvaluations := Dict.empty
    signalEvaluations := records.signalEvaluations ++
      waiting.flatMap fun p => p.2.map fun ev => fillEvaluation ev lastPrice true }

/-! One main bar. -/

/-- What the step of a main bar reads from the data. -/
structure BarInput where
  bar : Ohlc
  barIndex : ℕ
  indicators : Snapshot
  recentBars : List Ohlc
  structureBars : List Ohlc
  htfIndicatorData : Dict String Snapshot
  childBars : List Ohlc
  historicalWindow : List Ohlc
  sampled : Bool

/-- The state of a run. `decided` is the history of the confirmed decisions by bar. -/
structure State (V : Type*) extends Desk V where
  records : Records := {}
  outcomes : List TradeOutcome := []
  lastSignalDirections : Dict String Direction := Dict.empty
  filterStats : BacktestFilterStats := {}
  intrabar : Option (IntrabarContext V) := none
  htfIndicatorData : Dict String Snapshot := Dict.empty
  decided : List (ℤ × SignalDecision V) := []

/-- `none` without indicators, or when the detection fails. -/
def regimeOf (e : Engine V) (input : BarInput) : Option RegimeType :=
  if input.indicators.items = [] then none else e.detect input.indicators

/-- The breaker, when there is one, and the tracker hear of a closed trade. -/
def noteOutcome (e : Engine V) (barIndex : ℕ) (s : State V) (trade : TradeRecord) : State V :=
  { s with
    breaker :=
      match e.config.circuitBreaker with
      | none => s.breaker
      | some config => s.breaker.recordOutcome config (0 < trade.pnl) barIndex
    outcomes := s.outcomes ++ [⟨trade.strategy, 0 < trade.pnl, trade.pnl, trade.regime⟩] }

/-- The exits of a bar, on the portfolio as the bar finds it. -/
def portfolioExits (e : Engine V) (input : BarInput) (regime : Option RegimeType) (atr : ℚ)
    (directions : Dict String Direction) (portfolio : Tracker) : Option Tracker :=
  checkExits e.settings portfolio (toBar input.bar) input.barIndex
    { currentAtr := atr
      currentRegime := (regime.map RegimeType.value).getD ""
      signalDirections := directions }

/-- The portfolio of a bar before its exits. -/
def portfolioAtOpen (e : Engine V) (input : BarInput) (atr : ℚ) (portfolio : Tracker) : Tracker :=
  updateAtrReference (applyOvernightSwap e.settings
    (observeBar e.settings portfolio (toBar input.bar)) (toBar input.bar)) atr

/-- Up to the exits and what follows from them. -/
def openBar (e : Engine V) (input : BarInput) (s : State V) : Option (State V) :=
  (referenceAtr input.indicators).bind fun atr =>
    let portfolio := portfolioAtOpen e input atr s.portfolio
    (portfolioExits e input (regimeOf e input) atr s.lastSignalDirections portfolio).map
      fun exited =>
        (exited.closedTrades.drop portfolio.closedTrades.length).foldl
          (noteOutcome e input.barIndex) { s with portfolio := exited }

def barContext (input : BarInput) (regime : RegimeType) : BarContext :=
  ⟨input.bar, input.barIndex, input.indicators, regime⟩

/-- The pending entries, on a bar whose regime is known. -/
def fillPendingEntries (e : Engine V) (input : BarInput) (s : State V) : Option (State V) :=
  match regimeOf e input with
  | none => some s
  | some regime =>
    if e.config.pendingEntryEnabled then
      (checkPendingEntries e s.toDesk (barContext input regime)).map fun desk =>
        { s with toDesk := desk }
    else some s

def backfill (input : BarInput) (s : State V) : State V :=
  { s with records := backfillEvaluations s.records input.barIndex input.bar.close }

/-- A rejected bar is recorded as filtered for every strategy. -/
def recordFiltered (e : Engine V) (input : BarInput) (regime : RegimeType) (reason : String)
    (s : State V) : State V :=
  { s with
    records := e.targetStrategies.foldl
      (fun records strategy => recordEvaluation e records input.barIndex {
        barTime := input.bar.time
        strategy := strategy
        direction := none
        confidence := 0
        regime := regime.value
        priceAtSignal := input.bar.close
        barsToEvaluate := e.config.confidence.barsToEvaluate
        filtered := true
        filterReason := reason }) s.records }

def subLoopCall (e : Engine V) (input : BarInput) (regime : RegimeType) (atr : ℚ) (s : State V) :
    SubLoopCall V where
  parentTime := input.bar.time
  barIndex := input.barIndex
  atrRef := atr
  regime := regime
  softRegime := e.detectSoft input.indicators
  recentBars := input.recentBars
  structureBars := input.structureBars
  historicalWindow := input.historicalWindow
  htfIndicatorData := s.htfIndicatorData
  outcomes := s.outcomes

/-- The sub-loop, when there is a context for it. -/
def replayChildren (e : Engine V) (input : BarInput) (regime : RegimeType) (s : State V) :
    Option (State V) :=
  match e.intrabar, s.intrabar with
  | some plan, some context =>
    (referenceAtr input.indicators).bind fun atr =>
      (runIntrabarSubLoop e plan (subLoopCall e input regime atr s) input.childBars
        ⟨s.toBook, context⟩).map fun loop =>
        { s with
          toBook := loop.book
          intrabar := some loop.context }
  | _, _ => some s

def confirmedView (e : Engine V) (input : BarInput) (regime : RegimeType) (s : State V) :
    View V where
  indicators := input.indicators
  regime := regime
  softRegime := e.detectSoft input.indicators
  barTime := input.bar.time
  recentBars := input.recentBars
  structureBars := input.structureBars
  htfIndicatorData := s.htfIndicatorData
  outcomes := s.outcomes

/-- The coordination with the intrabar positions; true skips the decision. -/
def coordinate (e : Engine V) (input : BarInput) (decision : SignalDecision V) (s : State V) :
    Bool × State V :=
  match s.intrabar, decision.direction with
  | some context, some action =>
    let answer := checkConfirmedCoordination e context decision.strategy action input.bar.time
    (answer.1, { s with intrabar := some answer.2 })
  | _, _ => (false, s)

/-- A decision is recorded, coordinated and processed. -/
def takeDecision (e : Engine V) (input : BarInput) (regime : RegimeType) (s : State V)
    (decision : SignalDecision V) : Option (State V) :=
  let recorded : State V :=
    { s with
      records := recordEvaluation e s.records input.barIndex {
        barTime := input.bar.time
        strategy := decision.strategy
        direction := decision.direction
        confidence := decision.confidence
        regime := regime.value
        priceAtSignal := input.bar.close
        barsToEvaluate := e.config.confidence.barsToEvaluate }
      decided := s.decided ++ [(input.bar.time, decision)] }
  let answer := coordinate e input decision recorded
  if answer.1 then some answer.2
  else
    (processDecision e (barContext input regime) answer.2.toDesk decision).map fun desk =>
      { answer.2 with toDesk := desk }

/-- The directions of the trades among the decisions, the last one of a strategy. -/
def signalDirections (decisions : List (SignalDecision V)) : Dict String Direction :=
  decisions.foldl
    (fun directions decision =>
      match decision.direction with
      | none => directions
      | some action => directions.set decision.strategy action)
    Dict.empty

def sampleEquity (e : Engine V) (input : BarInput) (s : State V) : State V :=
  if input.sampled then { s with portfolio := recordEquity e.settings s.portfolio (toBar input.bar) }
  else s

/-- The confirmed part of a bar that passed the filters. -/
def confirmBar (e : Engine V) (input : BarInput) (regime : RegimeType) (s : State V) :
    Option (State V) :=
  let decisions := evaluateStrategies e .confirmed (confirmedView e input regime s)
  (decisions.foldlM (takeDecision e input regime) s).map fun taken =>
    sampleEquity e input { taken with lastSignalDirections := signalDirections decisions }

/-- From the filters on, on a bar whose regime is known. -/
def evaluateBar (e : Engine V) (input : BarInput) (regime : RegimeType) (s : State V) :
    Option (State V) :=
  let verdict := shouldEvaluate e s.filterStats input.bar.time input.indicators
  let counted := { s with filterStats := verdict.2 }
  match verdict.1 with
  | some reason => some (recordFiltered e input regime reason counted)
  | none =>
    (replayChildren e input regime { counted with htfIndicatorData := input.htfIndicatorData }).bind
      (confirmBar e input regime)

/-- The step of a main bar. -/
def step (e : Engine V) (s : State V) (input : BarInput) : Option (State V) :=
  (openBar e input s).bind fun opened =>
    (fillPendingEntries e input opened).bind fun filled =>
      match regimeOf e input with
      | none => some (backfill input filled)
      | some regime => evaluateBar e input regime (backfill input filled)

/-! A whole run. -/

/-- What a run leaves to the next one on the same engine. -/
structure Kept (V : Type*) where
  breaker : CircuitBreaker := {}
  pendingGroups : List (BacktestPendingGroup V) := []
  filterStats : BacktestFilterStats := {}
  intrabar : Option (IntrabarContext V) := none
  htfIndicatorData : Dict String Snapshot := Dict.empty
  htfTimeseries : List (String × List HtfEntry) := []

/-- As the constructor leaves it. -/
def constructed (e : Engine V) : Kept V where
  intrabar := e.intrabar.map fun _ => {}
  htfIndicatorData := e.htfIndicatorData

/-- `_reset_run_state`: everything that is not kept is new. -/
def resetRunState (e : Engine V) (kept : Kept V) : State V where
  portfolio := Portfolio.start e.settings
  breaker := kept.breaker
  pendingGroups := kept.pendingGroups
  filterStats := kept.filterStats
  intrabar := kept.intrabar
  htfIndicatorData := kept.htfIndicatorData

structure ExecutionSummary where
  simulationMode : SimulationMode
  acceptedEntries : ℕ
  rejectedEntries : ℕ
  rejectionReasons : List (String × ℕ)
  blockedEntryEvents : List BlockedEntry
  intrabar : Option IntrabarStats
  deriving DecidableEq, Repr

def executionSummary (e : Engine V) (s : State V) : ExecutionSummary where
  simulationMode := e.config.simulationMode
  acceptedEntries := s.acceptedEntries
  rejectedEntries := s.executionRejections.values.sum
  rejectionReasons := s.executionRejections.items.insertionSort fun a b => a.1 ≤ b.1
  blockedEntryEvents := s.blockedEntryEvents
  intrabar := e.intrabar.bind fun plan => s.intrabar.map (intrabarStats plan)

/-- The metrics of a result are functions of its trades and its equity curve. -/
structure BacktestResult where
  trades : List TradeRecord := []
  equityCurve : List (ℤ × ℚ) := []
  filterStats : Option FilterReport := none
  executionSummary : ExecutionSummary
  signalEvaluations : List SignalEvaluation := []

/-- The warmup bars and the test bars of a run. -/
def loadBars (e : Engine V) (feed : Feed) : List Ohlc × List Ohlc :=
  let c := e.config
  borrowWarmup c.warmupBars (preloadWarmupBars feed c.timeframe c.startTime c.warmupBars)
    (loadAllBars feed c.timeframe c.startTime c.endTime)

/-- The higher timeframes are loaded once: not again when there is data already. -/
def keepHigher (e : Engine V) (timeseries : List (String × List HtfEntry)) (kept : Kept V) :
    Kept V :=
  if e.config.confidence.enableHtfAlignment ∧ kept.htfIndicatorData.items = [] ∧
      e.hasHtfDirectionFn = false ∧ htfList e.config.timeframe ≠ [] then
    { kept with
      htfTimeseries := timeseries
      htfIndicatorData := timeseries.foldl
        (fun data p =>
          match p.2.getLast? with
          | some entry => data.set p.1 entry.snapshot
          | none => data)
        Dict.empty }
  else kept

def preloadHtf (e : Engine V) (feed : Feed) (kept : Kept V) : Kept V :=
  keepHigher e (preloadHtfIndicators e.pipeline feed e.config.startTime e.config.endTime
    (htfList e.config.timeframe)) kept

def childBars (e : Engine V) (feed : Feed) : List Ohlc :=
  match e.intrabar with
  | none => []
  | some plan => loadAllBars feed plan.childTf e.config.startTime e.config.endTime

/-- Without child bars the intrabar replay is switched off for good. -/
def keepChildren (childBars : List Ohlc) (kept : Kept V) : Kept V :=
  if childBars = [] then { kept with intrabar := none } else kept

def preloadChildren (e : Engine V) (feed : Feed) (kept : Kept V) : Kept V :=
  keepChildren (childBars e feed) kept

/-- What a run keeps, once its data is loaded. -/
def prepare (e : Engine V) (feed : Feed) (kept : Kept V) : Kept V :=
  preloadChildren e feed (preloadHtf e feed kept)

def snapshots (e : Engine V) (allBars : List Ohlc) : List Snapshot :=
  match e.precomputedIndicators with
  | some computed => computed
  | none => precomputeAllIndicators e.pipeline e.deltaConfig e.config.timeframe
      e.requiredIndicators e.config.warmupBars allBars

/-- What the bar at a position reads; the history window is addressed through the wanted
number of warmup bars. -/
def barInput (e : Engine V) (prepared : Kept V) (children : Dict ℤ (List Ohlc))
    (allBars : List Ohlc) (warmupEnd testCount : ℕ) (barIndex : ℕ) (bar : Ohlc) : BarInput where
  bar := bar
  barIndex := barIndex
  indicators := ((snapshots e allBars)[warmupEnd + barIndex]?).getD Dict.empty
  recentBars := (allBars.take (warmupEnd + barIndex + 1)).drop (warmupEnd + barIndex - 80)
  structureBars := (allBars.take (warmupEnd + barIndex + 1)).drop (warmupEnd + barIndex - 400)
  htfIndicatorData :=
    if prepared.htfTimeseries = [] then prepared.htfIndicatorData
    else lookupHtfAtTime prepared.htfTimeseries bar.time
  childBars := (children.get? bar.time).getD []
  historicalWindow := (allBars.take (e.config.warmupBars + barIndex)).drop barIndex
  sampled := barIndex % max 1 (testCount / 500) = 0

/-- The inputs of the main bars, in order, from what was loaded. -/
def inputsOf (e : Engine V) (loaded : List Ohlc × List Ohlc) (childBars : List Ohlc)
    (prepared : Kept V) : List BarInput :=
  let children := buildChildBarIndex e.config.timeframe childBars
  loaded.2.mapIdx (barInput e prepared children (loaded.1 ++ loaded.2) loaded.1.length
    loaded.2.length)

def barInputs (e : Engine V) (feed : Feed) (prepared : Kept V) : List BarInput :=
  inputsOf e (loadBars e feed) (childBars e feed) prepared

/-- The end of a run at its last bar: a last sample, the forced closes and the evaluations
that still wait. -/
def finish (e : Engine V) (last : Ohlc) (testCount : ℕ) (s : State V) : State V :=
  let sampled := recordEquity e.settings s.portfolio (toBar last)
  { s with
    portfolio := closeAll e.settings sampled (toBar last) ((testCount : ℤ) - 1)
    records := flushPendingEvaluations s.records last.close }

/-- The final state of the main loop, `none` without anything to run on. -/
def runLoaded (e : Engine V) (loaded : List Ohlc × List Ohlc) (childBars : List Ohlc)
    (prepared : Kept V) : Option (State V) :=
  match loaded.2.getLast? with
  | none => none
  | some last =>
    (run (step e) (resetRunState e prepared) (inputsOf e loaded childBars prepared)).map
      (finish e last loaded.2.length)

def runBars (e : Engine V) (feed : Feed) (prepared : Kept V) : Option (State V) :=
  runLoaded e (loadBars e feed) (childBars e feed) prepared

/-- A run returns early without a strategy or without test bars. -/
def ReturnsEarly (e : Engine V) (feed : Feed) : Prop :=
  e.targetStrategies = [] ∨ (loadBars e feed).2 = []

instance (e : Engine V) (feed : Feed) : Decidable (ReturnsEarly e feed) :=
  inferInstanceAs (Decidable (_ ∨ _))

def keptOf (prepared : Kept V) (s : State V) : Kept V where
  breaker := s.breaker
  pendingGroups := s.pendingGroups
  filterStats := s.filterStats
  intrabar := s.intrabar
  htfIndicatorData := s.htfIndicatorData
  htfTimeseries := prepared.htfTimeseries

def resultOf (e : Engine V) (s : State V) : BacktestResult where
  trades := s.portfolio.closedTrades
  equityCurve := s.portfolio.equityCurve
  filterStats := some (filterReport s.filterStats)
  executionSummary := executionSummary e s
  signalEvaluations := s.records.signalEvaluations

/-- `BacktestEngine.run`: the result, and what the engine keeps. -/
def runEngine (e : Engine V) (feed : Feed) (kept : Kept V) : Option (BacktestResult × Kept V) :=
  if ReturnsEarly e feed then
    some ({ executionSummary := executionSummary e (resetRunState e kept) }, kept)
  else
    let prepared := prepare e feed kept
    (runBars e feed prepared).map fun s => (resultOf e s, keptOf prepared s)

end MT5Services.BacktestEngine
