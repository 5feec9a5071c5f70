import MT5Services.BacktestData
import MT5Services.TradeSizing

/-!
From the strategies to the positions of a backtest. The engine is what its constructor
fixes: the configuration, the strategies with their contracts, and the collaborators
(pipeline, regime detector, strategies, filters, overlays, entry policies) as functions
of their inputs. On it stand the evaluation of the strategies, the handling of a decision
with its gates, the pending groups and the entry itself. `none` is an exception that ends
the backtest.
-/
namespace MT5Services.BacktestDecisions

open BacktestData ExitRules IntrabarSynthesis Portfolio PyNumber TradeSizing

/-! What the constructor fixes. -/

inductive Scope
  | confirmed
  | intrabar
  deriving DecidableEq, Repr

def Scope.text : Scope → String
  | .confirmed => "confirmed"
  | .intrabar => "intrabar"

structure StrategyCapability where
  validScopes : List Scope
  neededIndicators : List String
  deriving DecidableEq, Repr

inductive DeploymentStatus
  | candidate
  | demoValidation
  | activeGuarded
  | active
  deriving DecidableEq, Repr

structure StrategyDeployment where
  status : DeploymentStatus := .active
  lockedTimeframes : List String := []
  lockedSessions : List String := []
  maxLivePositions : Option ℤ := none
  requirePendingEntry : Bool := false
  deriving DecidableEq, Repr

structure RiskConfig where
  maxPositions : ℕ := 3
  commissionPerLot : ℚ := 0
  slippagePoints : ℚ := 0
  maxVolumePerOrder : Option ℚ := none
  maxVolumePerSymbol : Option ℚ := none
  maxVolumePerDay : Option ℚ := none
  dailyLossLimitPct : Option ℚ := none
  maxTradesPerDay : Option ℤ := none
  maxTradesPerHour : Option ℤ := none
  costModel : CostModel := {}

structure CircuitBreakerConfig where
  maxConsecutiveLosses : ℕ := 5
  cooldownBars : ℤ := 20
  deriving DecidableEq, Repr

structure ConfidenceConfig where
  minConfidence : ℚ := 55 / 100
  enableRegimeAffinity : Bool := true
  enablePerformanceTracker : Bool := true
  enableCalibrator : Bool := true
  enableHtfAlignment : Bool := true
  barsToEvaluate : ℕ := 5
  deriving DecidableEq, Repr

structure BacktestConfig where
  symbol : String
  timeframe : String
  startTime : ℤ
  endTime : ℤ
  initialBalance : ℚ := 10000
  simulationMode : SimulationMode := .research
  warmupBars : ℕ := 200
  enableStateMachine : Bool := false
  minPreviewStableBars : ℕ := 1
  maxSignalEvaluations : ℕ := 50000
  position : PositionConfig := {}
  risk : RiskConfig := {}
  pendingEntryEnabled : Bool := false
  pendingEntryExpiryBars : ℤ := 2
  circuitBreaker : Option CircuitBreakerConfig := none
  confidence : ConfidenceConfig := {}

/-- What `build_intrabar_context` takes from the configuration. -/
structure IntrabarPlan where
  childTf : String
  minStableBars : ℕ := 3
  minConfidence : ℚ := 75 / 100
  enabledStrategies : List String
  minCoverageRatio : ℚ := 8 / 10
  indicatorNames : List String
  deriving DecidableEq, Repr

structure SignalDecision (V : Type*) where
  strategy : String
  direction : Option Direction
  confidence : ℚ
  exitSpec : ExitSpec := {}
  metadata : V

/-- The arguments of `SignalModule.evaluate`, the metadata by field. -/
structure EvaluationRequest (V : Type*) where
  strategy : String
  indicators : Snapshot
  htfIndicators : Dict String Snapshot
  regimeHard : String
  regimeSoft : Option V
  preComputedAffinity : Option ℚ
  skipPerformanceTracker : Bool
  skipCalibrator : Bool
  marketStructure : Option V
  recentBars : List Ohlc
  barTime : ℤ
  sessionBuckets : List String

/-- A call of `StrategyPerformanceTracker.record_outcome`. -/
structure TradeOutcome where
  strategy : String
  won : Bool
  pnl : ℚ
  regime : String
  deriving DecidableEq, Repr

/-- The verdict of an overlay; the scores are what a blocked entry reports of it. -/
structure Verdict where
  allowed : Bool
  reason : String
  scores : List (String × ℚ)
  deriving DecidableEq, Repr

structure EntryMetaFeatureContext where
  barTime : ℤ
  barIndex : ℕ
  strategy : String
  direction : Direction
  confidence : ℚ
  entryPrice : ℚ
  indicators : Snapshot
  regime : String
  session : String

inductive EntryType
  | limit
  | stop
  | market
  deriving DecidableEq, Repr

structure EntrySpecMember where
  memberId : String
  entryType : EntryType
  entryLow : ℚ
  entryHigh : ℚ
  deriving DecidableEq, Repr

structure EntrySpecGroup where
  members : List EntrySpecMember
  deriving DecidableEq, Repr

def EntrySpecGroup.allMarket (group : EntrySpecGroup) : Bool :=
  group.members.all fun member => member.entryType = .market

inductive TieBreak
  | limitFirst
  | stopFirst
  | alpha
  deriving DecidableEq, Repr

/-- Values the engine only passes on have type `V`. A strategy depends on the outcomes that
were recorded since the tracker was reset. -/
structure Engine (V : Type*) where
  config : BacktestConfig
  chandelierConfig : ChandelierConfig := {}
  equityCurveFilter : EquityCurveFilterConfig := {}
  targetStrategies : List String
  requiredIndicators : List String
  capabilities : Dict String StrategyCapability
  deployments : Dict String StrategyDeployment := Dict.empty
  strategySessions : Dict String (List String) := Dict.empty
  intrabar : Option IntrabarPlan := none
  intrabarConfidenceFactor : ℚ := 85 / 100
  hasHtfDirectionFn : Bool := false
  htfIndicatorData : Dict String Snapshot := Dict.empty
  precomputedIndicators : Option (List Snapshot) := none
  deltaConfig : DeltaConfig := Dict.empty
  pipeline : Pipeline
  detect : Snapshot → Option RegimeType
  detectSoft : Snapshot → Option V
  analyzeStructure : List Ohlc → ℤ → Snapshot → Option V
  evaluate : List TradeOutcome → EvaluationRequest V → Option (SignalDecision V)
  filterChain : Option (ℤ → Snapshot → Option String) := none
  currentSessions : ℤ → List String
  stateEdgeOverlay : Option (ℤ → Direction → String → ℚ → Verdict) := none
  entryMetaOverlay : Option (EntryMetaFeatureContext → Verdict) := none
  deriveEntryGroup : SignalDecision V → Ohlc → ℚ → Option EntrySpecGroup
  fillSemanticsTieBreak : TieBreak := .limitFirst
  strategyCategory : String → String

variable {V : Type*}

/-- The arguments of `PortfolioTracker`. -/
def Engine.settings (e : Engine V) : Settings where
  initialBalance := e.config.initialBalance
  maxPositions := e.config.risk.maxPositions
  commissionPerLot := e.config.risk.commissionPerLot
  slippagePoints := e.config.risk.slippagePoints
  contractSize := e.config.position.contractSize
  minVolume :=
    match e.config.simulationMode with
    | .research => 0
    | .executionFeasibility => e.config.position.minVolume
  maxVolume := e.config.position.maxVolume
  maxVolumePerOrder := e.config.risk.maxVolumePerOrder
  maxVolumePerSymbol := e.config.risk.maxVolumePerSymbol
  maxVolumePerDay := e.config.risk.maxVolumePerDay
  dailyLossLimitPct := e.config.risk.dailyLossLimitPct
  maxTradesPerDay := e.config.risk.maxTradesPerDay
  maxTradesPerHour := e.config.risk.maxTradesPerHour
  chandelierConfig := e.chandelierConfig
  endOfDayCloseEnabled := e.config.position.endOfDayCloseEnabled
  endOfDayCloseHourUtc := e.config.position.endOfDayCloseHourUtc
  endOfDayCloseMinuteUtc := e.config.position.endOfDayCloseMinuteUtc
  costModel := e.config.risk.costModel
  equityCurveFilter := e.equityCurveFilter

def toBar (bar : Ohlc) : Bar := ⟨bar.time, bar.openPrice, bar.high, bar.low, bar.close⟩

/-! Evaluating the strategies. -/

/-- What the strategies see at one evaluation. -/
structure View (V : Type*) where
  indicators : Snapshot
  regime : RegimeType
  softRegime : Option V
  barTime : ℤ
  recentBars : List Ohlc
  structureBars : List Ohlc
  htfIndicatorData : Dict String Snapshot
  outcomes : List TradeOutcome

/-- Sessions limit a strategy only while some session is known. -/
def sessionAllowed (allowed current : List String) : Bool :=
  allowed.isEmpty || current.isEmpty || current.any (allowed.contains ·)

def deploymentAllows (e : Engine V) (strategy : String) (sessions : List String) : Bool :=
  match e.deployments.get? strategy with
  | none => true
  | some deployment =>
    deployment.status ≠ .candidate &&
      (deployment.lockedTimeframes.isEmpty ||
        deployment.lockedTimeframes.contains (timeframeKey e.config.timeframe)) &&
      sessionAllowed deployment.lockedSessions sessions

/-- The capability under which a strategy is evaluated. -/
def admittedCapability (e : Engine V) (scope : Scope) (view : View V) (sessions : List String)
    (strategy : String) : Option StrategyCapability :=
  if deploymentAllows e strategy sessions &&
      sessionAllowed ((e.strategySessions.get? strategy).getD []) sessions then
    (e.capabilities.get? strategy).filter fun capability =>
      capability.validScopes.contains scope &&
        capability.neededIndicators.all (view.indicators.contains ·)
  else none

def scopedIndicators (indicators : Snapshot) (names : List String) : Snapshot :=
  names.foldl
    (fun wanted name =>
      match indicators.get? name with
      | some payload => wanted.set name payload
      | none => wanted)
    Dict.empty

def evaluationRequest (e : Engine V) (view : View V) (sessions : List String)
    (marketStructure : Option V) (strategy : String) (capability : StrategyCapability) :
    EvaluationRequest V where
  strategy := strategy
  indicators := scopedIndicators view.indicators capability.neededIndicators
  htfIndicators :=
    if view.htfIndicatorData.contains e.config.timeframe then view.htfIndicatorData
    else view.htfIndicatorData.set e.config.timeframe view.indicators
  regimeHard := view.regime.value
  regimeSoft := view.softRegime
  preComputedAffinity := if e.config.confidence.enableRegimeAffinity then none else some 1
  skipPerformanceTracker := !e.config.confidence.enablePerformanceTracker
  skipCalibrator := !e.config.confidence.enableCalibrator
  marketStructure := marketStructure
  recentBars := view.recentBars
  barTime := view.barTime
  sessionBuckets := sessions

def applyIntrabarDecay (scope : Scope) (decay : ℚ) (decision : SignalDecision V) :
    SignalDecision V :=
  if scope ≠ .intrabar ∨ 1 ≤ decay then decision
  else { decision with confidence := decision.confidence * decay }

/-- A strategy that raises is left out. -/
def evaluateStrategies (e : Engine V) (scope : Scope) (view : View V) : List (SignalDecision V) :=
  let marketStructure := e.analyzeStructure view.structureBars view.barTime view.indicators
  let sessions := if e.strategySessions.items.isEmpty then [] else e.currentSessions view.barTime
  e.targetStrategies.filterMap fun strategy =>
    (admittedCapability e scope view sessions strategy).bind fun capability =>
      (e.evaluate view.outcomes
        (evaluationRequest e view sessions marketStructure strategy capability)).map
        (applyIntrabarDecay scope e.intrabarConfidenceFactor)

/-! Entries. -/

/-- What an entry changes. `openings` is the history of the positions that were opened. -/
structure Book where
  portfolio : Tracker
  acceptedEntries : ℕ := 0
  executionRejections : Dict String ℕ := Dict.empty
  openings : List Position := []

def recordExecutionRejection (b : Book) (reason : String) : Book :=
  let key := if reason = "" then "unspecified" else reason
  { b with
    executionRejections :=
      b.executionRejections.set key ((b.executionRejections.get? key).getD 0 + 1) }

def refusalReason : OpenRefusal → String
  | .maxPositions => "max_positions"
  | .minVolume => "min_volume"
  | .maxVolume => "max_volume"
  | .maxVolumePerOrder => "max_volume_per_order"
  | .maxVolumePerSymbol => "max_volume_per_symbol"
  | .maxVolumePerDay => "max_volume_per_day"
  | .maxTradesPerDay => "max_trades_per_day"
  | .maxTradesPerHour => "max_trades_per_hour"
  | .dailyLossLimitPct => "daily_loss_limit_pct"
  | .equityCurveBelowMa => "equity_curve_below_ma"

/-- The arguments of `execute_entry`, the direction being one of a trade. -/
structure Entry (V : Type*) where
  decision : SignalDecision V
  action : Direction
  bar : Ohlc
  barIndex : ℕ
  atrValue : ℚ
  regime : RegimeType
  fillPrice : Option ℚ := none
  entryScope : Scope := .confirmed

/-- The identifier of a position is random and read by nothing; it is left empty. -/
def openOrder (e : Engine V) (entry : Entry V) (trade : TradeParameters) : OpenOrder where
  signalId := ""
  strategy := entry.decision.strategy
  action := entry.action
  bar := toBar entry.bar
  tradeParams := trade
  regime := entry.regime.value
  confidence := entry.decision.confidence
  barIndex := entry.barIndex
  atrAtEntry := entry.atrValue
  strategyCategory := e.strategyCategory entry.decision.strategy
  timeframe := e.config.timeframe
  exitSpec := entry.decision.exitSpec
  fillPrice := entry.fillPrice
  entryScope := entry.entryScope.text

/-- The gates of the portfolio are asked twice, here and by `open_position`. -/
def openEntry (e : Engine V) (b : Book) (entry : Entry V) (trade : TradeParameters) : Book :=
  match canOpenPosition e.settings b.portfolio (toBar entry.bar) trade with
  | (portfolio, some refusal) =>
    recordExecutionRejection { b with portfolio := portfolio } (refusalReason refusal)
  | (portfolio, none) =>
    let opened := openPosition e.settings portfolio (openOrder e entry trade)
    let b := { b with portfolio := opened }
    match (canOpenPosition e.settings portfolio (toBar entry.bar) trade).2 with
    | some _ => recordExecutionRejection b "portfolio_open_failed"
    | none =>
      { b with
        acceptedEntries := b.acceptedEntries + 1
        openings := b.openings ++ opened.openPositions.drop portfolio.openPositions.length }

def executeEntry (e : Engine V) (b : Book) (entry : Entry V) : Option Book :=
  let query : SizingQuery :=
    { action := entry.action
      currentPrice := entry.fillPrice.getD entry.bar.close
      atrValue := entry.atrValue
      accountBalance := b.portfolio.currentBalance
      timeframe := e.config.timeframe
      exitSpec := entry.decision.exitSpec
      regime := entry.regime }
  match computeTradeParams e.config.position query with
  | .raises => none
  | .valueError => some (recordExecutionRejection b "trade_params_error")
  | .params trade =>
    match resolveTradeParameters e.config.position e.config.simulationMode e.config.timeframe trade
      b.portfolio.currentBalance with
    | .error refusal => some (recordExecutionRejection b refusal.reason)
    | .ok trade => some (openEntry e b entry trade)

/-- `indicators.get("atr14", {}).get("atr", 0.0)`, to be compared with zero. -/
def entryAtr (indicators : Snapshot) : Option ℚ :=
  match indicators.get? "atr14" with
  | none => some 0
  | some none => none
  | some (some payload) =>
    match payload.get? "atr" with
    | none => some 0
    | some (.number value) => some value
    | some _ => none

/-- `float(atr_data.get("atr", 0.0) or 0.0)`, zero without a payload. -/
def referenceAtr (indicators : Snapshot) : Option ℚ :=
  match indicators.get? "atr14" with
  | some (some payload) =>
    match payload.get? "atr" with
    | some (.number value) => some value
    | some .other => none
    | _ => some 0
  | _ => some 0

/-! Pending groups. -/

/-- All members of a group are active as long as the group is kept. -/
structure BacktestPendingGroup (V : Type*) where
  decision : SignalDecision V
  action : Direction
  members : List EntrySpecMember
  expiryBar : ℤ

/-- The price of a fill on this bar; a bar that opens past the boundary fills at its open. -/
def resolvePendingFill (action : Direction) (member : EntrySpecMember) (bar : Ohlc) : Option ℚ :=
  match action, member.entryType with
  | .buy, .limit | .sell, .stop =>
    if member.entryHigh < bar.low then none else some (min bar.openPrice member.entryHigh)
  | .buy, .stop | .sell, .limit =>
    if bar.high < member.entryLow then none else some (max bar.openPrice member.entryLow)
  | _, .market => none

/-- Member, fill price and type. -/
abbrev Trigger := String × ℚ × EntryType

/-- `min(triggers, key=...)` by the member: the first of the smallest. -/
def alphaWinner (first : Trigger) (rest : List Trigger) : Trigger :=
  rest.foldl (fun best trigger => if trigger.1 < best.1 then trigger else best) first

def selectTieBreakWinner (tieBreak : TieBreak) (first : Trigger) (rest : List Trigger) : Trigger :=
  match tieBreak with
  | .limitFirst =>
    ((first :: rest).find? fun trigger => trigger.2.2 = .limit).getD (alphaWinner first rest)
  | .stopFirst =>
    ((first :: rest).find? fun trigger => trigger.2.2 = .stop).getD (alphaWinner first rest)
  | .alpha => alphaWinner first rest

/-- The bar at which decisions are taken, with what is known of it. -/
structure BarContext where
  bar : Ohlc
  barIndex : ℕ
  indicators : Snapshot
  regime : RegimeType

/-- One round over the pending groups: the book and the groups that remain. -/
def checkPendingGroup (e : Engine V) (context : BarContext)
    (loop : Book × List (BacktestPendingGroup V)) (group : BacktestPendingGroup V) :
    Option (Book × List (BacktestPendingGroup V)) :=
  if group.expiryBar < context.barIndex then some loop
  else
    match group.members.filterMap fun member =>
      (resolvePendingFill group.action member context.bar).map fun price =>
        (member.memberId, price, member.entryType) with
    | [] => some (loop.1, loop.2 ++ [group])
    | first :: rest =>
      (entryAtr context.indicators).bind fun atrValue =>
        if 0 < atrValue then
          (executeEntry e loop.1 {
            decision := group.decision
            action := group.action
            bar := context.bar
            barIndex := context.barIndex
            atrValue := atrValue
            regime := context.regime
            fillPrice := some (selectTieBreakWinner e.fillSemanticsTieBreak first rest).2.1 }).map
            fun book => (book, loop.2)
        else some loop

/-! Handling a decision. -/

/-- State of `_CircuitBreaker`. -/
structure CircuitBreaker where
  consecutiveLosses : ℕ := 0
  paused : Bool := false
  pausedAtBar : ℤ := 0
  totalPauses : ℕ := 0
  deriving DecidableEq, Repr

def CircuitBreaker.recordOutcome (config : CircuitBreakerConfig) (breaker : CircuitBreaker)
    (won : Bool) (barIndex : ℕ) : CircuitBreaker :=
  if won then { breaker with consecutiveLosses := 0 }
  else
    let losses := breaker.consecutiveLosses + 1
    if !breaker.paused ∧ config.maxConsecutiveLosses ≤ losses then
      { consecutiveLosses := losses
        paused := true
        pausedAtBar := barIndex
        totalPauses := breaker.totalPauses + 1 }
    else { breaker with consecutiveLosses := losses }

/-- Asking ends a pause whose cooldown is over. -/
def CircuitBreaker.isPaused (config : CircuitBreakerConfig) (breaker : CircuitBreaker)
    (barIndex : ℕ) : Bool × CircuitBreaker :=
  if !breaker.paused then (false, breaker)
  else if 0 < config.cooldownBars ∧ config.cooldownBars ≤ barIndex - breaker.pausedAtBar then
    (false, { breaker with
      paused := false
      consecutiveLosses := 0 })
  else (true, breaker)

/-- `_BacktestSignalState`; `none` is hold. -/
structure BacktestSignalState where
  currentAction : Option Direction := none
  stableBars : ℕ := 0
  armed : Bool := false
  deriving DecidableEq, Repr

structure BlockedEntry where
  source : String
  executionReason : String
  verdict : Verdict
  barTime : ℤ
  barIndex : ℕ
  strategy : String
  direction : Direction
  confidence : ℚ
  regime : String
  price : ℚ
  deriving DecidableEq, Repr

/-- What handling a decision changes. -/
structure Desk (V : Type*) extends Book where
  signalStates : Dict String BacktestSignalState := Dict.empty
  breaker : CircuitBreaker := {}
  pendingGroups : List (BacktestPendingGroup V) := []
  blockedEntryEvents : List BlockedEntry := []

def checkPendingEntries (e : Engine V) (d : Desk V) (context : BarContext) : Option (Desk V) :=
  (d.pendingGroups.foldlM (checkPendingGroup e context) (d.toBook, [])).map fun loop =>
    { d with
      toBook := loop.1
      pendingGroups := loop.2 }

def nextSignalState (minStableBars : ℕ) (state : BacktestSignalState) (action : Option Direction) :
    BacktestSignalState :=
  let stableBars := if action = state.currentAction then state.stableBars + 1 else 1
  { currentAction := action
    stableBars := stableBars
    armed := (action = state.currentAction && state.armed) || minStableBars ≤ stableBars }

def updateStateMachine (e : Engine V) (d : Desk V) (strategy : String)
    (action : Option Direction) : Bool × Desk V :=
  let state := nextSignalState e.config.minPreviewStableBars
    ((d.signalStates.get? strategy).getD {}) action
  (state.armed && action.isSome, { d with signalStates := d.signalStates.set strategy state })

def reject (d : Desk V) (reason : String) : Desk V :=
  { d with toBook := recordExecutionRejection d.toBook reason }

/-- `_resolve_entry_meta_session`. -/
def entrySession (e : Engine V) (barTime : ℤ) : String :=
  let session := (e.currentSessions barTime).headD "unknown"
  if session = "" then "unknown" else session

/-- The overlay that blocks the entry, the one of the state edge first. -/
def overlayBlock (e : Engine V) (context : BarContext) (decision : SignalDecision V)
    (action : Direction) : Option BlockedEntry :=
  let blocked (source reason : String) (verdict : Verdict) : BlockedEntry :=
    { source := source
      executionReason := reason
      verdict := verdict
      barTime := context.bar.time
      barIndex := context.barIndex
      strategy := decision.strategy
      direction := action
      confidence := decision.confidence
      regime := context.regime.value
      price := context.bar.close }
  let stateEdge := e.stateEdgeOverlay.map fun overlay =>
    overlay context.bar.time action decision.strategy decision.confidence
  let entryMeta := e.entryMetaOverlay.map fun overlay =>
    overlay {
      barTime := context.bar.time
      barIndex := context.barIndex
      strategy := decision.strategy
      direction := action
      confidence := decision.confidence
      entryPrice := context.bar.close
      indicators := context.indicators
      regime := context.regime.value
      session := entrySession e context.bar.time }
  ((stateEdge.filter fun verdict => !verdict.allowed).map
    (blocked "state_edge_overlay" "state_edge_filter")).or
    ((entryMeta.filter fun verdict => !verdict.allowed).map
      (blocked "entry_meta_overlay" "entry_meta_filter"))

def pendingGroup (e : Engine V) (context : BarContext) (decision : SignalDecision V)
    (action : Direction) (group : EntrySpecGroup) : BacktestPendingGroup V where
  decision := decision
  action := action
  members := group.members.map fun member =>
    { member with
      entryLow := round member.entryLow 2
      entryHigh := round member.entryHigh 2 }
  expiryBar := context.barIndex + e.config.pendingEntryExpiryBars

/-- The last part of `process_decision`: at the market or as a pending group. -/
def placeEntry (e : Engine V) (d : Desk V) (context : BarContext) (decision : SignalDecision V)
    (action : Direction) : Option (Desk V) :=
  (entryAtr context.indicators).bind fun atrValue =>
    let atMarket : Option (Desk V) :=
      (executeEntry e d.toBook {
        decision := decision
        action := action
        bar := context.bar
        barIndex := context.barIndex
        atrValue := atrValue
        regime := context.regime }).map fun book => { d with toBook := book }
    let group := e.deriveEntryGroup decision context.bar atrValue
    let requiresPending := (e.deployments.get? decision.strategy).any
      StrategyDeployment.requirePendingEntry
    if atrValue ≤ 0 then some d
    else if !e.config.pendingEntryEnabled then atMarket
    else
      match group.filter fun group => !group.allMarket with
      | none =>
        if requiresPending then some (reject d "deployment_requires_pending_entry") else atMarket
      | some group =>
        some { d with
          pendingGroups := d.pendingGroups ++ [pendingGroup e context decision action group] }

/-- The strategy holds as many positions as its deployment allows. -/
def liveLimitReached (e : Engine V) (d : Desk V) (strategy : String) : Bool :=
  let strategyOpen := d.portfolio.openPositions.countP fun pos => pos.strategy = strategy
  ((e.deployments.get? strategy).bind StrategyDeployment.maxLivePositions).any fun limit =>
    limit ≤ (strategyOpen : ℤ)

/-- The gates after the breaker and the state machine. -/
def enterDecision (e : Engine V) (d : Desk V) (context : BarContext) (decision : SignalDecision V)
    (action : Direction) : Option (Desk V) :=
  if d.portfolio.openPositions.any fun pos =>
      pos.strategy = decision.strategy ∧ pos.direction = action then some d
  else if liveLimitReached e d decision.strategy then
    some (reject d "deployment_max_live_positions")
  else
    match overlayBlock e context decision action with
    | some event =>
      let rejected := reject d event.executionReason
      some { rejected with blockedEntryEvents := rejected.blockedEntryEvents ++ [event] }
    | none => placeEntry e d context decision action

/-- The breaker is asked only when it is configured. -/
def askBreaker (e : Engine V) (d : Desk V) (barIndex : ℕ) : Bool × Desk V :=
  match e.config.circuitBreaker with
  | none => (false, d)
  | some config =>
    let answer := d.breaker.isPaused config barIndex
    (answer.1, { d with breaker := answer.2 })

def processDecision (e : Engine V) (context : BarContext) (d : Desk V)
    (decision : SignalDecision V) : Option (Desk V) :=
  let machine (d : Desk V) : Bool × Desk V :=
    if e.config.enableStateMachine then
      updateStateMachine e d decision.strategy decision.direction
    else (true, d)
  match decision.direction with
  | none => some (machine d).2
  | some action =>
    if decision.confidence < e.config.confidence.minConfidence then some d
    else
      let asked := askBreaker e d context.barIndex
      if asked.1 then some asked.2
      else
        let stated := machine asked.2
        if stated.1 then enterDecision e stated.2 context decision action else some stated.2

/-! What the handling of a decision can do to the book. -/

section Cases

variable {e : Engine V} {context : BarContext} {decision : SignalDecision V} {action : Direction}

/-- Nothing is entered, at most a rejection is counted. -/
def Unentered (b c : Book) : Prop := c = b ∨ ∃ reason, c = recordExecutionRejection b reason

/-- An entry of this decision on this bar is executed. -/
def Entered (e : Engine V) (decision : SignalDecision V) (action : Direction) (bar : Ohlc)
    (b c : Book) : Prop :=
  ∃ entry : Entry V, entry.decision = decision ∧ entry.action = action ∧ entry.bar = bar ∧
    executeEntry e b entry = some c

/-- A pending group fills on this bar. -/
def Fills (context : BarContext) (group : BacktestPendingGroup V) : Prop :=
  (context.barIndex : ℤ) ≤ group.expiryBar ∧
    (∃ member ∈ group.members, (resolvePendingFill group.action member context.bar).isSome) ∧
    ∃ atrValue ∈ entryAtr context.indicators, 0 < atrValue

theorem checkPendingGroup_cases {loop next : Book × List (BacktestPendingGroup V)}
    {group : BacktestPendingGroup V} (h : checkPendingGroup e context loop group = some next) :
    next.1 = loop.1 ∨ (Fills context group ∧
      Entered e group.decision group.action context.bar loop.1 next.1) := by
  unfold checkPendingGroup at h
  split at h
  · cases Option.some.inj h
    exact Or.inl rfl
  · rename_i hexpiry
    split at h
    · cases Option.some.inj h
      exact Or.inl rfl
    · rename_i first rest htriggers
      obtain ⟨atrValue, hatr, hfill⟩ := Option.bind_eq_some_iff.mp h
      split at hfill
      · rename_i hpositive
        obtain ⟨book, hbook, rfl⟩ := Option.map_eq_some_iff.mp hfill
        refine Or.inr ⟨⟨not_lt.mp hexpiry, ?_, atrValue, hatr, hpositive⟩,
          _, rfl, rfl, rfl, hbook⟩
        have hfirst : first ∈ first :: rest := List.mem_cons_self
        rw [← htriggers] at hfirst
        obtain ⟨member, hmember, hprice⟩ := List.mem_filterMap.mp hfirst
        obtain ⟨price, hprice, -⟩ := Option.map_eq_some_iff.mp hprice
        exact ⟨member, hmember, Option.isSome_of_eq_some hprice⟩
      · cases Option.some.inj hfill
        exact Or.inl rfl

theorem placeEntry_cases {d next : Desk V}
    (h : placeEntry e d context decision action = some next) :
    Unentered d.toBook next.toBook ∨
      Entered e decision action context.bar d.toBook next.toBook := by
  have hmarket {atrValue : ℚ}
      (hentry : (executeEntry e d.toBook {
        decision := decision
        action := action
        bar := context.bar
        barIndex := context.barIndex
        atrValue := atrValue
        regime := context.regime }).map (fun book => { d with toBook := book }) = some next) :
      Entered e decision action context.bar d.toBook next.toBook := by
    obtain ⟨book, hbook, rfl⟩ := Option.map_eq_some_iff.mp hentry
    exact ⟨_, rfl, rfl, rfl, hbook⟩
  obtain ⟨atrValue, -, hplace⟩ := Option.bind_eq_some_iff.mp h
  dsimp only at hplace
  split at hplace
  · cases Option.some.inj hplace
    exact Or.inl (Or.inl rfl)
  · split at hplace
    · exact Or.inr (hmarket hplace)
    · split at hplace
      · split at hplace
        · cases Option.some.inj hplace
          exact Or.inl (Or.inr ⟨_, rfl⟩)
        · exact Or.inr (hmarket hplace)
      · cases Option.some.inj hplace
        exact Or.inl (Or.inl rfl)

/-- `max_live_positions` of the deployment, when there is one. -/
def maxLivePositions (e : Engine V) (strategy : String) : Option ℤ :=
  (e.deployments.get? strategy).bind StrategyDeployment.maxLivePositions

/-- The gates that a decision passes on the open positions. -/
structure GatesOpen (e : Engine V) (positions : List Position) (strategy : String)
    (action : Direction) : Prop where
  direction : ∀ pos ∈ positions, ¬ (pos.strategy = strategy ∧ pos.direction = action)
  limit : ∀ limit ∈ maxLivePositions e strategy,
    (positions.countP (fun pos => pos.strategy = strategy) : ℤ) < limit

theorem enterDecision_cases {d next : Desk V}
    (h : enterDecision e d context decision action = some next) :
    Unentered d.toBook next.toBook ∨
      (GatesOpen e d.portfolio.openPositions decision.strategy action ∧
        Entered e decision action context.bar d.toBook next.toBook) := by
  unfold enterDecision at h
  split at h
  · cases Option.some.inj h
    exact Or.inl (Or.inl rfl)
  · rename_i hheld
    split at h
    · cases Option.some.inj h
      exact Or.inl (Or.inr ⟨_, rfl⟩)
    · rename_i hlimit
      split at h
      · cases Option.some.inj h
        exact Or.inl (Or.inr ⟨_, rfl⟩)
      · refine (placeEntry_cases h).imp_right fun hentered => ⟨⟨?_, ?_⟩, hentered⟩
        · intro pos hpos hboth
          exact hheld (List.any_eq_true.mpr ⟨pos, hpos, decide_eq_true hboth⟩)
        · intro limit hmem
          by_contra hreached
          apply hlimit
          have hsome : (e.deployments.get? decision.strategy).bind
              StrategyDeployment.maxLivePositions = some limit := hmem
          unfold liveLimitReached
          dsimp only
          rw [hsome]
          exact decide_eq_true (not_lt.mp hreached)

theorem toBook_askBreaker (e : Engine V) (d : Desk V) (barIndex : ℕ) :
    (askBreaker e d barIndex).2.toBook = d.toBook := by
  unfold askBreaker
  split
  · rfl
  · rfl

/-- What enters has passed the breaker and the gates. -/
theorem processDecision_cases {d next : Desk V}
    (h : processDecision e context d decision = some next) :
    Unentered d.toBook next.toBook ∨
      ∃ action, (askBreaker e d context.barIndex).1 = false ∧
        GatesOpen e d.portfolio.openPositions decision.strategy action ∧
        Entered e decision action context.bar d.toBook next.toBook := by
  have hbook := toBook_askBreaker e d context.barIndex
  unfold processDecision at h
  dsimp only at h
  split at h
  · cases Option.some.inj h
    split
    · exact Or.inl (Or.inl rfl)
    · exact Or.inl (Or.inl rfl)
  · rename_i action _
    split at h
    · cases Option.some.inj h
      exact Or.inl (Or.inl rfl)
    · rw [← hbook]
      split at h
      · cases Option.some.inj h
        exact Or.inl (Or.inl rfl)
      · rename_i hasked
        have hunpaused := eq_false_of_ne_true hasked
        split at h
        · split at h
          · exact (enterDecision_cases h).imp_right fun hentered => ⟨action, hunpaused, hentered⟩
          · cases Option.some.inj h
            exact Or.inl (Or.inl rfl)
        · split at h
          · exact (enterDecision_cases h).imp_right fun hentered => ⟨action, hunpaused, hentered⟩
          · cases Option.some.inj h
            exact Or.inl (Or.inl rfl)

end Cases

end MT5Services.BacktestDecisions
