import MT5Services.BacktestDecisions
import MT5Services.IntrabarGuard

/-!
The intrabar sub-loop of the backtest. The child bars of a parent bar are replayed one by
one: the parent bar is synthesized from the children so far, the intrabar strategies are
evaluated on it, a coordinator counts how long a strategy keeps its direction, and an
armed strategy enters unless the guard has its trade already. What the loop gets of the
parent bar is in its call.
-/
namespace MT5Services.BacktestIntrabar

open BacktestData BacktestDecisions ExitRules IntrabarSynthesis Portfolio Prefixes Runs TradeSizing

structure StabilityState where
  direction : Direction
  stableCount : ℕ
  parentBarTime : ℤ
  lastConfidence : ℚ
  armedEmitted : Bool
  deriving DecidableEq, Repr

/-- What one child bar brought about: the evaluations, the armed signals, the entries. -/
structure ChildRecord (V : Type*) where
  parent : ℤ
  child : ℤ
  decisions : List (SignalDecision V)
  armed : List (String × Direction)
  entries : List Position

/-- `IntrabarContext` with the state of its coordinator and guard. The child bars are read
from the data; `history` records what the loops did. -/
structure IntrabarContext (V : Type*) where
  states : Dict String StabilityState := Dict.empty
  updatesTotal : ℕ := 0
  armedTotal : ℕ := 0
  guard : IntrabarGuard.Executor := IntrabarGuard.start
  tradesRecorded : ℕ := 0
  blocksTradedThisBar : ℕ := 0
  confirmedValidations : ℕ := 0
  totalIntrabarEvaluations : ℕ := 0
  totalArmedSignals : ℕ := 0
  totalIntrabarEntries : ℕ := 0
  skippedLowCoverage : ℕ := 0
  history : List (ChildRecord V) := []

variable {V : Type*}

/-- `IntrabarTradeCoordinator.update`; true when the signal is armed. -/
def coordinatorUpdate (plan : IntrabarPlan) (context : IntrabarContext V) (strategy : String)
    (direction : Direction) (confidence : ℚ) (parentBarTime : ℤ) : Bool × IntrabarContext V :=
  let updated (state : StabilityState) : IntrabarContext V :=
    { context with
      updatesTotal := context.updatesTotal + 1
      states := context.states.set strategy state }
  let first : StabilityState := ⟨direction, 1, parentBarTime, confidence, false⟩
  if !plan.enabledStrategies.contains strategy then (false, context)
  else
    match context.states.get? strategy with
    | none => (false, updated first)
    | some state =>
      if state.parentBarTime ≠ parentBarTime ∨ state.direction ≠ direction then
        (false, updated first)
      else
        let state :=
          { state with
            stableCount := state.stableCount + 1
            lastConfidence := confidence }
        if plan.minStableBars ≤ state.stableCount ∧ plan.minConfidence ≤ confidence ∧
            state.armedEmitted = false then
          (true, { updated { state with armedEmitted := true } with
            armedTotal := context.armedTotal + 1 })
        else (false, updated state)

/-- What the loop is given of the parent bar. -/
structure SubLoopCall (V : Type*) where
  parentTime : ℤ
  barIndex : ℕ
  atrRef : ℚ
  regime : RegimeType
  softRegime : Option V
  recentBars : List Ohlc
  structureBars : List Ohlc
  historicalWindow : List Ohlc
  htfIndicatorData : Dict String Snapshot
  outcomes : List TradeOutcome

/-- What the loop changes. -/
structure SubLoop (V : Type*) where
  book : Book
  context : IntrabarContext V

def directionText : Direction → String
  | .buy => "buy"
  | .sell => "sell"

def guardKey (e : Engine V) (strategy : String) (bar : ℤ) : IntrabarGuard.PositionKey :=
  ⟨e.config.symbol, e.config.timeframe, strategy, bar⟩

def tryIntrabarEntry (e : Engine V) (call : SubLoopCall V) (synthesized : Ohlc)
    (decision : SignalDecision V) (action : Direction) (loop : SubLoop V) : Option (SubLoop V) :=
  let key := guardKey e decision.strategy synthesized.time
  if call.atrRef ≤ 0 then some loop
  else if !IntrabarGuard.canTrade loop.context.guard key (directionText action) then
    some { loop with
      context := { loop.context with
        blocksTradedThisBar := loop.context.blocksTradedThisBar + 1 } }
  else
    (executeEntry e loop.book {
      decision := decision
      action := action
      bar := synthesized
      barIndex := call.barIndex
      atrValue := call.atrRef
      regime := call.regime
      entryScope := .intrabar }).map fun book =>
      { book := book
        context := { loop.context with
          guard := IntrabarGuard.recordTrade loop.context.guard key (directionText action)
          tradesRecorded := loop.context.tradesRecorded + 1
          totalIntrabarEntries := loop.context.totalIntrabarEntries + 1 } }

/-- One decision on a synthesized bar; the armed signals are collected. -/
def handleIntrabarDecision (e : Engine V) (plan : IntrabarPlan) (call : SubLoopCall V)
    (synthesized : Ohlc) (loop : SubLoop V × List (String × Direction))
    (decision : SignalDecision V) : Option (SubLoop V × List (String × Direction)) :=
  match decision.direction with
  | none => some loop
  | some action =>
    let answer := coordinatorUpdate plan loop.1.context decision.strategy action
      decision.confidence call.parentTime
    if answer.1 then
      (tryIntrabarEntry e call synthesized decision action {
        book := loop.1.book
        context := { answer.2 with
          totalArmedSignals := answer.2.totalArmedSignals + 1 } }).map
        fun entered => (entered, loop.2 ++ [(decision.strategy, action)])
    else some ({ loop.1 with context := answer.2 }, loop.2)

def intrabarView (call : SubLoopCall V) (indicators : Snapshot) : View V where
  indicators := indicators
  regime := call.regime
  softRegime := call.softRegime
  barTime := call.parentTime
  recentBars := call.recentBars
  structureBars := call.structureBars
  htfIndicatorData := call.htfIndicatorData
  outcomes := call.outcomes

/-- The evaluations of the intrabar strategies on a synthesized bar. -/
def intrabarDecisions (e : Engine V) (plan : IntrabarPlan) (call : SubLoopCall V)
    (synthesized : Ohlc) : Option (List (SignalDecision V)) :=
  let indicators := computeIndicators e.pipeline e.config.timeframe
    (call.historicalWindow ++ [synthesized]) (some plan.indicatorNames)
  if indicators.items = [] then none
  else some (evaluateStrategies e .intrabar (intrabarView call indicators))

/-- The round of the child bar that comes last in the accumulated ones. -/
def runChild (e : Engine V) (plan : IntrabarPlan) (call : SubLoopCall V) (loop : SubLoop V)
    (accumulated : List Ohlc) : Option (SubLoop V) :=
  match accumulated.getLast?, synthesizeParentBar (accumulated.map Ohlc.toCandle) e.config.symbol
    e.config.timeframe call.parentTime with
  | some child, some synthesized =>
    match intrabarDecisions e plan call synthesized with
    | none => some loop
    | some decisions =>
      let counted : SubLoop V :=
        { loop with
          context := { loop.context with
            totalIntrabarEvaluations :=
              loop.context.totalIntrabarEvaluations + decisions.length } }
      (decisions.foldlM (handleIntrabarDecision e plan call synthesized) (counted, [])).map
        fun result =>
          { result.1 with
            context := { result.1.context with
              history := result.1.context.history ++ [{
                parent := call.parentTime
                child := child.time
                decisions := decisions
                armed := result.2
                entries := result.1.book.openings.drop loop.book.openings.length }] } }
  | _, _ => none

/-- Coordinator and guard forget the bar. -/
def closeParentBar (e : Engine V) (parentTime : ℤ) (loop : SubLoop V) : SubLoop V :=
  let closed := loop.context.states.keys.filter fun strategy =>
    (loop.context.states.get? strategy).any fun state => state.parentBarTime = parentTime
  { loop with
    context := { loop.context with
      states := closed.foldl Dict.pop loop.context.states
      guard := IntrabarGuard.onParentBarClose loop.context.guard e.config.symbol
        e.config.timeframe parentTime } }

/-- The coverage check turns the parent bar away. -/
def lowCoverage (e : Engine V) (plan : IntrabarPlan) (childBars : List Ohlc) : Bool :=
  LowCoverage ⟨e.config.symbol, plan.childTf, e.config.timeframe⟩ plan.minCoverageRatio
    (childBars.map Ohlc.time)

/-- The child bars so far, at each of them. -/
def accumulations (childBars : List Ohlc) : List (List Ohlc) :=
  onFronts (fun _ seen => seen) childBars

def runIntrabarSubLoop (e : Engine V) (plan : IntrabarPlan) (call : SubLoopCall V)
    (childBars : List Ohlc) (loop : SubLoop V) : Option (SubLoop V) :=
  if childBars = [] then some loop
  else if lowCoverage e plan childBars then
    some { loop with
      context := { loop.context with
        skippedLowCoverage := loop.context.skippedLowCoverage + 1 } }
  else
    (run (runChild e plan call) loop (accumulations childBars)).map
      (closeParentBar e call.parentTime)

/-- An intrabar position of the same direction on this bar; finding one is counted. -/
def checkConfirmedCoordination (e : Engine V) (context : IntrabarContext V) (strategy : String)
    (direction : Direction) (barTime : ℤ) : Bool × IntrabarContext V :=
  match context.guard.positions.get? (guardKey e strategy barTime) with
  | none => (false, context)
  | some held =>
    (held = directionText direction,
      { context with
        confirmedValidations := context.confirmedValidations + 1 })

/-- `intrabar_stats`. -/
structure IntrabarStats where
  childTf : String
  totalIntrabarEvaluations : ℕ
  totalArmedSignals : ℕ
  totalIntrabarEntries : ℕ
  skippedLowCoverage : ℕ
  updatesTotal : ℕ
  armedTotal : ℕ
  activeStates : List (String × StabilityState)
  tradesRecorded : ℕ
  blocksTradedThisBar : ℕ
  confirmedValidations : ℕ
  activeTradedKeys : ℕ
  activePositions : ℕ
  deriving DecidableEq, Repr

def intrabarStats (plan : IntrabarPlan) (context : IntrabarContext V) : IntrabarStats where
  childTf := plan.childTf
  totalIntrabarEvaluations := context.totalIntrabarEvaluations
  totalArmedSignals := context.totalArmedSignals
  totalIntrabarEntries := context.totalIntrabarEntries
  skippedLowCoverage := context.skippedLowCoverage
  updatesTotal := context.updatesTotal
  armedTotal := context.armedTotal
  activeStates := context.states.items
  tradesRecorded := context.tradesRecorded
  blocksTradedThisBar := context.blocksTradedThisBar
  confirmedValidations := context.confirmedValidations
  activeTradedKeys := context.guard.traded.length
  activePositions := context.guard.positions.items.length

/-! What an intrabar decision can do. -/

section Cases

variable {e : Engine V} {plan : IntrabarPlan} {call : SubLoopCall V} {synthesized : Ohlc}
  {decision : SignalDecision V}

/-- The coordinator leaves the guard and the history alone. -/
theorem coordinatorUpdate_frame (plan : IntrabarPlan) (context : IntrabarContext V)
    (strategy : String) (direction : Direction) (confidence : ℚ) (parentBarTime : ℤ) :
    (coordinatorUpdate plan context strategy direction confidence parentBarTime).2.guard =
        context.guard ∧
      (coordinatorUpdate plan context strategy direction confidence parentBarTime).2.history =
        context.history := by
  unfold coordinatorUpdate
  dsimp only
  split
  · exact ⟨rfl, rfl⟩
  · split
    · exact ⟨rfl, rfl⟩
    · split
      · exact ⟨rfl, rfl⟩
      · split
        · exact ⟨rfl, rfl⟩
        · exact ⟨rfl, rfl⟩

/-- An intrabar decision is armed and its trade not yet made. -/
def Enters (e : Engine V) (plan : IntrabarPlan) (call : SubLoopCall V) (synthesized : Ohlc)
    (context : IntrabarContext V) (decision : SignalDecision V) (action : Direction) : Prop :=
  0 < call.atrRef ∧
    (coordinatorUpdate plan context decision.strategy action decision.confidence
      call.parentTime).1 = true ∧
    IntrabarGuard.canTrade context.guard (guardKey e decision.strategy synthesized.time)
      (directionText action) = true

theorem tryIntrabarEntry_cases {action : Direction} {loop next : SubLoop V}
    (h : tryIntrabarEntry e call synthesized decision action loop = some next) :
    next.context.history = loop.context.history ∧
      (next.book = loop.book ∨
        (0 < call.atrRef ∧
          IntrabarGuard.canTrade loop.context.guard
            (guardKey e decision.strategy synthesized.time) (directionText action) = true ∧
          Entered e decision action synthesized loop.book next.book)) := by
  unfold tryIntrabarEntry at h
  dsimp only at h
  split at h
  · cases Option.some.inj h
    exact ⟨rfl, Or.inl rfl⟩
  · rename_i hatr
    split at h
    · cases Option.some.inj h
      exact ⟨rfl, Or.inl rfl⟩
    · rename_i hguard
      obtain ⟨book, hbook, rfl⟩ := Option.map_eq_some_iff.mp h
      refine ⟨rfl, Or.inr ⟨not_le.mp hatr, ?_, _, rfl, rfl, rfl, hbook⟩⟩
      simpa using hguard

theorem handleIntrabarDecision_cases {loop next : SubLoop V × List (String × Direction)}
    (h : handleIntrabarDecision e plan call synthesized loop decision = some next) :
    next.1.context.history = loop.1.context.history ∧
      (next.1.book = loop.1.book ∨
        ∃ action ∈ decision.direction,
          Enters e plan call synthesized loop.1.context decision action ∧
            Entered e decision action synthesized loop.1.book next.1.book) := by
  unfold handleIntrabarDecision at h
  split at h
  · cases Option.some.inj h
    exact ⟨rfl, Or.inl rfl⟩
  · rename_i action haction
    obtain ⟨hguard, hhistory⟩ := coordinatorUpdate_frame plan loop.1.context decision.strategy
      action decision.confidence call.parentTime
    dsimp only at h
    split at h
    · rename_i harmed
      obtain ⟨entered, hentered, rfl⟩ := Option.map_eq_some_iff.mp h
      obtain ⟨hkept, hbook⟩ := tryIntrabarEntry_cases hentered
      refine ⟨hkept.trans hhistory, hbook.imp_right ?_⟩
      rintro ⟨hatr, htrade, hopens⟩
      rw [hguard] at htrade
      exact ⟨action, haction, ⟨hatr, harmed, htrade⟩, hopens⟩
    · cases Option.some.inj h
      exact ⟨hhistory, Or.inl rfl⟩

end Cases

end MT5Services.BacktestIntrabar
