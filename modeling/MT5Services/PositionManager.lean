import MT5Services.ExitRules
import MT5Services.Runs

/-!
Tracked positions and the exits that `PositionManager` runs on every price. A tracked
position comes from `track_position` or from the recovery of an open broker position;
`update_price` notes the price, evaluates the exit rules and asks the broker to move
the stop. A step is one call, with the clock, the indicator readings and the broker's
answer in its label. What a position protects, its stop, its peak and the breakeven
flag, is compared over every stretch of a run in which it stays tracked.
-/
namespace MT5Services.PositionManager

open PyNumber ExitRules Runs

/-- The peak is unset or the best price seen, which is the highest one for a buy. -/
structure TrackedPosition where
  ticket : ℤ
  action : Direction
  entryPrice : ℚ
  stopLoss : ℚ
  atrAtEntry : ℚ
  timeframe : String
  strategy : String
  regime : Option String
  openedAt : ℤ
  initialRisk : ℚ
  initialStopLoss : ℚ
  peakPrice : Option ℚ
  barsHeld : ℤ
  breakevenActivated : Bool
  strategyCategory : String
  exitSpec : ExitSpec
  slAtrMult : ℚ
  recentSignalDirs : List Direction
  lastExitReason : Option CloseReason
  lastRMultiple : ℚ
  lastExitRegime : String
  breakevenApplied : Bool
  highestPrice : Option ℚ
  lowestPrice : Option ℚ
  currentPrice : Option ℚ
  dirty : Bool
  version : ℕ
  peak_best : peakPrice = none ∨
    peakPrice = match action with
      | .buy => highestPrice
      | .sell => lowestPrice

/-- The arguments of `track_position` that the exits read. -/
structure Opening where
  action : Direction
  entryPrice : ℚ
  stopLoss : ℚ
  atrValue : ℚ
  slDistance : ℚ
  timeframe : String := ""
  strategy : String := ""
  regime : Option String := none
  openedAt : ℤ
  fillPrice : Option ℚ := none
  breakevenApplied : Bool := false
  highestPrice : Option ℚ := none
  lowestPrice : Option ℚ := none
  currentPrice : Option ℚ := none
  exitSpec : ExitSpec := {}
  strategyCategory : String := ""

/-- The best price a position starts with: the given one, else its entry on its own side. -/
def startingExtreme (given : Option ℚ) (ownSide : Bool) (entryPrice : ℚ) : Option ℚ :=
  match given with
  | some price => some price
  | none => if ownSide then some entryPrice else none

def trackPosition (ticket : ℤ) (o : Opening) : TrackedPosition :=
  let entryPrice := o.fillPrice.getD o.entryPrice
  { ticket := ticket
    action := o.action
    entryPrice := entryPrice
    stopLoss := o.stopLoss
    atrAtEntry := o.atrValue
    timeframe := o.timeframe
    strategy := o.strategy
    regime := o.regime
    openedAt := o.openedAt
    initialRisk := |entryPrice - o.stopLoss|
    initialStopLoss := o.stopLoss
    peakPrice := none
    barsHeld := 0
    breakevenActivated := false
    strategyCategory := o.strategyCategory
    exitSpec := o.exitSpec
    slAtrMult := if 0 < o.atrValue ∧ 0 < o.slDistance then round (o.slDistance / o.atrValue) 4 else 0
    recentSignalDirs := []
    lastExitReason := none
    lastRMultiple := 0
    lastExitRegime := ""
    breakevenApplied := o.breakevenApplied
    highestPrice := startingExtreme o.highestPrice (o.action = .buy) entryPrice
    lowestPrice := startingExtreme o.lowestPrice (o.action = .sell) entryPrice
    currentPrice := o.currentPrice
    dirty := false
    version := 0
    peak_best := Or.inl rfl }

/-- An open broker position with the context merged from its comment and the database. -/
structure BrokerPosition where
  action : Direction
  priceOpen : ℚ
  stopLoss : ℚ
  openedAt : ℤ
  entryPrice : Option ℚ := none
  fillPrice : Option ℚ := none
  atrAtEntry : Option ℚ := none
  timeframe : String := ""
  strategy : String := ""
  regime : Option String := none
  highestPrice : Option ℚ := none
  lowestPrice : Option ℚ := none
  currentPrice : Option ℚ := none
  breakevenApplied : Bool := false
  initialStopLoss : Option ℚ := none

def defaultAtrFromPosition (priceOpen stopLoss : ℚ) : ℚ :=
  if stopLoss = 0 then 0 else |priceOpen - stopLoss| / 2

/-- Initial stop and risk of a recovered position: the persisted stop if there is one,
else the current stop, replaced by an estimate when its distance is too small. -/
def recoverBaseline (action : Direction) (entryPrice stopLoss atrAtEntry : ℚ)
    (persisted : Option ℚ) : ℚ × ℚ :=
  let persisted := persisted.filter (0 < ·)
  let initial := persisted.getD stopLoss
  let risk := |entryPrice - initial|
  if initial ≤ 0 then (0, 0)
  else if 0 < atrAtEntry ∧ risk < 1 / 10 * atrAtEntry ∧ persisted = none then
    let estimated := atrAtEntry * (3 / 2)
    match action with
    | .buy => (entryPrice - estimated, estimated)
    | .sell => (entryPrice + estimated, estimated)
  else (initial, risk)

/-- The round of `sync_open_positions` for one broker position. -/
def recoverPosition (ticket : ℤ) (b : BrokerPosition) : TrackedPosition :=
  let openPrice := orElse b.entryPrice b.priceOpen
  let entryPrice := orElse b.fillPrice openPrice
  let atrAtEntry := orElse b.atrAtEntry (defaultAtrFromPosition openPrice b.stopLoss)
  let baseline := recoverBaseline b.action entryPrice b.stopLoss atrAtEntry b.initialStopLoss
  let stopInProfit : Bool :=
    match b.action with
    | .buy => openPrice ≤ b.stopLoss
    | .sell => b.stopLoss ≤ openPrice ∧ 0 < b.stopLoss
  let breakevenApplied := b.breakevenApplied || stopInProfit
  { ticket := ticket
    action := b.action
    entryPrice := entryPrice
    stopLoss := b.stopLoss
    atrAtEntry := atrAtEntry
    timeframe := b.timeframe
    strategy := b.strategy
    regime := b.regime
    openedAt := b.openedAt
    initialRisk := baseline.2
    initialStopLoss := baseline.1
    peakPrice := none
    barsHeld := 0
    breakevenActivated := breakevenApplied
    strategyCategory := ""
    exitSpec := {}
    slAtrMult :=
      if 0 < atrAtEntry ∧ 0 < baseline.2 then round (baseline.2 / atrAtEntry) 4
      else if 0 < atrAtEntry ∧ 0 < b.stopLoss then
        round (|entryPrice - b.stopLoss| / atrAtEntry) 4
      else 0
    recentSignalDirs := []
    lastExitReason := none
    lastRMultiple := 0
    lastExitRegime := ""
    breakevenApplied := breakevenApplied
    highestPrice := startingExtreme b.highestPrice (b.action = .buy) openPrice
    lowestPrice := startingExtreme b.lowestPrice (b.action = .sell) openPrice
    currentPrice := b.currentPrice
    dirty := false
    version := 0
    peak_best := Or.inl rfl }

/-- What the indicator source and the regime detector report; `none` where they have
nothing or the detector fails. -/
structure Readings where
  atr : Option ℚ := none
  regime : Option String := none
  deriving DecidableEq, Repr

/-- What `modify_positions` answers: an exception, a result that is no report, or the
tickets it modified and the errors. -/
inductive ModifyAnswer
  | raises
  | unreported
  | report (modified : List ℤ) (failed : List String)
  deriving DecidableEq, Repr

/-- `modify_sl` takes the answer for a success. A report that names nothing counts. -/
def ModifyAnswer.accepts (answer : ModifyAnswer) (ticket : ℤ) : Bool :=
  match answer with
  | .raises => false
  | .unreported => true
  | .report modified failed =>
    (modified = [] ∨ ticket ∈ modified) ∧ (failed = [] ∨ ticket ∈ modified)

/-- One call of `update_price`; without readings the indicator source raises. -/
structure Tick where
  price : ℚ
  now : ℤ
  readings : Option Readings := some {}
  answer : ModifyAnswer

def timeframeSeconds (timeframe : String) : ℤ :=
  let mapping : List (String × ℤ) :=
    [ ("M1", 60), ("M5", 300), ("M15", 900), ("M30", 1800), ("H1", 3600), ("H4", 14400),
      ("D1", 86400), ("W1", 604800) ]
  (mapping.lookup timeframe.toUpper).getD 60

def computeBarsHeld (pos : TrackedPosition) (now : ℤ) : ℤ :=
  max 0 ((now - pos.openedAt).tdiv (timeframeSeconds pos.timeframe))

def getCurrentAtr (pos : TrackedPosition) (readings : Readings) : ℚ :=
  match readings.atr with
  | some atr => if 0 < atr then atr else pos.atrAtEntry
  | none => pos.atrAtEntry

def getCurrentRegime (pos : TrackedPosition) (regime : Option String) : String :=
  regime.getD (pos.regime.getD "")

/-- The first half of `update_price`: a better price than every one before is the peak. -/
def notePrice (pos : TrackedPosition) (price : ℚ) : TrackedPosition :=
  match haction : pos.action with
  | .buy =>
    if ∀ highest ∈ pos.highestPrice, highest < price then
      { pos with
        currentPrice := some price
        highestPrice := some price
        peakPrice := some price
        version := pos.version + 1
        dirty := true
        peak_best := Or.inr (by rw [haction]) }
    else { pos with currentPrice := some price }
  | .sell =>
    if ∀ lowest ∈ pos.lowestPrice, price < lowest then
      { pos with
        currentPrice := some price
        lowestPrice := some price
        peakPrice := some price
        version := pos.version + 1
        dirty := true
        peak_best := Or.inr (by rw [haction]) }
    else { pos with currentPrice := some price }

/-- The call of `evaluate_exit`: the bar is the current price alone. -/
def exitQuery (pos : TrackedPosition) (tick : Tick) (readings : Readings) : ExitQuery where
  action := pos.action
  entryPrice := pos.entryPrice
  barHigh := tick.price
  barLow := tick.price
  barClose := tick.price
  currentStopLoss := pos.stopLoss
  initialRisk := pos.initialRisk
  peakPrice := orElse pos.peakPrice pos.entryPrice
  currentAtr := getCurrentAtr pos readings
  barsHeld := computeBarsHeld pos tick.now
  breakevenAlreadyActivated := pos.breakevenActivated
  recentSignalDirs := pos.recentSignalDirs
  strategyCategory := pos.strategyCategory
  currentRegime := getCurrentRegime pos readings.regime
  timeframe := pos.timeframe
  initialSlAtrMult := pos.slAtrMult
  atrAtEntry := pos.atrAtEntry
  exitSpec := pos.exitSpec

inductive ChandelierAction
  | modifySl (newSl : ℚ)
  | closeMarket (reason : CloseReason)
  deriving DecidableEq, Repr

/-- A reversal or a timeout closes at market; otherwise a new level moves the stop. -/
def pendingAction (stopLoss : ℚ) (result : ExitCheckResult) : Option ChandelierAction :=
  match result.shouldClose, result.closeReason with
  | true, some .signalExit => some (.closeMarket .signalExit)
  | true, some .timeout => some (.closeMarket .timeout)
  | _, _ =>
    match result.newStopLoss with
    | some newSl => if newSl ≠ stopLoss then some (.modifySl newSl) else none
    | none => none

def recordResult (pos : TrackedPosition) (result : ExitCheckResult) (regime : String) :
    TrackedPosition :=
  let activates := result.breakevenActivated && !pos.breakevenActivated
  { pos with
    version := if activates then pos.version + 1 else pos.version
    dirty := pos.dirty || activates
    breakevenActivated := result.breakevenActivated
    lastRMultiple := result.rMultiple
    lastExitRegime := regime
    lastExitReason := result.closeReason.or pos.lastExitReason }

/-- The position after the evaluation and what is left to do outside the lock. An
exception ends the call with nothing to do. -/
def evaluateChandelierExit (config : ChandelierConfig) (pos : TrackedPosition) (tick : Tick) :
    TrackedPosition × Option ChandelierAction :=
  if pos.initialRisk ≤ 0 then (pos, none)
  else
    let held := { pos with barsHeld := computeBarsHeld pos tick.now }
    match tick.readings with
    | none => (held, none)
    | some readings =>
      match evaluateExit config (exitQuery pos tick readings) with
      | none => (held, none)
      | some result =>
        (recordResult held result (getCurrentRegime pos readings.regime),
          pendingAction pos.stopLoss result)

def modifySl (pos : TrackedPosition) (newSl : ℚ) (answer : ModifyAnswer) : TrackedPosition :=
  if answer.accepts pos.ticket then { pos with stopLoss := round newSl 2 } else pos

/-- A market close leaves the position to the next reconciliation. -/
def applyChandelierAction (pos : TrackedPosition) (action : Option ChandelierAction)
    (answer : ModifyAnswer) : TrackedPosition :=
  match action with
  | some (.modifySl newSl) => modifySl pos newSl answer
  | some (.closeMarket _) => pos
  | none => pos

def updatePrice (config : ChandelierConfig) (pos : TrackedPosition) (tick : Tick) :
    TrackedPosition :=
  let evaluated := evaluateChandelierExit config (notePrice pos tick.price) tick
  applyChandelierAction evaluated.1 evaluated.2 tick.answer

structure SignalEvent where
  scope : String
  direction : Option Direction
  strategy : String
  timeframe : String
  deriving DecidableEq, Repr

/-- `on_signal_event` for one position; only confirmed events with a side count. -/
def noteSignal (config : ChandelierConfig) (event : SignalEvent) (pos : TrackedPosition) :
    TrackedPosition :=
  match event.direction with
  | none => pos
  | some direction =>
    if event.scope = "confirmed" ∧ event.strategy ≠ "" ∧ event.timeframe ≠ "" ∧
        pos.strategy = event.strategy ∧ pos.timeframe = event.timeframe then
      let dirs := pos.recentSignalDirs ++ [direction]
      let maxKeep := config.signalExitConfirmationBars + 2
      { pos with
        recentSignalDirs := if maxKeep < dirs.length then takeLast dirs maxKeep else dirs }
    else pos

/-- The round of `_check_regime_changes` for one position; a lower aggression is taken
over at once, a higher one by half. -/
def adjustAggression (config : ChandelierConfig) (regime : Option String)
    (pos : TrackedPosition) : TrackedPosition :=
  let current := getCurrentRegime pos regime
  match pos.exitSpec.aggression with
  | .number old =>
    let target := resolveAggression pos.strategyCategory current config.aggressionOverrides
    let adjusted := if target < old then target else old + (target - old) * (1 / 2)
    if current = "" ∨ current = pos.regime.getD "" ∨ pos.strategyCategory = "" ∨
        |target - old| < 5 / 100 then pos
    else
      { pos with
        exitSpec :=
          { pos.exitSpec with aggression := .number (round (max 0 (min 1 adjusted)) 4) }
        lastExitRegime := current }
  | .missing => pos
  | .malformed => pos

abbrev Positions := Dict ℤ TrackedPosition

inductive Act
  | track (ticket : ℤ) (opening : Opening)
  | recover (ticket : ℤ) (broker : BrokerPosition)
  | remove (ticket : ℤ)
  | signal (event : SignalEvent)
  | regimeChange (ticket : ℤ) (regime : Option String)
  | price (ticket : ℤ) (tick : Tick)

/-- Change one position in place; a ticket that is not tracked is ignored. -/
def modifyAt (s : Positions) (ticket : ℤ) (change : TrackedPosition → TrackedPosition) :
    Positions :=
  s.mapValues fun key pos => if key = ticket then change pos else pos

def apply (config : ChandelierConfig) (s : Positions) : Act → Positions
  | .track ticket opening => s.set ticket (trackPosition ticket opening)
  | .recover ticket broker =>
    if ticket ≤ 0 ∨ s.contains ticket then s else s.set ticket (recoverPosition ticket broker)
  | .remove ticket => s.pop ticket
  | .signal event => s.mapValues fun _ pos => noteSignal config event pos
  | .regimeChange ticket regime => modifyAt s ticket (adjustAggression config regime)
  | .price ticket tick => modifyAt s ticket fun pos => updatePrice config pos tick

def step (config : ChandelierConfig) (s : Positions) (a : Act) : Option Positions :=
  some (apply config s a)

def start : Positions := Dict.empty

/-- What a position protects is at least as tight as it was. -/
structure Tightened (old new : TrackedPosition) : Prop where
  action : new.action = old.action
  stop : old.action.AtLeast old.stopLoss new.stopLoss
  peak : ∀ before, old.peakPrice = some before →
    ∃ after, new.peakPrice = some after ∧ old.action.AtLeast before after
  breakeven : old.breakevenActivated = true → new.breakevenActivated = true

def TightenedAt (ticket : ℤ) (s t : Positions) : Prop :=
  ∀ old, s.get? ticket = some old → ∃ new, t.get? ticket = some new ∧ Tightened old new

/-- The step does not open or drop the position itself. -/
def Act.Keeps (ticket : ℤ) : Act → Prop
  | .track other _ => other ≠ ticket
  | .remove other => other ≠ ticket
  | _ => True

/-- Protection only tightens: over every stretch of the run in which a position stays
tracked, its end is at least as tight as its beginning. -/
def OnlyTightens (config : ChandelierConfig) (labels : List Act) : Prop :=
  ∀ ticket front stretch back s t, labels = front ++ stretch ++ back →
    run (step config) start front = some s → run (step config) s stretch = some t →
    (∀ a ∈ stretch, a.Keeps ticket) → TightenedAt ticket s t

/-- Barrier mode: breakeven is not active, and a barrier level that the broker takes over
as the new stop is no looser than the old one. -/
def BarrierKeeps (q : ExitQuery) (b : Barriers) (accepts : Bool) : Prop :=
  q.breakevenAlreadyActivated = false ∧
    (¬b.Degenerate → ∀ reason level, hitBarrier q b = some (reason, level) → accepts = true →
      level ≠ q.currentStopLoss → q.action.AtLeast q.currentStopLoss (round level 2))

/-- Chandelier mode: the price is not at the stop while breakeven is active, and a
trailing level beyond the stop does not round to the other side of it. -/
def TrailKeeps (config : ChandelierConfig) (q : ExitQuery) (profile : ExitProfile)
    (accepts : Bool) : Prop :=
  (q.stopReachedAt q.currentStopLoss = true → q.breakevenAlreadyActivated = false) ∧
    (trails config q profile = true → accepts = true →
      q.action.better q.currentStopLoss (trailLevel config q profile q.peakPrice) = true →
      q.action.AtLeast q.currentStopLoss (round (trailLevel config q profile q.peakPrice) 2))

def QueryKeeps (config : ChandelierConfig) (q : ExitQuery) (accepts : Bool) : Prop :=
  if q.exitSpec.isBarrier then ∀ b, barriersOf q = some b → BarrierKeeps q b accepts
  else ∀ profile, exitProfile config q = some profile → TrailKeeps config q profile accepts

/-- The condition on one price, in the position as it is before the call. -/
def PriceKeeps (config : ChandelierConfig) (pos : TrackedPosition) (tick : Tick) : Prop :=
  0 < pos.initialRisk → ∀ readings, tick.readings = some readings →
    QueryKeeps config (exitQuery (notePrice pos tick.price) tick readings)
      (tick.answer.accepts pos.ticket)

def KeepsProtection (config : ChandelierConfig) (s : Positions) : Act → Prop
  | .price ticket tick => ∀ pos, s.get? ticket = some pos → PriceKeeps config pos tick
  | _ => True

theorem tightened_refl (pos : TrackedPosition) : Tightened pos pos where
  action := rfl
  stop := Direction.atLeast_refl _ _
  peak := fun before hbefore => ⟨before, hbefore, Direction.atLeast_refl _ _⟩
  breakeven := id

theorem Tightened.trans {a b c : TrackedPosition} (hab : Tightened a b) (hbc : Tightened b c) :
    Tightened a c := by
  refine ⟨hbc.action.trans hab.action, ?_, ?_, ?_⟩
  · exact hab.stop.trans (hab.action ▸ hbc.stop)
  · intro before hbefore
    obtain ⟨middle, hmiddle, hle⟩ := hab.peak before hbefore
    obtain ⟨after, hafter, hle'⟩ := hbc.peak middle hmiddle
    exact ⟨after, hafter, hle.trans (hab.action ▸ hle')⟩
  · intro hactive
    exact hbc.breakeven (hab.breakeven hactive)

/-- Only the prices seen, the peak and the bookkeeping of it change. -/
theorem notePrice_frame (pos : TrackedPosition) (price : ℚ) :
    (notePrice pos price).ticket = pos.ticket ∧ (notePrice pos price).action = pos.action ∧
      (notePrice pos price).stopLoss = pos.stopLoss ∧
      (notePrice pos price).initialRisk = pos.initialRisk ∧
      (notePrice pos price).breakevenActivated = pos.breakevenActivated := by
  unfold notePrice
  split
  · split_ifs
    · exact ⟨rfl, rfl, rfl, rfl, rfl⟩
    · exact ⟨rfl, rfl, rfl, rfl, rfl⟩
  · split_ifs
    · exact ⟨rfl, rfl, rfl, rfl, rfl⟩
    · exact ⟨rfl, rfl, rfl, rfl, rfl⟩

theorem notePrice_peak (pos : TrackedPosition) (price before : ℚ)
    (hbefore : pos.peakPrice = some before) :
    ∃ after, (notePrice pos price).peakPrice = some after ∧ pos.action.AtLeast before after := by
  have hbest := pos.peak_best
  rw [hbefore] at hbest
  unfold notePrice
  split
  · rename_i haction
    rw [haction] at hbest
    have hhighest : pos.highestPrice = some before := by simpa [eq_comm] using hbest
    split_ifs with hnew
    · refine ⟨price, rfl, ?_⟩
      rw [haction]
      exact (hnew before hhighest).le
    · exact ⟨before, hbefore, Direction.atLeast_refl _ _⟩
  · rename_i haction
    rw [haction] at hbest
    have hlowest : pos.lowestPrice = some before := by simpa [eq_comm] using hbest
    split_ifs with hnew
    · refine ⟨price, rfl, ?_⟩
      rw [haction]
      exact (hnew before hlowest).le
    · exact ⟨before, hbefore, Direction.atLeast_refl _ _⟩

/-- The best price seen by a tracked position. -/
def bestPrice (pos : TrackedPosition) : Option ℚ :=
  match pos.action with
  | .buy => pos.highestPrice
  | .sell => pos.lowestPrice

theorem notePrice_peak_eq (pos : TrackedPosition) (price best : ℚ)
    (hbest : bestPrice pos = some best) :
    (notePrice pos price).peakPrice =
      if pos.action.better best price then some price else pos.peakPrice := by
  unfold bestPrice at hbest
  unfold notePrice
  split
  · rename_i haction
    rw [haction] at hbest
    have hbetter : pos.action.better best price = true ↔ best < price := by
      rw [haction]
      exact decide_eq_true_iff
    by_cases hnew : best < price
    · rw [if_pos (by simpa [hbest] using hnew), if_pos (hbetter.mpr hnew)]
    · rw [if_neg (by simpa [hbest] using hnew), if_neg (mt hbetter.mp hnew)]
  · rename_i haction
    rw [haction] at hbest
    have hbetter : pos.action.better best price = true ↔ price < best := by
      rw [haction]
      exact decide_eq_true_iff
    by_cases hnew : price < best
    · rw [if_pos (by simpa [hbest] using hnew), if_pos (hbetter.mpr hnew)]
    · rw [if_neg (by simpa [hbest] using hnew), if_neg (mt hbetter.mp hnew)]

/-- The stop after the pending action, given whether the broker takes it. -/
def stopAfter (stopLoss : ℚ) (action : Option ChandelierAction) (accepts : Bool) : ℚ :=
  match action with
  | some (.modifySl newSl) => if accepts then round newSl 2 else stopLoss
  | _ => stopLoss

/-- Outside the lock the stop is all that changes. -/
theorem applyChandelierAction_eq (pos : TrackedPosition) (action : Option ChandelierAction)
    (answer : ModifyAnswer) :
    applyChandelierAction pos action answer =
      { pos with stopLoss := stopAfter pos.stopLoss action (answer.accepts pos.ticket) } := by
  unfold applyChandelierAction stopAfter modifySl
  split
  · split_ifs
    · rfl
    · rfl
  · rfl
  · rfl

theorem applyChandelierAction_frame (pos : TrackedPosition) (action : Option ChandelierAction)
    (answer : ModifyAnswer) :
    (applyChandelierAction pos action answer).action = pos.action ∧
      (applyChandelierAction pos action answer).peakPrice = pos.peakPrice ∧
      (applyChandelierAction pos action answer).breakevenActivated = pos.breakevenActivated ∧
      (applyChandelierAction pos action answer).stopLoss =
        stopAfter pos.stopLoss action (answer.accepts pos.ticket) := by
  rw [applyChandelierAction_eq]
  exact ⟨rfl, rfl, rfl, rfl⟩

/-- The result of the exit rules for a position; `none` when the call ends before it. -/
def exitResult (config : ChandelierConfig) (pos : TrackedPosition) (tick : Tick) :
    Option ExitCheckResult :=
  if pos.initialRisk ≤ 0 then none
  else tick.readings.bind fun readings => evaluateExit config (exitQuery pos tick readings)

theorem evaluateChandelierExit_spec (config : ChandelierConfig) (pos : TrackedPosition)
    (tick : Tick) :
    (evaluateChandelierExit config pos tick).1.ticket = pos.ticket ∧
      (evaluateChandelierExit config pos tick).1.action = pos.action ∧
      (evaluateChandelierExit config pos tick).1.stopLoss = pos.stopLoss ∧
      (evaluateChandelierExit config pos tick).1.peakPrice = pos.peakPrice ∧
      (evaluateChandelierExit config pos tick).1.breakevenActivated =
        ((exitResult config pos tick).map ExitCheckResult.breakevenActivated).getD
          pos.breakevenActivated ∧
      (evaluateChandelierExit config pos tick).2 =
        (exitResult config pos tick).bind (pendingAction pos.stopLoss) := by
  unfold evaluateChandelierExit exitResult
  split_ifs with hzero
  · exact ⟨rfl, rfl, rfl, rfl, rfl, rfl⟩
  · cases tick.readings with
    | none => exact ⟨rfl, rfl, rfl, rfl, rfl, rfl⟩
    | some readings =>
      simp only [Option.bind_some]
      cases evaluateExit config (exitQuery pos tick readings) with
      | none => exact ⟨rfl, rfl, rfl, rfl, rfl, rfl⟩
      | some result => exact ⟨rfl, rfl, rfl, rfl, rfl, rfl⟩

theorem updatePrice_spec (config : ChandelierConfig) (pos : TrackedPosition) (tick : Tick) :
    (updatePrice config pos tick).action = pos.action ∧
      (updatePrice config pos tick).peakPrice = (notePrice pos tick.price).peakPrice ∧
      (updatePrice config pos tick).breakevenActivated =
        ((exitResult config (notePrice pos tick.price) tick).map
          ExitCheckResult.breakevenActivated).getD pos.breakevenActivated ∧
      (updatePrice config pos tick).stopLoss =
        stopAfter pos.stopLoss ((exitResult config (notePrice pos tick.price) tick).bind
          (pendingAction pos.stopLoss)) (tick.answer.accepts pos.ticket) := by
  obtain ⟨hticket, haction, hstop, _, hactive⟩ := notePrice_frame pos tick.price
  obtain ⟨hticket', haction', hstop', hpeak', hactive', hpending⟩ :=
    evaluateChandelierExit_spec config (notePrice pos tick.price) tick
  obtain ⟨haction'', hpeak'', hactive'', hstop''⟩ := applyChandelierAction_frame
    (evaluateChandelierExit config (notePrice pos tick.price) tick).1
    (evaluateChandelierExit config (notePrice pos tick.price) tick).2 tick.answer
  unfold updatePrice
  refine ⟨?_, ?_, ?_, ?_⟩
  · rw [haction'', haction', haction]
  · rw [hpeak'', hpeak']
  · rw [hactive'', hactive', hactive]
  · rw [hstop'', hstop', hticket', hpending, hstop, hticket]

/-- One price tightens exactly when neither the stop nor the flag goes back. -/
theorem updatePrice_tightened_iff (config : ChandelierConfig) (pos : TrackedPosition)
    (tick : Tick) :
    Tightened pos (updatePrice config pos tick) ↔
      ∀ result, exitResult config (notePrice pos tick.price) tick = some result →
        pos.action.AtLeast pos.stopLoss (stopAfter pos.stopLoss
            (pendingAction pos.stopLoss result) (tick.answer.accepts pos.ticket)) ∧
          (pos.breakevenActivated = true → result.breakevenActivated = true) := by
  obtain ⟨haction, hpeak, hactive, hstop⟩ := updatePrice_spec config pos tick
  constructor
  · intro h result hresult
    rw [hresult, Option.bind_some] at hstop
    rw [hresult, Option.map_some, Option.getD_some] at hactive
    exact ⟨hstop ▸ h.stop, hactive ▸ h.breakeven⟩
  · intro h
    refine ⟨haction, ?_, ?_, ?_⟩
    · rw [hstop]
      cases hresult : exitResult config (notePrice pos tick.price) tick with
      | none => exact Direction.atLeast_refl _ _
      | some result => exact (h result hresult).1
    · rw [hpeak]
      exact notePrice_peak pos tick.price
    · rw [hactive]
      cases hresult : exitResult config (notePrice pos tick.price) tick with
      | none => exact id
      | some result => exact (h result hresult).2

theorem stopAfter_of_none (stopLoss : ℚ) (result : ExitCheckResult)
    (h : result.newStopLoss = none) (accepts : Bool) :
    stopAfter stopLoss (pendingAction stopLoss result) accepts = stopLoss := by
  unfold pendingAction
  rw [h]
  split
  · rfl
  · rfl
  · rfl

theorem pendingAction_of_level (stopLoss level : ℚ) (result : ExitCheckResult)
    (hlevel : result.newStopLoss = some level) (hsignal : result.closeReason ≠ some .signalExit)
    (htimeout : result.closeReason ≠ some .timeout) :
    pendingAction stopLoss result =
      if level ≠ stopLoss then some (.modifySl level) else none := by
  unfold pendingAction
  rw [hlevel]
  split
  · rename_i hreason
    exact absurd hreason hsignal
  · rename_i hreason
    exact absurd hreason htimeout
  · rfl

/-- A level that moves the stop tightens it unless it rounds to the looser side. -/
theorem atLeast_stopAfter_iff (action : Direction) (stopLoss level : ℚ) (accepts : Bool)
    (result : ExitCheckResult) (hlevel : result.newStopLoss = some level)
    (hsignal : result.closeReason ≠ some .signalExit)
    (htimeout : result.closeReason ≠ some .timeout) :
    action.AtLeast stopLoss (stopAfter stopLoss (pendingAction stopLoss result) accepts) ↔
      (accepts = true → level ≠ stopLoss → action.AtLeast stopLoss (round level 2)) := by
  rw [pendingAction_of_level stopLoss level result hlevel hsignal htimeout]
  cases accepts with
  | true =>
    split_ifs with hne
    · exact ⟨fun h _ _ => h, fun h => h rfl hne⟩
    · exact ⟨fun _ _ h => absurd h hne, fun _ => Direction.atLeast_refl _ _⟩
  | false =>
    have hsame : stopAfter stopLoss
        (if level ≠ stopLoss then some (.modifySl level) else none) false = stopLoss := by
      split_ifs
      · rfl
      · rfl
    rw [hsame]
    exact ⟨fun _ h => absurd h Bool.false_ne_true, fun _ => Direction.atLeast_refl _ _⟩

/-- What the result of an evaluation may not do to the position that asked for it. -/
def ResultTightens (q : ExitQuery) (accepts : Bool) (result : ExitCheckResult) : Prop :=
  q.action.AtLeast q.currentStopLoss
      (stopAfter q.currentStopLoss (pendingAction q.currentStopLoss result) accepts) ∧
    (q.breakevenAlreadyActivated = true → result.breakevenActivated = true)

theorem barrier_tightens_iff (q : ExitQuery) (b : Barriers) (accepts : Bool) :
    ResultTightens q accepts (evaluateBarrierExit q b) ↔ BarrierKeeps q b accepts := by
  unfold ResultTightens BarrierKeeps
  rw [evaluateBarrierExit_breakeven, and_comm]
  apply and_congr
  · cases q.breakevenAlreadyActivated with
    | true => simp
    | false => simp
  · by_cases hdegenerate : b.Degenerate
    · have hnone : (evaluateBarrierExit q b).newStopLoss = none := by
        rw [evaluateBarrierExit_newStopLoss, if_pos hdegenerate]
      rw [stopAfter_of_none _ _ hnone]
      exact ⟨fun _ h => absurd hdegenerate h, fun _ => Direction.atLeast_refl _ _⟩
    · cases hhit : hitBarrier q b with
      | none =>
        have hnone : (evaluateBarrierExit q b).newStopLoss = none := by
          rw [evaluateBarrierExit_newStopLoss, if_neg hdegenerate, hhit, Option.map_none]
        rw [stopAfter_of_none _ _ hnone]
        refine ⟨?_, fun _ => Direction.atLeast_refl _ _⟩
        intro _ _ reason level h
        cases h
      | some hit =>
        obtain ⟨reason, level⟩ := hit
        obtain ⟨hsignal, htimeout⟩ := hitBarrier_reason hhit
        rw [evaluateBarrierExit_of_hit hdegenerate hhit,
          atLeast_stopAfter_iff q.action q.currentStopLoss level accepts _ rfl hsignal htimeout]
        constructor
        · intro h _ reason' level' hsame haccepts hne
          cases hsame
          exact h haccepts hne
        · intro h haccepts hne
          exact h hdegenerate reason level rfl haccepts hne

/-- An active exit closes at market and leaves the stop alone. -/
theorem stopAfter_of_activeExit (config : ChandelierConfig) (q : ExitQuery)
    (profile : ExitProfile) (stopLoss : ℚ) (accepts : Bool)
    (hopen : q.peakPriceAtBarOpen = none)
    (hclose : (trailingReached config q profile || (activeExit config q profile).isNone) = false) :
    stopAfter stopLoss (pendingAction stopLoss (evaluateTrailing config q profile)) accepts =
      stopLoss := by
  obtain ⟨hreached, hactive⟩ := Bool.or_eq_false_iff.mp hclose
  rw [evaluateTrailing_eq config q profile hopen, hreached]
  rcases activeExit_cases config q profile with hnone | hsignal | htimeout
  · rw [hnone] at hactive
    cases hactive
  · rw [hsignal]
    rfl
  · rw [htimeout]
    rfl

theorem evaluateTrailing_reason (config : ChandelierConfig) (q : ExitQuery)
    (profile : ExitProfile) (hopen : q.peakPriceAtBarOpen = none)
    (hmoves : (trailingReached config q profile || (activeExit config q profile).isNone) = true) :
    (evaluateTrailing config q profile).closeReason ≠ some .signalExit ∧
      (evaluateTrailing config q profile).closeReason ≠ some .timeout := by
  rw [evaluateTrailing_eq config q profile hopen]
  dsimp only
  split
  · decide
  · rename_i hreached
    have hnone : activeExit config q profile = none := by simpa [hreached] using hmoves
    rw [hnone]
    decide

/-- A trailing result moves the stop unless it closes at market instead. -/
theorem trailing_stop_iff (config : ChandelierConfig) (q : ExitQuery) (profile : ExitProfile)
    (accepts : Bool) (hopen : q.peakPriceAtBarOpen = none) :
    q.action.AtLeast q.currentStopLoss (stopAfter q.currentStopLoss
        (pendingAction q.currentStopLoss (evaluateTrailing config q profile)) accepts) ↔
      ((trailingReached config q profile || (activeExit config q profile).isNone) = true →
        accepts = true →
        q.action.better q.currentStopLoss (trailLevel config q profile q.peakPrice) = true →
        q.action.AtLeast q.currentStopLoss
          (round (trailLevel config q profile q.peakPrice) 2)) := by
  have hnew : (evaluateTrailing config q profile).newStopLoss =
      trailingSl config q profile q.peakPrice := by
    rw [evaluateTrailing_eq config q profile hopen]
  rw [trailingSl_eq] at hnew
  cases hmoves : trailingReached config q profile || (activeExit config q profile).isNone with
  | false =>
    rw [stopAfter_of_activeExit config q profile _ accepts hopen hmoves]
    exact ⟨fun _ h => absurd h Bool.false_ne_true, fun _ => Direction.atLeast_refl _ _⟩
  | true =>
    by_cases hbetter :
        q.action.better q.currentStopLoss (trailLevel config q profile q.peakPrice) = true
    · rw [if_pos hbetter] at hnew
      obtain ⟨hsignal, htimeout⟩ := evaluateTrailing_reason config q profile hopen hmoves
      rw [atLeast_stopAfter_iff q.action q.currentStopLoss _ accepts _ hnew hsignal htimeout,
        round_round]
      constructor
      · intro h _ haccepts _
        by_cases hsame : round (trailLevel config q profile q.peakPrice) 2 = q.currentStopLoss
        · rw [hsame]
          exact Direction.atLeast_refl _ _
        · exact h haccepts hsame
      · intro h haccepts _
        exact h rfl haccepts hbetter
    · rw [if_neg hbetter] at hnew
      rw [stopAfter_of_none _ _ hnew]
      exact ⟨fun _ _ _ h => absurd h hbetter, fun _ => Direction.atLeast_refl _ _⟩

theorem trail_tightens_iff (config : ChandelierConfig) (q : ExitQuery) (profile : ExitProfile)
    (accepts : Bool) (hrisk : 0 < q.initialRisk) (hopen : q.peakPriceAtBarOpen = none) :
    ResultTightens q accepts (evaluateChandelier config q profile) ↔
      TrailKeeps config q profile accepts := by
  unfold ResultTightens TrailKeeps
  rcases evaluateChandelier_cases config q profile with
    ⟨hreached, htrails, hresult⟩ | ⟨hreached, htrails, hresult⟩ | ⟨hreached, htrails, hresult⟩
  · rw [hresult, hreached, htrails, stopAfter_of_none _ _ rfl]
    simp [Direction.atLeast_refl]
  · rw [hresult, hreached, htrails, stopAfter_of_none _ _ rfl]
    simp [Direction.atLeast_refl]
  · have hflag : q.breakevenAlreadyActivated = true →
        (evaluateTrailing config q profile).breakevenActivated = true := by
      intro hactive
      rw [evaluateTrailing_eq config q profile hopen]
      exact breakevenAt_of_activated config q profile q.peakPrice hrisk hactive
    rw [hresult, hreached, htrails, trailing_stop_iff config q profile accepts hopen]
    constructor
    · intro h
      exact ⟨fun hfalse => absurd hfalse Bool.false_ne_true, h.1⟩
    · intro h
      exact ⟨h.2, hflag⟩

theorem query_tightens_iff (config : ChandelierConfig) (q : ExitQuery) (accepts : Bool)
    (hrisk : 0 < q.initialRisk) (hopen : q.peakPriceAtBarOpen = none) :
    (∀ result, evaluateExit config q = some result → ResultTightens q accepts result) ↔
      QueryKeeps config q accepts := by
  unfold evaluateExit QueryKeeps
  split_ifs with hmode
  · cases barriersOf q with
    | none => simp
    | some b => simpa using barrier_tightens_iff q b accepts
  · cases exitProfile config q with
    | none => simp
    | some profile => simpa using trail_tightens_iff config q profile accepts hrisk hopen

/-- Noting the price changes nothing that the rules are asked except the peak. -/
theorem exitQuery_notePrice_eq (pos : TrackedPosition) (tick : Tick) (readings : Readings) :
    exitQuery (notePrice pos tick.price) tick readings =
      { exitQuery pos tick readings with
        peakPrice := orElse (notePrice pos tick.price).peakPrice pos.entryPrice } := by
  unfold notePrice
  split
  · split_ifs
    · rfl
    · rfl
  · split_ifs
    · rfl
    · rfl

/-- Noting the price does not change what the query says about protection. -/
theorem exitQuery_notePrice (pos : TrackedPosition) (tick : Tick) (readings : Readings) :
    (exitQuery (notePrice pos tick.price) tick readings).action = pos.action ∧
      (exitQuery (notePrice pos tick.price) tick readings).currentStopLoss = pos.stopLoss ∧
      (exitQuery (notePrice pos tick.price) tick readings).initialRisk = pos.initialRisk ∧
      (exitQuery (notePrice pos tick.price) tick readings).breakevenAlreadyActivated =
        pos.breakevenActivated :=
  (notePrice_frame pos tick.price).2

/-- One price keeps the protection exactly under the condition on that price. -/
theorem price_tightens_iff (config : ChandelierConfig) (pos : TrackedPosition) (tick : Tick) :
    Tightened pos (updatePrice config pos tick) ↔ PriceKeeps config pos tick := by
  rw [updatePrice_tightened_iff]
  unfold PriceKeeps exitResult
  rw [(notePrice_frame pos tick.price).2.2.2.1]
  split_ifs with hzero
  · refine ⟨fun _ h => absurd hzero (not_le.mpr h), ?_⟩
    intro _ result h
    cases h
  · have hpos : 0 < pos.initialRisk := not_le.mp hzero
    cases hreadings : tick.readings with
    | none => simp
    | some readings =>
      obtain ⟨haction, hstop, hrisk, hactive⟩ := exitQuery_notePrice pos tick readings
      have hquery := query_tightens_iff config
        (exitQuery (notePrice pos tick.price) tick readings) (tick.answer.accepts pos.ticket)
        (by rw [hrisk]; exact hpos) rfl
      unfold ResultTightens at hquery
      rw [haction, hstop, hactive] at hquery
      rw [Option.bind_some, hquery]
      constructor
      · intro h _ readings' hsame
        cases hsame
        exact h
      · intro h
        exact h hpos readings rfl

/-- A signal changes the remembered sides only. -/
theorem noteSignal_eq (config : ChandelierConfig) (event : SignalEvent)
    (pos : TrackedPosition) :
    ∃ dirs, noteSignal config event pos = { pos with recentSignalDirs := dirs } := by
  unfold noteSignal
  split
  · exact ⟨pos.recentSignalDirs, rfl⟩
  · dsimp only
    split
    · exact ⟨_, rfl⟩
    · exact ⟨pos.recentSignalDirs, rfl⟩

/-- A regime change changes the exit spec and the noted regime only. -/
theorem adjustAggression_eq (config : ChandelierConfig) (regime : Option String)
    (pos : TrackedPosition) :
    ∃ spec noted, adjustAggression config regime pos =
      { pos with
        exitSpec := spec
        lastExitRegime := noted } := by
  unfold adjustAggression
  dsimp only
  split
  · split
    · exact ⟨pos.exitSpec, pos.lastExitRegime, rfl⟩
    · exact ⟨_, _, rfl⟩
  · exact ⟨pos.exitSpec, pos.lastExitRegime, rfl⟩
  · exact ⟨pos.exitSpec, pos.lastExitRegime, rfl⟩

/-- Signals and regime changes leave the protection alone. -/
theorem noteSignal_tightened (config : ChandelierConfig) (event : SignalEvent)
    (pos : TrackedPosition) : Tightened pos (noteSignal config event pos) := by
  obtain ⟨dirs, hdirs⟩ := noteSignal_eq config event pos
  rw [hdirs]
  exact ⟨rfl, Direction.atLeast_refl _ _, (tightened_refl pos).peak, id⟩

theorem adjustAggression_tightened (config : ChandelierConfig) (regime : Option String)
    (pos : TrackedPosition) : Tightened pos (adjustAggression config regime pos) := by
  obtain ⟨spec, noted, hadjusted⟩ := adjustAggression_eq config regime pos
  rw [hadjusted]
  exact ⟨rfl, Direction.atLeast_refl _ _, (tightened_refl pos).peak, id⟩

theorem tightenedAt_refl (ticket : ℤ) (s : Positions) : TightenedAt ticket s s :=
  fun old hold => ⟨old, hold, tightened_refl old⟩

theorem tightenedAt_trans (ticket : ℤ) (s t u : Positions) (hst : TightenedAt ticket s t)
    (htu : TightenedAt ticket t u) : TightenedAt ticket s u := by
  intro old hold
  obtain ⟨middle, hmiddle, htight⟩ := hst old hold
  obtain ⟨new, hnew, htight'⟩ := htu middle hmiddle
  exact ⟨new, hnew, htight.trans htight'⟩

theorem tightenedAt_of_get? {ticket : ℤ} {s t : Positions} (h : t.get? ticket = s.get? ticket) :
    TightenedAt ticket s t := by
  intro old hold
  exact ⟨old, h.trans hold, tightened_refl old⟩

theorem get?_modifyAt (s : Positions) (ticket key : ℤ)
    (change : TrackedPosition → TrackedPosition) :
    (modifyAt s ticket change).get? key =
      (s.get? key).map fun pos => if key = ticket then change pos else pos :=
  Dict.get?_mapValues _ s key

/-- Changing one position in place tightens a position exactly when the change does. -/
theorem tightenedAt_modifyAt_iff (s : Positions) (ticket key : ℤ)
    (change : TrackedPosition → TrackedPosition) :
    TightenedAt key s (modifyAt s ticket change) ↔
      (key = ticket → ∀ pos, s.get? key = some pos → Tightened pos (change pos)) := by
  unfold TightenedAt
  by_cases hkey : key = ticket
  · subst hkey
    constructor
    · intro h _ pos hpos
      obtain ⟨new, hnew, htight⟩ := h pos hpos
      rw [get?_modifyAt, hpos, Option.map_some, if_pos rfl] at hnew
      cases Option.some.inj hnew
      exact htight
    · intro h pos hpos
      refine ⟨change pos, ?_, h rfl pos hpos⟩
      rw [get?_modifyAt, hpos, Option.map_some, if_pos rfl]
  · refine ⟨fun _ h => absurd h hkey, fun _ pos hpos => ⟨pos, ?_, tightened_refl pos⟩⟩
    rw [get?_modifyAt, hpos, Option.map_some, if_neg hkey]

/-- One step keeps every position it does not open or drop at least as tight exactly
under the condition on the step. -/
theorem step_tightens_iff (config : ChandelierConfig) (s : Positions) (a : Act) :
    (∀ ticket, a.Keeps ticket → TightenedAt ticket s (apply config s a)) ↔
      KeepsProtection config s a := by
  cases a with
  | track ticket opening =>
    refine ⟨fun _ => trivial, fun _ key hkeeps => tightenedAt_of_get? ?_⟩
    rw [apply, Dict.get?_set, if_neg (Ne.symm hkeeps)]
  | recover ticket broker =>
    refine ⟨fun _ => trivial, fun _ key _ old hold => ⟨old, ?_, tightened_refl old⟩⟩
    simp only [apply]
    split_ifs with hskip
    · exact hold
    · have hother : key ≠ ticket := by
        intro hsame
        apply hskip
        right
        rw [Dict.contains, ← hsame, hold, Option.isSome_some]
      rw [Dict.get?_set, if_neg hother, hold]
  | remove ticket =>
    refine ⟨fun _ => trivial, fun _ key hkeeps => tightenedAt_of_get? ?_⟩
    rw [apply, Dict.get?_pop, if_neg (Ne.symm hkeeps)]
  | signal event =>
    refine ⟨fun _ => trivial, fun _ key _ pos hpos => ?_⟩
    refine ⟨noteSignal config event pos, ?_, noteSignal_tightened config event pos⟩
    rw [apply, Dict.get?_mapValues, hpos, Option.map_some]
  | regimeChange ticket regime =>
    refine ⟨fun _ => trivial, fun _ key _ => ?_⟩
    apply (tightenedAt_modifyAt_iff s ticket key _).mpr
    intro _ pos _
    exact adjustAggression_tightened config regime pos
  | price ticket tick =>
    constructor
    · intro h pos hpos
      apply (price_tightens_iff config pos tick).mp
      exact (tightenedAt_modifyAt_iff s ticket ticket _).mp (h ticket trivial) rfl pos hpos
    · intro h key _
      apply (tightenedAt_modifyAt_iff s ticket key _).mpr
      intro hkey pos hpos
      exact (price_tightens_iff config pos tick).mpr (h pos (hkey ▸ hpos))

/-- Protection only tightens over a run exactly when every price in it meets the
condition in the state it arrives in. -/
theorem protection_only_tightens_iff (config : ChandelierConfig) (labels : List Act) :
    OnlyTightens config labels ↔ Along (step config) (KeepsProtection config) start labels := by
  constructor
  · intro h
    apply (along_iff_splits start labels).mpr
    intro front a back s hlabels hrun
    apply (step_tightens_iff config s a).mp
    intro ticket hkeeps
    refine h ticket front [a] back s (apply config s a) ?_ hrun rfl ?_
    · rw [hlabels, List.append_assoc, List.singleton_append]
    · intro b hb
      rw [List.mem_singleton.mp hb]
      exact hkeeps
  · intro halong ticket front stretch back s t hlabels hrun hstretch hkeeps
    apply related_of_along (tightenedAt_refl ticket) (tightenedAt_trans ticket) ?_ hstretch
    apply (along_iff_splits s stretch).mpr
    intro first a rest u hsplit hu v hv
    have hguard : KeepsProtection config u a := by
      refine (along_iff_splits start labels).mp halong (front ++ first) a (rest ++ back) u ?_ ?_
      · rw [hlabels, hsplit]
        simp only [List.append_assoc, List.cons_append]
      · rw [run_append, hrun, Option.bind_some]
        exact hu
    cases Option.some.inj hv
    refine (step_tightens_iff config u a).mpr hguard ticket (hkeeps a ?_)
    rw [hsplit]
    exact List.mem_append_right first List.mem_cons_self

theorem run_eq_foldl (config : ChandelierConfig) (s : Positions) (labels : List Act) :
    run (step config) s labels = some (labels.foldl (apply config) s) := by
  induction labels generalizing s with
  | nil => rfl
  | cons a rest ih => exact ih (apply config s a)

/-- Side, stop and breakeven flag of a tracked position after a run. -/
def protection (config : ChandelierConfig) (labels : List Act) (ticket : ℤ) :
    Option (Direction × ℚ × Bool) :=
  ((labels.foldl (apply config) start).get? ticket).map fun pos =>
    (pos.action, pos.stopLoss, pos.breakevenActivated)

theorem not_onlyTightens_of_last (config : ChandelierConfig) (front : List Act) (a : Act)
    (ticket : ℤ) (old new : Direction × ℚ × Bool) (hkeeps : a.Keeps ticket)
    (hold : protection config front ticket = some old)
    (hnew : protection config (front ++ [a]) ticket = some new)
    (hloose : ¬(old.1.AtLeast old.2.1 new.2.1 ∧ (old.2.2 = true → new.2.2 = true))) :
    ¬OnlyTightens config (front ++ [a]) := by
  intro h
  unfold protection at hold hnew
  obtain ⟨pos, hpos, rfl⟩ := Option.map_eq_some_iff.mp hold
  obtain ⟨pos', hpos', rfl⟩ := Option.map_eq_some_iff.mp hnew
  have htight := h ticket front [a] [] _ _ (by rw [List.append_nil])
    (run_eq_foldl config start front) (run_eq_foldl config _ [a])
    (by intro b hb; rw [List.mem_singleton.mp hb]; exact hkeeps)
  rw [← List.foldl_append] at htight
  obtain ⟨new, hnew, htight⟩ := htight pos hpos
  cases Option.some.inj (hpos'.symm.trans hnew)
  exact hloose ⟨htight.stop, htight.breakeven⟩

/-- A price without fresh indicators, after which the broker confirms the new stop. -/
def confirmedPrice (ticket : ℤ) (price : ℚ) (now : ℤ) : Act :=
  .price ticket
    { price := price
      now := now
      answer := .report [ticket] [] }

/-- A buy at 100 with its stop at 95 and an average range of 5/2. -/
def buyAtHundred : Opening where
  action := .buy
  entryPrice := 100
  stopLoss := 95
  atrValue := 5 / 2
  slDistance := 5
  timeframe := "H1"
  openedAt := 0

/-- Quoted half a point higher than it was filled, with barriers of two and four ranges. -/
def filledBelowQuote : Opening :=
  { buyAtHundred with
    entryPrice := 201 / 2
    stopLoss := 191 / 2
    fillPrice := some 100
    exitSpec :=
      { mode := "barrier"
        slAtr := .number 2
        tpAtr := .number 4
        timeBars := .number 20 } }

/-- A buy at 100 whose stop is half a point away, nearer than the least breakeven buffer. -/
def nearStopBuy : Opening :=
  { buyAtHundred with stopLoss := 199 / 2, atrValue := 1 / 4, slDistance := 1 / 2 }

/-- Three decimals in the stop. -/
def finelyQuoted : Opening :=
  { buyAtHundred with stopLoss := 95004 / 1000, atrValue := 2, slDistance := 4996 / 1000 }

/-- Each part of the condition is needed: breakeven is lost when the price is back at the
stop, a barrier below the quoted stop replaces it, and rounding crosses a stop with
three decimals. -/
theorem protection_loosens :
    ¬OnlyTightens {} [.track 1 buyAtHundred, confirmedPrice 1 106 60, confirmedPrice 1 103 120] ∧
      ¬OnlyTightens {} [.track 1 filledBelowQuote, confirmedPrice 1 95 60] ∧
      ¬OnlyTightens {} [.track 1 finelyQuoted, confirmedPrice 1 (1000045 / 10000) 60] := by
  refine ⟨?_, ?_, ?_⟩
  · refine not_onlyTightens_of_last {} [.track 1 buyAtHundred, confirmedPrice 1 106 60]
      _ 1 (.buy, 103, true) (.buy, 103, false) trivial ?_ ?_ ?_
    all_goals decide +kernel
  · refine not_onlyTightens_of_last {} [.track 1 filledBelowQuote]
      _ 1 (.buy, 191 / 2, false) (.buy, 95, false) trivial ?_ ?_ ?_
    all_goals decide +kernel
  · refine not_onlyTightens_of_last {} [.track 1 finelyQuoted]
      _ 1 (.buy, 95004 / 1000, false) (.buy, 95, false) trivial ?_ ?_ ?_
    all_goals decide +kernel

end MT5Services.PositionManager
