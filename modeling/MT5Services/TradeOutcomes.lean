import MT5Services.Dict
import MT5Services.PyText
import MT5Services.Runs
import Mathlib.Algebra.Order.Field.Rat

/-!
From a closed position to the PnL circuit: `TradeOutcomeTracker`, the close branch of
`reconcile_with_mt5` and `StrategyPerformanceTracker.record_outcome`, wired as
`build_account_runtime_components` wires them. Trades are registered under the
runtime's account key and looked up under the key a tracked position has, and the
outcome callback is bound to the parameters of `record_outcome` by name. The logs
`outcomes`, `recorded` and `closes` hold the rows written, the calls of
`record_outcome` that returned, and the closes of the runtime's own trades.
-/
namespace MT5Services.TradeOutcomes

open PyText Runs

/-- `build_account_key` joins three parts with colons, so no key is empty. -/
structure RuntimeIdentity where
  accountKey : String
  nonempty : accountKey ≠ ""

structure PerformanceConfig where
  enabled : Bool
  circuitEnabled : Bool
  maxConsecutiveLosses : ℕ
  cooldownSeconds : ℤ
  deriving DecidableEq, Repr

/-- A position as `PositionManager` tracks it, without its exit state. -/
structure TrackedPosition where
  ticket : ℤ
  signalId : String
  symbol : String
  action : String
  entryPrice : ℚ
  timeframe : String
  strategy : String
  confidence : ℚ
  regime : Option String
  openedAt : ℤ
  deriving DecidableEq, Repr

structure ActiveTrade where
  signalId : String
  symbol : String
  timeframe : String
  strategy : String
  direction : String
  confidence : ℚ
  fillPrice : ℚ
  regime : Option String
  accountKey : Option String
  openedAt : ℤ
  deriving DecidableEq, Repr

/-- A row of `trade_outcomes`, with the ticket it is about. -/
structure OutcomeRow where
  ticket : ℤ
  trade : ActiveTrade
  closePrice : Option ℚ
  priceChange : Option ℚ
  won : Option Bool
  deriving DecidableEq, Repr

/-- A call of `record_outcome` that returned. -/
structure Recorded where
  ticket : ℤ
  strategy : String
  won : Bool
  pnl : ℚ
  deriving DecidableEq, Repr

/-- The circuit of `StrategyPerformanceTracker`. -/
structure Circuit where
  lossStreak : ℕ := 0
  paused : Bool := false
  openedAt : ℤ := 0
  totalRecorded : ℕ := 0
  /-- Set while past outcomes are replayed. -/
  warmupActive : Bool := false
  deriving DecidableEq, Repr

structure Close where
  pos : TrackedPosition
  price : ℚ
  time : ℤ
  deriving DecidableEq, Repr

def Close.won (close : Close) : Bool :=
  (close.pos.action = "buy" ∧ close.pos.entryPrice < close.price) ∨
    (close.pos.action = "sell" ∧ close.price < close.pos.entryPrice)

structure Runtime where
  positions : Dict ℤ TrackedPosition
  active : Dict (String × String) ActiveTrade
  evaluated : ℕ
  wins : ℕ
  unresolved : ℕ
  circuit : Circuit
  outcomes : List OutcomeRow
  recorded : List Recorded
  opened : List ℤ
  closes : List Close

def start : Runtime :=
  ⟨Dict.empty, Dict.empty, 0, 0, 0, {}, [], [], [], []⟩

def maxActive : ℕ := 200

def staleAfter : ℤ := 24 * 60 * 60

/-- The first of the entries opened earliest. -/
def oldest (items : List ((String × String) × ActiveTrade)) :
    Option ((String × String) × ActiveTrade) :=
  items.foldl (fun best p =>
    match best with
    | none => some p
    | some b => if p.2.openedAt < b.2.openedAt then some p else some b) none

/-- Above the limit stale trades go first, else the oldest one. -/
def evicted (now : ℤ) (active : Dict (String × String) ActiveTrade) : List (String × String) :=
  if active.items.length ≤ maxActive then []
  else
    let stale := (active.items.filter fun p => p.2.openedAt < now - staleAfter).map Prod.fst
    if stale = [] then (oldest active.items).toList.map Prod.fst
    else stale.take (active.items.length - maxActive)

def onTradeOpened (s : Runtime) (now : ℤ) (trade : ActiveTrade) : Runtime :=
  let active := s.active.set (trade.signalId, trade.accountKey.getD "") trade
  { s with
    active := (evicted now active).foldl Dict.pop active
    unresolved := s.unresolved + (evicted now active).length }

/-- `getattr(pos, "account_key", None)`: a tracked position has no such field. -/
def positionAccountKey (_ : TrackedPosition) : Option String := none

def restoreTrackedPosition (s : Runtime) (now : ℤ) (pos : TrackedPosition) : Runtime :=
  if strip pos.signalId = "" then s
  else onTradeOpened s now
    { signalId := strip pos.signalId
      symbol := pos.symbol
      timeframe := pos.timeframe
      strategy := pos.strategy
      direction := pos.action
      confidence := pos.confidence
      fillPrice := pos.entryPrice
      regime := pos.regime
      accountKey := positionAccountKey pos
      openedAt := pos.openedAt }

/-- `record_outcome` as far as the circuit goes. -/
def recordOutcome (config : PerformanceConfig) (now : ℤ) (circuit : Circuit) (won : Bool)
    (source : String) : Circuit :=
  if !config.enabled then circuit
  else
    let counted := { circuit with totalRecorded := circuit.totalRecorded + 1 }
    if !(source = "trade" && config.circuitEnabled && !circuit.warmupActive) then counted
    else if won then { counted with lossStreak := 0 }
    else
      let lost := { counted with lossStreak := circuit.lossStreak + 1 }
      if circuit.paused = false ∧ config.maxConsecutiveLosses ≤ lost.lossStreak then
        { lost with paused := true, openedAt := now }
      else lost

def isTradingPaused (config : PerformanceConfig) (now : ℤ) (circuit : Circuit) : Bool :=
  circuit.paused ∧
    ¬ (0 < config.cooldownSeconds ∧ config.cooldownSeconds ≤ now - circuit.openedAt)

/-- The keyword parameters of `record_outcome`. -/
def recordOutcomeKeywords : List String := ["action", "regime", "source"]

/-- The keywords `on_position_closed` passes to its callback. -/
def outcomeCallKeywords : List String := ["regime", "source", "exit_reason"]

/-- A call with an unknown keyword is a `TypeError`, which the tracker swallows. -/
def notifyOutcome (config : PerformanceConfig) (now : ℤ) (s : Runtime) (ticket : ℤ)
    (strategy : String) (won : Bool) (pnl : ℚ) : Runtime :=
  if outcomeCallKeywords.all recordOutcomeKeywords.contains then
    { s with
      circuit := recordOutcome config now s.circuit won "trade"
      recorded := s.recorded ++ [⟨ticket, strategy, won, pnl⟩] }
  else s

def tradeWon (direction : String) (change : ℚ) : Option Bool :=
  if direction = "buy" then some (0 < change)
  else if direction = "sell" then some (change < 0)
  else none

def onPositionClosed (config : PerformanceConfig) (now : ℤ) (s : Runtime)
    (pos : TrackedPosition) (closePrice : Option ℚ) : Runtime :=
  let key := (pos.signalId, (positionAccountKey pos).getD "")
  if pos.signalId = "" then s
  else
    match s.active.get? key with
    | none => s
    | some trade =>
      let change := closePrice.map (· - trade.fillPrice)
      let won := change.bind (tradeWon trade.direction)
      let counted : Runtime :=
        { s with
          active := s.active.pop key
          unresolved := if closePrice = none then s.unresolved + 1 else s.unresolved
          evaluated := if won.isSome then s.evaluated + 1 else s.evaluated
          wins := if won = some true then s.wins + 1 else s.wins }
      let notified :=
        match won, change with
        | some won, some change =>
          notifyOutcome config now counted pos.ticket trade.strategy won change
        | _, _ => counted
      { notified with
        outcomes := notified.outcomes ++ [⟨pos.ticket, trade, closePrice, change, won⟩] }

/-- An order that was filled, at market or from a pending order. -/
structure Trade where
  position : TrackedPosition
  now : ℤ

def activeTrade (identity : RuntimeIdentity) (pos : TrackedPosition) : ActiveTrade where
  signalId := pos.signalId
  symbol := pos.symbol
  timeframe := pos.timeframe
  strategy := pos.strategy
  direction := pos.action
  confidence := pos.confidence
  fillPrice := pos.entryPrice
  regime := pos.regime
  accountKey := some identity.accountKey
  openedAt := pos.openedAt

def trackPosition (s : Runtime) (pos : TrackedPosition) : Runtime :=
  { s with positions := s.positions.set pos.ticket pos, opened := pos.ticket :: s.opened }

/-- The bookkeeping of `execute_market_order` after a dispatch. -/
def executeMarketOrder (identity : RuntimeIdentity) (s : Runtime) (trade : Trade) : Runtime :=
  let tracked := if trade.position.ticket = 0 then s else trackPosition s trade.position
  onTradeOpened tracked trade.now (activeTrade identity trade.position)

/-- The bookkeeping of `inspect_pending_mt5_order` for a fill it finds. -/
def pendingOrderFilled (identity : RuntimeIdentity) (s : Runtime) (trade : Trade) : Runtime :=
  let tracked :=
    if 0 < trade.position.ticket ∧ s.positions.contains trade.position.ticket = false then
      trackPosition s trade.position
    else s
  if trade.position.signalId = "" then tracked
  else onTradeOpened tracked trade.now (activeTrade identity trade.position)

/-- A live position with the context that was found for it. -/
structure RawPosition where
  position : TrackedPosition
  restorableComment : Bool

/-- The broker's answers in one reconciliation; `none` for a call that raises. -/
structure Mt5View where
  now : ℤ
  openPositions : Option (List RawPosition)
  openTickets : String → Option (List ℤ)
  closePrice : ℤ → Option ℚ

def syncPosition (now : ℤ) (s : Runtime) (raw : RawPosition) : Runtime :=
  let ticket := raw.position.ticket
  if ticket ≤ 0 ∨ s.positions.contains ticket then s
  else if raw.position.signalId = "" then
    let restored := { raw.position with signalId := "restored:" ++ toString ticket }
    if raw.restorableComment then { s with positions := s.positions.set ticket restored } else s
  else
    restoreTrackedPosition { s with positions := s.positions.set ticket raw.position } now
      raw.position

def syncOpenPositions (view : Mt5View) (s : Runtime) : Runtime :=
  (view.openPositions.getD []).foldl (syncPosition view.now) s

/-- The tracked positions that the broker no longer lists. -/
def closingEntries (view : Mt5View) (s : Runtime) : List (ℤ × TrackedPosition) :=
  let live := s.positions.values.flatMap fun pos => (view.openTickets pos.symbol).getD []
  s.positions.items.filter fun p =>
    (view.openTickets p.2.symbol).isSome && !live.contains p.1

def closeEntry (config : PerformanceConfig) (view : Mt5View) (s : Runtime)
    (entry : ℤ × TrackedPosition) : Runtime :=
  onPositionClosed config view.now { s with positions := s.positions.pop entry.1 } entry.2
    (view.closePrice entry.1)

/-- The closes with a price, of trades that this runtime opened. -/
def pricedCloses (view : Mt5View) (s : Runtime) : List Close :=
  ((closingEntries view (syncOpenPositions view s)).filter fun p => p.1 ∈ s.opened).filterMap
    fun p => (view.closePrice p.1).map fun price => ⟨p.2, price, view.now⟩

def reconcileWithMt5 (config : PerformanceConfig) (view : Mt5View) (s : Runtime) : Runtime :=
  let synced := syncOpenPositions view s
  { (closingEntries view synced).foldl (closeEntry config view) synced with
    closes := s.closes ++ pricedCloses view s }

inductive Act
  | marketOrder (trade : Trade)
  | pendingFill (trade : Trade)
  | reconcile (view : Mt5View)

def step (identity : RuntimeIdentity) (config : PerformanceConfig) (s : Runtime) :
    Act → Option Runtime
  | .marketOrder trade => some (executeMarketOrder identity s trade)
  | .pendingFill trade => some (pendingOrderFilled identity s trade)
  | .reconcile view => some (reconcileWithMt5 config view s)

/-- The close wrote one row and was recorded once, with a positive PnL for a win. -/
def Scored (s t : Runtime) (close : Close) : Prop :=
  (t.outcomes.drop s.outcomes.length).countP (fun row => row.ticket = close.pos.ticket) = 1 ∧
    ∃ record, (t.recorded.drop s.recorded.length).filter
        (fun call => call.ticket = close.pos.ticket) = [record] ∧
      (0 < record.pnl ↔ close.won = true)

def AllScored (config : PerformanceConfig) (s : Runtime) : Act → Prop
  | .reconcile view =>
    ∀ close ∈ pricedCloses view s, Scored s (reconcileWithMt5 config view s) close
  | _ => True

/-- The number of losing closes since the last winning one. -/
def lossStreak (s : Runtime) : ℕ := (s.closes.reverse.takeWhile fun close => !close.won).length

/-- Right after the configured number of consecutive losing closes, and until the
cooldown has passed, trading is paused. -/
def PausesAfterLosses (config : PerformanceConfig) (s : Runtime) : Prop :=
  config.enabled = true → config.circuitEnabled = true → 0 < config.maxConsecutiveLosses →
    lossStreak s = config.maxConsecutiveLosses →
    ∀ now close, s.closes.getLast? = some close →
      (config.cooldownSeconds ≤ 0 ∨ now < close.time + config.cooldownSeconds) →
      isTradingPaused config now s.circuit = true

/-- No trade of this runtime closes with a price in this step. -/
def NoPricedClose (s : Runtime) : Act → Prop
  | .reconcile view => pricedCloses view s = []
  | _ => True

instance (s : Runtime) (a : Act) : Decidable (NoPricedClose s a) :=
  match a with
  | .reconcile view => inferInstanceAs (Decidable (pricedCloses view s = []))
  | .marketOrder _ | .pendingFill _ => inferInstanceAs (Decidable True)

/-- The keywords of the call are not those of `record_outcome`. -/
theorem notifyOutcome_eq (config : PerformanceConfig) (now : ℤ) (s : Runtime) (ticket : ℤ)
    (strategy : String) (won : Bool) (pnl : ℚ) :
    notifyOutcome config now s ticket strategy won pnl = s := by
  have hkeywords : outcomeCallKeywords.all recordOutcomeKeywords.contains = false := by decide
  unfold notifyOutcome
  rw [hkeywords]
  rfl

theorem onPositionClosed_recorded (config : PerformanceConfig) (now : ℤ) (s : Runtime)
    (pos : TrackedPosition) (closePrice : Option ℚ) :
    (onPositionClosed config now s pos closePrice).recorded = s.recorded := by
  unfold onPositionClosed
  dsimp only
  split
  · rfl
  · split
    · rfl
    · dsimp only
      split
      · rw [notifyOutcome_eq]
      · rfl

theorem syncPosition_recorded (now : ℤ) (s : Runtime) (raw : RawPosition) :
    (syncPosition now s raw).recorded = s.recorded := by
  unfold syncPosition restoreTrackedPosition
  dsimp only
  split
  · rfl
  · split
    · split <;> rfl
    · split <;> rfl

/-- No reconciliation gets a call of `record_outcome` through. -/
theorem reconcileWithMt5_recorded (config : PerformanceConfig) (view : Mt5View) (s : Runtime) :
    (reconcileWithMt5 config view s).recorded = s.recorded := by
  have hsync : (syncOpenPositions view s).recorded = s.recorded :=
    foldl_frame _ (fun t : Runtime => t.recorded) _
      (fun t raw _ => syncPosition_recorded view.now t raw) s
  have hclose := foldl_frame (closeEntry config view) (fun t : Runtime => t.recorded)
    (closingEntries view (syncOpenPositions view s))
    (fun t entry _ => onPositionClosed_recorded config view.now _ entry.2 _)
    (syncOpenPositions view s)
  exact hclose.trans hsync

theorem not_scored (config : PerformanceConfig) (view : Mt5View) (s : Runtime) (close : Close) :
    ¬ Scored s (reconcileWithMt5 config view s) close := by
  intro hscored
  obtain ⟨-, record, hrecord, -⟩ := hscored
  rw [reconcileWithMt5_recorded, List.drop_length] at hrecord
  cases hrecord

theorem step_closes (identity : RuntimeIdentity) (config : PerformanceConfig) (s : Runtime)
    (a : Act) (t : Runtime) (h : s.closes = []) (hquiet : NoPricedClose s a)
    (hstep : step identity config s a = some t) : t.closes = [] := by
  cases a with
  | marketOrder trade =>
    cases Option.some.inj hstep
    unfold executeMarketOrder
    dsimp only
    split <;> exact h
  | pendingFill trade =>
    cases Option.some.inj hstep
    unfold pendingOrderFilled
    dsimp only
    split <;> split <;> exact h
  | reconcile view =>
    cases Option.some.inj hstep
    unfold reconcileWithMt5
    dsimp only
    rw [h, hquiet]
    rfl

/-- In every run the outcomes reach the circuit if and only if no trade of the runtime
ever closes with a price. -/
theorem outcomes_reach_circuit_iff (identity : RuntimeIdentity) (config : PerformanceConfig)
    (labels : List Act) (s : Runtime)
    (hrun : run (step identity config) start labels = some s) :
    (Along (step identity config) (AllScored config) start labels ∧
        PausesAfterLosses config s) ↔
      Along (step identity config) NoPricedClose start labels := by
  constructor
  · intro h
    refine along_mono ?_ h.1
    intro s a hscored
    cases a with
    | marketOrder trade => trivial
    | pendingFill trade => trivial
    | reconcile view =>
      apply List.eq_nil_iff_forall_not_mem.mpr
      intro close hclose
      exact not_scored config view s close (hscored close hclose)
  · intro hquiet
    refine ⟨along_mono ?_ hquiet, ?_⟩
    · intro s a hnone
      cases a with
      | marketOrder trade => trivial
      | pendingFill trade => trivial
      | reconcile view =>
        intro close hclose
        rw [show pricedCloses view s = [] from hnone] at hclose
        cases hclose
    · have hcloses : s.closes = [] :=
        run_invariant_along (I := fun s => s.closes = []) (step_closes identity config) rfl
          hquiet hrun
      intro _ _ hpositive hstreak
      unfold lossStreak at hstreak
      rw [hcloses] at hstreak
      simp at hstreak
      omega

def sampleIdentity : RuntimeIdentity := ⟨"demo:server:7", by decide⟩

def sampleConfig : PerformanceConfig := ⟨true, true, 1, 7200⟩

def samplePosition : TrackedPosition :=
  ⟨1, "sig", "XAUUSD", "buy", 100, "M15", "trend", 1, none, 0⟩

/-- The broker lists these tickets and reports 90 as the price of a close. -/
def sampleView (tickets : List ℤ) : Mt5View :=
  ⟨60, some [], fun _ => some tickets, fun _ => some 90⟩

/-- A trade that stays open. -/
theorem outcomes_reach_circuit_open :
    ∃ s, run (step sampleIdentity sampleConfig) start
        [.marketOrder ⟨samplePosition, 0⟩, .reconcile (sampleView [1])] = some s ∧
      Along (step sampleIdentity sampleConfig) (AllScored sampleConfig) start
        [.marketOrder ⟨samplePosition, 0⟩, .reconcile (sampleView [1])] ∧
      PausesAfterLosses sampleConfig s := by
  obtain ⟨s, hrun⟩ : ∃ s, run (step sampleIdentity sampleConfig) start
      [.marketOrder ⟨samplePosition, 0⟩, .reconcile (sampleView [1])] = some s := ⟨_, rfl⟩
  have hquiet : Along (step sampleIdentity sampleConfig) NoPricedClose start
      [.marketOrder ⟨samplePosition, 0⟩, .reconcile (sampleView [1])] := by
    decide
  exact ⟨s, hrun, (outcomes_reach_circuit_iff _ _ _ s hrun).mpr hquiet⟩

/-- A buy at 100 that closes at 90 is not scored. -/
theorem losing_close_is_not_scored :
    ∃ labels s, run (step sampleIdentity sampleConfig) start labels = some s ∧
      ¬ (Along (step sampleIdentity sampleConfig) (AllScored sampleConfig) start labels ∧
        PausesAfterLosses sampleConfig s) := by
  refine ⟨[.marketOrder ⟨samplePosition, 0⟩, .reconcile (sampleView [])], _, rfl, ?_⟩
  intro hscored
  have hcloses : pricedCloses (sampleView [])
      (executeMarketOrder sampleIdentity start ⟨samplePosition, 0⟩) =
        [⟨samplePosition, 90, 60⟩] := by
    decide
  have hreconcile := (hscored.1.2 _ rfl).1
  refine not_scored sampleConfig (sampleView []) _ _ (hreconcile ⟨samplePosition, 90, 60⟩ ?_)
  rw [hcloses]
  exact List.mem_singleton_self _

end MT5Services.TradeOutcomes
