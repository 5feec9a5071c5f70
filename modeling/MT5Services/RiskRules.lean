import MT5Services.PyNumber
import MT5Services.TradeFrequency

/-!
The pre-trade rules that depend on data: structural limits over the open positions, the
daily loss limit, the margin check and the trade frequency windows. Under the policy
`fail_closed` a rule whose data is missing should block; a reading that fails does block,
but the daily loss limit lets the trade pass when the account gives no figures for it.
Numbers are exact rationals.
-/
namespace MT5Services.RiskRules

open PyText PyNumber TradeFrequency

structure RiskSettings extends TradeFrequency.RiskSettings where
  dataUnavailablePolicy : String
  maxVolumePerOrder : Option ℚ
  maxPositionsPerSymbol : Option ℤ
  maxOpenPositionsTotal : Option ℤ
  maxPendingOrdersPerSymbol : Option ℤ
  maxVolumePerSymbol : Option ℚ
  maxNetLotsPerSymbol : Option ℚ
  dailyLossLimitPct : Option ℚ
  marginSafetyFactor : Option ℚ

inductive Detail
  | number (value : ℚ)
  | text (value : String)
  deriving DecidableEq, Repr

/-- A check with its details. -/
structure RuleCheck extends RiskCheckResult where
  details : List (String × Detail)
  deriving DecidableEq, Repr

/-- A value as `_numeric` meets it; what `float` parses is a number. -/
inductive Field
  | none
  | number (value : ℚ)
  | notNumeric
  deriving DecidableEq, Repr

/-- `_numeric`. -/
def numeric : Field → Option ℚ
  | .number value => some value
  | .none | .notNumeric => Option.none

structure Position where
  type : ℤ
  volume : Option ℚ
  deriving DecidableEq, Repr

structure AccountInfo where
  balance : Field
  equity : Field
  marginFree : Field
  dayStartBalance : Field
  dailyRealizedPnl : Field
  dailyPnl : Field
  deriving DecidableEq, Repr

/-- What each call of the account provider gives; an exception carries its text. -/
structure AccountProvider where
  accountInfo : Except String AccountInfo
  positions : Option String → Except String (List Position)
  orders : Option String → Except String (List Position)

/-- The entries of `intent.metadata` that the rules read; `none` where the key is absent. -/
structure IntentMetadata where
  dailyLossPct : Option Field
  dayStartBalance : Option Field
  dailyRealizedPnl : Option Field
  dailyPnl : Option Field
  estimatedMargin : Option Field

structure TradeIntent where
  symbol : String
  volume : ℚ
  side : String
  metadata : IntentMetadata

/-- The frequency provider by the start of a window, `none` where there is none, and the
trades that the rule itself recorded. -/
structure FrequencyHistory where
  provider : Option (Window → Except String ℤ)
  tradeTimestamps : List ℤ

structure RuleContext where
  intent : TradeIntent
  riskSettings : RiskSettings
  accountProvider : Option AccountProvider
  frequency : FrequencyHistory
  now : ℤ

def riskDataPolicy (settings : RiskSettings) : String :=
  let policy := lower (strip settings.dataUnavailablePolicy)
  if ["warn_only", "fail_closed"].contains policy then policy else "warn_only"

/-- `_risk_data_unavailable_check`. -/
def riskDataUnavailableCheck (settings : RiskSettings) (name reason : String)
    (details : List (String × Detail)) : RuleCheck where
  name := name
  verdict := if riskDataPolicy settings = "fail_closed" then "block" else "warn"
  reason := some (if riskDataPolicy settings = "fail_closed" then "risk_data_unavailable" else reason)
  details := ("data_unavailable_policy", .text (riskDataPolicy settings)) ::
    ("source_reason", .text reason) :: details

/-- The check of a missing provider, which a lenient policy does not even mention. -/
def unavailableWhenClosed (settings : RiskSettings) (name reason : String) : List RuleCheck :=
  if riskDataPolicy settings = "fail_closed" then [riskDataUnavailableCheck settings name reason []]
  else []

/-- The check of one limit. -/
def limitCheck (exceeded : Bool) (name reason : String) (details : List (String × Detail)) :
    List RuleCheck :=
  if exceeded then [{ name := name, verdict := "block", reason := some reason, details := details }]
  else []

def Blocks (checks : List RuleCheck) : Prop := ∃ check ∈ checks, check.verdict = "block"

section Snapshot

variable (settings : RiskSettings) (intent : TradeIntent)

/-- The limit is set and the count has reached it. -/
def countReached (limit : Option ℤ) (count : ℤ) : Bool := limit.any fun bound => bound ≤ count

/-- The limit is set and the amount is above it. -/
def amountAbove (limit : Option ℚ) (amount : ℚ) : Bool := limit.any fun bound => bound < amount

def currentVolume (positions : List Position) : ℚ :=
  (positions.map fun position => position.volume.getD 0).sum

def intentSide : String := lower (strip intent.side)

/-- The volume of the positions on the side of the intent. -/
def sameSideVolume (positions : List Position) : ℚ :=
  currentVolume (positions.filter fun position =>
    (intentSide intent = "buy" && position.type = 0) ||
      (intentSide intent = "sell" && position.type = 1))

/-- The net lot limit only knows the two sides. -/
def netLotsAbove (positions : List Position) : Bool :=
  ["buy", "sell"].contains (intentSide intent) &&
    amountAbove settings.maxNetLotsPerSymbol (sameSideVolume intent positions + intent.volume)

def needsAccountSnapshot : Bool :=
  settings.maxPositionsPerSymbol.isSome || settings.maxOpenPositionsTotal.isSome ||
    settings.maxPendingOrdersPerSymbol.isSome || settings.maxVolumePerSymbol.isSome ||
    settings.maxNetLotsPerSymbol.isSome

/-- The three readings of the structural limits. -/
def readAccount (provider : AccountProvider) :
    Except String (List Position × List Position × List Position) := do
  let symbolPositions ← provider.positions (some intent.symbol)
  let allPositions ← provider.positions none
  let symbolOrders ← provider.orders (some intent.symbol)
  return (symbolPositions, allPositions, symbolOrders)

def bound (limit : Option ℤ) : Detail := .number (limit.getD 0)

def structuralChecks (symbolPositions allPositions symbolOrders : List Position) :
    List RuleCheck :=
  limitCheck (countReached settings.maxPositionsPerSymbol symbolPositions.length)
      "max_positions_per_symbol" "Open positions for symbol already at configured limit"
      [("symbol", .text intent.symbol), ("open_positions", .number symbolPositions.length),
        ("limit", bound settings.maxPositionsPerSymbol)] ++
    limitCheck (countReached settings.maxOpenPositionsTotal allPositions.length)
      "max_open_positions_total" "Total open positions already at configured limit"
      [("open_positions", .number allPositions.length),
        ("limit", bound settings.maxOpenPositionsTotal)] ++
    limitCheck (countReached settings.maxPendingOrdersPerSymbol symbolOrders.length)
      "max_pending_orders_per_symbol" "Pending orders for symbol already at configured limit"
      [("symbol", .text intent.symbol), ("pending_orders", .number symbolOrders.length),
        ("limit", bound settings.maxPendingOrdersPerSymbol)] ++
    limitCheck (amountAbove settings.maxVolumePerSymbol
        (currentVolume symbolPositions + intent.volume))
      "max_volume_per_symbol" "Projected symbol exposure exceeds configured limit"
      [("symbol", .text intent.symbol), ("current_volume", .number (currentVolume symbolPositions)),
        ("requested_volume", .number intent.volume),
        ("projected_volume", .number (currentVolume symbolPositions + intent.volume)),
        ("limit", .number (settings.maxVolumePerSymbol.getD 0))] ++
    limitCheck (netLotsAbove settings intent symbolPositions)
      "max_net_lots_per_symbol" "Projected same-direction net lots exceed configured limit"
      [("symbol", .text intent.symbol), ("side", .text (intentSide intent)),
        ("current_same_side_lots", .number (round (sameSideVolume intent symbolPositions) 4)),
        ("requested_volume", .number intent.volume),
        ("projected_net_lots",
          .number (round (sameSideVolume intent symbolPositions + intent.volume) 4)),
        ("limit", .number (settings.maxNetLotsPerSymbol.getD 0))]

end Snapshot

/-- `AccountSnapshotRule.evaluate`. -/
def accountSnapshotRule (context : RuleContext) : List RuleCheck :=
  let settings := context.riskSettings
  let intent := context.intent
  if !settings.enabled then []
  else
    limitCheck (amountAbove settings.maxVolumePerOrder intent.volume) "max_volume_per_order"
        "Requested volume exceeds per-order limit"
        [("requested_volume", .number intent.volume),
          ("limit", .number (settings.maxVolumePerOrder.getD 0))] ++
      if !needsAccountSnapshot settings then []
      else
        match context.accountProvider with
        | none =>
          unavailableWhenClosed settings "account_snapshot"
            "Account state provider unavailable for structural risk checks"
        | some provider =>
          match readAccount intent provider with
          | .error message =>
            [riskDataUnavailableCheck settings "account_snapshot"
              "Account state unavailable for structural risk checks" [("error", .text message)]]
          | .ok (symbolPositions, allPositions, symbolOrders) =>
            structuralChecks settings intent symbolPositions allPositions symbolOrders

/-- The result of `_resolve_loss_details`; `rest` are the entries after these two. -/
structure LossDetails where
  lossPct : Option ℚ
  source : String
  rest : List (String × Detail)

section Loss

variable (metadata : IntentMetadata) (info : AccountInfo)

def startBalance : Option ℚ := numeric (metadata.dayStartBalance.getD info.dayStartBalance)

def dailyPnl : Option ℚ :=
  (numeric (metadata.dailyRealizedPnl.getD info.dailyRealizedPnl)).or
    (numeric (metadata.dailyPnl.getD info.dailyPnl))

/-- A loss of `lost` in percent of `whole`. -/
def lossPercent (lost whole : ℚ) : ℚ := max 0 (lost / whole * 100)

/-- The loss by the day's profit, where a positive start balance is known. -/
def pnlLoss : Option ℚ :=
  ((startBalance metadata info).filter (0 < ·)).bind fun start =>
    (dailyPnl metadata info).map fun pnl => lossPercent (-pnl) start

def equityLoss : Option ℚ :=
  ((startBalance metadata info).filter (0 < ·)).bind fun start =>
    (numeric info.equity).map fun equity => lossPercent (start - equity) start

/-- The drawdown of the equity against a positive balance. -/
def drawdownLoss : Option ℚ :=
  ((numeric info.balance).filter (0 < ·)).bind fun balance =>
    (numeric info.equity).map fun equity => lossPercent (balance - equity) balance

def amount (value : Option ℚ) : Detail := .number (value.getD 0)

/-- `_resolve_loss_details`. -/
def resolveLossDetails : LossDetails :=
  match metadata.dailyLossPct.bind numeric with
  | some loss => ⟨some (max loss 0), "intent_metadata.daily_loss_pct", []⟩
  | none =>
    match pnlLoss metadata info, equityLoss metadata info with
    | some byPnl, some byEquity =>
      ⟨some (round (max byPnl byEquity) 4), "cross_validated",
        [("day_start_balance", amount (startBalance metadata info)),
          ("daily_pnl", amount (dailyPnl metadata info)), ("equity", amount (numeric info.equity)),
          ("pnl_loss_pct", .number (round byPnl 4)), ("equity_loss_pct", .number (round byEquity 4))]⟩
    | some byPnl, none =>
      ⟨some (round byPnl 4), "daily_pnl_vs_day_start_balance",
        [("day_start_balance", amount (startBalance metadata info)),
          ("daily_pnl", amount (dailyPnl metadata info))]⟩
    | none, some byEquity =>
      ⟨some (round byEquity 4), "equity_vs_day_start_balance",
        [("day_start_balance", amount (startBalance metadata info)),
          ("equity", amount (numeric info.equity))]⟩
    | none, none =>
      match drawdownLoss info with
      | some byDrawdown =>
        ⟨some (round byDrawdown 4), "equity_balance_drawdown_proxy",
          [("balance", amount (numeric info.balance)), ("equity", amount (numeric info.equity))]⟩
      | none => ⟨none, "unavailable", []⟩

end Loss

/-- `DailyLossLimitRule.evaluate`. -/
def dailyLossLimitRule (context : RuleContext) : List RuleCheck :=
  let settings := context.riskSettings
  if !settings.enabled then []
  else
    match settings.dailyLossLimitPct.filter (0 < ·) with
    | none => []
    | some limit =>
      match context.accountProvider.map AccountProvider.accountInfo with
      | none =>
        unavailableWhenClosed settings "daily_loss_limit"
          "Daily loss limit unavailable because account provider is not configured"
      | some (.error message) =>
        [riskDataUnavailableCheck settings "daily_loss_limit"
          "Daily loss limit unavailable because account info could not be loaded"
          [("error", .text message)]]
      | some (.ok info) =>
        let details := resolveLossDetails context.intent.metadata info
        limitCheck (details.lossPct.any fun loss => limit ≤ loss) "daily_loss_limit"
          "daily_loss_limit_reached"
          (("loss_pct", amount details.lossPct) :: ("source", .text details.source) ::
            details.rest ++ [("limit_pct", .number limit)])

/-- `MarginAvailabilityRule.evaluate`. -/
def marginAvailabilityRule (context : RuleContext) : List RuleCheck :=
  let settings := context.riskSettings
  let safety := settings.marginSafetyFactor.getD 0
  if !settings.enabled then []
  else if safety ≤ 0 then []
  else
    match context.accountProvider with
    | none =>
      unavailableWhenClosed settings "margin_availability"
        "Margin check unavailable because account provider is not configured"
    | some provider =>
      match (context.intent.metadata.estimatedMargin.bind numeric).filter (0 < ·) with
      | none =>
        unavailableWhenClosed settings "margin_availability" "Margin estimate unavailable for trade"
      | some estimated =>
        match provider.accountInfo with
        | .error _ =>
          [riskDataUnavailableCheck settings "margin_availability"
            "Margin check unavailable: account info could not be loaded" []]
        | .ok info =>
          match numeric info.marginFree with
          | none =>
            [riskDataUnavailableCheck settings "margin_availability"
              "Free margin data unavailable from account info"
              [("estimated_margin", .number estimated)]]
          | some free =>
            limitCheck (free < estimated * safety) "margin_availability"
              "Insufficient free margin for trade"
              [("estimated_margin", .number (round estimated 2)),
                ("required_margin", .number (round (estimated * safety) 2)),
                ("free_margin", .number (round free 2)), ("safety_factor", .number safety),
                ("shortfall", .number (round (estimated * safety - free) 2))]

section Frequency

variable (context : RuleContext)

/-- `_count_trades_since` for the start of a window. -/
def countTrades (window : Window) : Except String ℤ :=
  match context.frequency.provider with
  | some count => (count window).map (max 0)
  | none =>
    .ok (context.frequency.tradeTimestamps.countP fun time => window.since context.now ≤ time)

def countName : Window → String
  | .day => "trades_today"
  | .hour => "trades_last_hour"

/-- The check of one window; an exception of the provider gets out. -/
def windowChecks (window : Window) : Except String (List RuleCheck) :=
  match context.riskSettings.limit window with
  | none => .ok []
  | some limit =>
    (countTrades context window).map fun count =>
      limitCheck (limit ≤ count) window.ruleName window.reason
        [(countName window, .number count), ("limit", .number limit)]

def historyUnavailable (message : String) : List RuleCheck :=
  [riskDataUnavailableCheck context.riskSettings "trade_frequency"
    "Trade frequency history unavailable" [("error", .text message)]]

/-- `TradeFrequencyRule.evaluate`: a failed reading replaces what was collected before. -/
def evaluateTradeFrequency : List RuleCheck :=
  if !context.riskSettings.enabled then []
  else
    match windowChecks context .day with
    | .error message => historyUnavailable context message
    | .ok dayChecks =>
      match windowChecks context .hour with
      | .error message => historyUnavailable context message
      | .ok hourChecks => dayChecks ++ hourChecks

end Frequency

theorem blocks_append {front back : List RuleCheck} :
    Blocks (front ++ back) ↔ Blocks front ∨ Blocks back := by
  simp only [Blocks, List.mem_append, or_and_right, exists_or]

theorem not_blocks_nil : ¬ Blocks [] := by
  rintro ⟨check, hcheck, _⟩
  cases hcheck

theorem blocks_limitCheck {exceeded : Bool} {name reason : String}
    {details : List (String × Detail)} :
    Blocks (limitCheck exceeded name reason details) ↔ exceeded = true := by
  cases exceeded with
  | false => exact iff_of_false not_blocks_nil Bool.false_ne_true
  | true => exact iff_of_true ⟨_, List.mem_singleton_self _, rfl⟩ rfl

theorem blocks_riskDataUnavailableCheck {settings : RiskSettings} {name reason : String}
    {details : List (String × Detail)} :
    Blocks [riskDataUnavailableCheck settings name reason details] ↔
      riskDataPolicy settings = "fail_closed" := by
  simp only [Blocks, List.mem_singleton, exists_eq_left, riskDataUnavailableCheck]
  split
  · rename_i hclosed
    exact iff_of_true rfl hclosed
  · rename_i hopen
    exact iff_of_false (by decide) hopen

theorem blocks_unavailableWhenClosed {settings : RiskSettings} {name reason : String}
    (hclosed : riskDataPolicy settings = "fail_closed") :
    Blocks (unavailableWhenClosed settings name reason) := by
  rw [unavailableWhenClosed, if_pos hclosed]
  exact blocks_riskDataUnavailableCheck.mpr hclosed

section Windows

variable {context : RuleContext}

/-- The rule is on and the count of the window, where it is read, has reached its limit. -/
def WindowReached (context : RuleContext) (window : Window) : Prop :=
  context.riskSettings.enabled = true ∧ ∃ limit count,
    context.riskSettings.limit window = some limit ∧ countTrades context window = .ok count ∧
      limit ≤ count

/-- A limit is set for the window and reading its count raises. -/
def WindowFails (context : RuleContext) (window : Window) : Prop :=
  (context.riskSettings.limit window).isSome = true ∧
    ∃ message, countTrades context window = .error message

theorem windowChecks_error {window : Window} :
    (∃ message, windowChecks context window = .error message) ↔ WindowFails context window := by
  unfold windowChecks WindowFails
  cases context.riskSettings.limit window with
  | none => simp
  | some limit =>
    cases countTrades context window with
    | error message => simp [Except.map]
    | ok count => simp [Except.map]

theorem windowChecks_reached {window : Window} (h : WindowReached context window) :
    ∃ checks, windowChecks context window = .ok checks ∧ Blocks checks := by
  obtain ⟨_, limit, count, hlimit, hcount, hle⟩ := h
  refine ⟨_, by rw [windowChecks, hlimit, hcount]; rfl, ?_⟩
  exact blocks_limitCheck.mpr (decide_eq_true hle)

theorem blocks_historyUnavailable {message : String} :
    Blocks (historyUnavailable context message) ↔
      riskDataPolicy context.riskSettings = "fail_closed" :=
  blocks_riskDataUnavailableCheck

/-- With a failing window the rule blocks by its policy alone. -/
theorem blocks_of_fails (henabled : context.riskSettings.enabled = true) {window : Window}
    (hfails : WindowFails context window) :
    Blocks (evaluateTradeFrequency context) ↔
      riskDataPolicy context.riskSettings = "fail_closed" := by
  unfold evaluateTradeFrequency
  rw [henabled]
  cases hday : windowChecks context .day with
  | error message => exact blocks_historyUnavailable
  | ok dayChecks =>
    obtain ⟨message, hmessage⟩ := windowChecks_error.mpr hfails
    cases window with
    | day => cases hday.symm.trans hmessage
    | hour =>
      rw [hmessage]
      exact blocks_historyUnavailable

/-- Without a failing window a reached limit blocks. -/
theorem blocks_of_reached {window : Window} (hreached : WindowReached context window)
    (hreads : ∀ other, ¬ WindowFails context other) : Blocks (evaluateTradeFrequency context) := by
  have hok (other : Window) : ∃ checks, windowChecks context other = .ok checks := by
    cases hchecks : windowChecks context other with
    | error message => exact absurd (windowChecks_error.mp ⟨message, hchecks⟩) (hreads other)
    | ok checks => exact ⟨checks, rfl⟩
  obtain ⟨dayChecks, hday⟩ := hok .day
  obtain ⟨hourChecks, hhour⟩ := hok .hour
  obtain ⟨checks, hchecks, hblocks⟩ := windowChecks_reached hreached
  unfold evaluateTradeFrequency
  rw [hreached.1, hday, hhour]
  apply blocks_append.mpr
  cases window with
  | day =>
    cases hday.symm.trans hchecks
    exact Or.inl hblocks
  | hour =>
    cases hhour.symm.trans hchecks
    exact Or.inr hblocks

end Windows

section Answers

variable {context : RuleContext} {account : String} {tables : Tables}

/-- The provider counts the rows of the tables. -/
def Answers (context : RuleContext) (account : String) (tables : Tables) : Prop :=
  context.frequency.provider = some fun window =>
    .ok (countTradesSince tables account (window.since context.now) context.now : ℕ)

theorem windowChecks_answers (h : Answers context account tables) (window : Window) :
    ∃ checks, windowChecks context window = .ok checks ∧
      checks.map RuleCheck.toRiskCheckResult =
        (windowCheck context.riskSettings.toRiskSettings account tables context.now
          window).toList := by
  have hcount : countTrades context window =
      .ok (countTradesSince tables account (window.since context.now) context.now : ℕ) := by
    rw [countTrades, h]
    exact congrArg Except.ok (max_eq_right (Int.natCast_nonneg _))
  unfold windowChecks windowCheck
  rw [hcount]
  cases context.riskSettings.limit window with
  | none => exact ⟨[], rfl, rfl⟩
  | some limit =>
    refine ⟨_, rfl, ?_⟩
    dsimp only [Option.bind_some]
    by_cases hle : limit ≤ (countTradesSince tables account (window.since context.now)
      context.now : ℕ)
    · rw [if_pos hle, decide_eq_true hle]
      rfl
    · rw [if_neg hle, decide_eq_false hle]
      rfl

/-- Where the provider answers the rule is that of the tables. -/
theorem evaluateTradeFrequency_answers (h : Answers context account tables) :
    (evaluateTradeFrequency context).map RuleCheck.toRiskCheckResult =
      tradeFrequencyRule context.riskSettings.toRiskSettings account tables context.now := by
  obtain ⟨dayChecks, hday, hdayMap⟩ := windowChecks_answers h .day
  obtain ⟨hourChecks, hhour, hhourMap⟩ := windowChecks_answers h .hour
  unfold evaluateTradeFrequency tradeFrequencyRule
  rw [hday, hhour]
  cases context.riskSettings.enabled with
  | false => rfl
  | true =>
    dsimp only
    rw [if_neg (by decide), if_pos rfl, List.map_append, hdayMap, hhourMap]
    rw [List.filterMap_cons, List.filterMap_cons, List.filterMap_nil]
    cases windowCheck context.riskSettings.toRiskSettings account tables context.now .day with
    | none =>
      cases windowCheck context.riskSettings.toRiskSettings account tables context.now .hour with
      | none => rfl
      | some _ => rfl
    | some _ =>
      cases windowCheck context.riskSettings.toRiskSettings account tables context.now .hour with
      | none => rfl
      | some _ => rfl

end Answers

/-- A reached limit blocks exactly under the strict policy, or as long as the reading of
the other window does not raise. -/
theorem reached_window_blocks_iff (context : RuleContext) :
    (∀ window, WindowReached context window → Blocks (evaluateTradeFrequency context)) ↔
      riskDataPolicy context.riskSettings = "fail_closed" ∨
        ¬ ∃ window other, WindowReached context window ∧ WindowFails context other := by
  constructor
  · intro hblocks
    by_cases hclosed : riskDataPolicy context.riskSettings = "fail_closed"
    · exact Or.inl hclosed
    · refine Or.inr ?_
      rintro ⟨window, other, hreached, hfails⟩
      exact hclosed ((blocks_of_fails hreached.1 hfails).mp (hblocks window hreached))
  · intro hcond window hreached
    by_cases hfails : ∃ other, WindowFails context other
    · obtain ⟨other, hother⟩ := hfails
      rcases hcond with hclosed | hnone
      · exact (blocks_of_fails hreached.1 hother).mpr hclosed
      · exact absurd ⟨window, other, hreached, hother⟩ hnone
    · exact blocks_of_reached hreached (not_exists.mp hfails)

/-- A context with only frequency limits, five in the day and five in the hour. -/
def fiveTrades (policy : String) (count : Window → Except String ℤ) : RuleContext where
  intent := ⟨"XAUUSD", 1 / 100, "buy", ⟨none, none, none, none, none⟩⟩
  riskSettings :=
    { economicGuardEnabled := false
      enabled := true
      tradeGuardMode := "block"
      maxTradesPerDay := some 5
      maxTradesPerHour := some 5
      preTradeRules := ["trade_frequency"]
      dataUnavailablePolicy := policy
      maxVolumePerOrder := none
      maxPositionsPerSymbol := none
      maxOpenPositionsTotal := none
      maxPendingOrdersPerSymbol := none
      maxVolumePerSymbol := none
      maxNetLotsPerSymbol := none
      dailyLossLimitPct := some 5
      marginSafetyFactor := none }
  accountProvider := none
  frequency := ⟨some count, []⟩
  now := 0

/-- Five trades in the hour, and no answer for the day. -/
def dayUnreadable : Window → Except String ℤ
  | .day => .error "timeout"
  | .hour => .ok 5

/-- The full hour does not block when the day cannot be read. -/
theorem unreadable_day_hides_full_hour :
    ¬ ∀ (context : RuleContext) (window : Window),
      WindowReached context window → Blocks (evaluateTradeFrequency context) := by
  intro hclaim
  have hreached : WindowReached (fiveTrades "warn_only" dayUnreadable) .hour :=
    ⟨rfl, 5, 5, rfl, rfl, le_rfl⟩
  have hfails : WindowFails (fiveTrades "warn_only" dayUnreadable) .day := ⟨rfl, "timeout", rfl⟩
  have hclosed := (blocks_of_fails rfl hfails).mp (hclaim _ .hour hreached)
  exact absurd hclosed (by decide +kernel)

/-- With data a rule blocks exactly when its limit is exceeded, and without data it blocks. -/
def FailsClosed (checks : List RuleCheck) (available exceeded : Prop) : Prop :=
  (available → (Blocks checks ↔ exceeded)) ∧ (¬ available → Blocks checks)

/-- Without data the law asks for nothing but a block. -/
theorem failsClosed_of_missing {checks : List RuleCheck} {available exceeded : Prop}
    (hmissing : ¬ available) (hblocks : Blocks checks) : FailsClosed checks available exceeded :=
  ⟨fun havailable => absurd havailable hmissing, fun _ => hblocks⟩

theorem failsClosed_of_available {checks : List RuleCheck} {available exceeded : Prop}
    (havailable : available) (hblocks : Blocks checks ↔ exceeded) :
    FailsClosed checks available exceeded :=
  ⟨fun _ => hblocks, fun hmissing => absurd havailable hmissing⟩

section Laws

variable (context : RuleContext)

/-- The account provider is there and `account_info` returns. -/
def Loaded (info : AccountInfo) : Prop :=
  ∃ provider, context.accountProvider = some provider ∧ provider.accountInfo = .ok info

def StructuralExceeded (settings : RiskSettings) (intent : TradeIntent)
    (readings : List Position × List Position × List Position) : Prop :=
  countReached settings.maxPositionsPerSymbol readings.1.length = true ∨
    countReached settings.maxOpenPositionsTotal readings.2.1.length = true ∨
    countReached settings.maxPendingOrdersPerSymbol readings.2.2.length = true ∨
    amountAbove settings.maxVolumePerSymbol (currentVolume readings.1 + intent.volume) = true ∨
    netLotsAbove settings intent readings.1 = true

/-- The structural readings succeed. -/
def Read (readings : List Position × List Position × List Position) : Prop :=
  ∃ provider, context.accountProvider = some provider ∧
    readAccount context.intent provider = .ok readings

def SnapshotFailsClosed : Prop :=
  FailsClosed (accountSnapshotRule context)
    (needsAccountSnapshot context.riskSettings = true → ∃ readings, Read context readings)
    (amountAbove context.riskSettings.maxVolumePerOrder context.intent.volume = true ∨
      needsAccountSnapshot context.riskSettings = true ∧ ∃ readings, Read context readings ∧
        StructuralExceeded context.riskSettings context.intent readings)

/-- The figures give a loss: an explicit one, or a positive start balance with a profit or
an equity, or a positive balance with an equity. -/
def LossKnown (metadata : IntentMetadata) (info : AccountInfo) : Prop :=
  metadata.dailyLossPct.bind numeric ≠ none ∨
    (∃ start, startBalance metadata info = some start ∧ 0 < start ∧
      (dailyPnl metadata info ≠ none ∨ numeric info.equity ≠ none)) ∨
    ∃ balance, numeric info.balance = some balance ∧ 0 < balance ∧ numeric info.equity ≠ none

def LossFailsClosed : Prop :=
  ∀ limit, context.riskSettings.dailyLossLimitPct = some limit → 0 < limit →
    FailsClosed (dailyLossLimitRule context)
      (∃ info, Loaded context info ∧ LossKnown context.intent.metadata info)
      (∃ info loss, Loaded context info ∧
        (resolveLossDetails context.intent.metadata info).lossPct = some loss ∧ limit ≤ loss)

def MarginFailsClosed : Prop :=
  ∀ safety, context.riskSettings.marginSafetyFactor = some safety → 0 < safety →
    FailsClosed (marginAvailabilityRule context)
      (∃ info estimated free, Loaded context info ∧
        context.intent.metadata.estimatedMargin.bind numeric = some estimated ∧ 0 < estimated ∧
        numeric info.marginFree = some free)
      (∃ info estimated free, Loaded context info ∧
        context.intent.metadata.estimatedMargin.bind numeric = some estimated ∧
        numeric info.marginFree = some free ∧ free < estimated * safety)

end Laws

section Loss

variable {metadata : IntentMetadata} {info : AccountInfo}

theorem pnlLoss_eq_none :
    pnlLoss metadata info = none ↔
      ¬ ((∃ start, startBalance metadata info = some start ∧ 0 < start) ∧
        dailyPnl metadata info ≠ none) := by
  unfold pnlLoss
  cases startBalance metadata info with
  | none => simp
  | some start =>
    by_cases hstart : 0 < start
    · simp [hstart]
    · simp [hstart]

theorem equityLoss_eq_none :
    equityLoss metadata info = none ↔
      ¬ ((∃ start, startBalance metadata info = some start ∧ 0 < start) ∧
        numeric info.equity ≠ none) := by
  unfold equityLoss
  cases startBalance metadata info with
  | none => simp
  | some start =>
    by_cases hstart : 0 < start
    · simp [hstart]
    · simp [hstart]

theorem drawdownLoss_eq_none :
    drawdownLoss info = none ↔
      ¬ ∃ balance, numeric info.balance = some balance ∧ 0 < balance ∧
        numeric info.equity ≠ none := by
  unfold drawdownLoss
  cases numeric info.balance with
  | none => simp
  | some balance =>
    by_cases hbalance : 0 < balance
    · simp [hbalance]
    · simp [hbalance]

theorem lossPct_eq_none :
    (resolveLossDetails metadata info).lossPct = none ↔
      metadata.dailyLossPct.bind numeric = none ∧ pnlLoss metadata info = none ∧
        equityLoss metadata info = none ∧ drawdownLoss info = none := by
  unfold resolveLossDetails
  cases metadata.dailyLossPct.bind numeric with
  | some loss => simp
  | none =>
    cases pnlLoss metadata info with
    | some byPnl =>
      cases equityLoss metadata info with
      | some byEquity => simp
      | none => simp
    | none =>
      cases equityLoss metadata info with
      | some byEquity => simp
      | none =>
        cases drawdownLoss info with
        | some byDrawdown => simp
        | none => simp

/-- The rule finds a loss exactly where the figures give one. -/
theorem lossKnown_iff :
    LossKnown metadata info ↔ (resolveLossDetails metadata info).lossPct ≠ none := by
  have hstart : (∃ start, startBalance metadata info = some start ∧ 0 < start ∧
        (dailyPnl metadata info ≠ none ∨ numeric info.equity ≠ none)) ↔
      (∃ start, startBalance metadata info = some start ∧ 0 < start) ∧
        (dailyPnl metadata info ≠ none ∨ numeric info.equity ≠ none) := by
    simp only [← and_assoc, exists_and_right]
  apply not_iff_not.mp
  rw [not_ne_iff, lossPct_eq_none, pnlLoss_eq_none, equityLoss_eq_none, drawdownLoss_eq_none,
    LossKnown, hstart, and_or_left]
  simp only [not_or, ne_eq, not_not, and_assoc]

end Loss

section FailClosed

variable {context : RuleContext}

theorem blocks_structuralChecks {settings : RiskSettings} {intent : TradeIntent}
    {readings : List Position × List Position × List Position} :
    Blocks (structuralChecks settings intent readings.1 readings.2.1 readings.2.2) ↔
      StructuralExceeded settings intent readings := by
  simp only [structuralChecks, blocks_append, blocks_limitCheck, StructuralExceeded, or_assoc]

theorem accountSnapshotRule_failsClosed (henabled : context.riskSettings.enabled = true)
    (hpolicy : riskDataPolicy context.riskSettings = "fail_closed") :
    SnapshotFailsClosed context := by
  unfold SnapshotFailsClosed FailsClosed accountSnapshotRule
  dsimp only
  rw [henabled]
  simp only [Bool.not_true, Bool.false_eq_true, if_false, blocks_append, blocks_limitCheck]
  by_cases hneeds : needsAccountSnapshot context.riskSettings = true
  · rw [hneeds]
    simp only [Bool.not_true, Bool.false_eq_true, if_false, true_implies, true_and]
    cases hprovider : context.accountProvider with
    | none =>
      refine ⟨?_, fun _ => Or.inr (blocks_unavailableWhenClosed hpolicy)⟩
      rintro ⟨readings, provider, hread, _⟩
      cases hprovider.symm.trans hread
    | some provider =>
      dsimp only
      cases hread : readAccount context.intent provider with
      | error message =>
        refine ⟨?_, fun _ => Or.inr (blocks_riskDataUnavailableCheck.mpr hpolicy)⟩
        rintro ⟨readings, other, hother, hok⟩
        cases hprovider.symm.trans hother
        cases hread.symm.trans hok
      | ok readings =>
        have hreadings (other : List Position × List Position × List Position) :
            Read context other ↔ other = readings := by
          constructor
          · rintro ⟨found, hfound, hok⟩
            cases hprovider.symm.trans hfound
            cases hread.symm.trans hok
            rfl
          · rintro rfl
            exact ⟨provider, hprovider, hread⟩
        simp only [hreadings, exists_eq_left, exists_eq, not_true_eq_false, false_implies,
          and_true, true_implies]
        exact or_congr_right blocks_structuralChecks
  · have hfalse : needsAccountSnapshot context.riskSettings = false :=
      Bool.eq_false_of_not_eq_true hneeds
    rw [hfalse]
    simp [not_blocks_nil]

theorem dailyLossLimitRule_eq {limit : ℚ} (henabled : context.riskSettings.enabled = true)
    (hlimit : context.riskSettings.dailyLossLimitPct = some limit) (hpos : 0 < limit) :
    dailyLossLimitRule context =
      match context.accountProvider.map AccountProvider.accountInfo with
      | none =>
        unavailableWhenClosed context.riskSettings "daily_loss_limit"
          "Daily loss limit unavailable because account provider is not configured"
      | some (.error message) =>
        [riskDataUnavailableCheck context.riskSettings "daily_loss_limit"
          "Daily loss limit unavailable because account info could not be loaded"
          [("error", .text message)]]
      | some (.ok info) =>
        let details := resolveLossDetails context.intent.metadata info
        limitCheck (details.lossPct.any fun loss => limit ≤ loss) "daily_loss_limit"
          "daily_loss_limit_reached"
          (("loss_pct", amount details.lossPct) :: ("source", .text details.source) ::
            details.rest ++ [("limit_pct", .number limit)]) := by
  have hfilter : context.riskSettings.dailyLossLimitPct.filter (0 < ·) = some limit := by
    rw [hlimit]
    exact if_pos (decide_eq_true hpos)
  unfold dailyLossLimitRule
  dsimp only
  rw [henabled, hfilter]
  rfl

theorem loaded_iff {provider : AccountProvider} {info : AccountInfo}
    (hprovider : context.accountProvider = some provider) (hinfo : provider.accountInfo = .ok info)
    (other : AccountInfo) : Loaded context other ↔ other = info := by
  constructor
  · rintro ⟨found, hfound, hok⟩
    cases hprovider.symm.trans hfound
    cases hinfo.symm.trans hok
    rfl
  · rintro rfl
    exact ⟨provider, hprovider, hinfo⟩

theorem loaded_cases (context : RuleContext) :
    (context.accountProvider = none ∧ ∀ info, ¬ Loaded context info) ∨
      ∃ provider, context.accountProvider = some provider ∧
        ((∃ message, provider.accountInfo = .error message ∧ ∀ info, ¬ Loaded context info) ∨
          ∃ info, provider.accountInfo = .ok info ∧ ∀ other, Loaded context other ↔ other = info) := by
  cases hprovider : context.accountProvider with
  | none =>
    refine Or.inl ⟨rfl, ?_⟩
    rintro info ⟨provider, hsome, _⟩
    cases hprovider.symm.trans hsome
  | some provider =>
    refine Or.inr ⟨provider, rfl, ?_⟩
    cases hinfo : provider.accountInfo with
    | error message =>
      refine Or.inl ⟨message, rfl, ?_⟩
      rintro info ⟨other, hother, hok⟩
      cases hprovider.symm.trans hother
      cases hinfo.symm.trans hok
    | ok info => exact Or.inr ⟨info, rfl, loaded_iff hprovider hinfo⟩

/-- What the daily loss rule does with a configured limit. -/
theorem blocks_dailyLossLimitRule {limit : ℚ} (henabled : context.riskSettings.enabled = true)
    (hpolicy : riskDataPolicy context.riskSettings = "fail_closed")
    (hlimit : context.riskSettings.dailyLossLimitPct = some limit) (hpos : 0 < limit) :
    Blocks (dailyLossLimitRule context) ↔
      (∀ info, ¬ Loaded context info) ∨ ∃ info loss, Loaded context info ∧
        (resolveLossDetails context.intent.metadata info).lossPct = some loss ∧ limit ≤ loss := by
  rw [dailyLossLimitRule_eq henabled hlimit hpos]
  rcases loaded_cases context with ⟨hprovider, hnone⟩ | ⟨provider, hprovider, hcase⟩
  · rw [hprovider]
    exact iff_of_true (blocks_unavailableWhenClosed hpolicy) (Or.inl hnone)
  · rw [hprovider]
    rcases hcase with ⟨message, hinfo, hnone⟩ | ⟨info, hinfo, hloaded⟩
    · simp only [Option.map_some, hinfo]
      exact iff_of_true (blocks_riskDataUnavailableCheck.mpr hpolicy) (Or.inl hnone)
    · have hsome : ¬ ∀ other, ¬ Loaded context other := fun h => h info ((hloaded info).mpr rfl)
      rw [or_iff_right hsome]
      simp only [Option.map_some, hinfo, blocks_limitCheck, Option.any_eq_true, decide_eq_true_eq,
        hloaded, exists_and_left, exists_eq_left]

/-- The daily loss rule keeps the law where loaded figures give a loss, and only there. -/
theorem dailyLossLimitRule_failsClosed_iff (henabled : context.riskSettings.enabled = true)
    (hpolicy : riskDataPolicy context.riskSettings = "fail_closed") :
    LossFailsClosed context ↔
      ∀ limit info, context.riskSettings.dailyLossLimitPct = some limit → 0 < limit →
        Loaded context info → LossKnown context.intent.metadata info := by
  have hsame {info other : AccountInfo} (h : Loaded context info) (h' : Loaded context other) :
      other = info := by
    obtain ⟨provider, hprovider, hinfo⟩ := h
    exact (loaded_iff hprovider hinfo other).mp h'
  constructor
  · intro hlaw limit info hlimit hpos hloaded
    by_contra hunknown
    have hblocks : Blocks (dailyLossLimitRule context) := by
      apply (hlaw limit hlimit hpos).2
      rintro ⟨other, hother, hknown⟩
      rw [hsame hloaded hother] at hknown
      exact hunknown hknown
    rcases (blocks_dailyLossLimitRule henabled hpolicy hlimit hpos).mp hblocks with
      hnone | ⟨other, loss, hother, hloss, _⟩
    · exact hnone info hloaded
    · rw [hsame hloaded hother] at hloss
      exact hunknown (lossKnown_iff.mpr (by rw [hloss]; exact Option.some_ne_none loss))
  · intro hknown limit hlimit hpos
    rw [FailsClosed, blocks_dailyLossLimitRule henabled hpolicy hlimit hpos]
    constructor
    · rintro ⟨info, hloaded, _⟩
      exact or_iff_right fun hnone => hnone info hloaded
    · intro hmissing
      left
      intro info hloaded
      exact hmissing ⟨info, hloaded, hknown limit info hlimit hpos hloaded⟩

theorem marginAvailabilityRule_failsClosed (henabled : context.riskSettings.enabled = true)
    (hpolicy : riskDataPolicy context.riskSettings = "fail_closed") :
    MarginFailsClosed context := by
  intro safety hsafety hpos
  unfold marginAvailabilityRule
  dsimp only
  rw [henabled, hsafety, Option.getD_some, if_neg (by decide), if_neg hpos.not_ge]
  rcases loaded_cases context with ⟨hprovider, hnone⟩ | ⟨provider, hprovider, hcase⟩
  · rw [hprovider]
    apply failsClosed_of_missing _ (blocks_unavailableWhenClosed hpolicy)
    rintro ⟨info, estimated, free, hloaded, _⟩
    exact hnone info hloaded
  · rw [hprovider]
    dsimp only
    cases hestimated : context.intent.metadata.estimatedMargin.bind numeric with
    | none =>
      apply failsClosed_of_missing _ (blocks_unavailableWhenClosed hpolicy)
      rintro ⟨info, estimated, free, _, hsome, _⟩
      cases hsome
    | some estimated =>
      by_cases hpositive : 0 < estimated
      · rw [show (some estimated).filter (0 < ·) = some estimated from
          if_pos (decide_eq_true hpositive)]
        dsimp only
        rcases hcase with ⟨message, hinfo, hnone⟩ | ⟨info, hinfo, hloaded⟩
        · rw [hinfo]
          apply failsClosed_of_missing _ (blocks_riskDataUnavailableCheck.mpr hpolicy)
          rintro ⟨info, estimated, free, hloaded, _⟩
          exact hnone info hloaded
        · rw [hinfo]
          dsimp only
          cases hfree : numeric info.marginFree with
          | none =>
            apply failsClosed_of_missing _ (blocks_riskDataUnavailableCheck.mpr hpolicy)
            rintro ⟨other, _, free, hother, _, _, hsome⟩
            rw [(hloaded other).mp hother, hfree] at hsome
            cases hsome
          | some free =>
            apply failsClosed_of_available
            · exact ⟨info, estimated, free, (hloaded info).mpr rfl, rfl, hpositive, hfree⟩
            · rw [blocks_limitCheck, decide_eq_true_eq]
              constructor
              · intro hshort
                exact ⟨info, estimated, free, (hloaded info).mpr rfl, rfl, hfree, hshort⟩
              · rintro ⟨other, _, free', hother, hsome, hfree', hshort⟩
                cases hsome
                rw [(hloaded other).mp hother, hfree] at hfree'
                cases hfree'
                exact hshort
      · rw [show (some estimated).filter (0 < ·) = none from
          if_neg (by simpa using hpositive)]
        apply failsClosed_of_missing _ (blocks_unavailableWhenClosed hpolicy)
        rintro ⟨info, _, free, _, hsome, hpos', _⟩
        cases hsome
        exact hpositive hpos'

end FailClosed

/-- Under the strict policy all three rules keep the law exactly when the figures of a
loaded account give a loss wherever a daily loss limit is set. -/
theorem fail_closed_iff (context : RuleContext) (henabled : context.riskSettings.enabled = true)
    (hpolicy : riskDataPolicy context.riskSettings = "fail_closed") :
    (SnapshotFailsClosed context ∧ LossFailsClosed context ∧ MarginFailsClosed context) ↔
      ∀ limit info, context.riskSettings.dailyLossLimitPct = some limit → 0 < limit →
        Loaded context info → LossKnown context.intent.metadata info := by
  rw [← dailyLossLimitRule_failsClosed_iff henabled hpolicy]
  constructor
  · rintro ⟨_, hloss, _⟩
    exact hloss
  · intro hloss
    exact ⟨accountSnapshotRule_failsClosed henabled hpolicy, hloss,
      marginAvailabilityRule_failsClosed henabled hpolicy⟩

/-- An account whose figures are all missing. -/
def noFigures : AccountProvider where
  accountInfo := .ok ⟨.none, .none, .none, .none, .none, .none⟩
  positions := fun _ => .ok []
  orders := fun _ => .ok []

/-- A daily loss limit of five percent under the strict policy, on that account. -/
def unknownLoss : RuleContext :=
  { fiveTrades "fail_closed" dayUnreadable with accountProvider := some noFigures }

theorem fail_closed_iff_run :
    unknownLoss.riskSettings.enabled = true ∧
      riskDataPolicy unknownLoss.riskSettings = "fail_closed" ∧
      ((SnapshotFailsClosed unknownLoss ∧ LossFailsClosed unknownLoss ∧
          MarginFailsClosed unknownLoss) ↔
        ∀ limit info, unknownLoss.riskSettings.dailyLossLimitPct = some limit → 0 < limit →
          Loaded unknownLoss info → LossKnown unknownLoss.intent.metadata info) := by
  have hpolicy : riskDataPolicy unknownLoss.riskSettings = "fail_closed" := by decide +kernel
  exact ⟨rfl, hpolicy, fail_closed_iff unknownLoss rfl hpolicy⟩

/-- Without any figure the strict daily loss limit lets the trade pass. -/
theorem missing_figures_pass_loss_limit :
    ¬ ∀ context : RuleContext, context.riskSettings.enabled = true →
      riskDataPolicy context.riskSettings = "fail_closed" →
        SnapshotFailsClosed context ∧ LossFailsClosed context ∧ MarginFailsClosed context := by
  intro hclaim
  have hlaw := (hclaim unknownLoss rfl (by decide +kernel)).2.1 5 rfl (by norm_num)
  have hempty : dailyLossLimitRule unknownLoss = [] := by decide +kernel
  have hunknown : ¬ ∃ info, Loaded unknownLoss info ∧ LossKnown unknownLoss.intent.metadata info := by
    rintro ⟨info, hloaded, hknown⟩
    rw [(loaded_iff rfl rfl info).mp hloaded] at hknown
    exact lossKnown_iff.mp hknown rfl
  have hblocks := hlaw.2 hunknown
  rw [hempty] at hblocks
  exact not_blocks_nil hblocks

end MT5Services.RiskRules
