import MT5Services.MarketOrders

/-!
The cost guard of the executor. `estimate_cost_metrics` relates the spread to the stop
distance, from whatever the metadata of an event has of points, prices and the symbol's
point. The confirmed decision compares the ratio with `max_spread_to_stop_ratio`; the
intrabar path asks the same dictionary for a key `blocked`, which nobody sets. The
parameters, the entry group and the checks before the decision are answers.
-/
namespace MT5Services.CostGuard

open PyNumber PyValue MarketOrders

/-- The metadata that the cost is estimated from. -/
structure Metadata where
  spreadPoints : Value := .missing
  symbolPoint : Value := .missing
  spreadPrice : Value := .missing
  closePrice : Value := .missing

inductive Payload
  | fields (fields : Dict String Value)
  | other

structure SignalEvent where
  signalId : String
  symbol : String
  direction : String
  scope : String
  metadata : Metadata
  indicators : Dict String Payload := Dict.empty

/-- `MaxSingleTradeLossPolicy`; a negative cap cannot be built. -/
structure MaxSingleTradeLossPolicy where
  maxLossUsd : Option ℚ := none
  nonneg : ∀ cap ∈ maxLossUsd, 0 ≤ cap := by simp

structure ExecutorConfig where
  enabled : Bool
  contractSizeMap : Dict String ℚ
  maxSpreadToStopRatio : ℚ := 33 / 100
  maxSingleTradeLossPolicy : MaxSingleTradeLossPolicy := {}

inductive EntryType
  | market
  | limit
  | stop
  deriving DecidableEq, Repr

def EntryType.value : EntryType → String
  | .market => "market"
  | .limit => "limit"
  | .stop => "stop"

structure EntrySpecMember where
  memberId : String
  entryType : EntryType
  triggerPrice : ℚ

/-- A group has members, and no two of them share an identifier. -/
structure EntrySpecGroup where
  members : List EntrySpecMember
  nonempty : members ≠ []
  nodup : (members.map EntrySpecMember.memberId).Nodup

def EntrySpecGroup.allMarket (group : EntrySpecGroup) : Bool :=
  group.members.all fun member => member.entryType = .market

/-- The entry type that a decision names. -/
def EntrySpecGroup.entryType (group : EntrySpecGroup) : String :=
  match group.members with
  | [] => "market"
  | [member] => member.entryType.value
  | _ :: _ :: _ => "oco"

/-- An exception; a negative number is one that "must be >= 0" under its name. -/
inductive Error
  | keyError (key : String)
  | negative (name : String) (got : ℚ)
  | other (message : String)
  deriving DecidableEq, Repr

/-- What the rest of the executor answers for one event, or raises. -/
structure Answers where
  coordination : Option String := none
  runConfirmed : Except Error (Option String) := .ok none
  runIntrabar : Except Error (Option String) := .ok none
  computeParams : Except Error (Option TradeParameters)
  entryGroup : Except Error (Option EntrySpecGroup)
  pendingManager : Bool
  emission : Option Error := none
  preparing : Option Error := none

/-! The cost of a trade. -/

/-- The first field of the first indicator that is a number. -/
def estimatePrice (indicators : Dict String Payload) : Option ℚ :=
  ["bollinger20", "sma20", "close", "price"].findSome? fun name =>
    match indicators.get? name with
    | some (.fields payload) =>
      ["close", "value", "last", "bb_mid", "sma"].findSome? fun field =>
        (payload.get? field).bind Value.toFloat
    | _ => none

def symbolPoint (metadata : Metadata) : Option ℚ :=
  metadata.symbolPoint.toFloat.filter fun point => 0 < point

/-- The spread as a price, from the points if it has to be. -/
def spreadPrice (metadata : Metadata) : Option ℚ :=
  metadata.spreadPrice.toFloat <|>
    metadata.spreadPoints.toFloat.bind fun points =>
      (symbolPoint metadata).map fun point => points * point

/-- The spread in points, from the price if it has to be. -/
def spreadPoints (metadata : Metadata) : Option ℚ :=
  metadata.spreadPoints.toFloat <|>
    (spreadPrice metadata).bind fun price => (symbolPoint metadata).map fun point => price / point

def closePrice (event : SignalEvent) : Option ℚ :=
  (event.metadata.closePrice.toFloat.filter fun close => 0 < close) <|>
    estimatePrice event.indicators

def stopDistance (event : SignalEvent) (params : TradeParameters) : Option ℚ :=
  ((closePrice event).filter fun close => 0 < close).map fun close => |close - params.stopLoss|

def rewardDistance (event : SignalEvent) (params : TradeParameters) : Option ℚ :=
  ((closePrice event).filter fun close => 0 < close).map fun close => |params.takeProfit - close|

/-- A distance in points. -/
def inPoints (metadata : Metadata) (distance : Option ℚ) : Option ℚ :=
  (symbolPoint metadata).bind fun point => distance.map fun distance => distance / point

def spreadToStopRatio (event : SignalEvent) (params : TradeParameters) : Option ℚ :=
  (spreadPoints event.metadata).bind fun points =>
    match (inPoints event.metadata (stopDistance event params)).filter fun d => 0 < d with
    | some distance => some (round (points / distance) 4)
    | none =>
      (spreadPrice event.metadata).bind fun price =>
        ((stopDistance event params).filter fun d => 0 < d).map fun distance =>
          round (price / distance) 4

def rewardToCostRatio (event : SignalEvent) (params : TradeParameters) : Option ℚ :=
  ((spreadPoints event.metadata).filter fun points => 0 < points).bind fun points =>
    match inPoints event.metadata (rewardDistance event params) with
    | some distance => some (round (distance / points) 4)
    | none =>
      ((spreadPrice event.metadata).filter fun price => 0 < price).bind fun price =>
        (rewardDistance event params).map fun distance => round (distance / price) 4

/-- The dictionary that `estimate_cost_metrics` returns. -/
def estimateCostMetrics (event : SignalEvent) (params : TradeParameters) :
    Dict String (Option ℚ) where
  items :=
    [("estimated_cost_points", spreadPoints event.metadata),
      ("estimated_cost_price", (spreadPrice event.metadata).map fun price => round price 6),
      ("symbol_point", symbolPoint event.metadata),
      ("stop_distance", (stopDistance event params).map fun d => round d 4),
      ("stop_distance_points",
        (inPoints event.metadata (stopDistance event params)).map fun d => round d 2),
      ("reward_distance", (rewardDistance event params).map fun d => round d 4),
      ("reward_distance_points",
        (inPoints event.metadata (rewardDistance event params)).map fun d => round d 2),
      ("spread_to_stop_ratio", spreadToStopRatio event params),
      ("reward_to_cost_ratio", rewardToCostRatio event params)]
  nodup := by
    show ["estimated_cost_points", "estimated_cost_price", "symbol_point", "stop_distance",
      "stop_distance_points", "reward_distance", "reward_distance_points", "spread_to_stop_ratio",
      "reward_to_cost_ratio"].Nodup
    decide

/-- `cost_metrics.get(key)`. -/
def metric (costMetrics : Dict String (Option ℚ)) (key : String) : Option ℚ :=
  (costMetrics.get? key).join

/-! The decisions. -/

structure ExecutionDecision where
  tradeParams : Option TradeParameters
  costMetrics : Option (Dict String (Option ℚ))
  useMarket : Bool
  entryType : String
  rejectReason : Option String := none
  spreadToStopRatio : Option ℚ := none

/-- An order as it is handed to `dispatch_operation`. -/
structure Order where
  symbol : String
  volume : ℚ
  side : String
  orderKind : String
  price : Option ℚ := none
  sl : ℚ
  tp : ℚ
  requestId : String
  deriving DecidableEq, Repr

inductive Outcome
  | skip (reason : String)
  | raises (error : Error)
  | executed
  deriving DecidableEq, Repr

structure Run where
  dispatched : List Order
  outcome : Outcome

section Event

variable (config : ExecutorConfig) (answers : Answers) (event : SignalEvent)

/-- The comparison with `max_spread_to_stop_ratio`; a missing ratio passes. -/
def tooExpensive (ratio : Option ℚ) : Bool :=
  ratio.any fun ratio => config.maxSpreadToStopRatio < ratio

/-- `check_single_trade_loss_cap`, of which the callers use `allowed`. -/
def checkSingleTradeLossCap (policy : MaxSingleTradeLossPolicy)
    (positionSize slDistance contractSize : ℚ) : Except Error Bool :=
  if positionSize < 0 then .error (.negative "position_size" positionSize)
  else if slDistance < 0 then .error (.negative "sl_distance" slDistance)
  else if contractSize < 0 then .error (.negative "contract_size" contractSize)
  else
    match policy.maxLossUsd with
    | none => .ok true
    | some cap => .ok (slDistance * positionSize * contractSize ≤ cap)

/-- Without a contract size for `default` the look-up raises, even for a known symbol. -/
def checkLossCap (params : TradeParameters) : Except Error Bool :=
  match config.contractSizeMap.get? "default" with
  | none => .error (.keyError "default")
  | some fallback =>
    checkSingleTradeLossCap config.maxSingleTradeLossPolicy params.positionSize params.slDistance
      ((config.contractSizeMap.get? event.symbol).getD fallback)

/-- The decision to trade. -/
def admitted (params : TradeParameters) (group : EntrySpecGroup) (ratio : Option ℚ) :
    ExecutionDecision :=
  ⟨some params, some (estimateCostMetrics event params), group.allMarket, group.entryType, none,
    ratio⟩

/-- The end of both decisions: the loss cap, the entry group and the pending manager. -/
def decideEntry (params : TradeParameters) (ratio : Option ℚ) : Except Error ExecutionDecision :=
  let costMetrics := estimateCostMetrics event params
  match checkLossCap config event params with
  | .error error => .error error
  | .ok false =>
    .ok ⟨some params, some costMetrics, true, "market", some "single_trade_loss_cap_exceeded",
      ratio⟩
  | .ok true =>
    match answers.entryGroup with
    | .error error => .error error
    | .ok none =>
      .ok ⟨some params, some costMetrics, false, "", some "entry_policy_unavailable", ratio⟩
    | .ok (some group) =>
      if !group.allMarket && !answers.pendingManager then
        .ok ⟨some params, some costMetrics, false, group.entryType,
          some "pending_entry_manager_unavailable", ratio⟩
      else .ok (admitted event params group ratio)

def buildConfirmedDecision : Except Error ExecutionDecision :=
  match answers.computeParams with
  | .error error => .error error
  | .ok none => .ok ⟨none, none, true, "market", some "trade_params_unavailable", none⟩
  | .ok (some params) =>
    let costMetrics := estimateCostMetrics event params
    let ratio := metric costMetrics "spread_to_stop_ratio"
    if tooExpensive config ratio then
      .ok ⟨some params, some costMetrics, true, "market", some "spread_to_stop_ratio_too_high",
        ratio⟩
    else decideEntry config answers event params ratio

/-- The intrabar decision does not compare the ratio. -/
def buildIntrabarDecision : Except Error ExecutionDecision :=
  match answers.computeParams with
  | .error error => .error error
  | .ok none => .ok ⟨none, none, true, "market", some "trade_params_unavailable", none⟩
  | .ok (some params) => decideEntry config answers event params none

/-! The orders. -/

def marketOrder (params : TradeParameters) : Order where
  symbol := event.symbol
  volume := params.positionSize
  side := event.direction
  orderKind := "market"
  sl := params.stopLoss
  tp := params.takeProfit
  requestId := event.signalId

/-- The order of a member; stop and target move with its trigger price. -/
def memberOrder (params : TradeParameters) (group : EntrySpecGroup) (member : EntrySpecMember) :
    Order where
  symbol := event.symbol
  volume := params.positionSize
  side := event.direction
  orderKind := member.entryType.value
  price := some member.triggerPrice
  sl := round (params.stopLoss + (member.triggerPrice - params.entryPrice)) 2
  tp := round (params.takeProfit + (member.triggerPrice - params.entryPrice)) 2
  requestId :=
    if group.members.length = 1 then event.signalId else event.signalId ++ "#" ++ member.memberId

/-- `submit_pending_entry`; a member whose dispatch raises does not stop the others. -/
def submitPendingEntry (params : TradeParameters) : Run :=
  if event.signalId = "" then ⟨[], .skip "missing_signal_id"⟩
  else
    match answers.entryGroup with
    | .error error => ⟨[], .raises error⟩
    | .ok none => ⟨[], .skip "pending_order_failed"⟩
    | .ok (some group) =>
      match answers.preparing with
      | some error => ⟨[], .raises error⟩
      | none => ⟨group.members.map (memberOrder event params group), .executed⟩

def execute (decision : ExecutionDecision) : Run :=
  match decision.tradeParams with
  | none => ⟨[], .skip "execution_result_unavailable"⟩
  | some params =>
    if decision.useMarket then ⟨[marketOrder event params], .executed⟩
    else submitPendingEntry answers event params

/-- A rejection, reported on the pipeline bus. -/
def rejected (reason : String) : Run :=
  match answers.emission with
  | some error => ⟨[], .raises error⟩
  | none => ⟨[], .skip reason⟩

/-- The report of the admission comes before the orders. -/
def dispatch (decision : ExecutionDecision) : Run :=
  match answers.emission with
  | some error => ⟨[], .raises error⟩
  | none => execute answers event decision

/-- `_handle_confirmed`. -/
def handleConfirmed : Run :=
  match answers.coordination with
  | some reason => ⟨[], .skip reason⟩
  | none =>
    if !config.enabled then ⟨[], .skip "auto_trade_disabled"⟩
    else
      match answers.runConfirmed with
      | .error error => ⟨[], .raises error⟩
      | .ok (some reason) => ⟨[], .skip reason⟩
      | .ok none =>
        match buildConfirmedDecision config answers event with
        | .error error => ⟨[], .raises error⟩
        | .ok decision =>
          match decision.rejectReason with
          | some reason => rejected answers reason
          | none =>
            if tooExpensive config
                (decision.costMetrics.bind fun c => metric c "spread_to_stop_ratio") then
              rejected answers "spread_to_stop_ratio_too_high"
            else dispatch answers event decision

/-- `cost_metrics is not None and cost_metrics.get("blocked")`. -/
def costBlocked (decision : ExecutionDecision) : Bool :=
  (decision.costMetrics.bind fun c => metric c "blocked").any fun value => value ≠ 0

/-- `_handle_intrabar_entry`. -/
def handleIntrabarEntry : Run :=
  if !config.enabled then ⟨[], .skip "auto_trade_disabled"⟩
  else
    match answers.runIntrabar with
    | .error error => ⟨[], .raises error⟩
    | .ok (some reason) => ⟨[], .skip reason⟩
    | .ok none =>
      match buildIntrabarDecision config answers event with
      | .error error => ⟨[], .raises error⟩
      | .ok decision =>
        match decision.rejectReason with
        | some reason => rejected answers reason
        | none =>
          if costBlocked decision then rejected answers "spread_to_stop_ratio_too_high"
          else dispatch answers event decision

def processEvent : Run :=
  if event.scope = "intrabar" then handleIntrabarEntry config answers event
  else handleConfirmed config answers event

end Event

/-- `estimate_cost_metrics` relates the spread to the stop, and the ratio is above the bound. -/
def Exceeds (config : ExecutorConfig) (answers : Answers) (event : SignalEvent) : Prop :=
  ∃ params, answers.computeParams = .ok (some params) ∧
    tooExpensive config (metric (estimateCostMetrics event params) "spread_to_stop_ratio") = true

/-- An entry group that `execute` dispatches. -/
def Dispatchable (answers : Answers) (event : SignalEvent) (group : EntrySpecGroup) : Prop :=
  group.allMarket = true ∨
    (answers.pendingManager = true ∧ event.signalId ≠ "" ∧ answers.preparing = none)

/-- All other checks of the intrabar path let the event pass. -/
structure IntrabarAdmitted (config : ExecutorConfig) (answers : Answers) (event : SignalEvent)
    (params : TradeParameters) (group : EntrySpecGroup) : Prop where
  enabled : config.enabled = true
  filters : answers.runIntrabar = .ok none
  sized : answers.computeParams = .ok (some params)
  lossCap : checkLossCap config event params = .ok true
  grouped : answers.entryGroup = .ok (some group)
  reported : answers.emission = none
  dispatchable : Dispatchable answers event group

/-- The estimate has no key `blocked`. -/
theorem metric_blocked (event : SignalEvent) (params : TradeParameters) :
    metric (estimateCostMetrics event params) "blocked" = none := rfl

section Proofs

variable {config : ExecutorConfig} {answers : Answers} {event : SignalEvent}
  {params : TradeParameters}

theorem dispatched_rejected (reason : String) : (rejected answers reason).dispatched = [] := by
  unfold rejected
  cases answers.emission with
  | none => rfl
  | some error => rfl

/-- An event without a rejection has passed the loss cap and has an entry group. -/
theorem decideEntry_ok {ratio : Option ℚ} {decision : ExecutionDecision}
    (h : decideEntry config answers event params ratio = .ok decision)
    (hnone : decision.rejectReason = none) :
    checkLossCap config event params = .ok true ∧
      ∃ group, answers.entryGroup = .ok (some group) ∧
        (group.allMarket = true ∨ answers.pendingManager = true) ∧
        decision = admitted event params group ratio := by
  unfold decideEntry at h
  dsimp only at h
  cases hcap : checkLossCap config event params with
  | error error =>
    rw [hcap] at h
    cases h
  | ok allowed =>
    rw [hcap] at h
    cases allowed with
    | false =>
      cases h
      cases hnone
    | true =>
      refine ⟨rfl, ?_⟩
      cases hgroup : answers.entryGroup with
      | error error =>
        rw [hgroup] at h
        cases h
      | ok group =>
        rw [hgroup] at h
        cases group with
        | none =>
          cases h
          cases hnone
        | some group =>
          refine ⟨group, rfl, ?_⟩
          dsimp only at h
          by_cases hmissing : (!group.allMarket && !answers.pendingManager) = true
          · rw [if_pos hmissing] at h
            cases h
            cases hnone
          · rw [if_neg hmissing] at h
            cases h
            refine ⟨?_, rfl⟩
            simpa [or_iff_not_imp_left] using hmissing

/-- The same, the other way round. -/
theorem decideEntry_eq {ratio : Option ℚ} {group : EntrySpecGroup}
    (hcap : checkLossCap config event params = .ok true)
    (hgroup : answers.entryGroup = .ok (some group))
    (hmanager : group.allMarket = true ∨ answers.pendingManager = true) :
    decideEntry config answers event params ratio = .ok (admitted event params group ratio) := by
  have hpresent : ¬ (!group.allMarket && !answers.pendingManager) = true := by
    simpa [or_iff_not_imp_left] using hmanager
  unfold decideEntry
  dsimp only
  rw [hcap]
  dsimp only
  rw [hgroup]
  dsimp only
  rw [if_neg hpresent]

/-- On the confirmed path a ratio above the bound is rejected by the decision. -/
theorem dispatched_handleConfirmed (h : Exceeds config answers event) :
    (handleConfirmed config answers event).dispatched = [] := by
  obtain ⟨params, hparams, hexceeds⟩ := h
  unfold handleConfirmed
  split
  · rfl
  · split
    · rfl
    · split
      · rfl
      · rfl
      · have hdecision : buildConfirmedDecision config answers event =
            .ok ⟨some params, some (estimateCostMetrics event params), true, "market",
              some "spread_to_stop_ratio_too_high", spreadToStopRatio event params⟩ := by
          unfold buildConfirmedDecision
          rw [hparams]
          dsimp only
          rw [if_pos hexceeds]
          rfl
        rw [hdecision]
        exact dispatched_rejected _

/-- A decision on a group dispatches something exactly when the group is dispatchable. -/
theorem dispatched_execute_ne_nil_iff {group : EntrySpecGroup} {ratio : Option ℚ}
    (hgroup : answers.entryGroup = .ok (some group))
    (hmanager : group.allMarket = true ∨ answers.pendingManager = true) :
    (execute answers event (admitted event params group ratio)).dispatched ≠ [] ↔
      Dispatchable answers event group := by
  unfold execute Dispatchable admitted
  dsimp only
  cases hmarket : group.allMarket with
  | true =>
    rw [if_pos rfl]
    exact iff_of_true (List.cons_ne_nil _ _) (Or.inl rfl)
  | false =>
    rw [hmarket] at hmanager
    have hpresent := hmanager.resolve_left Bool.false_ne_true
    rw [if_neg Bool.false_ne_true]
    unfold submitPendingEntry
    by_cases hid : event.signalId = ""
    · simp [hid]
    · rw [if_neg hid, hgroup]
      dsimp only
      cases answers.preparing with
      | some error => simp
      | none => simp [hid, hpresent, group.nonempty]

theorem dispatched_dispatch_ne_nil_iff (decision : ExecutionDecision) :
    (dispatch answers event decision).dispatched ≠ [] ↔
      answers.emission = none ∧ (execute answers event decision).dispatched ≠ [] := by
  unfold dispatch
  cases answers.emission with
  | none => simp
  | some error => simp

/-- What the intrabar path asks for before it dispatches. -/
theorem dispatched_iff_decision :
    (handleIntrabarEntry config answers event).dispatched ≠ [] ↔
      config.enabled = true ∧ answers.runIntrabar = .ok none ∧
        ∃ decision, buildIntrabarDecision config answers event = .ok decision ∧
          decision.rejectReason = none ∧ costBlocked decision = false ∧
          (dispatch answers event decision).dispatched ≠ [] := by
  unfold handleIntrabarEntry
  cases config.enabled with
  | false => simp
  | true =>
    rw [if_neg (by decide)]
    cases answers.runIntrabar with
    | error error => simp
    | ok reason =>
      cases reason with
      | some reason => simp
      | none =>
        dsimp only
        cases buildIntrabarDecision config answers event with
        | error error => simp
        | ok decision =>
          dsimp only
          cases hreason : decision.rejectReason with
          | some reason => simp [dispatched_rejected, hreason]
          | none =>
            cases hblocked : costBlocked decision with
            | true => simp [dispatched_rejected, hblocked]
            | false => simp [hreason, hblocked]

/-- The cost never blocks an intrabar decision: the key that is asked for is not there. -/
theorem costBlocked_admitted (group : EntrySpecGroup) (ratio : Option ℚ) :
    costBlocked (admitted event params group ratio) = false := by
  unfold costBlocked admitted
  rw [Option.bind_some, metric_blocked]
  rfl

/-- The intrabar path dispatches whatever its other checks admit. -/
theorem dispatched_handleIntrabarEntry_ne_nil_iff :
    (handleIntrabarEntry config answers event).dispatched ≠ [] ↔
      ∃ params group, IntrabarAdmitted config answers event params group := by
  rw [dispatched_iff_decision]
  constructor
  · rintro ⟨henabled, hfilters, decision, hdecision, hreason, -, hdispatched⟩
    obtain ⟨hreported, hexecuted⟩ := (dispatched_dispatch_ne_nil_iff decision).mp hdispatched
    unfold buildIntrabarDecision at hdecision
    cases hparams : answers.computeParams with
    | error error =>
      rw [hparams] at hdecision
      cases hdecision
    | ok sized =>
      rw [hparams] at hdecision
      cases sized with
      | none =>
        cases hdecision
        cases hreason
      | some params =>
        obtain ⟨hcap, group, hgroup, hmanager, rfl⟩ := decideEntry_ok hdecision hreason
        have hdispatchable := (dispatched_execute_ne_nil_iff hgroup hmanager).mp hexecuted
        exact ⟨params, group, henabled, hfilters, hparams, hcap, hgroup, hreported,
          hdispatchable⟩
  · rintro ⟨params, group, h⟩
    have hmanager : group.allMarket = true ∨ answers.pendingManager = true :=
      h.dispatchable.imp_right And.left
    refine ⟨h.enabled, h.filters, admitted event params group none, ?_, rfl,
      costBlocked_admitted group none, ?_⟩
    · unfold buildIntrabarDecision
      rw [h.sized]
      exact decideEntry_eq h.lossCap h.grouped hmanager
    · rw [dispatched_dispatch_ne_nil_iff, dispatched_execute_ne_nil_iff h.grouped hmanager]
      exact ⟨h.reported, h.dispatchable⟩

end Proofs

/-- A ratio above the bound stops every order, except that of an intrabar event which all
other checks admit. -/
theorem expensive_stopped_iff (config : ExecutorConfig) (answers : Answers) (event : SignalEvent) :
    (Exceeds config answers event → (processEvent config answers event).dispatched = []) ↔
      ¬ (Exceeds config answers event ∧ event.scope = "intrabar" ∧
        ∃ params group, IntrabarAdmitted config answers event params group) := by
  rw [← dispatched_handleIntrabarEntry_ne_nil_iff]
  unfold processEvent
  by_cases hscope : event.scope = "intrabar"
  · rw [if_pos hscope]
    simp [hscope]
  · rw [if_neg hscope]
    refine iff_of_true dispatched_handleConfirmed ?_
    rintro ⟨-, hintrabar, -⟩
    exact hscope hintrabar

def goldParams : TradeParameters := ⟨2000, 1999, 2002, 1 / 10, 2, 1, 1, 2⟩

def goldConfig : ExecutorConfig where
  enabled := true
  contractSizeMap := Dict.empty.set "default" 100

def marketGroup : EntrySpecGroup where
  members := [⟨"market", .market, 2000⟩]
  nonempty := List.cons_ne_nil _ _
  nodup := List.nodup_singleton _

def goldAnswers : Answers where
  computeParams := .ok (some goldParams)
  entryGroup := .ok (some marketGroup)
  pendingManager := false

/-- A spread of 50 points and a stop at 100 points: the ratio is 0.5, the bound 0.33. -/
def wideSpread (scope : String) : SignalEvent where
  signalId := "sig-1"
  symbol := "XAUUSD"
  direction := "buy"
  scope := scope
  metadata := {
    spreadPoints := .number 50
    symbolPoint := .number (1 / 100)
    closePrice := .number 2000 }

example : (processEvent goldConfig goldAnswers (wideSpread "confirmed")).outcome =
    .skip "spread_to_stop_ratio_too_high" := by decide +kernel

/-- The intrabar event with the wide spread is dispatched at the market. -/
theorem wide_spread_dispatched :
    ¬ ∀ (config : ExecutorConfig) (answers : Answers) (event : SignalEvent),
      Exceeds config answers event → (processEvent config answers event).dispatched = [] := by
  intro h
  have hexceeds : Exceeds goldConfig goldAnswers (wideSpread "intrabar") :=
    ⟨goldParams, rfl, by decide +kernel⟩
  have hdispatched :
      (processEvent goldConfig goldAnswers (wideSpread "intrabar")).dispatched ≠ [] := by
    decide +kernel
  exact hdispatched (h _ _ _ hexceeds)

end MT5Services.CostGuard
