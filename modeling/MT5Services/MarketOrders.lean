import MT5Services.PyValue
import MT5Services.PyText
import MT5Services.Dict

/-!
`execute_market_order`: one `try` around the dispatch of a market order and all that follows
it. The success is booked right after the dispatch; the listeners, the persistence, the
position manager and the outcome tracker have an `except` of their own, but the pipeline bus
and the shift of the parameters to the fill price have not. What these raise is handled as a
failed dispatch, although the order is out.
-/
namespace MT5Services.MarketOrders

open PyText PyNumber PyValue

/-- What a call may raise; a risk block has its message and the reason of its assessment. -/
inductive Raised
  | preTradeRiskBlocked (message reason : String)
  | other (message : String)
  deriving DecidableEq, Repr

structure SignalEvent where
  signalId : String
  symbol : String
  timeframe : String
  strategy : String
  direction : String
  traceId : String
  barTime : Option ℤ
  deriving DecidableEq, Repr

structure TradeParameters where
  entryPrice : ℚ
  stopLoss : ℚ
  takeProfit : ℚ
  positionSize : ℚ
  riskRewardRatio : ℚ
  atrValue : ℚ
  slDistance : ℚ
  tpDistance : ℚ
  deriving DecidableEq, Repr

structure ExecutorConfig where
  maxConsecutiveFailures : ℤ := 3
  circuitAutoResetMinutes : ℤ := 30
  deriving DecidableEq, Repr

/-- The dictionary that the broker answers with. -/
structure Answer where
  status : Value := .missing
  ticket : Value := .missing
  order : Value := .missing
  requestedPrice : Value := .missing
  fillPrice : Value := .missing
  price : Value := .missing
  recoveredFromState : Bool := false
  deriving DecidableEq, Repr

/-- What `dispatch_operation` returns. -/
inductive Reply
  | dict (answer : Answer)
  | other
  deriving DecidableEq, Repr

structure ExecutionQuality where
  recoveredFromState : ℕ := 0
  riskBlocks : ℕ := 0
  slippageSamples : ℕ := 0
  slippageTotalPrice : ℚ := 0
  slippageTotalPoints : ℚ := 0
  deriving DecidableEq, Repr

structure LogEntry where
  signalId : String
  success : Bool
  entryPrice : Option Value := none
  reason : Option String := none
  deriving DecidableEq, Repr

/-- The fields of `TradeExecutor` that the call reads and writes. -/
structure Executor where
  executionCount : ℕ := 0
  lastExecutionAt : Option ℤ := none
  lastError : Option String := none
  lastRiskBlock : Option String := none
  consecutiveFailures : ℤ := 0
  circuitOpen : Bool := false
  circuitOpenAt : Option ℤ := none
  healthCheckFailures : ℕ := 0
  executionQuality : ExecutionQuality := {}
  executionLog : List LogEntry := []
  lastEntryBarTime : Dict (String × String × String × String) ℤ := Dict.empty
  skipReasons : Dict String ℕ := Dict.empty

/-- The calls to the collaborators. -/
inductive Call
  | emitSubmitted
  | emitBlocked
  | listener (index : ℕ)
  | persist (success : Bool)
  | trackPosition (ticket : ℤ) (fillPrice : Option ℚ) (params : TradeParameters)
  | tradeOpened (fillPrice : ℚ)
  | circuitHistory
  deriving DecidableEq, Repr

/-- Which collaborators there are, and what each raises when it is called. -/
structure Collaborators where
  pipelineBus : Bool
  onSubmitted : Option Raised := none
  onBlocked : Option Raised := none
  listeners : List (Option Raised) := []
  persistExecution : Option (Option Raised) := none
  positionManager : Option (Option Raised) := none
  outcomeTracker : Option (Option Raised) := none
  circuitHistory : Option (Option Raised) := none
  deriving DecidableEq, Repr

/-- The result that the caller gets. -/
inductive Result
  | reply (reply : Reply)
  | terminal (status reason : String)
  deriving DecidableEq, Repr

structure Run where
  executor : Executor
  calls : List Call
  ending : Except Raised Result

/-- A call inside an `except` of its own: what it raises goes no further. -/
def guarded (call : Call) (_reply : Option Raised) : List Call := [call]

/-- `record_slippage`. -/
def recordSlippage (s : Executor) (requestedPrice fillPrice : Value) (symbolPoint : Option ℚ) :
    Executor :=
  match requestedPrice.toFloat, fillPrice.toFloat with
  | some requested, some filled =>
    let slippagePrice := round (filled - requested) 6
    let slippagePoints :=
      (symbolPoint.filter fun point => 0 < point).map fun point => round (slippagePrice / point) 2
    { s with
      executionQuality := { s.executionQuality with
        slippageSamples := s.executionQuality.slippageSamples + 1
        slippageTotalPrice := s.executionQuality.slippageTotalPrice + slippagePrice
        slippageTotalPoints := s.executionQuality.slippageTotalPoints + slippagePoints.getD 0 } }
  | _, _ => s

def shiftedParams (params : TradeParameters) (shift fillPrice : ℚ) : TradeParameters :=
  { params with
    entryPrice := fillPrice
    stopLoss := params.stopLoss + shift
    takeProfit := params.takeProfit + shift
    slDistance := |fillPrice - (params.stopLoss + shift)|
    tpDistance := |params.takeProfit + shift - fillPrice| }

/-- `adjust_params_for_fill`: a text among the prices cannot be subtracted. -/
def adjustParamsForFill (params : TradeParameters) (requestedPrice fillPrice : Value) :
    Except Raised TradeParameters :=
  if requestedPrice = .missing ∨ fillPrice = .missing then .ok params
  else
    match requestedPrice.asNumber, fillPrice.asNumber with
    | some requested, some filled =>
      if |filled - requested| < 1 / 10 ^ 10 then .ok params
      else .ok (shiftedParams params (filled - requested) filled)
    | _, _ => .error (.other "unsupported operand type(s) for -")

/-- `requested_price` and `fill_price` of the answer. -/
def pricesOf : Reply → Value × Value
  | .dict answer =>
    (answer.requestedPrice.orElse answer.price, answer.fillPrice.orElse answer.price)
  | .other => (.missing, .missing)

/-- The ticket that the answer returns, if any. -/
def returnedTicket : Reply → Option Value
  | .dict answer =>
    let ticket := answer.ticket.orElse answer.order
    if ticket.truthy then some ticket else none
  | .other => none

/-- `fill_price` as `track_position` and the outcome tracker are given it; `none` where the
conversion raises. -/
def convertedFillPrice : Reply → Option (Option ℚ)
  | .dict answer =>
    if answer.fillPrice = .missing then some none else answer.fillPrice.toFloat.map some
  | .other => some none

section Call

variable (c : Collaborators) (config : ExecutorConfig) (now : ℤ) (event : SignalEvent)

/-- What an emission on the pipeline bus raises. -/
def emission (raised : Option Raised) : Option Raised :=
  if c.pipelineBus && event.traceId ≠ "" then raised else none

def emitted (call : Call) : List Call :=
  if c.pipelineBus && event.traceId ≠ "" then [call] else []

def notifySkip (s : Executor) (reason : String) : Executor :=
  { s with skipReasons := s.skipReasons.set reason ((s.skipReasons.get? reason).getD 0 + 1) }

/-- The handler of `PreTradeRiskBlockedError`. -/
def handleRiskBlock (s : Executor) (calls : List Call) (message reason : String) : Run :=
  let s := { s with
    lastRiskBlock := some message
    executionQuality := { s.executionQuality with
      riskBlocks := s.executionQuality.riskBlocks + 1 } }
  let calls := calls ++ emitted c event .emitBlocked
  match emission c event c.onBlocked with
  | some error => ⟨s, calls, .error error⟩
  | none =>
    ⟨notifySkip { s with
        executionLog := s.executionLog ++
          [{ signalId := event.signalId, success := false, reason := some reason }] } reason,
      calls ++ (c.persistExecution.map (guarded (.persist false))).getD [],
      .ok (.terminal "skipped" reason)⟩

/-- The failure, counted and logged. -/
def countFailure (s : Executor) (message : String) : Executor :=
  notifySkip { s with
    lastError := some message
    consecutiveFailures := s.consecutiveFailures + 1
    executionLog := s.executionLog ++
      [{ signalId := event.signalId, success := false, reason := some message }] }
    "execution_failed"

/-- Whether the failure opens the circuit. -/
def trips (s : Executor) : Bool :=
  !s.circuitOpen && config.maxConsecutiveFailures ≤ s.consecutiveFailures

/-- The handler of any other exception. -/
def handleFailure (s : Executor) (calls : List Call) (message : String) : Run :=
  let s := countFailure event s message
  let failed : List Call → Executor → Run := fun calls s =>
    ⟨s, calls ++ (c.persistExecution.map (guarded (.persist false))).getD [],
      .ok (.terminal "failed" message)⟩
  if trips config s then
    let s := { s with circuitOpen := true, circuitOpenAt := some now }
    match c.circuitHistory with
    | none => failed calls s
    | some none => failed (calls ++ [.circuitHistory]) s
    | some (some error) => ⟨s, calls ++ [.circuitHistory], .error error⟩
  else failed calls s

def handle (s : Executor) (calls : List Call) : Raised → Run
  | .preTradeRiskBlocked message reason => handleRiskBlock c event s calls message reason
  | .other message => handleFailure c config now event s calls message

/-- The success, booked right after the dispatch. -/
def bookSuccess (s : Executor) (reply : Reply) : Executor :=
  { s with
    executionCount := s.executionCount + 1
    lastExecutionAt := some now
    lastError := none
    lastRiskBlock := none
    consecutiveFailures := 0
    executionQuality := { s.executionQuality with
      recoveredFromState := s.executionQuality.recoveredFromState +
        match reply with
        | .dict answer => if answer.recoveredFromState then 1 else 0
        | .other => 0 } }

/-- What an emission of the submission raises; without a dictionary there is none. -/
def submissionRaises (reply : Reply) : Option Raised :=
  match reply with
  | .dict _ => emission c event c.onSubmitted
  | .other => none

def submissionCalls (reply : Reply) : List Call :=
  match reply with
  | .dict _ => emitted c event .emitSubmitted
  | .other => []

/-- `track_position` on the returned ticket, unless a conversion raises. -/
def trackCalls (reply : Reply) (params : TradeParameters) : List Call :=
  match c.positionManager, returnedTicket reply with
  | some raised, some ticket =>
    match ticket.toInt, convertedFillPrice reply with
    | some ticket, some fillPrice => guarded (.trackPosition ticket fillPrice params) raised
    | _, _ => []
  | _, _ => []

def openedCalls (reply : Reply) (params : TradeParameters) : List Call :=
  match c.outcomeTracker, convertedFillPrice reply with
  | some raised, some fillPrice => guarded (.tradeOpened (fillPrice.getD params.entryPrice)) raised
  | _, _ => []

/-- The guarded steps after the parameters are known. -/
def finish (s : Executor) (calls : List Call) (reply : Reply) (params tracking : TradeParameters) :
    Run :=
  let fillPrice := (pricesOf reply).2
  let entryPrice := if fillPrice = .missing then .number tracking.entryPrice else fillPrice
  let s := { s with
    executionLog := s.executionLog ++
      [{ signalId := event.signalId, success := true, entryPrice := some entryPrice }]
    lastEntryBarTime :=
      match event.barTime with
      | some barTime =>
        s.lastEntryBarTime.set (event.symbol, event.timeframe, event.strategy, event.direction)
          barTime
      | none => s.lastEntryBarTime }
  ⟨s,
    calls ++ (c.listeners.mapIdx fun index raised => guarded (.listener index) raised).flatten ++
      (c.persistExecution.map (guarded (.persist true))).getD [] ++ trackCalls c reply tracking ++
      openedCalls c reply params,
    .ok (.reply reply)⟩

/-- All that follows a dispatch that returned. -/
def settle (params : TradeParameters) (symbolPoint : Option ℚ) (s : Executor) (reply : Reply) :
    Run :=
  let s := bookSuccess now s reply
  let calls := submissionCalls c event reply
  match submissionRaises c event reply with
  | some error => handle c config now event s calls error
  | none =>
    let s := recordSlippage s (pricesOf reply).1 (pricesOf reply).2 symbolPoint
    match adjustParamsForFill params (pricesOf reply).1 (pricesOf reply).2 with
    | .error error => handle c config now event s calls error
    | .ok tracking => finish c event s calls reply params tracking

/-- `execute_market_order`, on what the dispatch returned or raised. -/
def executeMarketOrder (params : TradeParameters) (symbolPoint : Option ℚ) (s : Executor)
    (dispatch : Except Raised Reply) : Run :=
  match dispatch with
  | .error error => handle c config now event s [] error
  | .ok reply => settle c config now event params symbolPoint s reply

end Call

/-- The status that a caller reads off a result, as far as failures go. -/
def reportsFailed : Result → Bool
  | .reply (.dict answer) =>
    match answer.status with
    | .text content _ _ => lower (strip content) = "failed"
    | _ => false
  | .reply .other => false
  | .terminal status _ => status = "failed"

/-- A dispatched order is reported, counts as a success, and its position is tracked. -/
structure Booked (reply : Reply) (run : Run) : Prop where
  reported : ∀ result, run.ending = .ok result → reportsFailed result = false
  counted : run.executor.consecutiveFailures = 0
  tracked : ∀ ticket, returnedTicket reply = some ticket →
    ∃ number fillPrice params, ticket.toInt = some number ∧
      Call.trackPosition number fillPrice params ∈ run.calls

/-- The prices of the answer can be subtracted, or one of them is missing. -/
def Subtractable (reply : Reply) : Prop :=
  (pricesOf reply).1 = .missing ∨ (pricesOf reply).2 = .missing ∨
    ((pricesOf reply).1.asNumber.isSome ∧ (pricesOf reply).2.asNumber.isSome)

/-- There is a position manager, and the ticket and the fill price can be converted. -/
def Trackable (c : Collaborators) (reply : Reply) : Prop :=
  ∀ ticket, returnedTicket reply = some ticket →
    c.positionManager.isSome ∧ ticket.toInt.isSome ∧ (convertedFillPrice reply).isSome

/-- No unguarded step raises and the answer does not say "failed" itself. -/
structure Unbroken (c : Collaborators) (event : SignalEvent) (reply : Reply) : Prop where
  submitted : submissionRaises c event reply = none
  prices : Subtractable reply
  status : reportsFailed (.reply reply) = false
  ticket : Trackable c reply

/-- The bus raises a risk block, and the answer has no ticket. -/
def BlockedWithoutTicket (c : Collaborators) (event : SignalEvent) (reply : Reply) : Prop :=
  (∃ message reason, submissionRaises c event reply =
    some (.preTradeRiskBlocked message reason)) ∧ returnedTicket reply = none

theorem adjustParamsForFill_cases (params : TradeParameters) (reply : Reply) :
    (Subtractable reply ∧ ∃ tracking,
        adjustParamsForFill params (pricesOf reply).1 (pricesOf reply).2 = .ok tracking) ∨
      (¬ Subtractable reply ∧ ∃ message,
        adjustParamsForFill params (pricesOf reply).1 (pricesOf reply).2 =
          .error (.other message)) := by
  unfold adjustParamsForFill Subtractable
  generalize (pricesOf reply).1 = requestedPrice
  generalize (pricesOf reply).2 = fillPrice
  by_cases hmissing : requestedPrice = .missing ∨ fillPrice = .missing
  · rw [if_pos hmissing]
    exact Or.inl ⟨hmissing.imp_right Or.inl, params, rfl⟩
  · rw [if_neg hmissing]
    obtain ⟨hrequested, hfill⟩ := not_or.mp hmissing
    cases hr : requestedPrice.asNumber with
    | none =>
      refine Or.inr ⟨?_, _, rfl⟩
      simp [hrequested, hfill]
    | some requested =>
      cases hf : fillPrice.asNumber with
      | none =>
        refine Or.inr ⟨?_, _, rfl⟩
        simp [hrequested, hfill]
      | some filled =>
        refine Or.inl ⟨Or.inr (Or.inr ⟨rfl, rfl⟩), ?_⟩
        dsimp only
        split
        · exact ⟨_, rfl⟩
        · exact ⟨_, rfl⟩

theorem consecutiveFailures_recordSlippage (s : Executor) (requestedPrice fillPrice : Value)
    (symbolPoint : Option ℚ) :
    (recordSlippage s requestedPrice fillPrice symbolPoint).consecutiveFailures =
      s.consecutiveFailures := by
  unfold recordSlippage
  split
  · rfl
  · rfl

/-- A failure is counted, whatever its handler ends with. -/
theorem consecutiveFailures_handleFailure (c : Collaborators) (config : ExecutorConfig) (now : ℤ)
    (event : SignalEvent) (s : Executor) (calls : List Call) (message : String) :
    (handleFailure c config now event s calls message).executor.consecutiveFailures =
      s.consecutiveFailures + 1 := by
  unfold handleFailure
  dsimp only
  split
  · cases c.circuitHistory with
    | none => rfl
    | some raised =>
      cases raised with
      | none => rfl
      | some error => rfl
  · rfl

section Tracking

variable {c : Collaborators} {event : SignalEvent} {reply : Reply} {number : ℤ}
  {fillPrice : Option ℚ} {tracked : TradeParameters}

theorem track_notMem_emitted (call : Call)
    (h : Call.trackPosition number fillPrice tracked ≠ call) :
    Call.trackPosition number fillPrice tracked ∉ emitted c event call := by
  unfold emitted
  split
  · simpa using h
  · exact List.not_mem_nil

theorem track_notMem_submissionCalls :
    Call.trackPosition number fillPrice tracked ∉ submissionCalls c event reply := by
  unfold submissionCalls
  cases reply with
  | dict answer => exact track_notMem_emitted .emitSubmitted Call.noConfusion
  | other => exact List.not_mem_nil

theorem track_notMem_persist (success : Bool) :
    Call.trackPosition number fillPrice tracked ∉
      (c.persistExecution.map (guarded (.persist success))).getD [] := by
  cases c.persistExecution with
  | none => exact List.not_mem_nil
  | some raised => simp [guarded]

/-- The handler of a risk block tracks no position. -/
theorem track_notMem_handleRiskBlock (s : Executor) (message reason : String) :
    Call.trackPosition number fillPrice tracked ∉
      (handleRiskBlock c event s (submissionCalls c event reply) message reason).calls := by
  have hblocked : Call.trackPosition number fillPrice tracked ∉
      submissionCalls c event reply ++ emitted c event .emitBlocked := by
    rw [List.mem_append]
    exact fun h => h.elim track_notMem_submissionCalls
      (track_notMem_emitted .emitBlocked Call.noConfusion)
  unfold handleRiskBlock
  dsimp only
  cases emission c event c.onBlocked with
  | none =>
    dsimp only
    rw [List.mem_append]
    exact fun h => h.elim hblocked (track_notMem_persist false)
  | some error => exact hblocked

end Tracking

/-- A risk block that the bus raises leaves the success booked, but nothing is tracked. -/
theorem booked_handleRiskBlock_iff (c : Collaborators) (event : SignalEvent) (reply : Reply)
    (s : Executor) (message reason : String) (hcounted : s.consecutiveFailures = 0) :
    Booked reply (handleRiskBlock c event s (submissionCalls c event reply) message reason) ↔
      returnedTicket reply = none := by
  have hexecutor : (handleRiskBlock c event s (submissionCalls c event reply) message
      reason).executor.consecutiveFailures = 0 := by
    unfold handleRiskBlock
    dsimp only
    cases emission c event c.onBlocked with
    | none => exact hcounted
    | some error => exact hcounted
  have hreported : ∀ result, (handleRiskBlock c event s (submissionCalls c event reply) message
      reason).ending = .ok result → reportsFailed result = false := by
    unfold handleRiskBlock
    dsimp only
    cases emission c event c.onBlocked with
    | none =>
      intro result h
      cases h
      rfl
    | some error =>
      intro result h
      cases h
  constructor
  · intro h
    cases hticket : returnedTicket reply with
    | none => rfl
    | some ticket =>
      obtain ⟨number, fillPrice, tracking, _, hmem⟩ := h.tracked ticket hticket
      exact absurd hmem (track_notMem_handleRiskBlock s message reason)
  · intro hnone
    refine ⟨hreported, hexecutor, ?_⟩
    intro ticket hticket
    rw [hnone] at hticket
    cases hticket

theorem mem_trackCalls {c : Collaborators} {reply : Reply} (tracking : TradeParameters)
    {ticket : Value} (hticket : returnedTicket reply = some ticket) :
    (∃ number fillPrice params, ticket.toInt = some number ∧
      Call.trackPosition number fillPrice params ∈ trackCalls c reply tracking) ↔
      c.positionManager.isSome = true ∧ ticket.toInt.isSome = true ∧
        (convertedFillPrice reply).isSome = true := by
  unfold trackCalls
  rw [hticket]
  cases c.positionManager with
  | none => simp
  | some raised =>
    cases hnumber : ticket.toInt with
    | none => simp
    | some number =>
      cases hfill : convertedFillPrice reply with
      | none => simp
      | some fillPrice => simp [guarded, hnumber]

/-- The other calls of the guarded steps track nothing. -/
theorem track_mem_finish {c : Collaborators} {event : SignalEvent} {s : Executor} {reply : Reply}
    {params tracking : TradeParameters} {number : ℤ} {fillPrice : Option ℚ}
    {tracked : TradeParameters} :
    Call.trackPosition number fillPrice tracked ∈
        (finish c event s (submissionCalls c event reply) reply params tracking).calls ↔
      Call.trackPosition number fillPrice tracked ∈ trackCalls c reply tracking := by
  have hlisteners : Call.trackPosition number fillPrice tracked ∉
      (c.listeners.mapIdx fun index raised => guarded (.listener index) raised).flatten := by
    intro h
    obtain ⟨calls, hcalls, hmem⟩ := List.mem_flatten.mp h
    obtain ⟨index, _, rfl⟩ := List.mem_mapIdx.mp hcalls
    simp [guarded] at hmem
  have hopened : Call.trackPosition number fillPrice tracked ∉ openedCalls c reply params := by
    unfold openedCalls
    cases c.outcomeTracker with
    | none => simp
    | some raised =>
      cases convertedFillPrice reply with
      | none => simp
      | some fillPrice => simp [guarded]
  unfold finish
  dsimp only
  simp only [List.mem_append]
  constructor
  · rintro ((((h | h) | h) | h) | h)
    · exact absurd h track_notMem_submissionCalls
    · exact absurd h hlisteners
    · exact absurd h (track_notMem_persist true)
    · exact h
    · exact absurd h hopened
  · exact fun h => Or.inl (Or.inr h)

theorem booked_finish_iff (c : Collaborators) (event : SignalEvent) (reply : Reply) (s : Executor)
    (params tracking : TradeParameters) (hcounted : s.consecutiveFailures = 0) :
    Booked reply (finish c event s (submissionCalls c event reply) reply params tracking) ↔
      reportsFailed (.reply reply) = false ∧ Trackable c reply := by
  constructor
  · intro h
    refine ⟨h.reported _ rfl, ?_⟩
    intro ticket hticket
    obtain ⟨number, fillPrice, tracked, hnumber, hmem⟩ := h.tracked ticket hticket
    exact (mem_trackCalls tracking hticket).mp
      ⟨number, fillPrice, tracked, hnumber, track_mem_finish.mp hmem⟩
  · rintro ⟨hstatus, htrackable⟩
    refine ⟨?_, hcounted, ?_⟩
    · intro result h
      cases h
      exact hstatus
    · intro ticket hticket
      obtain ⟨number, fillPrice, tracked, hnumber, hmem⟩ :=
        (mem_trackCalls tracking hticket).mpr (htrackable ticket hticket)
      exact ⟨number, fillPrice, tracked, hnumber, track_mem_finish.mpr hmem⟩

theorem not_booked_handleFailure (c : Collaborators) (config : ExecutorConfig) (now : ℤ)
    (event : SignalEvent) (reply : Reply) (s : Executor) (calls : List Call) (message : String)
    (hcounted : s.consecutiveFailures = 0) :
    ¬ Booked reply (handleFailure c config now event s calls message) := by
  intro h
  have hone := h.counted
  rw [consecutiveFailures_handleFailure, hcounted] at hone
  omega

section Settled

variable {c : Collaborators} {config : ExecutorConfig} {now : ℤ} {event : SignalEvent}
  {params : TradeParameters} {symbolPoint : Option ℚ} {s : Executor} {reply : Reply}

/-- What the bus raises at the submission is booked only as a risk block without a ticket. -/
theorem settle_booked_of_raised {error : Raised}
    (hraised : submissionRaises c event reply = some error) :
    Booked reply (settle c config now event params symbolPoint s reply) ↔
      BlockedWithoutTicket c event reply := by
  have hsuccess : (bookSuccess now s reply).consecutiveFailures = 0 := rfl
  unfold settle
  dsimp only
  rw [hraised]
  dsimp only
  cases error with
  | preTradeRiskBlocked message reason =>
    rw [handle, booked_handleRiskBlock_iff c event reply _ message reason hsuccess]
    constructor
    · exact fun h => ⟨⟨message, reason, hraised⟩, h⟩
    · exact fun h => h.2
  | other message =>
    rw [handle]
    refine iff_of_false (not_booked_handleFailure _ _ _ _ _ _ _ _ hsuccess) ?_
    rintro ⟨⟨message', reason', h⟩, _⟩
    rw [hraised] at h
    cases h

theorem settle_booked_of_submitted (hraised : submissionRaises c event reply = none) :
    Booked reply (settle c config now event params symbolPoint s reply) ↔
      Unbroken c event reply := by
  unfold settle
  dsimp only
  rw [hraised]
  dsimp only
  have hcounted : (recordSlippage (bookSuccess now s reply) (pricesOf reply).1 (pricesOf reply).2
      symbolPoint).consecutiveFailures = 0 := by
    rw [consecutiveFailures_recordSlippage]
    rfl
  rcases adjustParamsForFill_cases params reply with ⟨hprices, tracking, htracking⟩ |
      ⟨hprices, message, hmessage⟩
  · rw [htracking]
    dsimp only
    rw [booked_finish_iff c event reply _ params tracking hcounted]
    constructor
    · exact fun h => ⟨hraised, hprices, h.1, h.2⟩
    · exact fun h => ⟨h.status, h.ticket⟩
  · rw [hmessage]
    dsimp only
    rw [handle]
    exact iff_of_false (not_booked_handleFailure _ _ _ _ _ _ _ _ hcounted)
      fun h => hprices h.prices

end Settled

/-- An order that was dispatched is booked exactly when no unguarded step raises, the answer
does not say "failed" and its ticket can be tracked; or the bus raises a risk block on an
answer without a ticket. -/
theorem dispatched_booked_iff (c : Collaborators) (config : ExecutorConfig) (now : ℤ)
    (event : SignalEvent) (params : TradeParameters) (symbolPoint : Option ℚ) (s : Executor)
    (reply : Reply) :
    Booked reply (executeMarketOrder c config now event params symbolPoint s (.ok reply)) ↔
      Unbroken c event reply ∨ BlockedWithoutTicket c event reply := by
  show Booked reply (settle c config now event params symbolPoint s reply) ↔ _
  cases hraised : submissionRaises c event reply with
  | some error =>
    rw [settle_booked_of_raised hraised, or_iff_right]
    intro h
    rw [h.submitted] at hraised
    cases hraised
  | none =>
    rw [settle_booked_of_submitted hraised, or_iff_left]
    rintro ⟨⟨message, reason, h⟩, _⟩
    rw [hraised] at h
    cases h

def goldEvent : SignalEvent :=
  ⟨"sig-1", "XAUUSD", "M5", "trend", "buy", "trace-1", none⟩

def goldParams : TradeParameters := ⟨2000, 1990, 2020, 1 / 10, 2, 5, 10, 20⟩

/-- Filled at 2000 with ticket 77. -/
def goldReply : Reply :=
  .dict { ticket := .number 77, fillPrice := .number 2000, requestedPrice := .number 2000 }

/-- A bus that raises when the submission is emitted. -/
def brokenBus : Collaborators :=
  { pipelineBus := true
    onSubmitted := some (.other "bus is closed")
    positionManager := some none }

/-- The filled order is reported as failed and its position is not tracked. -/
theorem filled_order_reported_failed :
    ¬ ∀ (c : Collaborators) (config : ExecutorConfig) (now : ℤ) (event : SignalEvent)
      (params : TradeParameters) (symbolPoint : Option ℚ) (s : Executor) (reply : Reply),
      Booked reply (executeMarketOrder c config now event params symbolPoint s (.ok reply)) := by
  intro h
  have hcounted := (h brokenBus {} 0 goldEvent goldParams none {} goldReply).counted
  have hone : (executeMarketOrder brokenBus {} 0 goldEvent goldParams none {}
      (.ok goldReply)).executor.consecutiveFailures = 1 := by
    decide +kernel
  omega

end MT5Services.MarketOrders
