import MT5Services.RecoveryExposure
import MT5Services.RecoveryRows
import MT5Services.Runs

/-!
The session of `DemoBoundedRecoveryRunner`: start, stop and the ticks that open an
initial cycle while none is active. A tick carries what the environment decides: whether
one of the gates before the dispatch holds it back, what the trading port answers, and
which writes of the state store raise. The session counter is advanced at the very end,
so a dispatch that was accepted but whose bookkeeping fails is not counted.
-/
namespace MT5Services.RecoverySession

open PyText RecoveryModels RecoveryExposure Runs

/-- An entry of the `checks` of an assessment. -/
structure RiskCheck where
  name : String := ""
  verdict : String := ""
  reason : String := ""
  message : String := ""
  deriving DecidableEq, Repr

/-- A pre-trade assessment, as a port result or an exception may carry it; an entry of
`checks` that is no dict is `none`. -/
structure RiskSnapshot where
  verdict : String := ""
  blocked : Bool := false
  executable : Option Bool := none
  reason : String := ""
  checks : List (Option RiskCheck) := []
  deriving DecidableEq, Repr

/-- The first name among the checks, or among the blocking ones. -/
def firstName (blocking : Bool) : List (Option RiskCheck) → Except String (Option String)
  | [] => .ok none
  | none :: _ => .error "AttributeError"
  | some item :: rest =>
    if (!blocking || lower (strip item.verdict) = "block") && strip item.name ≠ "" then
      .ok (some (strip item.name))
    else firstName blocking rest

def resolveRiskFailureKey (snapshot : RiskSnapshot) : Except String (Option String) := do
  let blocking ← firstName true snapshot.checks
  let named ← if blocking.isSome then pure blocking else firstName false snapshot.checks
  return named.or
    (if lower (strip snapshot.reason) = "daily_loss_limit_reached" then some "daily_loss_limit"
    else none)

/-- The first text among the reasons and messages of the checks. -/
def itemReason (checks : List (Option RiskCheck)) : Option String :=
  checks.findSome? fun item =>
    (item.map fun item => strip (if item.reason ≠ "" then item.reason else item.message)).filter
      (· ≠ "")

def pretradeBlockReason (snapshot : RiskSnapshot) (fallback : String) : Except String String :=
  if strip snapshot.reason ≠ "" then .ok (strip snapshot.reason)
  else (resolveRiskFailureKey snapshot).map fun resolved =>
    (resolved.or (itemReason snapshot.checks)).getD fallback

/-- A payload as `ticket_from_nested_payload` walks it: six identifiers, then the payloads
under `result`, `response` and `response_payload`. -/
inductive Payload
  | notDict
  | dict (identifiers : List (Option ℤ)) (result response responsePayload : Payload)
  deriving DecidableEq, Repr

/-- The first positive identifier, or that of the first nested payload that has one. -/
def ticketFromNestedPayload : Payload → Option ℤ
  | .notDict => none
  | .dict identifiers result response responsePayload =>
    (identifiers.findSome? fun value => value.filter fun ticket => 0 < ticket).or
      ((ticketFromNestedPayload result).or
        ((ticketFromNestedPayload response).or (ticketFromNestedPayload responsePayload)))

/-- The result of a trade dispatch: the snapshots under `pre_trade_risk`, `precheck` and
`dispatch_precheck`, and the values of `fill_price`, `price` and `requested_price`. -/
structure DispatchResult where
  riskSnapshots : List (Option RiskSnapshot) := []
  statusText : String := ""
  accepted : Option Bool := none
  errorMessage : String := ""
  message : String := ""
  prices : List (Option ℚ) := []
  payload : Payload := .notDict
  deriving DecidableEq, Repr

/-- How `dispatch_operation("trade", …)` ends; the text of another exception is its name
where it has none of its own. -/
inductive PortReply
  | preTradeRiskBlocked (assessment : RiskSnapshot) (message : String)
  | raised (message : String)
  | empty
  | notDict
  | dict (result : DispatchResult)
  deriving DecidableEq, Repr

/-- `extract_blocked_pretrade_snapshot`. -/
def extractBlockedPretradeSnapshot (result : DispatchResult) : Option RiskSnapshot :=
  result.riskSnapshots.findSome? fun snapshot =>
    snapshot.filter fun risk =>
      risk.blocked || lower (strip risk.verdict) = "block" || risk.executable = some false

/-- A broker refusal that is no exception. -/
def isRefused (result : DispatchResult) : Bool :=
  ["failed", "rejected", "error"].contains (lower result.statusText) ||
    result.accepted = some false

/-- `_fill_price_from_result`. -/
def fillPriceFromResult (result : DispatchResult) (fallback : ℚ) : ℚ :=
  (result.prices.findSome? fun value => value.filter fun price => 0 < price).getD fallback

/-- The port took the order: it returned, and neither a pre-trade block nor a refusal. -/
def PortReply.accepts : PortReply → Bool
  | preTradeRiskBlocked _ _ | raised _ => false
  | empty | notDict => true
  | dict result => (extractBlockedPretradeSnapshot result).isNone && !isRefused result

structure Settings extends RecoveryRows.Identity where
  enabled : Bool
  maxCyclesPerSession : ℤ
  timeframe : String
  policy : RecoveryPolicy

/-- The directions the direction policy chooses between. -/
inductive Side
  | buy
  | sell
  deriving DecidableEq, Repr

def Side.text : Side → String
  | buy => "buy"
  | sell => "sell"

/-- What a tick meets when no cycle is active. `gate` is the reason of the first gate
between the session cap and the dispatch that holds the tick back. -/
structure Attempt where
  gate : Option String
  cycleId : String
  sourceSignalId : String
  direction : Side
  entryPrice : ℚ
  createdAt : ℤ
  reply : PortReply
  firstWrite : Bool
  secondWrite : Bool

/-- How `open_initial_recovery_cycle` ends; an exception carries its text. -/
inductive InitialResult
  | raised (message : String)
  | blocked (reason : String)
  | opened (cycle : RecoveryCycleState) (payload : Payload)

def initialFields (settings : Settings) (attempt : Attempt) (fillPrice : ℚ) : CycleFields where
  cycleId := attempt.cycleId
  accountKey := settings.accountKey
  symbol := settings.symbol
  direction := attempt.direction.text
  status := "open"
  baseVolume := settings.policy.baseVolume
  totalVolume := settings.policy.baseVolume
  stepCount := 0
  averageEntryPrice := fillPrice
  lastEntryPrice := fillPrice
  startedAt := attempt.createdAt
  updatedAt := attempt.createdAt
  lastStepAt := some attempt.createdAt
  strategy := settings.strategy
  timeframe := settings.timeframe
  sourceSignalId := some attempt.sourceSignalId

/-- The cycle of an accepted dispatch and its first state write. -/
def recordInitial (settings : Settings) (attempt : Attempt) (fillPrice : ℚ) (payload : Payload) :
    InitialResult :=
  match RecoveryCycleState.mk? (initialFields settings attempt fillPrice) with
  | .error message => .raised message
  | .ok cycle =>
    if attempt.firstWrite then .opened cycle payload else .raised "record_recovery_cycle_state"

def blockedFor (snapshot : RiskSnapshot) (fallback : String) : InitialResult :=
  match pretradeBlockReason snapshot fallback with
  | .error message => .raised message
  | .ok reason => .blocked reason

def openInitialRecoveryCycle (settings : Settings) (attempt : Attempt) : InitialResult :=
  match attempt.reply with
  | .preTradeRiskBlocked assessment message => blockedFor assessment message
  | .raised message => .blocked message
  | .notDict => .raised "AttributeError"
  | .empty => recordInitial settings attempt attempt.entryPrice .notDict
  | .dict result =>
    match extractBlockedPretradeSnapshot result with
    | some risk => blockedFor risk "pre_trade_risk_blocked"
    | none =>
      if isRefused result then
        .blocked
          (if result.errorMessage ≠ "" then result.errorMessage
          else if result.message ≠ "" then result.message
          else if result.statusText ≠ "" then lower result.statusText
          else "trading_port_dispatch_failed")
      else
        recordInitial settings attempt (fillPriceFromResult result attempt.entryPrice)
          result.payload

/-- `_cycle_with_submitted_ticket` for a cycle without tickets. -/
def cycleWithSubmittedTicket (cycle : RecoveryCycleState) (payload : Payload) :
    RecoveryCycleState :=
  match ticketFromNestedPayload payload with
  | none => cycle
  | some ticket =>
    ⟨{ cycle.toCycleFields with
        submittedTickets := cycle.submittedTickets ++ [some ticket] }, cycle.accepted⟩

/-- The runner; `accepted` counts the initial real dispatches that the port accepted since
the last start. -/
structure Runner where
  running : Bool
  activeCycle : Option RecoveryCycleState
  sessionCycleCount : ℤ
  accepted : ℤ

def Runner.initial : Runner := ⟨false, none, 0, 0⟩

/-- The tick gets as far as the dispatch. -/
def dispatches (settings : Settings) (runner : Runner) (attempt : Attempt) : Bool :=
  !(0 < settings.maxCyclesPerSession ∧
      settings.maxCyclesPerSession ≤ runner.sessionCycleCount) && attempt.gate.isNone

/-- What `_open_initial_cycle` makes of the result: the active cycle and the counter. An
exception of the runner leaves both. -/
def settle (settings : Settings) (attempt : Attempt) (runner : Runner) : InitialResult → Runner
  | .raised _ | .blocked _ => runner
  | .opened cycle payload =>
    if settings.dryRun then
      { runner with
        activeCycle := some cycle
        sessionCycleCount := runner.sessionCycleCount + 1 }
    else
      let cycle := cycleWithSubmittedTicket cycle payload
      if submittedTickets cycle = [] then runner
      else if attempt.secondWrite then
        { runner with
          activeCycle := some cycle
          sessionCycleCount := runner.sessionCycleCount + 1 }
      else runner

/-- The dispatch is real and the port takes it. -/
def acceptedDispatch (settings : Settings) (runner : Runner) (attempt : Attempt) : Bool :=
  dispatches settings runner attempt && !settings.dryRun && attempt.reply.accepts

def openInitialCycle (settings : Settings) (attempt : Attempt) (runner : Runner) : Runner :=
  if dispatches settings runner attempt then
    let counted :=
      { runner with
        accepted := runner.accepted + if acceptedDispatch settings runner attempt then 1 else 0 }
    settle settings attempt counted (openInitialRecoveryCycle settings attempt)
  else runner

/-- `loaded` is the open cycle of the state store, `none` when start raises; `after` is
the active cycle after the reconcile, exit and step branches of a tick. -/
inductive Act
  | start (loaded : Option (Option RecoveryCycleState))
  | stop
  | ignoredTick
  | tick (attempt : Attempt) (after : Option RecoveryCycleState)

def step (settings : Settings) (runner : Runner) : Act → Option Runner
  | .start loaded =>
    if runner.running || !settings.enabled then some runner
    else
      match loaded with
      | none => some runner
      | some cycle =>
        some { runner with running := true, activeCycle := cycle, accepted := 0 }
  | .stop => some { runner with running := false }
  | .ignoredTick => some runner
  | .tick attempt after =>
    if !runner.running then some runner
    else if runner.activeCycle.isNone then some (openInitialCycle settings attempt runner)
    else some { runner with activeCycle := after }

/-- The tick sends an initial dispatch. -/
def opensInitial (runner : Runner) : Act → Option Attempt
  | .tick attempt _ =>
    if runner.running && runner.activeCycle.isNone then some attempt else none
  | _ => none

/-- An accepted dispatch is booked: its fill price is positive, the result names a ticket
and both writes succeed. -/
def Booked (attempt : Attempt) : Prop :=
  ∃ result, attempt.reply = .dict result ∧
    0 < fillPriceFromResult result attempt.entryPrice ∧
    ticketFromNestedPayload result.payload ≠ none ∧
    attempt.firstWrite = true ∧ attempt.secondWrite = true

/-- Every real dispatch the port accepts is booked. -/
def BooksAccepted (settings : Settings) (runner : Runner) (a : Act) : Prop :=
  ∀ attempt, opensInitial runner a = some attempt →
    acceptedDispatch settings runner attempt = true → Booked attempt

/-- A new cycle of a valid policy only needs positive prices. -/
theorem mk?_initialFields (settings : Settings) (attempt : Attempt) (fillPrice : ℚ) :
    (∃ cycle, RecoveryCycleState.mk? (initialFields settings attempt fillPrice) = .ok cycle) ↔
      0 < fillPrice := by
  have hdirection : ["buy", "sell"].contains (lower (strip attempt.direction.text)) = true := by
    cases attempt.direction with
    | buy => decide
    | sell => rfl
  have hstatus : ["open", "closed", "blocked"].contains (lower (strip "open")) = true := by
    decide
  have hchecks : firstFailure (initialFields settings attempt fillPrice).checks = none ↔
      0 < fillPrice := by
    rw [firstFailure_eq_none]
    simp only [CycleFields.checks, List.forall_mem_cons, decide_eq_true_eq]
    simp only [initialFields, hdirection, hstatus, settings.policy.baseVolume_pos, le_refl,
      and_self, List.not_mem_nil, false_implies, implies_true, and_true, true_and]
  rw [← hchecks, RecoveryCycleState.exists_mk?_eq_ok]

theorem findSome?_positive {values : List (Option ℤ)} {ticket : ℤ}
    (h : (values.findSome? fun value => value.filter fun ticket => 0 < ticket) = some ticket) :
    0 < ticket := by
  obtain ⟨value, _, hvalue⟩ := List.exists_of_findSome?_eq_some h
  exact of_decide_eq_true (Option.filter_eq_some_iff.mp hvalue).2

theorem ticketFromNestedPayload_pos {payload : Payload} {ticket : ℤ}
    (h : ticketFromNestedPayload payload = some ticket) : 0 < ticket := by
  induction payload with
  | notDict => cases h
  | dict identifiers result response responsePayload ihresult ihresponse ihpayload =>
    simp only [ticketFromNestedPayload, Option.or_eq_some_iff] at h
    rcases h with h | ⟨_, h | ⟨_, h | ⟨_, h⟩⟩⟩
    · exact findSome?_positive h
    · exact ihresult h
    · exact ihresponse h
    · exact ihpayload h

/-- A cycle without tickets gets one exactly when the payload names one. -/
theorem submittedTickets_cycleWithSubmittedTicket {cycle : RecoveryCycleState} {payload : Payload}
    (hnone : cycle.submittedTickets = []) :
    submittedTickets (cycleWithSubmittedTicket cycle payload) = [] ↔
      ticketFromNestedPayload payload = none := by
  unfold cycleWithSubmittedTicket
  cases hticket : ticketFromNestedPayload payload with
  | none => simp [submittedTickets, hnone, uniquePositiveInts]
  | some ticket =>
    have hpos := ticketFromNestedPayload_pos hticket
    simp only [submittedTickets, hnone, List.nil_append, reduceCtorEq, iff_false]
    intro hnil
    have hmem : ticket ∈ uniquePositiveInts [some ticket] :=
      mem_uniquePositiveInts.mpr ⟨hpos, List.mem_singleton_self _⟩
    rw [hnil] at hmem
    cases hmem

theorem recordInitial_opened {settings : Settings} {attempt : Attempt} {fillPrice : ℚ}
    {payload : Payload} :
    (∃ cycle, recordInitial settings attempt fillPrice payload = .opened cycle payload ∧
      cycle.submittedTickets = []) ↔ 0 < fillPrice ∧ attempt.firstWrite = true := by
  rw [← mk?_initialFields settings attempt fillPrice]
  unfold recordInitial
  cases hcycle : RecoveryCycleState.mk? (initialFields settings attempt fillPrice) with
  | error message => simp
  | ok cycle =>
    have hfields := RecoveryCycleState.fields_of_mk? hcycle
    cases attempt.firstWrite with
    | false => simp
    | true =>
      simp only [if_true, InitialResult.opened.injEq, and_true, exists_eq_left', Except.ok.injEq,
        exists_eq', and_self, iff_true]
      rw [hfields]
      rfl

theorem recordInitial_cases (settings : Settings) (attempt : Attempt) (fillPrice : ℚ)
    (payload : Payload) :
    (∃ cycle, recordInitial settings attempt fillPrice payload = .opened cycle payload ∧
      cycle.submittedTickets = []) ∨
      ∃ message, recordInitial settings attempt fillPrice payload = .raised message := by
  by_cases hopened : 0 < fillPrice ∧ attempt.firstWrite = true
  · exact Or.inl (recordInitial_opened.mpr hopened)
  · refine Or.inr ?_
    rw [← mk?_initialFields settings attempt fillPrice] at hopened
    unfold recordInitial
    cases hcycle : RecoveryCycleState.mk? (initialFields settings attempt fillPrice) with
    | error message => exact ⟨message, rfl⟩
    | ok cycle =>
      have hwrite : attempt.firstWrite = false := by
        cases hfirst : attempt.firstWrite with
        | false => rfl
        | true => exact absurd ⟨⟨cycle, hcycle⟩, hfirst⟩ hopened
      exact ⟨_, by rw [hwrite]; rfl⟩

/-- A real settlement counts an opened cycle that names a ticket and is written again. -/
theorem settle_opened {settings : Settings} {attempt : Attempt} {runner : Runner}
    {cycle : RecoveryCycleState} {payload : Payload} (hreal : settings.dryRun = false)
    (hnone : cycle.submittedTickets = []) :
    (settle settings attempt runner (.opened cycle payload)).sessionCycleCount =
      runner.sessionCycleCount +
        if ticketFromNestedPayload payload ≠ none ∧ attempt.secondWrite = true then 1 else 0 := by
  simp only [settle, hreal, Bool.false_eq_true, if_false,
    submittedTickets_cycleWithSubmittedTicket hnone]
  by_cases hticket : ticketFromNestedPayload payload = none
  · simp [hticket]
  · cases attempt.secondWrite with
    | false => simp [hticket]
    | true => simp [hticket]

theorem settle_recordInitial {settings : Settings} {attempt : Attempt} {runner : Runner}
    (fillPrice : ℚ) (payload : Payload) (hreal : settings.dryRun = false) :
    (settle settings attempt runner (recordInitial settings attempt fillPrice
        payload)).sessionCycleCount =
      runner.sessionCycleCount +
        if (0 < fillPrice ∧ attempt.firstWrite = true) ∧
            ticketFromNestedPayload payload ≠ none ∧ attempt.secondWrite = true then 1
        else 0 := by
  rcases recordInitial_cases settings attempt fillPrice payload with
    ⟨cycle, hopened, hnone⟩ | ⟨message, hraised⟩
  · have hok := recordInitial_opened.mp ⟨cycle, hopened, hnone⟩
    rw [hopened, settle_opened hreal hnone]
    simp only [hok, and_self, true_and]
  · have hnot : ¬ (0 < fillPrice ∧ attempt.firstWrite = true) := by
      intro hok
      obtain ⟨cycle, hopened, _⟩ := (@recordInitial_opened _ _ _ payload).mpr hok
      cases hraised.symm.trans hopened
    rw [hraised]
    simp [settle, hnot]

/-- The counter is advanced for exactly the booked ones of the accepted dispatches. -/
theorem openInitialCycle_count {settings : Settings} {attempt : Attempt} {runner : Runner}
    (haccepted : acceptedDispatch settings runner attempt = true) :
    (Booked attempt → (openInitialCycle settings attempt runner).sessionCycleCount =
        runner.sessionCycleCount + 1) ∧
      (¬ Booked attempt → (openInitialCycle settings attempt runner).sessionCycleCount =
        runner.sessionCycleCount) := by
  simp only [acceptedDispatch, Bool.and_eq_true, Bool.not_eq_true'] at haccepted
  obtain ⟨⟨hdispatches, hreal⟩, hreply⟩ := haccepted
  simp only [openInitialCycle, hdispatches, if_true, openInitialRecoveryCycle]
  have hother : (∀ result, attempt.reply ≠ .dict result) → ¬ Booked attempt := by
    rintro hnone ⟨result, hresult, _⟩
    exact hnone result hresult
  cases hcase : attempt.reply with
  | preTradeRiskBlocked assessment message =>
    rw [hcase] at hreply
    cases hreply
  | raised message =>
    rw [hcase] at hreply
    cases hreply
  | notDict =>
    have hnot : ¬ Booked attempt := hother (by simp [hcase])
    exact ⟨fun h => absurd h hnot, fun _ => rfl⟩
  | empty =>
    have hnot : ¬ Booked attempt := hother (by simp [hcase])
    simp [settle_recordInitial _ _ hreal, hnot, ticketFromNestedPayload]
  | dict result =>
    rw [hcase] at hreply
    simp only [PortReply.accepts, Bool.and_eq_true, Option.isNone_iff_eq_none,
      Bool.not_eq_true'] at hreply
    have hbooked : Booked attempt ↔
        (0 < fillPriceFromResult result attempt.entryPrice ∧ attempt.firstWrite = true) ∧
          ticketFromNestedPayload result.payload ≠ none ∧ attempt.secondWrite = true := by
      constructor
      · rintro ⟨other, hdict, hprice, hticket, hfirst, hsecond⟩
        cases hcase.symm.trans hdict
        exact ⟨⟨hprice, hfirst⟩, hticket, hsecond⟩
      · rintro ⟨⟨hprice, hfirst⟩, hticket, hsecond⟩
        exact ⟨result, hcase, hprice, hticket, hfirst, hsecond⟩
    simp only [hreply.1, hreply.2, Bool.false_eq_true, if_false, settle_recordInitial _ _ hreal]
    rw [hbooked]
    constructor
    · intro h
      rw [if_pos h]
    · intro h
      rw [if_neg h, add_zero]

theorem settle_accepted (settings : Settings) (attempt : Attempt) (runner : Runner)
    (result : InitialResult) :
    (settle settings attempt runner result).accepted = runner.accepted := by
  cases result with
  | raised message => rfl
  | blocked reason => rfl
  | opened cycle payload =>
    simp only [settle]
    split_ifs <;> rfl

/-- One tick advances the counter by at most one, and only below the session cap. -/
theorem openInitialCycle_le {settings : Settings} {attempt : Attempt} {runner : Runner}
    (hcap : 0 < settings.maxCyclesPerSession)
    (hcount : runner.sessionCycleCount ≤ settings.maxCyclesPerSession) :
    runner.sessionCycleCount ≤ (openInitialCycle settings attempt runner).sessionCycleCount ∧
      (openInitialCycle settings attempt runner).sessionCycleCount ≤
        settings.maxCyclesPerSession := by
  unfold openInitialCycle
  split
  · rename_i hdispatches
    have hbelow : runner.sessionCycleCount < settings.maxCyclesPerSession := by
      by_contra hreached
      simp [dispatches, hcap, not_lt.mp hreached] at hdispatches
    cases openInitialRecoveryCycle settings attempt with
    | raised message => exact ⟨le_refl _, hcount⟩
    | blocked reason => exact ⟨le_refl _, hcount⟩
    | opened cycle payload =>
      simp only [settle]
      split_ifs <;> simp only <;> omega
  · exact ⟨le_refl _, hcount⟩

theorem openInitialCycle_accepted (settings : Settings) (attempt : Attempt) (runner : Runner) :
    (openInitialCycle settings attempt runner).accepted =
      runner.accepted + if acceptedDispatch settings runner attempt then 1 else 0 := by
  unfold openInitialCycle
  split
  · exact settle_accepted settings attempt _ _
  · rename_i hdispatches
    simp [acceptedDispatch, hdispatches]

/-- The accepted dispatches of the session are counted, and the count respects the cap. -/
structure SessionBounded (settings : Settings) (runner : Runner) : Prop where
  count_nonneg : 0 ≤ runner.sessionCycleCount
  accepted_le : runner.accepted ≤ runner.sessionCycleCount
  count_le : runner.sessionCycleCount ≤ settings.maxCyclesPerSession

theorem openInitialCycle_bounded {settings : Settings} {attempt : Attempt} {runner : Runner}
    (hcap : 0 < settings.maxCyclesPerSession) (hrunner : SessionBounded settings runner)
    (hbooked : acceptedDispatch settings runner attempt = true → Booked attempt) :
    SessionBounded settings (openInitialCycle settings attempt runner) := by
  obtain ⟨hge, hle⟩ := @openInitialCycle_le _ attempt _ hcap hrunner.count_le
  refine ⟨hrunner.count_nonneg.trans hge, ?_, hle⟩
  rw [openInitialCycle_accepted]
  have hbefore := hrunner.accepted_le
  by_cases haccepted : acceptedDispatch settings runner attempt = true
  · rw [if_pos haccepted, (openInitialCycle_count haccepted).1 (hbooked haccepted)]
    omega
  · rw [if_neg haccepted]
    omega

theorem step_bounded {settings : Settings} {runner next : Runner} {a : Act}
    (hcap : 0 < settings.maxCyclesPerSession) (hrunner : SessionBounded settings runner)
    (hbooks : BooksAccepted settings runner a) (h : step settings runner a = some next) :
    SessionBounded settings next := by
  cases a with
  | start loaded =>
    simp only [step] at h
    split at h
    · cases h
      exact hrunner
    · cases loaded with
      | none =>
        cases h
        exact hrunner
      | some cycle =>
        cases h
        exact ⟨hrunner.count_nonneg, hrunner.count_nonneg, hrunner.count_le⟩
  | stop =>
    cases h
    exact ⟨hrunner.count_nonneg, hrunner.accepted_le, hrunner.count_le⟩
  | ignoredTick =>
    cases h
    exact hrunner
  | tick attempt after =>
    simp only [step] at h
    split at h
    · cases h
      exact hrunner
    · rename_i hrunning
      split at h
      · rename_i hidle
        cases h
        refine openInitialCycle_bounded hcap hrunner fun haccepted => ?_
        exact hbooks attempt (by simp_all [opensInitial]) haccepted
      · cases h
        exact ⟨hrunner.count_nonneg, hrunner.accepted_le, hrunner.count_le⟩

/-- In every run whose accepted real dispatches are all booked, a session accepts at most
`max_cycles_per_session` initial dispatches. -/
theorem session_dispatches_le (settings : Settings) (labels : List Act) (runner : Runner)
    (hcap : 0 < settings.maxCyclesPerSession)
    (hbooks : Along (step settings) (BooksAccepted settings) Runner.initial labels)
    (hrun : run (step settings) Runner.initial labels = some runner) :
    runner.accepted ≤ settings.maxCyclesPerSession := by
  have hinitial : SessionBounded settings Runner.initial :=
    ⟨le_refl _, le_refl _, hcap.le⟩
  have hbounded : SessionBounded settings runner :=
    run_invariant_along (fun s a t hs ha hstep => step_bounded hcap hs ha hstep) hinitial hbooks
      hrun
  exact hbounded.accepted_le.trans hbounded.count_le

/-- One cycle a session, with real orders. -/
def oneCycle : Settings where
  enabled := true
  dryRun := false
  maxCyclesPerSession := 1
  symbol := "EURUSD"
  strategy := "tick_recovery_probe"
  timeframe := "TICK"
  accountKey := "demo:1"
  policy := onePolicy

/-- A tick that no gate holds back; the broker fills it as ticket 7. -/
def filled (cycleId : String) (createdAt : ℤ) (firstWrite : Bool) : Attempt where
  gate := none
  cycleId := cycleId
  sourceSignalId := cycleId
  direction := .buy
  entryPrice := 11 / 10
  createdAt := createdAt
  reply := .dict
    { statusText := "submitted", prices := [some (11 / 10)],
      payload := .dict [some 7] .notDict .notDict .notDict }
  firstWrite := firstWrite
  secondWrite := true

/-- A session whose only dispatch is filled and booked. -/
theorem session_dispatches_le_one :
    ((run (step oneCycle) Runner.initial
        [.start (some none), .tick (filled "c1" 1 true) none]).map Runner.accepted = some 1) ∧
      ∀ runner, run (step oneCycle) Runner.initial
        [.start (some none), .tick (filled "c1" 1 true) none] = some runner →
        runner.accepted ≤ 1 := by
  refine ⟨by decide +kernel, fun runner hrun => ?_⟩
  refine session_dispatches_le oneCycle _ runner (by decide) ?_ hrun
  refine ⟨fun attempt hopens => ?_, fun started _ => ⟨fun attempt hopens _ => ?_, ?_⟩⟩
  · cases hopens
  · have hattempt : attempt = filled "c1" 1 true := by
      simp only [opensInitial] at hopens
      split at hopens
      · exact (Option.some.inj hopens).symm
      · cases hopens
    rw [hattempt]
    exact ⟨_, rfl, by decide +kernel, by decide, rfl, rfl⟩
  · exact fun _ _ => trivial

/-- The broker fills both orders of a session of one cycle, since the first state write of
each raises. -/
theorem unwritten_dispatch_repeats :
    ¬ ∀ runner, run (step oneCycle) Runner.initial
        [.start (some none), .tick (filled "c1" 1 false) none,
          .tick (filled "c2" 2 false) none] = some runner →
        runner.accepted ≤ oneCycle.maxCyclesPerSession := by
  intro hle
  have hrun : (run (step oneCycle) Runner.initial
      [.start (some none), .tick (filled "c1" 1 false) none,
        .tick (filled "c2" 2 false) none]).map Runner.accepted = some 2 := by
    decide +kernel
  obtain ⟨runner, hrunner, haccepted⟩ := Option.map_eq_some_iff.mp hrun
  have hbound := hle runner hrunner
  rw [haccepted] at hbound
  revert hbound
  decide

end MT5Services.RecoverySession
