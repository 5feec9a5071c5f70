import MT5Services.CallTrace
import MT5Services.TradeRecovery

/-!
`TradingService.execute_trade` and the trade-frequency reservation that the risk service
hands to it. The reservation is given back on the blocking exits, on a dry run and after
the last failed attempt, and it is taken up once the broker has answered. What the
precheck raises, what the account readers raise while a failed open is handled, and an
answer of the broker without details come before or between these exits.
-/
namespace MT5Services.TradeExecution

open PyText TradeComments TradeRecovery CallTrace

/-- The answer of `precheck_trade`, as far as the execution reads and changes it. -/
structure PrecheckSnapshot where
  verdict : String
  blocked : Bool
  reason : Option String
  warnings : List String
  eventBlocked : Bool
  executable : Option Bool
  deriving DecidableEq, Repr

/-- What is raised; an interrupt is no `Exception`. -/
inductive Raised
  | preTradeRiskBlocked (assessment : PrecheckSnapshot) (message : String)
  | tradingClient (message : String)
  | exception (message : String)
  | interrupt
  deriving DecidableEq, Repr

def Raised.isException : Raised → Bool
  | .interrupt => false
  | _ => true

/-- The assessment of the risk service, with the id of its reservation. -/
structure RiskAssessment where
  verdict : String
  tradeFrequencyReservationId : Option String
  deriving DecidableEq, Repr

/-- The risk service: its answer to the enforcement with the margin estimate, and the
calls that settle the frequency. `finalizeTradeSlot` is absent when no frequency provider
can finalize. -/
structure RiskService where
  enforceTradeAllowed : Option ℚ → Except Raised RiskAssessment
  finalizeTradeSlot : Option (String → Bool → Except Raised Unit)
  recordTradeExecution : Except Raised Unit

/-- The account client: its readers after each failed attempt and after the trade. -/
structure AccountClient where
  readersAt : ℕ → Readers Raised
  invalidateCache : Except Raised Unit
  readersAfter : Readers Raised

/-- The answers of what `execute_trade` calls. -/
structure Collaborators where
  estimateMargin : Except Raised ℚ
  precheckTrade : Except Raised PrecheckSnapshot
  openTradeDetails : ℕ → Except Raised (Option TradeExecutionDetails)
  accountClient : Option AccountClient
  preTradeRiskService : Option RiskService

/-- The call, with its request id, given or generated. -/
structure TradeCall where
  symbol : String
  volume : ℚ
  requestedPrice : Option ℚ
  context : CommentContext
  dryRun : Bool
  retryAttempts : ℤ
  requestId : Text

structure StateConsistency where
  positionsCount : Option ℕ
  ordersCount : Option ℕ
  deriving DecidableEq, Repr

/-- `build_trade_execution_result`; a dry run has no details. -/
structure TradeExecutionResult where
  details : Option TradeExecutionDetails
  requestId : Text
  dryRun : Bool
  symbol : String
  volume : ℚ
  side : Text
  orderKind : Text
  requestedPrice : Option ℚ
  comment : Text
  estimatedMargin : Option ℚ
  preTradeRisk : Option RiskAssessment
  precheck : PrecheckSnapshot
  stateConsistency : Option StateConsistency
  executionAttempts : Option ℕ
  executionState : Option String
  deriving DecidableEq, Repr

/-- What the calls of an execution leave behind. -/
inductive Event
  | opened (details : TradeExecutionDetails)
  | recovered (details : TradeExecutionDetails)
  | finalized (reservationId : String) (committed : Bool)
  deriving DecidableEq, Repr

abbrev Exec (α : Type) := Traced Event Raised α

/-- `except Exception: None`. -/
def orNone {α : Type} (reply : Except Raised α) : Exec (Option α) :=
  match reply with
  | .ok a => pure (some a)
  | .error error => if error.isException then pure none else Traced.raise error

/-- `except Exception`, with a warning or in silence. -/
def swallow (x : Exec Unit) : Exec Unit :=
  x.catching fun error => if error.isException then pure () else Traced.raise error

/-- The reservation id of the assessment, without the spaces around it. -/
def RiskAssessment.reservationId (assessment : RiskAssessment) : String :=
  strip (assessment.tradeFrequencyReservationId.getD "")

/-- `PreTradeRiskService.finalize_trade_frequency_reservation`. -/
def RiskService.finalizeTradeFrequencyReservation (risk : RiskService)
    (assessment : RiskAssessment) (committed : Bool) : Exec Unit :=
  if assessment.reservationId = "" then pure ()
  else
    match risk.finalizeTradeSlot with
    | none => pure ()
    | some finalize => do
      Traced.emit (.finalized assessment.reservationId committed)
      Traced.lift (finalize assessment.reservationId committed)

/-- `TradingService._finalize_trade_frequency_reservation`. -/
def finalizeTradeFrequencyReservation (risk : Option RiskService)
    (assessment : Option RiskAssessment) (committed : Bool) : Exec Unit :=
  match risk, assessment with
  | some risk, some assessment =>
    swallow (risk.finalizeTradeFrequencyReservation assessment committed)
  | _, _ => pure ()

def reasonXauusdTradeGuardBlocked : String := "xauusd_trade_guard_blocked"

def isGoldSymbol (symbol : String) : Bool :=
  "XAUUSD".toList.isPrefixOf (upper (strip symbol)).toList

def coerceTradeGuardBlock (assessment : PrecheckSnapshot) (reason : String) : PrecheckSnapshot :=
  { assessment with
    verdict := "block"
    blocked := true
    reason := some reason
    warnings :=
      if reason ∈ assessment.warnings then assessment.warnings
      else assessment.warnings ++ [reason] }

def maxAttempts (call : TradeCall) : ℕ := (max call.retryAttempts 1).toNat

section Execution

variable (u : Unicode) (c : Collaborators) (call : TradeCall)

def submittedComment : Text := buildTradeComment u call.requestId call.context

/-- `_recover_trade_from_state` in the handler of a failed attempt. -/
def recoverAt (attempt : ℕ) : Except Raised (Option TradeExecutionDetails) :=
  recoverTradeFromState u (c.accountClient.map fun client => client.readersAt attempt) call.symbol
    (submittedComment u call) call.requestId

/-- The loop over the attempts, with the last error so far. -/
def openAttempts (assessment : Option RiskAssessment) :
    ℕ → ℕ → Option Raised → Exec (Option TradeExecutionDetails × Option ℕ × Option Raised)
  | 0, _, lastError => pure (none, none, lastError)
  | remaining + 1, attempt, lastError =>
    match c.openTradeDetails attempt with
    | .ok none => pure (none, some attempt, lastError)
    | .ok (some details) => do
      Traced.emit (.opened details)
      pure (some details, some attempt, lastError)
    | .error error =>
      if error.isException then do
        match ← Traced.lift (recoverAt u c call attempt) with
        | some details =>
          Traced.emit (.recovered details)
          pure (some details, some attempt, lastError)
        | none =>
          if maxAttempts call ≤ attempt then
            finalizeTradeFrequencyReservation c.preTradeRiskService assessment false
            Traced.raise error
          else openAttempts assessment remaining (attempt + 1) (some error)
      else Traced.raise error

/-- The frequency is recorded, whatever that raises. -/
def recordTradeFrequency (assessment : Option RiskAssessment) : Exec Unit :=
  match c.preTradeRiskService with
  | none => pure ()
  | some risk =>
    swallow (match assessment with
      | some assessment => risk.finalizeTradeFrequencyReservation assessment true
      | none => Traced.lift risk.recordTradeExecution)

def invalidateAccountCache : Except Raised Unit :=
  match c.accountClient with
  | none => .ok ()
  | some client => client.invalidateCache

/-- The number of rows that a reader gives; none without an account client. -/
def rowCount (reader : Readers Raised → Except Raised (List TradeRow)) : Except Raised ℕ :=
  match c.accountClient with
  | none => .ok 0
  | some client => (reader client.readersAfter).map List.length

def executionResult (margin : Option ℚ) (assessment : Option RiskAssessment)
    (precheck : PrecheckSnapshot) : TradeExecutionResult where
  details := none
  requestId := call.requestId
  dryRun := call.dryRun
  symbol := call.symbol
  volume := call.volume
  side := call.context.side
  orderKind := call.context.orderKind
  requestedPrice := call.requestedPrice
  comment := submittedComment u call
  estimatedMargin := margin
  preTradeRisk := assessment
  precheck := precheck
  stateConsistency := none
  executionAttempts := none
  executionState := none

/-- What follows the attempts. -/
def afterAttempts (margin : Option ℚ) (assessment : Option RiskAssessment)
    (precheck : PrecheckSnapshot)
    (tried : Option TradeExecutionDetails × Option ℕ × Option Raised) :
    Exec TradeExecutionResult :=
  match tried with
  | (none, _, some lastError) => do
    finalizeTradeFrequencyReservation c.preTradeRiskService assessment false
    Traced.raise lastError
  | (details, attempts, _) => do
    recordTradeFrequency c assessment
    Traced.lift (invalidateAccountCache c)
    let positionsCount ← orNone (rowCount c Readers.positions)
    let ordersCount ← orNone (rowCount c Readers.orders)
    return { executionResult u call margin assessment precheck with
      details := details
      stateConsistency := some ⟨positionsCount, ordersCount⟩
      executionAttempts := attempts }

/-- From the precheck on. -/
def afterEnforcement (margin : Option ℚ) (assessment : Option RiskAssessment) :
    Exec TradeExecutionResult := do
  let precheck ← Traced.lift c.precheckTrade
  let giveBack := finalizeTradeFrequencyReservation c.preTradeRiskService assessment false
  if isGoldSymbol call.symbol && precheck.eventBlocked then
    giveBack
    Traced.raise (.preTradeRiskBlocked
      (coerceTradeGuardBlock precheck reasonXauusdTradeGuardBlocked)
      reasonXauusdTradeGuardBlocked)
  else if call.dryRun then
    giveBack
    return { executionResult u call margin assessment precheck with
      executionAttempts := some 0
      executionState := some "skipped" }
  else if !precheck.executable.getD true then
    giveBack
    Traced.raise (.tradingClient (orDefault precheck.reason "Trade precheck failed"))
  else
    let tried ← openAttempts u c call assessment (maxAttempts call) 1 none
    afterAttempts u c call margin assessment precheck tried
where
  /-- `str(reason or default)`. -/
  orDefault (reason : Option String) (default : String) : String :=
    if reason.getD "" = "" then default else reason.getD ""

def executeTrade : Exec TradeExecutionResult := do
  let margin ← orNone c.estimateMargin
  match c.preTradeRiskService with
  | none => afterEnforcement u c call margin none
  | some risk =>
    let assessment ← Traced.lift (risk.enforceTradeAllowed margin)
    afterEnforcement u c call margin (some assessment)

end Execution

/-- The finalizations among the events. -/
def finalizations (events : List Event) : List (String × Bool) :=
  events.filterMap fun event =>
    match event with
    | .finalized reservationId committed => some (reservationId, committed)
    | _ => none

/-- The broker gave a result, opened or recovered. -/
def obtained (events : List Event) : Bool :=
  events.any fun event =>
    match event with
    | .finalized _ _ => false
    | _ => true

/-- The reservation is finalized once, and taken up when the broker gave a result. -/
def FinalizedOnce (reservationId : String) (events : List Event) : Prop :=
  finalizations events = [(reservationId, obtained events)]

instance (reservationId : String) (events : List Event) :
    Decidable (FinalizedOnce reservationId events) :=
  inferInstanceAs (Decidable (finalizations events = _))

/-- The enforcement returned an assessment that holds a reservation. -/
structure Reserves (c : Collaborators) (margin : Option ℚ) (risk : RiskService)
    (assessment : RiskAssessment) (finalize : String → Bool → Except Raised Unit) : Prop where
  estimated : orNone c.estimateMargin = pure margin
  service : c.preTradeRiskService = some risk
  allowed : risk.enforceTradeAllowed margin = .ok assessment
  provider : risk.finalizeTradeSlot = some finalize
  held : assessment.reservationId ≠ ""

section Condition

variable (u : Unicode) (c : Collaborators) (call : TradeCall)

/-- The attempt fails and nothing is recovered. -/
def Fails (attempt : ℕ) : Prop :=
  (∃ error, c.openTradeDetails attempt = .error error ∧ error.isException = true) ∧
    recoverAt u c call attempt = .ok none

/-- The broker answers with details, or without any after a failed attempt, or it raises an
exception and the readers of the recovery do not raise. -/
def Keeps (attempt : ℕ) : Prop :=
  match c.openTradeDetails attempt with
  | .ok none => attempt ≠ 1
  | .ok (some _) => True
  | .error error => error.isException = true ∧ ∃ found, recoverAt u c call attempt = .ok found

def ReachesBroker (precheck : PrecheckSnapshot) : Prop :=
  ¬ (isGoldSymbol call.symbol = true ∧ precheck.eventBlocked = true) ∧ call.dryRun = false ∧
    precheck.executable.getD true = true

/-- Every attempt that is reached from this one on keeps the reservation. -/
def KeptFrom (first : ℕ) : Prop :=
  ∀ attempt, first ≤ attempt → attempt ≤ maxAttempts call →
    (∀ earlier, first ≤ earlier → earlier < attempt → Fails u c call earlier) →
    Keeps u c call attempt

/-- The precheck returns, and every attempt that is reached keeps the reservation. -/
def Contained : Prop :=
  ∃ precheck, c.precheckTrade = .ok precheck ∧
    (ReachesBroker call precheck → KeptFrom u c call 1)

end Condition

section Finalization

variable {u : Unicode} {c : Collaborators} {call : TradeCall} {margin : Option ℚ}
  {risk : RiskService} {assessment : RiskAssessment}
  {finalize : String → Bool → Except Raised Unit}

theorem events_swallow (x : Exec Unit) : (swallow x).events = x.events := by
  apply Traced.catching_silent
  intro error
  split_ifs
  · rfl
  · rfl

theorem events_finalize (h : Reserves c margin risk assessment finalize) (committed : Bool) :
    (risk.finalizeTradeFrequencyReservation assessment committed).events =
      [.finalized assessment.reservationId committed] := by
  unfold RiskService.finalizeTradeFrequencyReservation
  rw [if_neg h.held, h.provider]
  rfl

theorem events_finalizeTradeFrequencyReservation (h : Reserves c margin risk assessment finalize)
    (committed : Bool) :
    (finalizeTradeFrequencyReservation c.preTradeRiskService (some assessment) committed).events =
      [.finalized assessment.reservationId committed] := by
  rw [h.service]
  exact (events_swallow _).trans (events_finalize h committed)

/-- An exit that gives the reservation back and then ends. -/
theorem finalizedOnce_giveBack {α : Type} (h : Reserves c margin risk assessment finalize)
    {exit : Unit → Exec α} (hexit : ∀ done, (exit done).events = []) :
    FinalizedOnce assessment.reservationId
      (finalizeTradeFrequencyReservation c.preTradeRiskService (some assessment) false
        >>= exit).events := by
  rw [Traced.bind_silent hexit, events_finalizeTradeFrequencyReservation h]
  rfl

theorem events_orNone_bind {α β : Type} (reply : Except Raised α) {f : Option α → Exec β}
    (h : ∀ a, (f a).events = []) : (orNone reply >>= f).events = [] := by
  rw [Traced.bind_silent h]
  unfold orNone
  split
  · rfl
  · split_ifs
    · rfl
    · rfl

/-- After a result the reservation is taken up, and nothing more follows. -/
theorem events_afterAttempts (h : Reserves c margin risk assessment finalize)
    (precheck : PrecheckSnapshot) {details : Option TradeExecutionDetails} {attempts : Option ℕ}
    {lastError : Option Raised} (hresult : details = none → lastError = none) :
    (afterAttempts u c call margin (some assessment) precheck
        (details, attempts, lastError)).events =
      [.finalized assessment.reservationId true] := by
  have hrecord : (recordTradeFrequency c (some assessment)).events =
      [.finalized assessment.reservationId true] := by
    unfold recordTradeFrequency
    rw [h.service]
    exact (events_swallow _).trans (events_finalize h true)
  unfold afterAttempts
  split
  · rename_i heq
    obtain ⟨hnone, heq⟩ := Prod.mk.inj heq
    have hlast := hresult hnone
    rw [(Prod.mk.inj heq).2] at hlast
    cases hlast
  · rw [Traced.bind_silent, hrecord]
    intro _
    rw [Traced.bind_silent]
    · rfl
    · intro _
      apply events_orNone_bind
      intro positionsCount
      apply events_orNone_bind
      intro ordersCount
      rfl

end Finalization

section Attempts

variable {u : Unicode} {c : Collaborators} {call : TradeCall} {margin : Option ℚ}
  {risk : RiskService} {assessment : RiskAssessment}
  {finalize : String → Bool → Except Raised Unit}

variable {first : ℕ}

/-- The attempts from one on are that one and, when it fails, those after it. -/
theorem keptFrom_iff (hfirst : first ≤ maxAttempts call) : KeptFrom u c call first ↔
      Keeps u c call first ∧ (Fails u c call first → KeptFrom u c call (first + 1)) := by
  constructor
  · intro hkept
    refine ⟨hkept first le_rfl hfirst ?_, ?_⟩
    · intro earlier hfrom hlt
      omega
    · intro hfails attempt hfrom hle hearlier
      apply hkept attempt (by omega) hle
      intro earlier hge hlt
      by_cases hequal : earlier = first
      · rw [hequal]
        exact hfails
      · exact hearlier earlier (by omega) hlt
  · rintro ⟨hkeeps, hrest⟩ attempt hfrom hle hearlier
    by_cases hequal : attempt = first
    · rw [hequal]
      exact hkeeps
    · apply hrest (hearlier first le_rfl (by omega)) attempt (by omega) hle
      intro earlier hge hlt
      exact hearlier earlier (by omega) hlt

theorem keptFrom_of_lt (h : maxAttempts call < first) : KeptFrom u c call first := by
  intro attempt hfrom hle
  omega

theorem keptFrom_of_not_fails (hfirst : first ≤ maxAttempts call)
    (hnot : ¬ Fails u c call first) : KeptFrom u c call first ↔ Keeps u c call first := by
  rw [keptFrom_iff hfirst]
  exact and_iff_left fun hfails => absurd hfails hnot

theorem not_finalizedOnce_nil (reservationId : String) : ¬ FinalizedOnce reservationId [] := by
  intro h
  cases h

/-- The execution from an attempt on. -/
def executeFrom (u : Unicode) (c : Collaborators) (call : TradeCall) (margin : Option ℚ)
    (assessment : RiskAssessment) (precheck : PrecheckSnapshot) (remaining attempt : ℕ)
    (lastError : Option Raised) : Exec TradeExecutionResult :=
  openAttempts u c call (some assessment) remaining attempt lastError >>=
    afterAttempts u c call margin (some assessment) precheck

variable {attempt : ℕ}

theorem keeps_of_fails (h : Fails u c call attempt) : Keeps u c call attempt := by
  obtain ⟨⟨error, hopen, hexception⟩, hrecover⟩ := h
  unfold Keeps
  rw [hopen]
  exact ⟨hexception, none, hrecover⟩

/-- An attempt that fails is the last one, and gives the reservation back, or is followed
by the next one. -/
theorem executeFrom_fails (margin : Option ℚ) (assessment : RiskAssessment)
    (precheck : PrecheckSnapshot) (n : ℕ) (lastError : Option Raised)
    (hfails : Fails u c call attempt) :
    ∃ error, executeFrom u c call margin assessment precheck (n + 1) attempt lastError =
      if maxAttempts call ≤ attempt then
        finalizeTradeFrequencyReservation c.preTradeRiskService (some assessment) false >>=
          fun _ => Traced.raise error
      else executeFrom u c call margin assessment precheck n (attempt + 1) (some error) := by
  obtain ⟨⟨error, hopen, hexception⟩, hrecover⟩ := hfails
  refine ⟨error, ?_⟩
  unfold executeFrom
  rw [openAttempts, hopen]
  dsimp only
  rw [if_pos hexception, hrecover]
  show (if maxAttempts call ≤ attempt then _ else _) >>= _ = _
  split_ifs
  · rw [Traced.bind_assoc]
    rfl
  · rfl

variable {precheck : PrecheckSnapshot} {n : ℕ} {lastError : Option Raised}

/-- The broker answers the attempt: without details only a later attempt gives back. -/
theorem finalizedOnce_answer (h : Reserves c margin risk assessment finalize)
    (hfirst : lastError = none ↔ attempt = 1) {answer : Option TradeExecutionDetails}
    (hopen : c.openTradeDetails attempt = .ok answer) : FinalizedOnce assessment.reservationId
        (executeFrom u c call margin assessment precheck (n + 1) attempt lastError).events ↔
      Keeps u c call attempt := by
  unfold executeFrom Keeps
  rw [openAttempts, hopen]
  cases answer with
  | some details =>
    dsimp only
    rw [Traced.bind_assoc, Traced.emit_bind, Traced.pure_bind, events_afterAttempts h]
    · exact iff_of_true rfl trivial
    · intro hnone
      cases hnone
  | none =>
    dsimp only
    rw [Traced.pure_bind]
    by_cases hone : attempt = 1
    · have hlastError := hfirst.mpr hone
      rw [events_afterAttempts h precheck (fun _ => hlastError)]
      refine iff_of_false ?_ (fun hne => hne hone)
      intro honce
      cases honce
    · obtain ⟨error, rfl⟩ := Option.ne_none_iff_exists'.mp fun hnone => hone (hfirst.mp hnone)
      exact iff_of_true (finalizedOnce_giveBack h fun _ => rfl) hone

/-- The attempt raises and does not fail: the trade is recovered, or the error escapes. -/
theorem finalizedOnce_error (h : Reserves c margin risk assessment finalize)
    (hnot : ¬ Fails u c call attempt) {error : Raised}
    (hopen : c.openTradeDetails attempt = .error error) : FinalizedOnce assessment.reservationId
        (executeFrom u c call margin assessment precheck (n + 1) attempt lastError).events ↔
      Keeps u c call attempt := by
  unfold executeFrom Keeps
  rw [openAttempts, hopen]
  dsimp only
  by_cases hexception : error.isException = true
  · rw [if_pos hexception]
    cases hrecover : recoverAt u c call attempt with
    | error raised =>
      refine iff_of_false (not_finalizedOnce_nil _) ?_
      rintro ⟨_, found, hfound⟩
      cases hfound
    | ok found =>
      cases found with
      | none => exact absurd ⟨⟨error, hopen, hexception⟩, hrecover⟩ hnot
      | some details =>
        refine iff_of_true ?_ ⟨hexception, some details, rfl⟩
        rw [Traced.bind_assoc, Traced.lift_ok_bind]
        dsimp only
        rw [Traced.bind_assoc, Traced.emit_bind, Traced.pure_bind, events_afterAttempts h]
        · rfl
        · intro hnone
          cases hnone
  · rw [if_neg hexception]
    refine iff_of_false (not_finalizedOnce_nil _) ?_
    rintro ⟨htrue, _⟩
    exact hexception htrue

/-- An attempt that does not fail settles the reservation when it keeps it. -/
theorem finalizedOnce_settles (h : Reserves c margin risk assessment finalize)
    (hfirst : lastError = none ↔ attempt = 1) (hnot : ¬ Fails u c call attempt) :
    FinalizedOnce assessment.reservationId
        (executeFrom u c call margin assessment precheck (n + 1) attempt lastError).events ↔
      Keeps u c call attempt := by
  cases hopen : c.openTradeDetails attempt with
  | ok answer => exact finalizedOnce_answer h hfirst hopen
  | error error => exact finalizedOnce_error h hnot hopen

/-- From an attempt on, the reservation is finalized once exactly when the attempts keep it. -/
theorem finalizedOnce_attempts (h : Reserves c margin risk assessment finalize)
    (precheck : PrecheckSnapshot) (n attempt : ℕ) (lastError : Option Raised)
    (hpos : 1 ≤ attempt) (hlast : attempt + n = maxAttempts call)
    (hfirst : lastError = none ↔ attempt = 1) :
    FinalizedOnce assessment.reservationId
        (executeFrom u c call margin assessment precheck (n + 1) attempt lastError).events ↔
      KeptFrom u c call attempt := by
  induction n generalizing attempt lastError with
  | zero =>
    by_cases hfails : Fails u c call attempt
    · obtain ⟨error, hexecute⟩ :=
        executeFrom_fails margin assessment precheck 0 lastError hfails
      rw [hexecute, if_pos (by omega), keptFrom_iff (by omega)]
      apply iff_of_true
      · exact finalizedOnce_giveBack h fun _ => rfl
      · exact ⟨keeps_of_fails hfails, fun _ => keptFrom_of_lt (by omega)⟩
    · rw [finalizedOnce_settles h hfirst hfails, keptFrom_of_not_fails (by omega) hfails]
  | succ n ih =>
    by_cases hfails : Fails u c call attempt
    · obtain ⟨error, hexecute⟩ :=
        executeFrom_fails margin assessment precheck (n + 1) lastError hfails
      have hnext := ih (attempt + 1) (some error) (by omega) (by omega) (by simp; omega)
      rw [hexecute, if_neg (by omega), keptFrom_iff (by omega), hnext]
      exact ⟨fun hrest => ⟨keeps_of_fails hfails, fun _ => hrest⟩, fun hkept => hkept.2 hfails⟩
    · rw [finalizedOnce_settles h hfirst hfails, keptFrom_of_not_fails (by omega) hfails]

end Attempts

section Whole

variable {u : Unicode} {c : Collaborators} {call : TradeCall} {margin : Option ℚ}
  {risk : RiskService} {assessment : RiskAssessment}
  {finalize : String → Bool → Except Raised Unit}

theorem one_le_maxAttempts (call : TradeCall) : 1 ≤ maxAttempts call := by
  unfold maxAttempts
  omega

theorem executeTrade_events (h : Reserves c margin risk assessment finalize) :
    (executeTrade u c call).events = (afterEnforcement u c call margin (some assessment)).events := by
  unfold executeTrade
  rw [h.estimated, Traced.pure_bind, h.service]
  dsimp only
  rw [h.allowed, Traced.lift_ok_bind]

/-- From the precheck on, the reservation is finalized once exactly when the precheck
returns and the attempts keep it. -/
theorem finalizedOnce_afterEnforcement (h : Reserves c margin risk assessment finalize) :
    FinalizedOnce assessment.reservationId
        (afterEnforcement u c call margin (some assessment)).events ↔ Contained u c call := by
  unfold afterEnforcement Contained
  cases hprecheck : c.precheckTrade with
  | error error =>
    rw [Traced.lift_error_bind]
    refine iff_of_false (not_finalizedOnce_nil _) ?_
    rintro ⟨precheck, hreturned, _⟩
    cases hreturned
  | ok precheck =>
    have hcontained : (∃ snapshot, Except.ok precheck = (Except.ok snapshot : Except Raised _) ∧
        (ReachesBroker call snapshot → KeptFrom u c call 1)) ↔
        (ReachesBroker call precheck → KeptFrom u c call 1) := by
      constructor
      · rintro ⟨snapshot, hreturned, hkept⟩
        rw [Except.ok.inj hreturned]
        exact hkept
      · intro hkept
        exact ⟨precheck, rfl, hkept⟩
    rw [Traced.lift_ok_bind, hcontained]
    dsimp only
    split_ifs with hgold hdry hblocked
    · rw [Bool.and_eq_true] at hgold
      apply iff_of_true (finalizedOnce_giveBack h fun _ => rfl)
      intro hreaches
      exact absurd hgold hreaches.1
    · apply iff_of_true (finalizedOnce_giveBack h fun _ => rfl)
      intro hreaches
      exact absurd (hdry.symm.trans hreaches.2.1) (by decide)
    · apply iff_of_true (finalizedOnce_giveBack h fun _ => rfl)
      intro hreaches
      rw [hreaches.2.2] at hblocked
      exact absurd hblocked (by decide)
    · have hreaches : ReachesBroker call precheck := by
        refine ⟨?_, by simpa using hdry, by simpa using hblocked⟩
        rwa [Bool.and_eq_true] at hgold
      obtain ⟨n, hn⟩ := Nat.exists_eq_add_of_le' (one_le_maxAttempts call)
      have hloop : FinalizedOnce assessment.reservationId
          (executeFrom u c call margin assessment precheck (n + 1) 1 none).events ↔
            KeptFrom u c call 1 :=
        finalizedOnce_attempts h precheck n 1 none le_rfl (by omega) (iff_of_true rfl rfl)
      rw [hn]
      exact hloop.trans ⟨fun hkept _ => hkept, fun hkept => hkept hreaches⟩

end Whole

/-- The reservation is finalized exactly once, and taken up exactly when the broker gave a
result, if and only if the precheck returns and every attempt that is reached keeps it. -/
theorem finalized_once_iff (u : Unicode) (c : Collaborators) (call : TradeCall)
    {margin : Option ℚ} {risk : RiskService} {assessment : RiskAssessment}
    {finalize : String → Bool → Except Raised Unit}
    (h : Reserves c margin risk assessment finalize) :
    FinalizedOnce assessment.reservationId (executeTrade u c call).events ↔
      Contained u c call := by
  rw [executeTrade_events h]
  exact finalizedOnce_afterEnforcement h

def goldCall : TradeCall where
  symbol := "XAUUSD"
  volume := 1
  requestedPrice := none
  context := recoveryContext
  dryRun := false
  retryAttempts := 2
  requestId := initialId

def slotAssessment : RiskAssessment := ⟨"allow", some "slot-1"⟩

def reservingRisk : RiskService where
  enforceTradeAllowed := fun _ => .ok slotAssessment
  finalizeTradeSlot := some fun _ _ => .ok ()
  recordTradeExecution := .ok ()

/-- The broker fails every attempt and nothing is on the account; the precheck is given. -/
def failingBroker (precheckTrade : Except Raised PrecheckSnapshot) : Collaborators where
  estimateMargin := .ok 100
  precheckTrade := precheckTrade
  openTradeDetails := fun _ => .error (.tradingClient "Order send failed")
  accountClient := none
  preTradeRiskService := some reservingRisk

theorem reserves_failingBroker (precheckTrade : Except Raised PrecheckSnapshot) :
    Reserves (failingBroker precheckTrade) (some 100) reservingRisk slotAssessment
      (fun _ _ => .ok ()) where
  estimated := rfl
  service := rfl
  allowed := rfl
  provider := rfl
  held := by decide

/-- Both attempts fail, and the reservation is given back. -/
theorem failed_attempts_give_back :
    FinalizedOnce slotAssessment.reservationId
      (executeTrade ascii (failingBroker (.ok ⟨"allow", false, none, [], false, some true⟩))
        goldCall).events := by
  apply (finalized_once_iff ascii _ goldCall (reserves_failingBroker _)).mpr
  refine ⟨_, rfl, ?_⟩
  intro _ attempt _ _ _
  exact ⟨rfl, none, rfl⟩

/-- A precheck that raises leaves the reservation as it is. -/
theorem raising_precheck_keeps_reservation :
    ¬ ∀ (u : Unicode) (c : Collaborators) (call : TradeCall) (margin : Option ℚ)
      (risk : RiskService) (assessment : RiskAssessment)
      (finalize : String → Bool → Except Raised Unit),
      Reserves c margin risk assessment finalize →
        FinalizedOnce assessment.reservationId (executeTrade u c call).events := by
  intro hclaim
  have honce := hclaim ascii (failingBroker (.error (.exception "risk assessment unavailable")))
    goldCall _ _ _ _ (reserves_failingBroker _)
  have hevents : (executeTrade ascii
      (failingBroker (.error (.exception "risk assessment unavailable"))) goldCall).events = [] := rfl
  rw [hevents] at honce
  exact not_finalizedOnce_nil _ honce

end MT5Services.TradeExecution
