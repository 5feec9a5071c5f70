import MT5Services.MarketOrders
import MT5Services.Runs
import MT5Services.Streaks

/-!
The circuit breaker of the executor. A market order that fails is counted, and enough
failures in a row open the circuit; `check_circuit_breaker` rejects events while it is open
and closes it after a passed health check. `submit_pending_entry` logs the failures of its
members, but neither counts them nor clears the count. The history beside the executor has
every dispatch that was tried, every opening, failed health check and reset.
-/
namespace MT5Services.CircuitBreaker

open MarketOrders PyValue Runs

/-- One member of a pending entry: what its dispatch gives, and what is raised after it. -/
structure Member where
  memberId : String
  dispatch : Except Raised Reply
  tracking : Option Raised := none

/-- What `execute` submits. -/
inductive Submission
  | market (event : SignalEvent) (params : TradeParameters) (symbolPoint : Option ℚ)
      (dispatch : Except Raised Reply)
  | pending (event : SignalEvent) (members : List Member)

/-- One call of `process_event`: whether the checks before and after the breaker let the event
pass, the answer of the health check, and the clock at the breaker, after the health check and
after the dispatch. -/
structure Call where
  now : ℤ
  checkedAt : ℤ
  dispatchedAt : ℤ
  collaborators : Collaborators
  before : Bool
  healthy : Bool
  after : Bool
  submission : Submission

inductive Entry
  | returned
  | riskBlocked
  | failed
  | opened (time : ℤ)
  | checkFailed (time : ℤ)
  | reset
  deriving DecidableEq, Repr

namespace Entry

def isFailed : Entry → Bool
  | .failed => true
  | _ => false

/-- A dispatch that was tried. -/
def isAttempt : Entry → Bool
  | .returned | .riskBlocked | .failed => true
  | _ => false

/-- What ends a row of failures. -/
def interrupts : Entry → Bool
  | .returned | .riskBlocked | .reset => true
  | _ => false

def isReset : Entry → Bool
  | .reset => true
  | _ => false

/-- The time of an opening or of a failed health check. -/
def time : Entry → Option ℤ
  | .opened time | .checkFailed time => some time
  | _ => none

end Entry

/-- The entry of a dispatch. -/
def attempt : Except Raised Reply → Entry
  | .ok _ => .returned
  | .error (.preTradeRiskBlocked _ _) => .riskBlocked
  | .error (.other _) => .failed

/-! The breaker. The clock is in microseconds. -/

def microsPerMinute : ℤ := 60 * 1000000

/-- The executor after a call, what the call adds to the history, and its result. -/
structure Outcome (α : Type) where
  executor : Executor
  entries : List Entry
  result : α

/-- `reset_circuit`; the history of the breaker is written last and may raise. -/
def resetCircuit (c : Collaborators) (s : Executor) : Outcome (Except Raised Unit) where
  executor := { s with
    circuitOpen := false
    consecutiveFailures := 0
    circuitOpenAt := none
    healthCheckFailures := 0 }
  entries := [.reset]
  result :=
    match c.circuitHistory.join with
    | some error => .error error
    | none => .ok ()

/-- The time of the automatic reset has come. -/
def expired (config : ExecutorConfig) (s : Executor) (now : ℤ) : Bool :=
  0 < config.circuitAutoResetMinutes &&
    s.circuitOpenAt.any fun openAt =>
      config.circuitAutoResetMinutes * microsPerMinute ≤ now - openAt

/-- `check_circuit_breaker`: whether the event is rejected. -/
def checkCircuitBreaker (config : ExecutorConfig) (s : Executor) (call : Call) :
    Outcome (Except Raised Bool) :=
  if !s.circuitOpen then ⟨s, [], .ok false⟩
  else if expired config s call.now then
    if call.healthy then
      let reset := resetCircuit call.collaborators { s with healthCheckFailures := 0 }
      ⟨reset.executor, reset.entries, reset.result.map fun _ => reset.executor.circuitOpen⟩
    else
      ⟨{ s with
          healthCheckFailures := s.healthCheckFailures + 1
          circuitOpenAt := some call.checkedAt },
        [.checkFailed call.checkedAt], .ok true⟩
  else ⟨s, [], .ok true⟩

/-! The submissions. -/

def Raised.message : Raised → String
  | .preTradeRiskBlocked message _ => message
  | .other message => message

/-- The error of a member, of its dispatch or of what follows. -/
def Member.error (member : Member) : Option Raised :=
  match member.dispatch with
  | .error error => some error
  | .ok _ => member.tracking

/-- The ticket of a member that counts as submitted. -/
def Member.submitted (member : Member) : Bool :=
  match member.dispatch with
  | .ok (.dict answer) => member.tracking.isNone && answer.order.orElse answer.ticket ≠ .missing
  | _ => false

/-- `submit_pending_entry`: what a member raises is logged and nothing else. -/
def submitPendingEntry (event : SignalEvent) (members : List Member) (s : Executor) : Executor :=
  if event.signalId = "" then notifySkip s "missing_signal_id"
  else
    { s with
      executionLog := s.executionLog ++ members.map fun member => {
        signalId := event.signalId
        success := member.error.isNone
        reason := member.error.map Raised.message }
      lastEntryBarTime :=
        match event.barTime, members.any Member.submitted with
        | some barTime, true =>
          s.lastEntryBarTime.set (event.symbol, event.timeframe, event.strategy, event.direction)
            barTime
        | _, _ => s.lastEntryBarTime }

/-- The dispatches of a pending entry. -/
def pendingAttempts (event : SignalEvent) (members : List Member) : List Entry :=
  if event.signalId = "" then [] else members.map fun member => attempt member.dispatch

/-- An entry for the circuit that has been opened. -/
def openings (now : ℤ) (before after : Bool) : List Entry :=
  if !before && after then [.opened now] else []

def execute (config : ExecutorConfig) (s : Executor) (call : Call) : Outcome Unit :=
  match call.submission with
  | .market event params symbolPoint dispatch =>
    let run := executeMarketOrder call.collaborators config call.dispatchedAt event params
      symbolPoint s dispatch
    ⟨run.executor,
      attempt dispatch :: openings call.dispatchedAt s.circuitOpen run.executor.circuitOpen, ()⟩
  | .pending event members =>
    ⟨submitPendingEntry event members s, pendingAttempts event members, ()⟩

def processEvent (config : ExecutorConfig) (s : Executor) (call : Call) : Outcome Unit :=
  if !call.before then ⟨s, [], ()⟩
  else
    let breaker := checkCircuitBreaker config s call
    match breaker.result with
    | .error _ => ⟨breaker.executor, breaker.entries, ()⟩
    | .ok true => ⟨breaker.executor, breaker.entries, ()⟩
    | .ok false =>
      if !call.after then ⟨breaker.executor, breaker.entries, ()⟩
      else
        let done := execute config breaker.executor call
        ⟨done.executor, breaker.entries ++ done.entries, ()⟩

structure System where
  executor : Executor
  history : List Entry

def start : System := ⟨{}, []⟩

inductive Label
  | event (call : Call)
  | reset (c : Collaborators)

def next (config : ExecutorConfig) (x : System) : Label → System
  | .event call =>
    ⟨(processEvent config x.executor call).executor,
      x.history ++ (processEvent config x.executor call).entries⟩
  | .reset c =>
    ⟨(resetCircuit c x.executor).executor, x.history ++ (resetCircuit c x.executor).entries⟩

def step (config : ExecutorConfig) (x : System) (a : Label) : Option System :=
  some (next config x a)

/-! The law of the breaker. -/

/-- The circuit is closed, or about to be closed by a passed health check. -/
def Passable (config : ExecutorConfig) (s : Executor) (call : Call) : Prop :=
  s.circuitOpen = false ∨ (expired config s call.now = true ∧ call.healthy = true ∧
    call.collaborators.circuitHistory.join = none)

/-- The event gets as far as its submission. -/
def Reaches (config : ExecutorConfig) (s : Executor) (call : Call) : Prop :=
  call.before = true ∧ Passable config s call ∧ call.after = true

/-- No dispatch of a pending entry fails. -/
def Counted (config : ExecutorConfig) (x : System) : Label → Prop
  | .reset _ => True
  | .event call => Reaches config x.executor call → ∀ event members,
      call.submission = .pending event members → Entry.failed ∉ pendingAttempts event members

/-- A reset, or an event whose health check passes. -/
def Closes (config : ExecutorConfig) (s : Executor) : Label → Prop
  | .reset _ => True
  | .event call => call.before = true ∧ expired config s call.now = true ∧ call.healthy = true

structure Lawful (config : ExecutorConfig) (x : System) : Prop where
  /-- Enough failures at the end of the history, and nothing between them. -/
  opens : ∀ earlier later, x.history = earlier ++ later → (∀ e ∈ later, e.interrupts = false) →
    config.maxConsecutiveFailures ≤ later.countP Entry.isFailed → x.executor.circuitOpen = true
  /-- No dispatch before the time has passed since the opening or the last failed check. -/
  quiet : ∀ earlier mark later time call, x.history = earlier ++ mark :: later →
    mark.time = some time → (∀ e ∈ later, e.time = none ∧ e.isReset = false) →
    x.executor.circuitOpen = true →
    call.now - time < config.circuitAutoResetMinutes * microsPerMinute →
    ∀ e ∈ (processEvent config x.executor call).entries, e.isAttempt = false
  closes : ∀ a, x.executor.circuitOpen = true → (next config x a).executor.circuitOpen = false →
    Closes config x.executor a

/-! The three fields that the breaker lives on, and what each call makes of them. -/

structure View where
  failures : ℤ
  isOpen : Bool
  openAt : Option ℤ

def viewOf (s : Executor) : View := ⟨s.consecutiveFailures, s.circuitOpen, s.circuitOpenAt⟩

/-- A failure more, and the circuit open if there are enough. -/
def View.fail (config : ExecutorConfig) (now : ℤ) (v : View) : View :=
  if !v.isOpen && config.maxConsecutiveFailures ≤ v.failures + 1 then
    ⟨v.failures + 1, true, some now⟩
  else { v with failures := v.failures + 1 }

def View.clear (v : View) : View := { v with failures := 0 }

section Views

variable (c : Collaborators) (config : ExecutorConfig) (now : ℤ) (event : SignalEvent)
  (s : Executor)

theorem viewOf_handleRiskBlock (calls : List MarketOrders.Call) (message reason : String) :
    viewOf (handleRiskBlock c event s calls message reason).executor = viewOf s := by
  unfold handleRiskBlock
  dsimp only
  cases emission c event c.onBlocked with
  | none => rfl
  | some error => rfl

theorem viewOf_handleFailure (calls : List MarketOrders.Call) (message : String) :
    viewOf (handleFailure c config now event s calls message).executor =
      (viewOf s).fail config now := by
  have htrips : trips config (countFailure event s message) =
      (!(viewOf s).isOpen && config.maxConsecutiveFailures ≤ (viewOf s).failures + 1) := rfl
  unfold handleFailure View.fail
  dsimp only
  rw [htrips]
  split
  · cases c.circuitHistory with
    | none => rfl
    | some raised =>
      cases raised with
      | none => rfl
      | some error => rfl
  · rfl

theorem viewOf_recordSlippage (requestedPrice fillPrice : Value) (symbolPoint : Option ℚ) :
    viewOf (recordSlippage s requestedPrice fillPrice symbolPoint) = viewOf s := by
  unfold recordSlippage
  split
  · rfl
  · rfl

theorem viewOf_submitPendingEntry (members : List Member) :
    viewOf (submitPendingEntry event members s) = viewOf s := by
  unfold submitPendingEntry
  split
  · rfl
  · rfl

/-- What is raised after the dispatch leaves the cleared count, or counts one failure. -/
theorem viewOf_handle_clear {v : View} (calls : List MarketOrders.Call) (raised : Raised)
    (h : viewOf s = v.clear) :
    viewOf (handle c config now event s calls raised).executor = v.clear ∨
      viewOf (handle c config now event s calls raised).executor = v.clear.fail config now := by
  cases raised with
  | preTradeRiskBlocked message reason =>
    refine Or.inl ?_
    rw [handle, viewOf_handleRiskBlock, h]
  | other message =>
    refine Or.inr ?_
    rw [handle, viewOf_handleFailure, h]

/-- After a dispatch that returned the count is cleared, and at most one failure is counted. -/
theorem viewOf_settle (params : TradeParameters) (symbolPoint : Option ℚ) (reply : Reply) :
    viewOf (settle c config now event params symbolPoint s reply).executor = (viewOf s).clear ∨
      viewOf (settle c config now event params symbolPoint s reply).executor =
        (viewOf s).clear.fail config now := by
  have hsuccess : viewOf (bookSuccess now s reply) = (viewOf s).clear := rfl
  unfold settle
  dsimp only
  cases submissionRaises c event reply with
  | some error => exact viewOf_handle_clear c config now event _ _ error hsuccess
  | none =>
    dsimp only
    have hrecorded : viewOf (recordSlippage (bookSuccess now s reply) (pricesOf reply).1
        (pricesOf reply).2 symbolPoint) = (viewOf s).clear := by
      rw [viewOf_recordSlippage, hsuccess]
    cases adjustParamsForFill params (pricesOf reply).1 (pricesOf reply).2 with
    | error error => exact viewOf_handle_clear c config now event _ _ error hrecorded
    | ok tracking => exact Or.inl hrecorded

end Views

/-! The invariant: the three fields summarize the history. -/

def trailing (history : List Entry) : ℕ := Streaks.streak Entry.isFailed Entry.interrupts history

def openedSince (history : List Entry) : Option ℤ :=
  Streaks.lastMark Entry.time Entry.isReset history

/-- No failure of the history is missed, and enough of them mean an open circuit. -/
structure Summarizes (config : ExecutorConfig) (v : View) (history : List Entry) : Prop where
  counted : (trailing history : ℤ) ≤ v.failures
  opens : config.maxConsecutiveFailures ≤ v.failures → v.isOpen = true
  since : v.isOpen = true → v.openAt = openedSince history

section Invariant

variable {config : ExecutorConfig} {v : View} {history : List Entry}

theorem openedSince_concat (e : Entry) (htime : e.time = none) (hreset : e.isReset = false) :
    openedSince (history ++ [e]) = openedSince history :=
  Streaks.lastMark_append_eq history [e] (by simpa using ⟨htime, hreset⟩)

theorem openedSince_mark (e : Entry) {time : ℤ} (htime : e.time = some time)
    (hreset : e.isReset = false) : openedSince (history ++ [e]) = some time :=
  Streaks.lastMark_of_mark htime hreset (by simp)

/-- A failure that is counted in time keeps the summary. -/
theorem summarizes_fail (now : ℤ) (hcounted : (trailing history : ℤ) ≤ v.failures + 1)
    (hsince : v.isOpen = true → v.openAt = openedSince history) :
    Summarizes config (v.fail config now)
      (history ++ openings now v.isOpen (v.fail config now).isOpen) := by
  unfold View.fail
  cases hopen : v.isOpen with
  | true =>
    rw [if_neg (by simp)]
    dsimp only
    refine ⟨?_, fun _ => rfl, ?_⟩
    · simpa [openings] using hcounted
    · intro _
      simpa [openings] using hsince hopen
  | false =>
    by_cases henough : config.maxConsecutiveFailures ≤ v.failures + 1
    · rw [if_pos (by simpa using henough)]
      refine ⟨?_, fun _ => rfl, ?_⟩
      · have hopened : trailing (history ++ [.opened now]) = trailing history :=
          Streaks.streak_concat history _
        show (trailing (history ++ [.opened now]) : ℤ) ≤ v.failures + 1
        rw [hopened]
        exact hcounted
      · intro _
        exact (openedSince_mark (.opened now) rfl rfl).symm
    · rw [if_neg (by simpa using henough)]
      dsimp only
      refine ⟨?_, fun h => absurd h henough, fun h => absurd h Bool.false_ne_true⟩
      simpa [openings] using hcounted

/-- A failed dispatch and its count. -/
theorem summarizes_failed (now : ℤ) (h : Summarizes config v history) :
    Summarizes config (v.fail config now)
      (history ++ .failed :: openings now v.isOpen (v.fail config now).isOpen) := by
  rw [List.append_cons]
  apply summarizes_fail
  · have htrailing : trailing (history ++ [.failed]) = trailing history + 1 :=
      Streaks.streak_concat history _
    have hcounted := h.counted
    rw [htrailing]
    push_cast
    omega
  · intro hopen
    rw [openedSince_concat .failed rfl rfl]
    exact h.since hopen

theorem trailing_interrupt (e : Entry) (h : e.interrupts = true) :
    trailing (history ++ [e]) = 0 := by
  unfold trailing
  rw [Streaks.streak_concat, Streaks.extend, if_pos h]

/-- A dispatch that returned, with the count cleared. -/
theorem summarizes_returned (hmax : 1 ≤ config.maxConsecutiveFailures)
    (h : Summarizes config v history) : Summarizes config v.clear (history ++ [.returned]) := by
  refine ⟨?_, ?_, ?_⟩
  · rw [trailing_interrupt .returned rfl]
    exact le_refl 0
  · intro henough
    have hzero : v.clear.failures = 0 := rfl
    omega
  · intro hopen
    rw [openedSince_concat .returned rfl rfl]
    exact h.since hopen

/-- The same, and a failure after the dispatch. -/
theorem summarizes_returned_fail (now : ℤ) (hmax : 1 ≤ config.maxConsecutiveFailures)
    (h : Summarizes config v history) :
    Summarizes config (v.clear.fail config now)
      (history ++ .returned :: openings now v.isOpen (v.clear.fail config now).isOpen) := by
  have hreturned := summarizes_returned hmax h
  rw [List.append_cons]
  refine summarizes_fail (v := v.clear) now ?_ hreturned.since
  have hcounted := hreturned.counted
  omega

/-- Entries without a failure, a time or a reset keep the summary. -/
theorem summarizes_append (more : List Entry) (h : Summarizes config v history)
    (hmore : ∀ e ∈ more, e.isFailed = false ∧ e.time = none ∧ e.isReset = false) :
    Summarizes config v (history ++ more) := by
  refine ⟨?_, h.opens, ?_⟩
  · have hstreak : trailing (history ++ more) ≤ trailing history :=
      Streaks.streak_append_le history more fun e he => (hmore e he).1
    have hcounted := h.counted
    omega
  · intro hopen
    have hlast : openedSince (history ++ more) = openedSince history :=
      Streaks.lastMark_append_eq history more fun e he => (hmore e he).2
    rw [hlast]
    exact h.since hopen

theorem summarizes_reset (hmax : 1 ≤ config.maxConsecutiveFailures) (openAt : Option ℤ) :
    Summarizes config ⟨0, false, openAt⟩ (history ++ [.reset]) := by
  refine ⟨?_, ?_, fun h => absurd h Bool.false_ne_true⟩
  · rw [trailing_interrupt .reset rfl]
    exact le_refl 0
  · intro henough
    dsimp only at henough
    omega

end Invariant

section Steps

variable {config : ExecutorConfig} {s : Executor} (call : Call) {history : List Entry}

/-- The health check that fails starts the time anew. -/
theorem summarizes_checkFailed (time : ℤ) {v : View} (h : Summarizes config v history) :
    Summarizes config { v with openAt := some time } (history ++ [.checkFailed time]) := by
  refine ⟨?_, h.opens, ?_⟩
  · have htrailing : trailing (history ++ [.checkFailed time]) = trailing history :=
      Streaks.streak_concat history _
    rw [htrailing]
    exact h.counted
  · intro _
    exact (openedSince_mark (.checkFailed time) rfl rfl).symm

theorem summarizes_breaker (hmax : 1 ≤ config.maxConsecutiveFailures)
    (h : Summarizes config (viewOf s) history) :
    Summarizes config (viewOf (checkCircuitBreaker config s call).executor)
      (history ++ (checkCircuitBreaker config s call).entries) := by
  unfold checkCircuitBreaker
  split
  · rw [List.append_nil]
    exact h
  · split
    · split
      · exact summarizes_reset hmax none
      · exact summarizes_checkFailed call.checkedAt h
    · rw [List.append_nil]
      exact h

theorem openings_self (now : ℤ) (isOpen : Bool) : openings now isOpen isOpen = [] := by
  cases isOpen with
  | false => rfl
  | true => rfl

/-- A market order, whatever its dispatch and what follows it give. -/
theorem summarizes_market (hmax : 1 ≤ config.maxConsecutiveFailures)
    (h : Summarizes config (viewOf s) history) (c : Collaborators) (now : ℤ) (event : SignalEvent)
    (params : TradeParameters) (symbolPoint : Option ℚ) (dispatch : Except Raised Reply) :
    Summarizes config
      (viewOf (executeMarketOrder c config now event params symbolPoint s dispatch).executor)
      (history ++ attempt dispatch :: openings now (viewOf s).isOpen
        (viewOf (executeMarketOrder c config now event params symbolPoint s
          dispatch).executor).isOpen) := by
  unfold executeMarketOrder
  cases dispatch with
  | error error =>
    dsimp only
    cases error with
    | preTradeRiskBlocked message reason =>
      rw [handle, viewOf_handleRiskBlock, openings_self]
      exact summarizes_append [.riskBlocked] h (by simp [Entry.isFailed, Entry.time, Entry.isReset])
    | other message =>
      rw [handle, viewOf_handleFailure]
      exact summarizes_failed now h
  | ok reply =>
    dsimp only
    rcases viewOf_settle c config now event s params symbolPoint reply with hview | hview
    · have hopen : (viewOf s).clear.isOpen = (viewOf s).isOpen := rfl
      rw [hview, hopen, openings_self]
      exact summarizes_returned hmax h
    · rw [hview]
      exact summarizes_returned_fail now hmax h

theorem attempt_cases (dispatch : Except Raised Reply) :
    attempt dispatch = .returned ∨ attempt dispatch = .riskBlocked ∨
      attempt dispatch = .failed := by
  cases dispatch with
  | ok reply => exact Or.inl rfl
  | error error =>
    cases error with
    | preTradeRiskBlocked message reason => exact Or.inr (Or.inl rfl)
    | other message => exact Or.inr (Or.inr rfl)

/-- What `execute` submits keeps the summary, if no dispatch of a pending entry fails. -/
theorem summarizes_execute (hmax : 1 ≤ config.maxConsecutiveFailures)
    (h : Summarizes config (viewOf s) history)
    (hpending : ∀ event members, call.submission = .pending event members →
      Entry.failed ∉ pendingAttempts event members) :
    Summarizes config (viewOf (execute config s call).executor)
      (history ++ (execute config s call).entries) := by
  unfold execute
  cases hsubmission : call.submission with
  | market event params symbolPoint dispatch =>
    exact summarizes_market hmax h call.collaborators call.dispatchedAt event params symbolPoint
      dispatch
  | pending event members =>
    dsimp only
    rw [viewOf_submitPendingEntry]
    apply summarizes_append _ h
    intro e he
    have hcounted : e ≠ .failed := by
      rintro rfl
      exact hpending event members hsubmission he
    unfold pendingAttempts at he
    split at he
    · cases he
    · obtain ⟨member, -, rfl⟩ := List.mem_map.mp he
      rcases attempt_cases member.dispatch with hattempt | hattempt | hattempt
      · rw [hattempt]
        exact ⟨rfl, rfl, rfl⟩
      · rw [hattempt]
        exact ⟨rfl, rfl, rfl⟩
      · exact absurd hattempt hcounted

theorem passable_of_result (h : (checkCircuitBreaker config s call).result = .ok false) :
    Passable config s call := by
  unfold checkCircuitBreaker at h
  cases hopen : s.circuitOpen with
  | false => exact Or.inl hopen
  | true =>
    rw [hopen, if_neg (by decide)] at h
    cases hexpired : expired config s call.now with
    | false =>
      rw [hexpired, if_neg Bool.false_ne_true] at h
      cases h
    | true =>
      rw [hexpired, if_pos rfl] at h
      cases hhealthy : call.healthy with
      | false =>
        rw [hhealthy, if_neg Bool.false_ne_true] at h
        cases h
      | true =>
        rw [hhealthy, if_pos rfl] at h
        dsimp only [resetCircuit] at h
        cases hhistory : call.collaborators.circuitHistory.join with
        | some error =>
          rw [hhistory] at h
          cases h
        | none => exact Or.inr ⟨hexpired, hhealthy, hhistory⟩

theorem summarizes_processEvent (hmax : 1 ≤ config.maxConsecutiveFailures)
    (h : Summarizes config (viewOf s) history)
    (hpending : Reaches config s call → ∀ event members,
      call.submission = .pending event members → Entry.failed ∉ pendingAttempts event members) :
    Summarizes config (viewOf (processEvent config s call).executor)
      (history ++ (processEvent config s call).entries) := by
  have hbreaker := summarizes_breaker call hmax h
  unfold processEvent
  cases hbefore : call.before with
  | false =>
    rw [if_pos (by decide), List.append_nil]
    exact h
  | true =>
    rw [if_neg (by decide)]
    dsimp only
    cases hverdict : (checkCircuitBreaker config s call).result with
    | error error => exact hbreaker
    | ok rejected =>
      cases rejected with
      | true => exact hbreaker
      | false =>
        dsimp only
        cases hafter : call.after with
        | false =>
          rw [if_pos (by decide)]
          exact hbreaker
        | true =>
          rw [if_neg (by decide), ← List.append_assoc]
          exact summarizes_execute call hmax hbreaker
            (hpending ⟨hbefore, passable_of_result call hverdict, hafter⟩)

end Steps

variable {config : ExecutorConfig}

theorem summarizes_step (hmax : 1 ≤ config.maxConsecutiveFailures)
    (x : System) (a : Label) (y : System) (h : Summarizes config (viewOf x.executor) x.history)
    (hcounted : Counted config x a) (hstep : step config x a = some y) :
    Summarizes config (viewOf y.executor) y.history := by
  cases Option.some.inj hstep
  cases a with
  | event call => exact summarizes_processEvent call hmax h hcounted
  | reset c => exact summarizes_reset hmax none

theorem summarizes_start (hmax : 1 ≤ config.maxConsecutiveFailures) :
    Summarizes config (viewOf start.executor) start.history := by
  refine ⟨le_refl 0, ?_, fun h => absurd h Bool.false_ne_true⟩
  intro henough
  have hzero : (viewOf start.executor).failures = 0 := rfl
  omega

/-! What the summary gives of the next call. -/

/-- An open circuit whose time has not come rejects the event. -/
theorem processEvent_open {s : Executor} {call : Call}
    (hopen : s.circuitOpen = true) (hexpired : expired config s call.now = false) :
    (processEvent config s call).entries = [] ∧ (processEvent config s call).executor = s := by
  have hbreaker : checkCircuitBreaker config s call = ⟨s, [], .ok true⟩ := by
    unfold checkCircuitBreaker
    rw [hopen, if_neg (by decide), hexpired, if_neg Bool.false_ne_true]
  unfold processEvent
  rw [hbreaker]
  split
  · exact ⟨rfl, rfl⟩
  · exact ⟨rfl, rfl⟩

/-- An open circuit whose health check fails stays open. -/
theorem processEvent_checkFailed {s : Executor} {call : Call}
    (hopen : s.circuitOpen = true) (hhealthy : call.healthy = false) :
    (processEvent config s call).executor.circuitOpen = true := by
  cases hexpired : expired config s call.now with
  | false =>
    rw [(processEvent_open hopen hexpired).2]
    exact hopen
  | true =>
    unfold processEvent
    split
    · exact hopen
    · unfold checkCircuitBreaker
      rw [hopen, if_neg (by decide), hexpired, if_pos rfl, hhealthy, if_neg Bool.false_ne_true]

theorem closes_of_closed {x : System} (a : Label) (hopen : x.executor.circuitOpen = true)
    (hclosed : (next config x a).executor.circuitOpen = false) : Closes config x.executor a := by
  cases a with
  | reset c => trivial
  | event call =>
    have hclosed' : (processEvent config x.executor call).executor.circuitOpen = false := hclosed
    refine ⟨?_, ?_, ?_⟩
    · by_contra hbefore
      rw [Bool.not_eq_true] at hbefore
      unfold processEvent at hclosed'
      rw [hbefore, if_pos (by decide), hopen] at hclosed'
      cases hclosed'
    · by_contra hexpired
      rw [Bool.not_eq_true] at hexpired
      rw [(processEvent_open hopen hexpired).2, hopen] at hclosed'
      cases hclosed'
    · by_contra hhealthy
      rw [Bool.not_eq_true] at hhealthy
      rw [processEvent_checkFailed hopen hhealthy] at hclosed'
      cases hclosed'

theorem lawful_of_summarizes {x : System}
    (h : Summarizes config (viewOf x.executor) x.history) : Lawful config x := by
  refine ⟨?_, ?_, fun a hopen hclosed => closes_of_closed a hopen hclosed⟩
  · intro earlier later hsplit hlater henough
    apply h.opens
    have hstreak : later.countP Entry.isFailed ≤ trailing x.history := by
      rw [hsplit]
      exact Streaks.countP_le_streak earlier later hlater
    have hcounted := h.counted
    omega
  · intro earlier mark later time call hsplit hmark hlater hopen helapsed e he
    have hsince : x.executor.circuitOpenAt = some time := by
      have hlast : openedSince x.history = some time := by
        rw [hsplit]
        refine Streaks.lastMark_of_mark hmark ?_ hlater
        cases mark with
        | opened time => rfl
        | checkFailed time => rfl
        | _ => cases hmark
      exact (h.since hopen).trans hlast
    have hexpired : expired config x.executor call.now = false := by
      unfold expired
      rw [hsince]
      simp only [Option.any_some, Bool.and_eq_false_imp, decide_eq_false_iff_not, not_le]
      exact fun _ => helapsed
    rw [(processEvent_open hopen hexpired).1] at he
    cases he

/-- Circuit breaker over runs: in every run whose pending entries have no failing dispatch,
enough failures in a row leave the circuit open, an open circuit lets nothing through before
its time, and it closes only by a reset or a passed health check. -/
theorem breaker_lawful (config : ExecutorConfig) (hmax : 1 ≤ config.maxConsecutiveFailures)
    (labels : List Label) (x : System)
    (halong : Along (step config) (Counted config) start labels)
    (hrun : run (step config) start labels = some x) : Lawful config x :=
  lawful_of_summarizes
    (run_invariant_along (summarizes_step hmax) (summarizes_start hmax) halong hrun)

/-- A call whose dispatch raises. -/
def failingCall (submission : Submission) : Call where
  now := 0
  checkedAt := 0
  dispatchedAt := 0
  collaborators := { pipelineBus := false }
  before := true
  healthy := true
  after := true
  submission := submission

def noConnection : Except Raised Reply := .error (.other "no connection")

def failingMarket : Label := .event (failingCall (.market goldEvent goldParams none noConnection))

def failingPending : Label :=
  .event (failingCall (.pending goldEvent [⟨"limit", noConnection, none⟩]))

theorem breaker_lawful_market :
    Lawful {} (next {} (next {} (next {} start failingMarket) failingMarket) failingMarket) := by
  have hcounted : ∀ x, Counted {} x failingMarket := by
    intro x _ event members hsubmission
    cases hsubmission
  refine breaker_lawful {} (by decide) [failingMarket, failingMarket, failingMarket] _ ?_ rfl
  exact ⟨hcounted _, fun x _ => ⟨hcounted x, fun y _ => ⟨hcounted y, fun _ _ => trivial⟩⟩⟩

/-- Three pending orders fail in a row, and the circuit stays closed. -/
theorem pending_failures_uncounted :
    ¬ ∀ (config : ExecutorConfig) (labels : List Label) (x : System),
      run (step config) start labels = some x → Lawful config x := by
  intro h
  have hlawful := h {} [failingPending, failingPending, failingPending] _ rfl
  have hhistory : (next {} (next {} (next {} start failingPending) failingPending)
      failingPending).history = [.failed, .failed, .failed] := by
    decide
  have hclosed : (next {} (next {} (next {} start failingPending) failingPending)
      failingPending).executor.circuitOpen = false := by
    decide
  have hopen := hlawful.opens [] [.failed, .failed, .failed] hhistory (by decide) (by decide)
  exact absurd (hopen.symm.trans hclosed) (by decide)

end MT5Services.CircuitBreaker
