import MT5Services.Dict
import MT5Services.Runs
import Mathlib.Data.Int.Notation

/-!
Intrabar and confirmed events of `TradeExecutor` and the guard between them. The
guard remembers which trades of a bar were made and, per strategy, the direction of
the intrabar position; a confirmed event asks it first and clears the bar unless it
is skipped. The answers of the gates, the decision engine and the broker belong to
the event. `dispatched` is the history the guard stands for: the intrabar events
whose result says that an order went out.
-/
namespace MT5Services.IntrabarGuard

open Runs

/-- Symbol, parent timeframe, strategy and parent bar of a position. -/
structure PositionKey where
  symbol : String
  timeframe : String
  strategy : String
  bar : ℤ
  deriving DecidableEq, Repr

structure SignalEvent where
  symbol : String
  timeframe : String
  strategy : String
  direction : String
  barTime : Option ℤ
  deriving DecidableEq, Repr

def SignalEvent.keyAt (event : SignalEvent) (bar : ℤ) : PositionKey :=
  ⟨event.symbol, event.timeframe, event.strategy, bar⟩

/-- The normalised `status` of a terminal result; a result without one is `other`. -/
inductive TerminalStatus
  | failed
  | skipped
  | blocked
  | error
  | other
  deriving DecidableEq, Repr

def isDispatchCommitted : TerminalStatus → Bool
  | .failed | .skipped | .blocked | .error => false
  | .other => true

inductive SkipReason
  | autoTradeDisabled
  | intrabarPositionAlreadyValidated
  | intrabarPositionHold
  | intrabarParentBarMissing
  | intrabarGuardBlocked
  | intrabarGateBlocked
  | preTradeFilter
  | tradeParamsUnavailable
  | decisionRejected
  | costBlocked
  | executionResultUnavailable
  deriving DecidableEq, Repr

/-- How `process_event` ends: a skip, the result of `execute`, `None` or an exception. -/
inductive Outcome
  | skip (reason : SkipReason)
  | result (status : TerminalStatus)
  | unavailable
  | raises
  deriving DecidableEq, Repr

/-- How `execute` ends. -/
inductive Execution
  | raises
  | unavailable
  | returns (status : TerminalStatus)
  deriving DecidableEq, Repr

/-- What the rest of the executor answers for one event. -/
structure Answers where
  enabled : Bool
  gateOpen : Bool
  filtersPass : Bool
  paramsAvailable : Bool
  decisionRejected : Bool
  costBlocked : Bool
  execution : Execution
  deriving DecidableEq, Repr

structure Executor where
  traded : List (PositionKey × String)
  positions : Dict PositionKey String
  dispatched : List (PositionKey × String)

def start : Executor := ⟨[], Dict.empty, []⟩

def canTrade (ex : Executor) (key : PositionKey) (direction : String) : Bool :=
  (key, direction) ∉ ex.traded

def recordTrade (ex : Executor) (key : PositionKey) (direction : String) : Executor :=
  { ex with
    traded := if (key, direction) ∈ ex.traded then ex.traded else ex.traded ++ [(key, direction)]
    positions := ex.positions.set key direction }

def hasIntrabarPosition (ex : Executor) (event : SignalEvent) : Option String :=
  event.barTime.bind fun bar => ex.positions.get? (event.keyAt bar)

def sameBar (symbol timeframe : String) (bar : ℤ) (key : PositionKey) : Bool :=
  key.symbol = symbol ∧ key.timeframe = timeframe ∧ key.bar = bar

/-- The strategy is not compared: the bar is cleared for all of them. -/
def onParentBarClose (ex : Executor) (symbol timeframe : String) (bar : ℤ) : Executor :=
  { ex with
    traded := ex.traded.filter fun p => !sameBar symbol timeframe bar p.1
    positions := (ex.positions.keys.filter (sameBar symbol timeframe bar)).foldl Dict.pop
      ex.positions }

/-- The confirmed flow after the coordination; it does not touch the guard. -/
def confirmedOutcome (answers : Answers) : Outcome :=
  if !answers.enabled then .skip .autoTradeDisabled
  else if !answers.filtersPass then .skip .preTradeFilter
  else if !answers.paramsAvailable then .skip .tradeParamsUnavailable
  else if answers.decisionRejected then .skip .decisionRejected
  else if answers.costBlocked then .skip .costBlocked
  else
    match answers.execution with
    | .raises => .raises
    | .unavailable => .unavailable
    | .returns status => .result status

/-- The coordination with an intrabar position: same direction and hold are skipped,
a reversal goes on. -/
def coordination (ex : Executor) (event : SignalEvent) : Option SkipReason :=
  match hasIntrabarPosition ex event with
  | none => none
  | some direction =>
    if event.direction = direction then some .intrabarPositionAlreadyValidated
    else if event.direction ≠ "buy" ∧ event.direction ≠ "sell" then some .intrabarPositionHold
    else none

/-- An event that is not skipped clears its bar. -/
def handleConfirmed (ex : Executor) (event : SignalEvent) (answers : Answers) :
    Executor × Outcome :=
  match coordination ex event with
  | some reason => (ex, .skip reason)
  | none =>
    match event.barTime with
    | none => (ex, confirmedOutcome answers)
    | some bar =>
      (onParentBarClose ex event.symbol event.timeframe bar, confirmedOutcome answers)

/-- The checks before an intrabar order, up to the parent bar it is made for. -/
def intrabarAdmission (ex : Executor) (event : SignalEvent) (answers : Answers) :
    Except SkipReason ℤ :=
  if !answers.enabled then .error .autoTradeDisabled
  else
    match event.barTime with
    | none => .error .intrabarParentBarMissing
    | some bar =>
      if !canTrade ex (event.keyAt bar) event.direction then .error .intrabarGuardBlocked
      else if !answers.gateOpen then .error .intrabarGateBlocked
      else if !answers.filtersPass then .error .preTradeFilter
      else if !answers.paramsAvailable then .error .tradeParamsUnavailable
      else if answers.decisionRejected then .error .decisionRejected
      else if answers.costBlocked then .error .costBlocked
      else .ok bar

/-- Every result that is not `None` is recorded as a trade. -/
def executeIntrabar (ex : Executor) (key : PositionKey) (direction : String) :
    Execution → Executor × Outcome
  | .raises => (ex, .raises)
  | .unavailable => (ex, .skip .executionResultUnavailable)
  | .returns status =>
    ({ recordTrade ex key direction with
        dispatched := if isDispatchCommitted status then ex.dispatched ++ [(key, direction)]
          else ex.dispatched },
      .result status)

def handleIntrabarEntry (ex : Executor) (event : SignalEvent) (answers : Answers) :
    Executor × Outcome :=
  match intrabarAdmission ex event answers with
  | .error reason => (ex, .skip reason)
  | .ok bar => executeIntrabar ex (event.keyAt bar) event.direction answers.execution

inductive Act
  | intrabar (event : SignalEvent) (answers : Answers)
  | confirmed (event : SignalEvent) (answers : Answers)

def processEvent (ex : Executor) : Act → Executor × Outcome
  | .intrabar event answers => handleIntrabarEntry ex event answers
  | .confirmed event answers => handleConfirmed ex event answers

def step (ex : Executor) (a : Act) : Option Executor := some (processEvent ex a).1

/-- The result of an admitted event is recorded for a dispatched order only, and for a
bar without an opposite position; the bar an event clears has no position. -/
def Coordinated (ex : Executor) : Act → Prop
  | .intrabar event answers =>
    ∀ bar ∈ (intrabarAdmission ex event answers).toOption, ∀ status,
      answers.execution = .returns status → isDispatchCommitted status = true ∧
        ∀ direction ∈ ex.positions.get? (event.keyAt bar), direction = event.direction
  | .confirmed event _ =>
    coordination ex event = none → ∀ bar ∈ event.barTime, ∀ key ∈ ex.positions.keys,
      sameBar event.symbol event.timeframe bar key = false

/-- The guard's positions are the dispatched intrabar orders. -/
def Faithful (ex : Executor) : Prop :=
  ∀ key direction, ex.positions.get? key = some direction ↔ (key, direction) ∈ ex.dispatched

/-- Clearing a bar without positions clears none. -/
theorem onParentBarClose_positions (ex : Executor) (symbol timeframe : String) (bar : ℤ)
    (h : ∀ key ∈ ex.positions.keys, sameBar symbol timeframe bar key = false) :
    (onParentBarClose ex symbol timeframe bar).positions = ex.positions := by
  have hnone : ex.positions.keys.filter (sameBar symbol timeframe bar) = [] := by
    rw [List.filter_eq_nil_iff]
    intro key hkey
    rw [h key hkey]
    exact Bool.false_ne_true
  unfold onParentBarClose
  dsimp only
  rw [hnone]
  rfl

theorem confirmed_faithful (ex : Executor) (event : SignalEvent) (answers : Answers)
    (h : Faithful ex) (hcoordinated : Coordinated ex (.confirmed event answers)) :
    Faithful (handleConfirmed ex event answers).1 := by
  unfold handleConfirmed
  split
  · exact h
  · rename_i hpasses
    cases hbar : event.barTime with
    | none => exact h
    | some bar =>
      have hclear := onParentBarClose_positions ex event.symbol event.timeframe bar
        (hcoordinated hpasses bar hbar)
      intro key direction
      dsimp only
      rw [hclear]
      exact h key direction

theorem intrabar_faithful (ex : Executor) (event : SignalEvent) (answers : Answers)
    (h : Faithful ex) (hcoordinated : Coordinated ex (.intrabar event answers)) :
    Faithful (handleIntrabarEntry ex event answers).1 := by
  unfold handleIntrabarEntry
  split
  · exact h
  · rename_i bar hadmitted
    cases hexecution : answers.execution with
    | raises => exact h
    | unavailable => exact h
    | returns status =>
      have hbar : bar ∈ (intrabarAdmission ex event answers).toOption := by
        rw [hadmitted]
        rfl
      obtain ⟨hcommitted, hagrees⟩ := hcoordinated bar hbar status hexecution
      intro key direction
      simp only [executeIntrabar, recordTrade, hcommitted, if_true, Dict.get?_set,
        List.mem_append, List.mem_singleton, Prod.mk.injEq]
      by_cases hkey : key = event.keyAt bar
      · subst hkey
        rw [if_pos rfl, Option.some.injEq]
        constructor
        · intro hdirection
          exact Or.inr ⟨rfl, hdirection.symm⟩
        · intro hdispatched
          rcases hdispatched with hold | ⟨-, hnew⟩
          · exact (hagrees direction ((h _ _).mpr hold)).symm
          · exact hnew.symm
      · rw [if_neg hkey, h key direction]
        constructor
        · exact Or.inl
        · intro hdispatched
          rcases hdispatched with hold | ⟨hsame, -⟩
          · exact hold
          · exact absurd hsame hkey

theorem step_faithful (ex : Executor) (a : Act) (next : Executor) (h : Faithful ex)
    (hcoordinated : Coordinated ex a) (hstep : step ex a = some next) : Faithful next := by
  cases Option.some.inj hstep
  cases a with
  | intrabar event answers => exact intrabar_faithful ex event answers h hcoordinated
  | confirmed event answers => exact confirmed_faithful ex event answers h hcoordinated

/-- No later check of the confirmed flow gives the reason of the coordination. -/
theorem confirmedOutcome_ne_validated (answers : Answers) :
    confirmedOutcome answers ≠ .skip .intrabarPositionAlreadyValidated := by
  unfold confirmedOutcome
  split
  · simp
  split
  · simp
  split
  · simp
  split
  · simp
  split
  · simp
  split <;> simp

theorem validated_iff_position (ex : Executor) (event : SignalEvent) (answers : Answers) :
    (handleConfirmed ex event answers).2 = .skip .intrabarPositionAlreadyValidated ↔
      hasIntrabarPosition ex event = some event.direction := by
  unfold handleConfirmed coordination
  cases hposition : hasIntrabarPosition ex event with
  | none =>
    dsimp only
    cases event.barTime with
    | none => simp [confirmedOutcome_ne_validated]
    | some bar => simp [confirmedOutcome_ne_validated]
  | some direction =>
    dsimp only
    by_cases hsame : event.direction = direction
    · simp [hsame]
    · have hother : some direction ≠ some event.direction := by
        intro heq
        exact hsame (Option.some.inj heq).symm
      rw [if_neg hsame]
      refine iff_of_false ?_ hother
      by_cases hhold : event.direction ≠ "buy" ∧ event.direction ≠ "sell"
      · rw [if_pos hhold]
        simp
      · rw [if_neg hhold]
        cases event.barTime with
        | none => exact confirmedOutcome_ne_validated answers
        | some bar => exact confirmedOutcome_ne_validated answers

/-- In every run whose steps meet the condition, a confirmed event is skipped as
already validated exactly when an intrabar event of its symbol, timeframe, strategy,
direction and bar was dispatched before. -/
theorem validated_iff_dispatched (labels : List Act) (ex : Executor)
    (halong : Along step Coordinated start labels) (hrun : run step start labels = some ex)
    (event : SignalEvent) (answers : Answers) :
    (processEvent ex (.confirmed event answers)).2 = .skip .intrabarPositionAlreadyValidated ↔
      ∃ bar, event.barTime = some bar ∧
        (event.keyAt bar, event.direction) ∈ ex.dispatched := by
  have hinitial : Faithful start := by
    intro key direction
    simp [start]
  have hfaithful : Faithful ex := run_invariant_along step_faithful hinitial halong hrun
  unfold processEvent
  rw [validated_iff_position]
  unfold hasIntrabarPosition
  rw [Option.bind_eq_some_iff]
  constructor
  · intro h
    obtain ⟨bar, hbar, hget⟩ := h
    exact ⟨bar, hbar, (hfaithful _ _).mp hget⟩
  · intro h
    obtain ⟨bar, hbar, hmem⟩ := h
    exact ⟨bar, hbar, (hfaithful _ _).mpr hmem⟩

def sampleEvent (strategy direction : String) : SignalEvent :=
  ⟨"XAUUSD", "M15", strategy, direction, some 900⟩

def sampleAnswers (execution : Execution) : Answers :=
  ⟨true, true, true, true, false, false, execution⟩

/-- A dispatched intrabar buy, then the confirmed buy of the same strategy. -/
theorem validated_iff_dispatched_buy :
    ∃ ex, run step start [.intrabar (sampleEvent "trend" "buy") (sampleAnswers (.returns .other))] =
        some ex ∧
      (processEvent ex (.confirmed (sampleEvent "trend" "buy") (sampleAnswers .raises))).2 =
        .skip .intrabarPositionAlreadyValidated := by
  obtain ⟨ex, hrun⟩ : ∃ ex, run step start
      [.intrabar (sampleEvent "trend" "buy") (sampleAnswers (.returns .other))] = some ex :=
    ⟨_, rfl⟩
  have halong : Along step Coordinated start
      [.intrabar (sampleEvent "trend" "buy") (sampleAnswers (.returns .other))] := by
    refine ⟨?_, fun _ _ => trivial⟩
    intro bar _ status hstatus
    cases hstatus
    refine ⟨rfl, ?_⟩
    intro direction hposition
    cases hposition
  have hdispatched : ((sampleEvent "trend" "buy").keyAt 900, "buy") ∈ ex.dispatched := by
    cases Option.some.inj hrun
    exact List.mem_singleton_self _
  exact ⟨ex, hrun, (validated_iff_dispatched _ ex halong hrun _ _).mpr ⟨900, rfl, hdispatched⟩⟩

/-- The confirmed event of another strategy on the same bar clears the position of
the first: its own confirmed event is executed again. -/
theorem other_strategy_clears_position :
    ∃ labels ex event answers, run step start labels = some ex ∧
      ¬ ((processEvent ex (.confirmed event answers)).2 =
          .skip .intrabarPositionAlreadyValidated ↔
        ∃ bar, event.barTime = some bar ∧
          (event.keyAt bar, event.direction) ∈ ex.dispatched) := by
  refine ⟨[.intrabar (sampleEvent "trend" "buy") (sampleAnswers (.returns .other)),
    .confirmed (sampleEvent "range" "sell") (sampleAnswers (.returns .other))], _,
    sampleEvent "trend" "buy", sampleAnswers (.returns .other), rfl, ?_⟩
  intro hiff
  have hdispatched := hiff.mpr ⟨900, rfl, List.mem_singleton_self _⟩
  cases hdispatched

end MT5Services.IntrabarGuard
