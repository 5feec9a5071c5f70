import MT5Services.Runs
import Mathlib.Logic.Function.Basic

/-!
Runtime modes: `OwnedThreadLifecycle`, the trade execution component as
`build_runtime_controls` wires it, the component registry and the mode
controller. A switch runs under the controller's lock, on the worker of the
`OperatorCommandConsumer` or on some other thread. Joining the current thread
raises; every other join ends or times out as its label says, and a worker ends
only after its stop event was set. Components other than trade execution start
and stop without failing.
-/
namespace MT5Services.RuntimeMode

open Runs

/-- The thread reference an owner holds. -/
inductive ThreadRef
  | none
  | alive
  | ended
  deriving DecidableEq, Repr

structure Lifecycle where
  thread : ThreadRef
  stopEvent : Bool
  deriving DecidableEq, Repr

namespace Lifecycle

def initial : Lifecycle := ⟨.none, false⟩

def isRunning (l : Lifecycle) : Bool := l.thread = .alive

/-- The start of both consumers. -/
def start (l : Lifecycle) : Lifecycle := if l.isRunning then l else ⟨.alive, false⟩

inductive Waited
  | gone
  | stillAlive
  | raised
  deriving DecidableEq, Repr

/-- `self` says that the caller is the thread to be joined; `ends` that it ends
within the timeout, which it only does with its stop event set. -/
def waitPrevious (self ends : Bool) (l : Lifecycle) : Lifecycle × Waited :=
  match l.thread with
  | .none => (l, .gone)
  | .ended => ({ l with thread := .none }, .gone)
  | .alive =>
    if self then (l, .raised)
    else if ends && l.stopEvent then ({ l with thread := .none }, .gone)
    else (l, .stillAlive)

def stop (self ends : Bool) (l : Lifecycle) : Lifecycle × Waited :=
  waitPrevious self ends { l with stopEvent := true }

/-- A worker whose stop event is set leaves its loop. -/
def exit (l : Lifecycle) : Option Lifecycle :=
  if l.isRunning && l.stopEvent then some { l with thread := .ended } else Option.none

end Lifecycle

/-- The thread that issues a mode switch. -/
inductive Caller
  | commandWorker
  | other
  deriving DecidableEq, Repr

/-- Whether each join of the switch ends within its timeout. -/
structure Joins where
  command : Bool
  intent : Bool
  executor : Bool
  deriving DecidableEq, Repr

/-- The three workers and `listener_state["attached"]`. -/
structure TradeExecution where
  executor : Lifecycle
  intentConsumer : Lifecycle
  commandConsumer : Lifecycle
  attached : Bool
  deriving DecidableEq, Repr

def TradeExecution.initial : TradeExecution := ⟨.initial, .initial, .initial, false⟩

/-- `TradeExecutor.start` only enables the executor: its thread is started by
the local event entry points, which this wiring does not use. -/
def startExecutor (joins : Joins) (executor : Lifecycle) : Lifecycle :=
  { (executor.waitPrevious false joins.executor).1 with stopEvent := false }

def startTradeExecution (joins : Joins) (trade : TradeExecution) : TradeExecution :=
  let trade := { trade with executor := startExecutor joins trade.executor }
  if trade.attached then trade
  else
    { trade with
      intentConsumer := trade.intentConsumer.start
      commandConsumer := trade.commandConsumer.start
      attached := true }

/-- The command consumer is stopped first; when that raises, the rest of the
function is not reached. -/
def stopTradeExecution (caller : Caller) (joins : Joins) (trade : TradeExecution) :
    TradeExecution × Option String :=
  if trade.attached then
    let (command, waited) := trade.commandConsumer.stop (caller = .commandWorker) joins.command
    if waited = .raised then
      ({ trade with commandConsumer := command }, some "cannot join current thread")
    else
      ({ executor := (trade.executor.stop false joins.executor).1
         intentConsumer := (trade.intentConsumer.stop false joins.intent).1
         commandConsumer := command
         attached := false }, none)
  else ({ trade with executor := (trade.executor.stop false joins.executor).1 }, none)

inductive Mode
  | full
  | observe
  | riskOff
  | ingestOnly
  deriving DecidableEq, Repr

def Mode.value : Mode → String
  | full => "full"
  | observe => "observe"
  | riskOff => "risk_off"
  | ingestOnly => "ingest_only"

inductive Component
  | storage
  | performanceWarmup
  | ingestion
  | pipelineTrace
  | indicators
  | signals
  | tradeExecution
  | pendingEntry
  | positionManager
  | accountRiskStateProjection
  deriving DecidableEq, Repr

def Component.name : Component → String
  | storage => "storage"
  | performanceWarmup => "performance_warmup"
  | ingestion => "ingestion"
  | pipelineTrace => "pipeline_trace"
  | indicators => "indicators"
  | signals => "signals"
  | tradeExecution => "trade_execution"
  | pendingEntry => "pending_entry"
  | positionManager => "position_manager"
  | accountRiskStateProjection => "account_risk_state_projection"

/-- Registration order. -/
def components : List Component :=
  [.storage, .performanceWarmup, .ingestion, .pipelineTrace, .indicators, .signals,
    .tradeExecution, .pendingEntry, .positionManager, .accountRiskStateProjection]

/-- The optional parts of the container next to trade execution. -/
structure Wiring where
  ingestor : Bool
  signalStack : Bool
  pendingEntryManager : Bool
  positionManager : Bool
  riskProjector : Bool

def supports (wiring : Wiring) (mode : Mode) : Component → Bool
  | .storage | .performanceWarmup | .pipelineTrace => true
  | .ingestion => wiring.ingestor
  | .indicators | .signals => wiring.signalStack && (mode = .full ∨ mode = .observe)
  | .tradeExecution => mode = .full
  | .pendingEntry => wiring.pendingEntryManager && mode ≠ .ingestOnly
  | .positionManager => wiring.positionManager && mode ≠ .ingestOnly
  | .accountRiskStateProjection => wiring.riskProjector && mode ≠ .ingestOnly

structure Runtime where
  trade : TradeExecution
  running : Component → Bool

def startComponent (joins : Joins) (runtime : Runtime) : Component → Runtime
  | .tradeExecution => { runtime with trade := startTradeExecution joins runtime.trade }
  | component => { runtime with running := Function.update runtime.running component true }

def stopComponent (caller : Caller) (joins : Joins) (runtime : Runtime) :
    Component → Runtime × Option String
  | .tradeExecution =>
    let (trade, error) := stopTradeExecution caller joins runtime.trade
    ({ runtime with trade := trade }, error)
  | component =>
    ({ runtime with running := Function.update runtime.running component false }, none)

def startIfSupported (wiring : Wiring) (mode : Mode) (joins : Joins) (runtime : Runtime)
    (component : Component) : Runtime :=
  if supports wiring mode component then startComponent joins runtime component else runtime

def startSupported (wiring : Wiring) (mode : Mode) (joins : Joins) (runtime : Runtime) :
    Runtime :=
  components.foldl (startIfSupported wiring mode joins) runtime

/-- A failing stop is recorded under the name of its component. -/
def stopIfUnsupported (wiring : Wiring) (mode : Mode) (caller : Caller) (joins : Joins)
    (state : Runtime × List String) (component : Component) : Runtime × List String :=
  if supports wiring mode component then state
  else
    let (runtime, error) := stopComponent caller joins state.1 component
    (runtime, state.2 ++
      (error.map fun text => component.name ++ ".stop() failed: " ++ text).toList)

def stopUnsupported (wiring : Wiring) (mode : Mode) (caller : Caller) (joins : Joins)
    (runtime : Runtime) : Runtime × List String :=
  components.reverse.foldl (stopIfUnsupported wiring mode caller joins) (runtime, [])

/-- `RuntimeComponentRegistry.apply_mode` with the text of its partial failure. -/
def registryApplyMode (wiring : Wiring) (mode : Mode) (caller : Caller) (joins : Joins)
    (runtime : Runtime) : Runtime × Option String :=
  let (runtime, errors) :=
    stopUnsupported wiring mode caller joins (startSupported wiring mode joins runtime)
  (runtime,
    if errors.isEmpty then none
    else some ("apply_mode('" ++ mode.value ++ "') partial failure (" ++ toString errors.length ++
      "): " ++ String.intercalate "; " errors))

inductive EodAction
  | disabled
  | riskOff
  | ingestOnly
  deriving DecidableEq, Repr

structure Policy where
  initialMode : Mode
  afterEodAction : EodAction
  wiring : Wiring

structure Controller where
  runtime : Runtime
  currentMode : Option Mode
  isAutoTransitioned : Bool
  lastError : Option String

def Controller.initial : Controller :=
  ⟨⟨.initial, fun _ => false⟩, none, false, none⟩

def canEnter (canEnterIngestOnly : Bool) (mode : Mode) : Bool :=
  mode ≠ .ingestOnly ∨ canEnterIngestOnly

/-- `_apply_mode_locked`: a refusing guard raises before anything changes, a
partial failure of the registry is recorded and the mode is taken over. -/
def applyModeLocked (policy : Policy) (caller : Caller) (joins : Joins)
    (canEnterIngestOnly : Bool) (target : Mode) (c : Controller) : Controller :=
  if canEnter canEnterIngestOnly target then
    let (runtime, error) := registryApplyMode policy.wiring target caller joins c.runtime
    { c with runtime := runtime, currentMode := some target, lastError := error }
  else c

def resolveAfterEod (action : EodAction) (current : Option Mode)
    (afterEodToday canEnterIngestOnly : Bool) : Option Mode :=
  if ¬ (current = some .full ∨ current = some .observe) then none
  else if !afterEodToday then none
  else if action = .riskOff then some .riskOff
  else if !canEnterIngestOnly then some .riskOff
  else some .ingestOnly

def resolveSessionStart (current : Option Mode) (afterEodToday wasAutoTransitioned : Bool)
    (initialMode : Mode) : Option Mode :=
  if !wasAutoTransitioned then none
  else if afterEodToday then none
  else if current = some initialMode then none
  else some initialMode

/-- One round of the monitor thread, which runs only with the policy enabled. The
positions are read once to choose the target and once more by the guard. -/
def evaluateAutoTransition (policy : Policy) (joins : Joins)
    (afterEodToday canEnterIngestOnly guardAdmits : Bool) (c : Controller) : Controller :=
  match resolveSessionStart c.currentMode afterEodToday c.isAutoTransitioned
      policy.initialMode with
  | some restore =>
    applyModeLocked policy .other joins guardAdmits restore
      { c with isAutoTransitioned := false }
  | none =>
    match resolveAfterEod policy.afterEodAction c.currentMode afterEodToday
        canEnterIngestOnly with
    | some target =>
      applyModeLocked policy .other joins guardAdmits target
        { c with isAutoTransitioned := true }
    | none => c

inductive Worker
  | executor
  | intentConsumer
  | commandConsumer
  deriving DecidableEq, Repr

inductive Act
  | applyMode (caller : Caller) (target : Mode) (canEnterIngestOnly : Bool) (joins : Joins)
  | monitor (afterEodToday canEnterIngestOnly guardAdmits : Bool) (joins : Joins)
  | workerExits (worker : Worker)

def TradeExecution.exit (trade : TradeExecution) : Worker → Option TradeExecution
  | .executor => trade.executor.exit.map fun l => { trade with executor := l }
  | .intentConsumer => trade.intentConsumer.exit.map fun l => { trade with intentConsumer := l }
  | .commandConsumer =>
    trade.commandConsumer.exit.map fun l => { trade with commandConsumer := l }

/-- A switch on the command worker needs that worker to be alive. -/
def step (policy : Policy) (c : Controller) : Act → Option Controller
  | .applyMode caller target canEnterIngestOnly joins =>
    if caller = .commandWorker ∧ c.runtime.trade.commandConsumer.isRunning = false then none
    else
      some (applyModeLocked policy caller joins canEnterIngestOnly target
        { c with isAutoTransitioned := false })
  | .monitor afterEodToday canEnterIngestOnly guardAdmits joins =>
    if policy.afterEodAction = .disabled then none
    else
      some (evaluateAutoTransition policy joins afterEodToday canEnterIngestOnly guardAdmits c)
  | .workerExits worker =>
    (c.runtime.trade.exit worker).map fun trade =>
      { c with runtime := { c.runtime with trade := trade } }

theorem startIfSupported_trade_of_ne (wiring : Wiring) (mode : Mode) (joins : Joins)
    (runtime : Runtime) (component : Component) (h : component ≠ .tradeExecution) :
    (startIfSupported wiring mode joins runtime component).trade = runtime.trade := by
  unfold startIfSupported
  split
  · cases component
    case tradeExecution => exact absurd rfl h
    all_goals rfl
  · rfl

theorem startSupported_trade (wiring : Wiring) (mode : Mode) (joins : Joins)
    (runtime : Runtime) :
    (startSupported wiring mode joins runtime).trade =
      if mode = .full then startTradeExecution joins runtime.trade else runtime.trade := by
  have hsplit : components = ([.storage, .performanceWarmup, .ingestion, .pipelineTrace,
      .indicators, .signals] : List Component) ++ Component.tradeExecution ::
        [.pendingEntry, .positionManager, .accountRiskStateProjection] := rfl
  have hframe : ∀ (list : List Component), .tradeExecution ∉ list → ∀ r,
      (list.foldl (startIfSupported wiring mode joins) r).trade = r.trade := by
    intro list hlist
    refine foldl_frame _ Runtime.trade list ?_
    intro r c hc
    refine startIfSupported_trade_of_ne wiring mode joins r c ?_
    rintro rfl
    exact hlist hc
  unfold startSupported
  rw [hsplit, List.foldl_append, List.foldl_cons, hframe _ (by decide)]
  simp only [startIfSupported, supports, decide_eq_true_eq]
  split
  · simp only [startComponent]
    exact congrArg (startTradeExecution joins) (hframe _ (by decide) runtime)
  · exact hframe _ (by decide) runtime

theorem stopIfUnsupported_trade_of_ne (wiring : Wiring) (mode : Mode) (caller : Caller)
    (joins : Joins) (state : Runtime × List String) (component : Component)
    (h : component ≠ .tradeExecution) :
    (stopIfUnsupported wiring mode caller joins state component).1.trade = state.1.trade := by
  unfold stopIfUnsupported
  split
  · rfl
  · cases component
    case tradeExecution => exact absurd rfl h
    all_goals rfl

theorem stopUnsupported_trade (wiring : Wiring) (mode : Mode) (caller : Caller)
    (joins : Joins) (runtime : Runtime) :
    (stopUnsupported wiring mode caller joins runtime).1.trade =
      if mode = .full then runtime.trade
      else (stopTradeExecution caller joins runtime.trade).1 := by
  have hsplit : components.reverse = ([.accountRiskStateProjection, .positionManager,
      .pendingEntry] : List Component) ++ Component.tradeExecution ::
        [.signals, .indicators, .pipelineTrace, .ingestion, .performanceWarmup, .storage] := rfl
  have hframe : ∀ (list : List Component), .tradeExecution ∉ list → ∀ state,
      (list.foldl (stopIfUnsupported wiring mode caller joins) state).1.trade =
        state.1.trade := by
    intro list hlist
    refine foldl_frame _ (fun state : Runtime × List String => state.1.trade) list ?_
    intro state c hc
    refine stopIfUnsupported_trade_of_ne wiring mode caller joins state c ?_
    rintro rfl
    exact hlist hc
  unfold stopUnsupported
  rw [hsplit, List.foldl_append, List.foldl_cons, hframe _ (by decide)]
  simp only [stopIfUnsupported, supports, decide_eq_true_eq]
  split
  · exact hframe _ (by decide) (runtime, [])
  · simp only [stopComponent]
    exact congrArg (fun trade => (stopTradeExecution caller joins trade).1)
      (hframe _ (by decide) (runtime, []))

/-- A switch starts trade execution in full mode and stops it in every other. -/
theorem registryApplyMode_trade (wiring : Wiring) (mode : Mode) (caller : Caller)
    (joins : Joins) (runtime : Runtime) :
    (registryApplyMode wiring mode caller joins runtime).1.trade =
      if mode = .full then startTradeExecution joins runtime.trade
      else (stopTradeExecution caller joins runtime.trade).1 := by
  have hstop := stopUnsupported_trade wiring mode caller joins
    (startSupported wiring mode joins runtime)
  rw [startSupported_trade] at hstop
  simp only [registryApplyMode]
  rw [hstop]
  split
  · rfl
  · rfl

/-- Trade execution is up: the consumers run and the executor is enabled. -/
def Up (trade : TradeExecution) : Prop :=
  trade = ⟨⟨.none, false⟩, ⟨.alive, false⟩, ⟨.alive, false⟩, true⟩

/-- No worker thread is left and the consumers are detached. -/
def Idle (trade : TradeExecution) : Prop :=
  trade.executor.thread = .none ∧ trade.intentConsumer.thread = .none ∧
    trade.commandConsumer.thread = .none ∧ trade.attached = false

def Down (trade : TradeExecution) : Prop := Idle trade ∧ trade.executor.stopEvent = true

theorem startTradeExecution_up (joins : Joins) (trade : TradeExecution)
    (h : Up trade ∨ Idle trade) : Up (startTradeExecution joins trade) := by
  rcases h with rfl | h
  · rfl
  · obtain ⟨⟨thread, stop⟩, ⟨intent, intentStop⟩, ⟨command, commandStop⟩, attached⟩ := trade
    obtain ⟨rfl, rfl, rfl, rfl⟩ := h
    rfl

/-- From another thread, with the joins in time, a stop leaves no worker. -/
theorem stopTradeExecution_down (caller : Caller) (trade : TradeExecution)
    (h : Up trade ∧ caller = .other ∨ Idle trade) :
    Down (stopTradeExecution caller ⟨true, true, true⟩ trade).1 := by
  rcases h with ⟨rfl, rfl⟩ | h
  · exact ⟨⟨rfl, rfl, rfl, rfl⟩, rfl⟩
  · obtain ⟨⟨thread, stop⟩, ⟨intent, intentStop⟩, ⟨command, commandStop⟩, attached⟩ := trade
    obtain ⟨rfl, rfl, rfl, rfl⟩ := h
    exact ⟨⟨rfl, rfl, rfl, rfl⟩, rfl⟩

/-- The state of trade execution that a recorded mode stands for. -/
def Matches (trade : TradeExecution) : Option Mode → Prop
  | none => Idle trade
  | some .full => Up trade
  | some _ => Down trade

theorem matches_up_or_idle (trade : TradeExecution) (mode : Option Mode)
    (h : Matches trade mode) : Up trade ∨ Idle trade := by
  cases mode with
  | none => exact Or.inr h
  | some mode =>
    cases mode with
    | full => exact Or.inl h
    | observe => exact Or.inr h.1
    | riskOff => exact Or.inr h.1
    | ingestOnly => exact Or.inr h.1

theorem applyModeLocked_matches (policy : Policy) (caller : Caller) (canEnterIngestOnly : Bool)
    (target : Mode) (c : Controller) (h : Matches c.runtime.trade c.currentMode)
    (hcaller : target ≠ .full → caller = .other) :
    Matches (applyModeLocked policy caller ⟨true, true, true⟩ canEnterIngestOnly target
        c).runtime.trade
      (applyModeLocked policy caller ⟨true, true, true⟩ canEnterIngestOnly target
        c).currentMode := by
  have hbefore := matches_up_or_idle c.runtime.trade c.currentMode h
  unfold applyModeLocked
  split
  · simp only [registryApplyMode_trade]
    by_cases hfull : target = .full
    · subst hfull
      exact startTradeExecution_up _ _ hbefore
    · rw [if_neg hfull]
      have hdown : Down (stopTradeExecution caller ⟨true, true, true⟩ c.runtime.trade).1 := by
        refine stopTradeExecution_down caller c.runtime.trade ?_
        rcases hbefore with hup | hidle
        · exact Or.inl ⟨hup, hcaller hfull⟩
        · exact Or.inr hidle
      cases target
      case full => exact absurd rfl hfull
      all_goals exact hdown
  · exact h

theorem exit_matches (trade next : TradeExecution) (worker : Worker) (mode : Option Mode)
    (h : Matches trade mode) (hexit : trade.exit worker = some next) : False := by
  have hnone : ∀ l : Lifecycle, l = ⟨.alive, false⟩ ∨ l.thread = .none →
      l.exit = none := by
    rintro ⟨thread, stop⟩ (hl | hl)
    · cases hl
      rfl
    · cases hl
      rfl
  rcases matches_up_or_idle trade mode h with rfl | ⟨hexec, hintent, hcommand, _⟩
  · cases worker <;> cases hexit
  · cases worker with
    | executor => simp [TradeExecution.exit, hnone _ (Or.inr hexec)] at hexit
    | intentConsumer => simp [TradeExecution.exit, hnone _ (Or.inr hintent)] at hexit
    | commandConsumer => simp [TradeExecution.exit, hnone _ (Or.inr hcommand)] at hexit

/-- Joins end in time, and a switch out of full mode does not run on the command
worker. -/
def Orderly : Act → Prop
  | .applyMode caller target _ joins =>
    joins = ⟨true, true, true⟩ ∧ (target ≠ .full → caller = .other)
  | .monitor _ _ _ joins => joins = ⟨true, true, true⟩
  | .workerExits _ => True

theorem step_matches (policy : Policy) (c : Controller) (a : Act) (c' : Controller)
    (h : Matches c.runtime.trade c.currentMode) (ha : Orderly a)
    (hstep : step policy c a = some c') : Matches c'.runtime.trade c'.currentMode := by
  cases a with
  | applyMode caller target canEnterIngestOnly joins =>
    obtain ⟨rfl, hcaller⟩ := ha
    simp only [step, Option.ite_none_left_eq_some, Option.some.injEq] at hstep
    obtain ⟨_, rfl⟩ := hstep
    exact applyModeLocked_matches policy caller canEnterIngestOnly target _ h hcaller
  | monitor afterEodToday canEnterIngestOnly guardAdmits joins =>
    cases ha
    simp only [step, Option.ite_none_left_eq_some, Option.some.injEq] at hstep
    obtain ⟨_, rfl⟩ := hstep
    unfold evaluateAutoTransition
    split
    · exact applyModeLocked_matches policy .other guardAdmits _ _ h fun _ => rfl
    · split
      · exact applyModeLocked_matches policy .other guardAdmits _ _ h fun _ => rfl
      · exact h
  | workerExits worker =>
    obtain ⟨next, hnext, rfl⟩ := Option.map_eq_some_iff.mp hstep
    exact (exit_matches c.runtime.trade next worker c.currentMode h hnext).elim

/-- In every run of orderly switches: in full mode both consumers run and the
executor is enabled; in every other mode neither the executor nor the intent
consumer runs. -/
theorem mode_switch_takes_effect (policy : Policy) (labels : List Act) (c : Controller)
    (horderly : ∀ a ∈ labels, Orderly a)
    (hrun : run (step policy) Controller.initial labels = some c) :
    (c.currentMode = some .full →
      c.runtime.trade.intentConsumer.isRunning = true ∧
        c.runtime.trade.commandConsumer.isRunning = true ∧
        c.runtime.trade.executor.stopEvent = false) ∧
      ∀ mode, c.currentMode = some mode → mode ≠ .full →
        c.runtime.trade.executor.isRunning = false ∧
          c.runtime.trade.executor.stopEvent = true ∧
          c.runtime.trade.intentConsumer.isRunning = false := by
  have hinitial : Matches Controller.initial.runtime.trade Controller.initial.currentMode :=
    ⟨rfl, rfl, rfl, rfl⟩
  have hmatches : Matches c.runtime.trade c.currentMode :=
    run_invariant_along (I := fun c => Matches c.runtime.trade c.currentMode)
      (fun s a t hs ha hstep => step_matches policy s a t hs ha hstep) hinitial
      (along_of_forall horderly) hrun
  constructor
  · intro hmode
    rw [hmode] at hmatches
    have hup : Up c.runtime.trade := hmatches
    rw [hup]
    exact ⟨rfl, rfl, rfl⟩
  · intro mode hmode hne
    rw [hmode] at hmatches
    have hdown : Down c.runtime.trade := by
      cases mode
      case full => exact absurd rfl hne
      all_goals exact hmatches
    obtain ⟨⟨hexecutor, hintent, _, _⟩, hstop⟩ := hdown
    simp [Lifecycle.isRunning, hexecutor, hintent, hstop]

def demoPolicy : Policy := ⟨.full, .riskOff, ⟨true, true, true, true, true⟩⟩

def inTime : Joins := ⟨true, true, true⟩

/-- Full mode, an automatic risk-off after the end of day, and full mode again. -/
theorem mode_switch_takes_effect_day :
    ∃ c, run (step demoPolicy) Controller.initial
        [.applyMode .other .full true inTime, .monitor true false true inTime,
          .monitor false true true inTime] = some c ∧
      c.currentMode = some .full ∧ c.runtime.trade.intentConsumer.isRunning = true := by
  obtain ⟨c, hc, hmode⟩ : ∃ c, run (step demoPolicy) Controller.initial
      [.applyMode .other .full true inTime, .monitor true false true inTime,
        .monitor false true true inTime] = some c ∧ c.currentMode = some .full := ⟨_, rfl, rfl⟩
  have horderly : ∀ a ∈ [Act.applyMode .other .full true inTime, .monitor true false true inTime,
      .monitor false true true inTime], Orderly a := by
    simp [Orderly, inTime]
  have heffect := mode_switch_takes_effect demoPolicy _ c horderly hc
  exact ⟨c, hc, hmode, (heffect.1 hmode).1⟩

/-- After a switch to full the executor has no thread; and a switch to observe
issued on the command worker leaves the intent consumer running. -/
theorem mode_switch_on_command_worker :
    (∃ c, run (step demoPolicy) Controller.initial [.applyMode .other .full true inTime] =
        some c ∧
      c.currentMode = some .full ∧ c.runtime.trade.executor.isRunning = false) ∧
    ∃ c, run (step demoPolicy) Controller.initial
        [.applyMode .other .full true inTime, .applyMode .commandWorker .observe true inTime] =
        some c ∧
      c.currentMode = some .observe ∧ c.runtime.trade.intentConsumer.isRunning = true :=
  ⟨⟨_, rfl, rfl, rfl⟩, ⟨_, rfl, rfl, rfl⟩⟩

end MT5Services.RuntimeMode
