import MT5Services.CostGuard
import MT5Services.BacktestDecisions

/-!
The deployment contract `require_pending_entry` in `process_event`. The pre-trade filters read
the entry group from the metadata of the event, and the decision engine, which comes after them,
derives the group and writes it there. An event that has been decoded from a payload has no group
when the filters run, and counts as one with market members only.
-/
namespace MT5Services.PendingEntryGate

open CostGuard PyText
open MarketOrders (TradeParameters)
open BacktestDecisions (StrategyDeployment DeploymentStatus)

/-- What the metadata has under the key of the group; what a payload holds is never the object. -/
inductive GroupEntry
  | missing
  | plain
  | group (group : EntrySpecGroup)

structure SignalEvent extends CostGuard.SignalEvent where
  strategy : String
  timeframe : String
  parentBarTime : Option ℤ := none
  entrySpecGroup : GroupEntry := .missing

/-- The fields of a payload that the pipeline reads; `hasGroup` says whether its metadata has
the key of the group. -/
structure SignalPayload where
  symbol : Option String := none
  timeframe : Option String := none
  strategy : Option String := none
  direction : Option String := none
  scope : Option String := none
  signalId : Option String := none
  parentBarTime : Option ℤ := none
  metadata : Metadata := {}
  hasGroup : Bool := false
  indicators : Dict String Payload := Dict.empty

/-- `str(value or default)`. -/
def textOr (value : Option String) (default : String) : String :=
  (value.filter fun text => text ≠ "").getD default

def signalEventFromPayload (payload : SignalPayload) : SignalEvent where
  symbol := textOr payload.symbol ""
  timeframe := textOr payload.timeframe ""
  strategy := textOr payload.strategy ""
  direction := textOr payload.direction ""
  scope := textOr payload.scope "confirmed"
  signalId := textOr payload.signalId ""
  parentBarTime := payload.parentBarTime
  metadata := payload.metadata
  entrySpecGroup := if payload.hasGroup then .plain else .missing
  indicators := payload.indicators

/-- What the intrabar guard answers for the event. -/
structure Guard where
  position : Option String := none
  canTrade : Bool := true

/-- The executor as the event finds it. `sessions` and `livePositions` are the normalised
sessions of the event and the count of its strategy's positions; `derived` is the group of the
registry's policy, when there are a registry, an intent and a market snapshot. -/
structure Context where
  config : ExecutorConfig
  deployments : Dict String StrategyDeployment
  environment : String
  executedSignalIds : List String := []
  circuitRejects : Except Error Bool := .ok false
  sessions : List String := []
  livePositions : ℤ := 0
  laterFilters : Except Error (Option String) := .ok none
  intrabarGuard : Option Guard := none
  gateAllowsIntrabar : Bool := true
  computeParams : Except Error (Option TradeParameters)
  derived : Except Error (Option EntrySpecGroup)
  pendingManager : Bool
  emission : Option Error := none
  preparing : Option Error := none

section Deployment

variable (deployment : StrategyDeployment)

def allowsRuntimeEvaluation : Bool := deployment.status ≠ .candidate

def allowsLiveExecution : Bool := deployment.status ∈ [.active, .activeGuarded]

def allowsDemoValidation : Bool :=
  deployment.status ∈ [.active, .activeGuarded, .demoValidation]

def isExecutableIn (environment : String) : Except Error Bool :=
  let env := lower (strip environment)
  if env = "" then
    .error (.other ("is_executable_in: environment is required (non-empty); " ++
      "callers must pass runtime_identity.environment"))
  else if env = "demo" then .ok (allowsDemoValidation deployment)
  else .ok (allowsLiveExecution deployment)

end Deployment

/-- The first filter that does not pass: its rejection, or what it raises. -/
def firstRejection : List (Except Error (Option String)) → Except Error (Option String)
  | [] => .ok none
  | .ok none :: rest => firstRejection rest
  | .ok (some reason) :: _ => .ok (some reason)
  | .error error :: _ => .error error

section Source

variable (ctx : Context) (event : SignalEvent)

/-- `reject_signal` reports the rejection, which may raise. -/
def reject (reason : String) : Except Error (Option String) :=
  match ctx.emission with
  | some error => .error error
  | none => .ok (some reason)

def check (rejects : Bool) (reason : String) : Except Error (Option String) :=
  if rejects then reject ctx reason else .ok none

/-- The filters of the deployment before the one of the pending entry. -/
def deploymentFilters (deployment : StrategyDeployment) :
    List (Except Error (Option String)) :=
  [check ctx (!allowsRuntimeEvaluation deployment) "strategy_candidate_only",
    match isExecutableIn deployment ctx.environment with
    | .error error => .error error
    | .ok allowed => check ctx (!allowed) "strategy_demo_validation",
    check ctx (!deployment.lockedTimeframes.isEmpty &&
      !deployment.lockedTimeframes.contains (TradeSizing.timeframeKey event.timeframe))
      "strategy_locked_timeframe",
    check ctx (!deployment.lockedSessions.isEmpty &&
      !ctx.sessions.any deployment.lockedSessions.contains) "strategy_locked_session",
    check ctx (deployment.maxLivePositions.any fun limit => limit ≤ ctx.livePositions)
      "strategy_max_live_positions"]

/-- Without a group in the metadata the entry counts as all market. -/
def metadataAllMarket : Bool :=
  match event.entrySpecGroup with
  | .group group => group.allMarket
  | _ => true

def pendingEntryFilter (deployment : StrategyDeployment) : Except Error (Option String) :=
  check ctx (deployment.requirePendingEntry && (metadataAllMarket event || !ctx.pendingManager))
    "strategy_requires_pending_entry"

/-- The filters before those of the deployment; two of them do not report. -/
def firstFilters : List (Except Error (Option String)) :=
  [check ctx (event.signalId ≠ "" && ctx.executedSignalIds.contains event.signalId)
      "duplicate_signal_id",
    ctx.circuitRejects.map fun rejects => if rejects then some "circuit_open" else none,
    .ok (if event.direction ≠ "buy" ∧ event.direction ≠ "sell" then some "invalid_direction"
      else none)]

def runPreTradeFilters : Except Error (Option String) :=
  match ctx.deployments.get? event.strategy with
  | none => firstRejection (firstFilters ctx event ++ [ctx.laterFilters])
  | some deployment =>
    firstRejection (firstFilters ctx event ++ deploymentFilters ctx event deployment ++
      [pendingEntryFilter ctx event deployment, ctx.laterFilters])

/-- What an intrabar event has to pass before the filters. -/
def intrabarFilters : List (Except Error (Option String)) :=
  [check ctx ctx.intrabarGuard.isNone "intrabar_guard_missing",
    check ctx event.parentBarTime.isNone "missing_parent_bar_time",
    check ctx (ctx.intrabarGuard.any fun guard => !guard.canTrade) "intrabar_guard_blocked",
    check ctx (!ctx.gateAllowsIntrabar) "intrabar_gate_blocked"]

def runIntrabar : Except Error (Option String) :=
  firstRejection (intrabarFilters ctx event ++ [runPreTradeFilters ctx event])

/-- A confirmed event with an intrabar position of its direction, or without a direction, is
skipped. -/
def coordination : Option String :=
  match ctx.intrabarGuard.bind Guard.position with
  | none => none
  | some direction =>
    if event.direction = direction then some "intrabar_position_already_validated"
    else if event.direction ≠ "buy" ∧ event.direction ≠ "sell" then
      some "intrabar_position_hold"
    else none

/-- A group that the metadata has is returned, another one is derived and written. -/
def ensureEntrySpecGroup : Except Error (Option EntrySpecGroup × GroupEntry) :=
  match event.entrySpecGroup with
  | .group group => .ok (some group, .group group)
  | entry => ctx.derived.map fun derived =>
      match derived with
      | some group => (some group, .group group)
      | none => (none, entry)

/-- What the decision and the orders are made from. -/
def answers : Answers where
  coordination := coordination ctx event
  runConfirmed := runPreTradeFilters ctx event
  runIntrabar := runIntrabar ctx event
  computeParams := ctx.computeParams
  entryGroup := (ensureEntrySpecGroup ctx event).map Prod.fst
  pendingManager := ctx.pendingManager
  emission := ctx.emission
  preparing := ctx.preparing

def processEvent : Run :=
  CostGuard.processEvent ctx.config (answers ctx event) event.toSignalEvent

end Source

section Claims

variable (ctx : Context) (event : SignalEvent)

/-- An event whose group has a pending member is not rejected for want of a pending entry, and one
whose group has market members only is rejected before any dispatch. -/
structure Gated : Prop where
  pending : ∀ group, (answers ctx event).entryGroup = .ok (some group) →
    group.allMarket = false →
      (processEvent ctx event).outcome ≠ .skip "strategy_requires_pending_entry"
  market : ∀ group, (answers ctx event).entryGroup = .ok (some group) →
    group.allMarket = true →
      (processEvent ctx event).dispatched = [] ∧ (processEvent ctx event).outcome ≠ .executed

def earlierFilters (deployment : StrategyDeployment) : List (Except Error (Option String)) :=
  (if event.scope = "intrabar" then intrabarFilters ctx event
    else [.ok (coordination ctx event)]) ++
    (firstFilters ctx event ++ deploymentFilters ctx event deployment)

/-- The event comes to the filter of the pending entry, and a rejection there is reported. -/
structure Reaches (deployment : StrategyDeployment) : Prop where
  enabled : ctx.config.enabled = true
  passes : ∀ filter ∈ earlierFilters ctx event deployment, filter = .ok none
  reported : ctx.emission = none

end Claims

section Filters

theorem firstRejection_of_pass {front back : List (Except Error (Option String))}
    (hfront : ∀ filter ∈ front, filter = .ok none) :
    firstRejection (front ++ back) = firstRejection back := by
  induction front with
  | nil => rfl
  | cons first rest ih =>
    rw [hfront first List.mem_cons_self, List.cons_append, firstRejection]
    exact ih fun filter hfilter => hfront filter (List.mem_cons_of_mem first hfilter)

/-- What stops a chain of filters is one of them, and stays what it is behind others. -/
theorem firstRejection_of_stop {front : List (Except Error (Option String))}
    (hfront : ¬∀ filter ∈ front, filter = .ok none) (back : List (Except Error (Option String))) :
    firstRejection (front ++ back) ∈ front ∧ firstRejection (front ++ back) ≠ .ok none := by
  induction front with
  | nil => exact absurd (fun filter hfilter => nomatch hfilter) hfront
  | cons first rest ih =>
    rw [List.cons_append]
    cases first with
    | error error => exact ⟨List.mem_cons_self, fun h => nomatch h⟩
    | ok answer =>
      cases answer with
      | some reason => exact ⟨List.mem_cons_self, fun h => nomatch h⟩
      | none =>
        have hrest : ¬∀ filter ∈ rest, filter = .ok none := by
          intro hpass
          exact hfront (List.forall_mem_cons.mpr ⟨rfl, hpass⟩)
        rw [firstRejection]
        exact ⟨List.mem_cons_of_mem _ (ih hrest).1, (ih hrest).2⟩

variable {ctx : Context} {event : SignalEvent} {deployment : StrategyDeployment}

theorem eq_of_check {rejects : Bool} {reason other : String}
    (h : check ctx rejects reason = .ok (some other)) : other = reason := by
  unfold check reject at h
  split_ifs at h
  · cases hemission : ctx.emission with
    | some error => simp [hemission] at h
    | none => simpa [hemission, eq_comm] using h
  · cases h

/-- No filter before the one of the pending entry gives its reason. -/
theorem earlier_reason {filter : Except Error (Option String)}
    (hfilter : filter ∈ earlierFilters ctx event deployment) :
    filter ≠ .ok (some "strategy_requires_pending_entry") := by
  have hcheck : ∀ rejects reason, reason ≠ "strategy_requires_pending_entry" →
      check ctx rejects reason ≠ .ok (some "strategy_requires_pending_entry") :=
    fun rejects reason hreason h => hreason (eq_of_check h).symm
  unfold earlierFilters at hfilter
  simp only [List.mem_append] at hfilter
  rcases hfilter with hfilter | hfirst | hdeployment
  · split_ifs at hfilter with hscope
    · unfold intrabarFilters at hfilter
      simp only [List.mem_cons, List.not_mem_nil, or_false] at hfilter
      rcases hfilter with rfl | rfl | rfl | rfl
      all_goals exact hcheck _ _ (by simp)
    · rw [List.mem_singleton.mp hfilter]
      unfold coordination
      cases ctx.intrabarGuard.bind Guard.position with
      | none => simp
      | some direction =>
        dsimp only
        split_ifs
        all_goals simp
  · unfold firstFilters at hfirst
    simp only [List.mem_cons, List.not_mem_nil, or_false] at hfirst
    rcases hfirst with rfl | rfl | rfl
    · exact hcheck _ _ (by simp)
    · cases ctx.circuitRejects with
      | error error => simp [Except.map]
      | ok rejects =>
        cases rejects
        all_goals simp [Except.map]
    · split_ifs
      all_goals simp
  · unfold deploymentFilters at hdeployment
    simp only [List.mem_cons, List.not_mem_nil, or_false] at hdeployment
    rcases hdeployment with hstatus | henvironment | hother | hother | hother
    · rw [hstatus]
      exact hcheck _ _ (by simp)
    · rw [henvironment]
      cases isExecutableIn deployment ctx.environment with
      | error error => simp
      | ok allowed => exact hcheck _ _ (by simp)
    all_goals
      rw [hother]
      exact hcheck _ _ (by simp)

theorem firstRejection_singleton (filter : Except Error (Option String)) :
    firstRejection [filter] = filter := by
  cases filter with
  | error error => rfl
  | ok answer =>
    cases answer with
    | none => rfl
    | some reason => rfl

/-- A chain of filters as one filter of another chain. -/
theorem firstRejection_nested (front back : List (Except Error (Option String))) :
    firstRejection (front ++ [firstRejection back]) = firstRejection (front ++ back) := by
  induction front with
  | nil => exact firstRejection_singleton _
  | cons first rest ih =>
    rw [List.cons_append, List.cons_append]
    cases first with
    | error error => rfl
    | ok answer =>
      cases answer with
      | some reason => rfl
      | none => exact ih

end Filters

section Fresh

variable {ctx : Context} {event : SignalEvent} {deployment : StrategyDeployment}

/-- The metadata has no group object. -/
def Fresh (event : SignalEvent) : Prop := ∀ group, event.entrySpecGroup ≠ .group group

theorem fresh_of_payload (payload : SignalPayload) : Fresh (signalEventFromPayload payload) := by
  intro group h
  unfold signalEventFromPayload at h
  dsimp only at h
  split_ifs at h

theorem metadataAllMarket_of_fresh (hfresh : Fresh event) : metadataAllMarket event = true := by
  unfold metadataAllMarket
  cases hentry : event.entrySpecGroup with
  | missing => rfl
  | plain => rfl
  | group group => exact absurd hentry (hfresh group)

theorem pendingEntryFilter_of_fresh (hfresh : Fresh event)
    (hrequires : deployment.requirePendingEntry = true) :
    pendingEntryFilter ctx event deployment = reject ctx "strategy_requires_pending_entry" := by
  unfold pendingEntryFilter check
  rw [metadataAllMarket_of_fresh hfresh, hrequires, Bool.true_or, Bool.and_self, if_pos rfl]

/-- With the group in the metadata the filter does what it is there for. -/
theorem pendingEntryFilter_of_group {group : EntrySpecGroup}
    (hgroup : event.entrySpecGroup = .group group)
    (hrequires : deployment.requirePendingEntry = true) :
    pendingEntryFilter ctx event deployment = .ok none ↔
      group.allMarket = false ∧ ctx.pendingManager = true := by
  have hmarket : metadataAllMarket event = group.allMarket := by rw [metadataAllMarket, hgroup]
  unfold pendingEntryFilter check reject
  rw [hmarket, hrequires, Bool.true_and]
  cases group.allMarket with
  | true =>
    cases ctx.emission with
    | none => simp
    | some error => simp
  | false =>
    cases ctx.pendingManager with
    | true => simp
    | false =>
      cases ctx.emission with
      | none => simp
      | some error => simp

/-- How a run ends that a filter stops. -/
def stopped : Except Error (Option String) → Run
  | .error error => ⟨[], .raises error⟩
  | .ok (some reason) => ⟨[], .skip reason⟩
  | .ok none => ⟨[], .executed⟩

def verdict (ctx : Context) (event : SignalEvent) (deployment : StrategyDeployment) :
    Except Error (Option String) :=
  firstRejection (earlierFilters ctx event deployment ++
    [pendingEntryFilter ctx event deployment, ctx.laterFilters])

theorem runPreTradeFilters_eq
    (hdeployment : ctx.deployments.get? event.strategy = some deployment) :
    runPreTradeFilters ctx event =
      firstRejection (firstFilters ctx event ++ deploymentFilters ctx event deployment ++
        [pendingEntryFilter ctx event deployment, ctx.laterFilters]) := by
  rw [runPreTradeFilters, hdeployment]

theorem handleIntrabarEntry_of_stopped {config : ExecutorConfig} {answers : Answers}
    {event : CostGuard.SignalEvent} (henabled : config.enabled = true)
    (hstops : answers.runIntrabar ≠ .ok none) :
    handleIntrabarEntry config answers event = stopped answers.runIntrabar := by
  rw [handleIntrabarEntry, henabled, Bool.not_true, if_neg Bool.false_ne_true]
  cases hrun : answers.runIntrabar with
  | error error => rfl
  | ok answer =>
    cases answer with
    | some reason => rfl
    | none => exact absurd hrun hstops

theorem handleConfirmed_of_stopped {config : ExecutorConfig} {answers : Answers}
    {event : CostGuard.SignalEvent} (henabled : config.enabled = true)
    (hcoordination : answers.coordination = none) (hstops : answers.runConfirmed ≠ .ok none) :
    handleConfirmed config answers event = stopped answers.runConfirmed := by
  rw [handleConfirmed, hcoordination, henabled, Bool.not_true, if_neg Bool.false_ne_true]
  cases hrun : answers.runConfirmed with
  | error error => rfl
  | ok answer =>
    cases answer with
    | some reason => rfl
    | none => exact absurd hrun hstops

theorem processEvent_of_stopped (henabled : ctx.config.enabled = true)
    (hdeployment : ctx.deployments.get? event.strategy = some deployment)
    (hstops : verdict ctx event deployment ≠ .ok none) :
    processEvent ctx event = stopped (verdict ctx event deployment) := by
  unfold processEvent CostGuard.processEvent
  by_cases hscope : event.scope = "intrabar"
  · have hverdict : verdict ctx event deployment = (answers ctx event).runIntrabar := by
      rw [verdict, earlierFilters, if_pos hscope, answers, runIntrabar,
        runPreTradeFilters_eq hdeployment, firstRejection_nested, List.append_assoc]
    rw [if_pos hscope, hverdict]
    rw [hverdict] at hstops
    exact handleIntrabarEntry_of_stopped henabled hstops
  · have hverdict : verdict ctx event deployment =
        firstRejection [.ok (coordination ctx event), runPreTradeFilters ctx event] := by
      rw [verdict, earlierFilters, if_neg hscope, runPreTradeFilters_eq hdeployment,
        List.append_assoc]
      exact (firstRejection_nested [.ok (coordination ctx event)] _).symm
    rw [if_neg hscope]
    cases hcoordination : coordination ctx event with
    | some reason =>
      have hanswer : (answers ctx event).coordination = some reason := hcoordination
      rw [handleConfirmed, hanswer, hverdict, hcoordination]
      rfl
    | none =>
      have hruns : verdict ctx event deployment = (answers ctx event).runConfirmed := by
        rw [hverdict, hcoordination, firstRejection, firstRejection_singleton]
        rfl
      rw [hruns]
      rw [hruns] at hstops
      exact handleConfirmed_of_stopped henabled hcoordination hstops

theorem verdict_of_fresh (hfresh : Fresh event)
    (hrequires : deployment.requirePendingEntry = true)
    (hpasses : ∀ filter ∈ earlierFilters ctx event deployment, filter = .ok none) :
    verdict ctx event deployment = reject ctx "strategy_requires_pending_entry" := by
  rw [verdict, firstRejection_of_pass hpasses, pendingEntryFilter_of_fresh hfresh hrequires]
  unfold reject
  cases ctx.emission with
  | some error => rfl
  | none => rfl

theorem verdict_ne_pass (hfresh : Fresh event)
    (hrequires : deployment.requirePendingEntry = true) :
    verdict ctx event deployment ≠ .ok none := by
  by_cases hpasses : ∀ filter ∈ earlierFilters ctx event deployment, filter = .ok none
  · rw [verdict_of_fresh hfresh hrequires hpasses]
    unfold reject
    cases ctx.emission with
    | some error => exact fun h => nomatch h
    | none => exact fun h => nomatch h
  · exact (firstRejection_of_stop hpasses _).2

theorem processEvent_of_disabled (hdisabled : ctx.config.enabled = false) :
    ∃ reason, processEvent ctx event = ⟨[], .skip reason⟩ ∧
      reason ≠ "strategy_requires_pending_entry" := by
  unfold processEvent CostGuard.processEvent
  by_cases hscope : event.scope = "intrabar"
  · rw [if_pos hscope, handleIntrabarEntry, hdisabled, Bool.not_false, if_pos rfl]
    exact ⟨_, rfl, by simp⟩
  · rw [if_neg hscope, handleConfirmed, hdisabled, Bool.not_false, if_pos rfl]
    cases hcoordination : (answers ctx event).coordination with
    | none => exact ⟨_, rfl, by simp⟩
    | some reason =>
      refine ⟨reason, rfl, ?_⟩
      have hearlier : .ok (some reason) ∈ earlierFilters ctx event {} := by
        have hgiven : coordination ctx event = some reason := hcoordination
        rw [earlierFilters, if_neg hscope, hgiven]
        exact List.mem_append_left _ (List.mem_singleton_self _)
      intro hsame
      exact earlier_reason hearlier (by rw [hsame])

/-- A fresh event of such a strategy is never dispatched. -/
theorem fresh_event_stopped (hfresh : Fresh event)
    (hdeployment : ctx.deployments.get? event.strategy = some deployment)
    (hrequires : deployment.requirePendingEntry = true) :
    (processEvent ctx event).dispatched = [] ∧ (processEvent ctx event).outcome ≠ .executed := by
  cases henabled : ctx.config.enabled with
  | false =>
    obtain ⟨reason, hrun, -⟩ := processEvent_of_disabled henabled
    rw [hrun]
    exact ⟨rfl, fun h => nomatch h⟩
  | true =>
    have hstops : verdict ctx event deployment ≠ .ok none := verdict_ne_pass hfresh hrequires
    rw [processEvent_of_stopped henabled hdeployment hstops]
    cases hverdict : verdict ctx event deployment with
    | error error => exact ⟨rfl, fun h => nomatch h⟩
    | ok answer =>
      cases answer with
      | some reason => exact ⟨rfl, fun h => nomatch h⟩
      | none => exact absurd hverdict hstops

/-- A fresh event is rejected for want of a pending entry exactly when it comes that far. -/
theorem rejected_iff_reaches (hfresh : Fresh event)
    (hdeployment : ctx.deployments.get? event.strategy = some deployment)
    (hrequires : deployment.requirePendingEntry = true) :
    (processEvent ctx event).outcome = .skip "strategy_requires_pending_entry" ↔
      Reaches ctx event deployment := by
  constructor
  · intro h
    cases henabled : ctx.config.enabled with
    | false =>
      obtain ⟨reason, hrun, hother⟩ := processEvent_of_disabled henabled
      rw [hrun] at h
      exact absurd (Outcome.skip.inj h) hother
    | true =>
      rw [processEvent_of_stopped henabled hdeployment (verdict_ne_pass hfresh hrequires)] at h
      have hverdict : verdict ctx event deployment =
          .ok (some "strategy_requires_pending_entry") := by
        cases hverdict : verdict ctx event deployment with
        | error error => simp [hverdict, stopped] at h
        | ok answer =>
          cases answer with
          | none => simp [hverdict, stopped] at h
          | some reason => simpa [hverdict, stopped] using h
      by_cases hpasses : ∀ filter ∈ earlierFilters ctx event deployment, filter = .ok none
      · refine ⟨henabled, hpasses, ?_⟩
        rw [verdict_of_fresh hfresh hrequires hpasses, reject] at hverdict
        cases hemission : ctx.emission with
        | none => rfl
        | some error => simp [hemission] at hverdict
      · have hstop := (firstRejection_of_stop hpasses
          [pendingEntryFilter ctx event deployment, ctx.laterFilters]).1
        exact absurd hverdict (earlier_reason hstop)
  · intro h
    have hverdict := verdict_of_fresh hfresh hrequires h.passes
    rw [reject, h.reported] at hverdict
    rw [processEvent_of_stopped h.enabled hdeployment (verdict_ne_pass hfresh hrequires), hverdict]
    rfl

end Fresh

theorem entryGroup_of_fresh {ctx : Context} {event : SignalEvent} (hfresh : Fresh event) :
    (answers ctx event).entryGroup = ctx.derived := by
  have hensure : (answers ctx event).entryGroup =
      (ensureEntrySpecGroup ctx event).map Prod.fst := rfl
  rw [hensure, ensureEntrySpecGroup]
  cases hentry : event.entrySpecGroup with
  | group group => exact absurd hentry (hfresh group)
  | missing =>
    cases ctx.derived with
    | error error => rfl
    | ok derived =>
      cases derived with
      | none => rfl
      | some group => rfl
  | plain =>
    cases ctx.derived with
    | error error => rfl
    | ok derived =>
      cases derived with
      | none => rfl
      | some group => rfl

/-- For an event from a payload the contract holds exactly when the policy derives no group with
a pending member or something else ends the event before the filter. -/
theorem gated_iff (ctx : Context) (payload : SignalPayload) (deployment : StrategyDeployment)
    (hdeployment :
      ctx.deployments.get? (signalEventFromPayload payload).strategy = some deployment)
    (hrequires : deployment.requirePendingEntry = true) :
    Gated ctx (signalEventFromPayload payload) ↔
      (∀ group, ctx.derived = .ok (some group) → group.allMarket = true) ∨
        ¬Reaches ctx (signalEventFromPayload payload) deployment := by
  have hfresh := fresh_of_payload payload
  have hreaches := rejected_iff_reaches hfresh hdeployment hrequires
  have hderived : (answers ctx (signalEventFromPayload payload)).entryGroup = ctx.derived :=
    entryGroup_of_fresh hfresh
  constructor
  · intro h
    by_cases hcomes : Reaches ctx (signalEventFromPayload payload) deployment
    · refine Or.inl ?_
      intro group hgroup
      by_contra hmarket
      exact h.pending group (hderived.trans hgroup) (Bool.eq_false_iff.mpr hmarket)
        (hreaches.mpr hcomes)
    · exact Or.inr hcomes
  · intro h
    refine ⟨?_, fun _ _ _ => fresh_event_stopped hfresh hdeployment hrequires⟩
    intro group hgroup hmarket hrejected
    rcases h with hall | hnot
    · rw [hall group (hderived.symm.trans hgroup)] at hmarket
      cases hmarket
    · exact hnot (hreaches.mp hrejected)

def limitGroup : EntrySpecGroup where
  members := [⟨"limit_pullback", .limit, 1995⟩]
  nonempty := List.cons_ne_nil _ _
  nodup := List.nodup_singleton _

def guardedDeployment : StrategyDeployment :=
  { status := .activeGuarded, requirePendingEntry := true }

def goldContext : Context where
  config := goldConfig
  deployments := Dict.empty.set "sma_trend" guardedDeployment
  environment := "live"
  computeParams := .ok (some goldParams)
  derived := .ok (some limitGroup)
  pendingManager := true

def goldPayload : SignalPayload where
  symbol := some "XAUUSD"
  timeframe := some "M5"
  strategy := some "sma_trend"
  direction := some "buy"
  signalId := some "sig-1"

theorem gated_iff_gold :
    Gated goldContext (signalEventFromPayload goldPayload) ↔
      (∀ group, goldContext.derived = .ok (some group) → group.allMarket = true) ∨
        ¬Reaches goldContext (signalEventFromPayload goldPayload) guardedDeployment :=
  gated_iff goldContext goldPayload guardedDeployment (by decide +kernel) rfl

/-- The policy derives a limit entry, a pending manager is there, and the event is rejected for
want of a pending entry. -/
theorem limit_entry_rejected :
    ¬∀ (ctx : Context) (payload : SignalPayload) (deployment : StrategyDeployment),
      ctx.deployments.get? (signalEventFromPayload payload).strategy = some deployment →
        deployment.requirePendingEntry = true → ctx.pendingManager = true →
          Gated ctx (signalEventFromPayload payload) := by
  intro h
  have hgated := h goldContext goldPayload guardedDeployment (by decide +kernel) rfl rfl
  have hrejected : (processEvent goldContext (signalEventFromPayload goldPayload)).outcome =
      .skip "strategy_requires_pending_entry" := by decide +kernel
  exact hgated.pending limitGroup rfl rfl hrejected

end MT5Services.PendingEntryGate
