import MT5Services.RecoveryModels
import Mathlib.Data.List.Infix

/-!
How `DemoBoundedRecoveryRunner` closes a cycle with submitted tickets: the exposure
ledger that classifies a position snapshot, the close dispatches and the three places
that record the cycle as closed. A ticket is accounted for when its close went through
or when a fresh snapshot does not show it. Two of the places can lose a ticket: a dry-run
runner closes without looking, and a stale snapshot that shows one ticket hides another.
-/
namespace MT5Services.RecoveryExposure

open PyText PyNumber RecoveryModels

/-- `_unique_positive_ints`; a value that is no integer is skipped. -/
def uniquePositiveInts (values : List (Option ℤ)) : List ℤ :=
  ((values.filterMap id).filter fun value => 0 < value).eraseDups

/-- The tickets of `_submitted_tickets`. -/
def submittedTickets (cycle : RecoveryCycleState) : List ℤ :=
  uniquePositiveInts cycle.submittedTickets

/-- A broker position as the provider lists it; a missing text is empty. -/
structure Position where
  accountKey : String := ""
  ticket : Option ℤ := none
  positionTicket : Option ℤ := none
  position : Option ℤ := none
  orderTicket : Option ℤ := none
  recoveryCycleId : String := ""
  metadataSourceSignalId : String := ""
  signalId : String := ""
  sourceSignalId : String := ""
  traceId : String := ""
  requestId : String := ""
  actionId : String := ""
  comment : String := ""
  deriving DecidableEq, Repr

namespace Position

/-- `_position_ticket`: the first of the four fields that is a positive integer. -/
def ticketOf (p : Position) : Option ℤ :=
  [p.ticket, p.positionTicket, p.position, p.orderTicket].findSome? fun value =>
    value.filter fun ticket => 0 < ticket

def identityFields (p : Position) : List String :=
  [p.signalId, p.sourceSignalId, p.traceId, p.requestId, p.actionId, p.comment]

/-- The position carries the key of another account. -/
def ofOtherAccount (cycle : RecoveryCycleState) (p : Position) : Bool :=
  strip p.accountKey ≠ "" ∧ strip p.accountKey ≠ cycle.accountKey

def identityMatches (cycle : RecoveryCycleState) (p : Position) : Bool :=
  let cycleId := strip cycle.cycleId
  let source := strip (cycle.sourceSignalId.getD "")
  (cycleId ≠ "" ∧ strip p.recoveryCycleId = cycleId) ||
    (source ≠ "" ∧ strip p.metadataSourceSignalId = source) ||
    p.identityFields.any fun text =>
      strip text ≠ "" ∧ (source ≠ "" ∧ strip text = source ∨
        cycleId ≠ "" ∧ cycleId.toList <:+: (strip text).toList)

/-- `_matching_recovery_positions` for one position. -/
def matchesCycle (cycle : RecoveryCycleState) (p : Position) : Bool :=
  !p.ofOtherAccount cycle &&
    (p.ticketOf.any (fun ticket => ticket ∈ submittedTickets cycle) || p.identityMatches cycle)

end Position

inductive ExposureStatus
  | none
  | pending
  | confirmed
  | absent
  deriving DecidableEq, Repr

structure ExposureSnapshot where
  status : ExposureStatus
  fresh : Bool
  submittedTickets : List ℤ := []
  livePositionTickets : List ℤ := []
  pendingSubmittedTickets : List ℤ := []
  positionMatches : List Position := []
  lastReconcileAt : Option ℤ := Option.none
  deriving DecidableEq, Repr

/-- `last_reconcile_at` is not earlier than the last change of the cycle. -/
def isFresh (cycle : RecoveryCycleState) (lastReconcileAt : Option ℤ) : Bool :=
  lastReconcileAt.any fun time => cycle.updatedAt ≤ time

def liveTickets (cycle : RecoveryCycleState) (positions : List Position) : List ℤ :=
  uniquePositiveInts ((positions.filter (Position.matchesCycle cycle)).map Position.ticketOf)

/-- `RecoveryExposureLedger.classify`. -/
def classify (cycle : RecoveryCycleState) (positions : Option (List Position))
    (lastReconcileAt : Option ℤ) : ExposureSnapshot :=
  let submitted := submittedTickets cycle
  let pending : ExposureSnapshot :=
    { status := .pending, fresh := false, submittedTickets := submitted,
      pendingSubmittedTickets := submitted, lastReconcileAt := lastReconcileAt }
  if submitted = [] then { status := .none, fresh := true }
  else
    match positions with
    | Option.none => pending
    | some positions =>
      let live := liveTickets cycle positions
      if live ≠ [] then
        { status := .confirmed
          fresh := isFresh cycle lastReconcileAt
          submittedTickets := submitted
          livePositionTickets := live
          pendingSubmittedTickets := submitted.filter fun ticket => ticket ∉ live
          positionMatches := positions.filter (Position.matchesCycle cycle)
          lastReconcileAt := lastReconcileAt }
      else if isFresh cycle lastReconcileAt then
        { status := .absent, fresh := true, submittedTickets := submitted,
          lastReconcileAt := lastReconcileAt }
      else pending

/-- The position provider: not wired, failing or without `active_positions`, or
answering with its positions and its `last_reconcile_at`. -/
inductive Provider
  | missing
  | unreadable
  | snapshot (positions : List Position) (lastReconcileAt : Option ℤ)

/-- `_exposure_snapshot`. -/
def exposureSnapshot (cycle : RecoveryCycleState) : Provider → ExposureSnapshot
  | .missing | .unreadable => classify cycle Option.none Option.none
  | .snapshot positions lastReconcileAt => classify cycle (some positions) lastReconcileAt

/-- What the two classifications read of a close result. `texts` are the message fields
and the values of `details` and `effective_state`, in the order they are joined. -/
structure CloseResult where
  success : Bool := false
  statusText : String := ""
  accepted : Option Bool := Option.none
  effectiveStateSuccess : Bool := false
  nestedSuccess : Bool := false
  texts : List String := []
  deriving DecidableEq, Repr

/-- How the close dispatch of one ticket ends; `none` is a result that is no mapping. -/
inductive CloseReply
  | returned (result : Option CloseResult)
  | raised (message : String)
  deriving DecidableEq, Repr

def closeResultSuccess (r : CloseResult) : Bool :=
  r.success ||
    (["ok", "closed", "success", "done", "completed", "10009"].contains
        (lower (strip r.statusText)) && r.accepted.getD true) ||
    r.effectiveStateSuccess || r.nestedSuccess

def contains (needle text : String) : Bool := needle.toList <:+: text.toList

def positionAbsentMessage (message : String) : Bool :=
  let text := String.ofList ((lower (strip message)).toList.map fun c => if c = '_' then ' ' else c)
  contains "position" text &&
    (contains "not found" text || contains "already closed" text || contains "missing" text)

inductive CloseStatus
  | closed
  | alreadyClosed
  | failed
  deriving DecidableEq, Repr

def CloseReply.status : CloseReply → CloseStatus
  | returned Option.none => .failed
  | returned (some result) =>
    if closeResultSuccess result then .closed
    else if positionAbsentMessage (" ".intercalate result.texts) then .alreadyClosed
    else .failed
  | raised message => if positionAbsentMessage message then .alreadyClosed else .failed

structure CloseOutcome where
  closed : Bool
  reason : String
  tickets : List ℤ := []
  submittedTickets : List ℤ := []
  snapshot : Option ExposureSnapshot := Option.none
  results : List (ℤ × CloseStatus) := []
  deriving DecidableEq, Repr

def CloseStatus.gone (status : CloseStatus) : Bool :=
  status = .closed ∨ status = .alreadyClosed

/-- The live tickets, or the pending ones when none is live and nothing is known. -/
def ticketsToClose (snapshot : ExposureSnapshot) : List ℤ :=
  let live := uniquePositiveInts (snapshot.livePositionTickets.map some)
  if live = [] ∧ snapshot.status = .pending then
    uniquePositiveInts (snapshot.pendingSubmittedTickets.map some)
  else live

/-- `_close_submitted_live_positions`; `reply` is what the broker answers per ticket. -/
def closeSubmittedLivePositions (cycle : RecoveryCycleState) (provider : Provider)
    (reply : ℤ → CloseReply) : CloseOutcome :=
  let submitted := submittedTickets cycle
  let snapshot := exposureSnapshot cycle provider
  let tickets := ticketsToClose snapshot
  let results := tickets.map fun ticket => (ticket, (reply ticket).status)
  if submitted = [] then { closed := false, reason := "submitted_ticket_missing" }
  else if tickets = [] then
    { closed := true, reason := "submitted_positions_absent", submittedTickets := submitted,
      snapshot := some snapshot }
  else
    { closed := results.all fun result => result.2.gone
      reason :=
        if results.all fun result => result.2 = .alreadyClosed then
          "cleanup_positions_already_absent"
        else "live_position_cleanup_dispatched"
      tickets := tickets
      submittedTickets := submitted
      snapshot := some snapshot
      results := results }

/-- `estimate_pnl`. -/
def estimatePnl (policy : RecoveryPolicy) (cycle : RecoveryCycleState) (exitPrice : ℚ) : ℚ :=
  let raw :=
    if cycle.direction = "buy" then (exitPrice - cycle.averageEntryPrice) * cycle.totalVolume
    else (cycle.averageEntryPrice - exitPrice) * cycle.totalVolume
  round (raw * policy.contractSize) 10

/-- `cycle_close_status_reason`. -/
def cycleCloseStatusReason (reason : String) (dryRun : Bool) : String :=
  let reasonKey := lower (strip reason)
  let stem :=
    if reasonKey = "net_recovery_target_reached" then "resident_recovery_target_reached"
    else if reasonKey = "cycle_loss_limit_reached" then "resident_recovery_cycle_loss_limit"
    else if reasonKey = "max_cycle_duration_reached" then "resident_recovery_max_cycle_duration"
    else if reasonKey = "max_steps_exit_reached" then "resident_recovery_max_steps_exit"
    else if reasonKey = "max_steps_hold_time_reached" then
      "resident_recovery_max_steps_hold_time"
    else "resident_recovery_cycle_closed"
  stem ++ "_" ++ if dryRun then "dry_run" else "submitted"

/-- What `record_recovery_cycle_state` gets for a closed cycle, with the close results. -/
structure ClosedRecord where
  cycle : Except String RecoveryCycleState
  statusReason : String
  closedAt : ℤ
  closePrice : Option ℚ
  realizedPnl : Option ℚ
  results : List (ℤ × CloseStatus)

def closedRecord (policy : RecoveryPolicy) (cycle : RecoveryCycleState) (statusReason : String)
    (closedAt : ℤ) (closePrice : Option ℚ) (results : List (ℤ × CloseStatus)) : ClosedRecord where
  cycle := RecoveryCycleState.mk?
    { cycle.toCycleFields with status := "closed", updatedAt := closedAt }
  statusReason := statusReason
  closedAt := closedAt
  closePrice := closePrice
  realizedPnl := closePrice.map (estimatePnl policy cycle)
  results := results

section Runner

variable (policy : RecoveryPolicy) (cycle : RecoveryCycleState) (provider : Provider)
  (reply : ℤ → CloseReply) (closedAt : ℤ)

def closeSubmittedCycle (decision : RecoveryDecision) : Option ClosedRecord :=
  let outcome := closeSubmittedLivePositions cycle provider reply
  if outcome.closed then
    some (closedRecord policy cycle (cycleCloseStatusReason decision.reason false) closedAt
      decision.exitPrice outcome.results)
  else none

def closeDryRunCycle (dryRun : Bool) (decision : RecoveryDecision) : Option ClosedRecord :=
  if dryRun then
    some (closedRecord policy cycle (cycleCloseStatusReason decision.reason true) closedAt
      decision.exitPrice [])
  else closeSubmittedCycle policy cycle provider reply closedAt decision

/-- `_reconcile_submitted_cycle_exposure`. -/
def reconcileSubmittedCycleExposure (dryRun : Bool) (snapshot : RecoveryMarketSnapshot) :
    Option ClosedRecord :=
  if dryRun ∨ submittedTickets cycle = [] then none
  else
    match provider with
    | .missing => none
    | _ =>
      if (exposureSnapshot cycle provider).status = .absent then
        some (closedRecord policy cycle "resident_recovery_submitted_exposure_absent" closedAt
          (snapshot.exitPrice cycle.direction).toOption.join [])
      else none

/-- The two occasions on which a tick closes the cycle. -/
inductive Occasion
  | exitDecision (decision : RecoveryDecision)
  | reconcile (snapshot : RecoveryMarketSnapshot)

/-- The record a closing leaves, if it leaves one. -/
def close (dryRun : Bool) : Occasion → Option ClosedRecord
  | .exitDecision decision =>
    closeDryRunCycle policy cycle provider reply closedAt dryRun decision
  | .reconcile snapshot =>
    reconcileSubmittedCycleExposure policy cycle provider closedAt dryRun snapshot

end Runner

/-- The provider's snapshot is not older than the cycle and shows no position of its
account with the ticket. -/
def Unseen (cycle : RecoveryCycleState) (provider : Provider) (ticket : ℤ) : Prop :=
  ∃ positions lastReconcileAt, provider = .snapshot positions lastReconcileAt ∧
    isFresh cycle lastReconcileAt = true ∧
    ∀ p ∈ positions, p.ofOtherAccount cycle = false → p.ticketOf ≠ some ticket

/-- The close of the ticket went through, or the ticket is seen to be gone. -/
def Accounted (cycle : RecoveryCycleState) (provider : Provider) (record : ClosedRecord)
    (ticket : ℤ) : Prop :=
  (∃ status, (ticket, status) ∈ record.results ∧ status.gone = true) ∨
    Unseen cycle provider ticket

/-- A dry run closes a cycle whose tickets are all seen to be gone; a real close that finds
live positions goes by a fresh snapshot or by one that shows every ticket. -/
def ClosesSafely (cycle : RecoveryCycleState) (provider : Provider) (dryRun : Bool) :
    Occasion → Prop
  | .exitDecision _ =>
    if dryRun then ∀ ticket ∈ submittedTickets cycle, Unseen cycle provider ticket
    else ∀ positions lastReconcileAt, provider = .snapshot positions lastReconcileAt →
      isFresh cycle lastReconcileAt = true ∨ liveTickets cycle positions = [] ∨
        ∀ ticket ∈ submittedTickets cycle, ticket ∈ liveTickets cycle positions
  | .reconcile _ => True

variable {ticket : ℤ}

theorem mem_uniquePositiveInts {values : List (Option ℤ)} :
    ticket ∈ uniquePositiveInts values ↔ 0 < ticket ∧ some ticket ∈ values := by
  simp [uniquePositiveInts, and_comm]

/-- The lists of a snapshot hold positive tickets already. -/
theorem mem_uniquePositiveInts_some {tickets : List ℤ}
    (hpositive : ∀ ticket ∈ tickets, 0 < ticket) :
    ticket ∈ uniquePositiveInts (tickets.map some) ↔ ticket ∈ tickets := by
  rw [mem_uniquePositiveInts]
  simp only [List.mem_map, Option.some.injEq, exists_eq_right]
  exact ⟨fun h => h.2, fun h => ⟨hpositive ticket h, h⟩⟩

variable {cycle : RecoveryCycleState}

theorem pos_of_mem_submittedTickets (h : ticket ∈ submittedTickets cycle) : 0 < ticket :=
  (mem_uniquePositiveInts.mp h).1

variable {positions : List Position}

/-- A submitted ticket is live when the snapshot shows it in the cycle's account. -/
theorem mem_liveTickets (hsubmitted : ticket ∈ submittedTickets cycle) :
    ticket ∈ liveTickets cycle positions ↔
      ∃ p ∈ positions, p.ofOtherAccount cycle = false ∧ p.ticketOf = some ticket := by
  rw [liveTickets, mem_uniquePositiveInts, List.mem_map]
  constructor
  · rintro ⟨_, p, hp, hticket⟩
    obtain ⟨hmem, hmatch⟩ := List.mem_filter.mp hp
    rw [Position.matchesCycle, Bool.and_eq_true_iff] at hmatch
    exact ⟨p, hmem, by simpa using hmatch.1, hticket⟩
  · rintro ⟨p, hp, haccount, hticket⟩
    refine ⟨pos_of_mem_submittedTickets hsubmitted, p, List.mem_filter.mpr ⟨hp, ?_⟩, hticket⟩
    simp [Position.matchesCycle, haccount, hticket, hsubmitted]

variable {lastReconcileAt : Option ℤ}

theorem unseen_snapshot_iff (hsubmitted : ticket ∈ submittedTickets cycle) :
    Unseen cycle (.snapshot positions lastReconcileAt) ticket ↔
      isFresh cycle lastReconcileAt = true ∧ ticket ∉ liveTickets cycle positions := by
  rw [mem_liveTickets hsubmitted]
  constructor
  · rintro ⟨_, _, heq, hfresh, hnone⟩
    cases heq
    exact ⟨hfresh, fun ⟨p, hp, haccount, hticket⟩ => hnone p hp haccount hticket⟩
  · rintro ⟨hfresh, hnone⟩
    exact ⟨_, _, rfl, hfresh, fun p hp haccount hticket => hnone ⟨p, hp, haccount, hticket⟩⟩

variable {provider : Provider}

theorem accounted_of_no_results {record : ClosedRecord} (hresults : record.results = []) :
    Accounted cycle provider record ticket ↔ Unseen cycle provider ticket := by
  simp [Accounted, hresults]

/-- The tickets a real close dispatches: the live ones, or all submitted ones when nothing
is known of them. -/
def dispatchedTickets (cycle : RecoveryCycleState) (provider : Provider) : List ℤ :=
  match provider with
  | .missing | .unreadable => submittedTickets cycle
  | .snapshot positions lastReconcileAt =>
    if liveTickets cycle positions = [] ∧ isFresh cycle lastReconcileAt = false then
      submittedTickets cycle
    else liveTickets cycle positions

theorem pos_of_mem_liveTickets (h : ticket ∈ liveTickets cycle positions) : 0 < ticket :=
  (mem_uniquePositiveInts.mp h).1

theorem uniquePositiveInts_some_eq_nil {tickets : List ℤ}
    (hpositive : ∀ ticket ∈ tickets, 0 < ticket) :
    uniquePositiveInts (tickets.map some) = [] ↔ tickets = [] := by
  simp only [List.eq_nil_iff_forall_not_mem, mem_uniquePositiveInts_some hpositive]

/-- Without positions every submitted ticket is pending. -/
theorem mem_ticketsToClose_pending (hsubmitted : submittedTickets cycle ≠ []) :
    ticket ∈ ticketsToClose (classify cycle none lastReconcileAt) ↔
      ticket ∈ submittedTickets cycle := by
  rw [classify, if_neg hsubmitted]
  exact mem_uniquePositiveInts_some fun _ => pos_of_mem_submittedTickets

theorem mem_ticketsToClose (cycle : RecoveryCycleState) (provider : Provider) (ticket : ℤ)
    (hsubmitted : submittedTickets cycle ≠ []) :
    ticket ∈ ticketsToClose (exposureSnapshot cycle provider) ↔
      ticket ∈ dispatchedTickets cycle provider := by
  cases provider with
  | missing => exact mem_ticketsToClose_pending hsubmitted
  | unreadable => exact mem_ticketsToClose_pending hsubmitted
  | snapshot positions lastReconcileAt =>
    simp only [exposureSnapshot, classify, dispatchedTickets, if_neg hsubmitted]
    by_cases hlive : liveTickets cycle positions = []
    · cases hfresh : isFresh cycle lastReconcileAt with
      | true => simp [hlive, ticketsToClose, uniquePositiveInts]
      | false =>
        simp only [hlive, ne_eq, not_true_eq_false, if_false, Bool.false_eq_true, and_self,
          if_true]
        exact mem_uniquePositiveInts_some fun _ => pos_of_mem_submittedTickets
    · have hnonempty : ¬ uniquePositiveInts ((liveTickets cycle positions).map some) = [] := by
        rwa [uniquePositiveInts_some_eq_nil fun _ => pos_of_mem_liveTickets]
      simp only [hlive, ne_eq, not_false_eq_true, if_true, false_and, if_false, ticketsToClose,
        hnonempty]
      exact mem_uniquePositiveInts_some fun _ => pos_of_mem_liveTickets

/-- A close that counts as done has got every ticket it dispatched out of the market. -/
theorem closeSubmittedLivePositions_closed
    {reply : ℤ → CloseReply} (h : (closeSubmittedLivePositions cycle provider reply).closed = true)
    (ticket : ℤ) :
    (∃ status, (ticket, status) ∈ (closeSubmittedLivePositions cycle provider reply).results ∧
        status.gone = true) ↔ ticket ∈ dispatchedTickets cycle provider := by
  simp only [closeSubmittedLivePositions] at h ⊢
  split at h
  · cases h
  · rename_i hsubmitted
    rw [if_neg hsubmitted, ← mem_ticketsToClose cycle provider ticket hsubmitted]
    split
    · rename_i hnone
      simp [hnone]
    · rename_i hsome
      rw [if_neg hsome, List.all_eq_true] at h
      simp only [List.mem_map, Prod.mk.injEq]
      constructor
      · rintro ⟨status, ⟨dispatched, hmem, rfl, _⟩, _⟩
        exact hmem
      · intro hmem
        exact ⟨_, ⟨ticket, hmem, rfl, rfl⟩, h _ (List.mem_map_of_mem hmem)⟩

/-- A real close leaves the submitted tickets accounted for exactly when it goes by a fresh
snapshot, finds none live, or finds all of them live. -/
theorem closeSubmittedCycle_accounted {policy : RecoveryPolicy}
    {reply : ℤ → CloseReply} {closedAt : ℤ} {decision : RecoveryDecision} {record : ClosedRecord}
    (h : closeSubmittedCycle policy cycle provider reply closedAt decision = some record) :
    (∀ ticket ∈ submittedTickets cycle, Accounted cycle provider record ticket) ↔
      ClosesSafely cycle provider false (.exitDecision decision) := by
  simp only [closeSubmittedCycle, Option.ite_none_right_eq_some, Option.some.injEq] at h
  obtain ⟨hclosed, rfl⟩ := h
  have haccounted : ∀ ticket, Accounted cycle provider
      (closedRecord policy cycle (cycleCloseStatusReason decision.reason false) closedAt
        decision.exitPrice (closeSubmittedLivePositions cycle provider reply).results) ticket ↔
      ticket ∈ dispatchedTickets cycle provider ∨ Unseen cycle provider ticket := fun ticket =>
    or_congr_left (closeSubmittedLivePositions_closed hclosed ticket)
  simp only [haccounted, ClosesSafely, Bool.false_eq_true, if_false]
  cases provider with
  | missing =>
    exact ⟨fun _ _ _ heq => (by cases heq), fun _ ticket hticket => Or.inl hticket⟩
  | unreadable =>
    exact ⟨fun _ _ _ heq => (by cases heq), fun _ ticket hticket => Or.inl hticket⟩
  | snapshot positions lastReconcileAt =>
    have hsame : (∀ positions' lastReconcileAt',
        Provider.snapshot positions lastReconcileAt = .snapshot positions' lastReconcileAt' →
        isFresh cycle lastReconcileAt' = true ∨ liveTickets cycle positions' = [] ∨
          ∀ ticket ∈ submittedTickets cycle, ticket ∈ liveTickets cycle positions') ↔
        isFresh cycle lastReconcileAt = true ∨ liveTickets cycle positions = [] ∨
          ∀ ticket ∈ submittedTickets cycle, ticket ∈ liveTickets cycle positions := by
      constructor
      · exact fun h => h positions lastReconcileAt rfl
      · rintro h _ _ heq
        cases heq
        exact h
    rw [hsame, dispatchedTickets]
    cases hfresh : isFresh cycle lastReconcileAt with
    | true =>
      simp only [Bool.true_eq_false, and_false, if_false, true_or, iff_true]
      intro ticket hticket
      rw [unseen_snapshot_iff hticket]
      exact (em (ticket ∈ liveTickets cycle positions)).imp_right fun hnot => ⟨hfresh, hnot⟩
    | false =>
      have hnever : ∀ ticket, ¬ Unseen cycle (.snapshot positions lastReconcileAt) ticket := by
        rintro ticket ⟨_, _, heq, hseen, _⟩
        cases heq
        rw [hfresh] at hseen
        cases hseen
      by_cases hlive : liveTickets cycle positions = []
      · simp [hlive, hnever]
      · simp [hlive, hnever]

/-- Only a fresh snapshot without live tickets counts as absent. -/
theorem classify_absent (hsubmitted : submittedTickets cycle ≠ [])
    (h : (classify cycle (some positions) lastReconcileAt).status = .absent) :
    isFresh cycle lastReconcileAt = true ∧ liveTickets cycle positions = [] := by
  simp only [classify, if_neg hsubmitted] at h
  split at h
  · cases h
  · rename_i hlive
    split at h
    · rename_i hfresh
      exact ⟨hfresh, not_not.mp hlive⟩
    · cases h

/-- Whenever a cycle is recorded as closed, every submitted ticket is accounted for exactly
when the closing was safe. -/
theorem closed_cycle_accounted_iff (policy : RecoveryPolicy) (cycle : RecoveryCycleState)
    (provider : Provider) (reply : ℤ → CloseReply) (closedAt : ℤ) (dryRun : Bool)
    (occasion : Occasion) (record : ClosedRecord)
    (h : close policy cycle provider reply closedAt dryRun occasion = some record) :
    (∀ ticket ∈ submittedTickets cycle, Accounted cycle provider record ticket) ↔
      ClosesSafely cycle provider dryRun occasion := by
  cases occasion with
  | exitDecision decision =>
    cases dryRun with
    | true =>
      cases Option.some.inj h
      simp only [ClosesSafely, if_true]
      exact forall₂_congr fun ticket _ => accounted_of_no_results rfl
    | false => exact closeSubmittedCycle_accounted h
  | reconcile snapshot =>
    simp only [ClosesSafely, iff_true]
    simp only [close, reconcileSubmittedCycleExposure, Option.ite_none_left_eq_some] at h
    obtain ⟨hreal, h⟩ := h
    have hsubmitted : submittedTickets cycle ≠ [] := fun hnil => hreal (Or.inr hnil)
    cases provider with
    | missing => cases h
    | unreadable =>
      have hpending : (exposureSnapshot cycle .unreadable).status = .pending := by
        rw [exposureSnapshot, classify, if_neg hsubmitted]
      simp [hpending] at h
    | snapshot positions lastReconcileAt =>
      simp only [Option.ite_none_right_eq_some] at h
      obtain ⟨hfresh, hlive⟩ := classify_absent hsubmitted h.1
      intro ticket hticket
      refine Or.inr ((unseen_snapshot_iff hticket).mpr ⟨hfresh, ?_⟩)
      rw [hlive]
      exact List.not_mem_nil

/-- A cycle that submitted tickets 1 and 2 and changed last at time 10. -/
def submittedFields : CycleFields where
  cycleId := "c"
  accountKey := "demo"
  symbol := "XAUUSD"
  direction := "buy"
  status := "open"
  baseVolume := 1 / 100
  totalVolume := 3 / 100
  stepCount := 1
  averageEntryPrice := 2000
  lastEntryPrice := 1999
  startedAt := 0
  updatedAt := 10
  submittedTickets := [some 1, some 2]

theorem submitted_accepted : firstFailure submittedFields.checks = none := by
  decide +kernel

def submittedCycle : RecoveryCycleState := ⟨submittedFields, submitted_accepted⟩

def onePolicyFields : PolicyFields where
  enabled := true
  baseVolume := 1 / 100
  multiplier := 2
  maxSteps := 1
  maxTotalVolume := 3 / 100
  stepDistancePoints := 10
  recoveryTargetPoints := 0
  point := 1 / 100

theorem onePolicy_accepted : firstFailure onePolicyFields.checks = none := by
  decide +kernel

def onePolicy : RecoveryPolicy := ⟨onePolicyFields, onePolicy_accepted⟩

def targetReached : RecoveryDecision where
  action := .closeCycle
  reason := "net_recovery_target_reached"
  exitPrice := some 2001

def closesAll : ℤ → CloseReply := fun _ => .returned (some { success := true })

/-- Both tickets are live in a snapshot as old as the cycle, and both closes succeed. -/
def bothLive : Provider :=
  .snapshot [{ ticket := some 1 }, { ticket := some 2 }] (some 10)

/-- A snapshot from before the second step. -/
def firstLive : Provider := .snapshot [{ ticket := some 1 }] (some 5)

theorem closed_cycle_accounted_both :
    ∃ record, close onePolicy submittedCycle bothLive closesAll 20 false
        (.exitDecision targetReached) = some record ∧
      ∀ ticket ∈ submittedTickets submittedCycle,
        Accounted submittedCycle bothLive record ticket := by
  have hsome : (close onePolicy submittedCycle bothLive closesAll 20 false
      (.exitDecision targetReached)).isSome = true := by decide
  obtain ⟨record, hrecord⟩ := Option.isSome_iff_exists.mp hsome
  refine ⟨record, hrecord, (closed_cycle_accounted_iff onePolicy submittedCycle bothLive closesAll
    20 false (.exitDecision targetReached) record hrecord).mpr ?_⟩
  rintro positions lastReconcileAt heq
  cases heq
  exact Or.inl rfl

/-- Ticket 2 is dropped: the stale snapshot shows ticket 1 only, which alone is closed. -/
theorem closed_cycle_drops_ticket :
    ¬ ∀ (policy : RecoveryPolicy) cycle provider reply closedAt dryRun occasion record,
      close policy cycle provider reply closedAt dryRun occasion = some record →
      ∀ ticket ∈ submittedTickets cycle, Accounted cycle provider record ticket := by
  intro hclaim
  have hsome : (close onePolicy submittedCycle firstLive closesAll 20 false
      (.exitDecision targetReached)).isSome = true := by decide
  obtain ⟨record, hrecord⟩ := Option.isSome_iff_exists.mp hsome
  have hresults : (close onePolicy submittedCycle firstLive closesAll 20 false
      (.exitDecision targetReached)).map ClosedRecord.results = some [(1, .closed)] := by
    decide
  rw [hrecord, Option.map_some, Option.some.injEq] at hresults
  rcases hclaim _ _ _ _ _ _ _ record hrecord 2 (by decide) with
    ⟨status, hmem, _⟩ | ⟨_, _, heq, hfresh, _⟩
  · rw [hresults] at hmem
    simp at hmem
  · cases heq
    revert hfresh
    decide

end MT5Services.RecoveryExposure
