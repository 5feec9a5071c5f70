import MT5Services.CommandLeases
import MT5Services.IntentConsumer

/-!
One call of `_process_intent` or `_process_command`, with every way its collaborators can
raise. The two consumers share one shape: the steps up to the execution, the completion,
the emission of the terminal event, and an exception handler around all of them that
completes the item as failed. Between the steps other parties may change the table. The
progress keeps the counters and what they were counted for.
-/
namespace MT5Services.ItemAccounting

open ExecutionIntents
open CommandLeases (heartbeatOperatorCommand markCommandDispatched completeOperatorCommand)
open IntentConsumer (ExecutionResult completionOfResult)

/-- How the `except` clauses tell exceptions apart: the four runtime classes that the
emissions swallow, any other `Exception`, and what is no `Exception`. -/
inductive ExceptionKind
  | degradation
  | ordinary
  | exit
  deriving DecidableEq, Repr

structure PyException where
  kind : ExceptionKind
  typeName : String
  deriving DecidableEq, Repr

/-- A call of the store: what others did to the table before its statement, the clock, and
the exception it raises, if any, with or without the statement having taken effect. -/
structure StoreCall where
  others : Table → Table
  now : ℤ
  raises : Option (PyException × Bool)

/-- The row is held by the worker. -/
def heldHere (owner : Owner) (r : Row) : Prop :=
  r.ownedBy owner = true ∧ (r.status = .claimed ∨ r.status = .dispatched)

/-- The statements of a consumer and where its calls differ from the other consumer's. -/
structure Consumer (R : Type) where
  heartbeat : Table → String → Owner → ℤ → Table
  mark : Table → String → Owner → Table × Bool
  complete : Table → String → Status → Owner → Option String → ℤ → Table × Bool
  complete_updates : ∀ db id status owner code now,
    (complete db id status owner code now).2 = true ↔ ∃ r, db.get? id = some r ∧ heldHere owner r
  completion : R → Status × Option String
  decodes : Bool
  extracts : Bool
  countsFirst : Bool
  projects : Bool
  responseFirst : Bool

/-- What the collaborators do in one call. -/
structure Replies (R : Type) where
  heartbeat : StoreCall
  decode : Option PyException
  mark : StoreCall
  execute : Except PyException R
  extract : Option PyException
  complete : StoreCall
  takeoverEmit : Option PyException
  project : Option PyException
  emit : Option PyException
  buildFailed : Option PyException
  completeFailed : StoreCall
  takeoverEmitFailed : Option PyException
  projectFailed : Option PyException
  emitFailed : Option PyException

/-- A terminal event; `settled` says that the execution had returned and its completion
had been written as not failed. -/
structure TerminalEvent where
  status : Status
  settled : Bool
  deriving DecidableEq, Repr

/-- The counters of the call; a counted takeover is kept with whether another owner held
or had finished the row. `written` is the status that the call itself wrote. -/
structure Progress where
  db : Table
  processed : ℕ
  failed : ℕ
  takeovers : List Bool
  events : List TerminalEvent
  returned : Bool
  written : Option Status

def Progress.start (db : Table) : Progress := ⟨db, 0, 0, [], [], false, none⟩

def Progress.settled (p : Progress) : Bool := p.returned && p.written.any fun s => s ≠ .failed

def heldByOther (owner : Owner) (r : Row) : Bool :=
  (r.status = .claimed || r.status = .dispatched) &&
    (r.claimedByInstanceId.isSome || r.claimedByRunId.isSome) && !r.ownedBy owner

/-- Another owner holds the row or has finished it. -/
def takenOver (db : Table) (id : String) (owner : Owner) (written : Option Status) : Bool :=
  match db.get? id with
  | none => false
  | some r => heldByOther owner r || (r.status.terminal && written.isNone)

/-- A statement of the try block. -/
def runStatement (call : StoreCall) (statement : Table → Table × Bool) (p : Progress) :
    Progress × Except PyException Bool :=
  match call.raises with
  | none => ({ p with db := (statement (call.others p.db)).1 }, .ok (statement (call.others p.db)).2)
  | some (error, effective) =>
    ({ p with
        db := if effective then (statement (call.others p.db)).1 else call.others p.db },
      .error error)

section Process

variable {R : Type} (c : Consumer R) (id : String) (owner : Owner) (replies : Replies R)

/-- The steps up to the result of the execution; `none` when the compare-and-set lost. -/
def dispatch (p : Progress) : Progress × Except PyException (Option R) :=
  match runStatement replies.heartbeat
      (fun db => (c.heartbeat db id owner replies.heartbeat.now, true)) p with
  | (p, .error error) => (p, .error error)
  | (p, .ok _) =>
    match if c.decodes then replies.decode else none with
    | some error => (p, .error error)
    | none =>
      match runStatement replies.mark (fun db => c.mark db id owner) p with
      | (p, .error error) => (p, .error error)
      | (p, .ok false) => (p, .ok none)
      | (p, .ok true) =>
        match replies.execute with
        | .error error => (p, .error error)
        | .ok result =>
          match if c.extracts then replies.extract else none with
          | some error => ({ p with returned := true }, .error error)
          | none => ({ p with returned := true }, .ok (some result))

/-- The exceptions that `except Exception` lets through. -/
def exitOf (error : Option PyException) : Option PyException :=
  error.filter fun e => e.kind = .exit

/-- `_safe_complete`: what is an `Exception` is swallowed, also from the takeover event. -/
def safeComplete (status : Status) (code : Option String) (call : StoreCall)
    (takeoverEmit : Option PyException) (p : Progress) : Progress × Option PyException :=
  let before := call.others p.db
  let done := c.complete before id status owner code call.now
  match call.raises with
  | some (error, effective) =>
    ({ p with
        db := if effective then done.1 else before
        written := if effective && done.2 then some status else p.written },
      exitOf (some error))
  | none =>
    if done.2 then ({ p with db := done.1, written := some status }, none)
    else
      ({ p with
          db := done.1
          takeovers := p.takeovers ++ [takenOver before id owner p.written] },
        exitOf takeoverEmit)

/-- `_safe_emit_terminal` and `_safe_emit_event`: only runtime degradations are swallowed. -/
def safeEmit (status : Status) (reply : Option PyException) (p : Progress) :
    Progress × Option PyException :=
  match reply with
  | none => ({ p with events := p.events ++ [⟨status, p.settled⟩] }, none)
  | some error => (p, if error.kind = .degradation then none else some error)

def Progress.count (p : Progress) : Progress := { p with processed := p.processed + 1 }

/-- From the result to the emission; the intent consumer counts the item before it
completes it. -/
def settle (result : R) (p : Progress) : Progress × Option PyException :=
  let counted := if c.countsFirst then p.count else p
  match safeComplete c id owner (c.completion result).1 (c.completion result).2 replies.complete
      replies.takeoverEmit counted with
  | (p, some error) => (p, some error)
  | (p, none) =>
    (if c.countsFirst then p else p.count, if c.projects then exitOf replies.project else none)

/-- The try block. -/
def tryBlock (p : Progress) : Progress × Option PyException :=
  match dispatch c id owner replies p with
  | (p, .error error) => (p, some error)
  | (p, .ok none) => (p, none)
  | (p, .ok (some result)) =>
    match settle c id owner replies result p with
    | (p, some error) => (p, some error)
    | (p, none) => safeEmit (c.completion result).1 replies.emit p

/-- After the item is completed as failed; the intent consumer builds its fallback event
here, when the payload was not decoded. -/
def emitFailed (p : Progress) : Progress × Option PyException :=
  match if c.projects then exitOf replies.projectFailed else none with
  | some other => (p, some other)
  | none =>
    match if c.responseFirst then none else replies.buildFailed with
    | some other => (p, some other)
    | none => safeEmit .failed replies.emitFailed p

/-- The handler; the command consumer builds its failed response before it completes the
item. -/
def handleError (error : PyException) (p : Progress) : Progress × Option PyException :=
  let p := { p.count with failed := p.failed + 1 }
  match if c.responseFirst then replies.buildFailed else none with
  | some other => (p, some other)
  | none =>
    match safeComplete c id owner .failed (some error.typeName) replies.completeFailed
        replies.takeoverEmitFailed p with
    | (p, some other) => (p, some other)
    | (p, none) => emitFailed c replies p

/-- One call over a claimed item. -/
def processItem (p : Progress) : Progress × Option PyException :=
  match tryBlock c id owner replies p with
  | (p, none) => (p, none)
  | (p, some error) =>
    if error.kind = .exit then (p, some error) else handleError c id owner replies error p

end Process

theorem completeExecutionIntent_updates (db : Table) (id : String) (status : Status)
    (owner : Owner) (code : Option String) (now : ℤ) :
    (completeExecutionIntent db id status owner code now).2 = true ↔
      ∃ r, db.get? id = some r ∧ heldHere owner r := by
  simp only [completeExecutionIntent, decide_eq_true_eq, Dict.rowcount_pos_iff]
  constructor
  · rintro ⟨key, r, hr, hc⟩
    have hcond : key = id ∧ r.ownedBy owner = true ∧
        (r.status = .claimed ∨ r.status = .dispatched) := of_decide_eq_true hc
    obtain ⟨rfl, hheld⟩ := hcond
    exact ⟨r, hr, hheld⟩
  · rintro ⟨r, hr, hheld⟩
    exact ⟨id, r, hr, decide_eq_true ⟨rfl, hheld⟩⟩

theorem completeOperatorCommand_updates (db : Table) (id : String) (status : Status)
    (owner : Owner) (code : Option String) (now : ℤ) :
    (completeOperatorCommand db id status owner code now).2 = true ↔
      ∃ r, db.get? id = some r ∧ heldHere owner r := by
  exact completeExecutionIntent_updates db id status owner code now

/-- `ExecutionIntentConsumer`. -/
def intentConsumer (leaseSeconds : ℤ) : Consumer ExecutionResult where
  heartbeat db id owner now := heartbeatExecutionIntent db id owner leaseSeconds now
  mark := markIntentDispatched
  complete := completeExecutionIntent
  complete_updates := completeExecutionIntent_updates
  completion result :=
    ((completionOfResult result).status, (completionOfResult result).lastErrorCode)
  decodes := true
  extracts := false
  countsFirst := true
  projects := false
  responseFirst := false

/-- `OperatorCommandConsumer`; a command that returns is completed. -/
def commandConsumer (leaseSeconds : ℤ) : Consumer Unit where
  heartbeat db id owner now := heartbeatOperatorCommand db id owner leaseSeconds now
  mark := markCommandDispatched
  complete := completeOperatorCommand
  complete_updates := completeOperatorCommand_updates
  completion _ := (.completed, none)
  decodes := false
  extracts := true
  countsFirst := false
  projects := true
  responseFirst := true

def processIntent (leaseSeconds : ℤ) (id : String) (owner : Owner)
    (replies : Replies ExecutionResult) (db : Table) : Progress × Option PyException :=
  processItem (intentConsumer leaseSeconds) id owner replies (Progress.start db)

def processCommand (leaseSeconds : ℤ) (id : String) (owner : Owner)
    (replies : Replies Unit) (db : Table) : Progress × Option PyException :=
  processItem (commandConsumer leaseSeconds) id owner replies (Progress.start db)

/-- What one call may add to the counters and to the events. -/
structure Accounted (p : Progress) : Prop where
  counted : p.processed ≤ 1
  takeovers : ∀ another ∈ p.takeovers, another = true
  events : ∀ event ∈ p.events, event.status = .failed → event.settled = false

/-- The worker, another owner or a finished status accounts for the row. -/
def Founded (id : String) (owner : Owner) (db : Table) : Prop :=
  ∃ r, db.get? id = some r ∧
    (heldHere owner r ∨ heldByOther owner r = true ∨ r.status.terminal = true)

/-- A completion that returns meets a row that is accounted for. -/
def CompletionFounded (id : String) (owner : Owner) (call : StoreCall) (db : Table) : Prop :=
  call.raises = none → Founded id owner (call.others db)

/-- What is no `Exception` leaves the completion: its own, or one of the takeover event. -/
def CompletionExits (id : String) (owner : Owner) (call : StoreCall)
    (takeoverEmit : Option PyException) (db : Table) : Prop :=
  (∃ error effective, call.raises = some (error, effective) ∧ error.kind = .exit) ∨
    (call.raises = none ∧ (¬ ∃ r, (call.others db).get? id = some r ∧ heldHere owner r) ∧
      ∃ error, takeoverEmit = some error ∧ error.kind = .exit)

section Process

variable {R : Type} (c : Consumer R) (id : String) (owner : Owner) (replies : Replies R)

/-- What is no `Exception` leaves the call before the terminal event. -/
def Interrupted (db : Table) : Prop :=
  CompletionExits id owner replies.complete replies.takeoverEmit db ∨
    (c.projects = true ∧ ∃ error, replies.project = some error ∧ error.kind = .exit)

/-- No terminal event after an execution raises an exception that the handler catches. -/
def EmitsSafely (db : Table) : Prop :=
  ∀ p result, dispatch c id owner replies (Progress.start db) = (p, .ok (some result)) →
    ¬ Interrupted c id owner replies p.db →
      ∀ error, replies.emit = some error → error.kind ≠ .ordinary

/-- The completion that follows the execution, or the failure before it, is founded. -/
structure CompletesFounded (db : Table) : Prop where
  executed : ∀ p result,
    dispatch c id owner replies (Progress.start db) = (p, .ok (some result)) →
      CompletionFounded id owner replies.complete p.db
  failed : ∀ p error,
    dispatch c id owner replies (Progress.start db) = (p, .error error) → error.kind ≠ .exit →
      (c.responseFirst = true → replies.buildFailed = none) →
        CompletionFounded id owner replies.completeFailed p.db

/-- Nothing counted, nothing emitted and nothing written yet. -/
structure Untouched (p : Progress) : Prop where
  processed : p.processed = 0
  takeovers : p.takeovers = []
  events : p.events = []
  written : p.written = none

theorem untouched_start (db : Table) : Untouched (Progress.start db) :=
  ⟨rfl, rfl, rfl, rfl⟩

variable {p : Progress}

theorem runStatement_untouched (h : Untouched p) (call : StoreCall)
    (statement : Table → Table × Bool) : Untouched (runStatement call statement p).1 := by
  unfold runStatement
  split
  · exact ⟨h.processed, h.takeovers, h.events, h.written⟩
  · exact ⟨h.processed, h.takeovers, h.events, h.written⟩

theorem dispatch_untouched (h : Untouched p) : Untouched (dispatch c id owner replies p).1 := by
  have hbeat := runStatement_untouched h replies.heartbeat
    fun db => (c.heartbeat db id owner replies.heartbeat.now, true)
  unfold dispatch
  split
  · rename_i q error hq
    rw [hq] at hbeat
    exact hbeat
  · rename_i q ok hq
    rw [hq] at hbeat
    split
    · exact hbeat
    · have hmark := runStatement_untouched hbeat replies.mark fun db => c.mark db id owner
      split
      · rename_i m error hm
        rw [hm] at hmark
        exact hmark
      · rename_i m hm
        rw [hm] at hmark
        exact hmark
      · rename_i m hm
        rw [hm] at hmark
        split
        · exact hmark
        · split
          · exact ⟨hmark.processed, hmark.takeovers, hmark.events, hmark.written⟩
          · exact ⟨hmark.processed, hmark.takeovers, hmark.events, hmark.written⟩

theorem exitOf_eq_some_iff (reply : Option PyException) (error : PyException) :
    exitOf reply = some error ↔ reply = some error ∧ error.kind = .exit := by
  simp [exitOf]

theorem exitOf_eq_none_iff (reply : Option PyException) :
    exitOf reply = none ↔ ¬ ∃ error, reply = some error ∧ error.kind = .exit := by
  cases reply with
  | none => simp [exitOf]
  | some error => simp [exitOf]

section Completion

variable (status : Status) (code : Option String) (call : StoreCall)
  (takeoverEmit : Option PyException) (p : Progress)

theorem safeComplete_kept :
    (safeComplete c id owner status code call takeoverEmit p).1.processed = p.processed ∧
      (safeComplete c id owner status code call takeoverEmit p).1.events = p.events := by
  unfold safeComplete
  dsimp only
  split
  · exact ⟨rfl, rfl⟩
  · split
    · exact ⟨rfl, rfl⟩
    · exact ⟨rfl, rfl⟩

theorem safeComplete_written (h : p.written = none) :
    ∀ written ∈ (safeComplete c id owner status code call takeoverEmit p).1.written,
      written = status := by
  unfold safeComplete
  dsimp only
  split
  · intro written hwritten
    dsimp only at hwritten
    split at hwritten
    · exact (Option.mem_some_iff.mp hwritten).symm
    · rw [h] at hwritten
      cases hwritten
  · split
    · intro written hwritten
      exact (Option.mem_some_iff.mp hwritten).symm
    · intro written hwritten
      dsimp only at hwritten
      rw [h] at hwritten
      cases hwritten

theorem safeComplete_exit {error : PyException}
    (h : (safeComplete c id owner status code call takeoverEmit p).2 = some error) :
    error.kind = .exit := by
  unfold safeComplete at h
  dsimp only at h
  split at h
  · dsimp only at h
    exact ((exitOf_eq_some_iff _ _).mp h).2
  · split at h
    · cases h
    · dsimp only at h
      exact ((exitOf_eq_some_iff _ _).mp h).2

theorem takenOver_iff (db : Table) :
    takenOver db id owner none = true ↔
      ∃ r, db.get? id = some r ∧ (heldByOther owner r = true ∨ r.status.terminal = true) := by
  unfold takenOver
  split
  · rename_i hr
    simp [hr]
  · rename_i r hr
    simp [hr]

/-- A completion that changes no row counts a takeover; it is one when the row is
accounted for. -/
theorem safeComplete_takeovers (htakeovers : p.takeovers = []) (hwritten : p.written = none) :
    (∀ another ∈ (safeComplete c id owner status code call takeoverEmit p).1.takeovers,
      another = true) ↔ CompletionFounded id owner call p.db := by
  unfold safeComplete CompletionFounded
  dsimp only
  split
  · rename_i error effective hraises
    simp [hraises, htakeovers]
  · rename_i hraises
    split
    · rename_i hdone
      obtain ⟨r, hr, hheld⟩ := (c.complete_updates _ _ _ _ _ _).mp hdone
      refine ⟨fun _ _ => ⟨r, hr, Or.inl hheld⟩, fun _ => ?_⟩
      rw [htakeovers]
      simp
    · rename_i hdone
      rw [c.complete_updates] at hdone
      simp only [htakeovers, hwritten, List.nil_append, List.mem_singleton, forall_eq,
        takenOver_iff]
      constructor
      · rintro ⟨r, hr, hother⟩ _
        exact ⟨r, hr, Or.inr hother⟩
      · intro hfounded
        obtain ⟨r, hr, hheld | hother⟩ := hfounded hraises
        · exact absurd ⟨r, hr, hheld⟩ hdone
        · exact ⟨r, hr, hother⟩

theorem safeComplete_passes :
    (safeComplete c id owner status code call takeoverEmit p).2 = none ↔
      ¬ CompletionExits id owner call takeoverEmit p.db := by
  unfold safeComplete CompletionExits
  dsimp only
  split
  · rename_i error effective hraises
    simp [hraises, exitOf_eq_none_iff]
  · rename_i hraises
    split
    · rename_i hdone
      have hheld := (c.complete_updates _ _ _ _ _ _).mp hdone
      simp [hraises, hheld]
    · rename_i hdone
      rw [c.complete_updates] at hdone
      simp [hraises, hdone, exitOf_eq_none_iff]

/-- What one completion of an untouched item does. -/
structure CompletedFrom (out : Progress × Option PyException) : Prop where
  processed : out.1.processed = p.processed
  events : out.1.events = p.events
  written : ∀ written ∈ out.1.written, written = status
  takeovers : (∀ another ∈ out.1.takeovers, another = true) ↔
    CompletionFounded id owner call p.db
  exits : ∀ error, out.2 = some error → error.kind = .exit
  passes : out.2 = none ↔ ¬ CompletionExits id owner call takeoverEmit p.db

theorem safeComplete_completedFrom (htakeovers : p.takeovers = []) (hwritten : p.written = none) :
    CompletedFrom id owner status call takeoverEmit p
      (safeComplete c id owner status code call takeoverEmit p) where
  processed := (safeComplete_kept c id owner status code call takeoverEmit p).1
  events := (safeComplete_kept c id owner status code call takeoverEmit p).2
  written := safeComplete_written c id owner status code call takeoverEmit p hwritten
  takeovers :=
    safeComplete_takeovers c id owner status code call takeoverEmit p htakeovers hwritten
  exits _ := safeComplete_exit c id owner status code call takeoverEmit p
  passes := safeComplete_passes c id owner status code call takeoverEmit p

end Completion

theorem safeEmit_kept (status : Status) (reply : Option PyException) (p : Progress) :
    (safeEmit status reply p).1.processed = p.processed ∧
      (safeEmit status reply p).1.takeovers = p.takeovers := by
  unfold safeEmit
  split
  · exact ⟨rfl, rfl⟩
  · exact ⟨rfl, rfl⟩

theorem safeEmit_raises {status : Status} {reply : Option PyException}
    {error : PyException} (h : (safeEmit status reply p).2 = some error) :
    reply = some error ∧ (error.kind = .ordinary ∨ error.kind = .exit) := by
  unfold safeEmit at h
  split at h
  · cases h
  · dsimp only at h
    split at h
    · cases h
    · rename_i hkind
      cases h
      refine ⟨rfl, ?_⟩
      cases hk : error.kind with
      | degradation => exact absurd hk hkind
      | ordinary => exact Or.inl rfl
      | exit => exact Or.inr rfl

/-- A failed event is emitted where nothing but `failed` was written. -/
theorem safeEmit_events (status : Status) (reply : Option PyException) (p : Progress)
    (hevents : p.events = []) (hwritten : ∀ written ∈ p.written, written = status) :
    ∀ event ∈ (safeEmit status reply p).1.events, event.status = .failed →
      event.settled = false := by
  unfold safeEmit
  split
  · intro event hevent hfailed
    rw [hevents, List.nil_append, List.mem_singleton] at hevent
    subst hevent
    change status = .failed at hfailed
    subst hfailed
    cases hw : p.written with
    | none => simp [Progress.settled, hw]
    | some written =>
      have hfailed : written = .failed := hwritten written hw
      simp [Progress.settled, hw, hfailed]
  · intro event hevent
    rw [hevents] at hevent
    cases hevent

theorem accounted_iff_of_takeovers {p q : Progress} (hcounted : p.processed ≤ 1)
    (htakeovers : p.takeovers = q.takeovers)
    (hevents : ∀ event ∈ p.events, event.status = .failed → event.settled = false) :
    Accounted p ↔ ∀ another ∈ q.takeovers, another = true := by
  constructor
  · intro h
    rw [← htakeovers]
    exact h.takeovers
  · intro h
    rw [← htakeovers] at h
    exact ⟨hcounted, h, hevents⟩

/-- What the steps between the result and the terminal event do. -/
structure SettledFrom (result : R) (p : Progress) (out : Progress × Option PyException) :
    Prop where
  counted : out.1.processed ≤ 1
  counts : out.2 = none → out.1.processed = 1
  events : out.1.events = []
  written : ∀ written ∈ out.1.written, written = (c.completion result).1
  takeovers : (∀ another ∈ out.1.takeovers, another = true) ↔
    CompletionFounded id owner replies.complete p.db
  exits : ∀ error, out.2 = some error → error.kind = .exit
  passes : out.2 = none ↔ ¬ Interrupted c id owner replies p.db

/-- The consumer that counts first counts an item before it writes anything down. -/
theorem countFirst_frame (h : Untouched p) {q : Progress}
    (hq : q = if c.countsFirst then p.count else p) :
    q.db = p.db ∧ q.takeovers = [] ∧ q.written = none ∧ q.events = [] ∧
      q.processed = if c.countsFirst then 1 else 0 := by
  subst hq
  split
  · exact ⟨rfl, h.takeovers, h.written, h.events, congrArg (· + 1) h.processed⟩
  · exact ⟨rfl, h.takeovers, h.written, h.events, h.processed⟩

theorem settle_settledFrom (result : R) (h : Untouched p) :
    SettledFrom c id owner replies result p (settle c id owner replies result p) := by
  unfold settle
  dsimp only
  generalize hq : (if c.countsFirst then p.count else p) = q
  obtain ⟨hdb, htakeovers, hwritten, hevents, hprocessed⟩ := countFirst_frame c h hq.symm
  have hdone := safeComplete_completedFrom c id owner (c.completion result).1
    (c.completion result).2 replies.complete replies.takeoverEmit q htakeovers hwritten
  generalize safeComplete c id owner (c.completion result).1 (c.completion result).2
    replies.complete replies.takeoverEmit q = done at hdone ⊢
  obtain ⟨d, outcome⟩ := done
  obtain ⟨hcount, hnoEvents, hstatus, hfounded, hexit, hpasses⟩ := hdone
  dsimp only at *
  rw [hdb] at hfounded hpasses
  rw [hprocessed] at hcount
  rw [hevents] at hnoEvents
  cases outcome with
  | some error =>
    refine ⟨?_, ?_, hnoEvents, hstatus, hfounded, hexit, ?_⟩
    · rw [hcount]
      split <;> omega
    · intro hnone
      cases hnone
    · have hstop : CompletionExits id owner replies.complete replies.takeoverEmit p.db := by
        by_contra hgo
        exact Option.some_ne_none error (hpasses.mpr hgo)
      exact ⟨fun hnone => absurd hnone (Option.some_ne_none error), fun hgo =>
        absurd (Or.inl hstop) hgo⟩
  | none =>
    dsimp only
    have hgo := hpasses.mp rfl
    have hone : (if c.countsFirst then d else d.count).processed = 1 := by
      split
      · rename_i hfirst
        rw [hcount, if_pos hfirst]
      · rename_i hfirst
        exact congrArg (· + 1) (hcount.trans (if_neg hfirst))
    refine ⟨hone.le, fun _ => hone, ?_, ?_, ?_, ?_, ?_⟩
    · split <;> exact hnoEvents
    · split <;> exact hstatus
    · split <;> exact hfounded
    · intro error herror
      dsimp only at herror
      split at herror
      · exact ((exitOf_eq_some_iff _ _).mp herror).2
      · cases herror
    · unfold Interrupted
      cases hprojects : c.projects with
      | true => simp [hgo, exitOf_eq_none_iff]
      | false => simp [hgo]

theorem buildFailed_none_iff :
    (if c.responseFirst then replies.buildFailed else none) = none ↔
      (c.responseFirst = true → replies.buildFailed = none) := by
  cases c.responseFirst with
  | false => simp
  | true => simp

theorem emitFailed_kept (p : Progress) :
    (emitFailed c replies p).1.processed = p.processed ∧
      (emitFailed c replies p).1.takeovers = p.takeovers := by
  unfold emitFailed
  split
  · exact ⟨rfl, rfl⟩
  · split
    · exact ⟨rfl, rfl⟩
    · exact safeEmit_kept _ _ _

theorem emitFailed_events (p : Progress) (hevents : p.events = [])
    (hwritten : ∀ written ∈ p.written, written = .failed) :
    ∀ event ∈ (emitFailed c replies p).1.events, event.status = .failed →
      event.settled = false := by
  unfold emitFailed
  split
  · intro event hevent
    rw [hevents] at hevent
    cases hevent
  · split
    · intro event hevent
      rw [hevents] at hevent
      cases hevent
    · exact safeEmit_events _ _ _ hevents hwritten

theorem handleError_processed (error : PyException) (p : Progress) :
    (handleError c id owner replies error p).1.processed = p.processed + 1 := by
  unfold handleError
  dsimp only
  generalize hq : ({ p.count with failed := p.failed + 1 } : Progress) = q
  have hone : q.processed = p.processed + 1 := by
    rw [← hq]
    rfl
  have hkept := (safeComplete_kept c id owner .failed (some error.typeName)
    replies.completeFailed replies.takeoverEmitFailed q).1
  split
  · exact hone
  · split
    · rename_i d other hd
      rw [hd] at hkept
      exact hkept.trans hone
    · rename_i d hd
      rw [hd] at hkept
      exact ((emitFailed_kept c replies d).1.trans hkept).trans hone

/-- The handler of a failure before the completion. -/
theorem handleError_accounted (error : PyException) (h : Untouched p) :
    Accounted (handleError c id owner replies error p).1 ↔
      ((c.responseFirst = true → replies.buildFailed = none) →
        CompletionFounded id owner replies.completeFailed p.db) := by
  have hone : (handleError c id owner replies error p).1.processed ≤ 1 := by
    rw [handleError_processed, h.processed]
  rw [← buildFailed_none_iff]
  unfold handleError at hone ⊢
  dsimp only at *
  generalize hq : ({ p.count with failed := p.failed + 1 } : Progress) = q at hone ⊢
  have hqp : q.db = p.db ∧ q.takeovers = [] ∧ q.events = [] ∧ q.written = none := by
    rw [← hq]
    exact ⟨rfl, h.takeovers, h.events, h.written⟩
  obtain ⟨-, hkept, hstatus, hfounded, -, -⟩ :=
    safeComplete_completedFrom c id owner .failed (some error.typeName)
      replies.completeFailed replies.takeoverEmitFailed q hqp.2.1 hqp.2.2.2
  rw [hqp.2.2.1] at hkept
  rw [hqp.1] at hfounded
  split at hone
  · rename_i other hbuilt
    rw [hbuilt]
    simp only [reduceCtorEq, false_imp_iff, iff_true]
    refine ⟨hone, ?_, ?_⟩
    · rw [hqp.2.1]
      simp
    · rw [hqp.2.2.1]
      simp
  · rename_i hbuilt
    rw [hbuilt]
    simp only [true_imp_iff, ← hfounded]
    split at hone
    · rename_i d other hd
      rw [hd] at hkept ⊢
      refine accounted_iff_of_takeovers hone rfl ?_
      dsimp only at hkept ⊢
      rw [hkept]
      simp
    · rename_i d hd
      rw [hd] at hkept hstatus ⊢
      exact accounted_iff_of_takeovers hone (emitFailed_kept c replies d).2
        (emitFailed_events c replies d hkept hstatus)

/-- An untouched progress is accounted for. -/
theorem accounted_of_untouched (h : Untouched p) : Accounted p := by
  refine ⟨?_, ?_, ?_⟩
  · rw [h.processed]
    exact Nat.zero_le 1
  · rw [h.takeovers]
    simp
  · rw [h.events]
    simp

/-- The call after a failure before the completion. -/
theorem processItem_of_dispatch_error {db : Table} {error : PyException}
    (hd : dispatch c id owner replies (Progress.start db) = (p, .error error)) (h : Untouched p) :
    Accounted (processItem c id owner replies (Progress.start db)).1 ↔
      (error.kind ≠ .exit → (c.responseFirst = true → replies.buildFailed = none) →
        CompletionFounded id owner replies.completeFailed p.db) := by
  unfold processItem tryBlock
  rw [hd]
  dsimp only
  split
  · rename_i hexit
    simp [hexit, accounted_of_untouched h]
  · rename_i hexit
    simp [hexit, handleError_accounted c id owner replies error h]

/-- The call after an execution that returned. -/
theorem processItem_of_dispatch_result {db : Table} {result : R}
    (hd : dispatch c id owner replies (Progress.start db) = (p, .ok (some result)))
    (h : Untouched p) : Accounted (processItem c id owner replies (Progress.start db)).1 ↔
      (¬ Interrupted c id owner replies p.db →
        ∀ error, replies.emit = some error → error.kind ≠ .ordinary) ∧
      CompletionFounded id owner replies.complete p.db := by
  have hsettled := settle_settledFrom c id owner replies result h
  unfold processItem tryBlock
  rw [hd]
  dsimp only
  rcases hs : settle c id owner replies result p with ⟨q, _ | error⟩
  · rw [hs] at hsettled
    have hgo := hsettled.passes.mp rfl
    have hkept := safeEmit_kept (c.completion result).1 replies.emit q
    have hevents := safeEmit_events (c.completion result).1 replies.emit q hsettled.events
      hsettled.written
    have hfounded : Accounted (safeEmit (c.completion result).1 replies.emit q).1 ↔
        CompletionFounded id owner replies.complete p.db := by
      rw [← hsettled.takeovers]
      exact accounted_iff_of_takeovers (hkept.1.trans_le hsettled.counted) hkept.2 hevents
    dsimp only
    rcases he : safeEmit (c.completion result).1 replies.emit q with ⟨e, _ | error⟩
    · rw [he] at hfounded
      dsimp only
      rw [hfounded, and_iff_right]
      intro _ error herror hordinary
      simp [safeEmit, herror, hordinary] at he
    · have hraised := safeEmit_raises (congrArg Prod.snd he)
      rw [he] at hfounded hkept
      dsimp only
      split
      · rename_i hexit
        rw [hfounded, and_iff_right]
        intro _ other hother hordinary
        rw [hraised.1] at hother
        cases hother
        rw [hexit] at hordinary
        cases hordinary
      · rename_i hexit
        -- the item is counted a second time
        have htwo : (handleError c id owner replies error e).1.processed = 2 := by
          rw [handleError_processed, hkept.1, hsettled.counts rfl]
        constructor
        · intro haccounted
          have hcounted := haccounted.counted
          omega
        · rintro ⟨hsafe, -⟩
          exact absurd (hraised.2.resolve_right hexit) (hsafe hgo error hraised.1)
  · rw [hs] at hsettled
    have hexit := hsettled.exits error rfl
    have hstop : Interrupted c id owner replies p.db := by
      by_contra hgo
      exact Option.some_ne_none error (hsettled.passes.mpr hgo)
    simp only [hexit, if_true, hstop, not_true, false_imp_iff, true_and, ← hsettled.takeovers]
    refine accounted_iff_of_takeovers hsettled.counted rfl ?_
    rw [hsettled.events]
    simp

/-- A call is accounted for exactly when its terminal event after an execution raises no
exception that the handler catches and its completion is founded. -/
theorem processItem_accounted (db : Table) :
    Accounted (processItem c id owner replies (Progress.start db)).1 ↔
      EmitsSafely c id owner replies db ∧ CompletesFounded c id owner replies db := by
  have huntouched := dispatch_untouched c id owner replies (untouched_start db)
  rcases hd : dispatch c id owner replies (Progress.start db) with ⟨p, error | _ | result⟩
  · rw [hd] at huntouched
    rw [processItem_of_dispatch_error c id owner replies hd huntouched]
    constructor
    · intro hfounded
      refine ⟨?_, ?_, ?_⟩
      · intro q result hq
        simp [hd] at hq
      · intro q result hq
        simp [hd] at hq
      · intro q other hq
        rw [hd] at hq
        cases hq
        exact hfounded
    · rintro ⟨-, hfounded⟩
      exact hfounded.failed p error hd
  · rw [hd] at huntouched
    have hend : (processItem c id owner replies (Progress.start db)).1 = p := by
      simp only [processItem, tryBlock, hd]
    rw [hend]
    refine ⟨fun _ => ⟨?_, ?_, ?_⟩, fun _ => accounted_of_untouched huntouched⟩
    · intro q result hq
      simp [hd] at hq
    · intro q result hq
      simp [hd] at hq
    · intro q other hq
      simp [hd] at hq
  · rw [hd] at huntouched
    rw [processItem_of_dispatch_result c id owner replies hd huntouched]
    constructor
    · rintro ⟨hsafe, hfounded⟩
      refine ⟨?_, ?_, ?_⟩
      · intro q other hq
        rw [hd] at hq
        cases hq
        exact hsafe
      · intro q other hq
        rw [hd] at hq
        cases hq
        exact hfounded
      · intro q error hq
        simp [hd] at hq
    · rintro ⟨hsafe, hfounded⟩
      exact ⟨hsafe p result hd, hfounded.executed p result hd⟩

end Process

/-- Both consumers, over every table and every pattern of exceptions. -/
theorem process_accounted_iff (leaseSeconds : ℤ) (id : String) (owner : Owner)
    (intentReplies : Replies ExecutionResult) (commandReplies : Replies Unit) (db : Table) :
    (Accounted (processIntent leaseSeconds id owner intentReplies db).1 ↔
      EmitsSafely (intentConsumer leaseSeconds) id owner intentReplies db ∧
        CompletesFounded (intentConsumer leaseSeconds) id owner intentReplies db) ∧
    (Accounted (processCommand leaseSeconds id owner commandReplies db).1 ↔
      EmitsSafely (commandConsumer leaseSeconds) id owner commandReplies db ∧
        CompletesFounded (commandConsumer leaseSeconds) id owner commandReplies db) :=
  ⟨processItem_accounted _ id owner intentReplies db,
    processItem_accounted _ id owner commandReplies db⟩

/-- A collaborator that raises nothing, while nobody else touches the table. -/
def StoreCall.quiet : StoreCall := ⟨id, 1, none⟩

/-- Everything succeeds but the terminal event, which raises a `TypeError`. -/
def emitRaises {R : Type} (result : R) : Replies R where
  heartbeat := .quiet
  decode := none
  mark := .quiet
  execute := .ok result
  extract := none
  complete := .quiet
  takeoverEmit := none
  project := none
  emit := some ⟨.ordinary, "TypeError"⟩
  buildFailed := none
  completeFailed := .quiet
  takeoverEmitFailed := none
  projectFailed := none
  emitFailed := none

/-- One row, claimed by the worker. -/
def claimedTable (id : String) (owner : Owner) : Table :=
  Dict.empty.set id
    { Row.published 0 "live" with
      status := .claimed
      attemptCount := 1
      claimedByInstanceId := some owner.instanceId
      claimedByRunId := some owner.runId
      claimedAt := some 0
      leaseExpiresAt := some 30 }

/-- A completed intent is counted twice, as taken over by nobody, and announced as
failed. -/
theorem terminal_event_error_completes_again :
    let p := (processIntent 30 "intent-1" ⟨"worker", "run"⟩ (emitRaises (.dict .other none))
      (claimedTable "intent-1" ⟨"worker", "run"⟩)).1
    ¬ Accounted p ∧ p.processed = 2 ∧ p.failed = 1 ∧ p.takeovers = [false] ∧
      p.written = some .completed ∧ p.events = [⟨.failed, true⟩] := by
  have hrun : ∀ p, p = (processIntent 30 "intent-1" ⟨"worker", "run"⟩
      (emitRaises (.dict .other none)) (claimedTable "intent-1" ⟨"worker", "run"⟩)).1 →
      p.processed = 2 ∧ p.failed = 1 ∧ p.takeovers = [false] ∧ p.written = some .completed ∧
        p.events = [⟨.failed, true⟩] := by
    rintro p rfl
    decide +kernel
  intro p
  refine ⟨?_, hrun p rfl⟩
  intro h
  have hcounted := h.counted
  rw [(hrun p rfl).1] at hcounted
  omega

end MT5Services.ItemAccounting
