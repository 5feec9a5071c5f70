import MT5Services.AtMostOnce
import MT5Services.CommandLeases
import MT5Services.IntentConsumer

/-!
`OperatorCommandConsumer` workers over one `operator_commands` table. A label names
the worker and says how its next call ends; a step of a worker moves its program
counter and may send one statement. Store calls may raise with or without their
statement having taken effect, workers may crash between any two steps, and every
statement has a clock of its own. `executed` logs the calls of `_execute_command`.
-/
namespace MT5Services.CommandConsumer

open CommandLeases Runs
open ExecutionIntents (Status Row Table SettledIn markIntentDispatched_won)
open IntentConsumer (Call ClaimStage Config)

/-- What a worker hands to `_safe_complete`. -/
inductive Completion
  | completed
  | failed (errorCode : String)
  deriving DecidableEq, Repr

namespace Completion

def status : Completion → Status
  | completed => .completed
  | failed _ => .failed

def lastErrorCode : Completion → Option String
  | completed => none
  | failed errorCode => some errorCode

end Completion

inductive Statement
  | resetExpiredClaims (now : ℤ)
  | deadLetterExpiredDispatches (now : ℤ)
  | deadLetterExhausted (now : ℤ)
  | claimLocked (skip batch : List String) (now : ℤ)
  | markDispatched (id : String)
  | heartbeat (id : String) (now : ℤ)
  | complete (id : String) (completion : Completion) (now : ℤ)

/-- The table after the statement of a worker. -/
def Statement.exec (cfg : Config) (db : Table) : Statement → Table
  | resetExpiredClaims now => CommandLeases.resetExpiredClaims db cfg.account now
  | deadLetterExpiredDispatches now =>
    CommandLeases.deadLetterExpiredDispatches db cfg.account now
  | deadLetterExhausted now =>
    CommandLeases.deadLetterExhausted db cfg.account cfg.maxAttempts now
  | claimLocked _ batch now => CommandLeases.claimLocked db batch cfg.owner cfg.leaseSeconds now
  | markDispatched id => (markCommandDispatched db id cfg.owner).1
  | heartbeat id now => heartbeatOperatorCommand db id cfg.owner cfg.leaseSeconds now
  | complete id completion now =>
    (completeOperatorCommand db id completion.status cfg.owner completion.lastErrorCode now).1

/-- The batch of a claim is the locked rows in any order. -/
def Statement.Admitted (cfg : Config) (db : Table) : Statement → Prop
  | claimLocked skip batch _ =>
    batch.Perm (lockPending db cfg.account cfg.maxAttempts cfg.batchSize skip)
  | _ => True

instance Statement.decidableAdmitted (cfg : Config) (db : Table) :
    ∀ statement : Statement, Decidable (statement.Admitted cfg db)
  | claimLocked _ _ _ => inferInstanceAs (Decidable (List.Perm _ _))
  | resetExpiredClaims _ | deadLetterExpiredDispatches _ | deadLetterExhausted _
  | markDispatched _ | heartbeat _ _ | complete _ _ _ => isTrue trivial

/-- A third statement that takes effect meets no claimed row. -/
def Statement.Clean (cfg : Config) (db : Table) : Statement → Prop
  | deadLetterExhausted now => ∀ id r, db.get? id = some r →
      exhausted cfg.account cfg.maxAttempts now r = true → r.status ≠ .claimed
  | _ => True

variable {cfg : Config} {db : Table}

theorem Statement.exec_kept {limit : ℤ} (statement : Statement)
    (hlimit : max 1 cfg.maxAttempts ≤ limit) (hadmitted : statement.Admitted cfg db) :
    db.Related (RowKept (statement.Clean cfg db) limit) (statement.exec cfg db) := by
  cases statement with
  | resetExpiredClaims now => exact resetExpiredClaims_kept _ _ _ _ _
  | deadLetterExpiredDispatches now => exact deadLetterExpiredDispatches_kept _ _ _ _ _
  | deadLetterExhausted now => exact deadLetterExhausted_kept _ _ _ _ _ _ id
  | claimLocked skip batch now =>
    refine claimLocked_kept _ _ _ cfg.account _ _ _ hlimit ?_
    intro id r hid hr
    exact claimable_of_mem_lockPending db (hadmitted.mem_iff.mp hid) hr
  | markDispatched id => exact markCommandDispatched_kept _ _ _ _ _
  | heartbeat id now => exact heartbeatOperatorCommand_kept _ _ _ _ _ _ _
  | complete id completion now =>
    refine completeOperatorCommand_kept _ _ _ _ _ _ _ ?_
    cases completion with
    | completed => rfl
    | failed errorCode => rfl

/-- Where a worker thread stands; `rest` is what is left of its batch. -/
inductive Pc
  | stopped
  | crashed
  | idle
  | claiming (stage : ClaimStage)
  | batch (rest : List String)
  | beating (id : String) (rest : List String)
  | marking (id : String) (rest : List String)
  | marked (id : String) (rest : List String)
  | executing (id : String) (rest : List String)
  | completing (id : String) (rest : List String) (completion : Completion)
  | emitting (id : String) (rest : List String) (completion : Completion)

/-- The command a worker may still pass to `_execute_command`. -/
def Pc.markedId : Pc → Option String
  | marked id _ => some id
  | _ => none

structure Worker where
  pc : Pc
  stopEvent : Bool
  renewers : List String

def Worker.initial : Worker := ⟨.stopped, false, []⟩

def Worker.goto (w : Worker) (pc : Pc) : Worker := { w with pc := pc }

inductive WorkerAct
  | start
  | requestStop
  | crash
  | poll
  | claimStatement (call : Call) (skip batch : List String) (now : ℤ)
  | leaveLoop
  | loopRaises
  | nextItem
  | heartbeat (call : Call) (now : ℤ)
  | mark (call : Call)
  | executeCommand
  | executeReturns
  | executeRaises (error : String)
  | complete (call : Call) (now : ℤ)
  | emitEvent (error : Option String)
  | renew (id : String) (call : Call) (now : ℤ)
  | endRenewer (id : String)

/-- A step of a worker: the statement it sends, the worker after it and the command
it starts to execute. -/
structure Move where
  sent : Option (Statement × Call)
  worker : Worker
  executed : Option String

def silent (w : Worker) : Move := ⟨none, w, none⟩

def claimStatement (skip batch : List String) (now : ℤ) : ClaimStage → Statement
  | .reset => .resetExpiredClaims now
  | .deadLetterDispatched => .deadLetterExpiredDispatches now
  | .deadLetterExhausted => .deadLetterExhausted now
  | .lock => .claimLocked skip batch now

def afterClaim (batch : List String) : ClaimStage → Pc
  | .reset => .claiming .deadLetterDispatched
  | .deadLetterDispatched => .claiming .deadLetterExhausted
  | .deadLetterExhausted => .claiming .lock
  | .lock => .batch batch

/-- The exception path of `_process_command`. -/
def failing (id : String) (rest : List String) (error : String) : Pc :=
  .completing id rest (.failed error)

/-- `_safe_complete` and `_safe_project_risk_state` swallow every exception; the
emission passes on what is no degradation of the runtime, to the exception path or,
from there, out of the loop. -/
def workerStep (cfg : Config) (db : Table) (w : Worker) : WorkerAct → Option Move
  | .start =>
    match w.pc with
    | .stopped => some (silent ⟨.idle, false, w.renewers⟩)
    | .crashed => none
    | _ => some (silent w)
  | .requestStop => some (silent { w with stopEvent := true })
  | .crash => some (silent ⟨.crashed, w.stopEvent, []⟩)
  | .poll =>
    match w.pc with
    | .idle => if w.stopEvent then none else some (silent (w.goto (.claiming .reset)))
    | _ => none
  | .claimStatement call skip batch now =>
    match w.pc with
    | .claiming stage =>
      some ⟨some (claimStatement skip batch now stage, call),
        w.goto (if call.error?.isNone then afterClaim batch stage else .idle), none⟩
    | _ => none
  | .leaveLoop =>
    match w.pc with
    | .idle => if w.stopEvent then some (silent (w.goto .stopped)) else none
    | .batch _ => if w.stopEvent then some (silent (w.goto .idle)) else none
    | _ => none
  | .loopRaises =>
    match w.pc with
    | .batch _ => some (silent (w.goto .idle))
    | .completing _ _ (.failed _) => some (silent (w.goto .idle))
    | _ => none
  | .nextItem =>
    match w.pc with
    | .batch [] => some (silent (w.goto .idle))
    | .batch (id :: rest) =>
      if w.stopEvent then none
      else some (silent ⟨.beating id rest, w.stopEvent, id :: w.renewers⟩)
    | _ => none
  | .heartbeat call now =>
    match w.pc with
    | .beating id rest =>
      some ⟨some (.heartbeat id now, call),
        w.goto (call.error?.elim (.marking id rest) (failing id rest)), none⟩
    | _ => none
  | .mark call =>
    match w.pc with
    | .marking id rest =>
      some ⟨some (.markDispatched id, call),
        w.goto (call.error?.elim
          (if (markCommandDispatched db id cfg.owner).2 then .marked id rest else .batch rest)
          (failing id rest)), none⟩
    | _ => none
  | .executeCommand =>
    match w.pc with
    | .marked id rest => some ⟨none, w.goto (.executing id rest), some id⟩
    | _ => none
  | .executeReturns =>
    match w.pc with
    | .executing id rest => some (silent (w.goto (.completing id rest .completed)))
    | _ => none
  | .executeRaises error =>
    match w.pc with
    | .executing id rest => some (silent (w.goto (failing id rest error)))
    | _ => none
  | .complete call now =>
    match w.pc with
    | .completing id rest completion =>
      some ⟨some (.complete id completion now, call), w.goto (.emitting id rest completion), none⟩
    | _ => none
  | .emitEvent error =>
    match w.pc, error with
    | .emitting _ rest _, none => some (silent (w.goto (.batch rest)))
    | .emitting id rest .completed, some error => some (silent (w.goto (failing id rest error)))
    | .emitting _ _ (.failed _), some _ => some (silent (w.goto .idle))
    | _, _ => none
  | .renew id call now =>
    if id ∈ w.renewers then some ⟨some (.heartbeat id now, call), w, none⟩ else none
  | .endRenewer id => some (silent { w with renewers := w.renewers.erase id })

/-- The table after a move. -/
def Move.table (cfg : Config) (db : Table) (move : Move) : Table :=
  move.sent.elim db fun sent => sent.2.effect db (sent.1.exec cfg db)

/-- A worker finds no new mark, wins one, or starts to execute what it marked. -/
inductive MoveKind (cfg : Config) (db : Table) (w : Worker) (move : Move) : Prop
  | quiet (hexecuted : move.executed = none)
      (hmarked : move.worker.pc.markedId = none ∨
        move.worker.pc.markedId = w.pc.markedId)
  | won (id : String) (hexecuted : move.executed = none)
      (hmarked : move.worker.pc.markedId = some id)
      (hsent : move.sent = some (.markDispatched id, .returns))
      (hwon : (markCommandDispatched db id cfg.owner).2 = true)
  | ran (id : String) (hsent : move.sent = none) (hexecuted : move.executed = some id)
      (hbefore : w.pc.markedId = some id) (hafter : move.worker.pc.markedId = none)

theorem silent_kind {w next : Worker} {move : Move} (h : silent next = move)
    (hmarked : next.pc.markedId = none ∨ next.pc.markedId = w.pc.markedId) :
    MoveKind cfg db w move := by
  subst h
  exact .quiet rfl hmarked

section Kinds

variable {cfg : Config} {db : Table} {w : Worker} {move : Move} {now : ℤ} {call : Call}

theorem start_kind (h : workerStep cfg db w .start = some move) : MoveKind cfg db w move := by
  obtain ⟨pc, stopEvent, renewers⟩ := w
  cases pc
  case crashed => cases h
  all_goals exact silent_kind (Option.some.inj h) (Or.inr rfl)

theorem poll_kind (h : workerStep cfg db w .poll = some move) : MoveKind cfg db w move := by
  obtain ⟨pc, stopEvent, renewers⟩ := w
  cases pc
  case idle =>
    obtain ⟨_, h⟩ := Option.ite_none_left_eq_some.mp h
    exact silent_kind (Option.some.inj h) (Or.inl rfl)
  all_goals cases h

theorem claimStatement_kind {skip batch : List String}
    (h : workerStep cfg db w (.claimStatement call skip batch now) = some move) :
    MoveKind cfg db w move := by
  obtain ⟨pc, stopEvent, renewers⟩ := w
  cases pc
  case claiming stage =>
    cases Option.some.inj h
    refine .quiet rfl (Or.inl ?_)
    cases call <;> cases stage <;> rfl
  all_goals cases h

theorem leaveLoop_kind (h : workerStep cfg db w .leaveLoop = some move) :
    MoveKind cfg db w move := by
  obtain ⟨pc, stopEvent, renewers⟩ := w
  cases pc
  case idle =>
    obtain ⟨_, h⟩ := Option.ite_none_right_eq_some.mp h
    exact silent_kind (Option.some.inj h) (Or.inl rfl)
  case batch rest =>
    obtain ⟨_, h⟩ := Option.ite_none_right_eq_some.mp h
    exact silent_kind (Option.some.inj h) (Or.inl rfl)
  all_goals cases h

theorem loopRaises_kind (h : workerStep cfg db w .loopRaises = some move) :
    MoveKind cfg db w move := by
  obtain ⟨pc, stopEvent, renewers⟩ := w
  cases pc
  case batch rest => exact silent_kind (Option.some.inj h) (Or.inl rfl)
  case completing id rest completion =>
    cases completion with
    | completed => cases h
    | failed errorCode => exact silent_kind (Option.some.inj h) (Or.inl rfl)
  all_goals cases h

theorem nextItem_kind (h : workerStep cfg db w .nextItem = some move) :
    MoveKind cfg db w move := by
  obtain ⟨pc, stopEvent, renewers⟩ := w
  cases pc
  case batch rest =>
    cases rest with
    | nil => exact silent_kind (Option.some.inj h) (Or.inl rfl)
    | cons id rest =>
      obtain ⟨_, h⟩ := Option.ite_none_left_eq_some.mp h
      exact silent_kind (Option.some.inj h) (Or.inl rfl)
  all_goals cases h

theorem heartbeat_kind (h : workerStep cfg db w (.heartbeat call now) = some move) :
    MoveKind cfg db w move := by
  obtain ⟨pc, stopEvent, renewers⟩ := w
  cases pc
  case beating id rest =>
    cases Option.some.inj h
    refine .quiet rfl (Or.inl ?_)
    cases call <;> rfl
  all_goals cases h

theorem mark_kind (h : workerStep cfg db w (.mark call) = some move) :
    MoveKind cfg db w move := by
  obtain ⟨pc, stopEvent, renewers⟩ := w
  cases pc
  case marking id rest =>
    cases Option.some.inj h
    cases call with
    | raisesAfterEffect error => exact .quiet rfl (Or.inl rfl)
    | raisesBeforeEffect error => exact .quiet rfl (Or.inl rfl)
    | returns =>
      cases hwon : (markCommandDispatched db id cfg.owner).2 with
      | false => exact .quiet rfl (Or.inl rfl)
      | true => exact .won id rfl rfl rfl hwon
  all_goals cases h

theorem emitEvent_kind {error : Option String}
    (h : workerStep cfg db w (.emitEvent error) = some move) : MoveKind cfg db w move := by
  obtain ⟨pc, stopEvent, renewers⟩ := w
  cases pc
  case emitting id rest completion =>
    cases error with
    | none => exact silent_kind (Option.some.inj h) (Or.inl rfl)
    | some error =>
      cases completion with
      | completed => exact silent_kind (Option.some.inj h) (Or.inl rfl)
      | failed errorCode => exact silent_kind (Option.some.inj h) (Or.inl rfl)
  all_goals cases h

theorem workerStep_kind {act : WorkerAct} (h : workerStep cfg db w act = some move) :
    MoveKind cfg db w move := by
  cases act with
  | start => exact start_kind h
  | requestStop => exact silent_kind (Option.some.inj h) (Or.inr rfl)
  | crash => exact silent_kind (Option.some.inj h) (Or.inl rfl)
  | poll => exact poll_kind h
  | claimStatement call skip batch now => exact claimStatement_kind h
  | leaveLoop => exact leaveLoop_kind h
  | loopRaises => exact loopRaises_kind h
  | nextItem => exact nextItem_kind h
  | heartbeat call now => exact heartbeat_kind h
  | mark call => exact mark_kind h
  | executeCommand =>
    obtain ⟨pc, stopEvent, renewers⟩ := w
    cases pc
    case marked id rest =>
      cases Option.some.inj h
      exact .ran id rfl rfl rfl rfl
    all_goals cases h
  | executeReturns =>
    obtain ⟨pc, stopEvent, renewers⟩ := w
    cases pc
    case executing id rest => exact silent_kind (Option.some.inj h) (Or.inl rfl)
    all_goals cases h
  | executeRaises error =>
    obtain ⟨pc, stopEvent, renewers⟩ := w
    cases pc
    case executing id rest => exact silent_kind (Option.some.inj h) (Or.inl rfl)
    all_goals cases h
  | complete call now =>
    obtain ⟨pc, stopEvent, renewers⟩ := w
    cases pc
    case completing id rest completion =>
      cases Option.some.inj h
      exact .quiet rfl (Or.inl rfl)
    all_goals cases h
  | emitEvent error => exact emitEvent_kind h
  | renew id call now =>
    obtain ⟨_, h⟩ := Option.ite_none_right_eq_some.mp h
    cases Option.some.inj h
    exact .quiet rfl (Or.inr rfl)
  | endRenewer id => exact silent_kind (Option.some.inj h) (Or.inr rfl)

end Kinds

structure System (ι : Type*) where
  db : Table
  workers : ι → Worker
  executed : List String

inductive Act (ι : Type*)
  | enqueue (id : String) (createdAt : ℤ) (targetAccountKey : String)
  | worker (i : ι) (act : WorkerAct)

/-- What is sent fits the table it is sent to. -/
def Move.Admitted (cfg : Config) (db : Table) (move : Move) : Prop :=
  ∀ sent ∈ move.sent, sent.1.Admitted cfg db

instance (cfg : Config) (db : Table) (move : Move) : Decidable (move.Admitted cfg db) :=
  inferInstanceAs (Decidable (∀ sent ∈ move.sent, sent.1.Admitted cfg db))

def takesEffect : Call → Bool
  | .raisesBeforeEffect _ => false
  | _ => true

/-- A third statement of the claim that takes effect meets no claimed row. -/
def Move.Clean (cfg : Config) (db : Table) (move : Move) : Prop :=
  ∀ sent ∈ move.sent, takesEffect sent.2 = true → sent.1.Clean cfg db

theorem Move.table_kept {limit : ℤ} {move : Move}
    (hlimit : max 1 cfg.maxAttempts ≤ limit) (hadmitted : move.Admitted cfg db) :
    db.Related (RowKept (move.Clean cfg db) limit) (move.table cfg db) := by
  obtain ⟨sent, worker, executed⟩ := move
  cases sent with
  | none => exact Dict.related_refl (rowKept_refl _ _) db
  | some sent =>
    obtain ⟨statement, call⟩ := sent
    have hkept : db.Related (RowKept (statement.Clean cfg db) limit) (statement.exec cfg db) :=
      statement.exec_kept hlimit (hadmitted _ rfl)
    have heffect : takesEffect call = true →
        db.Related (RowKept (Move.Clean cfg db ⟨some (statement, call), worker, executed⟩) limit)
          (statement.exec cfg db) := by
      intro htakes
      refine hkept.mono ?_
      intro before after hrow
      exact ⟨hrow.follows, hrow.attempts, fun hclean => hrow.owner (hclean _ rfl htakes)⟩
    cases call with
    | raisesBeforeEffect error => exact Dict.related_refl (rowKept_refl _ _) db
    | returns => exact heffect rfl
    | raisesAfterEffect error => exact heffect rfl

section System

variable {ι : Type*} [DecidableEq ι]

/-- No worker thread runs yet and no command is queued. -/
def System.initial : System ι := ⟨Dict.empty, fun _ => Worker.initial, []⟩

/-- An `enqueue` inserts a pending row under a new identifier. -/
def step (cfg : ι → Config) (s : System ι) : Act ι → Option (System ι)
  | .enqueue id createdAt account =>
    if s.db.contains id then none
    else some { s with db := s.db.set id (enqueued createdAt account) }
  | .worker i act =>
    (workerStep (cfg i) s.db (s.workers i) act).bind fun move =>
      if move.Admitted (cfg i) s.db then
        some
          { db := move.table (cfg i) s.db
            workers := Function.update s.workers i move.worker
            executed := s.executed ++ move.executed.toList }
      else none

/-- What the at-most-once argument sees of the system. -/
def view (s : System ι) : AtMostOnce.View ι String where
  settled := SettledIn s.db
  marked := fun i => (s.workers i).pc.markedId
  log := s.executed

theorem settledIn_of_related {clean : Prop} {limit : ℤ} {before after : Table}
    (h : before.Related (RowKept clean limit) after) (id : String)
    (hid : SettledIn before id) : SettledIn after id := by
  obtain ⟨r, hr, hsettled⟩ := hid
  obtain ⟨r', hr', hrow⟩ := h.forward hr
  exact ⟨r', hr', hsettled.follows hrow.follows⟩

variable {cfg : ι → Config} {s t : System ι}

theorem step_enqueue {id account : String} {createdAt : ℤ}
    (h : step cfg s (.enqueue id createdAt account) = some t) :
    s.db.get? id = none ∧ t = { s with db := s.db.set id (enqueued createdAt account) } := by
  simp only [step, Option.ite_none_left_eq_some, Option.some.injEq] at h
  exact ⟨by simpa [Dict.contains] using h.1, h.2.symm⟩

theorem step_worker {i : ι} {act : WorkerAct} (h : step cfg s (.worker i act) = some t) :
    ∃ move, workerStep (cfg i) s.db (s.workers i) act = some move ∧
      move.Admitted (cfg i) s.db ∧
      t = { db := move.table (cfg i) s.db
            workers := Function.update s.workers i move.worker
            executed := s.executed ++ move.executed.toList } := by
  obtain ⟨move, hmove, hnext⟩ := Option.bind_eq_some_iff.mp h
  simp only [Option.ite_none_right_eq_some, Option.some.injEq] at hnext
  exact ⟨move, hmove, hnext.1, hnext.2.symm⟩

variable {a : Act ι}

/-- Every step is one the at-most-once argument knows. -/
theorem step_view (h : step cfg s a = some t) : AtMostOnce.Step (view s) (view t) := by
  cases a with
  | enqueue id createdAt account =>
    obtain ⟨hnew, rfl⟩ := step_enqueue h
    refine .quiet ?_ (fun i k hk => hk) rfl
    rintro key ⟨r, hr, hsettled⟩
    refine ⟨r, ?_, hsettled⟩
    have hne : key ≠ id := by
      rintro rfl
      rw [hnew] at hr
      cases hr
    simpa [hne] using hr
  | worker i act =>
    obtain ⟨move, hmove, hadmitted, rfl⟩ := step_worker h
    have hsettled := settledIn_of_related (Move.table_kept (le_refl _) hadmitted)
    have hmarks : (fun j => (Function.update s.workers i move.worker j).pc.markedId) =
        Function.update (fun j => (s.workers j).pc.markedId) i move.worker.pc.markedId :=
      Function.comp_update (fun w : Worker => w.pc.markedId) s.workers i move.worker
    cases workerStep_kind hmove with
    | quiet hexecuted hmarked =>
      exact .of_update i hsettled hmarks hmarked (by simp [view, hexecuted])
    | won id hexecuted hmarked hsent hwon =>
      obtain ⟨r, r', hr, hclaimed, hr', hdispatched⟩ := markIntentDispatched_won s.db id _ hwon
      refine .won i id hsettled ?_ (by simp [view, hexecuted]) ?_ ?_
      · simp only [view, hmarks, hmarked]
      · rintro ⟨row, hrow, hsettled⟩
        cases Option.some.inj (hr.symm.trans hrow)
        exact not_settled_claimed hclaimed hsettled
      · refine ⟨r', ?_, Or.inl hdispatched⟩
        rw [Move.table, hsent]
        exact hr'
    | ran id hsent hexecuted hbefore hafter =>
      refine .ran i id hsettled ?_ (by simp [view, hexecuted]) hbefore
      simp only [view, hmarks, hafter]

/-- No row was claimed more often than any of the workers allows. -/
def AttemptsBounded (cfg : ι → Config) (db : Table) : Prop :=
  ∀ limit : ℤ, 1 ≤ limit → (∀ i, (cfg i).maxAttempts ≤ limit) →
    ∀ id r, db.get? id = some r → (r.attemptCount : ℤ) ≤ limit

def OwnersMatch (db : Table) : Prop := ∀ id r, db.get? id = some r → OwnerMatches r

/-- A completion by a worker that no longer owns its row changes nothing. -/
def LateCompletionsIgnored (cfg : ι → Config) (s : System ι) : Prop :=
  ∀ i id rest completion call now t, (s.workers i).pc = .completing id rest completion →
    (∀ r, s.db.get? id = some r → r.ownedBy (cfg i).owner = false) →
    step cfg s (.worker i (.complete call now)) = some t → t.db = s.db

/-- What the lease protocol promises of a state. -/
structure Protocol (cfg : ι → Config) (s : System ι) : Prop where
  executed_once : ∀ id, s.executed.count id ≤ 1
  attempts : AttemptsBounded cfg s.db
  late : LateCompletionsIgnored cfg s
  owners : OwnersMatch s.db

/-- No claim dead-letters, for want of attempts, a command that a worker still holds. -/
def CleanStep (cfg : ι → Config) (s : System ι) : Act ι → Prop
  | .enqueue _ _ _ => True
  | .worker i act =>
    ∀ move, workerStep (cfg i) s.db (s.workers i) act = some move → move.Clean (cfg i) s.db

theorem late_completions_ignored (cfg : ι → Config) (s : System ι) :
    LateCompletionsIgnored cfg s := by
  intro i id rest completion call now t hpc hlost hstep
  obtain ⟨move, hmove, _, rfl⟩ := step_worker hstep
  simp only [workerStep, hpc, Option.some.injEq] at hmove
  subst hmove
  have hsame : (Statement.complete id completion now).exec (cfg i) s.db = s.db := by
    rw [Statement.exec, completeOperatorCommand_late s.db hlost]
  simp only [Move.table, Option.elim_some, hsame]
  cases call with
  | returns => rfl
  | raisesAfterEffect error => rfl
  | raisesBeforeEffect error => rfl

theorem step_attempts
    (hs : AttemptsBounded cfg s.db) (h : step cfg s a = some t) : AttemptsBounded cfg t.db := by
  intro limit hpositive hlimit id r hr
  cases a with
  | enqueue key createdAt account =>
    obtain ⟨_, rfl⟩ := step_enqueue h
    rw [Dict.get?_set] at hr
    split at hr
    · cases hr
      have hzero : ((enqueued createdAt account).attemptCount : ℤ) = 0 := rfl
      omega
    · exact hs limit hpositive hlimit id r hr
  | worker i act =>
    obtain ⟨move, _, hadmitted, rfl⟩ := step_worker h
    have hmax : max 1 (cfg i).maxAttempts ≤ limit := max_le hpositive (hlimit i)
    obtain ⟨before, hbefore, hrow⟩ := (Move.table_kept hmax hadmitted).backward hr
    rcases hrow.attempts with hsame | hle
    · rw [hsame]
      exact hs limit hpositive hlimit id before hbefore
    · exact hle

theorem step_owners (hs : OwnersMatch s.db)
    (hclean : CleanStep cfg s a) (h : step cfg s a = some t) : OwnersMatch t.db := by
  intro id r hr
  cases a with
  | enqueue key createdAt account =>
    obtain ⟨_, rfl⟩ := step_enqueue h
    rw [Dict.get?_set] at hr
    split at hr
    · cases hr
      exact ⟨rfl, rfl⟩
    · exact hs id r hr
  | worker i act =>
    obtain ⟨move, hmove, hadmitted, rfl⟩ := step_worker h
    obtain ⟨before, hbefore, hrow⟩ := (Move.table_kept (le_refl _) hadmitted).backward hr
    exact hrow.owner (hclean move hmove) (hs id before hbefore)

/-- A dead-lettered command keeps the owner it had. -/
theorem unclean_step_breaks_owners (hs : OwnersMatch s.db) (hunclean : ¬ CleanStep cfg s a) :
    ∃ t, step cfg s a = some t ∧ ¬ OwnersMatch t.db := by
  cases a with
  | enqueue key createdAt account => exact absurd trivial hunclean
  | worker i act =>
    simp only [CleanStep, not_forall, Move.Clean] at hunclean
    obtain ⟨move, hmove, ⟨statement, call⟩, hsent, htakes, hdirty⟩ := hunclean
    cases statement with
    | deadLetterExhausted now =>
      simp only [Statement.Clean, not_forall, not_not] at hdirty
      obtain ⟨id, r, hr, hexhausted, hclaimed⟩ := hdirty
      have hadmitted : move.Admitted (cfg i) s.db := by
        intro sent hmem
        cases Option.some.inj (hsent.symm.trans hmem)
        trivial
      have htable : move.table (cfg i) s.db = deadLetterExhausted s.db (cfg i).account
          (cfg i).maxAttempts now := by
        rw [Move.table, hsent]
        cases call with
        | raisesBeforeEffect error => cases htakes
        | returns => rfl
        | raisesAfterEffect error => rfl
      refine ⟨_, by rw [step, hmove, Option.bind_some, if_pos hadmitted], ?_⟩
      intro howners
      have hafter := howners id _ (by
        simp only [htable, deadLetterExhausted, Dict.get?_updateWhere, hr, Option.map_some,
          hexhausted, if_true]
        rfl)
      have hbefore := (hs id r hr).1
      rw [hclaimed] at hbefore
      have hfalse : true = false := hbefore.symm.trans hafter.1
      cases hfalse
    | resetExpiredClaims now => exact absurd trivial hdirty
    | deadLetterExpiredDispatches now => exact absurd trivial hdirty
    | claimLocked skip batch now => exact absurd trivial hdirty
    | markDispatched id => exact absurd trivial hdirty
    | heartbeat id now => exact absurd trivial hdirty
    | complete id completion now => exact absurd trivial hdirty

/-- The promises other than the owners hold in every state. -/
theorem run_executed_and_attempts {labels : List (Act ι)}
    (hrun : run (step cfg) System.initial labels = some s) :
    (∀ id, s.executed.count id ≤ 1) ∧ AttemptsBounded cfg s.db := by
  have hinv : AtMostOnce.Inv (view s) ∧ AttemptsBounded cfg s.db := by
    refine run_invariant (I := fun s => AtMostOnce.Inv (view s) ∧ AttemptsBounded cfg s.db)
      ?_ ⟨AtMostOnce.inv_initial (fun _ => rfl) rfl, ?_⟩ hrun
    · intro s a t hs hstep
      exact ⟨hs.1.step (step_view hstep), step_attempts hs.2 hstep⟩
    · intro limit _ _ id r hr
      cases hr
  exact ⟨hinv.1.logged_once, hinv.2⟩

/-- In every run of any workers the protocol keeps its promises in every state exactly
when no claim dead-letters a command that a worker still holds. -/
theorem commands_protocol_iff (cfg : ι → Config) (labels : List (Act ι)) :
    (∀ front back s, labels = front ++ back →
      run (step cfg) System.initial front = some s → Protocol cfg s) ↔
      Along (step cfg) (CleanStep cfg) System.initial labels := by
  constructor
  · intro hprotocol
    apply (along_iff_splits _ labels).mpr
    intro front a back s hlabels hrun
    by_contra hunclean
    have hs := (hprotocol front (a :: back) s hlabels hrun).owners
    obtain ⟨t, ht, hbroken⟩ := unclean_step_breaks_owners hs hunclean
    refine hbroken (hprotocol (front ++ [a]) back t ?_ ?_).owners
    · rw [hlabels, List.append_assoc, List.singleton_append]
    · rw [run_append, hrun, Option.bind_some, run, ht]
      rfl
  · intro hclean front back s hlabels hrun
    obtain ⟨hexecuted, hattempts⟩ := run_executed_and_attempts hrun
    refine ⟨hexecuted, hattempts, late_completions_ignored cfg s, ?_⟩
    refine run_invariant_along (fun s a t hs ha hstep => step_owners hs ha hstep) ?_
      (along_front (hlabels ▸ hclean)) hrun
    intro id r hr
    cases hr

end System

/-- Two workers of one account whose commands get one attempt. -/
def twinConfig (second : Bool) : Config where
  account := "demo"
  owner := ⟨if second then "b" else "a", "run"⟩
  batchSize := 20
  leaseSeconds := 30
  maxAttempts := 1

/-- The first worker holds its command until time 31; the second one polls, its first
statement at 30 and its third at 32. -/
def lateClaimActs : List (Act Bool) :=
  [.enqueue "c" 0 "demo", .worker false .start, .worker true .start, .worker false .poll,
    .worker false (.claimStatement .returns [] [] 1),
    .worker false (.claimStatement .returns [] [] 1),
    .worker false (.claimStatement .returns [] [] 1),
    .worker false (.claimStatement .returns [] ["c"] 1), .worker true .poll,
    .worker true (.claimStatement .returns [] [] 30),
    .worker true (.claimStatement .returns [] [] 31),
    .worker true (.claimStatement .returns [] [] 32)]

/-- The command is dead-lettered with its owner still in the row. -/
theorem dead_letter_keeps_owner :
    ¬ ∀ front back s, lateClaimActs = front ++ back →
      run (step twinConfig) System.initial front = some s → Protocol twinConfig s := by
  have hrow : (run (step twinConfig) System.initial lateClaimActs).map
      (fun s => (s.db.get? "c").map fun r => decide (OwnerMatches r)) = some (some false) := rfl
  obtain ⟨s, hs, hview⟩ := Option.map_eq_some_iff.mp hrow
  obtain ⟨r, hr, hmatches⟩ := Option.map_eq_some_iff.mp hview
  intro hprotocol
  exact of_decide_eq_false hmatches
    ((hprotocol lateClaimActs [] s (List.append_nil _).symm hs).owners "c" r hr)

end MT5Services.CommandConsumer
