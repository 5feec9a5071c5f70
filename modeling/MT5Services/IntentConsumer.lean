import MT5Services.AtMostOnce
import MT5Services.ExecutionIntents
import MT5Services.Runs
import Mathlib.Data.List.Perm.Basic
import Mathlib.Logic.Function.Basic

/-!
`ExecutionIntentConsumer` workers over one `execution_intents` table. Each worker
is a program counter with its stop event and its lease renewers; a label names
the worker and says how its next call ends. A store call may raise with or
without its statement having taken effect, a worker may crash between any two
steps, and clocks are arbitrary. `invoked` logs every call of `process_event`.
-/
namespace MT5Services.IntentConsumer

open ExecutionIntents Runs

/-- A result of `process_event`, with its status text already stripped and
lower-cased. -/
inductive ResultStatus
  | blocked
  | skipped
  | failed
  | other
  deriving DecidableEq, Repr

inductive ExecutionResult
  | none
  | notDict
  | dict (status : ResultStatus) (errorCode : Option String)
  deriving DecidableEq, Repr

/-- The two fields of `TerminalExecutionOutcome` the consumer reads. -/
structure TerminalOutcome where
  status : Status
  errorCode : Option String
  terminal : status.terminal = true

def interpretTerminalResult : ExecutionResult → TerminalOutcome
  | .none => ⟨.skipped, none, rfl⟩
  | .notDict => ⟨.completed, none, rfl⟩
  | .dict .blocked errorCode => ⟨.skipped, errorCode, rfl⟩
  | .dict .skipped errorCode => ⟨.skipped, errorCode, rfl⟩
  | .dict .failed errorCode => ⟨.failed, errorCode, rfl⟩
  | .dict .other _ => ⟨.completed, none, rfl⟩

/-- What the consumer hands to `_safe_complete`. -/
structure Completion where
  status : Status
  lastErrorCode : Option String
  terminal : status.terminal = true

def completionOfResult (result : ExecutionResult) : Completion where
  status := (interpretTerminalResult result).status
  lastErrorCode :=
    if (interpretTerminalResult result).status = .failed then
      (interpretTerminalResult result).errorCode
    else none
  terminal := (interpretTerminalResult result).terminal

def completionOfError (error : String) : Completion := ⟨.failed, some error, rfl⟩

/-- How a call of the store ends for its caller. -/
inductive Call
  | returns
  | raisesAfterEffect (error : String)
  | raisesBeforeEffect (error : String)
  deriving DecidableEq, Repr

namespace Call

def error? : Call → Option String
  | returns => none
  | raisesAfterEffect error => some error
  | raisesBeforeEffect error => some error

def effect (call : Call) (before after : Table) : Table :=
  match call with
  | raisesBeforeEffect _ => before
  | _ => after

theorem effect_follows (call : Call) {before after : Table} (h : TableFollows before after) :
    TableFollows before (call.effect before after) := by
  cases call with
  | returns => exact h
  | raisesAfterEffect error => exact h
  | raisesBeforeEffect error => exact tableFollows_refl before

end Call

inductive ClaimStage
  | reset
  | deadLetterDispatched
  | deadLetterExhausted
  | lock
  deriving DecidableEq, Repr

/-- Where a worker thread stands; `rest` is what is left of its batch. -/
inductive Pc
  | stopped
  | crashed
  | idle
  | claiming (now : ℤ) (stage : ClaimStage)
  | batch (rest : List String)
  | beating (id : String) (rest : List String)
  | decoding (id : String) (rest : List String)
  | marking (id : String) (rest : List String)
  | marked (id : String) (rest : List String)
  | executing (id : String) (rest : List String)
  | completing (id : String) (rest : List String) (completion : Completion) (failing : Bool)
  | emitting (id : String) (rest : List String) (failing : Bool)

/-- The intent a worker may still pass to `process_event`. -/
def Pc.markedId : Pc → Option String
  | marked id _ => some id
  | _ => none

structure Config where
  account : String
  owner : Owner
  batchSize : ℤ
  leaseSeconds : ℤ
  maxAttempts : ℤ

structure Worker where
  pc : Pc
  stopEvent : Bool
  renewers : List String

def Worker.initial : Worker := ⟨.stopped, false, []⟩

inductive WorkerAct
  | start
  | requestStop
  | crash
  | poll (now : ℤ)
  | claimStatement (call : Call) (skip batch : List String)
  | leaveLoop
  | loopRaises
  | nextItem
  | heartbeat (call : Call) (now : ℤ)
  | decode (error : Option String)
  | mark (call : Call)
  | processEvent
  | processReturns (result : ExecutionResult)
  | processRaises (error : String)
  | complete (call : Call) (now : ℤ)
  | emitTerminal (error : Option String)
  | renew (id : String) (call : Call) (now : ℤ)
  | endRenewer (id : String)

/-- The effect of one worker step on the table, the worker and the log. -/
structure Effect where
  db : Table
  worker : Worker
  invoked : Option String

def Worker.goto (w : Worker) (pc : Pc) : Worker := { w with pc := pc }

/-- A step that neither writes the table nor calls the executor. -/
def silent (db : Table) (w : Worker) : Effect := ⟨db, w, none⟩

/-- The statement of the claim at this stage and where the worker goes after it.
The returned batch is the locked rows in any order. -/
def claimStatement (cfg : Config) (db : Table) (now : ℤ) (skip batch : List String) :
    ClaimStage → Option (Table × Pc)
  | .reset => some (resetExpiredClaims db cfg.account now, .claiming now .deadLetterDispatched)
  | .deadLetterDispatched =>
    some (deadLetterExpiredDispatches db cfg.account now, .claiming now .deadLetterExhausted)
  | .deadLetterExhausted =>
    some (deadLetterExhausted db cfg.account cfg.maxAttempts now, .claiming now .lock)
  | .lock =>
    if batch.Perm (lockPending db cfg.account cfg.maxAttempts cfg.batchSize skip) then
      some (claimLocked db batch cfg.owner cfg.leaseSeconds now, .batch batch)
    else none

/-- The exception path of `_process_intent`. -/
def failing (id : String) (rest : List String) (error : String) : Pc :=
  .completing id rest (completionOfError error) true

def workerStep (cfg : Config) (db : Table) (w : Worker) : WorkerAct → Option Effect
  | .start =>
    match w.pc with
    | .stopped => some (silent db ⟨.idle, false, w.renewers⟩)
    | .crashed => none
    | _ => some (silent db w)
  | .requestStop => some (silent db { w with stopEvent := true })
  | .crash => some (silent db ⟨.crashed, w.stopEvent, []⟩)
  | .poll now =>
    match w.pc with
    | .idle => if w.stopEvent then none else some (silent db (w.goto (.claiming now .reset)))
    | _ => none
  | .claimStatement call skip batch =>
    match w.pc with
    | .claiming now stage =>
      (claimStatement cfg db now skip batch stage).map fun done =>
        ⟨call.effect db done.1, w.goto (if call.error?.isNone then done.2 else .idle), none⟩
    | _ => none
  | .leaveLoop =>
    match w.pc with
    | .idle => if w.stopEvent then some (silent db (w.goto .stopped)) else none
    | .batch _ => if w.stopEvent then some (silent db (w.goto .idle)) else none
    | _ => none
  | .loopRaises =>
    match w.pc with
    | .batch _ => some (silent db (w.goto .idle))
    | _ => none
  | .nextItem =>
    match w.pc with
    | .batch [] => some (silent db (w.goto .idle))
    | .batch (id :: rest) =>
      if w.stopEvent then none
      else some (silent db ⟨.beating id rest, w.stopEvent, id :: w.renewers⟩)
    | _ => none
  | .heartbeat call now =>
    match w.pc with
    | .beating id rest =>
      some ⟨call.effect db (heartbeatExecutionIntent db id cfg.owner cfg.leaseSeconds now),
        w.goto (call.error?.elim (.decoding id rest) (failing id rest)), none⟩
    | _ => none
  | .decode error =>
    match w.pc with
    | .decoding id rest =>
      some (silent db (w.goto (error.elim (.marking id rest) (failing id rest))))
    | _ => none
  | .mark call =>
    match w.pc with
    | .marking id rest =>
      let (after, transitioned) := markIntentDispatched db id cfg.owner
      some ⟨call.effect db after,
        w.goto (call.error?.elim (if transitioned then .marked id rest else .batch rest)
          (failing id rest)), none⟩
    | _ => none
  | .processEvent =>
    match w.pc with
    | .marked id rest => some ⟨db, w.goto (.executing id rest), some id⟩
    | _ => none
  | .processReturns result =>
    match w.pc with
    | .executing id rest =>
      some (silent db (w.goto (.completing id rest (completionOfResult result) false)))
    | _ => none
  | .processRaises error =>
    match w.pc with
    | .executing id rest => some (silent db (w.goto (failing id rest error)))
    | _ => none
  | .complete call now =>
    match w.pc with
    | .completing id rest completion onError =>
      some ⟨call.effect db (completeExecutionIntent db id completion.status cfg.owner
          completion.lastErrorCode now).1,
        w.goto (.emitting id rest onError), none⟩
    | _ => none
  | .emitTerminal error =>
    match w.pc, error with
    | .emitting _ rest _, none => some (silent db (w.goto (.batch rest)))
    | .emitting id rest false, some error => some (silent db (w.goto (failing id rest error)))
    | .emitting _ _ true, some _ => some (silent db (w.goto .idle))
    | _, _ => none
  | .renew id call now =>
    if id ∈ w.renewers then
      some ⟨call.effect db (heartbeatExecutionIntent db id cfg.owner cfg.leaseSeconds now),
        w, none⟩
    else none
  | .endRenewer id => some (silent db { w with renewers := w.renewers.erase id })

/-- What a worker step can do: leave the executor alone with no new marked
intent, win the compare-and-set, or call the executor on its marked intent. -/
inductive EffectKind (db : Table) (w : Worker) (effect : Effect) : Prop
  | quiet (hfollows : TableFollows db effect.db) (hinvoked : effect.invoked = none)
      (hmarked : effect.worker.pc.markedId = none ∨
        effect.worker.pc.markedId = w.pc.markedId)
  | won (id : String) (hfollows : TableFollows db effect.db) (hinvoked : effect.invoked = none)
      (hmarked : effect.worker.pc.markedId = some id) (hbefore : ¬ SettledIn db id)
      (hafter : SettledIn effect.db id)
  | called (id : String) (hdb : effect.db = db) (hinvoked : effect.invoked = some id)
      (hbefore : w.pc.markedId = some id) (hafter : effect.worker.pc.markedId = none)

theorem silent_kind {db : Table} {w next : Worker} {effect : Effect}
    (h : silent db next = effect)
    (hmarked : next.pc.markedId = none ∨ next.pc.markedId = w.pc.markedId) :
    EffectKind db w effect := by
  subst h
  exact .quiet (tableFollows_refl db) rfl hmarked

theorem claimStatement_spec (cfg : Config) (db : Table) (now : ℤ) (skip batch : List String)
    (stage : ClaimStage) (done : Table × Pc)
    (h : claimStatement cfg db now skip batch stage = some done) :
    TableFollows db done.1 ∧ done.2.markedId = none := by
  cases stage with
  | reset =>
    cases Option.some.inj h
    exact ⟨resetExpiredClaims_follows _ _ _, rfl⟩
  | deadLetterDispatched =>
    cases Option.some.inj h
    exact ⟨deadLetterExpiredDispatches_follows _ _ _, rfl⟩
  | deadLetterExhausted =>
    cases Option.some.inj h
    exact ⟨deadLetterExhausted_follows _ _ _ _, rfl⟩
  | lock =>
    simp only [claimStatement, Option.ite_none_right_eq_some, Option.some.injEq] at h
    obtain ⟨hperm, rfl⟩ := h
    refine ⟨claimLocked_follows _ _ _ _ _ ?_, rfl⟩
    intro id r hid hr
    exact pending_of_mem_lockPending db _ _ _ skip id r (hperm.mem_iff.mp hid) hr

theorem mark_kind (cfg : Config) (db : Table) (w : Worker) (id : String) (rest : List String)
    (call : Call) :
    EffectKind db w ⟨call.effect db (markIntentDispatched db id cfg.owner).1,
      w.goto (call.error?.elim
        (if (markIntentDispatched db id cfg.owner).2 then .marked id rest else .batch rest)
        (failing id rest)), none⟩ := by
  have hfollows := call.effect_follows (markIntentDispatched_follows db id cfg.owner)
  cases call with
  | raisesAfterEffect error => exact .quiet hfollows rfl (Or.inl rfl)
  | raisesBeforeEffect error => exact .quiet hfollows rfl (Or.inl rfl)
  | returns =>
    cases hwon : (markIntentDispatched db id cfg.owner).2 with
    | false => exact .quiet hfollows rfl (Or.inl rfl)
    | true =>
      obtain ⟨r, r', hr, hclaimed, hr', hdispatched⟩ :=
        markIntentDispatched_won db id cfg.owner hwon
      refine .won id hfollows rfl rfl ?_ ⟨r', hr', Or.inl hdispatched⟩
      rintro ⟨row, hrow, hsettled⟩
      cases Option.some.inj (hr.symm.trans hrow)
      simp [Status.Settled, hclaimed, Status.terminal] at hsettled

section Kinds

variable {cfg : Config} {db : Table} {w : Worker} {effect : Effect} {now : ℤ} {call : Call}

theorem start_kind (h : workerStep cfg db w .start = some effect) : EffectKind db w effect := by
  obtain ⟨pc, stopEvent, renewers⟩ := w
  cases pc
  case crashed => cases h
  all_goals exact silent_kind (Option.some.inj h) (Or.inr rfl)

theorem poll_kind (h : workerStep cfg db w (.poll now) = some effect) :
    EffectKind db w effect := by
  obtain ⟨pc, stopEvent, renewers⟩ := w
  cases pc
  case idle =>
    obtain ⟨_, h⟩ := Option.ite_none_left_eq_some.mp h
    exact silent_kind (Option.some.inj h) (Or.inl rfl)
  all_goals cases h

theorem claimStatement_kind {skip batch : List String}
    (h : workerStep cfg db w (.claimStatement call skip batch) = some effect) :
    EffectKind db w effect := by
  obtain ⟨pc, stopEvent, renewers⟩ := w
  cases pc
  case claiming now stage =>
    simp only [workerStep, Option.map_eq_some_iff] at h
    obtain ⟨done, hdone, rfl⟩ := h
    obtain ⟨hfollows, hmarked⟩ := claimStatement_spec cfg db now skip batch stage done hdone
    refine .quiet (call.effect_follows hfollows) rfl (Or.inl ?_)
    simp only [Worker.goto]
    split
    · exact hmarked
    · rfl
  all_goals cases h

theorem leaveLoop_kind (h : workerStep cfg db w .leaveLoop = some effect) :
    EffectKind db w effect := by
  obtain ⟨pc, stopEvent, renewers⟩ := w
  cases pc
  case idle =>
    obtain ⟨_, h⟩ := Option.ite_none_right_eq_some.mp h
    exact silent_kind (Option.some.inj h) (Or.inl rfl)
  case batch rest =>
    obtain ⟨_, h⟩ := Option.ite_none_right_eq_some.mp h
    exact silent_kind (Option.some.inj h) (Or.inl rfl)
  all_goals cases h

theorem nextItem_kind (h : workerStep cfg db w .nextItem = some effect) :
    EffectKind db w effect := by
  obtain ⟨pc, stopEvent, renewers⟩ := w
  cases pc
  case batch rest =>
    cases rest with
    | nil => exact silent_kind (Option.some.inj h) (Or.inl rfl)
    | cons id rest =>
      obtain ⟨_, h⟩ := Option.ite_none_left_eq_some.mp h
      exact silent_kind (Option.some.inj h) (Or.inl rfl)
  all_goals cases h

theorem heartbeat_kind (h : workerStep cfg db w (.heartbeat call now) = some effect) :
    EffectKind db w effect := by
  obtain ⟨pc, stopEvent, renewers⟩ := w
  cases pc
  case beating id rest =>
    cases Option.some.inj h
    refine .quiet (call.effect_follows (heartbeatExecutionIntent_follows _ _ _ _ _)) rfl ?_
    left
    cases call <;> rfl
  all_goals cases h

theorem decode_kind {error : Option String}
    (h : workerStep cfg db w (.decode error) = some effect) : EffectKind db w effect := by
  obtain ⟨pc, stopEvent, renewers⟩ := w
  cases pc
  case decoding id rest =>
    refine silent_kind (Option.some.inj h) (Or.inl ?_)
    cases error <;> rfl
  all_goals cases h

theorem complete_kind (h : workerStep cfg db w (.complete call now) = some effect) :
    EffectKind db w effect := by
  obtain ⟨pc, stopEvent, renewers⟩ := w
  cases pc
  case completing id rest completion onError =>
    cases Option.some.inj h
    exact .quiet (call.effect_follows
      (completeExecutionIntent_follows _ _ _ _ _ _ completion.terminal)) rfl (Or.inl rfl)
  all_goals cases h

theorem emitTerminal_kind {error : Option String}
    (h : workerStep cfg db w (.emitTerminal error) = some effect) : EffectKind db w effect := by
  obtain ⟨pc, stopEvent, renewers⟩ := w
  cases pc
  case emitting id rest onError =>
    cases error with
    | none => exact silent_kind (Option.some.inj h) (Or.inl rfl)
    | some error =>
      cases onError with
      | false => exact silent_kind (Option.some.inj h) (Or.inl rfl)
      | true => exact silent_kind (Option.some.inj h) (Or.inl rfl)
  all_goals cases h

theorem renew_kind {id : String} (h : workerStep cfg db w (.renew id call now) = some effect) :
    EffectKind db w effect := by
  obtain ⟨_, h⟩ := Option.ite_none_right_eq_some.mp h
  cases Option.some.inj h
  exact .quiet (call.effect_follows (heartbeatExecutionIntent_follows _ _ _ _ _)) rfl
    (Or.inr rfl)

theorem workerStep_kind {act : WorkerAct} (h : workerStep cfg db w act = some effect) :
    EffectKind db w effect := by
  cases act with
  | start => exact start_kind h
  | requestStop => exact silent_kind (Option.some.inj h) (Or.inr rfl)
  | crash => exact silent_kind (Option.some.inj h) (Or.inl rfl)
  | poll now => exact poll_kind h
  | claimStatement call skip batch => exact claimStatement_kind h
  | leaveLoop => exact leaveLoop_kind h
  | loopRaises =>
    obtain ⟨pc, stopEvent, renewers⟩ := w
    cases pc
    case batch rest => exact silent_kind (Option.some.inj h) (Or.inl rfl)
    all_goals cases h
  | nextItem => exact nextItem_kind h
  | heartbeat call now => exact heartbeat_kind h
  | decode error => exact decode_kind h
  | mark call =>
    obtain ⟨pc, stopEvent, renewers⟩ := w
    cases pc
    case marking id rest =>
      cases Option.some.inj h
      exact mark_kind cfg db _ id rest call
    all_goals cases h
  | processEvent =>
    obtain ⟨pc, stopEvent, renewers⟩ := w
    cases pc
    case marked id rest =>
      cases Option.some.inj h
      exact .called id rfl rfl rfl rfl
    all_goals cases h
  | processReturns result =>
    obtain ⟨pc, stopEvent, renewers⟩ := w
    cases pc
    case executing id rest => exact silent_kind (Option.some.inj h) (Or.inl rfl)
    all_goals cases h
  | processRaises error =>
    obtain ⟨pc, stopEvent, renewers⟩ := w
    cases pc
    case executing id rest => exact silent_kind (Option.some.inj h) (Or.inl rfl)
    all_goals cases h
  | complete call now => exact complete_kind h
  | emitTerminal error => exact emitTerminal_kind h
  | renew id call now => exact renew_kind h
  | endRenewer id => exact silent_kind (Option.some.inj h) (Or.inr rfl)

end Kinds

structure System (ι : Type*) where
  db : Table
  workers : ι → Worker
  invoked : List String

inductive Act (ι : Type*)
  | publish (id : String) (createdAt : ℤ) (targetAccountKey : String)
  | worker (i : ι) (act : WorkerAct)

section System

variable {ι : Type*} [DecidableEq ι]

/-- No worker thread runs yet; the table may already hold any rows. -/
def System.initial (db : Table) : System ι := ⟨db, fun _ => Worker.initial, []⟩

/-- Publishing inserts a pending row under a new identifier. -/
def step (cfg : ι → Config) (s : System ι) : Act ι → Option (System ι)
  | .publish id createdAt account =>
    if s.db.contains id then none
    else some { s with db := s.db.set id (Row.published createdAt account) }
  | .worker i act =>
    (workerStep (cfg i) s.db (s.workers i) act).map fun effect =>
      { db := effect.db
        workers := Function.update s.workers i effect.worker
        invoked := s.invoked ++ effect.invoked.toList }

/-- A marked or logged intent is settled in the table, a marked intent belongs
to one worker and is not logged yet, and no intent is logged twice. -/
structure Inv (s : System ι) : Prop where
  logged_once : ∀ id, s.invoked.count id ≤ 1
  logged_settled : ∀ id ∈ s.invoked, SettledIn s.db id
  marked_settled : ∀ i id, (s.workers i).pc.markedId = some id → SettledIn s.db id
  marked_not_logged : ∀ i id, (s.workers i).pc.markedId = some id → id ∉ s.invoked
  marked_once : ∀ i j id, (s.workers i).pc.markedId = some id →
    (s.workers j).pc.markedId = some id → i = j

omit [DecidableEq ι] in
theorem inv_initial (db : Table) : Inv (System.initial db : System ι) := by
  refine ⟨?_, ?_, ?_, ?_, ?_⟩
  · intro id
    exact Nat.zero_le 1
  · intro id hid
    cases hid
  · intro i id hid
    cases hid
  · intro i id hid
    cases hid
  · intro i j id hid
    cases hid

/-- What the at-most-once argument sees of the system. -/
def view (s : System ι) : AtMostOnce.View ι String where
  settled := SettledIn s.db
  marked := fun i => (s.workers i).pc.markedId
  log := s.invoked

omit [DecidableEq ι] in
theorem inv_iff_view (s : System ι) : Inv s ↔ AtMostOnce.Inv (view s) := by
  constructor
  · rintro ⟨honce, hlogged, hmarked, hfresh, hsingle⟩
    exact ⟨honce, hlogged, hmarked, hfresh, hsingle⟩
  · rintro ⟨honce, hlogged, hmarked, hfresh, hsingle⟩
    exact ⟨honce, hlogged, hmarked, hfresh, hsingle⟩

theorem publish_follows (db : Table) (id : String) (row : Row) (h : db.contains id = false) :
    TableFollows db (db.set id row) := by
  intro key r hr
  have hne : key ≠ id := by
    rintro rfl
    simp [Dict.contains, hr] at h
  exact ⟨r, by rw [Dict.get?_set, if_neg hne, hr], Status.follows_refl _⟩

theorem step_publish (cfg : ι → Config) (s t : System ι) (id account : String) (createdAt : ℤ)
    (h : step cfg s (.publish id createdAt account) = some t) :
    s.db.contains id = false ∧
      t = { s with db := s.db.set id (Row.published createdAt account) } := by
  simp only [step, Option.ite_none_left_eq_some, Option.some.injEq] at h
  exact ⟨by simpa using h.1, h.2.symm⟩

theorem step_worker (cfg : ι → Config) (s t : System ι) (i : ι) (act : WorkerAct)
    (h : step cfg s (.worker i act) = some t) :
    ∃ effect, EffectKind s.db (s.workers i) effect ∧
      t = { db := effect.db
            workers := Function.update s.workers i effect.worker
            invoked := s.invoked ++ effect.invoked.toList } := by
  obtain ⟨effect, heffect, rfl⟩ := Option.map_eq_some_iff.mp h
  exact ⟨effect, workerStep_kind heffect, rfl⟩

/-- Every step is one the at-most-once argument knows. -/
theorem step_view (cfg : ι → Config) (s : System ι) (a : Act ι) (t : System ι)
    (h : step cfg s a = some t) : AtMostOnce.Step (view s) (view t) := by
  cases a with
  | publish id createdAt account =>
    obtain ⟨hnew, rfl⟩ := step_publish cfg s t id account createdAt h
    have hfollows := publish_follows s.db id (Row.published createdAt account) hnew
    exact .quiet (fun key hkey => hkey.follows hfollows) (fun i key hkey => hkey) rfl
  | worker i act =>
    obtain ⟨⟨db, w, invoked⟩, hkind, rfl⟩ := step_worker cfg s t i act h
    have hmarks : (fun j => (Function.update s.workers i w j).pc.markedId) =
        Function.update (fun j => (s.workers j).pc.markedId) i w.pc.markedId :=
      Function.comp_update (fun w : Worker => w.pc.markedId) s.workers i w
    cases hkind with
    | quiet hfollows hinvoked hmarked =>
      cases hinvoked
      exact .of_update i (fun key hkey => hkey.follows hfollows) hmarks hmarked (by simp [view])
    | won id hfollows hinvoked hmarked hbefore hafter =>
      cases hinvoked
      refine .won i id (fun key hkey => hkey.follows hfollows) ?_ (by simp [view]) hbefore hafter
      rw [← hmarked]
      exact hmarks
    | called id hdb hinvoked hbefore hafter =>
      cases hdb
      cases hinvoked
      refine .ran i id (fun key hkey => hkey) ?_ rfl hbefore
      rw [← hafter]
      exact hmarks

theorem step_inv (cfg : ι → Config) (s : System ι) (a : Act ι) (t : System ι) (hs : Inv s)
    (h : step cfg s a = some t) : Inv t := by
  rw [inv_iff_view] at hs ⊢
  exact hs.step (step_view cfg s a t h)

theorem step_follows (cfg : ι → Config) (s : System ι) (a : Act ι) (t : System ι)
    (h : step cfg s a = some t) : TableFollows s.db t.db := by
  cases a with
  | publish id createdAt account =>
    obtain ⟨hnew, rfl⟩ := step_publish cfg s t id account createdAt h
    exact publish_follows s.db id _ hnew
  | worker i act =>
    obtain ⟨⟨db, w, invoked⟩, hkind, rfl⟩ := step_worker cfg s t i act h
    cases hkind with
    | quiet hfollows _ _ => exact hfollows
    | won id hfollows _ _ _ _ => exact hfollows
    | called id hdb _ _ _ =>
      cases hdb
      exact tableFollows_refl s.db

/-- In every run of any workers over any table, each row reaches the executor at
most once; along every continuation a dispatched row stays dispatched until it
is terminal, and a terminal status is kept. -/
theorem intents_execute_at_most_once (cfg : ι → Config) (db : Table) (labels : List (Act ι))
    (s : System ι) (hrun : run (step cfg) (System.initial db) labels = some s) :
    (∀ id, s.invoked.count id ≤ 1) ∧
      ∀ later t, run (step cfg) s later = some t → ∀ id r, s.db.get? id = some r →
        ∃ r', t.db.get? id = some r' ∧
          (r.status = .dispatched → r'.status ≠ .pending ∧ r'.status ≠ .claimed) ∧
          (r.status.terminal = true → r'.status = r.status) := by
  have hinv : Inv s := run_invariant (step_inv cfg) (inv_initial db) hrun
  refine ⟨hinv.logged_once, ?_⟩
  intro later t hlater id r hr
  have hfollows : TableFollows s.db t.db :=
    run_related (fun u => tableFollows_refl u.db)
      (fun u v w => tableFollows_trans u.db v.db w.db)
      (step_inv cfg) (fun u a v _ hstep => step_follows cfg u a v hstep) hinv hlater
  obtain ⟨r', hr', hstatus⟩ := hfollows id r hr
  refine ⟨r', hr', ?_, hstatus.2⟩
  intro hdispatched
  rcases hstatus.1 hdispatched with hsame | hterminal
  · simp [hsame]
  · constructor
    · intro hpending
      simp [hpending, Status.terminal] at hterminal
    · intro hclaimed
      simp [hclaimed, Status.terminal] at hterminal

end System

/-- Two workers of one account. -/
def twinConfig (second : Bool) : Config where
  account := "demo"
  owner := ⟨if second then "b" else "a", "run"⟩
  batchSize := 20
  leaseSeconds := 30
  maxAttempts := 5

def claimActs (second : Bool) (now : ℤ) (batch : List String) : List (Act Bool) :=
  .worker second (.poll now) ::
    List.replicate 4 (.worker second (.claimStatement .returns [] batch))

/-- The first worker stalls in the executor past its lease, the second one polls
and dead-letters the row, and the first one completes too late. -/
def takeoverActs : List (Act Bool) :=
  [.publish "i" 0 "demo", .worker false .start, .worker true .start] ++
    claimActs false 1 ["i"] ++
    [.worker false .nextItem, .worker false (.heartbeat .returns 2), .worker false (.decode none),
      .worker false (.mark .returns), .worker false .processEvent]

def lateActs : List (Act Bool) :=
  claimActs true 100 [] ++
    [.worker false (.processReturns .notDict), .worker false (.complete .returns 101)]

def statusOf (s : System Bool) (id : String) : Option Status := (s.db.get? id).map Row.status

theorem intents_execute_at_most_once_takeover :
    ∃ s t, run (step twinConfig) (System.initial Dict.empty) takeoverActs = some s ∧
      run (step twinConfig) s lateActs = some t ∧
      s.invoked = ["i"] ∧ statusOf s "i" = some .dispatched ∧
      statusOf t "i" = some .deadLettered ∧ s.invoked.count "i" ≤ 1 ∧
      ∃ r', t.db.get? "i" = some r' ∧ r'.status ≠ .pending ∧ r'.status ≠ .claimed := by
  have hfirst : (run (step twinConfig) (System.initial Dict.empty) takeoverActs).map
      (fun s => (s.invoked, statusOf s "i")) = some (["i"], some .dispatched) := rfl
  have hboth : (run (step twinConfig) (System.initial Dict.empty)
      (takeoverActs ++ lateActs)).map (fun t => statusOf t "i") =
        some (some .deadLettered) := rfl
  obtain ⟨s, hs, hseen⟩ := Option.map_eq_some_iff.mp hfirst
  obtain ⟨hinvoked, hstatus⟩ := Prod.mk.inj hseen
  rw [run_append, hs, Option.bind_some] at hboth
  obtain ⟨t, ht, hlate⟩ := Option.map_eq_some_iff.mp hboth
  obtain ⟨hcount, hlater⟩ :=
    intents_execute_at_most_once twinConfig Dict.empty takeoverActs s hs
  obtain ⟨r, hr, hdispatched⟩ := Option.map_eq_some_iff.mp hstatus
  obtain ⟨r', hr', hkept, _⟩ := hlater lateActs t ht "i" r hr
  exact ⟨s, t, hs, ht, hinvoked, hstatus, hlate, hcount "i", r', hr', hkept hdispatched⟩

end MT5Services.IntentConsumer
