import MT5Services.PyText
import MT5Services.Runs

/-!
The trade control: `TradeControlStateService` keeps the flags in memory, and its update
hook stores them. An update changes the memory first and calls the hook afterwards; the
consumer of `set_trade_control` commands then resets the circuit and records the action,
and reports a command as failed whatever raised. The gate before an entry reads the
memory alone.
-/
namespace MT5Services.TradeControl

open PyText Runs

abbrev Context := List (String × String)

/-- `TradeControlStateService._state`. -/
structure Control where
  autoEntryEnabled : Bool
  closeOnlyMode : Bool
  updatedAt : Option String
  reason : Option String
  actor : Option String
  actionId : Option String
  auditId : Option String
  idempotencyKey : Option String
  requestContext : Context
  deriving DecidableEq, Repr

def Control.initial : Control := ⟨true, false, none, none, none, none, none, none, []⟩

/-- The flags that the gate reads. -/
structure Flags where
  autoEntryEnabled : Bool
  closeOnlyMode : Bool
  deriving DecidableEq, Repr

def Control.flags (control : Control) : Flags := ⟨control.autoEntryEnabled, control.closeOnlyMode⟩

/-- The dictionary that `apply_state` reads. -/
structure StoredState where
  autoEntryEnabled : Option Bool
  closeOnlyMode : Option Bool
  updatedAt : Option String
  reason : Option String
  actor : Option String
  actionId : Option String
  auditId : Option String
  idempotencyKey : Option String
  requestContext : Option Context

def applyState (state : StoredState) : Control where
  autoEntryEnabled := state.autoEntryEnabled.getD true
  closeOnlyMode := state.closeOnlyMode.getD false
  updatedAt := state.updatedAt
  reason := stripOrNone state.reason
  actor := stripOrNone state.actor
  actionId := stripOrNone state.actionId
  auditId := stripOrNone state.auditId
  idempotencyKey := stripOrNone state.idempotencyKey
  requestContext := state.requestContext.getD []

/-- The arguments of `update`. -/
structure Update where
  autoEntryEnabled : Option Bool
  closeOnlyMode : Option Bool
  reason : Option String
  actor : Option String
  actionId : Option String
  auditId : Option String
  idempotencyKey : Option String
  requestContext : Option Context

/-- `update` up to the hook: a flag that is not given stays, everything else is replaced. -/
def Control.update (control : Control) (update : Update) (now : String) : Control where
  autoEntryEnabled := update.autoEntryEnabled.getD control.autoEntryEnabled
  closeOnlyMode := update.closeOnlyMode.getD control.closeOnlyMode
  updatedAt := some now
  reason := stripOrNone update.reason
  actor := stripOrNone update.actor
  actionId := stripOrNone update.actionId
  auditId := stripOrNone update.auditId
  idempotencyKey := stripOrNone update.idempotencyKey
  requestContext := update.requestContext.getD []

/-- The payload of an entry, as far as the gate reads it. -/
structure EntryPayload where
  metadata : Option (Option String)

def entryOrigin (payload : EntryPayload) : String :=
  match payload.metadata with
  | none => "manual"
  | some origin =>
    lower (strip (if origin.getD "" = "" then "manual" else origin.getD ""))

/-- `PreTradeRiskBlockedError` of the gate. -/
structure Blocked where
  message : String
  reason : String
  controlState : Control
  entryOrigin : String
  deriving DecidableEq, Repr

def enforce (control : Control) (payload : EntryPayload) : Except Blocked Unit :=
  if control.closeOnlyMode then
    .error ⟨"trade entry disabled: close_only_mode_enabled", "close_only_mode_enabled", control,
      entryOrigin payload⟩
  else if entryOrigin payload = "auto" ∧ control.autoEntryEnabled = false then
    .error ⟨"trade entry disabled: auto_entry_paused", "auto_entry_paused", control,
      entryOrigin payload⟩
  else .ok ()

/-- A row of `trade_control_state`. -/
structure TradeControlRecord where
  accountAlias : String
  accountKey : String
  autoEntryEnabled : Bool
  closeOnlyMode : Bool
  updatedAt : String
  reason : Option String
  actor : Option String
  actionId : Option String
  auditId : Option String
  idempotencyKey : Option String
  requestContext : Context
  deriving DecidableEq, Repr

/-- `sync_trade_control`, up to the write. -/
def tradeControlRecord (accountAlias accountKey now : String) (state : Control) :
    TradeControlRecord where
  accountAlias := accountAlias
  accountKey := accountKey
  autoEntryEnabled := state.autoEntryEnabled
  closeOnlyMode := state.closeOnlyMode
  updatedAt := state.updatedAt.getD now
  reason := stripOrNone state.reason
  actor := stripOrNone state.actor
  actionId := stripOrNone state.actionId
  auditId := stripOrNone state.auditId
  idempotencyKey := stripOrNone state.idempotencyKey
  requestContext := state.requestContext

/-- `fetch_trade_control_state`: the metadata of the row stands beside its columns. -/
def TradeControlRecord.load (record : TradeControlRecord) : StoredState where
  autoEntryEnabled := some record.autoEntryEnabled
  closeOnlyMode := some record.closeOnlyMode
  updatedAt := some record.updatedAt
  reason := record.reason
  actor := record.actor
  actionId := record.actionId
  auditId := record.auditId
  idempotencyKey := record.idempotencyKey
  requestContext := some record.requestContext

/-- A `set_trade_control` command. -/
structure Command where
  commandId : Option String
  actionId : Option String
  actor : Option String
  reason : Option String
  idempotencyKey : Option String
  requestContext : Context
  autoEntryEnabled : Option Bool
  closeOnlyMode : Option Bool
  resetCircuit : Bool
  deriving DecidableEq, Repr

/-- What the collaborators answer while the command is processed. -/
structure Replies where
  heartbeat : Except String Unit
  markDispatched : Except String Bool
  now : String
  writeState : Except String Unit
  projectRisk : Except String Unit
  resetCircuit : Except String Unit
  recordOperatorAction : Except String (Option String)

/-- How the process is wired. -/
structure Config where
  accountAlias : String
  accountKey : String
  hasUpdateHook : Bool
  hasTradeExecutor : Bool

/-- The control in memory, the last one that the hook took, and the stored row. -/
structure State where
  control : Control
  passed : Option Control
  stored : Option TradeControlRecord

/-- A process starts from the row that an earlier one stored, if there is one. -/
def State.start (stored : Option TradeControlRecord) : State where
  control := (stored.map fun record => applyState record.load).getD Control.initial
  passed := stored.map fun record => applyState record.load
  stored := stored

/-- The result of a command that was applied. -/
structure Applied where
  status : String
  message : String
  actionId : String
  tradeControl : Control
  auditId : String
  deriving DecidableEq, Repr

inductive CommandStatus
  | completed (response : Applied)
  | failed (error : String)
  | abandoned
  deriving DecidableEq, Repr

section Consumer

variable (cfg : Config) (replies : Replies)

/-- `action_id`, or else the command's own id. -/
def Command.action (command : Command) : String :=
  stripOr command.actionId (stripOr command.commandId "operator_command")

def Command.update (command : Command) : Update where
  autoEntryEnabled := command.autoEntryEnabled
  closeOnlyMode := command.closeOnlyMode
  reason := stripOrNone command.reason
  actor := some (stripOr command.actor "operator")
  actionId := some command.action
  auditId := some command.action
  idempotencyKey := stripOrNone command.idempotencyKey
  requestContext := some command.requestContext

/-- The projection hook: the row is written, then the risk state is projected. -/
def updateHook (s : State) (snapshot : Control) : State × Except String Unit :=
  match replies.writeState with
  | .error error => (s, .error error)
  | .ok () =>
    let written :=
      { s with
        stored := some (tradeControlRecord cfg.accountAlias cfg.accountKey replies.now snapshot) }
    match replies.projectRisk with
    | .error error => (written, .error error)
    | .ok () => ({ written with passed := some snapshot }, .ok ())

/-- `update`: the memory changes before the hook is called. -/
def update (s : State) (arguments : Update) : State × Except String Control :=
  let snapshot := s.control.update arguments replies.now
  let changed := { s with control := snapshot }
  if cfg.hasUpdateHook then
    match updateHook cfg replies changed snapshot with
    | (after, .ok ()) => (after, .ok snapshot)
    | (after, .error error) => (after, .error error)
  else (changed, .ok snapshot)

/-- What follows the update in `_execute_command`. -/
def finishCommand (command : Command) (tradeControl : Control) : Except String Applied := do
  if command.resetCircuit && cfg.hasTradeExecutor then
    replies.resetCircuit
  let operationId ← replies.recordOperatorAction
  return {
    status := "applied"
    message := "trade control updated"
    actionId := command.action
    tradeControl := tradeControl
    auditId := if operationId.getD "" = "" then command.action else operationId.getD "" }

def executeCommand (s : State) (command : Command) : State × Except String Applied :=
  match update cfg replies s command.update with
  | (after, .error error) => (after, .error error)
  | (after, .ok tradeControl) => (after, finishCommand cfg replies command tradeControl)

/-- `_process_command`, as far as the status of the command. -/
def processCommand (s : State) (command : Command) : State × CommandStatus :=
  match replies.heartbeat, replies.markDispatched with
  | .error error, _ => (s, .failed error)
  | .ok (), .error error => (s, .failed error)
  | .ok (), .ok false => (s, .abandoned)
  | .ok (), .ok true =>
    match executeCommand cfg replies s command with
    | (after, .ok response) => (after, .completed response)
    | (after, .error error) => (after, .failed error)

end Consumer

/-- A step processes one command, with the answers it meets. -/
def step (cfg : Config) (s : State) (label : Command × Replies) : Option State :=
  some (processCommand cfg label.2 s label.1).1

/-- The memory has the flags of the last control that the hook took. -/
def Agrees (s : State) : Prop := ∀ passed, s.passed = some passed → s.control.flags = passed.flags

/-- The hook stored the state and did not raise afterwards. -/
def Replies.HookReturns (replies : Replies) : Prop :=
  replies.writeState = .ok () ∧ replies.projectRisk = .ok ()

instance (replies : Replies) : Decidable replies.HookReturns :=
  inferInstanceAs (Decidable (_ ∧ _))

/-- Nothing raises after the update. -/
def Finishes (cfg : Config) (replies : Replies) (command : Command) : Prop :=
  ((command.resetCircuit && cfg.hasTradeExecutor) = true → replies.resetCircuit = .ok ()) ∧
    ∃ operationId, replies.recordOperatorAction = .ok operationId

/-- The flags are as before after a command that failed, and those of the last control that
the hook took after every command. -/
structure Kept (cfg : Config) (s : State) (label : Command × Replies) : Prop where
  failed : ∀ error, (processCommand cfg label.2 s label.1).2 = .failed error →
    (processCommand cfg label.2 s label.1).1.control.flags = s.control.flags
  agrees : Agrees (processCommand cfg label.2 s label.1).1

/-- A command that gets to the update and changes a flag meets a hook that returns, or no
hook and nothing passed to one before, and nothing raises afterwards. -/
def Safe (cfg : Config) (s : State) (label : Command × Replies) : Prop :=
  label.2.heartbeat = .ok () → label.2.markDispatched = .ok true →
    (s.control.update label.1.update label.2.now).flags ≠ s.control.flags →
    (if cfg.hasUpdateHook then label.2.HookReturns else s.passed = none) ∧
      Finishes cfg label.2 label.1

section Commands

variable {cfg : Config} {replies : Replies} {s : State} {command : Command}

theorem agrees_start (stored : Option TradeControlRecord) : Agrees (State.start stored) := by
  intro passed hpassed
  unfold State.start at *
  dsimp only at *
  rw [hpassed]
  rfl

theorem updateHook_returns (cfg : Config) (s : State) (snapshot : Control)
    (h : replies.HookReturns) :
    ∃ stored, updateHook cfg replies s snapshot =
      ({ s with passed := some snapshot, stored := stored }, .ok ()) := by
  unfold updateHook
  rw [h.1, h.2]
  exact ⟨_, rfl⟩

theorem updateHook_raises (cfg : Config) (s : State) (snapshot : Control)
    (h : ¬ replies.HookReturns) :
    ∃ stored error, updateHook cfg replies s snapshot =
      ({ s with stored := stored }, .error error) := by
  unfold updateHook
  cases hwrite : replies.writeState with
  | error error => exact ⟨_, error, rfl⟩
  | ok written =>
    cases hproject : replies.projectRisk with
    | error error => exact ⟨_, error, rfl⟩
    | ok projected => exact absurd ⟨hwrite, hproject⟩ h

/-- What an update does: the memory is changed, whether the hook takes it or raises. -/
theorem update_cases (cfg : Config) (replies : Replies) (s : State) (arguments : Update)
    {new : Control}
    (hnew : s.control.update arguments replies.now = new) :
    (cfg.hasUpdateHook = true ∧ replies.HookReturns ∧ ∃ stored,
      update cfg replies s arguments = (⟨new, some new, stored⟩, .ok new)) ∨
    (cfg.hasUpdateHook = true ∧ ¬ replies.HookReturns ∧ ∃ stored error,
      update cfg replies s arguments = (⟨new, s.passed, stored⟩, .error error)) ∨
    (cfg.hasUpdateHook = false ∧
      update cfg replies s arguments = (⟨new, s.passed, s.stored⟩, .ok new)) := by
  unfold update
  dsimp only
  rw [hnew]
  by_cases hhook : cfg.hasUpdateHook = true
  · rw [if_pos hhook]
    by_cases hreturns : replies.HookReturns
    · obtain ⟨stored, hupdate⟩ := updateHook_returns cfg { s with control := new } new hreturns
      rw [hupdate]
      exact Or.inl ⟨hhook, hreturns, stored, rfl⟩
    · obtain ⟨stored, error, hupdate⟩ :=
        updateHook_raises cfg { s with control := new } new hreturns
      rw [hupdate]
      exact Or.inr (Or.inl ⟨hhook, hreturns, stored, error, rfl⟩)
  · rw [if_neg hhook]
    exact Or.inr (Or.inr ⟨by simpa using hhook, rfl⟩)

/-- What follows the update raises unless everything in it returns. -/
theorem finishCommand_cases (cfg : Config) (replies : Replies) (command : Command)
    (tradeControl : Control) :
    (Finishes cfg replies command ∧
      ∃ response, finishCommand cfg replies command tradeControl = .ok response) ∨
    (¬ Finishes cfg replies command ∧
      ∃ error, finishCommand cfg replies command tradeControl = .error error) := by
  unfold finishCommand Finishes
  by_cases hreset : (command.resetCircuit && cfg.hasTradeExecutor) = true
  · rw [if_pos hreset]
    cases hcircuit : replies.resetCircuit with
    | error error =>
      refine Or.inr ⟨?_, error, rfl⟩
      intro hfinishes
      cases hfinishes.1 hreset
    | ok done =>
      cases hrecord : replies.recordOperatorAction with
      | error error =>
        refine Or.inr ⟨?_, error, rfl⟩
        rintro ⟨_, operationId, hreturned⟩
        cases hreturned
      | ok operationId => exact Or.inl ⟨⟨fun _ => rfl, operationId, rfl⟩, _, rfl⟩
  · rw [if_neg hreset]
    cases hrecord : replies.recordOperatorAction with
    | error error =>
      refine Or.inr ⟨?_, error, rfl⟩
      rintro ⟨_, operationId, hreturned⟩
      cases hreturned
    | ok operationId => exact Or.inl ⟨⟨fun h => absurd h hreset, operationId, rfl⟩, _, rfl⟩

/-- A command that does not get to its update changes nothing. -/
theorem processCommand_waits (cfg : Config) (s : State) (command : Command)
    (h : ¬ (replies.heartbeat = .ok () ∧ replies.markDispatched = .ok true)) :
    (processCommand cfg replies s command).1 = s := by
  unfold processCommand
  cases hheartbeat : replies.heartbeat with
  | error error => rfl
  | ok beaten =>
    cases hdispatched : replies.markDispatched with
    | error error => rfl
    | ok transitioned =>
      cases transitioned with
      | false => rfl
      | true => exact absurd ⟨hheartbeat, hdispatched⟩ h

theorem processCommand_executes (cfg : Config) (s : State) (command : Command)
    (hheartbeat : replies.heartbeat = .ok ())
    (hdispatched : replies.markDispatched = .ok true) :
    (processCommand cfg replies s command).1 = (executeCommand cfg replies s command).1 ∧
      ((∃ error, (processCommand cfg replies s command).2 = .failed error) ↔
        ∃ error, (executeCommand cfg replies s command).2 = .error error) := by
  unfold processCommand
  rw [hheartbeat, hdispatched]
  dsimp only
  split
  · rename_i heq
    rw [heq]
    refine ⟨rfl, ?_⟩
    simp
  · rename_i heq
    rw [heq]
    refine ⟨rfl, ?_⟩
    simp

/-- What an execution does: the memory is changed; the hook has taken the change, or it
raised, or there is none; and the command fails when something raised. -/
theorem executeCommand_cases (cfg : Config) (replies : Replies) (s : State) (command : Command)
    {new : Control} (hnew : s.control.update command.update replies.now = new) :
    (executeCommand cfg replies s command).1.control = new ∧
    (executeCommand cfg replies s command).1.passed =
      (if cfg.hasUpdateHook = true ∧ replies.HookReturns then some new else s.passed) ∧
    ((∃ error, (executeCommand cfg replies s command).2 = .error error) ↔
      ¬ ((cfg.hasUpdateHook = true → replies.HookReturns) ∧ Finishes cfg replies command)) := by
  have hfinish : (∃ error, finishCommand cfg replies command new = .error error) ↔
      ¬ Finishes cfg replies command := by
    rcases finishCommand_cases cfg replies command new with
      ⟨hfinishes, response, hok⟩ | ⟨hfinishes, error, herror⟩
    · rw [hok]
      simp [hfinishes]
    · rw [herror]
      simp [hfinishes]
  unfold executeCommand
  rcases update_cases cfg replies s command.update hnew with
    ⟨hhook, hreturns, stored, hupdate⟩ | ⟨hhook, hreturns, stored, error, hupdate⟩ |
    ⟨hhook, hupdate⟩
  · rw [hupdate, if_pos ⟨hhook, hreturns⟩]
    exact ⟨rfl, rfl, hfinish.trans (by simp [hreturns])⟩
  · rw [hupdate, if_neg fun h => hreturns h.2]
    exact ⟨rfl, rfl, by simp [hhook, hreturns]⟩
  · rw [hupdate, if_neg (by simp [hhook])]
    exact ⟨rfl, rfl, hfinish.trans (by simp [hhook])⟩

/-- What a command that gets to its update does. -/
theorem processCommand_cases (cfg : Config) (s : State) (command : Command) {new : Control}
    (hgo : replies.heartbeat = .ok () ∧ replies.markDispatched = .ok true)
    (hnew : s.control.update command.update replies.now = new) :
    (processCommand cfg replies s command).1.control = new ∧
    (processCommand cfg replies s command).1.passed =
      (if cfg.hasUpdateHook = true ∧ replies.HookReturns then some new else s.passed) ∧
    ((∃ error, (processCommand cfg replies s command).2 = .failed error) ↔
      ¬ ((cfg.hasUpdateHook = true → replies.HookReturns) ∧ Finishes cfg replies command)) := by
  obtain ⟨hstate, hstatus⟩ := processCommand_executes cfg s command hgo.1 hgo.2
  rw [hstate, hstatus]
  exact executeCommand_cases cfg replies s command hnew

/-- A command that changes no flag keeps them. -/
theorem kept_of_same (hagrees : Agrees s)
    (hgo : replies.heartbeat = .ok () ∧ replies.markDispatched = .ok true)
    (hsame : (s.control.update command.update replies.now).flags = s.control.flags) :
    Kept cfg s (command, replies) := by
  obtain ⟨hcontrol, hpassed, _⟩ := processCommand_cases cfg s command hgo rfl
  constructor
  · intro error _
    rw [hcontrol]
    exact hsame
  · intro passed htaken
    rw [hcontrol]
    rw [hpassed] at htaken
    split_ifs at htaken
    · rw [← Option.some.inj htaken]
    · exact hsame.trans (hagrees passed htaken)

/-- A command that changes a flag and keeps the flags is taken by the hook and finishes. -/
theorem safe_of_kept (hagrees : Agrees s) {label : Command × Replies} (hkept : Kept cfg s label) :
    Safe cfg s label := by
  obtain ⟨command, replies⟩ := label
  intro hheartbeat hdispatched hchanges
  obtain ⟨hcontrol, hpassed, hfails⟩ :=
    processCommand_cases cfg s command ⟨hheartbeat, hdispatched⟩ rfl
  have hreturns : (cfg.hasUpdateHook = true → replies.HookReturns) ∧
      Finishes cfg replies command := by
    by_contra hraises
    obtain ⟨error, hfailed⟩ := hfails.mpr hraises
    have hsame := hkept.failed error hfailed
    rw [hcontrol] at hsame
    exact hchanges hsame
  refine ⟨?_, hreturns.2⟩
  split_ifs with hhook
  · exact hreturns.1 hhook
  · by_contra hsome
    obtain ⟨passed, hbefore⟩ := Option.ne_none_iff_exists'.mp hsome
    have hafter := hkept.agrees passed
    rw [hpassed, if_neg fun h => hhook h.1, hcontrol] at hafter
    exact hchanges ((hafter hbefore).trans (hagrees passed hbefore).symm)

theorem kept_of_safe (hagrees : Agrees s) {label : Command × Replies} (hsafe : Safe cfg s label) :
    Kept cfg s label := by
  obtain ⟨command, replies⟩ := label
  by_cases hgo : replies.heartbeat = .ok () ∧ replies.markDispatched = .ok true
  · by_cases hsame : (s.control.update command.update replies.now).flags = s.control.flags
    · exact kept_of_same hagrees hgo hsame
    · obtain ⟨hcontrol, hpassed, hfails⟩ := processCommand_cases cfg s command hgo rfl
      obtain ⟨hhook, hfinishes⟩ := hsafe hgo.1 hgo.2 hsame
      constructor
      · intro error hfailed
        refine absurd ⟨?_, hfinishes⟩ (hfails.mp ⟨error, hfailed⟩)
        intro hpresent
        rwa [if_pos hpresent] at hhook
      · intro passed htaken
        rw [hcontrol]
        rw [hpassed] at htaken
        by_cases hpresent : cfg.hasUpdateHook = true
        · rw [if_pos hpresent] at hhook
          rw [if_pos ⟨hpresent, hhook⟩] at htaken
          rw [← Option.some.inj htaken]
        · rw [if_neg hpresent] at hhook
          rw [if_neg fun h => hpresent h.1, hhook] at htaken
          cases htaken
  · have hwaits := processCommand_waits cfg s command hgo
    constructor
    · intro error _
      exact congrArg (fun after => after.control.flags) hwaits
    · rw [hwaits]
      exact hagrees

/-- One command: the flags are kept exactly when the command is safe. -/
theorem kept_iff_safe (hagrees : Agrees s) (label : Command × Replies) :
    Kept cfg s label ↔ Safe cfg s label :=
  ⟨safe_of_kept hagrees, kept_of_safe hagrees⟩

end Commands

/-- Along a run from a stored row, every command keeps the flags if and only if every
command is safe. -/
theorem flags_kept_iff (cfg : Config) (stored : Option TradeControlRecord)
    (labels : List (Command × Replies)) :
    Agrees (State.start stored) ∧
      (Along (step cfg) (Kept cfg) (State.start stored) labels ↔
        Along (step cfg) (Safe cfg) (State.start stored) labels) := by
  refine ⟨agrees_start stored, ?_⟩
  constructor
  · apply along_of_invariant (I := Agrees)
    · intro s label t _ hkept hstep
      rw [← Option.some.inj hstep]
      exact hkept.agrees
    · intro s label hagrees hkept
      exact (kept_iff_safe hagrees label).mp hkept
    · exact agrees_start stored
  · apply along_of_invariant (I := Agrees)
    · intro s label t hagrees hsafe hstep
      rw [← Option.some.inj hstep]
      exact ((kept_iff_safe hagrees label).mpr hsafe).agrees
    · intro s label hagrees hsafe
      exact (kept_iff_safe hagrees label).mpr hsafe
    · exact agrees_start stored

/-- A command to close only, with a circuit to reset. -/
def closeOnlyCommand : Command where
  commandId := some "c1"
  actionId := some "a1"
  actor := none
  reason := none
  idempotencyKey := none
  requestContext := []
  autoEntryEnabled := none
  closeOnlyMode := some true
  resetCircuit := true

/-- The row cannot be written. -/
def unwritable : Replies where
  heartbeat := .ok ()
  markDispatched := .ok true
  now := "2026-01-05T12:00:00+00:00"
  writeState := .error "UNIQUE constraint failed"
  projectRisk := .ok ()
  resetCircuit := .ok ()
  recordOperatorAction := .ok none

def liveConfig : Config := ⟨"demo", "demo-1", true, true⟩

/-- A command whose state cannot be stored fails and leaves the gate closed. -/
theorem failed_command_closes_gate :
    ¬ ∀ (cfg : Config) (stored : Option TradeControlRecord) (labels : List (Command × Replies)),
      Along (step cfg) (Kept cfg) (State.start stored) labels := by
  intro hclaim
  have hkept := (hclaim liveConfig none [(closeOnlyCommand, unwritable)]).1
  exact absurd (hkept.failed "UNIQUE constraint failed" rfl) (by decide)

end MT5Services.TradeControl
