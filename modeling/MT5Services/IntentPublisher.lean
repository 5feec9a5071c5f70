import MT5Services.BacktestDecisions
import MT5Services.ExecutionIntents
import MT5Services.KeyedBatches
import MT5Services.PyText
import MT5Services.Runs
import Mathlib.Data.List.Infix

/-!
`ExecutionIntentPublisher.on_signal_event` and the transaction of
`write_intents_with_idempotency`: for each account bound to the strategy a ledger key is
reserved and, when it is new, a row of `execution_intents` inserted. The events are looked
up afterwards in a dictionary keyed by `intent_key`, in which a later account overwrites
an earlier one with the same key. The publisher has an event bus.
-/
namespace MT5Services.IntentPublisher

open PyText Runs KeyedBatches
open BacktestDecisions (DeploymentStatus StrategyDeployment)
open ExecutionIntents (Row)

/-- The environments that `normalize_environment` admits. -/
inductive Environment
  | live
  | demo
  deriving DecidableEq, Repr

def Environment.text : Environment → String
  | live => "live"
  | demo => "demo"

structure MT5Settings where
  accountAlias : String
  mt5Login : Option ℤ
  mt5Server : Option String
  deriving DecidableEq, Repr

/-- `build_account_key`; a login of zero is no login. -/
def buildAccountKey (environment : Environment) (account : MT5Settings) : String :=
  let server := match account.mt5Server with
    | none | some "" => "unknown-server"
    | some server => if lower (strip server) = "" then "unknown-server" else lower (strip server)
  let login := match account.mt5Login with
    | none | some 0 => "unknown-login"
    | some login => toString login
  environment.text ++ ":" ++ server ++ ":" ++ login

def allowsDemoValidation (deployment : StrategyDeployment) : Bool :=
  deployment.status ≠ .candidate

def allowsLiveExecution (deployment : StrategyDeployment) : Bool :=
  deployment.status = .active || deployment.status = .activeGuarded

def isExecutableIn (deployment : StrategyDeployment) : Environment → Bool
  | .demo => allowsDemoValidation deployment
  | .live => allowsLiveExecution deployment

structure SignalEvent where
  symbol : String
  timeframe : String
  strategy : String
  direction : String
  signalState : String
  scope : String
  signalId : String
  generatedAt : ℤ
  signalTraceId : Option String
  traceId : Option String
  deriving DecidableEq, Repr

/-- `_is_actionable_signal_event`. -/
def isActionableSignalEvent (event : SignalEvent) : Bool :=
  let scope := lower (strip event.scope)
  let signalState := (lower (strip event.signalState)).toList
  if !(["buy", "sell"].contains (lower (strip event.direction))) then false
  else if scope = "confirmed" then "confirmed".toList <:+: signalState
  else if scope = "intrabar" then "intrabar_armed_".toList <+: signalState
  else if scope = "tick_derived" then "tick_derived_".toList <+: signalState
  else false

/-- The publisher with its bindings and its runtime identity. -/
structure Publisher where
  autoTradeEnabled : Bool
  instanceRole : String
  environment : Environment
  instanceId : String
  runId : String
  accountBindings : Dict String (List String)
  accounts : Dict String MT5Settings
  strategyDeployments : Dict String StrategyDeployment

/-- `_resolve_target_accounts`; a blank strategy is bound to no account, and a bound alias
without an account is passed over. -/
def resolveTargetAccounts (publisher : Publisher) (strategy : String) : List MT5Settings :=
  match publisher.strategyDeployments.get? strategy with
  | none => []
  | some deployment =>
    if isExecutableIn deployment publisher.environment then
      publisher.accountBindings.items.filterMap fun binding =>
        if strip strategy ≠ "" ∧ binding.2.contains strategy = true then
          publisher.accounts.get? binding.1
        else none
    else []

/-- A row of `execution_intents`; `lifecycle` holds the columns the consumers work on. -/
structure IntentRow where
  intentId : String
  intentKey : String
  signalId : String
  targetAccountAlias : String
  strategy : String
  symbol : String
  timeframe : String
  publishedByInstanceId : String
  publishedAt : ℤ
  signalState : String
  lifecycle : Row
  deriving DecidableEq, Repr

structure LedgerRow where
  intentId : String
  createdAt : ℤ
  signalId : String
  targetAccountKey : String
  deriving DecidableEq, Repr

structure Store where
  ledger : Dict String LedgerRow
  intents : List IntentRow

def intentKey (signalId targetAccountKey : String) : String := signalId ++ ":" ++ targetAccountKey

/-- The row that the publisher builds for one account. -/
def intentRow (publisher : Publisher) (event : SignalEvent) (publishedAt : ℤ) (intentId : String)
    (account : MT5Settings) : IntentRow where
  intentId := intentId
  intentKey := intentKey event.signalId (buildAccountKey publisher.environment account)
  signalId := event.signalId
  targetAccountAlias := account.accountAlias
  strategy := event.strategy
  symbol := event.symbol
  timeframe := event.timeframe
  publishedByInstanceId := publisher.instanceId
  publishedAt := publishedAt
  signalState := event.signalState
  lifecycle := Row.published event.generatedAt (buildAccountKey publisher.environment account)

/-- The event that announces a row. -/
structure IntentPublished where
  traceId : String
  symbol : String
  timeframe : String
  scope : String
  ts : ℤ
  signalId : String
  intentId : String
  intentKey : String
  strategy : String
  direction : String
  signalState : String
  targetAccountKey : String
  targetAccountAlias : String
  publishedByInstanceId : String
  publishedByRunId : String
  instanceRole : String
  deriving DecidableEq, Repr

/-- The first text that is there and not empty. -/
def firstText (texts : List (Option String)) : String :=
  (texts.findSome? fun text => text.filter (· ≠ "")).getD ""

/-- `_emit_intent_published`. -/
def intentPublished (publisher : Publisher) (event : SignalEvent) (row : IntentRow) :
    IntentPublished where
  traceId := strip (firstText
    [event.signalTraceId, event.traceId, some event.signalId, some row.intentId])
  symbol := event.symbol
  timeframe := event.timeframe
  scope := event.scope
  ts := row.publishedAt
  signalId := event.signalId
  intentId := row.intentId
  intentKey := row.intentKey
  strategy := event.strategy
  direction := event.direction
  signalState := event.signalState
  targetAccountKey := row.lifecycle.targetAccountKey
  targetAccountAlias := row.targetAccountAlias
  publishedByInstanceId := publisher.instanceId
  publishedByRunId := publisher.runId
  instanceRole := publisher.instanceRole

/-- The unique indexes are on id and creation time and on key and creation time. -/
def IntentRow.sameId (row other : IntentRow) : Bool :=
  row.intentId = other.intentId && row.lifecycle.createdAt = other.lifecycle.createdAt

def IntentRow.sameKey (row other : IntentRow) : Bool :=
  row.intentKey = other.intentKey && row.lifecycle.createdAt = other.lifecycle.createdAt

/-- `ON CONFLICT (intent_id, created_at) DO UPDATE`: accounts, strategy and market stay. -/
def IntentRow.overwrite (row old : IntentRow) : IntentRow :=
  { old with
    intentKey := row.intentKey
    signalId := row.signalId
    publishedByInstanceId := row.publishedByInstanceId
    publishedAt := row.publishedAt
    signalState := row.signalState
    lifecycle := { row.lifecycle with targetAccountKey := old.lifecycle.targetAccountKey } }

/-- The insert of one row; `none` when the index on the key is violated. -/
def insertExecutionIntent (rows : List IntentRow) (row : IntentRow) : Option (List IntentRow) :=
  if rows.any fun other => row.sameKey other && !row.sameId other then none
  else if rows.any row.sameId then
    some (rows.map fun old => if row.sameId old then row.overwrite old else old)
  else some (rows ++ [row])

/-- One item of the transaction, with the keys reserved so far. -/
def writeItem (progress : Store × List String) (row : IntentRow) : Option (Store × List String) :=
  if progress.1.ledger.contains row.intentKey then some progress
  else
    (insertExecutionIntent progress.1.intents row).map fun intents =>
      (⟨progress.1.ledger.set row.intentKey
          ⟨row.intentId, row.lifecycle.createdAt, row.signalId, row.lifecycle.targetAccountKey⟩,
        intents⟩, progress.2 ++ [row.intentKey])

/-- `write_intents_with_idempotency`; `none` when the transaction is rolled back. -/
def writeIntentsWithIdempotency (store : Store) (rows : List IntentRow) :
    Option (Store × List String) :=
  rows.foldlM writeItem (store, [])

/-- A call of `on_signal_event`: the publisher at that time, the event, the ids that
`uuid4` will give, and whether the database fails the transaction. -/
structure Publish where
  publisher : Publisher
  event : SignalEvent
  publishedAt : ℤ
  newId : ℕ → String
  fails : Bool

/-- The events the publisher handles. -/
def Publish.handled (call : Publish) : Bool :=
  call.publisher.autoTradeEnabled && call.publisher.instanceRole = "main" &&
    isActionableSignalEvent call.event && call.event.signalId ≠ ""

/-- The rows of the accounts, in the order of the bindings. -/
def Publish.rows (call : Publish) : List IntentRow :=
  (resolveTargetAccounts call.publisher call.event.strategy).mapIdx fun i account =>
    intentRow call.publisher call.event call.publishedAt (call.newId i) account

/-- `emit_args_by_key`. -/
def emitArgsByKey (rows : List IntentRow) : Dict String IntentRow :=
  rows.foldl (fun args row => args.set row.intentKey row) Dict.empty

/-- The store after the call and the events it emits. -/
def onSignalEvent (store : Store) (call : Publish) : Store × List IntentPublished :=
  if !call.handled || call.fails then (store, [])
  else
    match writeIntentsWithIdempotency store call.rows with
    | none => (store, [])
    | some (written, reserved) =>
      (written, (reserved.filterMap (emitArgsByKey call.rows).get?).map
        (intentPublished call.publisher call.event))

def step (store : Store) (call : Publish) : Option Store := some (onSignalEvent store call).1

/-- The keys of the accounts that the call addresses. -/
def targetKeys (call : Publish) : List String :=
  (resolveTargetAccounts call.publisher call.event.strategy).map fun account =>
    intentKey call.event.signalId (buildAccountKey call.publisher.environment account)

/-- At most one row for each signal and account. -/
def AtMostOneRow (store : Store) : Prop :=
  ∀ signalId account, (store.intents.countP fun row =>
    row.signalId = signalId && row.lifecycle.targetAccountKey = account) ≤ 1

/-- The emitted events carry the ids of the rows that the call committed, and no others. -/
def EventsMatch (before : Store) (call : Publish) : Prop :=
  ∀ id, (∃ event ∈ (onSignalEvent before call).2, event.intentId = id) ↔
    ∃ row ∈ (onSignalEvent before call).1.intents, row.intentId = id ∧
      ∀ old ∈ before.intents, old.intentId ≠ id

/-- `uuid4` gives ids that differ and that no row has. -/
def FreshIds (store : Store) (call : Publish) : Prop :=
  Function.Injective call.newId ∧ ∀ i, ∀ row ∈ store.intents, row.intentId ≠ call.newId i

/-- No two bound accounts share a key that is still to be reserved. -/
def DistinctTargets (store : Store) (call : Publish) : Prop :=
  call.handled = true → call.fails = false →
    ((targetKeys call).filter fun key => !store.ledger.contains key).Nodup

/-- Every row is found in the ledger under the key of its signal and account. -/
structure Ledgered (store : Store) : Prop where
  keyed : ∀ row ∈ store.intents,
    row.intentKey = intentKey row.signalId row.lifecycle.targetAccountKey
  ledgered : ∀ row ∈ store.intents, store.ledger.contains row.intentKey = true
  keys_nodup : (store.intents.map IntentRow.intentKey).Nodup

variable {store : Store}

theorem Ledgered.atMostOneRow (h : Ledgered store) : AtMostOneRow store := by
  intro signalId account
  have hle : (store.intents.countP fun row =>
      row.signalId = signalId && row.lifecycle.targetAccountKey = account) ≤
      store.intents.countP fun row => row.intentKey = intentKey signalId account := by
    refine List.countP_mono_left fun row hrow hpair => ?_
    simp only [Bool.and_eq_true, decide_eq_true_eq] at hpair
    rw [decide_eq_true_eq, h.keyed row hrow, hpair.1, hpair.2]
  have hone : (store.intents.map IntentRow.intentKey).count (intentKey signalId account) ≤ 1 :=
    List.nodup_iff_count_le_one.mp h.keys_nodup _
  rw [List.count_eq_countP, List.countP_map] at hone
  refine hle.trans (le_trans (le_of_eq ?_) hone)
  apply List.countP_congr
  intro row _
  simp

variable {rows : List IntentRow} {row : IntentRow}

theorem insertExecutionIntent_new (hid : ∀ old ∈ rows, old.intentId ≠ row.intentId)
    (hkey : ∀ old ∈ rows, old.intentKey ≠ row.intentKey) :
    insertExecutionIntent rows row = some (rows ++ [row]) := by
  have hnokey : (rows.any fun other => row.sameKey other && !row.sameId other) = false := by
    rw [List.any_eq_false]
    intro old hold hsame
    simp only [IntentRow.sameKey, Bool.and_eq_true, decide_eq_true_eq] at hsame
    exact hkey old hold hsame.1.1.symm
  have hnoid : rows.any row.sameId = false := by
    rw [List.any_eq_false]
    intro old hold hsame
    simp only [IntentRow.sameId, Bool.and_eq_true, decide_eq_true_eq] at hsame
    exact hid old hold hsame.1.symm
  rw [insertExecutionIntent, hnokey, hnoid]
  rfl

/-- Reserving a new key and inserting its row keeps the ledger. -/
theorem Ledgered.add (h : Ledgered store) (entry : LedgerRow)
    (hkeyed : row.intentKey = intentKey row.signalId row.lifecycle.targetAccountKey)
    (hnew : store.ledger.contains row.intentKey = false) :
    Ledgered ⟨store.ledger.set row.intentKey entry, store.intents ++ [row]⟩ := by
  refine ⟨?_, ?_, ?_⟩
  · intro other hother
    rcases List.mem_append.mp hother with hold | hlast
    · exact h.keyed other hold
    · rw [List.mem_singleton.mp hlast]
      exact hkeyed
  · intro other hother
    rw [Dict.contains_set]
    rcases List.mem_append.mp hother with hold | hlast
    · rw [h.ledgered other hold, Bool.or_true]
    · rw [List.mem_singleton.mp hlast, decide_eq_true rfl, Bool.true_or]
  · rw [List.map_append, List.map_singleton, List.nodup_append]
    refine ⟨h.keys_nodup, List.nodup_singleton _, ?_⟩
    intro key hkey last hlast
    obtain ⟨old, hold, rfl⟩ := List.mem_map.mp hkey
    rw [List.mem_singleton.mp hlast]
    intro heq
    have hledger := h.ledgered old hold
    rw [heq, hnew] at hledger
    cases hledger

/-- The transaction reserves the new keys, and inserts for each its first row. -/
theorem writeItems_spec {progress : Store × List String}
    (hstore : Ledgered progress.1) (hids : (rows.map IntentRow.intentId).Nodup)
    (hfresh : ∀ row ∈ rows, ∀ old ∈ progress.1.intents, old.intentId ≠ row.intentId)
    (hkeyed : ∀ row ∈ rows, row.intentKey = intentKey row.signalId row.lifecycle.targetAccountKey) :
    ∃ store, rows.foldlM writeItem progress = some (store, progress.2 ++
        (taken IntentRow.intentKey progress.1.ledger.contains rows).map IntentRow.intentKey) ∧
      store.intents = progress.1.intents ++
        taken IntentRow.intentKey progress.1.ledger.contains rows ∧
      Ledgered store := by
  induction rows generalizing progress with
  | nil => exact ⟨progress.1, by simp [taken], by simp [taken], hstore⟩
  | cons row rest ih =>
    rw [List.map_cons, List.nodup_cons] at hids
    rw [List.foldlM_cons]
    cases hcontains : progress.1.ledger.contains row.intentKey with
    | true =>
      have hskip : writeItem progress row = some progress := by
        rw [writeItem, if_pos hcontains]
      rw [hskip, taken, if_pos hcontains]
      exact ih hstore hids.2 (fun other hother => hfresh other (List.mem_cons_of_mem _ hother))
        fun other hother => hkeyed other (List.mem_cons_of_mem _ hother)
    | false =>
      have hinsert : insertExecutionIntent progress.1.intents row =
          some (progress.1.intents ++ [row]) := by
        refine insertExecutionIntent_new (hfresh row List.mem_cons_self) ?_
        intro old hold heq
        have hledger := hstore.ledgered old hold
        rw [heq, hcontains] at hledger
        cases hledger
      obtain ⟨entry, hwrite⟩ : ∃ entry, writeItem progress row = some
          (⟨progress.1.ledger.set row.intentKey entry, progress.1.intents ++ [row]⟩,
            progress.2 ++ [row.intentKey]) := by
        rw [writeItem, hcontains, hinsert]
        exact ⟨_, rfl⟩
      have hknown : (progress.1.ledger.set row.intentKey entry).contains =
          fun key => decide (key = row.intentKey) || progress.1.ledger.contains key := by
        funext key
        exact Dict.contains_set _ _ _ _
      have hadded := hstore.add entry (hkeyed row List.mem_cons_self) hcontains
      have hlater : ∀ other ∈ rest, ∀ old ∈ progress.1.intents ++ [row],
          old.intentId ≠ other.intentId := by
        intro other hother old hold
        rcases List.mem_append.mp hold with hbefore | hlast
        · exact hfresh other (List.mem_cons_of_mem _ hother) old hbefore
        · rw [List.mem_singleton.mp hlast]
          intro heq
          exact hids.1 (heq ▸ List.mem_map_of_mem hother)
      rw [hwrite]
      obtain ⟨store, hrun, hintents, hledgered⟩ :=
        @ih (_, progress.2 ++ [row.intentKey]) hadded hids.2 hlater
        fun other hother => hkeyed other (List.mem_cons_of_mem _ hother)
      rw [hknown] at hrun hintents
      refine ⟨store, ?_, ?_, hledgered⟩
      · rw [taken, if_neg (by rw [hcontains]; decide)]
        simpa using hrun
      · rw [taken, if_neg (by rw [hcontains]; decide), hintents]
        simp

theorem get?_emitArgsByKey (rows : List IntentRow) (key : String) :
    (emitArgsByKey rows).get? key = kept IntentRow.intentKey rows key := by
  induction rows using List.reverseRecOn with
  | nil => rfl
  | append_singleton front last ih =>
    have hlast : emitArgsByKey (front ++ [last]) =
        (emitArgsByKey front).set last.intentKey last := by
      simp [emitArgsByKey]
    rw [hlast, Dict.get?_set, ih, kept, kept, List.reverse_append, List.reverse_singleton,
      List.singleton_append]
    by_cases hkey : key = last.intentKey
    · rw [if_pos hkey, List.find?_cons_of_pos (by simp [hkey])]
    · rw [if_neg hkey, List.find?_cons_of_neg (by simp [Ne.symm hkey])]

theorem rows_ids (call : Publish) : call.rows.map IntentRow.intentId =
    (List.range (resolveTargetAccounts call.publisher call.event.strategy).length).map
      call.newId := by
  apply List.ext_getElem
  · simp [Publish.rows]
  · intro i _ _
    simp [Publish.rows, intentRow]

variable {call : Publish}

theorem rows_ids_nodup (hfresh : FreshIds store call) :
    (call.rows.map IntentRow.intentId).Nodup := by
  rw [rows_ids]
  exact List.Nodup.map hfresh.1 List.nodup_range

theorem rows_keys (call : Publish) : call.rows.map IntentRow.intentKey = targetKeys call := by
  apply List.ext_getElem
  · simp [Publish.rows, targetKeys]
  · intro i _ _
    simp [Publish.rows, targetKeys, intentRow]

theorem exists_of_mem_rows (h : row ∈ call.rows) :
    ∃ i account, row = intentRow call.publisher call.event call.publishedAt (call.newId i)
      account := by
  obtain ⟨i, hi, hrow⟩ := List.mem_mapIdx.mp h
  exact ⟨i, _, hrow.symm⟩

variable {before : Store}

/-- The rows that a call inserts, and the events it emits. -/
theorem onSignalEvent_written (hstore : Ledgered before)
    (hfresh : FreshIds before call) (hhandled : call.handled = true) (hruns : call.fails = false) :
    (onSignalEvent before call).1.intents = before.intents ++
        taken IntentRow.intentKey before.ledger.contains call.rows ∧
      (onSignalEvent before call).2 =
        (((taken IntentRow.intentKey before.ledger.contains call.rows).map
          IntentRow.intentKey).filterMap (kept IntentRow.intentKey call.rows)).map
            (intentPublished call.publisher call.event) ∧
      Ledgered (onSignalEvent before call).1 := by
  have hids : (call.rows.map IntentRow.intentId).Nodup := rows_ids_nodup hfresh
  have hnew : ∀ row ∈ call.rows, ∀ old ∈ before.intents, old.intentId ≠ row.intentId := by
    intro row hrow old hold
    obtain ⟨i, account, rfl⟩ := exists_of_mem_rows hrow
    exact hfresh.2 i old hold
  have hkeyed : ∀ row ∈ call.rows,
      row.intentKey = intentKey row.signalId row.lifecycle.targetAccountKey := by
    intro row hrow
    obtain ⟨i, account, rfl⟩ := exists_of_mem_rows hrow
    rfl
  obtain ⟨after, hwrite, hintents, hledgered⟩ :=
    @writeItems_spec call.rows (before, []) hstore hids hnew hkeyed
  have hget : (emitArgsByKey call.rows).get? = kept IntentRow.intentKey call.rows :=
    funext (get?_emitArgsByKey call.rows)
  have hcall : onSignalEvent before call = (after,
      (((taken IntentRow.intentKey before.ledger.contains call.rows).map
        IntentRow.intentKey).filterMap (kept IntentRow.intentKey call.rows)).map
          (intentPublished call.publisher call.event)) := by
    simp only [onSignalEvent, hhandled, hruns, writeIntentsWithIdempotency, hwrite, hget,
      Bool.not_true, Bool.or_false, Bool.false_eq_true, if_false, List.nil_append]
  rw [hcall]
  exact ⟨hintents, rfl, hledgered⟩

/-- A call that is not handled or is rolled back changes and emits nothing. -/
theorem onSignalEvent_idle (h : ¬ (call.handled = true ∧ call.fails = false)) :
    onSignalEvent before call = (before, []) := by
  unfold onSignalEvent
  rw [if_pos]
  cases hhandled : call.handled with
  | false => rfl
  | true =>
    cases hfails : call.fails with
    | true => rfl
    | false => exact absurd ⟨hhandled, hfails⟩ h

theorem Ledgered.published (hstore : Ledgered before)
    (hfresh : FreshIds before call) : Ledgered (onSignalEvent before call).1 := by
  by_cases h : call.handled = true ∧ call.fails = false
  · exact (onSignalEvent_written hstore hfresh h.1 h.2).2.2
  · rw [onSignalEvent_idle h]
    exact hstore

/-- The emitted ids are those of the rows that the dictionary keeps for the new keys. -/
theorem emitted_iff (hstore : Ledgered before)
    (hfresh : FreshIds before call) (hhandled : call.handled = true) (hruns : call.fails = false)
    (id : String) : (∃ event ∈ (onSignalEvent before call).2, event.intentId = id) ↔
      ∃ row, (∃ first ∈ taken IntentRow.intentKey before.ledger.contains call.rows,
        kept IntentRow.intentKey call.rows first.intentKey = some row) ∧ row.intentId = id := by
  rw [(onSignalEvent_written hstore hfresh hhandled hruns).2.1]
  simp only [List.mem_map, List.mem_filterMap]
  constructor
  · rintro ⟨event, ⟨row, ⟨key, ⟨first, hfirst, rfl⟩, hrow⟩, rfl⟩, hid⟩
    exact ⟨row, ⟨first, hfirst, hrow⟩, hid⟩
  · rintro ⟨row, ⟨first, hfirst, hrow⟩, hid⟩
    exact ⟨_, ⟨row, ⟨_, ⟨first, hfirst, rfl⟩, hrow⟩, rfl⟩, hid⟩

/-- The committed ids are those of the first rows of the new keys. -/
theorem committed_iff (hstore : Ledgered before)
    (hfresh : FreshIds before call) (hhandled : call.handled = true) (hruns : call.fails = false)
    (id : String) : (∃ row ∈ (onSignalEvent before call).1.intents, row.intentId = id ∧
        ∀ old ∈ before.intents, old.intentId ≠ id) ↔
      ∃ row ∈ taken IntentRow.intentKey before.ledger.contains call.rows, row.intentId = id := by
  rw [(onSignalEvent_written hstore hfresh hhandled hruns).1]
  constructor
  · rintro ⟨row, hrow, hid, hnone⟩
    rcases List.mem_append.mp hrow with hold | hnew
    · exact absurd hid (hnone row hold)
    · exact ⟨row, hnew, hid⟩
  · rintro ⟨row, hrow, rfl⟩
    refine ⟨row, List.mem_append_right _ hrow, rfl, ?_⟩
    intro old hold
    obtain ⟨i, account, rfl⟩ := exists_of_mem_rows (mem_of_mem_taken hrow)
    exact hfresh.2 i old hold

/-- The ids of two sets of rows of the call agree exactly when the sets do. -/
theorem ids_agree_iff {p q : IntentRow → Prop}
    (hids : (rows.map IntentRow.intentId).Nodup) (hp : ∀ row, p row → row ∈ rows)
    (hq : ∀ row, q row → row ∈ rows) :
    (∀ id, (∃ row, p row ∧ row.intentId = id) ↔ ∃ row, q row ∧ row.intentId = id) ↔
      ∀ row, q row ↔ p row := by
  constructor
  · intro hsame row
    constructor
    · intro hrow
      obtain ⟨other, hother, hid⟩ := (hsame row.intentId).mpr ⟨row, hrow, rfl⟩
      rw [← List.inj_on_of_nodup_map hids (hp other hother) (hq row hrow) hid]
      exact hother
    · intro hrow
      obtain ⟨other, hother, hid⟩ := (hsame row.intentId).mp ⟨row, hrow, rfl⟩
      rw [← List.inj_on_of_nodup_map hids (hq other hother) (hp row hrow) hid]
      exact hother
  · intro hsame id
    simp only [hsame]

/-- The events of a call match its rows exactly when the new keys are distinct. -/
theorem eventsMatch_iff (hstore : Ledgered before)
    (hfresh : FreshIds before call) : EventsMatch before call ↔ DistinctTargets before call := by
  by_cases h : call.handled = true ∧ call.fails = false
  · have hids : (call.rows.map IntentRow.intentId).Nodup := rows_ids_nodup hfresh
    have hdistinct : DistinctTargets before call ↔
        ((call.rows.map IntentRow.intentKey).filter fun key =>
          !before.ledger.contains key).Nodup := by
      rw [rows_keys]
      exact ⟨fun hall => hall h.1 h.2, fun hall _ _ => hall⟩
    rw [hdistinct, ← kept_iff_taken (List.Nodup.of_map _ hids)]
    simp only [EventsMatch, emitted_iff hstore hfresh h.1 h.2, committed_iff hstore hfresh h.1 h.2]
    refine ids_agree_iff hids ?_ fun row hrow => mem_of_mem_taken hrow
    rintro row ⟨first, _, hkept⟩
    exact (kept_some hkept).1
  · have hdistinct : DistinctTargets before call :=
      fun hhandled hruns => absurd ⟨hhandled, hruns⟩ h
    refine iff_of_true ?_ hdistinct
    intro id
    rw [onSignalEvent_idle h]
    constructor
    · rintro ⟨event, hevent, _⟩
      cases hevent
    · rintro ⟨row, hrow, hid, hnone⟩
      exact absurd hid (hnone row hrow)

/-- After every call of a run there is at most one row for each signal and account, and
the call has announced the rows it committed. -/
def Published (start : Store) (calls : List Publish) : Prop :=
  ∀ front call back before, calls = front ++ call :: back → run step start front = some before →
    AtMostOneRow (onSignalEvent before call).1 ∧ EventsMatch before call

/-- Every run publishes as promised exactly when no call addresses two accounts with one
new key. -/
theorem published_iff (start : Store) (calls : List Publish) (hstart : Ledgered start)
    (hfresh : Along step FreshIds start calls) :
    Published start calls ↔ Along step DistinctTargets start calls := by
  have hledgered : ∀ front call back before, calls = front ++ call :: back →
      run step start front = some before → Ledgered before ∧ FreshIds before call := by
    intro front call back before hcalls hrun
    refine ⟨?_, (along_iff_splits _ _).mp hfresh front call back before hcalls hrun⟩
    rw [hcalls] at hfresh
    refine run_invariant_along ?_ hstart (along_front hfresh) hrun
    intro s a t hs ha hstep
    cases hstep
    exact hs.published ha
  rw [along_iff_splits]
  constructor
  · intro hpublished front call back before hcalls hrun
    obtain ⟨hbefore, hids⟩ := hledgered front call back before hcalls hrun
    exact (eventsMatch_iff hbefore hids).mp (hpublished front call back before hcalls hrun).2
  · intro hdistinct front call back before hcalls hrun
    obtain ⟨hbefore, hids⟩ := hledgered front call back before hcalls hrun
    exact ⟨(hbefore.published hids).atMostOneRow,
      (eventsMatch_iff hbefore hids).mpr (hdistinct front call back before hcalls hrun)⟩

/-- A publisher for one strategy with the accounts of two aliases. -/
def twoAccounts (first second : String) : Publisher where
  autoTradeEnabled := true
  instanceRole := "main"
  environment := .demo
  instanceId := "demo:main"
  runId := "r1"
  accountBindings := (Dict.empty.set "a" ["trend"]).set "b" ["trend"]
  accounts := (Dict.empty.set "a" ⟨"a", none, some first⟩).set "b" ⟨"b", none, some second⟩
  strategyDeployments := Dict.empty.set "trend" {}

def confirmedBuy : SignalEvent where
  symbol := "XAUUSD"
  timeframe := "H1"
  strategy := "trend"
  direction := "buy"
  signalState := "confirmed_buy"
  scope := "confirmed"
  signalId := "s1"
  generatedAt := 10
  signalTraceId := none
  traceId := none

/-- Ids of growing length. -/
def growingId (i : ℕ) : String := String.ofList (List.replicate i 'a')

theorem growingId_injective : Function.Injective growingId := by
  intro i j h
  have hlists : List.replicate i 'a' = List.replicate j 'a' := by
    simpa [growingId] using congrArg String.toList h
  simpa using congrArg List.length hlists

def publishTo (first second : String) : Publish :=
  ⟨twoAccounts first second, confirmedBuy, 11, growingId, false⟩

theorem growingId_fresh (first second : String) :
    FreshIds ⟨Dict.empty, []⟩ (publishTo first second) :=
  ⟨growingId_injective, fun _ row hrow => by cases hrow⟩

theorem ledgered_empty : Ledgered ⟨Dict.empty, []⟩ :=
  ⟨fun _ hrow => (List.not_mem_nil hrow).elim, fun _ hrow => (List.not_mem_nil hrow).elim,
    List.nodup_nil⟩

/-- Two servers give two keys. -/
theorem published_two_servers : Published ⟨Dict.empty, []⟩ [publishTo "s1" "s2"] := by
  apply (published_iff ⟨Dict.empty, []⟩ [publishTo "s1" "s2"] ledgered_empty
    ⟨growingId_fresh "s1" "s2", fun _ _ => trivial⟩).mpr
  refine ⟨fun _ _ => ?_, fun _ _ => trivial⟩
  decide +kernel

/-- Two aliases of one account: the row of the first is written, the second announced. -/
theorem shared_key_announces_other_id :
    ¬ Published ⟨Dict.empty, []⟩ [publishTo "s1" "s1"] := by
  intro hpublished
  have hmatch := (hpublished [] (publishTo "s1" "s1") [] ⟨Dict.empty, []⟩ rfl rfl).2 "a"
  have hevents : ((onSignalEvent ⟨Dict.empty, []⟩ (publishTo "s1" "s1")).2.map
      IntentPublished.intentId) = ["a"] := by
    decide +kernel
  have hrows : ((onSignalEvent ⟨Dict.empty, []⟩ (publishTo "s1" "s1")).1.intents.map
      IntentRow.intentId) = [""] := by
    decide +kernel
  have hemitted : "a" ∈ ((onSignalEvent ⟨Dict.empty, []⟩ (publishTo "s1" "s1")).2.map
      IntentPublished.intentId) := by
    rw [hevents]
    exact List.mem_singleton_self _
  obtain ⟨row, hrow, hid, _⟩ := hmatch.mp (List.mem_map.mp hemitted)
  have hmem := List.mem_map_of_mem (f := IntentRow.intentId) hrow
  rw [hrows, hid] at hmem
  revert hmem
  decide

end MT5Services.IntentPublisher
