import MT5Services.Dict
import MT5Services.PyText
import MT5Services.Runs
import Mathlib.Data.List.Count
import Mathlib.Logic.Function.Basic

/-!
`TradingModule.execute_trade` for calls that run side by side, with the replay service
`TradeExecutionReplayService`. A call looks its request id up in the memory cache and
then in the command audit, takes the lock of the account, runs the broker execution,
caches the result and records it. The lock is held from the execution to the record
only; both lookups come before it. `executions` lists the broker executions that returned.
-/
namespace MT5Services.TradeReplay

open PyText Runs

inductive Source
  | memory
  | audit
  deriving DecidableEq, Repr

/-- A result dictionary; `idempotentSource` is present on replays only. -/
structure TradeResult (P : Type) where
  payload : P
  operationId : String
  idempotentSource : Option Source := none
  deriving DecidableEq, Repr

variable {P : Type}

/-- `build_idempotent_trade_replay`. -/
def buildIdempotentTradeReplay (result : TradeResult P) (source : Source)
    (operationId : Option String) : TradeResult P :=
  { result with
    operationId := operationId.getD result.operationId
    idempotentSource := some source }

/-- A successful `execute_trade` row of the account in `trade_command_audits`. -/
structure AuditRow (P : Type) where
  requestId : String
  operationId : String
  response : TradeResult P
  deriving DecidableEq, Repr

/-- The module and the request id of each call; `pruneToSize` is positive. -/
structure Config where
  requestId : ℕ → Option String
  hasDbWriter : Bool
  memoryCacheLimit : ℕ
  pruneToSize : ℕ
  auditLookbackLimit : ℕ

/-- `_normalize_request_id`. -/
def normalizeRequestId (requestId : Option String) : String := strip (requestId.getD "")

def Config.key (cfg : Config) (call : ℕ) : String := normalizeRequestId (cfg.requestId call)

/-- The keys that a cache beyond its limit gives up, the oldest first. -/
def evicted (cfg : Config) (cache : Dict String (TradeResult P)) : List String :=
  if cfg.memoryCacheLimit < cache.keys.length then
    cache.keys.take (cache.keys.length - cfg.pruneToSize)
  else []

/-- `cache_successful_trade_result`. -/
@[irreducible]
def cacheSuccessfulTradeResult (cfg : Config) (cache : Dict String (TradeResult P)) (key : String)
    (result : TradeResult P) : Dict String (TradeResult P) :=
  if key = "" then cache
  else (cache.set key result).pick fun cached =>
    !(evicted cfg (cache.set key result)).contains cached

/-- `fetch_successful_trade_result` over the rows of the account, the newest first. -/
def fetchSuccessfulTradeResult (cfg : Config) (rows : List (AuditRow P)) (key : String) :
    Option (TradeResult P) :=
  if cfg.hasDbWriter then
    ((rows.take cfg.auditLookbackLimit).find? fun row =>
      normalizeRequestId (some row.requestId) = key).map fun row =>
        buildIdempotentTradeReplay row.response .audit (some row.operationId)
  else none

/-- Where a call stands. -/
inductive Phase (P : Type)
  | pending
  | memoryMissed
  | missed
  | inScope
  | executed (result : TradeResult P)
  | cached (result : TradeResult P)
  | returned (result : TradeResult P)
  | replayed (result : TradeResult P)
  | raised (message : String)

structure State (P : Type) where
  holder : Option ℕ
  phase : ℕ → Phase P
  cache : Dict String (TradeResult P)
  audit : List (AuditRow P)
  executions : List (ℕ × TradeResult P)

/-- A new process over an audit that may hold rows of earlier ones. -/
def State.initial (rows : List (AuditRow P)) : State P :=
  ⟨none, fun _ => .pending, Dict.empty, rows, []⟩

def State.goto (s : State P) (call : ℕ) (phase : Phase P) : State P :=
  { s with phase := Function.update s.phase call phase }

/-- A label names the call and, where code outside decides, how its step ends: the error
of the audit query, the refusal of the trade control, the reply of the broker execution,
whether the audit write took effect. -/
inductive Act (P : Type)
  | lookupMemory (call : ℕ)
  | lookupAudit (call : ℕ) (error : Option String)
  | controlRefuses (call : ℕ) (message : String)
  | enter (call : ℕ)
  | brokerReturns (call : ℕ) (payload : P) (operationId : String)
  | brokerRaises (call : ℕ) (message : String)
  | cacheResult (call : ℕ)
  | recordAudit (call : ℕ) (written : Bool)

/-- A call without a request id looks nothing up. -/
@[irreducible]
def lookupMemory (cfg : Config) (s : State P) (call : ℕ) : State P :=
  if cfg.key call = "" then s.goto call .missed
  else
    match s.cache.get? (cfg.key call) with
    | none => s.goto call .memoryMissed
    | some cached =>
      s.goto call (.replayed
        (buildIdempotentTradeReplay cached .memory (stripOrNone (some cached.operationId))))

/-- A replay out of the audit is cached before it is returned. -/
@[irreducible]
def lookupAudit (cfg : Config) (s : State P) (call : ℕ) : State P :=
  match fetchSuccessfulTradeResult cfg s.audit (cfg.key call) with
  | none => s.goto call .missed
  | some replay =>
    { s.goto call (.replayed replay) with
      cache := cacheSuccessfulTradeResult cfg s.cache (cfg.key call) replay }

/-- The record of a call; the module swallows what the audit write raises. -/
def recordAudit (cfg : Config) (s : State P) (call : ℕ) (result : TradeResult P) (written : Bool) :
    State P :=
  { s.goto call (.returned result) with
    holder := none
    audit :=
      if cfg.hasDbWriter && written then
        ⟨(cfg.requestId call).getD "", result.operationId, result⟩ :: s.audit
      else s.audit }

def step (cfg : Config) (s : State P) : Act P → Option (State P)
  | .lookupMemory call =>
    match s.phase call with
    | .pending => some (lookupMemory cfg s call)
    | _ => none
  | .lookupAudit call error =>
    match s.phase call with
    | .memoryMissed =>
      match error with
      | some message => some (s.goto call (.raised message))
      | none => some (lookupAudit cfg s call)
    | _ => none
  | .controlRefuses call message =>
    match s.phase call with
    | .missed => some (s.goto call (.raised message))
    | _ => none
  | .enter call =>
    match s.phase call with
    | .missed =>
      if s.holder = none then some { s.goto call .inScope with holder := some call } else none
    | _ => none
  | .brokerReturns call payload operationId =>
    match s.phase call with
    | .inScope =>
      some { s.goto call (.executed ⟨payload, operationId, none⟩) with
        executions := s.executions ++ [(call, ⟨payload, operationId, none⟩)] }
    | _ => none
  | .brokerRaises call message =>
    match s.phase call with
    | .inScope => some { s.goto call (.raised message) with holder := none }
    | _ => none
  | .cacheResult call =>
    match s.phase call with
    | .executed result =>
      some { s.goto call (.cached result) with
        cache := cacheSuccessfulTradeResult cfg s.cache (cfg.key call) result }
    | _ => none
  | .recordAudit call written =>
    match s.phase call with
    | .cached result => some (recordAudit cfg s call result written)
    | _ => none

/-- The broker executions for a request id. -/
def executionsOf (cfg : Config) (key : String) (s : State P) : List (ℕ × TradeResult P) :=
  s.executions.filter fun execution => cfg.key execution.1 = key

/-- The replay returns the trade and says that it is one. -/
def ReplayOf (result replay : TradeResult P) : Prop :=
  replay.payload = result.payload ∧ strip replay.operationId = strip result.operationId ∧
    replay.idempotentSource ≠ none

/-- The execution ran at most once, and a call that returns has run it or replays it. -/
structure ReplayedOnce (cfg : Config) (key : String) (s : State P) : Prop where
  executed_once : (executionsOf cfg key s).length ≤ 1
  returned_executed : ∀ call result, cfg.key call = key → s.phase call = .returned result →
    (call, result) ∈ executionsOf cfg key s
  replayed_executed : ∀ call replay, cfg.key call = key → s.phase call = .replayed replay →
    ∃ execution ∈ executionsOf cfg key s, ReplayOf execution.2 replay

/-- No broker execution for the request id returns while a result is cached for it. -/
def ExecutesUncached (cfg : Config) (key : String) (s : State P) : Act P → Prop
  | .brokerReturns call _ _ => cfg.key call = key → s.cache.get? key = none
  | _ => True

/-- Whatever the step caches evicts nothing. -/
def NoEviction (cfg : Config) (s : State P) : Act P → Prop
  | .lookupAudit call _ => ∀ replay,
      fetchSuccessfulTradeResult cfg s.audit (cfg.key call) = some replay →
      evicted cfg (s.cache.set (cfg.key call) replay) = []
  | .cacheResult call => ∀ result, s.phase call = .executed result →
      evicted cfg (s.cache.set (cfg.key call) result) = []
  | _ => True

instance decidableExecutesUncached (cfg : Config) (key : String) (s : State P) :
    ∀ a, Decidable (ExecutesUncached cfg key s a)
  | .brokerReturns call _ _ =>
    inferInstanceAs (Decidable (cfg.key call = key → s.cache.get? key = none))
  | .lookupMemory _ | .lookupAudit _ _ | .controlRefuses _ _ | .enter _ | .brokerRaises _ _
  | .cacheResult _ | .recordAudit _ _ => isTrue trivial

instance decidableNoEviction (cfg : Config) (s : State P) : ∀ a, Decidable (NoEviction cfg s a)
  | .lookupAudit call _ => inferInstanceAs (Decidable (∀ replay ∈
      fetchSuccessfulTradeResult cfg s.audit (cfg.key call),
      evicted cfg (s.cache.set (cfg.key call) replay) = []))
  | .cacheResult call =>
    match hphase : s.phase call with
    | .executed result => decidable_of_iff (evicted cfg (s.cache.set (cfg.key call) result) = [])
      ⟨fun hroom _ hother => by cases hphase.symm.trans hother; exact hroom,
        fun hroom => hroom result hphase⟩
    | .pending | .memoryMissed | .missed | .inScope | .cached _ | .returned _ | .replayed _
    | .raised _ => isTrue fun _ hother => by cases hphase.symm.trans hother
  | .lookupMemory _ | .controlRefuses _ _ | .enter _ | .brokerReturns _ _ _ | .brokerRaises _ _
  | .recordAudit _ _ => isTrue trivial

/-- The result a call carries after its own execution. -/
def Phase.result? : Phase P → Option (TradeResult P)
  | executed result | cached result | returned result => some result
  | _ => none

/-- The call is inside the account scope. -/
def Phase.holds : Phase P → Bool
  | inScope | executed _ | cached _ => true
  | _ => false

@[simp]
theorem goto_phase (s : State P) (call other : ℕ) (phase : Phase P) :
    (s.goto call phase).phase other = if other = call then phase else s.phase other :=
  Function.update_apply _ _ _ _

/-- What a step does: it moves one call, and may take or give up the lock, cache a
result, record one or log an execution. -/
inductive Moved (cfg : Config) (s : State P) : Act P → State P → Prop
  | looked (a : Act P) (call : ℕ) (phase : Phase P) (houtside : (s.phase call).holds = false)
      (hresult : phase.result? = none) (hreplay : ∀ replay, phase ≠ .replayed replay)
      (hholds : phase.holds = false) : Moved cfg s a (s.goto call phase)
  | replayedMemory (call : ℕ) (cached : TradeResult P) (houtside : (s.phase call).holds = false)
      (hcached : s.cache.get? (cfg.key call) = some cached) :
      Moved cfg s (.lookupMemory call) (s.goto call (.replayed
        (buildIdempotentTradeReplay cached .memory (stripOrNone (some cached.operationId)))))
  | replayedAudit (call : ℕ) (replay : TradeResult P) (houtside : (s.phase call).holds = false)
      (hreplay : fetchSuccessfulTradeResult cfg s.audit (cfg.key call) = some replay) :
      Moved cfg s (.lookupAudit call none)
        { s.goto call (.replayed replay) with
          cache := cacheSuccessfulTradeResult cfg s.cache (cfg.key call) replay }
  | entered (call : ℕ) (houtside : (s.phase call).holds = false) (hfree : s.holder = none) :
      Moved cfg s (.enter call) { s.goto call .inScope with holder := some call }
  | brokerReturned (call : ℕ) (payload : P) (operationId : String)
      (hphase : s.phase call = .inScope) :
      Moved cfg s (.brokerReturns call payload operationId)
        { s.goto call (.executed ⟨payload, operationId, none⟩) with
          executions := s.executions ++ [(call, ⟨payload, operationId, none⟩)] }
  | brokerRaised (call : ℕ) (message : String) (hphase : s.phase call = .inScope) :
      Moved cfg s (.brokerRaises call message)
        { s.goto call (.raised message) with holder := none }
  | cachedResult (call : ℕ) (result : TradeResult P) (hphase : s.phase call = .executed result) :
      Moved cfg s (.cacheResult call)
        { s.goto call (.cached result) with
          cache := cacheSuccessfulTradeResult cfg s.cache (cfg.key call) result }
  | recorded (call : ℕ) (result : TradeResult P) (written : Bool)
      (hphase : s.phase call = .cached result) :
      Moved cfg s (.recordAudit call written) (recordAudit cfg s call result written)

theorem lookupMemory_moved (cfg : Config) (s : State P) (call : ℕ)
    (houtside : (s.phase call).holds = false) :
    Moved cfg s (.lookupMemory call) (lookupMemory cfg s call) := by
  unfold lookupMemory
  split
  · exact .looked _ call .missed houtside rfl (by simp) rfl
  · split
    · exact .looked _ call .memoryMissed houtside rfl (by simp) rfl
    · rename_i cached hcached
      exact .replayedMemory call cached houtside hcached

theorem lookupAudit_moved (cfg : Config) (s : State P) (call : ℕ)
    (houtside : (s.phase call).holds = false) :
    Moved cfg s (.lookupAudit call none) (lookupAudit cfg s call) := by
  unfold lookupAudit
  split
  · exact .looked _ call .missed houtside rfl (by simp) rfl
  · rename_i replay hreplay
    exact .replayedAudit call replay houtside hreplay

variable {cfg : Config} {s t : State P} {a : Act P}

theorem lookupAuditStep_moved {call : ℕ} {error : Option String}
    (h : step cfg s (.lookupAudit call error) = some t) :
    Moved cfg s (.lookupAudit call error) t := by
  unfold step at h
  dsimp only at h
  split at h
  · rename_i hphase
    have houtside : (s.phase call).holds = false := by rw [hphase]; rfl
    cases error with
    | some message =>
      cases h
      exact .looked _ call (.raised message) houtside rfl (by simp) rfl
    | none =>
      cases h
      exact lookupAudit_moved cfg s call houtside
  · cases h

theorem enterStep_moved {call : ℕ} (h : step cfg s (.enter call) = some t) :
    Moved cfg s (.enter call) t := by
  unfold step at h
  dsimp only at h
  split at h
  · rename_i hphase
    split at h
    · rename_i hfree
      cases h
      exact .entered call (by rw [hphase]; rfl) hfree
    · cases h
  · cases h

/-- What the broker answers meets a call in the scope. -/
theorem brokerReturns_moved {call : ℕ} {payload : P} {operationId : String}
    (h : step cfg s (.brokerReturns call payload operationId) = some t) :
    Moved cfg s (.brokerReturns call payload operationId) t := by
  unfold step at h
  dsimp only at h
  split at h
  · rename_i hphase
    cases h
    exact .brokerReturned call payload operationId hphase
  · cases h

theorem brokerRaises_moved {call : ℕ} {message : String}
    (h : step cfg s (.brokerRaises call message) = some t) :
    Moved cfg s (.brokerRaises call message) t := by
  unfold step at h
  dsimp only at h
  split at h
  · rename_i hphase
    cases h
    exact .brokerRaised call message hphase
  · cases h

theorem step_moved (h : step cfg s a = some t) : Moved cfg s a t := by
  cases a with
  | lookupMemory call =>
    unfold step at h
    dsimp only at h
    split at h
    · rename_i hphase
      cases h
      exact lookupMemory_moved cfg s call (by rw [hphase]; rfl)
    · cases h
  | lookupAudit call error => exact lookupAuditStep_moved h
  | controlRefuses call message =>
    unfold step at h
    dsimp only at h
    split at h
    · rename_i hphase
      cases h
      exact .looked _ call (.raised message) (by rw [hphase]; rfl) rfl (by simp) rfl
    · cases h
  | enter call => exact enterStep_moved h
  | brokerReturns call payload operationId => exact brokerReturns_moved h
  | brokerRaises call message => exact brokerRaises_moved h
  | cacheResult call =>
    unfold step at h
    dsimp only at h
    split at h
    · rename_i result hphase
      cases h
      exact .cachedResult call result hphase
    · cases h
  | recordAudit call written =>
    unfold step at h
    dsimp only at h
    split at h
    · rename_i result hphase
      cases h
      exact .recorded call result written hphase
    · cases h

/-- Only a call inside the scope holds the lock. -/
def ScopeHeld (s : State P) : Prop :=
  ∀ call, (s.phase call).holds = true → s.holder = some call

theorem scopeHeld_initial (rows : List (AuditRow P)) : ScopeHeld (State.initial rows) :=
  fun _ hholds => by cases hholds

/-- A call that goes on outside the scope leaves the lock where it was. -/
theorem ScopeHeld.outside (hs : ScopeHeld s) (call : ℕ) {phase : Phase P}
    (hphase : phase.holds = false) : ScopeHeld (s.goto call phase) := by
  intro other hother
  rw [goto_phase] at hother
  split at hother
  · rw [hphase] at hother
    cases hother
  · exact hs other hother

/-- No other call was in the scope that a call leaves. -/
theorem ScopeHeld.leaves (hs : ScopeHeld s) {call : ℕ} {phase : Phase P}
    (hcall : (s.phase call).holds = true) (hphase : phase.holds = false) (other : ℕ) :
    ((s.goto call phase).phase other).holds = false := by
  rw [goto_phase]
  split
  · exact hphase
  · rename_i hne
    cases hother : (s.phase other).holds with
    | false => rfl
    | true =>
      have hsame := (hs other hother).symm.trans (hs call hcall)
      exact absurd (Option.some.inj hsame) hne

theorem ScopeHeld.inside (hs : ScopeHeld s) {call : ℕ} (phase : Phase P)
    (hcall : (s.phase call).holds = true) {other : ℕ}
    (hother : ((s.goto call phase).phase other).holds = true) : s.holder = some other := by
  rw [goto_phase] at hother
  split at hother
  · rename_i hsame
    rw [hsame]
    exact hs call hcall
  · exact hs other hother

theorem ScopeHeld.moved (hs : ScopeHeld s) (h : Moved cfg s a t) : ScopeHeld t := by
  cases h with
  | looked _ call phase houtside hresult hreplay hholds => exact hs.outside call hholds
  | replayedMemory call cached houtside hcached => exact hs.outside call rfl
  | replayedAudit call replay houtside hreplay => exact hs.outside call rfl
  | entered call houtside hfree =>
    intro other hother
    have hupdate : ((s.goto call .inScope).phase other).holds = true := hother
    rw [goto_phase] at hupdate
    split at hupdate
    · rename_i hsame
      rw [hsame]
    · have hheld := hs other hupdate
      rw [hfree] at hheld
      cases hheld
  | brokerReturned call payload operationId hphase =>
    exact fun other hother => hs.inside _ (by rw [hphase]; rfl) hother
  | brokerRaised call message hphase =>
    intro other hother
    have hnone := hs.leaves (by rw [hphase]; rfl) (rfl : (Phase.raised message : Phase P).holds = false) other
    exact absurd (hnone.symm.trans hother) (by decide)
  | cachedResult call result hphase =>
    exact fun other hother => hs.inside _ (by rw [hphase]; rfl) hother
  | recorded call result written hphase =>
    intro other hother
    have hnone := hs.leaves (by rw [hphase]; rfl) (rfl : (Phase.returned result).holds = false) other
    exact absurd (hnone.symm.trans hother) (by decide)

/-- Two results of one trade, up to the space around the operation id. -/
def SameTrade (result other : TradeResult P) : Prop :=
  other.payload = result.payload ∧ strip other.operationId = strip result.operationId

theorem replayOf_build {result cached : TradeResult P} {operationId : Option String}
    (source : Source) (hpayload : cached.payload = result.payload)
    (hid : strip (operationId.getD cached.operationId) = strip result.operationId) :
    ReplayOf result (buildIdempotentTradeReplay cached source operationId) :=
  ⟨hpayload, hid, by simp [buildIdempotentTradeReplay]⟩

theorem strip_stripOrNone (text : String) :
    strip ((stripOrNone (some text)).getD text) = strip text := by
  unfold stripOrNone
  split
  · rfl
  · exact strip_strip text

/-- What is cached, recorded, returned or replayed for the request id comes from one of
its executions. -/
structure Sourced (cfg : Config) (key : String) (s : State P) : Prop where
  cached : ∀ result, s.cache.get? key = some result →
    ∃ execution ∈ executionsOf cfg key s, SameTrade execution.2 result
  recorded : ∀ row ∈ s.audit, normalizeRequestId (some row.requestId) = key →
    ∃ execution ∈ executionsOf cfg key s, row.response.payload = execution.2.payload ∧
      strip row.operationId = strip execution.2.operationId
  carried : ∀ call result, cfg.key call = key → (s.phase call).result? = some result →
    (call, result) ∈ executionsOf cfg key s
  replayed : ∀ call replay, cfg.key call = key → s.phase call = .replayed replay →
    ∃ execution ∈ executionsOf cfg key s, ReplayOf execution.2 replay

variable {key : String}

theorem sourced_initial {rows : List (AuditRow P)}
    (hnew : ∀ row ∈ rows, normalizeRequestId (some row.requestId) ≠ key) :
    Sourced cfg key (State.initial rows) := by
  refine ⟨?_, fun row hrow hkey => absurd hkey (hnew row hrow), ?_, ?_⟩
  · intro result hresult
    cases hresult
  · intro call result _ hresult
    cases hresult
  · intro call replay _ hreplay
    cases hreplay

theorem get?_cacheSuccessfulTradeResult {cache : Dict String (TradeResult P)}
    {stored key : String} {value result : TradeResult P}
    (h : (cacheSuccessfulTradeResult cfg cache stored value).get? key = some result) :
    (key = stored ∧ result = value) ∨ cache.get? key = some result := by
  unfold cacheSuccessfulTradeResult at h
  split at h
  · exact Or.inr h
  · rw [Dict.get?_pick] at h
    split at h
    · rw [Dict.get?_set] at h
      split at h
      · rename_i hkey
        exact Or.inl ⟨hkey, (Option.some.inj h).symm⟩
      · exact Or.inr h
    · cases h

theorem fetchSuccessfulTradeResult_some {rows : List (AuditRow P)}
    {replay : TradeResult P} (h : fetchSuccessfulTradeResult cfg rows key = some replay) :
    ∃ row ∈ rows, normalizeRequestId (some row.requestId) = key ∧
      replay = buildIdempotentTradeReplay row.response .audit (some row.operationId) := by
  unfold fetchSuccessfulTradeResult at h
  split at h
  · obtain ⟨row, hfound, hreplay⟩ := Option.map_eq_some_iff.mp h
    have hkey := List.find?_some hfound
    exact ⟨row, List.mem_of_mem_take (List.mem_of_find?_eq_some hfound),
      of_decide_eq_true hkey, hreplay.symm⟩
  · cases h

/-- The sources survive a step that moves one call. -/
theorem Sourced.goto (hs : Sourced cfg key s) (call : ℕ) (phase : Phase P)
    (hcarried : ∀ result, cfg.key call = key → phase.result? = some result →
      (call, result) ∈ executionsOf cfg key s)
    (hreplayed : ∀ replay, cfg.key call = key → phase = .replayed replay →
      ∃ execution ∈ executionsOf cfg key s, ReplayOf execution.2 replay) :
    Sourced cfg key (s.goto call phase) := by
  refine ⟨hs.cached, hs.recorded, ?_, ?_⟩
  · intro other result hkey hresult
    rw [goto_phase] at hresult
    split at hresult
    · rename_i hsame
      subst hsame
      exact hcarried result hkey hresult
    · exact hs.carried other result hkey hresult
  · intro other replay hkey hreplay
    rw [goto_phase] at hreplay
    split at hreplay
    · rename_i hsame
      subst hsame
      exact hreplayed replay hkey hreplay
    · exact hs.replayed other replay hkey hreplay

/-- The sources survive a call that goes on with what it carries. -/
theorem Sourced.advance (hs : Sourced cfg key s) (call : ℕ) (phase : Phase P)
    (hresult : ∀ result, phase.result? = some result → (s.phase call).result? = some result)
    (hreplayed : ∀ replay, phase ≠ .replayed replay) : Sourced cfg key (s.goto call phase) :=
  hs.goto call phase (fun result hkey hsome => hs.carried call result hkey (hresult result hsome))
    fun replay _ hsome => absurd hsome (hreplayed replay)

/-- The sources survive a new cache entry for one of the executions. -/
theorem Sourced.store (hs : Sourced cfg key s) (stored : String) (value : TradeResult P)
    (hvalue : stored = key → ∃ execution ∈ executionsOf cfg key s, SameTrade execution.2 value) :
    Sourced cfg key { s with cache := cacheSuccessfulTradeResult cfg s.cache stored value } := by
  refine ⟨?_, hs.recorded, hs.carried, hs.replayed⟩
  intro result hresult
  rcases get?_cacheSuccessfulTradeResult hresult with ⟨hkey, rfl⟩ | hold
  · exact hvalue hkey.symm
  · exact hs.cached result hold

/-- More executions source as much. -/
theorem Sourced.executed (hs : Sourced cfg key s) (call : ℕ) (result : TradeResult P) :
    Sourced cfg key { s with executions := s.executions ++ [(call, result)] } := by
  have hmem : ∀ execution ∈ executionsOf cfg key s, execution ∈
      executionsOf cfg key { s with executions := s.executions ++ [(call, result)] } := by
    intro execution hexecution
    have hin := List.mem_filter.mp hexecution
    exact List.mem_filter.mpr ⟨List.mem_append_left _ hin.1, hin.2⟩
  refine ⟨?_, ?_, ?_, ?_⟩
  · intro value hvalue
    obtain ⟨execution, hin, hsame⟩ := hs.cached value hvalue
    exact ⟨execution, hmem _ hin, hsame⟩
  · intro row hrow hkey
    obtain ⟨execution, hin, hsame⟩ := hs.recorded row hrow hkey
    exact ⟨execution, hmem _ hin, hsame⟩
  · intro other value hkey hvalue
    exact hmem _ (hs.carried other value hkey hvalue)
  · intro other replay hkey hreplay
    obtain ⟨execution, hin, hsame⟩ := hs.replayed other replay hkey hreplay
    exact ⟨execution, hmem _ hin, hsame⟩

theorem mem_executionsOf_append (cfg : Config) (s : State P) (call : ℕ) (result : TradeResult P) :
    (call, result) ∈ executionsOf cfg (cfg.key call)
      { s with executions := s.executions ++ [(call, result)] } := by
  refine List.mem_filter.mpr ⟨List.mem_append_right _ (List.mem_singleton_self _), ?_⟩
  exact decide_eq_true rfl

/-- The sources survive a call that goes where it carries nothing. -/
theorem Sourced.pass (hs : Sourced cfg key s) (call : ℕ) {phase : Phase P}
    (hresult : phase.result? = none) (hreplayed : ∀ replay, phase ≠ .replayed replay) :
    Sourced cfg key (s.goto call phase) := by
  refine hs.advance call phase (fun result hsome => ?_) hreplayed
  rw [hresult] at hsome
  cases hsome

theorem Sourced.replayedMemory (hs : Sourced cfg key s) {call : ℕ} {cached : TradeResult P}
    (hcached : s.cache.get? (cfg.key call) = some cached) :
    Sourced cfg key (s.goto call (.replayed
      (buildIdempotentTradeReplay cached .memory (stripOrNone (some cached.operationId))))) := by
  refine hs.goto call _ (fun result _ hsome => by cases hsome) (fun replay hkey hsome => ?_)
  cases hsome
  rw [hkey] at hcached
  obtain ⟨execution, hin, hpayload, hid⟩ := hs.cached cached hcached
  refine ⟨execution, hin, replayOf_build .memory hpayload ?_⟩
  rw [strip_stripOrNone, hid]

/-- A replay out of the audit is cached with the source that the row has. -/
theorem Sourced.replayedAudit (hs : Sourced cfg key s) {call : ℕ} {replay : TradeResult P}
    (hreplay : fetchSuccessfulTradeResult cfg s.audit (cfg.key call) = some replay) :
    Sourced cfg key
      { s.goto call (.replayed replay) with
        cache := cacheSuccessfulTradeResult cfg s.cache (cfg.key call) replay } := by
  obtain ⟨row, hrow, hrowkey, hbuilt⟩ := fetchSuccessfulTradeResult_some hreplay
  have hsource : cfg.key call = key → ∃ execution ∈ executionsOf cfg key s,
      ReplayOf execution.2 replay := by
    intro hkey
    obtain ⟨execution, hin, hpayload, hid⟩ := hs.recorded row hrow (hrowkey.trans hkey)
    rw [hbuilt]
    exact ⟨execution, hin, replayOf_build .audit hpayload hid⟩
  have hmoved : Sourced cfg key (s.goto call (.replayed replay)) := by
    refine hs.goto call _ (fun result _ hsome => by cases hsome) (fun other hkey hsome => ?_)
    cases hsome
    exact hsource hkey
  refine hmoved.store (cfg.key call) replay fun hkey => ?_
  obtain ⟨execution, hin, hpayload, hid, _⟩ := hsource hkey
  exact ⟨execution, hin, hpayload, hid⟩

theorem Sourced.recordedAudit (hs : Sourced cfg key s) {call : ℕ} {result : TradeResult P}
    (hphase : s.phase call = .cached result) (written : Bool) :
    Sourced cfg key (recordAudit cfg s call result written) := by
  have hmoved : Sourced cfg key (s.goto call (.returned result)) := by
    refine hs.advance call _ (fun value hsome => ?_) (by simp)
    rw [hphase]
    exact hsome
  refine ⟨hmoved.cached, ?_, hmoved.carried, hmoved.replayed⟩
  intro row hrow hkey
  simp only [recordAudit] at hrow
  split at hrow
  · rcases List.mem_cons.mp hrow with rfl | hold
    · have hcall : cfg.key call = key := by
        simpa [Config.key, normalizeRequestId] using hkey
      exact ⟨_, hs.carried call result hcall (by rw [hphase]; rfl), rfl, rfl⟩
    · exact hs.recorded row hold hkey
  · exact hs.recorded row hrow hkey

theorem Sourced.moved (hs : Sourced cfg key s) (h : Moved cfg s a t) : Sourced cfg key t := by
  cases h with
  | looked _ call phase houtside hresult hreplay hholds => exact hs.pass call hresult hreplay
  | replayedMemory call cached houtside hcached => exact hs.replayedMemory hcached
  | replayedAudit call replay houtside hreplay => exact hs.replayedAudit hreplay
  | entered call houtside hfree =>
    have hmoved : Sourced cfg key (s.goto call .inScope) := hs.pass call rfl (by simp)
    exact ⟨hmoved.cached, hmoved.recorded, hmoved.carried, hmoved.replayed⟩
  | brokerReturned call payload operationId hphase =>
    have hexecuted := hs.executed call ⟨payload, operationId, none⟩
    refine hexecuted.goto call _ (fun result hkey hsome => ?_) (fun replay _ hsome => ?_)
    · cases hsome
      subst hkey
      exact mem_executionsOf_append cfg s call _
    · cases hsome
  | brokerRaised call message hphase =>
    have hmoved : Sourced cfg key (s.goto call (.raised message)) := hs.pass call rfl (by simp)
    exact ⟨hmoved.cached, hmoved.recorded, hmoved.carried, hmoved.replayed⟩
  | cachedResult call result hphase =>
    have hmoved : Sourced cfg key (s.goto call (.cached result)) := by
      refine hs.advance call _ (fun value hsome => ?_) (by simp)
      rw [hphase]
      exact hsome
    refine hmoved.store (cfg.key call) result fun hkey => ?_
    exact ⟨_, hs.carried call result hkey (by rw [hphase]; rfl), rfl, rfl⟩
  | recorded call result written hphase => exact hs.recordedAudit hphase written

/-- Once an execution has returned, its result is cached or about to be. -/
def Remembered (cfg : Config) (key : String) (s : State P) : Prop :=
  executionsOf cfg key s ≠ [] → s.cache.get? key ≠ none ∨
    ∃ call result, cfg.key call = key ∧ s.phase call = .executed result

theorem get?_store_ne_none {cache : Dict String (TradeResult P)}
    {stored key : String} {value : TradeResult P} (hkey : key ≠ "")
    (hroom : evicted cfg (cache.set stored value) = []) (h : key = stored ∨ cache.get? key ≠ none) :
    (cacheSuccessfulTradeResult cfg cache stored value).get? key ≠ none := by
  unfold cacheSuccessfulTradeResult
  split
  · rename_i hblank
    exact h.resolve_left fun hsame => hkey (hsame.trans hblank)
  · rw [Dict.get?_pick, hroom, Dict.get?_set]
    by_cases hsame : key = stored
    · simp [hsame]
    · simpa [hsame] using h.resolve_left hsame

/-- Only the cache write takes a call out of the phase between execution and cache. -/
theorem Remembered.goto (hs : Remembered cfg key s) {call : ℕ} (phase : Phase P)
    (hcall : ∀ result, s.phase call ≠ .executed result) :
    Remembered cfg key (s.goto call phase) := by
  intro hne
  rcases hs hne with hcached | ⟨other, result, hother, hphase⟩
  · exact Or.inl hcached
  · refine Or.inr ⟨other, result, hother, ?_⟩
    have hdiff : other ≠ call := by
      intro hsame
      rw [hsame] at hphase
      exact hcall result hphase
    rw [goto_phase, if_neg hdiff]
    exact hphase

theorem ne_executed_of_outside {call : ℕ} (h : (s.phase call).holds = false)
    (result : TradeResult P) : s.phase call ≠ .executed result := by
  intro hphase
  rw [hphase] at h
  cases h

theorem Remembered.moved (hkey : key ≠ "") (hs : Remembered cfg key s) (hroom : NoEviction cfg s a)
    (h : Moved cfg s a t) : Remembered cfg key t := by
  cases h with
  | looked _ call phase houtside hresult hreplay hholds =>
    exact hs.goto _ (ne_executed_of_outside houtside)
  | replayedMemory call cached houtside hcached =>
    exact hs.goto _ (ne_executed_of_outside houtside)
  | replayedAudit call replay houtside hreplay =>
    intro hne
    rcases hs.goto (.replayed replay) (ne_executed_of_outside houtside) hne with
      hcached | hexecuted
    · exact Or.inl (get?_store_ne_none hkey (hroom replay hreplay) (Or.inr hcached))
    · exact Or.inr hexecuted
  | entered call houtside hfree => exact hs.goto _ (ne_executed_of_outside houtside)
  | brokerReturned call payload operationId hphase =>
    intro hne
    by_cases hcall : cfg.key call = key
    · exact Or.inr ⟨call, _, hcall, by rw [goto_phase, if_pos rfl]⟩
    · refine hs.goto _ (by simp [hphase]) ?_
      simpa [executionsOf, List.filter_append, hcall, State.goto] using hne
  | brokerRaised call message hphase => exact hs.goto _ (by simp [hphase])
  | cachedResult call result hphase =>
    intro hne
    have hstored := hroom result hphase
    by_cases hcall : cfg.key call = key
    · exact Or.inl (get?_store_ne_none hkey hstored (Or.inl hcall.symm))
    · rcases hs hne with hcached | ⟨other, value, hother, hexecuted⟩
      · exact Or.inl (get?_store_ne_none hkey hstored (Or.inr hcached))
      · have hdiff : other ≠ call := fun hsame => hcall (hsame ▸ hother)
        exact Or.inr ⟨other, value, hother, by rw [goto_phase, if_neg hdiff]; exact hexecuted⟩
  | recorded call result written hphase => exact hs.goto _ (by simp [hphase])

/-- The executions of a request id after a step. -/
theorem executionsOf_moved (key : String) (h : Moved cfg s a t) :
    executionsOf cfg key t = executionsOf cfg key s ∨
      ∃ call payload operationId, a = .brokerReturns call payload operationId ∧
        cfg.key call = key ∧ s.phase call = .inScope ∧
        executionsOf cfg key t = executionsOf cfg key s ++ [(call, ⟨payload, operationId, none⟩)] := by
  cases h with
  | brokerReturned call payload operationId hphase =>
    by_cases hcall : cfg.key call = key
    · exact Or.inr ⟨call, payload, operationId, rfl, hcall, hphase,
        by simp [executionsOf, List.filter_append, hcall]⟩
    · exact Or.inl (by simp [executionsOf, List.filter_append, hcall])
  | looked _ call phase houtside hresult hreplay hholds => exact Or.inl rfl
  | replayedMemory call cached houtside hcached => exact Or.inl rfl
  | replayedAudit call replay houtside hreplay => exact Or.inl rfl
  | entered call houtside hfree => exact Or.inl rfl
  | brokerRaised call message hphase => exact Or.inl rfl
  | cachedResult call result hphase => exact Or.inl rfl
  | recorded call result written hphase => exact Or.inl rfl

/-- What holds in every run without evictions. -/
structure Inv (cfg : Config) (key : String) (s : State P) : Prop where
  held : ScopeHeld s
  sourced : Sourced cfg key s
  remembered : Remembered cfg key s

theorem Inv.step (hkey : key ≠ "")
    (hs : Inv cfg key s) (hroom : NoEviction cfg s a) (h : step cfg s a = some t) : Inv cfg key t :=
  have hmoved := step_moved h
  ⟨hs.held.moved hmoved, hs.sourced.moved hmoved, hs.remembered.moved hkey hroom hmoved⟩

/-- An execution that returns while nothing is cached is the first. -/
theorem executionsOf_eq_nil (hs : Inv cfg key s)
    (hcache : s.cache.get? key = none) {call : ℕ} (hphase : s.phase call = .inScope) :
    executionsOf cfg key s = [] := by
  by_contra hne
  rcases hs.remembered hne with hcached | ⟨other, result, _, hexecuted⟩
  · exact hcached hcache
  · have hcall : s.holder = some call := hs.held call (by rw [hphase]; rfl)
    have hother : s.holder = some other := hs.held other (by rw [hexecuted]; rfl)
    have hsame : call = other := Option.some.inj (hcall.symm.trans hother)
    rw [hsame, hexecuted] at hphase
    cases hphase

theorem step_executed_once (hs : Inv cfg key s) (honce : (executionsOf cfg key s).length ≤ 1)
    (huncached : ExecutesUncached cfg key s a) (h : step cfg s a = some t) :
    (executionsOf cfg key t).length ≤ 1 := by
  rcases executionsOf_moved key (step_moved h) with
    hsame | ⟨call, payload, operationId, rfl, hcall, hphase, happended⟩
  · rw [hsame]
    exact honce
  · rw [happended, executionsOf_eq_nil hs (huncached hcall) hphase]
    exact le_refl 1

theorem step_executions_le (key : String) (h : step cfg s a = some t) :
    (executionsOf cfg key s).length ≤ (executionsOf cfg key t).length := by
  rcases executionsOf_moved key (step_moved h) with
    hsame | ⟨call, payload, operationId, _, _, _, happended⟩
  · rw [hsame]
  · rw [happended, List.length_append]
    omega

/-- An execution that returns is one more. -/
theorem executionsOf_brokerReturns {call : ℕ} {payload : P}
    {operationId : String} (h : step cfg s (.brokerReturns call payload operationId) = some t) :
    (executionsOf cfg (cfg.key call) t).length =
      (executionsOf cfg (cfg.key call) s).length + 1 := by
  unfold step at h
  dsimp only at h
  split at h
  · cases h
    simp [executionsOf, List.filter_append]
  · cases h

theorem run_executions_le (key : String) {labels : List (Act P)}
    (hrun : run (step cfg) s labels = some t) :
    (executionsOf cfg key s).length ≤ (executionsOf cfg key t).length :=
  @run_related _ _ (step cfg) (fun _ => True)
    (fun s t => (executionsOf cfg key s).length ≤ (executionsOf cfg key t).length)
    (fun _ => le_refl _) (fun _ _ _ hst htu => hst.trans htu) (fun _ _ _ _ _ => trivial)
    (fun _ _ _ _ h => step_executions_le key h) _ _ _ trivial hrun

/-- Of the calls with a request id the broker execution runs at most once and all others
replay it, exactly when no execution returns while a result is cached for the id. -/
theorem replayed_once_iff (cfg : Config) (key : String) (rows : List (AuditRow P))
    (labels : List (Act P)) (s : State P) (hkey : key ≠ "")
    (hnew : ∀ row ∈ rows, normalizeRequestId (some row.requestId) ≠ key)
    (hroom : Along (step cfg) (NoEviction cfg) (State.initial rows) labels)
    (hrun : run (step cfg) (State.initial rows) labels = some s) :
    ReplayedOnce cfg key s ↔
      Along (step cfg) (ExecutesUncached cfg key) (State.initial rows) labels := by
  have hinitial : Inv cfg key (State.initial rows) :=
    ⟨scopeHeld_initial rows, sourced_initial hnew, fun hne => absurd rfl hne⟩
  have hinv : ∀ front back t, labels = front ++ back →
      run (step cfg) (State.initial rows) front = some t → Inv cfg key t := by
    intro front back t hlabels hfront
    rw [hlabels] at hroom
    exact run_invariant_along (fun _ _ _ hs ha h => hs.step hkey ha h) hinitial
      (along_front hroom) hfront
  have hsourced := (hinv labels [] s (List.append_nil _).symm hrun).sourced
  constructor
  · intro honce
    apply (along_iff_splits _ labels).mpr
    rintro front a back t rfl hfront
    have ht := hinv front (a :: back) t rfl hfront
    cases a with
    | brokerReturns call payload operationId =>
      intro hcall
      by_contra hcached
      obtain ⟨result, hresult⟩ := Option.ne_none_iff_exists'.mp hcached
      obtain ⟨execution, hin, _⟩ := ht.sourced.cached result hresult
      rw [run_append, hfront, Option.bind_some] at hrun
      obtain ⟨u, hu, hrest⟩ := run_cons hrun
      have hlater := run_executions_le key hrest
      have hbefore := List.length_pos_of_mem hin
      have hafter := honce.executed_once
      have hadded := executionsOf_brokerReturns hu
      rw [hcall] at hadded
      omega
    | _ => trivial
  · intro huncached
    have honce : (executionsOf cfg key s).length ≤ 1 := by
      have hboth := along_and hroom huncached
      have hstep : ∀ (s : State P) a t, (Inv cfg key s ∧ (executionsOf cfg key s).length ≤ 1) →
          NoEviction cfg s a ∧ ExecutesUncached cfg key s a → step cfg s a = some t →
          Inv cfg key t ∧ (executionsOf cfg key t).length ≤ 1 := by
        intro s a t hs ha h
        exact ⟨hs.1.step hkey ha.1 h, step_executed_once hs.1 hs.2 ha.2 h⟩
      exact (run_invariant_along hstep ⟨hinitial, Nat.zero_le 1⟩ hboth hrun).2
    refine ⟨honce, ?_, hsourced.replayed⟩
    intro call result hcall hreturned
    exact hsourced.carried call result hcall (by rw [hreturned]; rfl)

/-- Every call carries the same request id; payloads are tickets. -/
def sameRequest : Config where
  requestId := fun _ => some "r1"
  hasDbWriter := true
  memoryCacheLimit := 500
  pruneToSize := 250
  auditLookbackLimit := 200

/-- Call 1 starts after call 0 has returned, and replays it. -/
def oneAfterTheOther : List (Act ℕ) :=
  [.lookupMemory 0, .lookupAudit 0 none, .enter 0, .brokerReturns 0 7 "op", .cacheResult 0,
    .recordAudit 0 false, .lookupMemory 1]

theorem replayed_once_sequential :
    ∃ s, run (step sameRequest) (State.initial []) oneAfterTheOther = some s ∧
      ReplayedOnce sameRequest "r1" s := by
  have hsome : (run (step sameRequest) (State.initial []) oneAfterTheOther).isSome = true := by
    decide +kernel
  obtain ⟨s, hs⟩ := Option.isSome_iff_exists.mp hsome
  refine ⟨s, hs, ?_⟩
  have hroom : Along (step sameRequest) (NoEviction sameRequest) (State.initial [])
      oneAfterTheOther := by
    decide +kernel
  apply (replayed_once_iff sameRequest "r1" [] oneAfterTheOther s (by decide)
    (fun row hrow => by cases hrow) hroom hs).mpr
  decide +kernel

/-- Both calls miss before either enters the scope, and each executes. -/
theorem lookups_before_lock_execute_twice :
    ¬ ∀ s, run (step sameRequest) (State.initial [])
        [.lookupMemory 0, .lookupAudit 0 none, .lookupMemory 1, .lookupAudit 1 none, .enter 0,
          .brokerReturns 0 7 "op", .cacheResult 0, .recordAudit 0 true, .enter 1,
          .brokerReturns 1 8 "op2"] = some s → ReplayedOnce sameRequest "r1" s := by
  intro hreplayed
  have hrun : (run (step sameRequest) (State.initial [])
      [.lookupMemory 0, .lookupAudit 0 none, .lookupMemory 1, .lookupAudit 1 none, .enter 0,
        .brokerReturns 0 7 "op", .cacheResult 0, .recordAudit 0 true, .enter 1,
        .brokerReturns 1 8 "op2"]).map (fun s => (executionsOf sameRequest "r1" s).length) =
      some 2 := by
    decide +kernel
  obtain ⟨s, hs, htwo⟩ := Option.map_eq_some_iff.mp hrun
  have honce := (hreplayed s hs).executed_once
  rw [htwo] at honce
  revert honce
  decide

end MT5Services.TradeReplay
