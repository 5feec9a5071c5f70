import MT5Services.TradeReplay

/-!
Calls of `TradingModule.execute_trade` one after the other, dry runs and real trades mixed,
over restarts of the process. The replay service stores the result of every successful
call under its request id, whichever mode it ran in, and finds it again by the request
id alone. `succeeded` lists the calls whose own execution returned a result.
-/
namespace MT5Services.DryRunReplays

open PyText Runs TradeReplay

/-- The fields of a result that the replay depends on; `rest` are the others. -/
structure Response (Q : Type) where
  requestId : String
  dryRun : Bool
  rest : Q
  deriving DecidableEq, Repr

/-- The module and its calls: the request id and the mode of each, and the id that
`TradingService` makes up for a call without one. -/
structure Calls extends Config where
  dryRun : ℕ → Bool
  generated : ℕ → String

/-- The request id in the result of a call. -/
def Calls.resultId (calls : Calls) (call : ℕ) : String :=
  match calls.requestId call with
  | none => calls.generated call
  | some requestId => if requestId = "" then calls.generated call else requestId

/-- The key under which the result of a call is cached. -/
def Calls.cacheKey (calls : Calls) (call : ℕ) : String :=
  normalizeRequestId (some (calls.resultId call))

variable {Q : Type}

structure State (Q : Type) where
  next : ℕ
  cache : Dict String (TradeResult (Response Q))
  audit : List (AuditRow (Response Q))
  succeeded : List ℕ
  replays : List (ℕ × TradeResult (Response Q))

def State.initial : State Q := ⟨0, Dict.empty, [], [], []⟩

/-- The next call, with what code outside decides: the error of the audit query, the
operation id and the rest of the result or the exception of the execution, and whether
the audit write takes effect; or a new process. -/
inductive Act (Q : Type)
  | call (auditError : Option String) (reply : Except String (String × Q)) (auditWritten : Bool)
  | restart

/-- `_execute_command` with the execution inside. -/
def execute (calls : Calls) (s : State Q) (reply : Except String (String × Q))
    (auditWritten : Bool) : State Q :=
  match reply with
  | .error _ => { s with next := s.next + 1 }
  | .ok (operationId, rest) =>
    let result : TradeResult (Response Q) :=
      ⟨⟨calls.resultId s.next, calls.dryRun s.next, rest⟩, operationId, none⟩
    { s with
      next := s.next + 1
      cache := cacheSuccessfulTradeResult calls.toConfig s.cache (calls.cacheKey s.next) result
      audit :=
        if calls.hasDbWriter && auditWritten then
          ⟨(calls.requestId s.next).getD "", operationId, result⟩ :: s.audit
        else s.audit
      succeeded := s.next :: s.succeeded }

/-- The call returns a replay. -/
def State.replay (s : State Q) (result : TradeResult (Response Q)) : State Q :=
  { s with
    next := s.next + 1
    replays := (s.next, result) :: s.replays }

def executeTrade (calls : Calls) (s : State Q) (auditError : Option String)
    (reply : Except String (String × Q)) (auditWritten : Bool) : State Q :=
  if calls.key s.next = "" then execute calls s reply auditWritten
  else
    match s.cache.get? (calls.key s.next) with
    | some cached =>
      s.replay (buildIdempotentTradeReplay cached .memory
        (stripOrNone (some cached.operationId)))
    | none =>
      match auditError with
      | some _ => { s with next := s.next + 1 }
      | none =>
        match fetchSuccessfulTradeResult calls.toConfig s.audit (calls.key s.next) with
        | some replay =>
          { s.replay replay with
            cache :=
              cacheSuccessfulTradeResult calls.toConfig s.cache (calls.key s.next) replay }
        | none => execute calls s reply auditWritten

def step (calls : Calls) (s : State Q) : Act Q → Option (State Q)
  | .call auditError reply auditWritten => some (executeTrade calls s auditError reply auditWritten)
  | .restart => some { s with cache := Dict.empty }

/-- A replay carries the mode of the call that gets it, and a real call gets one only of an
earlier real call with its request id that succeeded. -/
structure KeptApart (calls : Calls) (s : State Q) : Prop where
  same_mode : ∀ replay ∈ s.replays, replay.2.payload.dryRun = calls.dryRun replay.1
  real_source : ∀ replay ∈ s.replays, calls.dryRun replay.1 = false →
    ∃ source ∈ s.succeeded, source < replay.1 ∧ calls.dryRun source = false ∧
      calls.cacheKey source = calls.key replay.1

/-- The result comes from a successful call with the key, in the mode of that call. -/
def FromSuccess (calls : Calls) (s : State Q) (key : String) (result : TradeResult (Response Q)) :
    Prop :=
  ∃ source ∈ s.succeeded, calls.cacheKey source = key ∧
    result.payload.dryRun = calls.dryRun source

/-- Whatever is cached, recorded or replayed comes from a successful call. -/
structure Traced (calls : Calls) (s : State Q) : Prop where
  past : ∀ source ∈ s.succeeded, source < s.next
  cached : ∀ key result, s.cache.get? key = some result → FromSuccess calls s key result
  recorded : ∀ row ∈ s.audit, normalizeRequestId (some row.requestId) ≠ "" →
    FromSuccess calls s (normalizeRequestId (some row.requestId)) row.response
  replayed : ∀ replay ∈ s.replays, calls.key replay.1 ≠ "" ∧
    ∃ source ∈ s.succeeded, source < replay.1 ∧ calls.cacheKey source = calls.key replay.1 ∧
      replay.2.payload.dryRun = calls.dryRun source

theorem traced_initial (calls : Calls) : Traced calls (State.initial : State Q) := by
  refine ⟨?_, ?_, ?_, ?_⟩
  · intro source hsource
    cases hsource
  · intro key result hresult
    cases hresult
  · intro row hrow
    cases hrow
  · intro replay hreplay
    cases hreplay

/-- The key of a call with a request id is its cache key. -/
theorem key_eq_cacheKey {calls : Calls} {call : ℕ} (h : calls.key call ≠ "") :
    calls.key call = calls.cacheKey call := by
  unfold Calls.cacheKey Calls.resultId
  rw [Config.key] at h ⊢
  cases hid : calls.requestId call with
  | none =>
    rw [hid] at h
    exact absurd rfl h
  | some requestId =>
    rw [hid] at h
    dsimp only
    split
    · rename_i hblank
      rw [hblank] at h
      exact absurd rfl h
    · rfl

section Step

variable {calls : Calls} {s t : State Q} {auditError : Option String}
  {reply : Except String (String × Q)} {auditWritten : Bool}

/-- A call raises, executes, or replays what the cache or the audit has for its key. -/
theorem executeTrade_cases :
    executeTrade calls s auditError reply auditWritten = { s with next := s.next + 1 } ∨
    (∃ operationId rest, reply = .ok (operationId, rest) ∧
      executeTrade calls s auditError reply auditWritten = execute calls s reply auditWritten) ∨
    (calls.key s.next ≠ "" ∧ ∃ cached, s.cache.get? (calls.key s.next) = some cached ∧
      executeTrade calls s auditError reply auditWritten =
        s.replay (buildIdempotentTradeReplay cached .memory
          (stripOrNone (some cached.operationId)))) ∨
    (calls.key s.next ≠ "" ∧ ∃ replay,
      fetchSuccessfulTradeResult calls.toConfig s.audit (calls.key s.next) = some replay ∧
      executeTrade calls s auditError reply auditWritten =
        { s.replay replay with
          cache :=
            cacheSuccessfulTradeResult calls.toConfig s.cache (calls.key s.next) replay }) := by
  have hexecute : execute calls s reply auditWritten = { s with next := s.next + 1 } ∨
      ∃ operationId rest, reply = .ok (operationId, rest) := by
    cases reply with
    | error message => exact Or.inl rfl
    | ok result => exact Or.inr ⟨result.1, result.2, rfl⟩
  unfold executeTrade
  split
  · rcases hexecute with hidle | ⟨operationId, rest, hreply⟩
    · exact Or.inl hidle
    · exact Or.inr (Or.inl ⟨operationId, rest, hreply, rfl⟩)
  · rename_i hkey
    split
    · rename_i cached hcached
      exact Or.inr (Or.inr (Or.inl ⟨hkey, cached, hcached, rfl⟩))
    · split
      · exact Or.inl rfl
      · split
        · rename_i replay hreplay
          exact Or.inr (Or.inr (Or.inr ⟨hkey, replay, hreplay, rfl⟩))
        · rcases hexecute with hidle | ⟨operationId, rest, hreply⟩
          · exact Or.inl hidle
          · exact Or.inr (Or.inl ⟨operationId, rest, hreply, rfl⟩)

theorem FromSuccess.mono {key : String} {result : TradeResult (Response Q)}
    (h : FromSuccess calls s key result) (hgrows : ∀ source ∈ s.succeeded, source ∈ t.succeeded) :
    FromSuccess calls t key result := by
  obtain ⟨source, hsource, hkey, hmode⟩ := h
  exact ⟨source, hgrows source hsource, hkey, hmode⟩

/-- A stored result keeps the cache traced when it comes from a success itself. -/
theorem cached_store {stored : String} {value : TradeResult (Response Q)}
    (hcache : ∀ key result, s.cache.get? key = some result → FromSuccess calls t key result)
    (hvalue : FromSuccess calls t stored value) :
    ∀ key result, (cacheSuccessfulTradeResult calls.toConfig s.cache stored value).get? key =
      some result → FromSuccess calls t key result := by
  intro key result hresult
  rcases get?_cacheSuccessfulTradeResult hresult with ⟨rfl, rfl⟩ | hold
  · exact hvalue
  · exact hcache key result hold

theorem Traced.execute {operationId : String} {rest : Q} (hs : Traced calls s) :
    Traced calls (execute calls s (.ok (operationId, rest)) auditWritten) := by
  have hgrows : ∀ source ∈ s.succeeded, source ∈ s.next :: s.succeeded :=
    fun source hsource => List.mem_cons_of_mem _ hsource
  have hnew : FromSuccess calls (DryRunReplays.execute calls s (.ok (operationId, rest)) auditWritten)
      (calls.cacheKey s.next)
      ⟨⟨calls.resultId s.next, calls.dryRun s.next, rest⟩, operationId, none⟩ :=
    ⟨s.next, List.mem_cons_self, rfl, rfl⟩
  refine ⟨?_, ?_, ?_, ?_⟩
  · intro source hsource
    rcases List.mem_cons.mp hsource with rfl | hold
    · exact Nat.lt_succ_self _
    · exact (hs.past source hold).trans (Nat.lt_succ_self _)
  · exact cached_store (fun key result hresult => (hs.cached key result hresult).mono hgrows) hnew
  · intro row hrow hkey
    simp only [DryRunReplays.execute] at hrow
    split at hrow
    · rcases List.mem_cons.mp hrow with rfl | hold
      · have hnamed : calls.key s.next ≠ "" := by
          simpa [Config.key, normalizeRequestId] using hkey
        have hsame : normalizeRequestId (some ((calls.requestId s.next).getD "")) =
            calls.cacheKey s.next := by
          rw [← key_eq_cacheKey hnamed]
          rfl
        dsimp only
        rw [hsame]
        exact hnew
      · exact (hs.recorded row hold hkey).mono hgrows
    · exact (hs.recorded row hrow hkey).mono hgrows
  · intro replay hreplay
    obtain ⟨hkey, source, hsource, hmatch⟩ := hs.replayed replay hreplay
    exact ⟨hkey, source, hgrows source hsource, hmatch⟩

theorem Traced.replay {result : TradeResult (Response Q)} (hs : Traced calls s)
    (hkey : calls.key s.next ≠ "") (hfrom : FromSuccess calls s (calls.key s.next) result) :
    Traced calls (s.replay result) := by
  refine ⟨?_, hs.cached, hs.recorded, ?_⟩
  · intro source hsource
    exact (hs.past source hsource).trans (Nat.lt_succ_self _)
  · intro replay hreplay
    rcases List.mem_cons.mp hreplay with rfl | hold
    · obtain ⟨source, hsource, hmatch, hmode⟩ := hfrom
      exact ⟨hkey, source, hsource, hs.past source hsource, hmatch, hmode⟩
    · exact hs.replayed replay hold

theorem Traced.step {a : Act Q} (hs : Traced calls s) (h : step calls s a = some t) :
    Traced calls t := by
  cases a with
  | restart =>
    cases h
    refine ⟨hs.past, ?_, hs.recorded, hs.replayed⟩
    intro key result hresult
    cases hresult
  | call auditError reply auditWritten =>
    cases h
    rcases @executeTrade_cases _ calls s auditError reply auditWritten with
      hidle | ⟨operationId, rest, hreply, hexecute⟩ | ⟨hkey, cached, hcached, hreplay⟩ |
      ⟨hkey, replay, hfound, hreplay⟩
    · rw [hidle]
      exact ⟨fun source hsource => (hs.past source hsource).trans (Nat.lt_succ_self _), hs.cached,
        hs.recorded, hs.replayed⟩
    · rw [hexecute, hreply]
      exact hs.execute
    · rw [hreplay]
      obtain ⟨source, hsource, hmatch, hmode⟩ := hs.cached _ _ hcached
      exact hs.replay hkey ⟨source, hsource, hmatch, hmode⟩
    · rw [hreplay]
      have hfrom : FromSuccess calls s (calls.key s.next) replay := by
        obtain ⟨row, hrow, hrowkey, rfl⟩ := fetchSuccessfulTradeResult_some hfound
        rw [← hrowkey]
        exact hs.recorded row hrow (by rw [hrowkey]; exact hkey)
      have hmoved := hs.replay hkey hfrom
      exact ⟨hmoved.past, cached_store hs.cached hfrom, hmoved.recorded, hmoved.replayed⟩

end Step

/-- No later call shares its request id with an earlier one in the other mode. -/
def ModesApart (calls : Calls) : Prop :=
  ∀ earlier later, earlier < later → calls.key later ≠ "" →
    calls.cacheKey earlier = calls.key later → calls.dryRun earlier = calls.dryRun later

theorem keptApart_of_modesApart {calls : Calls} {s : State Q} (hs : Traced calls s)
    (hmodes : ModesApart calls) : KeptApart calls s := by
  have hmatch : ∀ replay ∈ s.replays, ∃ source ∈ s.succeeded, source < replay.1 ∧
      calls.cacheKey source = calls.key replay.1 ∧
      replay.2.payload.dryRun = calls.dryRun source ∧
      calls.dryRun source = calls.dryRun replay.1 := by
    intro replay hreplay
    obtain ⟨hkey, source, hsource, hlt, hsame, hmode⟩ := hs.replayed replay hreplay
    exact ⟨source, hsource, hlt, hsame, hmode, hmodes source replay.1 hlt hkey hsame⟩
  constructor
  · intro replay hreplay
    obtain ⟨source, _, _, _, hmode, hequal⟩ := hmatch replay hreplay
    exact hmode.trans hequal
  · intro replay hreplay hreal
    obtain ⟨source, hsource, hlt, hsame, _, hequal⟩ := hmatch replay hreplay
    exact ⟨source, hsource, hlt, hequal.trans hreal, hsame⟩

section Shared

variable {calls : Calls}

/-- A call whose execution raises and that finds nothing in the audit. -/
def failing : Act Q := .call none (.error "broker unavailable") false

theorem fetchSuccessfulTradeResult_nil (cfg : Config) (key : String) :
    fetchSuccessfulTradeResult cfg ([] : List (AuditRow (Response Q))) key = none := by
  unfold fetchSuccessfulTradeResult
  rw [List.take_nil, List.find?_nil]
  split
  · rfl
  · rfl

/-- Over an empty audit a failing call leaves the cache as it is. -/
theorem step_failing {s : State Q} (haudit : s.audit = []) :
    ∃ t, step calls s failing = some t ∧ t.next = s.next + 1 ∧ t.cache = s.cache ∧ t.audit = [] := by
  refine ⟨executeTrade calls s none (.error "broker unavailable") false, rfl, ?_⟩
  rcases @executeTrade_cases _ calls s none (.error "broker unavailable") false with
    hidle | ⟨operationId, rest, hreply, _⟩ | ⟨_, cached, _, hreplay⟩ | ⟨_, replay, hfound, _⟩
  · rw [hidle]
    exact ⟨rfl, rfl, haudit⟩
  · cases hreply
  · rw [hreplay]
    exact ⟨rfl, rfl, haudit⟩
  · rw [haudit, fetchSuccessfulTradeResult_nil] at hfound
    cases hfound

theorem run_failing (count : ℕ) {s : State Q} (haudit : s.audit = []) :
    ∃ t, run (step calls) s (List.replicate count failing) = some t ∧ t.next = s.next + count ∧
      t.cache = s.cache ∧ t.audit = [] := by
  induction count generalizing s with
  | zero => exact ⟨s, rfl, rfl, rfl, haudit⟩
  | succ count ih =>
    obtain ⟨u, hu, hnext, hcache, hempty⟩ := @step_failing _ calls s haudit
    obtain ⟨t, ht, hlast, hkept, hnone⟩ := ih hempty
    refine ⟨t, ?_, by omega, hkept.trans hcache, hnone⟩
    rw [List.replicate_succ, run, hu, Option.bind_some]
    exact ht

/-- With nothing stored a call runs its execution. -/
theorem executeTrade_fresh {s : State Q} (hcache : s.cache = Dict.empty) (haudit : s.audit = [])
    (reply : Except String (String × Q)) :
    executeTrade calls s none reply false = execute calls s reply false := by
  unfold executeTrade
  split
  · rfl
  · rw [hcache, Dict.get?_empty]
    dsimp only
    rw [haudit, fetchSuccessfulTradeResult_nil]

/-- The first stored result is found again. -/
theorem get?_first_store (hlimit : 0 < calls.memoryCacheLimit) {key : String} (hkey : key ≠ "")
    (result : TradeResult (Response Q)) :
    (cacheSuccessfulTradeResult calls.toConfig Dict.empty key result).get? key = some result := by
  have hroom : evicted calls.toConfig ((Dict.empty : Dict String (TradeResult (Response Q))).set
      key result) = [] := by
    unfold evicted
    exact if_neg (Nat.not_lt.mpr hlimit)
  unfold cacheSuccessfulTradeResult
  rw [if_neg hkey, Dict.get?_pick, hroom, Dict.get?_set]
  simp

/-- A call that finds a result in memory replays it, whatever its mode. -/
theorem executeTrade_memory {s : State Q} {cached : TradeResult (Response Q)}
    (hkey : calls.key s.next ≠ "") (hcached : s.cache.get? (calls.key s.next) = some cached)
    (auditError : Option String) (reply : Except String (String × Q)) (auditWritten : Bool) :
    executeTrade calls s auditError reply auditWritten =
      s.replay (buildIdempotentTradeReplay cached .memory
        (stripOrNone (some cached.operationId))) := by
  unfold executeTrade
  rw [if_neg hkey, hcached]

/-- The first of two calls that share a request id succeeds, and all others before the
second one fail: then its result is still cached. -/
theorem exists_cached [Inhabited Q] (hlimit : 0 < calls.memoryCacheLimit) {earlier later : ℕ}
    (hlt : earlier < later) (hkey : calls.key later ≠ "")
    (hsame : calls.cacheKey earlier = calls.key later) :
    ∃ labels s cached, run (step calls) (State.initial : State Q) labels = some s ∧
      s.next = later ∧ s.cache.get? (calls.key later) = some cached ∧
      cached.payload.dryRun = calls.dryRun earlier := by
  obtain ⟨before, hbefore, hnext, hcache, haudit⟩ :=
    @run_failing _ calls earlier (State.initial : State Q) rfl
  have hnumber : before.next = earlier := hnext.trans (Nat.zero_add earlier)
  generalize hafter : execute calls before (.ok ("op", (default : Q))) false = after
  have hstep : step calls before (.call none (.ok ("op", default)) false) = some after := by
    rw [← hafter, ← executeTrade_fresh hcache haudit]
    rfl
  have hstored : after.cache.get? (calls.key later) =
      some ⟨⟨calls.resultId earlier, calls.dryRun earlier, default⟩, "op", none⟩ := by
    rw [← hafter, ← hsame, ← hnumber]
    dsimp only [execute]
    rw [hcache]
    apply get?_first_store hlimit
    rw [hnumber, hsame]
    exact hkey
  have hempty : after.audit = [] := by
    rw [← hafter]
    dsimp only [execute]
    rw [Bool.and_false, if_neg Bool.false_ne_true]
    exact haudit
  obtain ⟨last, hlast, hlastNext, hlastCache, _⟩ :=
    @run_failing _ calls (later - earlier - 1) after hempty
  refine ⟨List.replicate earlier failing ++ (.call none (.ok ("op", default)) false ::
    List.replicate (later - earlier - 1) failing), last, _, ?_, ?_, hlastCache ▸ hstored, rfl⟩
  · rw [run_append, hbefore, Option.bind_some, run, hstep, Option.bind_some, hlast]
  · rw [hlastNext, ← hafter]
    dsimp only [execute]
    omega

/-- The second call then gets a replay in the mode of the first. -/
theorem exists_replay [Inhabited Q] (hlimit : 0 < calls.memoryCacheLimit) {earlier later : ℕ}
    (hlt : earlier < later) (hkey : calls.key later ≠ "")
    (hsame : calls.cacheKey earlier = calls.key later) :
    ∃ labels s replay, run (step calls) (State.initial : State Q) labels = some s ∧
      (later, replay) ∈ s.replays ∧ replay.payload.dryRun = calls.dryRun earlier := by
  obtain ⟨labels, s, cached, hrun, rfl, hcached, hmode⟩ := exists_cached (Q := Q) hlimit hlt hkey hsame
  generalize hreplay : buildIdempotentTradeReplay cached .memory
    (stripOrNone (some cached.operationId)) = replay
  have hstep : step calls s failing = some (s.replay replay) := by
    rw [← hreplay, failing, step, executeTrade_memory hkey hcached]
  refine ⟨labels ++ [failing], s.replay replay, replay, ?_, List.mem_cons_self, ?_⟩
  · rw [run_append, hrun, Option.bind_some, run, hstep, Option.bind_some, run]
  · rw [← hreplay]
    exact hmode

end Shared

/-- Replays keep the modes apart in every run exactly when no call shares its request id
with an earlier call of the other mode. -/
theorem kept_apart_iff [Inhabited Q] (calls : Calls) (hlimit : 0 < calls.memoryCacheLimit) :
    (∀ (labels : List (Act Q)) (s : State Q),
        run (step calls) State.initial labels = some s → KeptApart calls s) ↔ ModesApart calls := by
  constructor
  · intro hkept earlier later hlt hkey hsame
    obtain ⟨labels, s, replay, hrun, hmem, hmode⟩ := @exists_replay Q calls _ hlimit earlier later
      hlt hkey hsame
    exact hmode.symm.trans ((hkept labels s hrun).same_mode _ hmem)
  · intro hmodes labels s hrun
    exact keptApart_of_modesApart
      (run_invariant (fun _ _ _ hs h => hs.step h) (traced_initial calls) hrun) hmodes

/-- All calls carry the request id `r1`; the first one is a dry run, the others are real. -/
def dryRunFirst : Calls where
  requestId := fun _ => some "r1"
  hasDbWriter := true
  memoryCacheLimit := 500
  pruneToSize := 250
  auditLookbackLimit := 200
  dryRun := fun call => call = 0
  generated := fun _ => "g1"

theorem kept_apart_iff_run :
    0 < dryRunFirst.memoryCacheLimit ∧
      ((∀ (labels : List (Act ℕ)) (s : State ℕ),
          run (step dryRunFirst) State.initial labels = some s → KeptApart dryRunFirst s) ↔
        ModesApart dryRunFirst) :=
  ⟨by decide, kept_apart_iff dryRunFirst (by decide)⟩

/-- A real call gets the result of the dry run with its request id, out of the audit after
a restart. -/
theorem dry_run_replayed_to_real_call :
    ¬ ∀ (calls : Calls) (labels : List (Act ℕ)) (s : State ℕ),
      run (step calls) State.initial labels = some s → KeptApart calls s := by
  intro hclaim
  have hrun : (run (step dryRunFirst) (State.initial : State ℕ)
      [.call none (.ok ("op", 7)) true, .restart, .call none (.error "unused") false]).map
        (fun s => s.replays.map fun replay => (replay.1, replay.2.payload.dryRun)) =
      some [(1, true)] := by decide +kernel
  obtain ⟨s, hs, hreplays⟩ := Option.map_eq_some_iff.mp hrun
  obtain ⟨replay, hreplay, hpair⟩ := List.mem_map.mp (hreplays ▸ List.mem_singleton_self (1, true))
  have hmode := (hclaim dryRunFirst _ s hs).same_mode replay hreplay
  obtain ⟨hcall, hdry⟩ := Prod.mk.inj hpair
  rw [hcall, hdry] at hmode
  exact absurd hmode (by decide)

end MT5Services.DryRunReplays
