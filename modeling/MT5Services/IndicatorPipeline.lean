import MT5Services.DependencyGraph
import MT5Services.Runs
import MT5Services.SmartCache

/-!
`OptimizedPipeline`: indicators are registered under a name and computed level by level of
their dependencies, serially or by the parallel executor. Two caches stand before the
functions, the smart cache and the executor's own results, both under a key made of the
name and six fields of the bars. Every cached value carries what it was made from, which
the code does not look at.
-/
namespace MT5Services.IndicatorPipeline

open DependencyGraph (Adjacency DependencyManager link linked)
open Levels Runs

structure Bar where
  time : ℚ
  openPrice : ℚ
  high : ℚ
  low : ℚ
  close : ℚ
  volume : ℚ
  deriving DecidableEq, Repr

/-- A field of a result: a number (a bool is one in Python), a NaN or infinity, or something
else. -/
inductive FieldValue
  | number (value : ℚ)
  | notFinite
  | other (text : String)
  deriving DecidableEq, Repr

abbrev Result := List (String × FieldValue)

def FieldValue.isNumeric : FieldValue → Bool
  | .number _ | .notFinite => true
  | .other _ => false

def sanitizeResult (result : Result) : Result :=
  let cleaned := result.filter fun field => field.2 ≠ .notFinite
  if cleaned.any fun field => field.2.isNumeric then cleaned else []

/-- `sanitize_result(result) or None`; `none` also when the function raised. -/
def cleaned (result : Option Result) : Option Result :=
  result.bind fun fields => if sanitizeResult fields = [] then none else some (sanitizeResult fields)

inductive Scope
  | confirmed
  | intrabar
  deriving DecidableEq, Repr

structure IndicatorState (M : Type*) where
  timestamp : ℚ
  lastBarTime : Option ℚ
  intermediateResults : M
  deriving DecidableEq

section State

variable {M : Type*}

def IndicatorState.isValid (state : IndicatorState M) (currentTime : ℚ) : Bool :=
  decide (currentTime - state.timestamp ≤ 3600)

def canUseIncremental (bars : List Bar) (state : IndicatorState M) : Bool :=
  match bars.getLast?, state.lastBarTime with
  | some latest, some lastTime => decide (lastTime < latest.time)
  | _, _ => false

end State

/-- The code that is plugged in: pure indicator functions, incremental classes, and
Python's hash of the six fields. `none` stands for an exception. -/
structure Library (F P C : Type*) where
  call : F → List Bar → P → Option Result
  computeFull : C → P → List Bar → Option Result
  computeIncremental : C → P → List Bar → IndicatorState (List ℚ) → Option Result
  createNewState : C → P → ℚ → List Bar → Result → IndicatorState (List ℚ)
  supportsIncremental : C → Bool
  minDataPoints : P → ℕ
  hash : ℕ × ℚ × ℚ × ℚ × ℚ × ℚ → ℤ

structure StateKey (P : Type*) where
  symbol : String
  timeframe : String
  params : P
  scope : Scope
  deriving DecidableEq

/-- An instance of an incremental class with its states. -/
structure Incremental (P C : Type*) where
  incrementalClass : C
  params : P
  stateStore : Dict (StateKey P) (IndicatorState (List ℚ))

structure Registration (F P C : Type*) where
  func : F
  params : P
  incrementalClass : Option C
  deriving DecidableEq

/-- What a value was made from: a function on bars, or an incremental instance. -/
inductive Origin (F P : Type*)
  | call (func : F) (params : P) (bars : List Bar)
  | incremental
  deriving DecidableEq

structure Made (F P V : Type*) where
  value : V
  origin : Origin F P
  deriving DecidableEq

/-- `cache_strategy`; other texts fall back to `lru_ttl`. -/
inductive CacheStrategy
  | none
  | simple
  | lruTtl
  deriving DecidableEq, Repr

structure PipelineConfig where
  enableParallel : Bool := true
  enableCache : Bool := true
  cacheStrategy : CacheStrategy := .lruTtl
  cacheTtl : ℚ := 300
  cacheMaxsize : ℕ := 1000
  enableIncremental : Bool := true
  deriving DecidableEq, Repr

/-- The result cache of `ParallelExecutor`; its settings are those of its creation. -/
structure Executor (F P : Type*) where
  resultCache : Dict String (Made F P (Option Result) × ℚ)
  enableCache : Bool
  cacheTtl : ℚ

structure Pipeline (F P C : Type*) where
  config : PipelineConfig
  registrations : Dict String (Registration F P C) := Dict.empty
  /-- The dependencies of an indicator are a set. -/
  graph : Adjacency := Dict.empty
  indicatorCacheTtl : Dict String ℚ := Dict.empty
  incrementalIndicators : Dict String (Incremental P C) := Dict.empty
  cache : SmartCache (Made F P Result)
  executor : Option (Executor F P) := none

/-- The order in which the indicators of a level are taken: sets and threads have none
of their own, so it is the environment's. -/
structure Schedule where
  arrange : List String → List String
  perm : ∀ level, (arrange level).Perm level

structure Call where
  symbol : String
  timeframe : String
  bars : List Bar
  /-- All registered indicators when `none`. -/
  indicators : Option (List String)
  scope : Scope
  now : ℚ
  schedule : Schedule

variable {F P C : Type*}

/-- The strategy `none` switches the caches off. -/
def applyRuntimeConfig (config : PipelineConfig) : PipelineConfig :=
  if config.cacheStrategy = .none then { config with enableCache := false } else config

def start (config : PipelineConfig) : Pipeline F P C :=
  { config := applyRuntimeConfig config
    cache := { maxsize := config.cacheMaxsize, ttl := config.cacheTtl } }

/-- Edges are only ever added, and none from an indicator to itself. -/
def addDependency (graph : Adjacency) (name dependsOn : String) : Adjacency :=
  if name = dependsOn then graph else link graph name dependsOn

/-- The pipeline's map is the one of its dependency manager. -/
theorem graph_addIndicator (m : DependencyManager F P) (name : String) (func : F) (params : P)
    (dependencies : List String) :
    (m.addIndicator name func params dependencies).graph =
      dependencies.foldl (fun graph dependsOn => addDependency graph name dependsOn) m.graph := by
  refine (List.foldl_hom DependencyManager.graph ?_).symm
  intro m dependsOn
  unfold addDependency DependencyManager.addDependency
  split_ifs
  · rfl
  · rfl

section Registration

variable [DecidableEq P] [DecidableEq C]

/-- The instance after a registration with an incremental class. -/
def registerIncremental (existing : Option (Incremental P C)) (newClass : C) (params : P) :
    Incremental P C :=
  match existing with
  | none => ⟨newClass, params, Dict.empty⟩
  | some instance_ =>
    if instance_.incrementalClass = newClass then
      if instance_.params = params then instance_ else ⟨newClass, params, Dict.empty⟩
    else ⟨newClass, params, instance_.stateStore⟩

/-- Without an incremental class an instance of an earlier registration stays. -/
def registerIndicator (p : Pipeline F P C) (name : String) (func : F) (params : P)
    (dependencies : List String) (incrementalClass : Option C) : Pipeline F P C :=
  { p with
    registrations := p.registrations.set name ⟨func, params, incrementalClass⟩
    graph := dependencies.foldl (fun graph dependsOn => addDependency graph name dependsOn) p.graph
    incrementalIndicators :=
      match incrementalClass with
      | none => p.incrementalIndicators
      | some newClass =>
        p.incrementalIndicators.set name
          (registerIncremental (p.incrementalIndicators.get? name) newClass params) }

end Registration

/-- The smart cache keeps its entries as far as they fit; the executor is shut down. -/
def updateConfig (p : Pipeline F P C) (config : PipelineConfig) : Pipeline F P C :=
  { p with
    config := applyRuntimeConfig config
    cache := { p.cache.resize config.cacheMaxsize with ttl := config.cacheTtl }
    executor := none }

/-- The results of the executor are not cleared. -/
def clearCache (p : Pipeline F P C) : Pipeline F P C := { p with cache := p.cache.clear }

def computeBarsHash (lib : Library F P C) (bars : List Bar) : ℤ :=
  match bars.head?, bars.getLast? with
  | some first, some last =>
    lib.hash (bars.length, first.time, last.time, last.high, last.low, last.close)
  | _, _ => 0

/-- The cache key, also the executor's task identifier. -/
def generateCacheKey (lib : Library F P C) (name : String) (call : Call) : String :=
  name ++ ("_" ++ call.symbol ++ "_" ++ call.timeframe ++ "_" ++
    toString (computeBarsHash lib call.bars))

theorem generateCacheKey_inj {lib : Library F P C} {name other : String} {call : Call}
    (h : generateCacheKey lib other call = generateCacheKey lib name call) : other = name :=
  (String.append_left_inj _).mp h

section Incremental

variable [DecidableEq P]

/-- `IncrementalIndicator.compute`; it answers an empty result where it fails. -/
def Incremental.compute (lib : Library F P C) (i : Incremental P C) (call : Call) :
    Result × Incremental P C :=
  if call.bars.length < lib.minDataPoints i.params then ([], i)
  else
    let key : StateKey P := ⟨call.symbol, call.timeframe, i.params, call.scope⟩
    let usable := (i.stateStore.get? key).filter fun state =>
      lib.supportsIncremental i.incrementalClass && state.isValid call.now &&
        canUseIncremental call.bars state
    let result := match usable with
      | some state => lib.computeIncremental i.incrementalClass i.params call.bars state
      | none => lib.computeFull i.incrementalClass i.params call.bars
    match result with
    | none => ([], i)
    | some [] => ([], i)
    | some fields =>
      let state := lib.createNewState i.incrementalClass i.params call.now call.bars fields
      (fields, { i with stateStore := i.stateStore.set key state })

/-- An instance is asked before the function; `none` when the name is not registered or
the function raises. -/
def runIndicator (lib : Library F P C) (p : Pipeline F P C) (name : String) (call : Call) :
    Made F P (Option Result) × Pipeline F P C :=
  match p.registrations.get? name with
  | none => (⟨none, .incremental⟩, p)
  | some registration =>
    match if p.config.enableIncremental then p.incrementalIndicators.get? name else none with
    | some i =>
      let answer := i.compute lib call
      (⟨some answer.1, .incremental⟩,
        { p with incrementalIndicators := p.incrementalIndicators.set name answer.2 })
    | none =>
      (⟨lib.call registration.func call.bars registration.params,
        .call registration.func registration.params call.bars⟩, p)

/-- The value of a run is sanitized and cached; a cache that raises loses it. -/
def computeFresh (lib : Library F P C) (p : Pipeline F P C) (name : String) (call : Call) :
    Made F P (Option Result) × Pipeline F P C :=
  let ran := runIndicator lib p name call
  match cleaned ran.1.value with
  | none => (⟨none, ran.1.origin⟩, ran.2)
  | some fields =>
    if ran.2.config.enableCache then
      match ran.2.cache.set call.now (generateCacheKey lib name call) ⟨fields, ran.1.origin⟩
        (ran.2.indicatorCacheTtl.get? name) with
      | none => (⟨none, ran.1.origin⟩, ran.2)
      | some cache => (⟨some fields, ran.1.origin⟩, { ran.2 with cache := cache })
    else (⟨some fields, ran.1.origin⟩, ran.2)

def computeIndicator (lib : Library F P C) (p : Pipeline F P C) (name : String) (call : Call) :
    Made F P (Option Result) × Pipeline F P C :=
  if p.config.enableCache then
    match p.cache.get call.now (generateCacheKey lib name call) with
    | (some made, cache) => (⟨some made.value, made.origin⟩, { p with cache := cache })
    | (none, cache) => computeFresh lib { p with cache := cache } name call
  else computeFresh lib p name call

end Incremental

def Executor.expired (e : Executor F P) (now timestamp : ℚ) : Bool :=
  decide (e.cacheTtl < now - timestamp)

theorem Executor.expired_congr {e d : Executor F P} (h : d.cacheTtl = e.cacheTtl)
    (now timestamp : ℚ) : d.expired now timestamp = e.expired now timestamp := by
  unfold Executor.expired
  rw [h]

/-- A cached `None` counts as a miss, a result that is too old is dropped. -/
def Executor.getCachedResult (e : Executor F P) (now : ℚ) (key : String) :
    Option (Made F P (Option Result)) × Executor F P :=
  match e.resultCache.get? key with
  | none => (none, e)
  | some (made, timestamp) =>
    if e.expired now timestamp then (none, { e with resultCache := e.resultCache.pop key })
    else if made.value.isSome then (some made, e)
    else (none, e)

theorem getCachedResult_spec {e rest : Executor F P} {now : ℚ} {key : String}
    {found : Option (Made F P (Option Result))}
    (h : e.getCachedResult now key = (found, rest)) :
    rest.cacheTtl = e.cacheTtl ∧
    (∀ other result, rest.resultCache.get? other = some result →
      e.resultCache.get? other = some result) ∧
    ∀ made, found = some made → ∃ timestamp,
      e.resultCache.get? key = some (made, timestamp) ∧ e.expired now timestamp = false ∧
        made.value.isSome = true := by
  unfold Executor.getCachedResult at h
  split at h
  · cases h
    refine ⟨rfl, fun _ _ hresult => hresult, ?_⟩
    intro made hmade
    cases hmade
  · next stored timestamp hstored =>
    split_ifs at h with hexpired hsome
    · cases h
      refine ⟨rfl, ?_, ?_⟩
      · intro other result hresult
        dsimp only at hresult
        rw [Dict.get?_pop] at hresult
        split_ifs at hresult
        exact hresult
      · intro made hmade
        cases hmade
    · cases h
      refine ⟨rfl, fun _ _ hresult => hresult, ?_⟩
      intro made hmade
      cases Option.some.inj hmade
      exact ⟨timestamp, hstored, Bool.eq_false_iff.mpr hexpired, hsome⟩
    · cases h
      refine ⟨rfl, fun _ _ hresult => hresult, ?_⟩
      intro made hmade
      cases hmade

def Executor.setCachedResult (e : Executor F P) (now : ℚ) (key : String)
    (made : Made F P (Option Result)) : Executor F P :=
  if e.enableCache then { e with resultCache := e.resultCache.set key (made, now) } else e

/-- The executor is created when it is first needed. -/
def executorOf (p : Pipeline F P C) : Executor F P :=
  p.executor.getD ⟨Dict.empty, p.config.enableCache, p.config.cacheTtl⟩

section Compute

variable [DecidableEq P]

/-- A task of `execute_parallel`. -/
def executeTask (lib : Library F P C) (p : Pipeline F P C) (name : String) (call : Call) :
    Made F P (Option Result) × Pipeline F P C :=
  let key := generateCacheKey lib name call
  let lookup := if p.config.enableCache && (executorOf p).enableCache then
      (executorOf p).getCachedResult call.now key
    else (none, executorOf p)
  match lookup with
  | (some made, e) => (made, { p with executor := some e })
  | (none, e) =>
    let answer := computeIndicator lib { p with executor := some e } name call
    (answer.1, { answer.2 with executor := some (e.setCachedResult call.now key answer.1) })

/-- One indicator of a level; the parallel path reports no indicator of empty name. -/
def computeMember (lib : Library F P C) (call : Call) (parallel : Bool)
    (acc : Pipeline F P C × Dict String (Option Result)) (name : String) :
    Pipeline F P C × Dict String (Option Result) :=
  let answer := if parallel then executeTask lib acc.1 name call
    else computeIndicator lib acc.1 name call
  (answer.2, if parallel && name = "" then acc.2 else acc.2.set name answer.1.value)

/-- A level of one indicator runs serially. -/
def runsParallel (config : PipelineConfig) (level : List String) : Bool :=
  config.enableParallel && decide (1 < level.length)

def computeParallelGroup (lib : Library F P C) (call : Call)
    (acc : Pipeline F P C × Dict String (Option Result)) (level : List String) :
    Pipeline F P C × Dict String (Option Result) :=
  (call.schedule.arrange level).foldl
    (computeMember lib call (runsParallel acc.1.config level)) acc

end Compute

def edges (p : Pipeline F P C) (name : String) : List String := linked p.graph name

/-- The names that stand in the graph as dependencies. -/
def dependencyNames (p : Pipeline F P C) : List String :=
  p.graph.values.flatMap fun dependencies => dependencies.keys

/-- The requested indicators with all they depend on. -/
def relevantNodes (p : Pipeline F P C) (indicators : List String) : List String :=
  indicators.foldl (fun relevant name =>
    search (edges p) ((dependencyNames p).length + 1) [name]
      (if name ∈ relevant then relevant else relevant ++ [name])) []

def requested (p : Pipeline F P C) (call : Call) : List String :=
  call.indicators.getD p.registrations.keys

/-- The groups from the indicators without dependencies on; `none` for the circular
dependency that raises. -/
def getExecutionOrder (p : Pipeline F P C) (call : Call) : Option (List (List String)) :=
  levels (edges p) (relevantNodes p (requested p call))

/-- An exception leaves an empty dictionary. -/
def compute [DecidableEq P] (lib : Library F P C) (p : Pipeline F P C) (call : Call) :
    Pipeline F P C × Dict String (Option Result) :=
  match getExecutionOrder p call with
  | none => (p, Dict.empty)
  | some groups => groups.foldl (computeParallelGroup lib call) (p, Dict.empty)

inductive Act (F P C : Type*)
  | register (name : String) (func : F) (params : P) (dependencies : List String)
      (incrementalClass : Option C)
  | setCacheTtl (name : String) (ttl : ℚ)
  | compute (call : Call)
  | clearCache
  | updateConfig (config : PipelineConfig)

def step [DecidableEq P] [DecidableEq C] (lib : Library F P C) (p : Pipeline F P C) :
    Act F P C → Option (Pipeline F P C)
  | .register name func params dependencies incrementalClass =>
    some (registerIndicator p name func params dependencies incrementalClass)
  | .setCacheTtl name ttl =>
    some { p with indicatorCacheTtl := p.indicatorCacheTtl.set name ttl }
  | .compute call => some (compute lib p call).1
  | .clearCache => some (clearCache p)
  | .updateConfig config => some (updateConfig p config)

section Spec

variable [DecidableEq P] {lib : Library F P C} {p q t : Pipeline F P C} {call : Call}
  {parallel : Bool} {name : String} {made : Made F P (Option Result)}

/-- Where the answer of an indicator comes from. -/
inductive Source (lib : Library F P C) (p : Pipeline F P C) (call : Call) (parallel : Bool)
    (name : String) (made : Made F P (Option Result)) : Prop
  | ran (origin : made.origin = (runIndicator lib p name call).1.origin)
      (value : made.value = cleaned (runIndicator lib p name call).1.value ∨
        (made.value = none ∧ p.config.enableCache = true ∧ p.cache.maxsize = 0))
  | cached (entry : CacheEntry (Made F P Result)) (on : p.config.enableCache = true)
      (mem : entry ∈ p.cache.entries) (key : entry.key = generateCacheKey lib name call)
      (live : p.cache.expired call.now entry = false)
      (eq : made = ⟨some entry.value.value, entry.value.origin⟩)
  | executed (timestamp : ℚ) (inParallel : parallel = true) (on : p.config.enableCache = true)
      (stored : (executorOf p).resultCache.get? (generateCacheKey lib name call) =
        some (made, timestamp))
      (live : (executorOf p).expired call.now timestamp = false)
      (isSome : made.value.isSome = true)

/-- A pipeline after a read of its caches. -/
structure ReadOf (p q : Pipeline F P C) : Prop where
  config : q.config = p.config
  registrations : q.registrations = p.registrations
  instances : q.incrementalIndicators = p.incrementalIndicators
  maxsize : q.cache.maxsize = p.cache.maxsize
  ttl : q.cache.ttl = p.cache.ttl
  entries : q.cache.entries ⊆ p.cache.entries
  executorTtl : (executorOf q).cacheTtl = (executorOf p).cacheTtl
  results : ∀ key result, (executorOf q).resultCache.get? key = some result →
    (executorOf p).resultCache.get? key = some result

/-- All that the computation of one indicator does: both caches take in its answer at
most, under its own key. -/
structure Computed (lib : Library F P C) (p : Pipeline F P C) (call : Call) (parallel : Bool)
    (name : String) (made : Made F P (Option Result)) (t : Pipeline F P C) : Prop where
  source : Source lib p call parallel name made
  config : t.config = p.config
  registrations : t.registrations = p.registrations
  instances : ∀ other, p.incrementalIndicators.get? other = none →
    t.incrementalIndicators.get? other = none
  maxsize : t.cache.maxsize = p.cache.maxsize
  ttl : t.cache.ttl = p.cache.ttl
  entries : ∀ entry ∈ t.cache.entries, entry ∈ p.cache.entries ∨
    (entry.key = generateCacheKey lib name call ∧
      made = ⟨some entry.value.value, entry.value.origin⟩)
  executorTtl : (executorOf t).cacheTtl = (executorOf p).cacheTtl
  results : ∀ key result, (executorOf t).resultCache.get? key = some result →
    (executorOf p).resultCache.get? key = some result ∨
      (key = generateCacheKey lib name call ∧ made = result.1)

theorem ReadOf.runIndicator (h : ReadOf p q) (name : String) (call : Call) :
    (runIndicator lib q name call).1 = (runIndicator lib p name call).1 := by
  unfold IndicatorPipeline.runIndicator
  rw [h.registrations, h.config, h.instances]
  cases p.registrations.get? name with
  | none => rfl
  | some registration =>
    dsimp only
    cases (if p.config.enableIncremental then p.incrementalIndicators.get? name else none) with
    | none => rfl
    | some i => rfl

/-- What is computed after a read is computed from before it. -/
theorem Computed.ofRead (hread : ReadOf p q) (h : Computed lib q call parallel name made t) :
    Computed lib p call parallel name made t where
  source := by
    cases h.source with
    | ran origin value =>
      rw [hread.runIndicator] at origin value
      rw [hread.config, hread.maxsize] at value
      exact .ran origin value
    | cached entry on mem key live eq =>
      rw [hread.config] at on
      rw [SmartCache.expired_congr hread.ttl] at live
      exact .cached entry on (hread.entries mem) key live eq
    | executed timestamp inParallel on stored live isSome =>
      rw [hread.config] at on
      rw [Executor.expired_congr hread.executorTtl] at live
      exact .executed timestamp inParallel on (hread.results _ _ stored) live isSome
  config := h.config.trans hread.config
  registrations := h.registrations.trans hread.registrations
  instances := by
    rw [← hread.instances]
    exact h.instances
  maxsize := h.maxsize.trans hread.maxsize
  ttl := h.ttl.trans hread.ttl
  entries := by
    intro entry hentry
    rcases h.entries entry hentry with hold | hnew
    · exact .inl (hread.entries hold)
    · exact .inr hnew
  executorTtl := h.executorTtl.trans hread.executorTtl
  results := by
    intro key result hresult
    rcases h.results key result hresult with hold | hnew
    · exact .inl (hread.results key result hold)
    · exact .inr hnew

/-- Only instances change in a run, and none comes to be. -/
theorem runIndicator_frame (lib : Library F P C) (p : Pipeline F P C) (name : String)
    (call : Call) : ∃ table, (runIndicator lib p name call).2 =
      { p with incrementalIndicators := table } ∧
      ∀ other, p.incrementalIndicators.get? other = none → table.get? other = none := by
  unfold runIndicator
  cases p.registrations.get? name with
  | none => exact ⟨p.incrementalIndicators, rfl, fun _ hother => hother⟩
  | some registration =>
    dsimp only
    split
    · next i hinstance =>
      refine ⟨_, rfl, ?_⟩
      intro other hother
      rw [Dict.get?_set, if_neg]
      · exact hother
      · rintro rfl
        split_ifs at hinstance
        rw [hother] at hinstance
        cases hinstance
    · exact ⟨p.incrementalIndicators, rfl, fun _ hother => hother⟩

/-- A run that caches nothing. -/
theorem Computed.ofInstances {table : Dict String (Incremental P C)}
    (hsource : Source lib p call parallel name made)
    (htable : ∀ other, p.incrementalIndicators.get? other = none → table.get? other = none) :
    Computed lib p call parallel name made { p with incrementalIndicators := table } where
  source := hsource
  config := rfl
  registrations := rfl
  instances := htable
  maxsize := rfl
  ttl := rfl
  entries := fun _ hentry => .inl hentry
  executorTtl := rfl
  results := fun _ _ hresult => .inl hresult

theorem computeFresh_computed (lib : Library F P C) (p : Pipeline F P C) (name : String)
    (call : Call) (parallel : Bool) :
    Computed lib p call parallel name (computeFresh lib p name call).1
      (computeFresh lib p name call).2 := by
  obtain ⟨table, hran, htable⟩ := runIndicator_frame lib p name call
  unfold computeFresh
  dsimp only
  rw [hran]
  dsimp only
  split
  · next hcleaned =>
    exact Computed.ofInstances (.ran rfl (.inl hcleaned.symm)) htable
  · next fields hcleaned =>
    split_ifs with hon
    · split
      · next hset =>
        have hempty : p.cache.maxsize = 0 := by
          by_contra hroom
          obtain ⟨rest, hrest⟩ := SmartCache.set_isSome (Nat.pos_of_ne_zero hroom) call.now
            (generateCacheKey lib name call)
            ⟨fields, (runIndicator lib p name call).1.origin⟩ (p.indicatorCacheTtl.get? name)
          rw [hset] at hrest
          cases hrest
        exact Computed.ofInstances (.ran rfl (.inr ⟨rfl, hon, hempty⟩)) htable
      · next cache hset =>
        obtain ⟨hmaxsize, httl, hentries⟩ := SmartCache.set_mem hset
        refine ⟨.ran rfl (.inl hcleaned.symm), rfl, rfl, htable, hmaxsize, httl, ?_, rfl, ?_⟩
        · intro entry hentry
          rcases hentries entry hentry with hold | ⟨hkey, hvalue⟩
          · exact .inl hold
          · right
            rw [hvalue]
            exact ⟨hkey, rfl⟩
        · exact fun key result hresult => .inl hresult
    · exact Computed.ofInstances (.ran rfl (.inl hcleaned.symm)) htable

theorem computeIndicator_computed (lib : Library F P C) (p : Pipeline F P C) (name : String)
    (call : Call) (parallel : Bool) :
    Computed lib p call parallel name (computeIndicator lib p name call).1
      (computeIndicator lib p name call).2 := by
  unfold computeIndicator
  split_ifs with hon
  · split
    · next found cache hget =>
      obtain ⟨entry, hmem, hkey, hlive, hvalue⟩ := SmartCache.get_mem hget
      obtain ⟨hentries, hmaxsize, httl⟩ := SmartCache.get_subset hget
      refine ⟨.cached entry hon hmem hkey hlive (by rw [hvalue]), rfl, rfl, ?_, hmaxsize, httl,
        ?_, rfl, ?_⟩
      · exact fun other hother => hother
      · exact fun other hother => .inl (hentries hother)
      · exact fun key result hresult => .inl hresult
    · next cache hget =>
      obtain ⟨hentries, hmaxsize, httl⟩ := SmartCache.get_subset hget
      have hread : ReadOf p { p with cache := cache } :=
        ⟨rfl, rfl, rfl, hmaxsize, httl, hentries, rfl, fun _ _ hresult => hresult⟩
      exact Computed.ofRead hread (computeFresh_computed lib _ name call parallel)
  · exact computeFresh_computed lib p name call parallel

/-- The executor keeps the answer of a task. -/
theorem Computed.setCachedResult (h : Computed lib p call parallel name made t)
    {e : Executor F P} (httl : e.cacheTtl = (executorOf p).cacheTtl)
    (hresults : ∀ key result, e.resultCache.get? key = some result →
      (executorOf p).resultCache.get? key = some result) :
    Computed lib p call parallel name made
      { t with
        executor := some (e.setCachedResult call.now (generateCacheKey lib name call) made) } where
  source := h.source
  config := h.config
  registrations := h.registrations
  instances := h.instances
  maxsize := h.maxsize
  ttl := h.ttl
  entries := h.entries
  executorTtl := by
    change (e.setCachedResult call.now (generateCacheKey lib name call) made).cacheTtl = _
    unfold Executor.setCachedResult
    split_ifs
    · exact httl
    · exact httl
  results := by
    intro key result hresult
    change (e.setCachedResult call.now _ made).resultCache.get? key = some result at hresult
    unfold Executor.setCachedResult at hresult
    split_ifs at hresult
    · rw [Dict.get?_set] at hresult
      split_ifs at hresult with hkey
      · right
        cases Option.some.inj hresult
        exact ⟨hkey, rfl⟩
      · exact .inl (hresults key result hresult)
    · exact .inl (hresults key result hresult)

theorem executeTask_computed (lib : Library F P C) (p : Pipeline F P C) (name : String)
    (call : Call) :
    Computed lib p call true name (executeTask lib p name call).1
      (executeTask lib p name call).2 := by
  unfold executeTask
  dsimp only
  split
  · next found e hlookup =>
    split_ifs at hlookup with hon
    · obtain ⟨httl, hresults, hfound⟩ := getCachedResult_spec hlookup
      obtain ⟨timestamp, hstored, hlive, hsome⟩ := hfound found rfl
      rw [Bool.and_eq_true] at hon
      refine ⟨.executed timestamp rfl hon.1 hstored hlive hsome, rfl, rfl, ?_, rfl, rfl, ?_,
        httl, ?_⟩
      · exact fun other hother => hother
      · exact fun entry hentry => .inl hentry
      · exact fun key result hresult => .inl (hresults key result hresult)
    · cases hlookup
  · next e hlookup =>
    have hread : e.cacheTtl = (executorOf p).cacheTtl ∧ ∀ key result,
        e.resultCache.get? key = some result →
          (executorOf p).resultCache.get? key = some result := by
      split_ifs at hlookup with hon
      · obtain ⟨httl, hresults, -⟩ := getCachedResult_spec hlookup
        exact ⟨httl, hresults⟩
      · cases hlookup
        exact ⟨rfl, fun _ _ hresult => hresult⟩
    have hcomputed := Computed.ofRead
      (p := p) (q := { p with executor := some e })
      ⟨rfl, rfl, rfl, rfl, rfl, List.Subset.refl _, hread.1, hread.2⟩
      (computeIndicator_computed lib { p with executor := some e } name call true)
    exact hcomputed.setCachedResult hread.1 hread.2

end Spec

/-- The value is what the function it is marked with gives, sanitized. -/
def Genuine (lib : Library F P C) (origin : Origin F P) (value : Result) : Prop :=
  ∀ func params bars, origin = .call func params bars →
    cleaned (lib.call func bars params) = some value

/-- Every cached value is marked with what it was made from. -/
structure Honest (lib : Library F P C) (p : Pipeline F P C) : Prop where
  cache : ∀ entry ∈ p.cache.entries, Genuine lib entry.value.origin entry.value.value
  results : ∀ key made timestamp value,
    (executorOf p).resultCache.get? key = some (made, timestamp) → made.value = some value →
      Genuine lib made.origin value

section Honest

variable [DecidableEq P] {lib : Library F P C} {p t : Pipeline F P C} {call : Call}
  {parallel : Bool} {name : String} {made : Made F P (Option Result)}

theorem runIndicator_genuine (lib : Library F P C) (p : Pipeline F P C) (name : String)
    (call : Call) {value : Result}
    (h : cleaned (runIndicator lib p name call).1.value = some value) :
    Genuine lib (runIndicator lib p name call).1.origin value := by
  unfold runIndicator at h ⊢
  cases hregistration : p.registrations.get? name with
  | none =>
    intro func params bars horigin
    cases horigin
  | some registration =>
    rw [hregistration] at h
    dsimp only at h ⊢
    split at h
    · intro func params bars horigin
      cases horigin
    · intro func params bars horigin
      cases horigin
      exact h

theorem Source.genuine (h : Source lib p call parallel name made) (hp : Honest lib p)
    {value : Result} (hvalue : made.value = some value) : Genuine lib made.origin value := by
  cases h with
  | ran origin answer =>
    rcases answer with hcleaned | ⟨hnone, -, -⟩
    · rw [origin]
      apply runIndicator_genuine
      rw [← hcleaned]
      exact hvalue
    · rw [hnone] at hvalue
      cases hvalue
  | cached entry on mem key live eq =>
    rw [eq] at hvalue ⊢
    cases Option.some.inj hvalue
    exact hp.cache entry mem
  | executed timestamp inParallel on stored live isSome =>
    exact hp.results _ made timestamp value stored hvalue

theorem Computed.honest (h : Computed lib p call parallel name made t) (hp : Honest lib p) :
    Honest lib t where
  cache := by
    intro entry hentry
    rcases h.entries entry hentry with hold | ⟨-, hmade⟩
    · exact hp.cache entry hold
    · have hvalue : made.value = some entry.value.value := by rw [hmade]
      have hgenuine := h.source.genuine hp hvalue
      rw [hmade] at hgenuine
      exact hgenuine
  results := by
    intro key result timestamp value hresult hvalue
    rcases h.results key (result, timestamp) hresult with hold | ⟨-, hmade⟩
    · exact hp.results key result timestamp value hold hvalue
    · dsimp only at hmade
      rw [← hmade] at hvalue ⊢
      exact h.source.genuine hp hvalue

end Honest

/-- What the caches and instances hold for an indicator is of its latest registration and
of the bars of the call. -/
structure Unspoilt (lib : Library F P C) (p : Pipeline F P C) (call : Call) (parallel : Bool)
    (name : String) (registration : Registration F P C) : Prop where
  plain : p.config.enableIncremental = true → p.incrementalIndicators.get? name = none
  room : p.config.enableCache = true → 0 < p.cache.maxsize
  entries : p.config.enableCache = true → ∀ entry ∈ p.cache.entries,
    entry.key = generateCacheKey lib name call → p.cache.expired call.now entry = false →
      entry.value.origin = .call registration.func registration.params call.bars
  results : parallel = true → p.config.enableCache = true →
    ∀ result ∈ (executorOf p).resultCache.get? (generateCacheKey lib name call),
      (executorOf p).expired call.now result.2 = false → result.1.value.isSome = true →
        result.1.origin = .call registration.func registration.params call.bars

instance [DecidableEq F] [DecidableEq P] (lib : Library F P C) (p : Pipeline F P C)
    (call : Call) (parallel : Bool) (name : String) (registration : Registration F P C) :
    Decidable (Unspoilt lib p call parallel name registration) :=
  decidable_of_iff
    ((p.config.enableIncremental = true → p.incrementalIndicators.get? name = none) ∧
      (p.config.enableCache = true → 0 < p.cache.maxsize) ∧
      (p.config.enableCache = true → ∀ entry ∈ p.cache.entries,
        entry.key = generateCacheKey lib name call → p.cache.expired call.now entry = false →
          entry.value.origin = .call registration.func registration.params call.bars) ∧
      (parallel = true → p.config.enableCache = true →
        ∀ result ∈ (executorOf p).resultCache.get? (generateCacheKey lib name call),
          (executorOf p).expired call.now result.2 = false → result.1.value.isSome = true →
            result.1.origin = .call registration.func registration.params call.bars))
    ⟨fun h => ⟨h.1, h.2.1, h.2.2.1, h.2.2.2⟩,
      fun h => ⟨h.plain, h.room, h.entries, h.results⟩⟩

structure Ready (lib : Library F P C) (call : Call) (parallel : Bool) (name : String)
    (registration : Registration F P C) (p : Pipeline F P C) : Prop where
  honest : Honest lib p
  registered : p.registrations.get? name = some registration
  unspoilt : Unspoilt lib p call parallel name registration

section Ready

variable [DecidableEq P] {lib : Library F P C} {p t : Pipeline F P C} {call : Call}
  {parallel mode : Bool} {name other : String} {registration : Registration F P C}
  {made : Made F P (Option Result)}

theorem Ready.runIndicator (h : Ready lib call parallel name registration p) :
    (runIndicator lib p name call).1 = ⟨lib.call registration.func call.bars registration.params,
      .call registration.func registration.params call.bars⟩ := by
  have hinstance :
      (if p.config.enableIncremental then p.incrementalIndicators.get? name else none) = none := by
    split_ifs with hincremental
    · exact h.unspoilt.plain hincremental
    · rfl
  unfold IndicatorPipeline.runIndicator
  rw [h.registered]
  dsimp only
  rw [hinstance]

/-- The answer of an indicator that is ready is the value of its function. -/
theorem Ready.answer (h : Ready lib call parallel name registration p)
    (hsource : Source lib p call mode name made) (hmode : mode = true → parallel = true) :
    made.origin = .call registration.func registration.params call.bars ∧
      made.value = cleaned (lib.call registration.func call.bars registration.params) := by
  cases hsource with
  | ran origin answer =>
    rw [h.runIndicator] at origin answer
    refine ⟨origin, ?_⟩
    rcases answer with hcleaned | ⟨-, hon, hempty⟩
    · exact hcleaned
    · have hroom := h.unspoilt.room hon
      omega
  | cached entry on mem key live eq =>
    have horigin := h.unspoilt.entries on entry mem key live
    rw [eq]
    exact ⟨horigin, (h.honest.cache entry mem _ _ _ horigin).symm⟩
  | executed timestamp inParallel on stored live isSome =>
    have horigin := h.unspoilt.results (hmode inParallel) on (made, timestamp) stored live isSome
    obtain ⟨value, hvalue⟩ := Option.isSome_iff_exists.mp isSome
    refine ⟨horigin, ?_⟩
    rw [hvalue]
    exact (h.honest.results _ made timestamp value stored hvalue _ _ _ horigin).symm

/-- Computing any indicator of the call leaves it ready. -/
theorem Ready.keep (h : Ready lib call parallel name registration p)
    (hcomputed : Computed lib p call mode other made t)
    (hmode : other = name → mode = true → parallel = true) :
    Ready lib call parallel name registration t := by
  have hown : generateCacheKey lib name call = generateCacheKey lib other call →
      made.origin = .call registration.func registration.params call.bars := by
    intro hkey
    have hname : name = other := generateCacheKey_inj hkey
    subst hname
    exact (h.answer hcomputed.source (hmode rfl)).1
  refine ⟨hcomputed.honest h.honest, ?_, ?_, ?_, ?_, ?_⟩
  · rw [hcomputed.registrations]
    exact h.registered
  · intro hincremental
    rw [hcomputed.config] at hincremental
    exact hcomputed.instances name (h.unspoilt.plain hincremental)
  · intro hon
    rw [hcomputed.config] at hon
    rw [hcomputed.maxsize]
    exact h.unspoilt.room hon
  · intro hon entry hentry hkey hlive
    rw [hcomputed.config] at hon
    rw [SmartCache.expired_congr hcomputed.ttl] at hlive
    rcases hcomputed.entries entry hentry with hold | ⟨hother, hmade⟩
    · exact h.unspoilt.entries hon entry hold hkey hlive
    · have horigin := hown (hkey.symm.trans hother)
      rw [hmade] at horigin
      exact horigin
  · intro hparallel hon result hresult hlive hsome
    rw [hcomputed.config] at hon
    rw [Executor.expired_congr hcomputed.executorTtl] at hlive
    rcases hcomputed.results _ result hresult with hold | ⟨hkey, hmade⟩
    · exact h.unspoilt.results hparallel hon result hold hlive hsome
    · rw [← hmade]
      exact hown hkey

theorem computeMember_computed (lib : Library F P C) (call : Call) (mode : Bool)
    (acc : Pipeline F P C × Dict String (Option Result)) (other : String) :
    ∃ made, Computed lib acc.1 call mode other made (computeMember lib call mode acc other).1 ∧
      (computeMember lib call mode acc other).2 =
        if mode && other = "" then acc.2 else acc.2.set other made.value := by
  unfold computeMember
  cases mode with
  | true => exact ⟨_, executeTask_computed lib acc.1 other call, rfl⟩
  | false => exact ⟨_, computeIndicator_computed lib acc.1 other call false, rfl⟩

/-- The state inside a computation under the given configuration. -/
structure Underway (lib : Library F P C) (call : Call) (parallel : Bool) (name : String)
    (registration : Registration F P C) (config : PipelineConfig)
    (acc : Pipeline F P C × Dict String (Option Result)) : Prop where
  ready : Ready lib call parallel name registration acc.1
  config : acc.1.config = config

def Answered (name : String) (value : Option Result)
    (acc : Pipeline F P C × Dict String (Option Result)) : Prop :=
  acc.2.get? name = some value

variable {config : PipelineConfig} {acc : Pipeline F P C × Dict String (Option Result)}
  {level : List String}

theorem Underway.member (h : Underway lib call parallel name registration config acc)
    (hmode : other = name → mode = true → parallel = true) :
    Underway lib call parallel name registration config (computeMember lib call mode acc other) := by
  obtain ⟨made, hcomputed, -⟩ := computeMember_computed lib call mode acc other
  exact ⟨h.ready.keep hcomputed hmode, hcomputed.config.trans h.config⟩

theorem Underway.answers (h : Underway lib call parallel name registration config acc)
    (hmode : mode = true → parallel = true) (hnamed : parallel = true → name ≠ "") :
    Answered name (cleaned (lib.call registration.func call.bars registration.params))
      (computeMember lib call mode acc name) := by
  obtain ⟨made, hcomputed, hresults⟩ := computeMember_computed lib call mode acc name
  have hvalue := (h.ready.answer hcomputed.source hmode).2
  have hreported : ¬(mode && decide (name = "")) = true := by
    rw [Bool.and_eq_true, decide_eq_true_iff]
    rintro ⟨hon, hempty⟩
    exact hnamed (hmode hon) hempty
  unfold Answered
  rw [hresults, if_neg hreported, Dict.get?_set, if_pos rfl, hvalue]

theorem Underway.stays {value : Option Result}
    (h : Underway lib call parallel name registration config acc)
    (hmode : other = name → mode = true → parallel = true)
    (hvalue : value = cleaned (lib.call registration.func call.bars registration.params))
    (hanswered : Answered name value acc) :
    Answered name value (computeMember lib call mode acc other) := by
  obtain ⟨made, hcomputed, hresults⟩ := computeMember_computed lib call mode acc other
  unfold Answered at hanswered ⊢
  rw [hresults]
  split_ifs with hdropped
  · exact hanswered
  · rw [Dict.get?_set]
    split_ifs with hname
    · subst hname
      rw [(h.ready.answer hcomputed.source (hmode rfl)).2, hvalue]
    · exact hanswered

theorem Underway.group (h : Underway lib call parallel name registration config acc)
    (hmode : name ∈ level → runsParallel config level = true → parallel = true) :
    Underway lib call parallel name registration config
      (computeParallelGroup lib call acc level) := by
  unfold computeParallelGroup
  rw [h.config]
  refine List.foldlRecOn
    (motive := Underway lib call parallel name registration config) _ _ h ?_
  intro acc hacc other hother
  apply hacc.member
  rintro rfl
  exact hmode ((call.schedule.perm level).mem_iff.mp hother)

theorem Underway.group_answers (h : Underway lib call parallel name registration config acc)
    (hname : name ∈ level) (hmode : runsParallel config level = true → parallel = true)
    (hnamed : parallel = true → name ≠ "") :
    Answered name (cleaned (lib.call registration.func call.bars registration.params))
      (computeParallelGroup lib call acc level) := by
  unfold computeParallelGroup
  rw [h.config]
  apply foldl_reaches ((call.schedule.perm level).mem_iff.mpr hname)
    (I := Underway lib call parallel name registration config)
  · exact fun acc other _ hacc => hacc.member fun _ => hmode
  · exact fun acc hacc => hacc.answers hmode hnamed
  · exact fun acc other _ hacc hanswered => hacc.stays (fun _ => hmode) rfl hanswered
  · exact h

theorem Underway.group_stays (h : Underway lib call parallel name registration config acc)
    (hmode : name ∈ level → runsParallel config level = true → parallel = true)
    (hanswered : Answered name
      (cleaned (lib.call registration.func call.bars registration.params)) acc) :
    Answered name (cleaned (lib.call registration.func call.bars registration.params))
      (computeParallelGroup lib call acc level) := by
  unfold computeParallelGroup
  rw [h.config]
  refine (List.foldlRecOn (motive := fun acc =>
    Underway lib call parallel name registration config acc ∧ Answered name _ acc)
    _ _ ⟨h, hanswered⟩ ?_).2
  intro acc hacc other hother
  have hother' : other = name → runsParallel config level = true → parallel = true := by
    rintro rfl
    exact hmode ((call.schedule.perm level).mem_iff.mp hother)
  exact ⟨hacc.1.member hother', hacc.1.stays hother' rfl hacc.2⟩

/-- Some level with the indicator in it is run by the executor. -/
def inParallel (config : PipelineConfig) (groups : List (List String)) (name : String) : Bool :=
  groups.any fun level => decide (name ∈ level) && runsParallel config level

theorem inParallel_of_mem {groups : List (List String)} (hlevel : level ∈ groups)
    (hname : name ∈ level) (h : runsParallel config level = true) :
    inParallel config groups name = true := by
  refine List.any_eq_true.mpr ⟨level, hlevel, ?_⟩
  rw [Bool.and_eq_true]
  exact ⟨decide_eq_true hname, h⟩

theorem compute_answers {groups : List (List String)} (horder : getExecutionOrder p call = some groups)
    (hready : Ready lib call (inParallel p.config groups name) name registration p)
    (hname : name ∈ groups.flatten)
    (hnamed : inParallel p.config groups name = true → name ≠ "") :
    (compute lib p call).2.get? name =
      some (cleaned (lib.call registration.func call.bars registration.params)) := by
  obtain ⟨level, hlevel, hin⟩ := List.mem_flatten.mp hname
  unfold compute
  rw [horder]
  dsimp only
  have hanswered : Answered name
      (cleaned (lib.call registration.func call.bars registration.params))
      (groups.foldl (computeParallelGroup lib call) (p, Dict.empty)) := by
    apply foldl_reaches hlevel
      (I := Underway lib call (inParallel p.config groups name) name registration p.config)
    · intro acc other hother hacc
      exact hacc.group fun hmem => inParallel_of_mem hother hmem
    · intro acc hacc
      exact hacc.group_answers hin (inParallel_of_mem hlevel hin) hnamed
    · intro acc other hother hacc hold
      exact hacc.group_stays (fun hmem => inParallel_of_mem hother hmem) hold
    · exact ⟨hready, rfl⟩
  exact hanswered

end Ready

theorem compute_other [DecidableEq P] {lib : Library F P C} {p : Pipeline F P C} {call : Call}
    {name : String} {groups : List (List String)} (horder : getExecutionOrder p call = some groups)
    (hname : name ∉ groups.flatten) : (compute lib p call).2.get? name = none := by
  unfold compute
  rw [horder]
  dsimp only
  have hframe : ((groups.foldl (computeParallelGroup lib call) (p, Dict.empty)).2.get? name) =
      (Dict.empty : Dict String (Option Result)).get? name := by
    apply foldl_frame (computeParallelGroup lib call) (fun acc => acc.2.get? name)
    intro acc level hlevel
    unfold computeParallelGroup
    apply foldl_frame _ (fun acc : Pipeline F P C × Dict String (Option Result) => acc.2.get? name)
    intro acc other hother
    obtain ⟨made, -, hresults⟩ :=
      computeMember_computed lib call (runsParallel _ level) acc other
    have hne : name ≠ other := by
      rintro rfl
      have hmem := (call.schedule.perm level).mem_iff.mp hother
      exact hname (List.mem_flatten.mpr ⟨level, hlevel, hmem⟩)
    rw [hresults]
    split_ifs
    · rfl
    · rw [Dict.get?_set, if_neg hne]
  rw [hframe, Dict.get?_empty]

theorem requested_relevant (p : Pipeline F P C) (indicators : List String) :
    indicators ⊆ relevantNodes p indicators :=
  subset_closure (edges p) _ indicators

theorem nodup_edges (p : Pipeline F P C) (name : String) : (edges p name).Nodup :=
  ((p.graph.get? name).getD Dict.empty).nodup

theorem start_honest (lib : Library F P C) (config : PipelineConfig) :
    Honest lib (start config) := by
  refine ⟨?_, ?_⟩
  · intro entry hentry
    cases hentry
  · intro key made timestamp value hstored
    cases hstored

theorem compute_honest [DecidableEq P] {lib : Library F P C} {p : Pipeline F P C} (h : Honest lib p)
    (call : Call) : Honest lib (compute lib p call).1 := by
  unfold compute
  split
  · exact h
  · next groups horder =>
    refine List.foldlRecOn (motive := fun acc : Pipeline F P C × Dict String (Option Result) =>
      Honest lib acc.1) _ _ h ?_
    intro acc hacc level hlevel
    unfold computeParallelGroup
    refine List.foldlRecOn (motive := fun acc : Pipeline F P C × Dict String (Option Result) =>
      Honest lib acc.1) _ _ hacc ?_
    intro inner hinner name hname
    obtain ⟨made, hcomputed, -⟩ :=
      computeMember_computed lib call (runsParallel acc.1.config level) inner name
    exact hcomputed.honest hinner

theorem step_honest [DecidableEq P] [DecidableEq C] {lib : Library F P C} {p t : Pipeline F P C}
    {a : Act F P C} (h : Honest lib p) (hstep : step lib p a = some t) : Honest lib t := by
  cases a with
  | register name func params dependencies incrementalClass =>
    cases Option.some.inj hstep
    exact ⟨h.cache, h.results⟩
  | setCacheTtl name ttl =>
    cases Option.some.inj hstep
    exact ⟨h.cache, h.results⟩
  | compute call =>
    cases Option.some.inj hstep
    exact compute_honest h call
  | clearCache =>
    cases Option.some.inj hstep
    refine ⟨?_, h.results⟩
    intro entry hentry
    cases hentry
  | updateConfig config =>
    cases Option.some.inj hstep
    refine ⟨?_, ?_⟩
    · intro entry hentry
      exact h.cache entry (SmartCache.resize_subset p.cache config.cacheMaxsize hentry)
    · intro key made timestamp value hstored
      cases hstored

section Transparency

variable [DecidableEq P]

/-- What is asked for and what is returned is the value of the latest registration. -/
def Transparent (lib : Library F P C) (p : Pipeline F P C) (call : Call) : Prop :=
  ∀ name registration, p.registrations.get? name = some registration →
    registration.incrementalClass = none →
      (name ∈ requested p call ∨ ((compute lib p call).2.get? name).isSome = true) →
        (compute lib p call).2.get? name =
          some (lib.call registration.func call.bars registration.params)

/-- Besides clean caches the indicator has a result that sanitizing leaves alone, and a
name when the executor runs it. -/
def Answerable (lib : Library F P C) (p : Pipeline F P C) (call : Call) (parallel : Bool)
    (name : String) (registration : Registration F P C) : Prop :=
  Unspoilt lib p call parallel name registration ∧
    cleaned (lib.call registration.func call.bars registration.params) =
      lib.call registration.func call.bars registration.params ∧
    (parallel = true → name ≠ "")

instance [DecidableEq F] (lib : Library F P C) (p : Pipeline F P C) (call : Call)
    (parallel : Bool) (name : String) (registration : Registration F P C) :
    Decidable (Answerable lib p call parallel name registration) :=
  inferInstanceAs (Decidable (_ ∧ _ ∧ _))

/-- There is an order of execution and every indicator in it is answerable. -/
def Untainted (lib : Library F P C) (p : Pipeline F P C) (call : Call) : Prop :=
  (∀ name ∈ requested p call, ∀ registration ∈ p.registrations.get? name,
    registration.incrementalClass = none → (getExecutionOrder p call).isSome = true) ∧
  ∀ groups ∈ getExecutionOrder p call, ∀ name ∈ groups.flatten,
    ∀ registration ∈ p.registrations.get? name, registration.incrementalClass = none →
      Answerable lib p call (inParallel p.config groups name) name registration

instance [DecidableEq F] [DecidableEq C] (lib : Library F P C) (p : Pipeline F P C)
    (call : Call) : Decidable (Untainted lib p call) :=
  inferInstanceAs (Decidable (_ ∧ _))

theorem transparent_of_untainted {lib : Library F P C} {p : Pipeline F P C} {call : Call}
    (hhonest : Honest lib p) (h : Untainted lib p call) : Transparent lib p call := by
  intro name registration hregistered hplain hasked
  cases horder : getExecutionOrder p call with
  | none =>
    rcases hasked with hrequested | hreturned
    · have hsome := h.1 name hrequested registration hregistered hplain
      rw [horder] at hsome
      cases hsome
    · unfold compute at hreturned
      rw [horder] at hreturned
      dsimp only at hreturned
      rw [Dict.get?_empty] at hreturned
      cases hreturned
  | some groups =>
    have hname : name ∈ groups.flatten := by
      rcases hasked with hrequested | hreturned
      · exact mem_levels horder name (requested_relevant p _ hrequested)
      · by_contra hout
        rw [compute_other horder hout] at hreturned
        cases hreturned
    obtain ⟨hunspoilt, hclean, hnamed⟩ := h.2 groups horder name hname registration hregistered hplain
    rw [compute_answers horder ⟨hhonest, hregistered, hunspoilt⟩ hname hnamed, hclean]

end Transparency

/-- After any run, a call that finds nothing foreign in the caches is answered with the
values of the latest registrations. -/
theorem pipeline_transparent [DecidableEq P] [DecidableEq C] (lib : Library F P C)
    (config : PipelineConfig) (acts : List (Act F P C)) {p : Pipeline F P C}
    (hrun : run (step lib) (start config) acts = some p) {call : Call}
    (huntainted : Untainted lib p call) : Transparent lib p call := by
  have hhonest : Honest lib p := by
    apply run_invariant _ (start_honest lib config) hrun
    intro s a t hs hstep
    exact step_honest hs hstep
  exact transparent_of_untainted hhonest huntainted

/-- A library of one function, the last close over its period. -/
def closeOverPeriod : Library Unit ℕ Unit where
  call _ bars period := bars.getLast?.map fun bar => [("value", .number (bar.close / period))]
  computeFull _ _ _ := none
  computeIncremental _ _ _ _ := none
  createNewState _ _ now _ _ := ⟨now, none, []⟩
  supportsIncremental _ := true
  minDataPoints _ := 20
  hash fields := fields.1 + 31 * fields.2.1.num + 961 * fields.2.2.2.2.2.num

def hourlyCall (time : ℚ) (close : ℚ) (now : ℚ) : Call where
  symbol := "XAUUSD"
  timeframe := "H1"
  bars := [⟨time, 100, 120, 90, close, 7⟩]
  indicators := none
  scope := .confirmed
  now := now
  schedule := ⟨List.reverse, fun level => level.reverse_perm⟩

/-- Both indicators run in the executor, then one is registered again. -/
def reregistered : List (Act Unit ℕ Unit) :=
  [.register "rsi" () 14 [] none, .register "sma" () 5 [] none,
    .compute (hourlyCall 3600 105 7300), .register "rsi" () 21 ["sma"] none]

theorem pipeline_transparent_nextBar : ∃ p,
    run (step closeOverPeriod) (start {}) reregistered = some p ∧
      Transparent closeOverPeriod p (hourlyCall 7200 110 10900) := by
  refine ⟨_, rfl, ?_⟩
  exact pipeline_transparent closeOverPeriod {} reregistered rfl (by decide +kernel)

/-- After a registration with other parameters the same bars give the old value. -/
theorem reregistered_value_is_stale : ¬ ∀ (lib : Library Unit ℕ Unit) (config : PipelineConfig)
    (acts : List (Act Unit ℕ Unit)) (p : Pipeline Unit ℕ Unit) (call : Call),
    run (step lib) (start config) acts = some p → Transparent lib p call := by
  intro hclaim
  let call := hourlyCall 3600 105 7300
  have hvalue := hclaim closeOverPeriod {}
    [.register "rsi" () 14 [] none, .compute call, .register "rsi" () 21 [] none] _ call rfl
    "rsi" ⟨(), 21, none⟩ (by decide +kernel) rfl (.inl (by decide +kernel))
  revert hvalue
  decide +kernel

end MT5Services.IndicatorPipeline
