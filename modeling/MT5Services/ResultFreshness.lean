import MT5Services.IndicatorPipeline
import Mathlib.Logic.Function.Basic

/-!
How old the values are that the pipeline returns. Beside the two caches a ledger is kept
of the run that every cached value goes back to. The smart cache serves values within the
`cache_ttl` of their indicator and is emptied by `clear_cache`; the results of the executor
have one age limit for all indicators, a new time when they are copied out of the smart
cache, and are never cleared.
-/
namespace MT5Services.ResultFreshness

open Runs IndicatorPipeline

/-- The run of an indicator that a value goes back to. -/
structure Birth where
  indicator : String
  time : ℚ
  /-- The calls of `clear_cache` before it. -/
  clears : ℕ
  deriving DecidableEq, Repr

/-- For each key of the two caches the run behind the value. -/
structure Ledger where
  smart : String → Birth
  results : String → Birth
  clears : ℕ

structure Aged (F P C : Type*) where
  pipeline : Pipeline F P C
  ledger : Ledger
  clock : ℚ

variable {F P C : Type*}

/-- The smart cache has the answer. -/
def smartHit (lib : Library F P C) (p : Pipeline F P C) (call : Call) (name : String) : Bool :=
  p.config.enableCache && (p.cache.get call.now (generateCacheKey lib name call)).1.isSome

/-- The executor has the answer. -/
def resultHit (lib : Library F P C) (p : Pipeline F P C) (call : Call) (name : String) : Bool :=
  p.config.enableCache && (executorOf p).enableCache &&
    ((executorOf p).getCachedResult call.now (generateCacheKey lib name call)).1.isSome

/-- The run behind the answer that an indicator gets. -/
def birthOf (lib : Library F P C) (p : Pipeline F P C) (ledger : Ledger) (call : Call)
    (parallel : Bool) (name : String) : Birth :=
  if parallel && resultHit lib p call name then ledger.results (generateCacheKey lib name call)
  else if smartHit lib p call name then ledger.smart (generateCacheKey lib name call)
  else ⟨name, call.now, ledger.clears⟩

/-- The ledger after that answer: a run is noted for the smart cache, and the executor
keeps every answer that it did not have. -/
def noted (lib : Library F P C) (p : Pipeline F P C) (ledger : Ledger) (call : Call)
    (parallel : Bool) (name : String) : Ledger :=
  if parallel && resultHit lib p call name then ledger
  else
    { ledger with
      smart :=
        if p.config.enableCache && !smartHit lib p call name then
          Function.update ledger.smart (generateCacheKey lib name call)
            ⟨name, call.now, ledger.clears⟩
        else ledger.smart
      results :=
        if parallel then
          Function.update ledger.results (generateCacheKey lib name call)
            (birthOf lib p ledger call parallel name)
        else ledger.results }

/-- A computation with the ledger and the runs behind the values that it returns. -/
structure Answering (F P C : Type*) where
  answer : Pipeline F P C × Dict String (Option Result)
  ledger : Ledger
  served : List (String × Birth) := []

section Compute

variable [DecidableEq P]

def agedMember (lib : Library F P C) (call : Call) (parallel : Bool) (acc : Answering F P C)
    (name : String) : Answering F P C where
  answer := computeMember lib call parallel acc.answer name
  ledger := noted lib acc.answer.1 acc.ledger call parallel name
  served :=
    if parallel && name = "" then acc.served
    else acc.served ++ [(name, birthOf lib acc.answer.1 acc.ledger call parallel name)]

def agedGroup (lib : Library F P C) (call : Call) (acc : Answering F P C) (level : List String) :
    Answering F P C :=
  (call.schedule.arrange level).foldl
    (agedMember lib call (runsParallel acc.answer.1.config level)) acc

def agedCompute (lib : Library F P C) (s : Aged F P C) (call : Call) : Answering F P C :=
  match getExecutionOrder s.pipeline call with
  | none => ⟨(s.pipeline, Dict.empty), s.ledger, []⟩
  | some groups => groups.foldl (agedGroup lib call) ⟨(s.pipeline, Dict.empty), s.ledger, []⟩

/-- The ledger only looks on. -/
theorem agedCompute_answer (lib : Library F P C) (s : Aged F P C) (call : Call) :
    (agedCompute lib s call).answer = compute lib s.pipeline call := by
  have hmembers : ∀ (parallel : Bool) (names : List String) (acc : Answering F P C),
      (names.foldl (agedMember lib call parallel) acc).answer =
        names.foldl (computeMember lib call parallel) acc.answer := by
    intro parallel names
    induction names with
    | nil => exact fun acc => rfl
    | cons name names ih => exact fun acc => ih (agedMember lib call parallel acc name)
  have hgroups : ∀ (groups : List (List String)) (acc : Answering F P C),
      (groups.foldl (agedGroup lib call) acc).answer =
        groups.foldl (computeParallelGroup lib call) acc.answer := by
    intro groups
    induction groups with
    | nil => exact fun acc => rfl
    | cons level groups ih =>
      intro acc
      rw [List.foldl_cons, List.foldl_cons, ih, agedGroup, hmembers]
      rfl
  unfold agedCompute compute
  cases getExecutionOrder s.pipeline call with
  | none => rfl
  | some groups => exact hgroups groups _

end Compute

inductive Act
  | compute (call : Call)
  | clearCache

/-- The clock never goes back. -/
def step [DecidableEq P] (lib : Library F P C) (s : Aged F P C) : Act → Option (Aged F P C)
  | .compute call =>
    if s.clock ≤ call.now then
      let computed := agedCompute lib s call
      some ⟨computed.answer.1, computed.ledger, call.now⟩
    else none
  | .clearCache =>
    some { s with
      pipeline := clearCache s.pipeline
      ledger := { s.ledger with clears := s.ledger.clears + 1 } }

/-- A new pipeline with any indicators registered. -/
def opened (config : PipelineConfig) (registrations : Dict String (Registration F P C))
    (graph : Dict String (Dict String Unit)) (indicatorCacheTtl : Dict String ℚ)
    (incrementalIndicators : Dict String (Incremental P C)) (clock : ℚ) : Aged F P C where
  pipeline :=
    { (start config : Pipeline F P C) with
      registrations := registrations
      graph := graph
      indicatorCacheTtl := indicatorCacheTtl
      incrementalIndicators := incrementalIndicators }
  ledger := ⟨fun key => ⟨key, clock, 0⟩, fun key => ⟨key, clock, 0⟩, 0⟩
  clock := clock

/-- The `cache_ttl` of the indicator, or the one of the pipeline. -/
def ttlOf (p : Pipeline F P C) (name : String) : ℚ :=
  (p.indicatorCacheTtl.get? name).getD p.config.cacheTtl

/-- The value comes from a run of this indicator at most its `cache_ttl` ago (a negative
one counts as none) and after the last `clear_cache`. -/
structure FreshBirth (s : Aged F P C) (call : Call) (name : String) (birth : Birth) : Prop where
  indicator : birth.indicator = name
  age : call.now - birth.time ≤ max 0 (ttlOf s.pipeline name)
  clears : birth.clears = s.ledger.clears

/-- Every value returned is fresh. -/
def Fresh [DecidableEq P] (lib : Library F P C) (s : Aged F P C) : Act → Prop
  | .compute call =>
    ∀ value ∈ (agedCompute lib s call).served, FreshBirth s call value.1 value.2
  | .clearCache => True

/-- The groups of a call; a circular dependency leaves none. -/
def groupsOf (p : Pipeline F P C) (call : Call) : List (List String) :=
  (getExecutionOrder p call).getD []

def computed (p : Pipeline F P C) (call : Call) : List String := (groupsOf p call).flatten

/-- The indicators that the executor answers. -/
def answered (lib : Library F P C) (p : Pipeline F P C) (call : Call) : List String :=
  ((groupsOf p call).filter (runsParallel p.config)).flatten.filter fun name =>
    name ≠ "" && resultHit lib p call name

/-- Between the two calls a value that the executor stored in the first one, new or out of
the smart cache, does not get too old, and `clear_cache` is not called. -/
structure Lasts (lib : Library F P C) (s : Aged F P C) (call : Call) (t : Aged F P C)
    (later : Call) (name : String) : Prop where
  stored : later.now - call.now ≤ max 0 (ttlOf t.pipeline name)
  copied : ∀ entry ∈ s.pipeline.cache.entries, entry.key = generateCacheKey lib name call →
    s.pipeline.cache.expired call.now entry = false →
      later.now - entry.timestamp ≤ max 0 (ttlOf t.pipeline name)
  clears : t.ledger.clears = s.ledger.clears

/-- An earlier and a later call: no two indicators share a key, and what the executor stored
in the earlier one and answers in the later one lasts from the one to the other. -/
def InTime (lib : Library F P C) (s : Aged F P C) : Act → Aged F P C → Act → Prop
  | .compute call, t, .compute later =>
    (∀ name ∈ computed s.pipeline call, ∀ other ∈ computed t.pipeline later,
      generateCacheKey lib name call = generateCacheKey lib other later → name = other) ∧
    ∀ name ∈ answered lib t.pipeline later,
      generateCacheKey lib name call = generateCacheKey lib name later →
        ((executorOf t.pipeline).resultCache.get? (generateCacheKey lib name later)).map Prod.snd =
          some call.now → Lasts lib s call t later name
  | _, _, _ => True

instance (s : Aged F P C) (call : Call) (name : String) :
    DecidablePred (FreshBirth s call name) :=
  fun birth => decidable_of_iff
    (birth.indicator = name ∧ call.now - birth.time ≤ max 0 (ttlOf s.pipeline name) ∧
      birth.clears = s.ledger.clears)
    ⟨fun h => ⟨h.1, h.2.1, h.2.2⟩, fun h => ⟨h.indicator, h.age, h.clears⟩⟩

instance [DecidableEq P] (lib : Library F P C) (s : Aged F P C) : DecidablePred (Fresh lib s)
  | .compute call => inferInstanceAs (Decidable (∀ value ∈ (agedCompute lib s call).served,
      FreshBirth s call value.1 value.2))
  | .clearCache => isTrue trivial

instance (lib : Library F P C) (s : Aged F P C) (call : Call) (t : Aged F P C) (later : Call) :
    DecidablePred (Lasts lib s call t later) :=
  fun name => decidable_of_iff
    (later.now - call.now ≤ max 0 (ttlOf t.pipeline name) ∧
      (∀ entry ∈ s.pipeline.cache.entries, entry.key = generateCacheKey lib name call →
        s.pipeline.cache.expired call.now entry = false →
          later.now - entry.timestamp ≤ max 0 (ttlOf t.pipeline name)) ∧
      t.ledger.clears = s.ledger.clears)
    ⟨fun h => ⟨h.1, h.2.1, h.2.2⟩, fun h => ⟨h.stored, h.copied, h.clears⟩⟩

instance (lib : Library F P C) (s : Aged F P C) (act : Act) (t : Aged F P C) :
    DecidablePred (InTime lib s act t) := by
  intro later
  cases act with
  | compute call =>
    cases later with
    | compute later => exact instDecidableAnd
    | clearCache => exact isTrue trivial
  | clearCache => exact isTrue trivial

/-- The smart cache holds what the ledger says, under the age limits in force. -/
structure Sound (p : Pipeline F P C) (ledger : Ledger) : Prop where
  ttl : p.cache.ttl = p.config.cacheTtl
  time : ∀ entry ∈ p.cache.entries, (ledger.smart entry.key).time = entry.timestamp
  clears : ∀ entry ∈ p.cache.entries, (ledger.smart entry.key).clears = ledger.clears
  limit : ∀ entry ∈ p.cache.entries,
    entry.ttl = p.indicatorCacheTtl.get? (ledger.smart entry.key).indicator

variable {call : Call} {lib : Library F P C} {p : Pipeline F P C} {name : String}

/-- A hit of the smart cache is an entry that is not too old. -/
theorem exists_of_smartHit (h : smartHit lib p call name = true) :
    ∃ entry ∈ p.cache.entries, entry.key = generateCacheKey lib name call ∧
      p.cache.expired call.now entry = false := by
  unfold smartHit at h
  obtain ⟨made, hmade⟩ := Option.isSome_iff_exists.mp (Bool.and_eq_true_iff.mp h).2
  obtain ⟨entry, hmem, hkey, hlive, _⟩ := SmartCache.get_mem (Prod.ext hmade rfl)
  exact ⟨entry, hmem, hkey, hlive⟩

/-- The executor as far as the answers for another key go. -/
structure SameFor (key : String) (d e : Executor F P) : Prop where
  enableCache : e.enableCache = d.enableCache
  cacheTtl : e.cacheTtl = d.cacheTtl
  result : e.resultCache.get? key = d.resultCache.get? key

theorem SameFor.refl (key : String) (e : Executor F P) : SameFor key e e := ⟨rfl, rfl, rfl⟩

theorem SameFor.trans {key : String} {d e f : Executor F P} (h : SameFor key d e)
    (h' : SameFor key e f) : SameFor key d f :=
  ⟨h'.enableCache.trans h.enableCache, h'.cacheTtl.trans h.cacheTtl, h'.result.trans h.result⟩

theorem getCachedResult_sameFor (e : Executor F P) (now : ℚ) {key other : String}
    (h : other ≠ key) : SameFor other e (e.getCachedResult now key).2 := by
  unfold Executor.getCachedResult
  split
  · exact SameFor.refl other e
  · split_ifs
    · refine ⟨rfl, rfl, ?_⟩
      show (e.resultCache.pop key).get? other = _
      rw [Dict.get?_pop, if_neg h]
    · exact SameFor.refl other e
    · exact SameFor.refl other e

theorem getCachedResult_enableCache (e : Executor F P) (now : ℚ) (key : String) :
    (e.getCachedResult now key).2.enableCache = e.enableCache := by
  unfold Executor.getCachedResult
  split
  · rfl
  · split_ifs <;> rfl

theorem setCachedResult_enableCache (e : Executor F P) (now : ℚ) (key : String)
    (made : Made F P (Option Result)) :
    (e.setCachedResult now key made).enableCache = e.enableCache := by
  unfold Executor.setCachedResult
  split_ifs <;> rfl

theorem setCachedResult_sameFor (e : Executor F P) (now : ℚ) {key other : String}
    (made : Made F P (Option Result)) (h : other ≠ key) :
    SameFor other e (e.setCachedResult now key made) := by
  unfold Executor.setCachedResult
  split_ifs
  · refine ⟨rfl, rfl, ?_⟩
    show (e.resultCache.set key (made, now)).get? other = _
    rw [Dict.get?_set, if_neg h]
  · exact SameFor.refl other e

theorem SameFor.getCachedResult {key : String} {d e : Executor F P} (h : SameFor key d e)
    (now : ℚ) : (e.getCachedResult now key).1 = (d.getCachedResult now key).1 := by
  unfold Executor.getCachedResult
  rw [h.result]
  cases d.resultCache.get? key with
  | none => rfl
  | some stored =>
    dsimp only
    rw [Executor.expired_congr h.cacheTtl]
    split_ifs
    · rfl
    · rfl
    · rfl

theorem resultHit_congr {p t : Pipeline F P C} (hconfig : t.config = p.config)
    (h : SameFor (generateCacheKey lib name call) (executorOf p) (executorOf t)) :
    resultHit lib t call name = resultHit lib p call name := by
  unfold resultHit
  rw [hconfig, h.enableCache, h.getCachedResult]

section Frame

variable [DecidableEq P]

/-- A run that stores nothing, or a write under the own key. -/
theorem computeFresh_shape (lib : Library F P C) (p : Pipeline F P C) (name : String)
    (call : Call) : ∃ table cache, (computeFresh lib p name call).2 =
      { p with incrementalIndicators := table, cache := cache } ∧
      (cache = p.cache ∨ p.config.enableCache = true ∧ ∃ made, p.cache.set call.now
        (generateCacheKey lib name call) made (p.indicatorCacheTtl.get? name) = some cache) := by
  obtain ⟨table, hran, _⟩ := runIndicator_frame lib p name call
  unfold computeFresh
  dsimp only
  rw [hran]
  dsimp only
  split
  · exact ⟨table, p.cache, rfl, .inl rfl⟩
  · split_ifs with hon
    · split
      · exact ⟨table, p.cache, rfl, .inl rfl⟩
      · next cache hset => exact ⟨table, cache, rfl, .inr ⟨hon, _, hset⟩⟩
    · exact ⟨table, p.cache, rfl, .inl rfl⟩

/-- The smart cache after one indicator: as it was, read, or without what was under the key
and perhaps with a new entry there. -/
inductive CacheStep (lib : Library F P C) (p : Pipeline F P C) (call : Call) (name : String)
    (cache : SmartCache (Made F P Result)) : Prop
  | kept (entries : cache.entries ⊆ p.cache.entries)
      (still : p.config.enableCache = true → smartHit lib p call name = true)
  | missed (on : p.config.enableCache = true) (miss : smartHit lib p call name = false)
      (entries : ∀ entry ∈ cache.entries,
        (entry ∈ p.cache.entries ∧ entry.key ≠ generateCacheKey lib name call) ∨
          (entry.key = generateCacheKey lib name call ∧ entry.timestamp = call.now ∧
            entry.ttl = p.indicatorCacheTtl.get? name))

theorem computeIndicator_shape (lib : Library F P C) (p : Pipeline F P C) (name : String)
    (call : Call) : ∃ table cache, (computeIndicator lib p name call).2 =
      { p with incrementalIndicators := table, cache := cache } ∧ cache.ttl = p.cache.ttl ∧
      CacheStep lib p call name cache := by
  unfold computeIndicator
  split_ifs with hon
  · split
    · next found cache hget =>
      obtain ⟨hentries, _, httl⟩ := SmartCache.get_subset hget
      refine ⟨p.incrementalIndicators, cache, rfl, httl, .kept hentries ?_⟩
      intro _
      rw [smartHit, hon, hget]
      rfl
    · next read hget =>
      obtain ⟨hentries, _, httl⟩ := SmartCache.get_subset hget
      have hmiss : smartHit lib p call name = false := by
        rw [smartHit, hon, hget]
        rfl
      have hleft := SmartCache.get_miss hget
      obtain ⟨table, cache, hshape, hcache⟩ :=
        computeFresh_shape lib { p with cache := read } name call
      refine ⟨table, cache, hshape, ?_, ?_⟩
      · rcases hcache with rfl | ⟨_, made, hset⟩
        · exact httl
        · exact (SmartCache.set_mem hset).2.1.trans httl
      · refine .missed hon hmiss ?_
        intro entry hentry
        rcases hcache with rfl | ⟨_, made, hset⟩
        · exact .inl ⟨hentries hentry, hleft entry hentry⟩
        · rcases SmartCache.set_entry hset hentry with hold | rfl
          · exact .inl ⟨hentries hold, hleft entry hold⟩
          · exact .inr ⟨rfl, rfl, rfl⟩
  · obtain ⟨table, cache, hshape, hcache⟩ := computeFresh_shape lib p name call
    rcases hcache with rfl | ⟨hon', _⟩
    · exact ⟨table, p.cache, hshape, rfl, .kept (List.Subset.refl _) fun hon' => absurd hon' hon⟩
    · exact absurd hon' hon


end Frame

/-- What one member of a level does to the pipeline. -/
structure MemberStep (lib : Library F P C) (p : Pipeline F P C) (call : Call) (parallel : Bool)
    (name : String) (t : Pipeline F P C) : Prop where
  config : t.config = p.config
  limits : t.indicatorCacheTtl = p.indicatorCacheTtl
  ttl : t.cache.ttl = p.cache.ttl
  enableCache : (executorOf t).enableCache = (executorOf p).enableCache
  executor : ∀ key, key ≠ generateCacheKey lib name call →
    SameFor key (executorOf p) (executorOf t)
  stored : ∀ value, (executorOf t).enableCache = true →
    (executorOf t).resultCache.get? (generateCacheKey lib name call) = some value →
      if parallel && !resultHit lib p call name then value.2 = call.now
      else (executorOf p).resultCache.get? (generateCacheKey lib name call) = some value
  cache : if parallel && resultHit lib p call name then t.cache = p.cache
    else CacheStep lib p call name t.cache

/-- A task that the executor can answer takes its result and leaves the rest alone. -/
theorem executeTask_hit {found : Made F P (Option Result)} {e : Executor F P}
    (hon : (p.config.enableCache && (executorOf p).enableCache) = true)
    (hlookup : (executorOf p).getCachedResult call.now (generateCacheKey lib name call) =
      (some found, e)) : MemberStep lib p call true name { p with executor := some e } := by
  have hhit : resultHit lib p call name = true := by
    rw [resultHit, hon, hlookup]
    rfl
  refine ⟨rfl, rfl, rfl, ?_, ?_, ?_, by simp [hhit]⟩
  · have hsame := getCachedResult_enableCache (executorOf p) call.now (generateCacheKey lib name call)
    rw [hlookup] at hsame
    exact hsame
  · intro key hkey
    have hsame := getCachedResult_sameFor (executorOf p) call.now hkey
    rw [hlookup] at hsame
    exact hsame
  · intro value _ hvalue
    rw [hhit, Bool.not_true, Bool.and_false, if_neg Bool.false_ne_true]
    exact (getCachedResult_spec hlookup).2.1 _ value hvalue

/-- Any other task runs as a member of a serial level, and its answer is stored. -/
theorem executeTask_miss {e : Executor F P} (hmiss : resultHit lib p call name = false)
    (henable : e.enableCache = (executorOf p).enableCache)
    (hread : ∀ key, key ≠ generateCacheKey lib name call → SameFor key (executorOf p) e)
    (made : Made F P (Option Result)) {table : Dict String (Incremental P C)}
    {cache : SmartCache (Made F P Result)} (httl : cache.ttl = p.cache.ttl)
    (hcache : CacheStep lib { p with executor := some e } call name cache) :
    MemberStep lib p call true name
      { p with
        incrementalIndicators := table
        cache := cache
        executor := some (e.setCachedResult call.now (generateCacheKey lib name call) made) } := by
  refine ⟨rfl, rfl, httl, (setCachedResult_enableCache e _ _ made).trans henable, ?_, ?_, ?_⟩
  · intro key hkey
    exact (hread key hkey).trans (setCachedResult_sameFor e call.now made hkey)
  · intro value henabled hvalue
    rw [hmiss, Bool.not_false, Bool.and_true, if_pos rfl]
    have hstores : e.enableCache = true := (setCachedResult_enableCache e _ _ made).symm.trans henabled
    change (e.setCachedResult call.now (generateCacheKey lib name call) made).resultCache.get? _ =
      _ at hvalue
    rw [Executor.setCachedResult, if_pos hstores, Dict.get?_set, if_pos rfl] at hvalue
    cases hvalue
    rfl
  · rw [hmiss, Bool.and_false, if_neg Bool.false_ne_true]
    cases hcache with
    | kept entries still => exact .kept entries still
    | missed on miss entries => exact .missed on miss entries

theorem computeMember_step [DecidableEq P] (lib : Library F P C) (call : Call) (parallel : Bool)
    (acc : Pipeline F P C × Dict String (Option Result)) (name : String) :
    MemberStep lib acc.1 call parallel name (computeMember lib call parallel acc name).1 := by
  cases parallel with
  | false =>
    obtain ⟨table, cache, hshape, httl, hcache⟩ := computeIndicator_shape lib acc.1 name call
    show MemberStep lib acc.1 call false name (computeIndicator lib acc.1 name call).2
    rw [hshape]
    refine ⟨rfl, rfl, httl, rfl, fun key _ => SameFor.refl key _, ?_, by simpa using hcache⟩
    intro value _ hvalue
    rw [Bool.false_and, if_neg Bool.false_ne_true]
    exact hvalue
  | true =>
    show MemberStep lib acc.1 call true name (executeTask lib acc.1 name call).2
    unfold executeTask
    dsimp only
    split
    · next found e hlookup =>
      split_ifs at hlookup with hon
      · exact executeTask_hit hon hlookup
      · cases hlookup
    · next e hlookup =>
      obtain ⟨table, cache, hshape, httl, hcache⟩ :=
        computeIndicator_shape lib { acc.1 with executor := some e } name call
      rw [hshape]
      split_ifs at hlookup with hon
      · have henable := getCachedResult_enableCache (executorOf acc.1) call.now
          (generateCacheKey lib name call)
        rw [hlookup] at henable
        refine executeTask_miss (by rw [resultHit, hon, hlookup]; rfl) henable ?_ _ httl hcache
        intro key hkey
        have hsame := getCachedResult_sameFor (executorOf acc.1) call.now hkey
        rw [hlookup] at hsame
        exact hsame
      · cases hlookup
        refine executeTask_miss ?_ rfl (fun key _ => SameFor.refl key _) _ httl hcache
        rw [resultHit, Bool.eq_false_iff.mpr hon, Bool.false_and]

theorem noted_clears (lib : Library F P C) (p : Pipeline F P C) (ledger : Ledger) (call : Call)
    (parallel : Bool) (name : String) :
    (noted lib p ledger call parallel name).clears = ledger.clears := by
  unfold noted
  split_ifs <;> rfl

section Member

variable {lib : Library F P C} {p t : Pipeline F P C} {ledger : Ledger} {call : Call}
  {parallel : Bool} {name : String}

/-- Under other keys nothing is noted. -/
theorem noted_of_ne (p : Pipeline F P C) (ledger : Ledger) (parallel : Bool) {key : String}
    (h : key ≠ generateCacheKey lib name call) :
    (noted lib p ledger call parallel name).smart key = ledger.smart key ∧
      (noted lib p ledger call parallel name).results key = ledger.results key := by
  have hupdate : ∀ (births : String → Birth) birth,
      Function.update births (generateCacheKey lib name call) birth key = births key :=
    fun births birth => Function.update_of_ne h birth births
  unfold noted
  by_cases hresult : (parallel && resultHit lib p call name) = true
  · rw [if_pos hresult]
    exact ⟨rfl, rfl⟩
  · rw [if_neg hresult]
    constructor
    · dsimp only
      split_ifs
      · exact hupdate _ _
      · rfl
    · dsimp only
      split_ifs
      · exact hupdate _ _
      · rfl

/-- A run is noted when the smart cache was asked in vain. -/
theorem noted_smart_missed (ledger : Ledger)
    (hresult : ¬ (parallel && resultHit lib p call name) = true)
    (hon : p.config.enableCache = true) (hmiss : smartHit lib p call name = false) :
    (noted lib p ledger call parallel name).smart (generateCacheKey lib name call) =
      ⟨name, call.now, ledger.clears⟩ := by
  unfold noted
  rw [if_neg hresult, hon, hmiss]
  exact Function.update_self _ _ _

theorem noted_smart_kept (ledger : Ledger)
    (hstill : p.config.enableCache = true → smartHit lib p call name = true) :
    (noted lib p ledger call parallel name).smart = ledger.smart := by
  have hnot : ¬ (p.config.enableCache && !smartHit lib p call name) = true := by
    intro hboth
    rw [Bool.and_eq_true, Bool.not_eq_true'] at hboth
    exact Bool.false_ne_true (hboth.2.symm.trans (hstill hboth.1))
  unfold noted
  rw [if_neg hnot]
  by_cases hresult : (parallel && resultHit lib p call name) = true
  · rw [if_pos hresult]
  · rw [if_neg hresult]

/-- An entry of the smart cache was there before, or it is the new run. -/
theorem MemberStep.entry (h : MemberStep lib p call parallel name t) (ledger : Ledger)
    {entry : CacheEntry (Made F P Result)} (hentry : entry ∈ t.cache.entries) :
    (entry ∈ p.cache.entries ∧
        (noted lib p ledger call parallel name).smart entry.key = ledger.smart entry.key) ∨
      (entry.key = generateCacheKey lib name call ∧ entry.timestamp = call.now ∧
        entry.ttl = p.indicatorCacheTtl.get? name ∧
        (noted lib p ledger call parallel name).smart entry.key =
          ⟨name, call.now, ledger.clears⟩) := by
  have hcache := h.cache
  split_ifs at hcache with hresult
  · rw [hcache] at hentry
    rw [noted, if_pos hresult]
    exact .inl ⟨hentry, rfl⟩
  · cases hcache with
    | kept hentries hstill => exact .inl ⟨hentries hentry, by rw [noted_smart_kept ledger hstill]⟩
    | missed hon hmiss hentries =>
      rcases hentries entry hentry with ⟨hold, hkey⟩ | ⟨hkey, htime, hlimit⟩
      · exact .inl ⟨hold, (noted_of_ne p ledger parallel hkey).1⟩
      · refine .inr ⟨hkey, htime, hlimit, ?_⟩
        rw [hkey, noted_smart_missed ledger hresult hon hmiss]

/-- A result of the executor was there before, or it is the answer of the member. -/
theorem MemberStep.result (h : MemberStep lib p call parallel name t) (ledger : Ledger)
    (henabled : (executorOf t).enableCache = true) {key : String}
    {value : Made F P (Option Result) × ℚ}
    (hvalue : (executorOf t).resultCache.get? key = some value) :
    ((executorOf p).resultCache.get? key = some value ∧
        (noted lib p ledger call parallel name).results key = ledger.results key) ∨
      (key = generateCacheKey lib name call ∧ value.2 = call.now ∧
        ¬ (parallel && resultHit lib p call name) = true ∧
        (noted lib p ledger call parallel name).results key =
          birthOf lib p ledger call parallel name) := by
  by_cases hkey : key = generateCacheKey lib name call
  · subst hkey
    have hstored := h.stored value henabled hvalue
    unfold noted
    cases parallel with
    | false => exact .inl ⟨by simpa using hstored, by simp⟩
    | true =>
      cases hresult : resultHit lib p call name with
      | true => exact .inl ⟨by simpa [hresult] using hstored, by simp⟩
      | false => exact .inr ⟨rfl, by simpa [hresult] using hstored, by simp, by simp⟩
  · rw [(h.executor key hkey).result] at hvalue
    exact .inl ⟨hvalue, (noted_of_ne p ledger parallel hkey).2⟩

/-- One member of a level keeps the ledger true. -/
theorem Sound.member (h : Sound p ledger) (hstep : MemberStep lib p call parallel name t) :
    Sound t (noted lib p ledger call parallel name) where
  ttl := by rw [hstep.ttl, hstep.config, h.ttl]
  time := by
    intro entry hentry
    rcases hstep.entry ledger hentry with ⟨hold, hsame⟩ | ⟨_, htime, _, hnew⟩
    · rw [hsame, h.time entry hold]
    · rw [hnew, htime]
  clears := by
    intro entry hentry
    rw [noted_clears]
    rcases hstep.entry ledger hentry with ⟨hold, hsame⟩ | ⟨_, _, _, hnew⟩
    · rw [hsame, h.clears entry hold]
    · rw [hnew]
  limit := by
    intro entry hentry
    rw [hstep.limits]
    rcases hstep.entry ledger hentry with ⟨hold, hsame⟩ | ⟨_, _, hlimit, hnew⟩
    · rw [hsame, h.limit entry hold]
    · rw [hnew, hlimit]

end Member

/-- The run behind a result that the executor stores in a call: a new one, or one whose value
the smart cache held and still served. -/
structure StoredAt (lib : Library F P C) (s : Aged F P C) (call : Call) (key : String) (time : ℚ)
    (birth : Birth) : Prop where
  computed : birth.indicator ∈ computed s.pipeline call
  under : key = generateCacheKey lib birth.indicator call
  time : time = call.now
  clears : birth.clears = s.ledger.clears
  born : birth.time = call.now ∨ ∃ entry ∈ s.pipeline.cache.entries, entry.key = key ∧
    s.pipeline.cache.expired call.now entry = false ∧ birth.time = entry.timestamp

/-- What the smart cache would serve was stored for the same indicator. -/
def OwnEntries (lib : Library F P C) (s : Aged F P C) (call : Call) : Prop :=
  ∀ name ∈ computed s.pipeline call, ∀ entry ∈ s.pipeline.cache.entries,
    entry.key = generateCacheKey lib name call → (s.ledger.smart entry.key).indicator = name

/-- Inside a call, with the members that are still to come: what they will find in the
caches is as it was at the start of the call. -/
structure Underway (lib : Library F P C) (s : Aged F P C) (call : Call)
    (todo : List (String × Bool)) (acc : Answering F P C) : Prop where
  config : acc.answer.1.config = s.pipeline.config
  limits : acc.answer.1.indicatorCacheTtl = s.pipeline.indicatorCacheTtl
  sound : Sound acc.answer.1 acc.ledger
  clears : acc.ledger.clears = s.ledger.clears
  names : ∀ member ∈ todo, member.1 ∈ computed s.pipeline call
  hits : ∀ member ∈ todo,
    resultHit lib acc.answer.1 call member.1 = resultHit lib s.pipeline call member.1
  births : ∀ member ∈ todo, acc.ledger.results (generateCacheKey lib member.1 call) =
    s.ledger.results (generateCacheKey lib member.1 call)
  entries : ∀ entry ∈ acc.answer.1.cache.entries,
    (entry ∈ s.pipeline.cache.entries ∧ acc.ledger.smart entry.key = s.ledger.smart entry.key) ∨
      ∃ name ∈ computed s.pipeline call, (∀ member ∈ todo, member.1 ≠ name) ∧
        entry.key = generateCacheKey lib name call ∧
          (acc.ledger.smart entry.key).indicator = name
  enableCache : (executorOf acc.answer.1).enableCache = (executorOf s.pipeline).enableCache
  results : (executorOf acc.answer.1).enableCache = true → ∀ key value,
    (executorOf acc.answer.1).resultCache.get? key = some value →
      ((executorOf s.pipeline).resultCache.get? key = some value ∧
          acc.ledger.results key = s.ledger.results key) ∨
        StoredAt lib s call key value.2 (acc.ledger.results key)

section Run

variable {lib : Library F P C} {s : Aged F P C} {call : Call} {todo : List (String × Bool)}
  {acc : Answering F P C} {name : String} {parallel : Bool}

/-- A hit of the smart cache is one of an entry from before the call. -/
theorem Underway.smart (h : Underway lib s call ((name, parallel) :: todo) acc)
    (hsmart : smartHit lib acc.answer.1 call name = true) :
    ∃ entry ∈ s.pipeline.cache.entries, entry.key = generateCacheKey lib name call ∧
      entry ∈ acc.answer.1.cache.entries ∧ acc.answer.1.cache.expired call.now entry = false ∧
        acc.ledger.smart entry.key = s.ledger.smart entry.key := by
  obtain ⟨entry, hmem, hkey, hlive⟩ := exists_of_smartHit hsmart
  rcases h.entries entry hmem with ⟨hold, hsame⟩ | ⟨other, _, hdone, hother, _⟩
  · exact ⟨entry, hold, hkey, hmem, hlive, hsame⟩
  · exact absurd (generateCacheKey_inj (hkey.symm.trans hother))
      (hdone _ List.mem_cons_self)

/-- The answer of the smart cache, and a run, for the executor to store. -/
theorem Underway.storedAt (h : Underway lib s call ((name, parallel) :: todo) acc)
    (hown : OwnEntries lib s call) (httl : s.pipeline.cache.ttl = s.pipeline.config.cacheTtl)
    (hresult : ¬ (parallel && resultHit lib acc.answer.1 call name) = true) :
    StoredAt lib s call (generateCacheKey lib name call) call.now
      (birthOf lib acc.answer.1 acc.ledger call parallel name) := by
  have hname := h.names _ List.mem_cons_self
  unfold birthOf
  rw [if_neg hresult]
  split_ifs with hsmart
  · obtain ⟨entry, hold, hkey, hmem, hlive, hsame⟩ := h.smart hsmart
    rw [← hkey, hsame]
    have hindicator := hown name hname entry hold hkey
    have hclears := h.sound.clears entry hmem
    have htime := h.sound.time entry hmem
    rw [hsame] at hclears htime
    refine ⟨?_, ?_, rfl, hclears.trans h.clears, .inr ⟨entry, hold, rfl, ?_, htime⟩⟩
    · rw [hindicator]
      exact hname
    · rw [hindicator, hkey]
    · rw [SmartCache.expired_congr (d := acc.answer.1.cache)] at hlive
      · exact hlive
      · rw [h.sound.ttl, h.config, httl]
  · exact ⟨hname, rfl, rfl, h.clears, .inl rfl⟩

/-- The answer of the smart cache and a run are fresh; that of the executor has to be. -/
theorem Underway.birth (h : Underway lib s call ((name, parallel) :: todo) acc)
    (hown : OwnEntries lib s call)
    (hfresh : (parallel && resultHit lib s.pipeline call name) = true →
      FreshBirth s call name (s.ledger.results (generateCacheKey lib name call))) :
    FreshBirth s call name (birthOf lib acc.answer.1 acc.ledger call parallel name) := by
  have hhits := h.hits _ List.mem_cons_self
  have hbirths := h.births _ List.mem_cons_self
  dsimp only at hhits hbirths
  unfold birthOf
  rw [hhits, hbirths]
  split_ifs with hresult hsmart
  · exact hfresh hresult
  · obtain ⟨entry, hold, hkey, hmem, hlive, hsame⟩ := h.smart hsmart
    have hindicator := hown name (h.names _ List.mem_cons_self) entry hold hkey
    rw [← hsame] at hindicator
    have hlimit := h.sound.limit entry hmem
    rw [← hkey]
    refine ⟨hindicator, ?_, (h.sound.clears entry hmem).trans h.clears⟩
    have hage : call.now - entry.timestamp ≤ ttlOf s.pipeline name := by
      unfold SmartCache.expired at hlive
      rw [hlimit, hindicator, h.sound.ttl, h.config, h.limits] at hlive
      exact not_lt.mp (of_decide_eq_false hlive)
    rw [h.sound.time entry hmem]
    exact hage.trans (le_max_right _ _)
  · refine ⟨rfl, ?_, h.clears⟩
    show call.now - call.now ≤ _
    rw [sub_self]
    exact le_max_left _ _

variable [DecidableEq P]

theorem Underway.member (h : Underway lib s call ((name, parallel) :: todo) acc)
    (hown : OwnEntries lib s call) (httl : s.pipeline.cache.ttl = s.pipeline.config.cacheTtl)
    (hothers : ∀ member ∈ todo, member.1 ≠ name) :
    Underway lib s call todo (agedMember lib call parallel acc name) := by
  have hstep := computeMember_step lib call parallel acc.answer name
  have hkeys : ∀ member ∈ todo,
      generateCacheKey lib member.1 call ≠ generateCacheKey lib name call :=
    fun member hmember hsame => hothers member hmember (generateCacheKey_inj hsame)
  refine ⟨hstep.config.trans h.config, hstep.limits.trans h.limits, h.sound.member hstep,
    (noted_clears lib acc.answer.1 acc.ledger call parallel name).trans h.clears,
    fun member hmember => h.names member (List.mem_cons_of_mem _ hmember), ?_, ?_, ?_,
    hstep.enableCache.trans h.enableCache, ?_⟩
  · intro member hmember
    rw [← h.hits member (List.mem_cons_of_mem _ hmember)]
    exact resultHit_congr hstep.config (hstep.executor _ (hkeys member hmember))
  · intro member hmember
    rw [← h.births member (List.mem_cons_of_mem _ hmember)]
    exact (noted_of_ne acc.answer.1 acc.ledger parallel (hkeys member hmember)).2
  · intro entry hentry
    rcases hstep.entry acc.ledger hentry with ⟨hold, hsame⟩ | ⟨hkey, _, _, hnew⟩
    · rcases h.entries entry hold with ⟨hfirst, hfirstSame⟩ | ⟨other, hin, hdone, hkey, hborn⟩
      · exact .inl ⟨hfirst, hsame.trans hfirstSame⟩
      · exact .inr ⟨other, hin, fun member hmember => hdone member (List.mem_cons_of_mem _ hmember),
          hkey, (congrArg Birth.indicator hsame).trans hborn⟩
    · exact .inr ⟨name, h.names _ List.mem_cons_self, hothers, hkey,
        congrArg Birth.indicator hnew⟩
  · intro henabled key value hvalue
    rcases hstep.result acc.ledger henabled hvalue with ⟨hold, hsame⟩ | ⟨hkey, htime, hmiss, hnew⟩
    · rcases h.results (hstep.enableCache ▸ henabled) key value hold with ⟨hfirst, hkept⟩ | hstored
      · exact .inl ⟨hfirst, hsame.trans hkept⟩
      · refine .inr ?_
        show StoredAt lib s call key value.2
          ((noted lib acc.answer.1 acc.ledger call parallel name).results key)
        rw [hsame]
        exact hstored
    · subst hkey
      refine .inr ?_
      show StoredAt lib s call _ value.2
        ((noted lib acc.answer.1 acc.ledger call parallel name).results _)
      rw [htime, hnew]
      exact h.storedAt hown httl hmiss

/-- The values of a whole call are fresh when the executor serves none that is stale. -/
theorem Underway.finish (h : Underway lib s call todo acc) (hown : OwnEntries lib s call)
    (httl : s.pipeline.cache.ttl = s.pipeline.config.cacheTtl)
    (hnodup : (todo.map Prod.fst).Nodup)
    (hfresh : ∀ member ∈ todo, member.1 ≠ "" →
      (member.2 && resultHit lib s.pipeline call member.1) = true →
        FreshBirth s call member.1 (s.ledger.results (generateCacheKey lib member.1 call)))
    (hserved : ∀ value ∈ acc.served, FreshBirth s call value.1 value.2) :
    Underway lib s call [] (todo.foldl (fun acc member =>
      agedMember lib call member.2 acc member.1) acc) ∧
    ∀ value ∈ (todo.foldl (fun acc member => agedMember lib call member.2 acc member.1) acc).served,
      FreshBirth s call value.1 value.2 := by
  induction todo generalizing acc with
  | nil => exact ⟨h, hserved⟩
  | cons member todo ih =>
    obtain ⟨name, parallel⟩ := member
    rw [List.map_cons, List.nodup_cons] at hnodup
    have hothers : ∀ other ∈ todo, other.1 ≠ name := by
      intro other hother hsame
      apply hnodup.1
      rw [← hsame]
      exact List.mem_map.mpr ⟨other, hother, rfl⟩
    refine ih (h.member hown httl hothers) hnodup.2
      (fun other hother => hfresh other (List.mem_cons_of_mem _ hother)) ?_
    unfold agedMember
    dsimp only
    split_ifs with hdropped
    · exact hserved
    · refine List.forall_mem_append.mpr ⟨hserved, ?_⟩
      rintro value hvalue
      rw [List.mem_singleton.mp hvalue]
      refine h.birth hown fun hresult => hfresh _ List.mem_cons_self ?_ hresult
      rintro rfl
      exact hdropped (by rw [(Bool.and_eq_true_iff.mp hresult).1]; rfl)

end Run

/-- The members of all levels in the order in which they are computed, with how. -/
def members (config : PipelineConfig) (call : Call) (groups : List (List String)) :
    List (String × Bool) :=
  groups.flatMap fun level =>
    (call.schedule.arrange level).map fun name => (name, runsParallel config level)

theorem mem_members {config : PipelineConfig} {groups : List (List String)}
    {member : String × Bool} : member ∈ members config call groups ↔
      ∃ level ∈ groups, member.1 ∈ level ∧ member.2 = runsParallel config level := by
  unfold members
  rw [List.mem_flatMap]
  constructor
  · rintro ⟨level, hlevel, hmember⟩
    obtain ⟨name, hname, rfl⟩ := List.mem_map.mp hmember
    exact ⟨level, hlevel, (call.schedule.perm level).mem_iff.mp hname, rfl⟩
  · rintro ⟨level, hlevel, hname, hparallel⟩
    refine ⟨level, hlevel, List.mem_map.mpr ⟨member.1, ?_, ?_⟩⟩
    · exact (call.schedule.perm level).mem_iff.mpr hname
    · rw [← hparallel]

theorem members_names (config : PipelineConfig) (call : Call) (groups : List (List String)) :
    ((members config call groups).map Prod.fst).Perm groups.flatten := by
  have hnames : (members config call groups).map Prod.fst =
      groups.flatMap fun level => call.schedule.arrange level := by
    unfold members
    rw [List.map_flatMap]
    apply List.flatMap_congr
    intro level _
    rw [List.map_map]
    exact List.map_id _
  have hlevels : groups.flatten = groups.flatMap fun level => level := List.flatMap_id.symm
  rw [hnames, hlevels]
  exact List.Perm.flatMap_left groups fun level _ => call.schedule.perm level

/-- No indicator is computed twice in a call. -/
theorem nodup_members (p : Pipeline F P C) (call : Call) (config : PipelineConfig) :
    ((members config call (groupsOf p call)).map Prod.fst).Nodup := by
  refine (members_names config call _).nodup_iff.mpr ?_
  unfold groupsOf
  cases horder : getExecutionOrder p call with
  | none => exact List.nodup_nil
  | some groups =>
    have hnodes : (relevantNodes p (requested p call)).Nodup :=
      Levels.closure_nodup (nodup_edges p) _ _
    exact (Levels.levels_perm (nodup_edges p) hnodes horder).nodup_iff.mpr hnodes

/-- Every cached value goes back to an earlier call that computed its indicator. -/
structure Recorded (lib : Library F P C) (past : Aged F P C → Act → Prop) (s : Aged F P C) :
    Prop where
  sound : Sound s.pipeline s.ledger
  entries : ∀ entry ∈ s.pipeline.cache.entries, ∃ t call, past t (.compute call) ∧
    (s.ledger.smart entry.key).indicator ∈ computed t.pipeline call ∧
      entry.key = generateCacheKey lib (s.ledger.smart entry.key).indicator call
  results : (executorOf s.pipeline).enableCache = true → ∀ key value,
    (executorOf s.pipeline).resultCache.get? key = some value →
      ∃ t call, past t (.compute call) ∧
        StoredAt lib t call key value.2 (s.ledger.results key)

section Past

variable {lib : Library F P C} {s : Aged F P C} {call : Call} {past : Aged F P C → Act → Prop}

theorem Recorded.own (h : Recorded lib past s)
    (hpast : ∀ t act, past t act → InTime lib t act s (.compute call)) :
    OwnEntries lib s call := by
  intro name hname entry hentry hkey
  obtain ⟨t, earlier, hin, hcomputed, hunder⟩ := h.entries entry hentry
  exact (hpast t _ hin).1 _ hcomputed name hname (hunder.symm.trans hkey)

/-- What the executor answers goes back to a fresh run when it lasts since it was stored. -/
theorem Recorded.fresh (h : Recorded lib past s)
    (hpast : ∀ t act, past t act → InTime lib t act s (.compute call)) {name : String}
    (hname : name ∈ answered lib s.pipeline call) :
    FreshBirth s call name (s.ledger.results (generateCacheKey lib name call)) := by
  obtain ⟨hin, hanswered⟩ := List.mem_filter.mp hname
  obtain ⟨level, hlevel, hmem⟩ := List.mem_flatten.mp hin
  have hcomputed : name ∈ computed s.pipeline call :=
    List.mem_flatten.mpr ⟨level, (List.mem_filter.mp hlevel).1, hmem⟩
  obtain ⟨-, hhit⟩ := Bool.and_eq_true_iff.mp hanswered
  obtain ⟨hon, hfound⟩ := Bool.and_eq_true_iff.mp hhit
  obtain ⟨found, hget⟩ := Option.isSome_iff_exists.mp hfound
  obtain ⟨time, hvalue, -⟩ := (getCachedResult_spec (Prod.ext hget rfl)).2.2 found rfl
  obtain ⟨t, earlier, hin, hstored⟩ :=
    h.results (Bool.and_eq_true_iff.mp hon).2 _ (found, time) hvalue
  obtain ⟨hkeys, hlasts⟩ := hpast t _ hin
  have hsame := hkeys _ hstored.computed name hcomputed hstored.under.symm
  have hunder := hstored.under
  rw [hsame] at hunder
  have hlast := hlasts name hname hunder.symm (by rw [hvalue]; exact congrArg some hstored.time)
  refine ⟨hsame, ?_, hstored.clears.trans hlast.clears.symm⟩
  rcases hstored.born with hborn | ⟨entry, hentry, hkey, hlive, hborn⟩
  · rw [hborn]
    exact hlast.stored
  · rw [hborn]
    exact hlast.copied entry hentry (hkey.trans hunder) hlive

end Past

section Call

variable [DecidableEq P] {lib : Library F P C} {s : Aged F P C} {call : Call}

theorem agedCompute_eq (lib : Library F P C) (s : Aged F P C) (call : Call) :
    agedCompute lib s call = (members s.pipeline.config call (groupsOf s.pipeline call)).foldl
      (fun acc member => agedMember lib call member.2 acc member.1)
      ⟨(s.pipeline, Dict.empty), s.ledger, []⟩ := by
  have hgroups : ∀ (groups : List (List String)) (acc : Answering F P C),
      acc.answer.1.config = s.pipeline.config →
      groups.foldl (agedGroup lib call) acc = (members s.pipeline.config call groups).foldl
        (fun acc member => agedMember lib call member.2 acc member.1) acc := by
    intro groups
    induction groups with
    | nil => exact fun acc _ => rfl
    | cons level groups ih =>
      intro acc hconfig
      have hlevel : (agedGroup lib call acc level).answer.1.config = s.pipeline.config := by
        unfold agedGroup
        refine List.foldlRecOn (motive := fun acc : Answering F P C =>
          acc.answer.1.config = s.pipeline.config) _ _ hconfig ?_
        intro inner hinner name _
        exact (computeMember_step lib call _ inner.answer name).config.trans hinner
      have hcons : members s.pipeline.config call (level :: groups) =
          (call.schedule.arrange level).map
            (fun name => (name, runsParallel s.pipeline.config level)) ++
              members s.pipeline.config call groups := List.flatMap_cons
      rw [List.foldl_cons, ih _ hlevel, hcons, List.foldl_append, List.foldl_map, agedGroup,
        hconfig]
  unfold agedCompute groupsOf
  cases getExecutionOrder s.pipeline call with
  | none => rfl
  | some groups => exact hgroups groups _ rfl

/-- A call returns fresh values when the executor has none that is stale to serve. -/
theorem compute_fresh (hsound : Sound s.pipeline s.ledger) (hown : OwnEntries lib s call)
    (hfresh : ∀ name ∈ answered lib s.pipeline call,
      FreshBirth s call name (s.ledger.results (generateCacheKey lib name call))) :
    Underway lib s call [] (agedCompute lib s call) ∧ Fresh lib s (.compute call) := by
  have hstart : Underway lib s call (members s.pipeline.config call (groupsOf s.pipeline call))
      ⟨(s.pipeline, Dict.empty), s.ledger, []⟩ := by
    refine ⟨rfl, rfl, hsound, rfl, ?_, fun _ _ => rfl, fun _ _ => rfl,
      fun entry hentry => .inl ⟨hentry, rfl⟩, rfl, fun _ key value hvalue => .inl ⟨hvalue, rfl⟩⟩
    intro member hmember
    obtain ⟨level, hlevel, hname, _⟩ := mem_members.mp hmember
    exact List.mem_flatten.mpr ⟨level, hlevel, hname⟩
  have hdone := hstart.finish hown hsound.ttl (nodup_members _ _ _) ?_ (fun _ h => (nomatch h))
  · rw [← agedCompute_eq] at hdone
    exact hdone
  · intro member hmember hname hresult
    obtain ⟨level, hlevel, hin, hmode⟩ := mem_members.mp hmember
    obtain ⟨hparallel, hhit⟩ := Bool.and_eq_true_iff.mp hresult
    apply hfresh
    refine List.mem_filter.mpr ⟨List.mem_flatten.mpr ⟨level, ?_, hin⟩, ?_⟩
    · exact List.mem_filter.mpr ⟨hlevel, hmode ▸ hparallel⟩
    · simp [hname, hhit]

theorem Recorded.step {past : Aged F P C → Act → Prop} {act : Act} {t : Aged F P C}
    (h : Recorded lib past s) (hpast : ∀ t act', past t act' → InTime lib t act' s act)
    (hstep : step lib s act = some t) :
    Recorded lib (fun u b => past u b ∨ (u = s ∧ b = act)) t := by
  cases act with
  | compute call =>
    simp only [ResultFreshness.step] at hstep
    split_ifs at hstep
    cases Option.some.inj hstep
    obtain ⟨hdone, -⟩ := compute_fresh h.sound (h.own hpast) fun name hname => h.fresh hpast hname
    refine ⟨hdone.sound, ?_, ?_⟩
    · intro entry hentry
      rcases hdone.entries entry hentry with ⟨hold, hsame⟩ | ⟨name, hname, -, hkey, hborn⟩
      · obtain ⟨u, earlier, hin, hcomputed⟩ := h.entries entry hold
        exact ⟨u, earlier, .inl hin, by rw [hsame]; exact hcomputed⟩
      · exact ⟨s, call, .inr ⟨rfl, rfl⟩, by rw [hborn]; exact ⟨hname, hkey⟩⟩
    · intro henabled key value hvalue
      rcases hdone.results henabled key value hvalue with ⟨hold, hsame⟩ | hstored
      · obtain ⟨u, earlier, hin, hstored⟩ := h.results (hdone.enableCache ▸ henabled) key value hold
        exact ⟨u, earlier, .inl hin, by rw [hsame]; exact hstored⟩
      · exact ⟨s, call, .inr ⟨rfl, rfl⟩, hstored⟩
  | clearCache =>
    cases Option.some.inj hstep
    refine ⟨⟨h.sound.ttl, fun _ h => (nomatch h), fun _ h => (nomatch h), fun _ h => (nomatch h)⟩,
      fun _ h => (nomatch h), ?_⟩
    intro henabled key value hvalue
    obtain ⟨u, earlier, hin, hstored⟩ := h.results henabled key value hvalue
    exact ⟨u, earlier, .inl hin, hstored⟩

end Call

/-- Whatever is computed, serially or in parallel, and whenever the cache is cleared: as long
as of any two calls the later one asks in time for what the earlier one stored, all values
that are returned are fresh. -/
theorem fresh_along [DecidableEq P] (lib : Library F P C) (config : PipelineConfig)
    (registrations : Dict String (Registration F P C)) (graph : Dict String (Dict String Unit))
    (indicatorCacheTtl : Dict String ℚ) (incrementalIndicators : Dict String (Incremental P C))
    (clock : ℚ) (acts : List Act)
    (hpairs : AlongPairs (step lib) (InTime lib)
      (opened config registrations graph indicatorCacheTtl incrementalIndicators clock) acts) :
    Along (step lib) (Fresh lib)
      (opened config registrations graph indicatorCacheTtl incrementalIndicators clock) acts := by
  have hnew : Recorded lib (fun _ _ => False)
      (opened config registrations graph indicatorCacheTtl incrementalIndicators clock) := by
    refine ⟨⟨?_, fun _ h => (nomatch h), fun _ h => (nomatch h), fun _ h => (nomatch h)⟩,
      fun _ h => (nomatch h), fun _ key value hvalue => ?_⟩
    · show config.cacheTtl = (applyRuntimeConfig config).cacheTtl
      unfold applyRuntimeConfig
      split_ifs <;> rfl
    · cases hvalue
  refine along_of_pairs ?_ (fun past s act t hs hpast hstep => hs.step hpast hstep) hnew
    (fun _ _ h => h.elim) hpairs
  intro past s act hs hpast
  cases act with
  | compute call =>
    exact (compute_fresh hs.sound (hs.own hpast) fun name hname => hs.fresh hpast hname).2
  | clearCache => trivial

def twoIndicators : Dict String (Registration Unit ℕ Unit) :=
  (Dict.empty.set "rsi" ⟨(), 14, none⟩).set "sma" ⟨(), 5, none⟩

def computeBoth (now : ℚ) : Act := .compute (hourlyCall 3600 105 now)

def computeRsi (now : ℚ) : Act :=
  .compute { hourlyCall 3600 105 now with indicators := some ["rsi"] }

/-- The first value is copied at 100 and still fresh at 300, where the executor answers; the
last call runs anew. -/
theorem fresh_along_copied :
    Along (step closeOverPeriod) (Fresh closeOverPeriod)
      (opened {} twoIndicators Dict.empty Dict.empty Dict.empty 0)
      [computeRsi 0, computeBoth 100, computeBoth 300, computeBoth 700] :=
  fresh_along closeOverPeriod {} twoIndicators Dict.empty Dict.empty Dict.empty 0
    [computeRsi 0, computeBoth 100, computeBoth 300, computeBoth 700] (by decide +kernel)

/-- One indicator is run at 0. At 200 the executor gets its value out of the smart cache, and
still serves it at 450. -/
theorem not_fresh_along :
    ¬ ∀ (config : PipelineConfig) (registrations : Dict String (Registration Unit ℕ Unit))
        (graph : Dict String (Dict String Unit)) (indicatorCacheTtl : Dict String ℚ) (clock : ℚ)
        (acts : List Act), Along (step closeOverPeriod) (Fresh closeOverPeriod)
          (opened config registrations graph indicatorCacheTtl Dict.empty clock) acts := by
  intro hall
  have hfresh := hall {} twoIndicators Dict.empty Dict.empty 0
    [computeRsi 0, computeBoth 200, computeBoth 450]
  revert hfresh
  decide +kernel

end MT5Services.ResultFreshness
