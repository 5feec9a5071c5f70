import MT5Services.IndicatorRegistry
import Mathlib.Data.List.Infix

/-!
The removal of an indicator from the registry. What belongs to an indicator is kept in six
places: its results under a key that ends with its name, its function in two tables, its
parameters, its edges in the two maps of the dependency manager, its incremental instance,
its age limit and the values in the caches of the pipeline. `remove_indicator` finds the
results by the end of their keys and does not come to the last three.
-/
namespace MT5Services.IndicatorRemoval

open DependencyGraph
open IndicatorPipeline (Result Incremental Made Executor)
open IndicatorRegistry (IndicatorConfig Modules Manager loadIncrementalClass registerInstance
  registerOne registerIndicators registerIndicators_keeps setCacheTtl)

structure IndicatorResult where
  name : String
  value : Result
  symbol : String
  timeframe : String
  deriving DecidableEq

/-- The registry with the results and the caches of the pipeline. -/
structure UnifiedIndicatorManager (F P C : Type*) extends Manager F P C where
  cache : SmartCache (Made F P Result) := {}
  executor : Option (Executor F P) := none
  results : Dict String IndicatorResult := Dict.empty
  resultsMax : ℕ

variable {F P C : Type*}

def resultKey (symbol timeframe name : String) : String :=
  symbol ++ "_" ++ timeframe ++ "_" ++ name

/-- `key.endswith(f"_{name}")`. -/
def endsWithName (key name : String) : Bool := ("_" ++ name).toList.isSuffixOf key.toList

/-- One value of `store_results`: moved to the end when it is there. -/
def storeResult (symbol timeframe : String) (results : Dict String IndicatorResult)
    (item : String × Option Result) : Dict String IndicatorResult :=
  match item.2 with
  | none => results
  | some value =>
    let key := resultKey symbol timeframe item.1
    (results.pop key).set key ⟨item.1, value, symbol, timeframe⟩

/-- The first results go when there are too many. -/
def evictResults (limit : ℕ) (results : Dict String IndicatorResult) :
    Dict String IndicatorResult where
  items := results.items.drop (results.items.length - limit)
  nodup := results.nodup.sublist ((List.drop_sublist _ _).map Prod.fst)

def storeResults (m : UnifiedIndicatorManager F P C) (symbol timeframe : String)
    (values : List (String × Option Result)) : UnifiedIndicatorManager F P C :=
  { m with
    results := evictResults m.resultsMax (values.foldl (storeResult symbol timeframe) m.results) }

def removeIndicator (m : UnifiedIndicatorManager F P C) (name : String) :
    UnifiedIndicatorManager F P C × Bool :=
  match m.toManager.removeIndicator name with
  | (registry, true) =>
    ({ m with
        toManager := registry
        results := m.results.pick fun key => !endsWithName key name }, true)
  | (_, false) => (m, false)

/-- What the registry and its pipeline do. An update changes the list of configurations in
its own way before everything is registered again; a reload clears the dependency manager
first; computing leaves its traces in the caches and the incremental instances. -/
inductive Act (F P C : Type*)
  | add (config : IndicatorConfig P)
  | update (configs : List (IndicatorConfig P))
  | remove (name : String)
  | reinitialize (configs : List (IndicatorConfig P))
  | storeResults (symbol timeframe : String) (values : List (String × Option Result))
  | compute (cache : SmartCache (Made F P Result)) (executor : Option (Executor F P))
      (instances : Dict String (Incremental P C))

def perform [DecidableEq P] [DecidableEq C] (env : Modules F P C)
    (m : UnifiedIndicatorManager F P C) : Act F P C → UnifiedIndicatorManager F P C
  | .add config => { m with toManager := (m.toManager.addIndicator env config).1 }
  | .update configs =>
    { m with toManager := (registerIndicators env { m.toManager with config := configs }).1 }
  | .remove name => (removeIndicator m name).1
  | Act.reinitialize configs =>
    { m with toManager := (m.toManager.reinitialize env configs).1 }
  | .storeResults symbol timeframe values => storeResults m symbol timeframe values
  | .compute cache executor instances =>
    { m with cache := cache, executor := executor, incrementalIndicators := instances }

/-- The state after these acts. -/
def reached [DecidableEq P] [DecidableEq C] (env : Modules F P C) (resultsMax : ℕ)
    (acts : List (Act F P C)) : UnifiedIndicatorManager F P C :=
  acts.foldl (perform env) { resultsMax := resultsMax }

/-- A key under which the pipeline keeps a value of the indicator, for some symbol,
timeframe and hash of the bars. -/
def CacheKeyOf (name key : String) : Prop :=
  ∃ (symbol timeframe : String) (hash : ℤ),
    key = name ++ ("_" ++ symbol ++ "_" ++ timeframe ++ "_" ++ toString hash)

/-- Neither cache of the pipeline has a value under a key of the indicator. -/
structure Uncached (m : UnifiedIndicatorManager F P C) (name : String) : Prop where
  cache : ∀ entry ∈ m.cache.entries, ¬ CacheKeyOf name entry.key
  executor : ∀ executor ∈ m.executor, ∀ key, CacheKeyOf name key →
    executor.resultCache.get? key = none

def Registered (m : UnifiedIndicatorManager F P C) (name : String) : Prop :=
  ∃ config ∈ m.config, config.name = name

/-- Nothing of the indicator is left. -/
structure Clean (m : UnifiedIndicatorManager F P C) (name : String) : Prop where
  results : ∀ key result, m.results.get? key = some result → result.name ≠ name
  func : m.indicatorFuncs.get? name = none
  graphFunc : m.dependencyManager.indicatorFuncs.get? name = none
  params : m.dependencyManager.indicatorParams.get? name = none
  edges : ∀ other, ¬ m.dependencyManager.DependsOn name other ∧
    ¬ m.dependencyManager.DependsOn other name
  instance_ : m.incrementalIndicators.get? name = none
  cacheTtl : m.dependencyManager.indicatorCacheTtl.get? name = none
  uncached : Uncached m name

/-- What belongs to the other indicators is as before. -/
structure OthersKept (before after : UnifiedIndicatorManager F P C) (name : String) : Prop where
  results : ∀ key result, result.name ≠ name →
    (after.results.get? key = some result ↔ before.results.get? key = some result)
  funcs : ∀ other, other ≠ name →
    after.indicatorFuncs.get? other = before.indicatorFuncs.get? other
  graphFuncs : ∀ other, other ≠ name →
    after.dependencyManager.indicatorFuncs.get? other =
      before.dependencyManager.indicatorFuncs.get? other
  params : ∀ other, other ≠ name →
    after.dependencyManager.indicatorParams.get? other =
      before.dependencyManager.indicatorParams.get? other
  edges : ∀ x y, x ≠ name → y ≠ name →
    (after.dependencyManager.DependsOn x y ↔ before.dependencyManager.DependsOn x y)
  instances : ∀ other, other ≠ name →
    after.incrementalIndicators.get? other = before.incrementalIndicators.get? other
  cacheTtls : ∀ other, other ≠ name →
    after.dependencyManager.indicatorCacheTtl.get? other =
      before.dependencyManager.indicatorCacheTtl.get? other

/-- The removal takes all that belongs to the indicator and nothing else. -/
structure Removed (m : UnifiedIndicatorManager F P C) (name : String) : Prop where
  clean : Clean (removeIndicator m name).1 name
  others : OthersKept m (removeIndicator m name).1 name

/-- The name ends no key of another indicator's result, the indicator has none of the traces
that the removal does not come to, and the dependency manager knows it. -/
structure Separate (m : UnifiedIndicatorManager F P C) (name : String) : Prop where
  keys : ∀ key result, m.results.get? key = some result → result.name ≠ name →
    endsWithName key name = false
  instance_ : m.incrementalIndicators.get? name = none
  cacheTtl : m.dependencyManager.indicatorCacheTtl.get? name = none
  uncached : Uncached m name
  known : m.dependencyManager.indicatorFuncs.get? name = none →
    ∀ other, ¬ m.dependencyManager.DependsOn name other ∧
      ¬ m.dependencyManager.DependsOn other name

/-- The two maps of edges are inverse, functions and parameters go together, and a result
stands under the key made from it. -/
structure Consistent (m : UnifiedIndicatorManager F P C) : Prop where
  graph : m.dependencyManager.Inverse
  paired : ∀ name, (m.dependencyManager.indicatorParams.get? name).isSome =
    (m.dependencyManager.indicatorFuncs.get? name).isSome
  keys : ∀ key result, m.results.get? key = some result →
    key = resultKey result.symbol result.timeframe result.name

theorem endsWithName_resultKey (symbol timeframe name : String) :
    endsWithName (resultKey symbol timeframe name) name = true := by
  unfold endsWithName resultKey
  rw [List.isSuffixOf_iff_suffix]
  refine ⟨(symbol ++ "_" ++ timeframe).toList, ?_⟩
  rw [← String.toList_append, ← String.append_assoc]

/-- The part of the consistency that is about the dependency manager. -/
structure Paired (m : DependencyManager F P) : Prop where
  graph : m.Inverse
  paired : ∀ name, (m.indicatorParams.get? name).isSome = (m.indicatorFuncs.get? name).isSome

theorem Paired.addIndicator {m : DependencyManager F P} (h : Paired m) (name : String) (func : F)
    (params : P) (dependencies : List String) :
    Paired (m.addIndicator name func params dependencies) := by
  obtain ⟨hparams, hfuncs, -⟩ := m.addIndicator_tables name func params dependencies
  refine ⟨h.graph.addIndicator name func params dependencies, ?_⟩
  intro other
  rw [hparams, hfuncs, Dict.get?_set, Dict.get?_set]
  split_ifs
  · rfl
  · exact h.paired other

variable {m : UnifiedIndicatorManager F P C}

theorem registerIndicators_consistent [DecidableEq P] [DecidableEq C] (env : Modules F P C)
    (h : Consistent m) {registry : Manager F P C} (hstart : Paired registry.dependencyManager) :
    Consistent { m with toManager := (registerIndicators env registry).1 } := by
  have hkept : Paired (registerIndicators env registry).1.dependencyManager :=
    registerIndicators_keeps env
      (fun _ name func params dependencies h => h.addIndicator name func params dependencies)
      (fun _ ttl h => ⟨h.graph.withTtl ttl, h.paired⟩) hstart
  exact ⟨hkept.graph, hkept.paired, h.keys⟩

theorem storeResult_keys {results : Dict String IndicatorResult}
    (h : ∀ key result, results.get? key = some result →
      key = resultKey result.symbol result.timeframe result.name)
    (symbol timeframe : String) (item : String × Option Result) :
    ∀ key result, (storeResult symbol timeframe results item).get? key = some result →
      key = resultKey result.symbol result.timeframe result.name := by
  intro key result hget
  unfold storeResult at hget
  split at hget
  · exact h key result hget
  · dsimp only at hget
    rw [Dict.get?_set, Dict.get?_pop] at hget
    split_ifs at hget with hkey
    · cases hget
      exact hkey
    · exact h key result hget

theorem storeResults_consistent (h : Consistent m) (symbol timeframe : String)
    (values : List (String × Option Result)) :
    Consistent (storeResults m symbol timeframe values) := by
  refine ⟨h.graph, h.paired, ?_⟩
  have hfold : ∀ key result, (values.foldl (storeResult symbol timeframe) m.results).get? key =
      some result → key = resultKey result.symbol result.timeframe result.name := by
    refine List.foldlRecOn (motive := fun results : Dict String IndicatorResult =>
      ∀ key result, results.get? key = some result →
        key = resultKey result.symbol result.timeframe result.name) _ _ h.keys ?_
    intro results hresults item _
    exact storeResult_keys hresults symbol timeframe item
  intro key result hget
  apply hfold key result
  rw [← Dict.mem_items_iff_get?] at hget ⊢
  exact List.mem_of_mem_drop hget

/-- Where the removal leaves parameters there were none. -/
theorem Consistent.params_removed (h : Consistent m) (name other : String) :
    (m.dependencyManager.removeIndicator name).2.indicatorParams.get? other =
      if other = name then none else m.dependencyManager.indicatorParams.get? other := by
  obtain ⟨-, hunknown, hknown, -⟩ := m.dependencyManager.removeIndicator_tables name other
  by_cases hfunc : m.dependencyManager.indicatorFuncs.get? name = none
  · rw [hunknown hfunc]
    split_ifs with hother
    · have hpaired := h.paired name
      rw [hfunc, Option.isSome_none, Option.isSome_eq_false_iff, Option.isNone_iff_eq_none]
        at hpaired
      rw [hother]
      exact hpaired
    · rfl
  · exact hknown hfunc

variable {name : String}

theorem removeIndicator_of_registered (h : Registered m name) : (removeIndicator m name).1 =
      { m with
        config := m.config.eraseP fun config => config.name = name
        dependencyManager := (m.dependencyManager.removeIndicator name).2
        indicatorFuncs := m.indicatorFuncs.pop name
        results := m.results.pick fun key => !endsWithName key name } := by
  obtain ⟨config, hconfig, hname⟩ := h
  unfold removeIndicator Manager.removeIndicator
  rw [if_pos (List.any_eq_true.mpr ⟨config, hconfig, decide_eq_true hname⟩)]

theorem removeIndicator_of_not_registered
    (h : ¬ Registered m name) : removeIndicator m name = (m, false) := by
  unfold removeIndicator Manager.removeIndicator
  rw [if_neg]
  intro hany
  obtain ⟨config, hconfig, hname⟩ := List.any_eq_true.mp hany
  exact h ⟨config, hconfig, of_decide_eq_true hname⟩

theorem removeIndicator_consistent (h : Consistent m)
    (name : String) : Consistent (removeIndicator m name).1 := by
  by_cases hregistered : Registered m name
  · rw [removeIndicator_of_registered hregistered]
    refine ⟨h.graph.removeIndicator name, ?_, ?_⟩
    · intro other
      dsimp only
      rw [h.params_removed, (m.dependencyManager.removeIndicator_tables name other).1]
      split_ifs
      · rfl
      · exact h.paired other
    · intro key result hget
      dsimp only at hget
      rw [Dict.get?_pick] at hget
      split_ifs at hget
      exact h.keys key result hget
  · rw [removeIndicator_of_not_registered hregistered]
    exact h

theorem start_consistent (resultsMax : ℕ) :
    Consistent ({ resultsMax := resultsMax } : UnifiedIndicatorManager F P C) := by
  refine ⟨DependencyManager.empty_inverse Dict.empty, fun _ => rfl, ?_⟩
  intro key result hget
  cases hget

theorem perform_consistent [DecidableEq P] [DecidableEq C] (env : Modules F P C)
    (h : Consistent m) (act : Act F P C) : Consistent (perform env m act) := by
  cases act with
  | add config => exact registerIndicators_consistent env h ⟨h.graph, h.paired⟩
  | update configs => exact registerIndicators_consistent env h ⟨h.graph, h.paired⟩
  | remove name => exact removeIndicator_consistent h name
  | reinitialize configs =>
    exact registerIndicators_consistent env h
      ⟨DependencyManager.empty_inverse _, fun _ => rfl⟩
  | storeResults symbol timeframe values => exact storeResults_consistent h symbol timeframe values
  | compute cache executor instances => exact ⟨h.graph, h.paired, h.keys⟩

theorem reached_consistent [DecidableEq P] [DecidableEq C] (env : Modules F P C) (resultsMax : ℕ)
    (acts : List (Act F P C)) : Consistent (reached env resultsMax acts) := by
  refine List.foldlRecOn (motive := Consistent) _ _ (start_consistent resultsMax) ?_
  intro m h act _
  exact perform_consistent env h act

theorem Removed.separate (hregistered : Registered m name)
    (h : Removed m name) : Separate m name := by
  obtain ⟨hclean, hothers⟩ := h
  rw [removeIndicator_of_registered hregistered] at hclean hothers
  obtain ⟨-, hunknown, -, httl⟩ := m.dependencyManager.removeIndicator_tables name name
  refine ⟨?_, hclean.instance_, ?_, ⟨hclean.uncached.cache, hclean.uncached.executor⟩, ?_⟩
  · intro key result hget hother
    have hkept := (hothers.results key result hother).mpr hget
    dsimp only at hkept
    rw [Dict.get?_pick] at hkept
    cases hends : endsWithName key name with
    | false => rfl
    | true =>
      rw [hends] at hkept
      cases hkept
  · rw [← httl]
    exact hclean.cacheTtl
  · intro hfunc other
    have hedges := hclean.edges other
    dsimp only at hedges
    rw [hunknown hfunc] at hedges
    exact hedges

/-- The removal takes the edges at the indicator, whether its function is known or not. -/
theorem Separate.edges (hconsistent : Consistent m) (h : Separate m name) (x y : String) :
    (m.dependencyManager.removeIndicator name).2.DependsOn x y ↔
      m.dependencyManager.DependsOn x y ∧ x ≠ name ∧ y ≠ name := by
  refine hconsistent.graph.depends_removeIndicator ?_ x y
  cases hknown : m.dependencyManager.indicatorFuncs.contains name with
  | true => exact .inl hknown
  | false =>
    have hfunc := Option.isNone_iff_eq_none.mp (Option.isSome_eq_false_iff.mp hknown)
    refine .inr fun a b hedge => ⟨?_, ?_⟩
    · rintro rfl
      exact (h.known hfunc b).1 hedge
    · rintro rfl
      exact (h.known hfunc a).2 hedge

theorem Separate.clean (hconsistent : Consistent m)
    (hregistered : Registered m name) (h : Separate m name) :
    Clean (removeIndicator m name).1 name := by
  have htables := m.dependencyManager.removeIndicator_tables name
  have hedges := h.edges hconsistent
  rw [removeIndicator_of_registered hregistered]
  refine ⟨?_, ?_, ?_, ?_, ?_, h.instance_, ?_, ⟨h.uncached.cache, h.uncached.executor⟩⟩
  · intro key result hget hname
    dsimp only at hget
    rw [Dict.get?_pick] at hget
    split_ifs at hget with hends
    rw [hconsistent.keys key result hget, hname, endsWithName_resultKey] at hends
    cases hends
  · exact (Dict.get?_pop _ _ _).trans (if_pos rfl)
  · exact (htables name).1.trans (if_pos rfl)
  · exact (hconsistent.params_removed name name).trans (if_pos rfl)
  · intro other
    constructor
    · intro hedge
      exact ((hedges name other).mp hedge).2.1 rfl
    · intro hedge
      exact ((hedges other name).mp hedge).2.2 rfl
  · dsimp only
    rw [(htables name).2.2.2]
    exact h.cacheTtl

theorem Separate.othersKept (hconsistent : Consistent m)
    (hregistered : Registered m name) (h : Separate m name) :
    OthersKept m (removeIndicator m name).1 name := by
  have htables := m.dependencyManager.removeIndicator_tables name
  rw [removeIndicator_of_registered hregistered]
  refine ⟨?_, ?_, ?_, ?_, ?_, fun _ _ => rfl, ?_⟩
  · intro key result hother
    dsimp only
    rw [Dict.get?_pick]
    constructor
    · intro hget
      split_ifs at hget
      exact hget
    · intro hget
      rw [h.keys key result hget hother, Bool.not_false, if_pos rfl]
      exact hget
  · intro other hother
    exact (Dict.get?_pop _ _ _).trans (if_neg hother)
  · intro other hother
    exact (htables other).1.trans (if_neg hother)
  · intro other hother
    exact (hconsistent.params_removed name other).trans (if_neg hother)
  · intro x y hx hy
    exact (h.edges hconsistent x y).trans ⟨And.left, fun hedge => ⟨hedge, hx, hy⟩⟩
  · intro other _
    dsimp only
    rw [(htables name).2.2.2]

theorem Separate.removed (hconsistent : Consistent m)
    (hregistered : Registered m name) (h : Separate m name) : Removed m name where
  clean := h.clean hconsistent hregistered
  others := h.othersKept hconsistent hregistered

/-- In every state of the registry a registered indicator is removed with all its own and
nothing else exactly when it is separate. -/
theorem removed_iff_separate [DecidableEq P] [DecidableEq C] (env : Modules F P C)
    (resultsMax : ℕ) (acts : List (Act F P C)) {name : String}
    (hregistered : Registered (reached env resultsMax acts) name) :
    Removed (reached env resultsMax acts) name ↔ Separate (reached env resultsMax acts) name := by
  constructor
  · intro h
    exact h.separate hregistered
  · intro h
    exact h.removed (reached_consistent env resultsMax acts) hregistered

/-- Every function is found and none is incremental. -/
def plainModules : Modules ℕ ℕ ℕ where
  func := fun _ => some 0
  incrementalClass := fun _ => none
  constructs := fun _ _ => true

/-- Two indicators, one of which has a name that ends with `_rsi`, and a result of it. -/
def twoIndicators : List (Act ℕ ℕ ℕ) :=
  [.add { ref := 1, name := "rsi", funcPath := "core.momentum.rsi", params := 14 },
    .add
      { ref := 2, name := "smooth_rsi", funcPath := "core.momentum.smooth", params := 3,
        dependencies := ["rsi"] },
    .storeResults "XAUUSD" "M5" [("smooth_rsi", some [("value", .number 40)])]]

theorem registered_rsi : Registered (reached plainModules 100 twoIndicators) "rsi" := by
  have hany : ((reached plainModules 100 twoIndicators).config.any fun config =>
      config.name = "rsi") = true := by decide +kernel
  obtain ⟨config, hconfig, hname⟩ := List.any_eq_true.mp hany
  exact ⟨config, hconfig, of_decide_eq_true hname⟩

theorem removed_iff_separate_rsi :
    Removed (reached plainModules 100 twoIndicators) "rsi" ↔
      Separate (reached plainModules 100 twoIndicators) "rsi" :=
  removed_iff_separate plainModules 100 twoIndicators registered_rsi

/-- With `rsi` goes the result of `smooth_rsi`. -/
theorem not_removed :
    ¬ ∀ (acts : List (Act ℕ ℕ ℕ)) (name : String),
      Registered (reached plainModules 100 acts) name →
        Removed (reached plainModules 100 acts) name := by
  intro hall
  have hremoved := hall twoIndicators "rsi" registered_rsi
  have hkept := (hremoved.others.results "XAUUSD_M5_smooth_rsi"
    ⟨"smooth_rsi", [("value", .number 40)], "XAUUSD", "M5"⟩ (by decide)).mpr (by decide +kernel)
  have hgone : (removeIndicator (reached plainModules 100 twoIndicators) "rsi").1.results.get?
      "XAUUSD_M5_smooth_rsi" = none := by decide +kernel
  rw [hgone] at hkept
  cases hkept

end MT5Services.IndicatorRemoval
