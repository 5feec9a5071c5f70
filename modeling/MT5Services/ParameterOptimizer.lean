import MT5Services.BacktestRepeat
import MT5Services.CachedRuns
import Mathlib.Data.List.Sort

/-!
The parameter optimizer. It makes the combinations of the strategy and the position
parameters, loads the bars once, asks a first engine for the indicators of all bars, and
runs one engine for each combination over the cached bars. A result keeps the strategy
parameters of its configuration only. The factory of the signal modules, the constructor of
the engine and the random choices are functions of their arguments.
-/
namespace MT5Services.ParameterOptimizer

open BacktestData BacktestDecisions BacktestEngine BacktestRepeat CachedRuns IntrabarSynthesis

variable {V P M : Type*}

/-! The search space. -/

structure ParameterSpace (P : Type*) where
  strategyParams : Dict String (List P)
  positionParams : Dict String (List P)
  searchMode : String := "grid"
  maxCombinations : ℤ := 500

/-- `dict(zip(keys, combo))`. -/
def zipDict (keys : List String) (combo : List P) : Dict String P :=
  (keys.zip combo).foldl (fun d p => d.set p.1 p.2) Dict.empty

def mergedParams (space : ParameterSpace P) : Dict String (List P) :=
  space.positionParams.items.foldl (fun merged p => merged.set p.1 p.2) space.strategyParams

/-- `itertools.product`: the last value changes first. -/
def product : List (List P) → List (List P)
  | [] => [[]]
  | values :: rest => values.flatMap fun value => (product rest).map (value :: ·)

/-- `list[:stop]`; a negative stop counts from the end. -/
def sliceTo {A : Type*} (stop : ℤ) (list : List A) : List A :=
  if 0 ≤ stop then list.take stop.toNat else list.take (list.length - stop.natAbs)

def gridSearch (space : ParameterSpace P) : List (Dict String P) :=
  let params := mergedParams space
  if params.items = [] then [Dict.empty]
  else
    let combinations := (product params.values).map (zipDict params.keys)
    if space.maxCombinations < combinations.length then sliceTo space.maxCombinations combinations
    else combinations

/-- One value of each list, by the numbers drawn. -/
def sample (values : List (List P)) (drawn : ℕ → ℕ) : List P :=
  values.zipIdx.filterMap fun p => p.1[drawn p.2 % p.1.length]?

/-- `random.choice` of each attempt and parameter is in `choice`. -/
def randomSearch [DecidableEq P] (space : ParameterSpace P) (choice : ℕ → ℕ → ℕ) :
    List (Dict String P) :=
  let params := mergedParams space
  if params.items = [] then [Dict.empty]
  else if ((params.values.map List.length).prod : ℤ) ≤ space.maxCombinations then gridSearch space
  else
    let attempts := (space.maxCombinations * 10).toNat
    let combos := (List.range attempts).foldl
      (fun seen i =>
        if space.maxCombinations ≤ seen.length then seen
        else
          let combo := sample params.values (choice i)
          if combo ∈ seen then seen else seen ++ [combo])
      []
    combos.map (zipDict params.keys)

/-! The configurations. -/

/-- What the optimizer reads and replaces of a configuration. -/
structure RunConfig (P : Type*) where
  timeframe : String
  startTime : ℤ
  endTime : ℤ
  warmupBars : ℕ
  subConfigs : Dict String (Dict String P)
  strategyParams : Dict String P

def positionFields : List (String × String × String) :=
  ["contract_size", "risk_percent", "min_volume", "max_volume", "allow_min_volume_fallback",
  "max_actual_risk_pct", "trailing_atr_multiplier", "breakeven_atr_threshold",
  "end_of_day_close_enabled", "end_of_day_close_hour_utc", "end_of_day_close_minute_utc",
  "regime_tp_trending", "regime_sl_trending", "regime_tp_ranging", "regime_sl_ranging",
  "regime_tp_breakout", "regime_sl_breakout", "regime_tp_uncertain", "regime_sl_uncertain"].map
    fun key => (key, "position", key)

def riskFields : List (String × String × String) :=
  ["max_positions", "commission_per_lot", "slippage_points", "max_volume_per_order",
  "max_volume_per_symbol", "max_volume_per_day", "daily_loss_limit_pct", "max_trades_per_day",
  "max_trades_per_hour", "dynamic_spread_enabled", "spread_base_points", "spread_london_mult",
  "spread_ny_mult", "spread_asia_mult", "spread_volatility_threshold", "spread_volatility_mult",
  "swap_enabled", "swap_long_per_lot", "swap_short_per_lot", "swap_wednesday_triple",
  "swap_charge_hour_utc"].map fun key => (key, "risk", key)

def filtersFields : List (String × String × String) :=
  [("filters_enabled", "filters", "enabled"),
  ("filter_session_enabled", "filters", "session_enabled"),
  ("filter_allowed_sessions", "filters", "allowed_sessions"),
  ("filter_session_transition_enabled", "filters", "session_transition_enabled"),
  ("filter_session_transition_cooldown", "filters", "session_transition_cooldown"),
  ("filter_volatility_enabled", "filters", "volatility_enabled"),
  ("filter_volatility_spike_multiplier", "filters", "volatility_spike_multiplier"),
  ("filter_economic_enabled", "filters", "economic_enabled"),
  ("filter_economic_lookahead_minutes", "filters", "economic_lookahead_minutes"),
  ("filter_economic_lookback_minutes", "filters", "economic_lookback_minutes"),
  ("filter_economic_importance_min", "filters", "economic_importance_min"),
  ("filter_spread_enabled", "filters", "spread_enabled"),
  ("filter_max_spread_points", "filters", "max_spread_points")]

def pendingEntryFields : List (String × String × String) :=
  [("pending_entry_enabled", "pending_entry", "enabled"),
  ("pending_entry_pullback_atr_factor", "pending_entry", "pullback_atr_factor"),
  ("pending_entry_chase_atr_factor", "pending_entry", "chase_atr_factor"),
  ("pending_entry_momentum_atr_factor", "pending_entry", "momentum_atr_factor"),
  ("pending_entry_symmetric_atr_factor", "pending_entry", "symmetric_atr_factor"),
  ("pending_entry_expiry_bars", "pending_entry", "expiry_bars")]

def trailingTpFields : List (String × String × String) :=
  [("trailing_tp_enabled", "trailing_tp", "enabled"),
  ("trailing_tp_activation_atr", "trailing_tp", "activation_atr"),
  ("trailing_tp_trail_atr", "trailing_tp", "trail_atr")]

def circuitBreakerFields : List (String × String × String) :=
  [("circuit_breaker_enabled", "circuit_breaker", "enabled"),
  ("circuit_breaker_max_consecutive_losses", "circuit_breaker", "max_consecutive_losses"),
  ("circuit_breaker_cooldown_bars", "circuit_breaker", "cooldown_bars")]

def monteCarloFields : List (String × String × String) :=
  [("monte_carlo_enabled", "monte_carlo", "enabled"),
  ("monte_carlo_simulations", "monte_carlo", "simulations"),
  ("monte_carlo_confidence_level", "monte_carlo", "confidence_level"),
  ("monte_carlo_seed", "monte_carlo", "seed")]

def confidenceFields : List (String × String × String) :=
  ["min_confidence", "enable_regime_affinity", "enable_performance_tracker", "enable_calibrator",
  "enable_htf_alignment", "htf_alignment_boost", "htf_conflict_penalty", "bars_to_evaluate"].map
    fun key => (key, "confidence", key)

def intrabarFields : List (String × String × String) :=
  [("intrabar_enabled", "intrabar", "enabled"),
  ("intrabar_min_stable_bars", "intrabar", "min_stable_bars"),
  ("intrabar_min_confidence", "intrabar", "min_confidence"),
  ("intrabar_confidence_factor", "intrabar", "confidence_factor"),
  ("intrabar_min_coverage_ratio", "intrabar", "min_coverage_ratio")]

/-- `_FLAT_FIELD_MAP`: the sub-configuration and the field of a flat key. -/
def flatFieldMap : List (String × String × String) :=
  positionFields ++ riskFields ++ filtersFields ++ pendingEntryFields ++ trailingTpFields ++
    circuitBreakerFields ++ monteCarloFields ++ confidenceFields ++ intrabarFields

/-- The engines are made from a configuration, a signal module and the indicators computed
beforehand. -/
structure Optimizer (V P M : Type*) where
  baseConfig : RunConfig P
  paramSpace : ParameterSpace P
  signalModuleFactory : Dict String P → Except Failure M
  newEngine : RunConfig P → M → Option (List Snapshot) → Except Failure (Engine V)
  sortMetric : BacktestResult → ℚ
  choice : ℕ → ℕ → ℕ

def generateCombinations [DecidableEq P] (o : Optimizer V P M) :
    Except Failure (List (Dict String P)) :=
  if o.paramSpace.searchMode = "grid" then .ok (gridSearch o.paramSpace)
  else if o.paramSpace.searchMode = "random" then .ok (randomSearch o.paramSpace o.choice)
  else .error (.valueError ("Unknown search mode: " ++ o.paramSpace.searchMode))

def isPositionParam (o : Optimizer V P M) (key : String) : Bool :=
  o.paramSpace.positionParams.contains key

/-- One position parameter in its sub-configuration; an unknown key is dropped. -/
def overrideField (subConfigs : Dict String (Dict String P)) (param : String × P) :
    Dict String (Dict String P) :=
  match flatFieldMap.lookup param.1 with
  | some (subName, nestedKey) =>
    subConfigs.set subName (((subConfigs.get? subName).getD Dict.empty).set nestedKey param.2)
  | none => subConfigs

/-- The configuration of a combination. -/
def configFor (o : Optimizer V P M) (combination : Dict String P) : RunConfig P :=
  { o.baseConfig with
    strategyParams := combination.pick fun key => !isPositionParam o key
    subConfigs :=
      (combination.pick (isPositionParam o)).items.foldl overrideField o.baseConfig.subConfigs }

/-! The run. -/

/-- The attributes of the class, besides those of every object. -/
def engineClassAttributes : List String :=
    ["__init__", "_to_strategy_capability", "_resolve_strategy_capabilities",
    "strategy_capabilities", "strategy_capability_contract", "strategy_capability",
    "strategy_capability_execution_plan", "record_execution_rejection", "record_blocked_entry",
    "record_entry_acceptance", "execution_summary", "state_edge_overlay_report",
    "entry_meta_overlay_report", "state_edge_overlay", "entry_meta_overlay", "_reset_run_state",
    "run"]

/-- The attributes that the constructor sets. -/
def engineInstanceAttributes : List String :=
    ["_config", "_data_loader", "_signal_module", "_pipeline", "_regime_detector",
    "_performance_tracker", "_htf_cache", "_intrabar_confidence_factor", "_htf_direction_fn",
    "_htf_alignment_boost", "_htf_conflict_penalty", "_strategy_deployments",
    "_state_edge_overlay", "_entry_meta_overlay", "_htf_indicator_data", "_htf_timeseries",
    "_htf_time_indexes", "_precomputed_indicators", "_circuit_breaker", "_pending_entry_enabled",
    "_pending_entry_config", "_pending_groups", "_entry_policy_registry", "_target_strategies",
    "_deployment_filtered_strategies", "_requested_strategies",
    "_unsupported_requested_strategies", "_timeframe_filtered_strategies",
    "_scope_filtered_strategies", "_strategy_sessions", "_entry_meta_session_context_filter",
    "_session_filter", "_strategy_capabilities", "_has_no_eligible_strategies",
    "_required_indicators", "_filter_simulator", "_state_factory", "_bars_to_evaluate",
    "_market_structure_analyzer", "_intrabar_ctx", "_deployment_gate", "_chandelier_config"]

/-- An attribute of an engine is looked up by its name. -/
def getAttribute (name : String) : Except Failure Unit :=
  if name ∈ engineInstanceAttributes ∨ name ∈ engineClassAttributes then .ok ()
  else .error (.attributeError
    ("'BacktestEngine' object has no attribute '" ++ name ++ "'"))

/-- The indicators of all bars, from an engine of the first combination. Its method is to
compute them as the helper of that name does. -/
def precomputed (o : Optimizer V P M) (combinations : List (Dict String P))
    (warmupBars testBars : List Ohlc) : Except Failure (Option (List Snapshot)) :=
  if testBars = [] then .ok none
  else
    (o.signalModuleFactory (combinations.head?.getD Dict.empty)).bind fun tempModule =>
      (o.newEngine o.baseConfig tempModule none).bind fun tempEngine =>
        (getAttribute "_precompute_all_indicators").map fun _ =>
          some (precomputeAllIndicators tempEngine.pipeline tempEngine.deltaConfig
            o.baseConfig.timeframe tempEngine.requiredIndicators o.baseConfig.warmupBars
            (warmupBars ++ testBars))

/-- `param_set` are the strategy parameters of the configuration. -/
structure OptimizedResult (P : Type*) where
  result : BacktestResult
  paramSet : Dict String P

/-- A fresh engine with this configuration, over this loader. -/
def runConfig (o : Optimizer V P M) (loader : DataLoader) (indicators : Option (List Snapshot))
    (config : RunConfig P) : Except Failure (OptimizedResult P) :=
  (o.signalModuleFactory config.strategyParams).bind fun signalModule =>
    (o.newEngine config signalModule indicators).bind fun engine =>
      (runOver engine loader).map fun result => ⟨result, config.strategyParams⟩

/-- `ParameterOptimizer.run`, over the stored bars. -/
def runOptimizer [DecidableEq P] (o : Optimizer V P M) (feed : Feed) :
    Except Failure (List (OptimizedResult P)) :=
  let c := o.baseConfig
  (generateCombinations o).bind fun combinations =>
    let warmupBars := preloadWarmupBars feed c.timeframe c.startTime c.warmupBars
    let testBars := loadAllBars feed c.timeframe c.startTime c.endTime
    (precomputed o combinations warmupBars testBars).bind fun indicators =>
      (combinations.mapM fun combination =>
        runConfig o (cachedDataLoader warmupBars testBars) indicators (configFor o combination)).map
        fun results => results.insertionSort fun a b => o.sortMetric b.result ≤ o.sortMetric a.result

/-- `WalkForwardValidator._run_backtest` with the parameters read from a result. -/
def runWithParams (o : Optimizer V P M) (feed : Feed) (params : Dict String P) :
    Except Failure (OptimizedResult P) :=
  runConfig o (historicalDataLoader feed) none { o.baseConfig with strategyParams := params }

/-! Runs of the optimizer and plain runs. -/

/-- The trades are those of a fresh run with the combination, which the result keeps and
reproduces them with. -/
structure IsPlainRun (o : Optimizer V P M) (feed : Feed) (combination : Dict String P)
    (r : OptimizedResult P) : Prop where
  trades : ∃ plain, runConfig o (historicalDataLoader feed) none (configFor o combination) =
    .ok plain ∧ r.result.trades = plain.result.trades
  combination : r.paramSet = combination
  reproduced : ∃ again, runWithParams o feed r.paramSet = .ok again ∧
    again.result.trades = r.result.trades

def EqualsPlainRuns [DecidableEq P] (o : Optimizer V P M) (feed : Feed) : Prop :=
  ∃ combinations results inOrder, generateCombinations o = .ok combinations ∧
    runOptimizer o feed = .ok results ∧ results.Perm inOrder ∧
    List.Forall₂ (IsPlainRun o feed) combinations inOrder

/-- The test bars of the optimizer. -/
def testBarsOf (o : Optimizer V P M) (feed : Feed) : List Ohlc :=
  loadAllBars feed o.baseConfig.timeframe o.baseConfig.startTime o.baseConfig.endTime

/-! What the runs return. -/

/-- A result has lost the position parameters. -/
theorem paramSet_of_position {o : Optimizer V P M} {loader : DataLoader}
    {indicators : Option (List Snapshot)} {combination : Dict String P} {r : OptimizedResult P}
    (h : runConfig o loader indicators (configFor o combination) = .ok r) {key : String}
    (hposition : isPositionParam o key = true) : r.paramSet.get? key = none := by
  have hparams : r.paramSet = (configFor o combination).strategyParams := by
    unfold runConfig at h
    cases hmodule : o.signalModuleFactory (configFor o combination).strategyParams with
    | error failure =>
      rw [hmodule] at h
      cases h
    | ok signalModule =>
      rw [hmodule, Except.bind] at h
      cases hengine : o.newEngine (configFor o combination) signalModule indicators with
      | error failure =>
        rw [hengine] at h
        cases h
      | ok engine =>
        rw [hengine, Except.bind] at h
        cases hrun : runOver engine loader with
        | error failure =>
          rw [hrun] at h
          cases h
        | ok result =>
          rw [hrun] at h
          cases h
          rfl
  rw [hparams, configFor, Dict.get?_pick, hposition]
  rfl

theorem getAttribute_precompute : getAttribute "_precompute_all_indicators" =
    .error (.attributeError
      "'BacktestEngine' object has no attribute '_precompute_all_indicators'") := by
  have hunknown : ¬("_precompute_all_indicators" ∈ engineInstanceAttributes ∨
      "_precompute_all_indicators" ∈ engineClassAttributes) := by
    decide +kernel
  rw [getAttribute, if_neg hunknown]
  rfl

section Runs

variable [DecidableEq P] {o : Optimizer V P M} {feed : Feed}

/-- With bars to run on the optimizer raises, whatever the collaborators do. -/
theorem runOptimizer_raises (htest : testBarsOf o feed ≠ []) :
    ∃ failure, runOptimizer o feed = .error failure := by
  rw [testBarsOf] at htest
  unfold runOptimizer
  dsimp only
  cases generateCombinations o with
  | error failure => exact ⟨failure, rfl⟩
  | ok combinations =>
    rw [Except.bind, precomputed, if_neg htest, getAttribute_precompute]
    cases o.signalModuleFactory (combinations.head?.getD Dict.empty) with
    | error failure => exact ⟨failure, rfl⟩
    | ok tempModule =>
      dsimp only [Except.bind]
      cases o.newEngine o.baseConfig tempModule none with
      | error failure => exact ⟨failure, rfl⟩
      | ok tempEngine => exact ⟨_, rfl⟩

theorem mapM_ok {A B E : Type*} {Q : B → Prop} {f : A → Except E B} {list : List A}
    (h : ∀ a ∈ list, ∃ b, f a = .ok b ∧ Q b) :
    ∃ results, list.mapM f = .ok results ∧ results.length = list.length ∧ ∀ b ∈ results, Q b := by
  induction list with
  | nil => exact ⟨[], rfl, rfl, fun _ hb => absurd hb List.not_mem_nil⟩
  | cons a rest ih =>
    obtain ⟨b, hb, hgood⟩ := h a List.mem_cons_self
    obtain ⟨results, hresults, hlength, hall⟩ :=
      ih fun other hother => h other (List.mem_cons_of_mem a hother)
    refine ⟨b :: results, ?_, congrArg (· + 1) hlength, List.forall_mem_cons.mpr ⟨hgood, hall⟩⟩
    rw [List.mapM_cons, hb, hresults]
    rfl

/-- Without bars to run on there is one result for each combination, without trades. -/
theorem runOptimizer_of_no_bars {combinations : List (Dict String P)}
    (hcombinations : generateCombinations o = .ok combinations) (htest : testBarsOf o feed = [])
    (hbuilds : ∀ config, ∃ signalModule engine,
      o.signalModuleFactory config.strategyParams = .ok signalModule ∧
        o.newEngine config signalModule none = .ok engine) :
    ∃ results, runOptimizer o feed = .ok results ∧ results.length = combinations.length ∧
      ∀ r ∈ results, r.result.trades = [] := by
  rw [testBarsOf] at htest
  have heach : ∀ combination ∈ combinations, ∃ r, runConfig o (cachedDataLoader
      (preloadWarmupBars feed o.baseConfig.timeframe o.baseConfig.startTime
        o.baseConfig.warmupBars) []) none (configFor o combination) = .ok r ∧
      r.result.trades = [] := by
    intro combination _
    obtain ⟨signalModule, engine, hmodule, hengine⟩ := hbuilds (configFor o combination)
    refine ⟨⟨emptyResult engine, (configFor o combination).strategyParams⟩, ?_, rfl⟩
    unfold runConfig
    rw [hmodule, Except.bind, hengine, Except.bind, runOver_of_no_bars rfl]
    rfl
  obtain ⟨results, hresults, hlength, hall⟩ := mapM_ok heach
  have hperm := List.perm_insertionSort
    (fun a b : OptimizedResult P => o.sortMetric b.result ≤ o.sortMetric a.result) results
  refine ⟨_, ?_, hperm.length_eq.trans hlength, fun r hr => hall r (hperm.mem_iff.mp hr)⟩
  unfold runOptimizer precomputed
  dsimp only
  rw [hcombinations, Except.bind, htest, if_pos rfl, Except.bind, hresults]
  rfl

/-- No run of the optimizer over test bars is a plain run. -/
theorem not_equalsPlainRuns (htest : testBarsOf o feed ≠ []) : ¬EqualsPlainRuns o feed := by
  rintro ⟨combinations, results, inOrder, -, hrun, -, -⟩
  obtain ⟨failure, hfails⟩ := runOptimizer_raises htest
  rw [hrun] at hfails
  cases hfails

end Runs

/-- The search over nothing: one combination without parameters. -/
def plainOptimizer : Optimizer Unit Unit Unit where
  baseConfig := {
    timeframe := "H1"
    startTime := 1800
    endTime := 7200
    warmupBars := 1
    subConfigs := Dict.empty
    strategyParams := Dict.empty }
  paramSpace := {
    strategyParams := Dict.empty
    positionParams := Dict.empty }
  signalModuleFactory _ := .ok ()
  newEngine _ _ indicators := .ok { limitEngine with precomputedIndicators := indicators }
  sortMetric result := result.trades.length
  choice _ _ := 0

theorem randomOptimizer_not_equalsPlainRuns :
    ¬EqualsPlainRuns { plainOptimizer with paramSpace := {
      strategyParams := Dict.empty.set "trend__period" [(), ()]
      positionParams := Dict.empty
      searchMode := "random"
      maxCombinations := 1 } } threeHours := by
  apply not_equalsPlainRuns
  decide +kernel

/-- There are test bars, and the one combination is not run. -/
theorem plainOptimizer_not_equalsPlainRuns :
    testBarsOf plainOptimizer threeHours ≠ [] ∧
      generateCombinations plainOptimizer = .ok [Dict.empty] ∧
      ¬EqualsPlainRuns plainOptimizer threeHours := by
  have htest : testBarsOf plainOptimizer threeHours ≠ [] := by
    decide +kernel
  refine ⟨htest, rfl, ?_⟩
  rintro ⟨combinations, results, inOrder, -, hrun, -, -⟩
  obtain ⟨failure, hfails⟩ := runOptimizer_raises htest
  rw [hrun] at hfails
  cases hfails

end MT5Services.ParameterOptimizer
