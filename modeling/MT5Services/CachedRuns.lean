import MT5Services.BacktestEngine

/-!
A backtest over any data loader. The historical loader reads the stored bars; the cached
one has two lists of bars, which it returns for every timeframe and range, and refuses the
child bars. A run over the historical loader is a run of the engine. Over the cached loader
the higher timeframes are computed from the bars of the main one, and an engine with
intrabar replay raises.
-/
namespace MT5Services.CachedRuns

open BacktestData BacktestDecisions BacktestEngine IntrabarSynthesis

variable {V : Type*}

/-- The exceptions that end a run; `raised` is one of the collaborators'. -/
inductive Failure
  | valueError (text : String)
  | attributeError (text : String)
  | notImplementedError (text : String)
  | raised
  deriving DecidableEq, Repr

structure DataLoader where
  preloadWarmupBars : String → ℤ → ℕ → List Ohlc
  loadAllBars : String → ℤ → ℤ → List Ohlc
  loadChildBars : String → ℤ → ℤ → Except Failure (List Ohlc)

def historicalDataLoader (feed : Feed) : DataLoader where
  preloadWarmupBars := BacktestData.preloadWarmupBars feed
  loadAllBars := BacktestData.loadAllBars feed
  loadChildBars childTf startTime endTime :=
    .ok (BacktestData.loadAllBars feed childTf startTime endTime)

def cachedDataLoader (warmupBars testBars : List Ohlc) : DataLoader where
  preloadWarmupBars _ _ _ := warmupBars
  loadAllBars _ _ _ := testBars
  loadChildBars _ _ _ := .error (.notImplementedError
    ("CachedDataLoader does not support load_child_bars; " ++
      "use CachingDataLoader for intrabar backtests"))

/-- The warmup bars and the test bars of a run. -/
def loadBarsOver (e : Engine V) (loader : DataLoader) : List Ohlc × List Ohlc :=
  let c := e.config
  borrowWarmup c.warmupBars (loader.preloadWarmupBars c.timeframe c.startTime c.warmupBars)
    (loader.loadAllBars c.timeframe c.startTime c.endTime)

def higherBarsOver (e : Engine V) (loader : DataLoader) (timeframe : String) : List Ohlc :=
  loader.preloadWarmupBars timeframe e.config.startTime htfWarmupBars ++
    loader.loadAllBars timeframe e.config.startTime e.config.endTime

def higherOver (e : Engine V) (loader : DataLoader) : List (String × List HtfEntry) :=
  ((htfList e.config.timeframe).map fun tf =>
    (tf, seriesOf e.pipeline tf (higherBarsOver e loader tf))).filter fun p => p.2 ≠ []

def childBarsOver (e : Engine V) (loader : DataLoader) : Except Failure (List Ohlc) :=
  match e.intrabar with
  | none => .ok []
  | some plan => loader.loadChildBars plan.childTf e.config.startTime e.config.endTime

/-- The result of a run that returns early. -/
def emptyResult (e : Engine V) : BacktestResult where
  executionSummary := executionSummary e (resetRunState e (constructed e))

/-- A run of a fresh engine over this loader. -/
def runOver (e : Engine V) (loader : DataLoader) : Except Failure BacktestResult :=
  let loaded := loadBarsOver e loader
  if e.targetStrategies = [] ∨ loaded.2 = [] then .ok (emptyResult e)
  else
    (childBarsOver e loader).bind fun children =>
      let prepared := keepChildren children (keepHigher e (higherOver e loader) (constructed e))
      match runLoaded e loaded children prepared with
      | some s => .ok (resultOf e s)
      | none => .error .raised

theorem loadBarsOver_historical (e : Engine V) (feed : Feed) :
    loadBarsOver e (historicalDataLoader feed) = loadBars e feed := rfl

theorem higherOver_historical (e : Engine V) (feed : Feed) :
    higherOver e (historicalDataLoader feed) = preloadHtfIndicators e.pipeline feed
      e.config.startTime e.config.endTime (htfList e.config.timeframe) := by
  have hbars (timeframe : String) : higherBarsOver e (historicalDataLoader feed) timeframe =
      htfBars feed e.config.startTime e.config.endTime timeframe := by
    rw [higherBarsOver, historicalDataLoader, htfBars]
  rw [higherOver, preloadHtfIndicators]
  simp only [hbars, htfSeries]

theorem childBarsOver_historical (e : Engine V) (feed : Feed) :
    childBarsOver e (historicalDataLoader feed) = .ok (childBars e feed) := by
  unfold childBarsOver childBars
  cases e.intrabar with
  | none => rfl
  | some plan => rfl

/-- Over the stored bars this is the run of the engine. -/
theorem runOver_historical (e : Engine V) (feed : Feed) :
    runOver e (historicalDataLoader feed) =
      match runEngine e feed (constructed e) with
      | some run => .ok run.1
      | none => .error .raised := by
  by_cases hearly : ReturnsEarly e feed
  · have hrun : runEngine e feed (constructed e) = some (emptyResult e, constructed e) :=
      if_pos hearly
    rw [hrun]
    exact if_pos hearly
  · have hrun : runEngine e feed (constructed e) =
        (runBars e feed (prepare e feed (constructed e))).map fun s =>
          (resultOf e s, keptOf (prepare e feed (constructed e)) s) := if_neg hearly
    have hprepared : keepChildren (childBars e feed)
        (keepHigher e (higherOver e (historicalDataLoader feed)) (constructed e)) =
        prepare e feed (constructed e) := by
      rw [higherOver_historical, prepare, preloadChildren, preloadHtf]
    unfold runOver
    dsimp only
    rw [hrun, loadBarsOver_historical, childBarsOver_historical, Except.bind, hprepared, runBars]
    refine (if_neg hearly).trans ?_
    cases runLoaded e (loadBars e feed) (childBars e feed) (prepare e feed (constructed e)) with
    | none => rfl
    | some s => rfl

/-- The cached bars stand in for every higher timeframe. -/
theorem higherBarsOver_cached (e : Engine V) (warmupBars testBars : List Ohlc)
    (timeframe : String) :
    higherBarsOver e (cachedDataLoader warmupBars testBars) timeframe = warmupBars ++ testBars :=
  rfl

/-- With intrabar replay a run over cached bars raises. -/
theorem runOver_cached_intrabar {e : Engine V} {plan : IntrabarPlan} {loader : DataLoader}
    {failure : Failure} (hplan : e.intrabar = some plan)
    (hrefuses : ∀ childTf startTime endTime,
      loader.loadChildBars childTf startTime endTime = .error failure)
    (hruns : e.targetStrategies ≠ []) (hbars : (loadBarsOver e loader).2 ≠ []) :
    runOver e loader = .error failure := by
  unfold runOver
  dsimp only
  rw [if_neg fun h => h.elim hruns hbars, childBarsOver, hplan]
  dsimp only
  rw [hrefuses]
  rfl

/-- Without test bars there are no trades. -/
theorem runOver_of_no_bars {e : Engine V} {loader : DataLoader}
    (hbars : loader.loadAllBars e.config.timeframe e.config.startTime e.config.endTime = []) :
    runOver e loader = .ok (emptyResult e) := by
  have hloaded : (loadBarsOver e loader).2 = [] := by
    unfold loadBarsOver borrowWarmup
    dsimp only
    rw [hbars]
    split
    · exact List.drop_nil
    · rfl
  unfold runOver
  dsimp only
  rw [if_pos (Or.inr hloaded)]

end MT5Services.CachedRuns
