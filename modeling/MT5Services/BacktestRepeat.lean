import MT5Services.BacktestEngine

/-!
A second run on the same engine. The filters go on counting where the first run stopped,
so the two results differ as soon as one bar is evaluated. When no bar is, a run leaves
the engine as its preparation made it, and a second preparation changes nothing.
-/
namespace MT5Services.BacktestRepeat

open BacktestData BacktestDecisions BacktestEngine BacktestIntrabar ExitRules IntrabarSynthesis
open Portfolio Runs TradeSizing

variable {V : Type*}

/-- A second run gives the result of the first one: the trades, the equity curve, the
evaluations, the filter statistics and the execution summary. -/
def Repeats (e : Engine V) (feed : Feed) : Prop :=
  ∀ result kept, runEngine e feed (constructed e) = some (result, kept) →
    ∃ keptAgain, runEngine e feed kept = some (result, keptAgain)

/-- No test bar has a snapshot with a regime, or there is no strategy to run. -/
def Idle (e : Engine V) (feed : Feed) : Prop :=
  e.targetStrategies = [] ∨
    ∀ input ∈ barInputs e feed (prepare e feed (constructed e)), regimeOf e input = none

/-- Loading the data again changes nothing. -/
theorem prepare_prepare (e : Engine V) (feed : Feed) (kept : Kept V) :
    prepare e feed (prepare e feed kept) = prepare e feed kept := by
  unfold prepare preloadChildren keepChildren preloadHtf keepHigher
  split_ifs <;> simp_all

/-- The regimes of a run do not depend on what the engine keeps. -/
theorem regimes_barInputs (e : Engine V) (feed : Feed) (prepared other : Kept V) :
    (barInputs e feed prepared).map (regimeOf e) = (barInputs e feed other).map (regimeOf e) := by
  simp only [barInputs, inputsOf, List.mapIdx_eq_zipIdx_map, List.map_map]
  rfl

section Counting

variable (e : Engine V) {s t : State V}

theorem noteOutcomes_filterStats (barIndex : ℕ) (trades : List TradeRecord) (s : State V) :
    (trades.foldl (noteOutcome e barIndex) s).filterStats = s.filterStats :=
  foldl_frame (noteOutcome e barIndex) (fun s => s.filterStats) trades (fun _ _ _ => rfl) s

variable {input : BarInput}

theorem openBar_filterStats (h : openBar e input s = some t) : t.filterStats = s.filterStats := by
  obtain ⟨atr, -, hexits⟩ := Option.bind_eq_some_iff.mp h
  obtain ⟨exited, -, rfl⟩ := Option.map_eq_some_iff.mp hexits
  exact noteOutcomes_filterStats e input.barIndex _ _

theorem fillPendingEntries_filterStats
    (h : fillPendingEntries e input s = some t) : t.filterStats = s.filterStats := by
  unfold fillPendingEntries at h
  split at h
  · cases Option.some.inj h
    rfl
  · split at h
    · obtain ⟨desk, -, rfl⟩ := Option.map_eq_some_iff.mp h
      rfl
    · cases Option.some.inj h
      rfl

variable {regime : RegimeType}

theorem replayChildren_filterStats
    (h : replayChildren e input regime s = some t) : t.filterStats = s.filterStats := by
  unfold replayChildren at h
  split at h
  · obtain ⟨atr, -, hloop⟩ := Option.bind_eq_some_iff.mp h
    obtain ⟨loop, -, rfl⟩ := Option.map_eq_some_iff.mp hloop
    rfl
  · cases Option.some.inj h
    rfl

theorem coordinate_filterStats (input : BarInput) (decision : SignalDecision V) (s : State V) :
    (coordinate e input decision s).2.filterStats = s.filterStats := by
  unfold coordinate
  split
  · rfl
  · rfl

theorem takeDecision_filterStats
    {decision : SignalDecision V} (h : takeDecision e input regime s decision = some t) :
    t.filterStats = s.filterStats := by
  unfold takeDecision at h
  dsimp only at h
  split at h
  · cases Option.some.inj h
    exact coordinate_filterStats e input decision _
  · obtain ⟨desk, -, rfl⟩ := Option.map_eq_some_iff.mp h
    exact coordinate_filterStats e input decision _

theorem takeDecisions_filterStats (decisions : List (SignalDecision V))
    (h : decisions.foldlM (takeDecision e input regime) s = some t) :
    t.filterStats = s.filterStats := by
  induction decisions generalizing s with
  | nil =>
    cases Option.some.inj h
    rfl
  | cons decision rest ih =>
    rw [List.foldlM_cons] at h
    obtain ⟨middle, hmiddle, hrest⟩ := Option.bind_eq_some_iff.mp h
    rw [ih hrest, takeDecision_filterStats e hmiddle]

theorem confirmBar_filterStats
    (h : confirmBar e input regime s = some t) : t.filterStats = s.filterStats := by
  obtain ⟨taken, htaken, rfl⟩ := Option.map_eq_some_iff.mp h
  rw [← takeDecisions_filterStats e _ htaken]
  unfold sampleEquity
  split
  · rfl
  · rfl

theorem shouldEvaluate_total (stats : BacktestFilterStats) (barTime : ℤ) (indicators : Snapshot) :
    (shouldEvaluate e stats barTime indicators).2.totalBarsEvaluated =
      stats.totalBarsEvaluated + 1 := by
  unfold shouldEvaluate
  dsimp only
  split
  · rfl
  · rfl

theorem evaluateBar_total (h : evaluateBar e input regime s = some t) :
    t.filterStats.totalBarsEvaluated = s.filterStats.totalBarsEvaluated + 1 := by
  unfold evaluateBar at h
  dsimp only at h
  split at h
  · cases Option.some.inj h
    exact shouldEvaluate_total e s.filterStats input.bar.time input.indicators
  · obtain ⟨replayed, hreplay, hconfirm⟩ := Option.bind_eq_some_iff.mp h
    rw [confirmBar_filterStats e hconfirm, replayChildren_filterStats e hreplay]
    exact shouldEvaluate_total e s.filterStats input.bar.time input.indicators

/-- The filters count the bars whose regime is known. -/
theorem step_total (h : step e s input = some t) : t.filterStats.totalBarsEvaluated =
      s.filterStats.totalBarsEvaluated + (regimeOf e input).toList.length := by
  obtain ⟨opened, hopen, hrest⟩ := Option.bind_eq_some_iff.mp h
  obtain ⟨filled, hfill, hend⟩ := Option.bind_eq_some_iff.mp hrest
  have hsame : filled.filterStats = s.filterStats := by
    rw [fillPendingEntries_filterStats e hfill, openBar_filterStats e hopen]
  cases hregime : regimeOf e input with
  | none =>
    rw [hregime] at hend
    cases Option.some.inj hend
    exact congrArg BacktestFilterStats.totalBarsEvaluated hsame
  | some regime =>
    rw [hregime] at hend
    rw [evaluateBar_total e hend]
    exact congrArg (fun stats => BacktestFilterStats.totalBarsEvaluated stats + 1) hsame

theorem run_total (inputs : List BarInput) (h : run (step e) s inputs = some t) :
    t.filterStats.totalBarsEvaluated = s.filterStats.totalBarsEvaluated +
      (inputs.filterMap (regimeOf e)).length := by
  induction inputs generalizing s with
  | nil =>
    cases Option.some.inj h
    rfl
  | cons input rest ih =>
    obtain ⟨middle, hmiddle, hrest⟩ := run_cons h
    rw [ih hrest, step_total e hmiddle]
    cases hregime : regimeOf e input with
    | none =>
      rw [List.filterMap_cons_none hregime]
      rfl
    | some regime =>
      rw [List.filterMap_cons_some hregime, Option.toList_some, List.length_singleton,
        List.length_cons]
      omega

end Counting

section Idling

variable (e : Engine V) {s t : State V}

/-- What the next run gets. -/
def keptPart (s : State V) : CircuitBreaker × List (BacktestPendingGroup V) ×
    BacktestFilterStats × Option (IntrabarContext V) × Dict String Snapshot :=
  (s.breaker, s.pendingGroups, s.filterStats, s.intrabar, s.htfIndicatorData)

variable {input : BarInput}

/-- Nothing is held before the exits of a bar when nothing was held after the last one. -/
theorem portfolioAtOpen_flat {atr : ℚ} {portfolio : Tracker}
    (hflat : portfolio.openPositions = []) :
    (portfolioAtOpen e input atr portfolio).openPositions = [] := by
  have hobserve : (observeBar e.settings portfolio (toBar input.bar)).openPositions =
      portfolio.openPositions := (sameCash_ensureDayStartEquity _ _ _).positions
  have hatr := (sameCash_updateAtrReference (applyOvernightSwap e.settings
    (observeBar e.settings portfolio (toBar input.bar)) (toBar input.bar)) atr).positions
  have hswap : applyOvernightSwap e.settings (observeBar e.settings portfolio (toBar input.bar))
      (toBar input.bar) = observeBar e.settings portfolio (toBar input.bar) := by
    rw [applyOvernightSwap, if_pos (Or.inr (hobserve.trans hflat))]
  rw [portfolioAtOpen, hatr, hswap]
  exact hobserve.trans hflat

/-- Without positions there is nothing to close. -/
theorem portfolioExits_flat {regime : Option RegimeType} {atr : ℚ}
    {directions : Dict String Direction} {portfolio exited : Tracker}
    (hflat : portfolio.openPositions = [])
    (h : portfolioExits e input regime atr directions portfolio = some exited) :
    exited.openPositions = [] ∧ exited.closedTrades = portfolio.closedTrades := by
  rw [portfolioExits, checkExits, if_neg (by simp [hflat]), if_neg (by simp [hflat]), hflat] at h
  cases Option.some.inj h
  exact ⟨rfl, rfl⟩

theorem openBar_idle (hflat : s.portfolio.openPositions = []) (h : openBar e input s = some t) :
    t.portfolio.openPositions = [] ∧ keptPart t = keptPart s := by
  obtain ⟨atr, -, hexits⟩ := Option.bind_eq_some_iff.mp h
  obtain ⟨exited, hexited, rfl⟩ := Option.map_eq_some_iff.mp hexits
  obtain ⟨hexitedFlat, hclosed⟩ :=
    portfolioExits_flat e (portfolioAtOpen_flat e hflat) hexited
  have hnone : exited.closedTrades.drop
      (portfolioAtOpen e input atr s.portfolio).closedTrades.length = [] := by
    rw [hclosed, List.drop_length]
  rw [hnone]
  exact ⟨hexitedFlat, rfl⟩

/-- A bar without a regime leaves the engine alone. -/
theorem step_idle (hregime : regimeOf e input = none)
    (hflat : s.portfolio.openPositions = []) (h : step e s input = some t) :
    t.portfolio.openPositions = [] ∧ keptPart t = keptPart s := by
  obtain ⟨opened, hopen, hrest⟩ := Option.bind_eq_some_iff.mp h
  rw [fillPendingEntries, hregime] at hrest
  cases Option.some.inj hrest
  have hidle : opened.portfolio.openPositions = [] ∧ keptPart opened = keptPart s :=
    openBar_idle e hflat hopen
  exact hidle

theorem run_idle (inputs : List BarInput) (hregimes : ∀ input ∈ inputs, regimeOf e input = none)
    (hflat : s.portfolio.openPositions = []) (h : run (step e) s inputs = some t) :
    keptPart t = keptPart s := by
  induction inputs generalizing s with
  | nil =>
    cases Option.some.inj h
    rfl
  | cons input rest ih =>
    obtain ⟨middle, hmiddle, hrest⟩ := run_cons h
    obtain ⟨hmiddleFlat, hkept⟩ := step_idle e (hregimes input List.mem_cons_self) hflat hmiddle
    rw [← hkept]
    exact ih (fun other hother => hregimes other (List.mem_cons_of_mem input hother)) hmiddleFlat
      hrest

end Idling

/-- An idle run leaves the engine as it was prepared. -/
theorem keptOf_idle (e : Engine V) (feed : Feed) {prepared : Kept V} {s : State V}
    (hregimes : ∀ input ∈ barInputs e feed prepared, regimeOf e input = none)
    (h : runBars e feed prepared = some s) : keptOf prepared s = prepared := by
  unfold runBars runLoaded at h
  split at h
  · cases h
  · obtain ⟨t, ht, rfl⟩ := Option.map_eq_some_iff.mp h
    have hkept := run_idle e (s := resetRunState e prepared) _ hregimes rfl ht
    simp only [keptPart, Prod.mk.injEq] at hkept
    obtain ⟨hbreaker, hgroups, hstats, hintrabar, hhtf⟩ := hkept
    change Kept.mk t.breaker t.pendingGroups t.filterStats t.intrabar t.htfIndicatorData
      prepared.htfTimeseries = prepared
    rw [hbreaker, hgroups, hstats, hintrabar, hhtf]
    rfl

/-- The bars a run has counted. -/
theorem runBars_total (e : Engine V) (feed : Feed) {prepared : Kept V} {s : State V}
    (h : runBars e feed prepared = some s) :
    s.filterStats.totalBarsEvaluated = prepared.filterStats.totalBarsEvaluated +
      ((barInputs e feed prepared).filterMap (regimeOf e)).length := by
  unfold runBars runLoaded at h
  split at h
  · cases h
  · obtain ⟨t, ht, rfl⟩ := Option.map_eq_some_iff.mp h
    exact run_total e _ ht

theorem prepare_filterStats (e : Engine V) (feed : Feed) (kept : Kept V) :
    (prepare e feed kept).filterStats = kept.filterStats := by
  unfold prepare preloadChildren keepChildren preloadHtf keepHigher
  split_ifs <;> rfl

variable {e : Engine V} {feed : Feed}

theorem runEngine_early (hearly : ReturnsEarly e feed) (kept : Kept V) : runEngine e feed kept =
      some ({ executionSummary := executionSummary e (resetRunState e kept) }, kept) :=
  if_pos hearly

theorem runEngine_late (hlate : ¬ReturnsEarly e feed) (kept : Kept V) : runEngine e feed kept =
      (runBars e feed (prepare e feed kept)).map fun s =>
        (resultOf e s, keptOf (prepare e feed kept) s) :=
  if_neg hlate

theorem idle_of_returnsEarly (hearly : ReturnsEarly e feed) : Idle e feed := by
  rcases hearly with hnone | hempty
  · exact Or.inl hnone
  · refine Or.inr fun input hinput => ?_
    rw [barInputs, inputsOf, hempty] at hinput
    exact absurd hinput List.not_mem_nil

/-- Equal results have counted the same bars, though the second run began with the count of
the first. -/
theorem idle_of_repeats {s again : State V}
    (hagain : runBars e feed (prepare e feed (keptOf (prepare e feed (constructed e)) s)) =
      some again) (hresult : resultOf e again = resultOf e s) : Idle e feed := by
  have htotal : again.filterStats.totalBarsEvaluated = s.filterStats.totalBarsEvaluated :=
    congrArg FilterReport.totalBarsEvaluated
      (Option.some.inj (congrArg BacktestResult.filterStats hresult))
  have hsecond := runBars_total e feed hagain
  have hbefore : (prepare e feed (keptOf (prepare e feed (constructed e)) s)).filterStats =
      s.filterStats := prepare_filterStats e feed _
  rw [hbefore, htotal] at hsecond
  have hnone : ((barInputs e feed (prepare e feed
      (keptOf (prepare e feed (constructed e)) s))).map (regimeOf e)).filterMap id = [] := by
    rw [List.filterMap_map, Function.id_comp]
    exact List.eq_nil_of_length_eq_zero (by omega)
  rw [regimes_barInputs e feed _ (prepare e feed (constructed e))] at hnone
  refine Or.inr fun input hinput => ?_
  exact List.filterMap_eq_nil_iff.mp hnone _ (List.mem_map_of_mem hinput)

/-- A run that returns is repeated by the next one exactly when no bar was evaluated. -/
theorem repeats_iff (e : Engine V) (feed : Feed)
    (hruns : (runEngine e feed (constructed e)).isSome) : Repeats e feed ↔ Idle e feed := by
  by_cases hearly : ReturnsEarly e feed
  · refine ⟨fun _ => idle_of_returnsEarly hearly, fun _ result kept hrun => ?_⟩
    rw [runEngine_early hearly] at hrun
    obtain ⟨rfl, rfl⟩ := Prod.mk.inj (Option.some.inj hrun)
    exact ⟨constructed e, runEngine_early hearly _⟩
  · obtain ⟨first, hfirst⟩ := Option.isSome_iff_exists.mp hruns
    rw [runEngine_late hearly] at hfirst
    obtain ⟨s, hrun, rfl⟩ := Option.map_eq_some_iff.mp hfirst
    have hbegin : runEngine e feed (constructed e) =
        some (resultOf e s, keptOf (prepare e feed (constructed e)) s) := by
      rw [runEngine_late hearly, hrun, Option.map_some]
    constructor
    · intro hrepeats
      obtain ⟨keptAgain, hsecond⟩ := hrepeats _ _ hbegin
      rw [runEngine_late hearly] at hsecond
      obtain ⟨again, hagain, hpair⟩ := Option.map_eq_some_iff.mp hsecond
      exact idle_of_repeats hagain (Prod.mk.inj hpair).1
    · rintro (hnone | hregimes) result kept hresult
      · exact absurd (Or.inl hnone) hearly
      · rw [hbegin] at hresult
        obtain ⟨rfl, rfl⟩ := Prod.mk.inj (Option.some.inj hresult)
        rw [keptOf_idle e feed hregimes hrun]
        refine ⟨keptOf (prepare e feed (constructed e)) s, ?_⟩
        rw [runEngine_late hearly, prepare_prepare, hrun, Option.map_some]

/-- Hourly bars at one price. -/
def hourBar (hour : ℤ) : Ohlc where
  symbol := "XAUUSD"
  timeframe := "H1"
  time := hour * 3600
  openPrice := 100
  high := 100
  low := 100
  close := 100
  volume := 1

/-- A warmup bar and two test bars. -/
def threeHours : Feed where
  rows timeframe := if timeframe = "H1" then [hourBar 0, hourBar 1, hourBar 2] else []
  sorted timeframe := by
    split
    · decide
    · exact List.Pairwise.nil

def atrSnapshot : Snapshot :=
  Dict.empty.set "atr14" (some (Dict.empty.set "atr" (.number 10)))

/-- One strategy that buys on the last bar with a limit at the price. -/
def limitEngine : Engine Unit where
  config := {
    symbol := "XAUUSD"
    timeframe := "H1"
    startTime := 1800
    endTime := 7200
    warmupBars := 1
    pendingEntryEnabled := true }
  targetStrategies := ["late"]
  requiredIndicators := ["atr14", "adx14", "boll20", "keltner20"]
  capabilities := Dict.empty.set "late" ⟨[.confirmed], ["atr14"]⟩
  pipeline _ _ _ := atrSnapshot
  detect _ := some .trending
  detectSoft _ := none
  analyzeStructure _ _ _ := none
  evaluate _ request :=
    if request.barTime = 7200 then
      some {
        strategy := request.strategy
        direction := some .buy
        confidence := 1
        metadata := () }
    else none
  currentSessions _ := []
  deriveEntryGroup _ _ _ := some ⟨[⟨"limit", .limit, 99, 100⟩]⟩
  strategyCategory _ := ""

/-- The same engine where no regime is found. -/
def blindEngine : Engine Unit := { limitEngine with detect := fun _ => none }

theorem blindEngine_repeats : Repeats blindEngine threeHours := by
  apply (repeats_iff blindEngine threeHours (by decide +kernel)).mpr
  refine Or.inr fun input _ => ?_
  rw [regimeOf]
  split
  · rfl
  · rfl

/-- The group of the last bar is left pending and fills on the first bar of the next run. -/
theorem limitEngine_not_repeats : ¬Repeats limitEngine threeHours := by
  intro hrepeats
  have hruns : (runEngine limitEngine threeHours (constructed limitEngine)).map
      (fun first => (first.1.trades.length, (runEngine limitEngine threeHours first.2).map
        fun second => second.1.trades.length)) = some (0, some 1) := by
    decide +kernel
  obtain ⟨⟨result, kept⟩, hfirst, hlengths⟩ := Option.map_eq_some_iff.mp hruns
  obtain ⟨keptAgain, hsecond⟩ := hrepeats result kept hfirst
  rw [hsecond] at hlengths
  obtain ⟨hnone, hone⟩ := Prod.mk.inj hlengths
  have hsame : result.trades.length = 1 := Option.some.inj hone
  exact absurd (hsame.symm.trans hnone) Nat.one_ne_zero

end MT5Services.BacktestRepeat
