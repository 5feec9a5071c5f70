import MT5Services.BacktestAlike
import MT5Services.BacktestLog

/-!
What a backtest does by a time, on two data sets that have the same bars closed by then.
The snapshots and the windows of a main bar end at it, and its log entries bear its time.
What remains are four places where a run looks further: the entry of a higher timeframe is
found by the open time of its last bar, which may not be closed yet; the spacing of the
equity samples follows from the number of all test bars, and the equity filter reads them;
a test bar is borrowed for the warmup only when there are enough of them; and the end of
the data closes what is open.
-/
namespace MT5Services.BacktestLookahead

open BacktestAlike BacktestData BacktestDecisions BacktestEngine BacktestLog ExitRules
open IntrabarSynthesis Lockstep Portfolio Prefixes Runs TradeSizing

variable {V : Type*}

/-! The property. -/

/-- The bar has closed by the time; it bears its open time. -/
def closedBy (timeframe : String) (T : ℤ) (bar : Ohlc) : Bool :=
  bar.time + timeframeSeconds timeframe ≤ T

/-- The same bars of every timeframe among those closed by the time. -/
def SameUpTo (T : ℤ) (feed other : Feed) : Prop :=
  ∀ timeframe, (feed.rows timeframe).filter (closedBy timeframe T) =
    (other.rows timeframe).filter (closedBy timeframe T)

/-- The engine loads the higher timeframes. -/
def LoadsHigher (e : Engine V) : Prop :=
  e.config.confidence.enableHtfAlignment ∧ e.htfIndicatorData.items = [] ∧
    e.hasHtfDirectionFn = false

instance (e : Engine V) : Decidable (LoadsHigher e) :=
  inferInstanceAs (Decidable (_ ∧ _ ∧ _))

/-- As many bars before the start as the run asks for. -/
structure EnoughWarmup (e : Engine V) (feed : Feed) : Prop where
  main : e.config.warmupBars ≤
    ((feed.rows e.config.timeframe).filter fun bar => bar.time < e.config.startTime).length
  higher : LoadsHigher e → ∀ timeframe ∈ htfList e.config.timeframe, htfWarmupBars ≤
    ((feed.rows timeframe).filter fun bar => bar.time < e.config.startTime).length

/-- A fresh engine on a data set, where its run returns or raises. -/
def lastState (e : Engine V) (feed : Feed) : State V :=
  if ReturnsEarly e feed then resetRunState e (constructed e)
  else
    let prepared := prepare e feed (constructed e)
    (runBars e feed prepared).getD
      (reach (step e) (resetRunState e prepared) (barInputs e feed prepared))

/-- A main bar of this open time has closed by `T`. -/
def onClosed (e : Engine V) (T time : ℤ) : Bool := time + timeframeSeconds e.config.timeframe ≤ T

/-- The decisions, the openings and the closings on the main bars that have closed. -/
def logBy (e : Engine V) (T : ℤ) (s : State V) :
    List (ℤ × SignalDecision V) × List Position × List TradeRecord :=
  (s.decided.filter fun d => onClosed e T d.1,
    s.openings.filter fun pos => onClosed e T pos.entryTime,
    s.portfolio.closedTrades.filter fun trade => onClosed e T trade.exitTime)

/-- What is looked up for a closed main bar was computed from closed bars. -/
def LooksUpClosed (e : Engine V) (T : ℤ) (feed : Feed) : Prop :=
  ∀ bar ∈ (loadBars e feed).2, closedBy e.config.timeframe T bar →
    ∀ p ∈ (prepare e feed (constructed e)).htfTimeseries, ∀ entry,
      entryAt p.2 bar.time = some entry → ∀ row ∈ entry.window, closedBy p.1 T row

structure NoLookahead (e : Engine V) (T : ℤ) (feed other : Feed) : Prop where
  log : logBy e T (lastState e other) = logBy e T (lastState e feed)
  higher : LooksUpClosed e T feed
  higherOther : LooksUpClosed e T other

/-! The condition. -/

/-- A bar of a higher timeframe that opened by a closed main bar has closed too. -/
def HigherClosed (e : Engine V) (T : ℤ) (feed : Feed) : Prop :=
  LoadsHigher e → ∀ bar ∈ (loadBars e feed).2, closedBy e.config.timeframe T bar →
    ∀ timeframe ∈ htfList e.config.timeframe, ∀ row ∈ feed.rows timeframe,
      row.time ≤ bar.time → closedBy timeframe T row

/-- All test bars have closed. -/
def EndsBy (e : Engine V) (T : ℤ) (feed : Feed) : Prop :=
  ∀ bar ∈ (loadBars e feed).2, closedBy e.config.timeframe T bar

/-- Nothing is open when the data ends. -/
def EndsFlat (e : Engine V) (feed : Feed) : Prop :=
  ∀ s, run (step e) (resetRunState e (prepare e feed (constructed e)))
    (barInputs e feed (prepare e feed (constructed e))) = some s → s.portfolio.openPositions = []

/-- The main bars before the start, and those from the start on. -/
def warmupBars (e : Engine V) (feed : Feed) : List Ohlc :=
  preloadWarmupBars feed e.config.timeframe e.config.startTime e.config.warmupBars

def testBars (e : Engine V) (feed : Feed) : List Ohlc :=
  loadAllBars feed e.config.timeframe e.config.startTime e.config.endTime

/-- The condition of the borrowing. -/
def Borrows (e : Engine V) (feed : Feed) : Prop :=
  (warmupBars e feed).length < e.config.warmupBars ∧
    e.config.warmupBars < (testBars e feed).length

instance (e : Engine V) (feed : Feed) : Decidable (Borrows e feed) :=
  inferInstanceAs (Decidable (_ ∧ _))

/-- Every how many bars the equity is sampled. -/
def samplingStep (e : Engine V) (feed : Feed) : ℕ := max 1 ((loadBars e feed).2.length / 500)

/-- The children of the main bar that opens at this time. -/
def childrenOf (e : Engine V) (feed : Feed) (parent : ℤ) : List Ohlc :=
  (childBars e feed).filter fun child =>
    alignParentBarTime e.config.timeframe child.time = parent

/-- None of the four places looks further for one data set than for the other. -/
structure Undisturbed (e : Engine V) (T : ℤ) (feed other : Feed) : Prop where
  higher : HigherClosed e T feed
  higherOther : HigherClosed e T other
  sampling : e.equityCurveFilter.enabled → samplingStep e feed = samplingStep e other
  borrowing : Borrows e feed ↔ Borrows e other
  ends : EndsBy e T feed → ¬EndsBy e T other → EndsFlat e feed
  endsOther : EndsBy e T other → ¬EndsBy e T feed → EndsFlat e other

/-! What is not seen by the time. -/

section Logs

variable {e : Engine V} {T : ℤ}

theorem logBy_adds {s t : State V} {time : ℤ} (h : LogAdds time s t)
    (hopen : onClosed e T time = false) : logBy e T t = logBy e T s := by
  unfold logBy
  rw [h.decided.filter_eq fun d hd => by rw [hd]; exact hopen,
    h.opened.filter_eq fun pos hpos => by rw [hpos]; exact hopen,
    h.closed.filter_eq fun trade htrade => by rw [htrade]; exact hopen]

theorem logBy_alike {day : Option ℤ} {s t : State V} (h : Alike e day s t) :
    logBy e T t = logBy e T s := by
  have hdecided : t.decided = s.decided := by
    rw [h.rest]
  unfold logBy
  rw [hdecided, h.desk.book.openings_eq, h.desk.book.portfolio.closedTrades_eq]

theorem logBy_reach {later : List BarInput}
    (hopen : ∀ input ∈ later, onClosed e T input.bar.time = false) (s : State V) :
    logBy e T (reach (step e) s later) = logBy e T s :=
  reach_related (R := fun s t => logBy e T t = logBy e T s) (fun _ => rfl)
    (fun _ _ _ hst htu => htu.trans hst)
    (fun _ _ input hinput hstep => logBy_adds (step_adds hstep) (hopen input hinput)) s

theorem logBy_reach_append {front later : List BarInput}
    (hopen : ∀ input ∈ later, onClosed e T input.bar.time = false) (s : State V) :
    logBy e T (reach (step e) s (front ++ later)) = logBy e T (reach (step e) s front) := by
  rw [reach_append]
  cases hrun : run (step e) s front with
  | none => rfl
  | some t =>
    rw [Option.map_some, Option.getD_some, logBy_reach hopen, reach_eq_of_run hrun]

theorem finish_adds (last : Ohlc) (testCount : ℕ) (s : State V) :
    LogAdds last.time s (finish e last testCount s) := by
  refine ⟨Adds.refl _ _, Adds.refl _ _, ?_, Adds.refl _ _⟩
  have hclosed := (sameCash_recordEquity e.settings s.portfolio (toBar last)).closed
  rw [← hclosed]
  exact closeAllWithReason_adds _ _ _

/-- Forced closes close nothing when nothing is open. -/
theorem logBy_finish_flat {last : Ohlc} {testCount : ℕ} {s : State V}
    (hflat : s.portfolio.openPositions = []) :
    logBy e T (finish e last testCount s) = logBy e T s := by
  have hsame := sameCash_recordEquity e.settings s.portfolio (toBar last)
  have hclosed : (finish e last testCount s).portfolio.closedTrades = s.portfolio.closedTrades := by
    rw [← hsame.closed]
    have hnone := hsame.positions.trans hflat
    change (closeAllWithReason _ _ _ _ _).closedTrades = _
    rw [closeAllWithReason, hnone]
    rfl
  unfold logBy
  rw [hclosed]
  rfl

theorem finish_alike {day : Option ℤ} {s t : State V} (h : Alike e day s t) (last : Ohlc)
    (testCount : ℕ) : Alike e day (finish e last testCount s) (finish e last testCount t) := by
  have hportfolio := (h.desk.book.portfolio.recordEquity (toBar last)).closeAllWithReason
    (toBar last) ((testCount : ℤ) - 1) .endOfTest
  have hclosed := h.withDesk (h.desk.withBook (h.desk.book.withPortfolio hportfolio))
  refine ⟨?_, hclosed.desk⟩
  rw [h.rest]
  rfl

end Logs

/-! What the closed main bars read. -/

section Inputs

variable {e : Engine V} {T : ℤ} {feed other : Feed}

/-- Inputs that differ in nothing but their sample; not even there with the filter on. -/
def SameInput (e : Engine V) (input other : BarInput) : Prop :=
  ∃ sampled, (e.equityCurveFilter.enabled = true → sampled = input.sampled) ∧
    other = { input with sampled := sampled }

/-- How many test bars are borrowed. -/
def borrowed (e : Engine V) (feed : Feed) : ℕ :=
  if Borrows e feed then e.config.warmupBars - (warmupBars e feed).length else 0

theorem loadBars_eq (e : Engine V) (feed : Feed) :
    loadBars e feed = (warmupBars e feed ++ (testBars e feed).take (borrowed e feed),
      (testBars e feed).drop (borrowed e feed)) := by
  unfold borrowed
  by_cases h : Borrows e feed
  · rw [if_pos h]
    exact if_pos h
  · rw [if_neg h, List.take_zero, List.append_nil, List.drop_zero]
    exact if_neg h

theorem allBars_eq (e : Engine V) (feed : Feed) :
    (loadBars e feed).1 ++ (loadBars e feed).2 = warmupBars e feed ++ testBars e feed := by
  rw [loadBars_eq, List.append_assoc, List.take_append_drop]

theorem borrowed_le (e : Engine V) (feed : Feed) :
    borrowed e feed ≤ (testBars e feed).length := by
  unfold borrowed
  split
  · rename_i h
    have htest : e.config.warmupBars < (testBars e feed).length := h.2
    omega
  · exact Nat.zero_le _

theorem length_warmup (e : Engine V) (feed : Feed) :
    (loadBars e feed).1.length = (warmupBars e feed).length + borrowed e feed := by
  rw [loadBars_eq, List.length_append, List.length_take, Nat.min_eq_left (borrowed_le e feed)]

/-- Once the start has the property, so have the bars before it. -/
theorem warmupBars_congr {q : ℤ → Bool} (hq : ∀ a b, a ≤ b → q b = true → q a = true)
    (hrows : (feed.rows e.config.timeframe).filter (fun bar => q bar.time) =
      (other.rows e.config.timeframe).filter fun bar => q bar.time)
    (hstart : q e.config.startTime = true) : warmupBars e feed = warmupBars e other := by
  have hbefore (bar : Ohlc) (hbar : decide (bar.time ≤ e.config.startTime) = true) :
      q bar.time = true := hq _ _ (of_decide_eq_true hbar) hstart
  exact preloadWarmupBars_congr (filter_eq_of_imp hrows
    (fun bar _ hbar => hbefore bar hbar) (fun bar _ hbar => hbefore bar hbar)) _

/-- The test bars begin with those that have the property, and these are the same. -/
theorem testBars_split {q : ℤ → Bool} (hq : ∀ a b, a ≤ b → q b = true → q a = true)
    (hrows : (feed.rows e.config.timeframe).filter (fun bar => q bar.time) =
      (other.rows e.config.timeframe).filter fun bar => q bar.time) :
    ∃ front later otherLater, testBars e feed = front ++ later ∧
      testBars e other = front ++ otherLater ∧ (∀ bar ∈ front, q bar.time = true) ∧
      (∀ bar ∈ later, q bar.time = false) ∧ ∀ bar ∈ otherLater, q bar.time = false := by
  have hfading : ∀ a b : Ohlc, a.time < b.time → q b.time = true → q a.time = true :=
    fun a b hab => hq _ _ hab.le
  have hsplit (feed : Feed) : (testBars e feed).filter (fun bar => q bar.time) ++
      (testBars e feed).filter (fun bar => !q bar.time) = testBars e feed :=
    filter_append_filter_not ((((feed.sorted e.config.timeframe).filter _).take).imp
      fun hab => hfading _ _ hab)
  have hfront : (testBars e feed).filter (fun bar => q bar.time) =
      (testBars e other).filter fun bar => q bar.time := by
    rw [testBars, testBars, filter_loadAllBars feed _ _ _ hfading,
      filter_loadAllBars other _ _ _ hfading, hrows]
  have hlater (feed : Feed) : ∀ bar ∈ (testBars e feed).filter (fun bar => !q bar.time),
      q bar.time = false := fun bar hbar => Bool.not_eq_true' _ ▸ (List.mem_filter.mp hbar).2
  refine ⟨_, _, _, (hsplit feed).symm, ?_, fun bar hbar => (List.mem_filter.mp hbar).2,
    hlater feed, hlater other⟩
  rw [hfront]
  exact (hsplit other).symm

/-- A fresh engine loads the higher timeframes, or has what it was made with. -/
theorem prepare_higher (e : Engine V) (feed : Feed) :
    (LoadsHigher e ∧ htfList e.config.timeframe ≠ [] ∧
      (prepare e feed (constructed e)).htfTimeseries = preloadHtfIndicators e.pipeline feed
        e.config.startTime e.config.endTime (htfList e.config.timeframe) ∧
      ((prepare e feed (constructed e)).htfTimeseries = [] →
        (prepare e feed (constructed e)).htfIndicatorData = Dict.empty)) ∨
    (¬(LoadsHigher e ∧ htfList e.config.timeframe ≠ []) ∧
      (prepare e feed (constructed e)).htfTimeseries = [] ∧
      (prepare e feed (constructed e)).htfIndicatorData = e.htfIndicatorData) := by
  have hchildren (kept : Kept V) :
      (preloadChildren e feed kept).htfTimeseries = kept.htfTimeseries ∧
        (preloadChildren e feed kept).htfIndicatorData = kept.htfIndicatorData := by
    unfold preloadChildren keepChildren
    split
    · exact ⟨rfl, rfl⟩
    · exact ⟨rfl, rfl⟩
  obtain ⟨hseries, hdata⟩ := hchildren (preloadHtf e feed (constructed e))
  rw [prepare, hseries, hdata]
  by_cases hloads : LoadsHigher e ∧ htfList e.config.timeframe ≠ []
  · have hloaded : preloadHtf e feed (constructed e) = _ :=
      if_pos ⟨hloads.1.1, hloads.1.2.1, hloads.1.2.2, hloads.2⟩
    rw [hloaded]
    refine Or.inl ⟨hloads.1, hloads.2, rfl, fun hnone => ?_⟩
    dsimp only at hnone ⊢
    rw [hnone]
    rfl
  · have hskipped : preloadHtf e feed (constructed e) = constructed e :=
      if_neg fun h => hloads ⟨⟨h.1, h.2.1, h.2.2.1⟩, h.2.2.2⟩
    rw [hskipped]
    exact Or.inr ⟨hloads, rfl, rfl⟩

/-- The data of the higher timeframes that a main bar reads. -/
def higherAt (e : Engine V) (feed : Feed) (barTime : ℤ) : Dict String Snapshot :=
  let prepared := prepare e feed (constructed e)
  if prepared.htfTimeseries = [] then prepared.htfIndicatorData
  else lookupHtfAtTime prepared.htfTimeseries barTime

theorem higherAt_loaded (hloads : LoadsHigher e) (hlist : htfList e.config.timeframe ≠ [])
    (barTime : ℤ) :
    higherAt e feed barTime = lookupHtfAtTime (preloadHtfIndicators e.pipeline feed
      e.config.startTime e.config.endTime (htfList e.config.timeframe)) barTime := by
  rcases prepare_higher e feed with ⟨-, -, hseries, hempty⟩ | ⟨hskipped, -, -⟩
  · unfold higherAt
    dsimp only
    split
    · rename_i hnone
      rw [hempty hnone, ← hseries, hnone]
      rfl
    · rw [hseries]
  · exact absurd ⟨hloads, hlist⟩ hskipped

theorem higherAt_skipped (hskips : ¬(LoadsHigher e ∧ htfList e.config.timeframe ≠ []))
    (barTime : ℤ) : higherAt e feed barTime = e.htfIndicatorData := by
  rcases prepare_higher e feed with ⟨hloads, hlist, -, -⟩ | ⟨-, hseries, hdata⟩
  · exact absurd ⟨hloads, hlist⟩ hskips
  · exact (if_pos hseries).trans hdata

/-- A closed main bar finds the same snapshots. -/
theorem higherAt_congr (hsame : SameUpTo T feed other) (hwarmup : EnoughWarmup e feed)
    (hotherWarmup : EnoughWarmup e other) (hhigher : HigherClosed e T feed)
    (hotherHigher : HigherClosed e T other) {bar : Ohlc} (hbar : bar ∈ (loadBars e feed).2)
    (hotherBar : bar ∈ (loadBars e other).2)
    (hclosed : closedBy e.config.timeframe T bar = true) :
    higherAt e feed bar.time = higherAt e other bar.time := by
  by_cases hloads : LoadsHigher e ∧ htfList e.config.timeframe ≠ []
  · rw [higherAt_loaded hloads.1 hloads.2, higherAt_loaded hloads.1 hloads.2,
      lookup_preloadHtfIndicators, lookup_preloadHtfIndicators]
    have htest : bar ∈ testBars e feed := by
      rw [loadBars_eq] at hbar
      exact List.mem_of_mem_drop hbar
    obtain ⟨-, hstart, hend⟩ := mem_loadAllBars htest
    refine List.foldl_ext _ _ _ fun found tf htf => ?_
    rw [entryAt_htfSeries_congr (hwarmup.higher hloads.1 tf htf)
      (hotherWarmup.higher hloads.1 tf htf) (filter_eq_of_imp (hsame tf) ?_ ?_) hstart hend]
    · exact fun row hrow hopened => hhigher hloads.1 bar hbar hclosed tf htf row hrow
        (of_decide_eq_true hopened)
    · exact fun row hrow hopened => hotherHigher hloads.1 bar hotherBar hclosed tf htf row hrow
        (of_decide_eq_true hopened)
  · rw [higherAt_skipped hloads, higherAt_skipped hloads]

theorem looksUpClosed_of_higherClosed (hhigher : HigherClosed e T feed) :
    LooksUpClosed e T feed := by
  intro bar hbar hclosed p hp entry hentry row hrow
  rcases prepare_higher e feed with ⟨hloads, -, hseries, -⟩ | ⟨-, hnone, -⟩
  · rw [hseries] at hp
    obtain ⟨tf, htf, rfl⟩ := List.mem_map.mp (List.mem_filter.mp hp).1
    dsimp only at hentry
    obtain ⟨hstored, hopened⟩ := window_of_entryAt hentry hrow
    exact hhigher hloads bar hbar hclosed tf htf row hstored hopened
  · rw [hnone] at hp
    exact absurd hp List.not_mem_nil

/-- Positions in a common front of the bars read the same, but for the samples and the
children. -/
theorem barInput_congr {prepared otherPrepared : Kept V} {all otherAll : List Ohlc}
    (children otherChildren : Dict ℤ (List Ohlc)) {warmupEnd i n : ℕ} (count otherCount : ℕ)
    {bar : Ohlc} (hfront : all.take n = otherAll.take n) (hi : warmupEnd + i < n)
    (hwarmup : e.config.warmupBars ≤ warmupEnd + 1)
    (hhigher : (if prepared.htfTimeseries = [] then prepared.htfIndicatorData
        else lookupHtfAtTime prepared.htfTimeseries bar.time) =
      if otherPrepared.htfTimeseries = [] then otherPrepared.htfIndicatorData
      else lookupHtfAtTime otherPrepared.htfTimeseries bar.time) :
    barInput e otherPrepared otherChildren otherAll warmupEnd otherCount i bar =
      { barInput e prepared children all warmupEnd count i bar with
        childBars := (otherChildren.get? bar.time).getD []
        sampled := i % max 1 (otherCount / 500) = 0 } := by
  have htake {m : ℕ} (hm : m ≤ n) : all.take m = otherAll.take m := by
    have hboth := congrArg (List.take m) hfront
    rwa [List.take_take, List.take_take, Nat.min_eq_left hm] at hboth
  have hsnapshot : (snapshots e all)[warmupEnd + i]? = (snapshots e otherAll)[warmupEnd + i]? := by
    unfold snapshots
    split
    · rfl
    · exact (precomputeAllIndicators_causal _ _ _ _ _).getElem?_eq hfront hi
  unfold barInput
  rw [hsnapshot, htake (show warmupEnd + i + 1 ≤ n by omega), hhigher,
    htake (show e.config.warmupBars + i ≤ n by omega)]

theorem bars_barInputs (e : Engine V) (feed : Feed) (prepared : Kept V) :
    (barInputs e feed prepared).map BarInput.bar = (loadBars e feed).2 := by
  rw [barInputs, inputsOf, List.mapIdx_eq_zipIdx_map, List.map_map]
  exact List.zipIdx_map_fst 0 _

theorem barInputs_eq (e : Engine V) (feed : Feed) (prepared : Kept V) :
    barInputs e feed prepared = (loadBars e feed).2.mapIdx (barInput e prepared
      (buildChildBarIndex e.config.timeframe (childBars e feed))
      (warmupBars e feed ++ testBars e feed) ((warmupBars e feed).length + borrowed e feed)
      (loadBars e feed).2.length) := by
  rw [barInputs, inputsOf, allBars_eq, length_warmup]

theorem childBars_barInputs {prepared : Kept V} {input : BarInput}
    (h : input ∈ barInputs e feed prepared) :
    input.childBars = childrenOf e feed input.bar.time := by
  obtain ⟨i, hi, rfl⟩ := List.mem_mapIdx.mp h
  exact getD_buildChildBarIndex _ _ _

theorem le_length_warmup (hwarmup : EnoughWarmup e feed) :
    e.config.warmupBars ≤ (loadBars e feed).1.length + 1 := by
  have hloaded := le_length_preloadWarmupBars hwarmup.main
  have hone := feed.length_at_le e.config.timeframe e.config.startTime
  rw [length_warmup, warmupBars]
  omega

theorem borrowed_congr (hbefore : warmupBars e feed = warmupBars e other)
    (hborrows : Borrows e feed ↔ Borrows e other) : borrowed e feed = borrowed e other := by
  unfold borrowed
  rw [hbefore]
  exact if_congr hborrows rfl rfl

theorem bar_mem_of_mapIdx {read : ℕ → Ohlc → BarInput} (hread : ∀ i bar, (read i bar).bar = bar)
    {bars : List Ohlc} {input : BarInput} (h : input ∈ bars.mapIdx read) : input.bar ∈ bars := by
  obtain ⟨i, hi, rfl⟩ := List.mem_mapIdx.mp h
  rw [hread]
  exact List.getElem_mem hi

/-- The same input with the children of the other data, sampled alike with the filter on. -/
def SameRead (e : Engine V) (other : Feed) (input another : BarInput) : Prop :=
  ∃ sampled, (e.equityCurveFilter.enabled = true → sampled = input.sampled) ∧
    another = { input with
      childBars := childrenOf e other input.bar.time
      sampled := sampled }

/-- Reading the same children too makes the inputs the same. -/
theorem forall₂_sameInput {inputs others : List BarInput}
    (h : List.Forall₂ (SameRead e other) inputs others)
    (hchildren : ∀ input ∈ inputs, childrenOf e other input.bar.time = input.childBars) :
    List.Forall₂ (SameInput e) inputs others := by
  induction h with
  | nil => exact List.Forall₂.nil
  | @cons input another rest others hread _ ih =>
    obtain ⟨sampled, hsampled, rfl⟩ := hread
    refine List.Forall₂.cons ⟨sampled, hsampled, ?_⟩ (ih fun other hother =>
      hchildren other (List.mem_cons_of_mem input hother))
    rw [hchildren input List.mem_cons_self]

/-- The inputs come in two parts, of which the first ones correspond. -/
def Parted (R : BarInput → BarInput → Prop) (q : ℤ → Bool) (inputs others : List BarInput) :
    Prop :=
  ∃ front later otherFront otherLater, inputs = front ++ later ∧
    others = otherFront ++ otherLater ∧ List.Forall₂ R front otherFront ∧
    (∀ input ∈ front, q input.bar.time = true) ∧
    (∀ input ∈ later, q input.bar.time = false) ∧
    ∀ input ∈ otherLater, q input.bar.time = false

/-- Every input is from the start on, so none of them is early when the start is not. -/
theorem barInputs_late {q : ℤ → Bool} (hq : ∀ a b, a ≤ b → q b = true → q a = true)
    (hstart : ¬ q e.config.startTime = true) (feed : Feed) :
    ∀ input ∈ barInputs e feed (prepare e feed (constructed e)), q input.bar.time = false := by
  intro input hinput
  have hbar := List.mem_map_of_mem (f := BarInput.bar) hinput
  rw [bars_barInputs, loadBars_eq] at hbar
  obtain ⟨-, hstarted, -⟩ := mem_loadAllBars (List.mem_of_mem_drop hbar)
  exact Bool.eq_false_iff.mpr fun htrue => hstart (hq _ _ hstarted htrue)

/-- Data that is the same for the first main bars gives them the same inputs. -/
theorem barInputs_parted {q : ℤ → Bool} (hq : ∀ a b, a ≤ b → q b = true → q a = true)
    (hrows : (feed.rows e.config.timeframe).filter (fun bar => q bar.time) =
      (other.rows e.config.timeframe).filter fun bar => q bar.time)
    (hborrows : Borrows e feed ↔ Borrows e other)
    (hwarmup : e.config.warmupBars ≤ (loadBars e feed).1.length + 1)
    (hhigher : ∀ bar ∈ (loadBars e feed).2, bar ∈ (loadBars e other).2 → q bar.time = true →
      higherAt e feed bar.time = higherAt e other bar.time)
    (hsampling : e.equityCurveFilter.enabled = true → samplingStep e feed = samplingStep e other) :
    Parted (SameRead e other) q (barInputs e feed (prepare e feed (constructed e)))
      (barInputs e other (prepare e other (constructed e))) := by
  by_cases hstart : q e.config.startTime = true
  · have hbefore := warmupBars_congr hq hrows hstart
    have hborrowed := borrowed_congr hbefore hborrows
    obtain ⟨front, later, otherLater, htest, hotherTest, hfront, hlater, hotherLater⟩ :=
      testBars_split hq hrows
    have hbars : (loadBars e feed).2 = front.drop (borrowed e feed) ++
        later.drop (borrowed e feed - front.length) := by
      rw [loadBars_eq, htest, List.drop_append]
    have hotherBars : (loadBars e other).2 = front.drop (borrowed e feed) ++
        otherLater.drop (borrowed e feed - front.length) := by
      rw [loadBars_eq, hotherTest, List.drop_append, hborrowed]
    have hinputs := barInputs_eq e feed (prepare e feed (constructed e))
    have hothers := barInputs_eq e other (prepare e other (constructed e))
    rw [← hborrowed, ← hbefore] at hothers
    rw [length_warmup] at hwarmup
    refine ⟨_, _, _, _, hinputs.trans ((congrArg (List.mapIdx _) hbars).trans List.mapIdx_append),
      hothers.trans ((congrArg (List.mapIdx _) hotherBars).trans List.mapIdx_append), ?_, ?_, ?_, ?_⟩
    · refine forall₂_mapIdx fun i hi => ?_
      have hmem := List.getElem_mem hi
      have hbar : (front.drop (borrowed e feed))[i] ∈ (loadBars e feed).2 := by
        rw [hbars]
        exact List.mem_append_left _ hmem
      have hotherBar : (front.drop (borrowed e feed))[i] ∈ (loadBars e other).2 := by
        rw [hotherBars]
        exact List.mem_append_left _ hmem
      have hread := hhigher _ hbar hotherBar (hfront _ (List.mem_of_mem_drop hmem))
      rw [List.length_drop] at hi
      have hcommon : (warmupBars e feed ++ testBars e feed).take
          ((warmupBars e feed).length + front.length) =
          (warmupBars e feed ++ testBars e other).take
            ((warmupBars e feed).length + front.length) := by
        rw [htest, hotherTest, ← List.append_assoc, ← List.append_assoc,
          List.take_left' (List.length_append ..), List.take_left' (List.length_append ..)]
      have hposition : (warmupBars e feed).length + borrowed e feed + i <
          (warmupBars e feed).length + front.length := by omega
      have hinput := barInput_congr
        (buildChildBarIndex e.config.timeframe (childBars e feed))
        (buildChildBarIndex e.config.timeframe (childBars e other))
        (loadBars e feed).2.length (loadBars e other).2.length hcommon hposition hwarmup hread
      rw [getD_buildChildBarIndex] at hinput
      refine ⟨decide (i % samplingStep e other = 0), fun hon => ?_, hinput⟩
      rw [← hsampling hon]
      rfl
    · intro input hinput
      exact hfront _ (List.mem_of_mem_drop (bar_mem_of_mapIdx (fun _ _ => rfl) hinput))
    · intro input hinput
      exact hlater _ (List.mem_of_mem_drop (bar_mem_of_mapIdx (fun _ _ => rfl) hinput))
    · intro input hinput
      exact hotherLater _ (List.mem_of_mem_drop (bar_mem_of_mapIdx (fun _ _ => rfl) hinput))
  · exact ⟨[], _, [], _, rfl, rfl, List.Forall₂.nil, fun _ hinput => absurd hinput List.not_mem_nil,
      barInputs_late hq hstart feed, barInputs_late hq hstart other⟩

/-- Without intrabar replay no bar has children. -/
theorem barInputs_split (hintrabar : e.intrabar = none) (hsame : SameUpTo T feed other)
    (hwarmup : EnoughWarmup e feed) (hotherWarmup : EnoughWarmup e other)
    (h : Undisturbed e T feed other) :
    Parted (SameInput e) (onClosed e T) (barInputs e feed (prepare e feed (constructed e)))
      (barInputs e other (prepare e other (constructed e))) := by
  have hq : ∀ a b : ℤ, a ≤ b → onClosed e T b = true → onClosed e T a = true := by
    intro a b hab hb
    rw [onClosed, decide_eq_true_eq] at hb ⊢
    omega
  obtain ⟨front, later, otherFront, otherLater, hinputs, hothers, hfronts, hrest⟩ :=
    barInputs_parted hq (hsame e.config.timeframe) h.borrowing (le_length_warmup hwarmup)
      (fun bar hbar hotherBar hclosed => higherAt_congr hsame hwarmup hotherWarmup h.higher
        h.higherOther hbar hotherBar hclosed) h.sampling
  refine ⟨front, later, otherFront, otherLater, hinputs, hothers, ?_, hrest⟩
  have hnone (feed : Feed) (time : ℤ) : childrenOf e feed time = [] := by
    rw [childrenOf, childBars, hintrabar]
    rfl
  refine forall₂_sameInput hfronts fun input hinput => ?_
  rw [hnone, childBars_barInputs (hinputs ▸ List.mem_append_left later hinput), hnone]

end Inputs

section Outcomes

variable {e : Engine V} {T : ℤ} {feed other : Feed}

/-- Fresh runs start alike when both have child bars or neither has. -/
theorem start_alike (hchildren : childBars e feed = [] ↔ childBars e other = []) :
    Alike e none (resetRunState e (prepare e feed (constructed e)))
      (resetRunState e (prepare e other (constructed e))) := by
  have hkept (feed : Feed) : resetRunState e (prepare e feed (constructed e)) =
      { resetRunState e (constructed e) with
        intrabar := if childBars e feed = [] then none else (constructed e).intrabar
        htfIndicatorData := (prepare e feed (constructed e)).htfIndicatorData } := by
    rw [prepare, preloadChildren, keepChildren, preloadHtf, keepHigher]
    unfold resetRunState
    by_cases hempty : childBars e feed = []
    · rw [if_pos hempty, if_pos hempty]
      split
      · rfl
      · rfl
    · rw [if_neg hempty, if_neg hempty]
      split
      · rfl
      · rfl
  rw [hkept feed, hkept other]
  refine ⟨?_, rfl, rfl, SameTrading.refl _⟩
  by_cases hempty : childBars e feed = []
  · rw [if_pos hempty, if_pos (hchildren.mp hempty)]
  · rw [if_neg hempty, if_neg fun h => hempty (hchildren.mpr h)]

theorem childBars_of_noIntrabar (hintrabar : e.intrabar = none) (feed : Feed) :
    childBars e feed = [] := by
  rw [childBars, hintrabar]

theorem step_sameInput {s t : State V} {input another : BarInput} (h : Alike e none s t)
    (hinput : SameInput e input another) :
    Option.Rel (Alike e none) (step e s input) (step e t another) := by
  obtain ⟨sampled, hsampled, rfl⟩ := hinput
  exact step_alike input sampled hsampled h

theorem bars_of_sameInput {inputs others : List BarInput}
    (h : List.Forall₂ (SameInput e) inputs others) :
    others.map BarInput.bar = inputs.map BarInput.bar := by
  induction h with
  | nil => rfl
  | cons hinput _ ih =>
    obtain ⟨sampled, -, rfl⟩ := hinput
    exact congrArg (_ :: ·) ih

/-- The log by `T` is that of the closed main bars, unless the data ends with them while
something is open. -/
theorem logBy_lastState {front later : List BarInput} (hruns : e.targetStrategies ≠ [])
    (hinputs : barInputs e feed (prepare e feed (constructed e)) = front ++ later)
    (hopen : ∀ input ∈ later, onClosed e T input.bar.time = false)
    (hends : later ≠ [] ∨ EndsFlat e feed) :
    logBy e T (lastState e feed) =
      logBy e T (reach (step e) (resetRunState e (prepare e feed (constructed e))) front) := by
  have hbars := bars_barInputs e feed (prepare e feed (constructed e))
  rw [hinputs] at hbars
  unfold lastState
  split
  · rename_i hearly
    have hempty := hearly.resolve_left hruns
    rw [hempty, List.map_eq_nil_iff, List.append_eq_nil_iff] at hbars
    rw [hbars.1]
    rfl
  · dsimp only
    rw [← logBy_reach_append hopen, hinputs]
    cases hrun : runBars e feed (prepare e feed (constructed e)) with
    | none => rfl
    | some s =>
      unfold runBars runLoaded at hrun
      split at hrun
      · cases hrun
      · rename_i last hlast
        obtain ⟨t, ht, rfl⟩ := Option.map_eq_some_iff.mp hrun
        rw [← barInputs] at ht
        rw [Option.getD_some, ← hinputs, reach_eq_of_run ht]
        rcases hends with hlater | hflat
        · refine logBy_adds (finish_adds last _ t) ?_
          rw [← hbars, List.map_append, List.getLast?_append_of_ne_nil _ (by simpa using hlater)]
            at hlast
          obtain ⟨input, hinput, rfl⟩ := List.mem_map.mp (List.mem_of_getLast? hlast)
          exact hopen input hinput
        · exact logBy_finish_flat (hflat t ht)

/-- Data that ends with the closed main bars on both sides. -/
theorem logBy_lastState_alike (hintrabar : e.intrabar = none)
    (hinputs : List.Forall₂ (SameInput e) (barInputs e feed (prepare e feed (constructed e)))
      (barInputs e other (prepare e other (constructed e)))) :
    logBy e T (lastState e other) = logBy e T (lastState e feed) := by
  have hbars : (loadBars e other).2 = (loadBars e feed).2 := by
    rw [← bars_barInputs e other (prepare e other (constructed e)),
      ← bars_barInputs e feed (prepare e feed (constructed e))]
    exact bars_of_sameInput hinputs
  have hnone := childBars_of_noIntrabar hintrabar
  have hstart := start_alike (iff_of_true (hnone feed) (hnone other))
  have hruns : Option.Rel (Alike e none) (runBars e feed (prepare e feed (constructed e)))
      (runBars e other (prepare e other (constructed e))) := by
    unfold runBars runLoaded
    rw [hbars]
    split
    · exact Option.Rel.none
    · exact rel_map (rel_run (R := Alike e none) (P := SameInput e)
        (fun _ _ _ _ => step_sameInput) hinputs hstart) fun _ _ hst => finish_alike hst _ _
  have hreach := rel_reach (R := Alike e none) (P := SameInput e)
    (fun _ _ _ _ => step_sameInput) hinputs hstart
  have hearly : ReturnsEarly e other ↔ ReturnsEarly e feed := by
    rw [ReturnsEarly, hbars, ReturnsEarly]
  unfold lastState
  by_cases hreturns : ReturnsEarly e feed
  · rw [if_pos hreturns, if_pos (hearly.mpr hreturns)]
  · rw [if_neg hreturns, if_neg fun h => hreturns (hearly.mp h)]
    dsimp only
    cases hrun : runBars e feed (prepare e feed (constructed e)) with
    | none =>
      rw [rel_of_eq_none hruns hrun]
      exact logBy_alike hreach
    | some s =>
      obtain ⟨t, ht, hst⟩ := exists_rel_of_eq_some hruns hrun
      rw [ht]
      exact logBy_alike hst

theorem endsBy_iff {front later : List BarInput}
    (hinputs : barInputs e feed (prepare e feed (constructed e)) = front ++ later)
    (hclosed : ∀ input ∈ front, onClosed e T input.bar.time = true)
    (hopen : ∀ input ∈ later, onClosed e T input.bar.time = false) :
    EndsBy e T feed ↔ later = [] := by
  have hbars := bars_barInputs e feed (prepare e feed (constructed e))
  rw [hinputs] at hbars
  constructor
  · intro hends
    rw [List.eq_nil_iff_forall_not_mem]
    intro input hinput
    have hmem : input.bar ∈ (loadBars e feed).2 := by
      rw [← hbars]
      exact List.mem_map_of_mem (List.mem_append_right _ hinput)
    have hend : onClosed e T input.bar.time = true := hends _ hmem
    rw [hopen input hinput] at hend
    exact Bool.false_ne_true hend
  · rintro rfl bar hbar
    rw [← hbars, List.append_nil] at hbar
    obtain ⟨input, hinput, rfl⟩ := List.mem_map.mp hbar
    exact hclosed input hinput

theorem closed_of_sameInput {inputs others : List BarInput}
    (hsame : List.Forall₂ (SameInput e) inputs others)
    (hclosed : ∀ input ∈ inputs, onClosed e T input.bar.time = true) :
    ∀ input ∈ others, onClosed e T input.bar.time = true := by
  intro input hinput
  have hbar := List.mem_map_of_mem (f := BarInput.bar) hinput
  rw [bars_of_sameInput hsame] at hbar
  obtain ⟨corresponding, hmem, hsameBar⟩ := List.mem_map.mp hbar
  rw [← hsameBar]
  exact hclosed corresponding hmem

/-- A backtest without intrabar replay does not look ahead where none of the four places
looks further. -/
theorem noLookahead_of_undisturbed (hintrabar : e.intrabar = none) (hsame : SameUpTo T feed other)
    (hwarmup : EnoughWarmup e feed) (hotherWarmup : EnoughWarmup e other)
    (h : Undisturbed e T feed other) : NoLookahead e T feed other := by
  refine ⟨?_, looksUpClosed_of_higherClosed h.higher, looksUpClosed_of_higherClosed h.higherOther⟩
  by_cases hruns : e.targetStrategies = []
  · have hearly (feed : Feed) : lastState e feed = resetRunState e (constructed e) :=
      if_pos (Or.inl hruns)
    rw [hearly feed, hearly other]
  obtain ⟨front, later, otherFront, otherLater, hinputs, hothers, hfronts, hclosed, hlater,
    hotherLater⟩ := barInputs_split hintrabar hsame hwarmup hotherWarmup h
  have hnone := childBars_of_noIntrabar hintrabar
  have hends := endsBy_iff hinputs hclosed hlater
  have hotherEnds := endsBy_iff hothers (closed_of_sameInput hfronts hclosed) hotherLater
  by_cases hboth : later = [] ∧ otherLater = []
  · rw [hboth.1, List.append_nil] at hinputs
    rw [hboth.2, List.append_nil] at hothers
    refine logBy_lastState_alike hintrabar ?_
    rw [hinputs, hothers]
    exact hfronts
  · have hflat : later ≠ [] ∨ EndsFlat e feed := by
      by_cases hnone : later = []
      · exact Or.inr (h.ends (hends.mpr hnone) fun hend => hboth ⟨hnone, hotherEnds.mp hend⟩)
      · exact Or.inl hnone
    have hotherFlat : otherLater ≠ [] ∨ EndsFlat e other := by
      by_cases hnone : otherLater = []
      · exact Or.inr (h.endsOther (hotherEnds.mpr hnone) fun hend => hboth ⟨hends.mp hend, hnone⟩)
      · exact Or.inl hnone
    rw [logBy_lastState hruns hinputs hlater hflat,
      logBy_lastState hruns hothers hotherLater hotherFlat]
    exact logBy_alike (rel_reach (R := Alike e none) (P := SameInput e)
      (fun _ _ _ _ => step_sameInput) hfronts
      (start_alike (iff_of_true (hnone feed) (hnone other))))

end Outcomes

/-! A run on hours under a bar of four hours. -/

/-- The start of day 200. -/
def noon : ℤ := 200 * 86400

def plainBar (timeframe : String) (time : ℤ) (close : ℚ) : Ohlc where
  symbol := "XAUUSD"
  timeframe := timeframe
  time := time
  openPrice := 100
  high := max 100 close
  low := min 100 close
  close := close
  volume := 1

theorem plainBars_sorted {time : ℕ → ℤ} (timeframe : String) (count : ℕ)
    (htime : ∀ i j, i < j → time i < time j) {close : ℕ → ℚ} :
    ((List.range count).map fun i => plainBar timeframe (time i) (close i)).Pairwise
      fun a b => a.time < b.time :=
  List.pairwise_map.mpr (List.pairwise_lt_range.imp fun hij => htime _ _ hij)

/-- Two hundred bars of four hours and two hundred days before the start, then one bar of
four hours with this close, and the hours under it and after it. -/
def hoursFeed (higherClose lastClose : ℚ) : Feed where
  rows timeframe :=
    if timeframe = "H1" then
      (List.range 6).map fun (i : ℕ) =>
        plainBar "H1" (noon - 3600 + 3600 * i) (if i = 5 then lastClose else 100)
    else if timeframe = "H4" then
      (List.range 201).map fun (i : ℕ) =>
        plainBar "H4" (noon - 200 * 14400 + 14400 * i) (if i = 200 then higherClose else 100)
    else if timeframe = "D1" then
      (List.range 200).map fun (i : ℕ) => plainBar "D1" (86400 * i) 100
    else []
  sorted timeframe := by
    split_ifs
    · exact plainBars_sorted _ _ fun i j hij => by omega
    · exact plainBars_sorted _ _ fun i j hij => by omega
    · exact plainBars_sorted _ _ fun i j hij => by omega
    · exact List.Pairwise.nil

/-- The close of the last bar, with an average true range of ten. -/
def closeSnapshot (bars : List Ohlc) : Snapshot :=
  (Dict.empty.set "atr14" (some (Dict.empty.set "atr" (.number 10)))).set "last"
    (some (Dict.empty.set "close" (.number ((bars.getLast?.map fun bar => bar.close).getD 0))))

/-- One strategy that buys when the bars of four hours close at two hundred. -/
def higherEngine : Engine Unit where
  config := {
    symbol := "XAUUSD"
    timeframe := "H1"
    startTime := noon - 1800
    endTime := noon + 5 * 3600
    warmupBars := 1 }
  targetStrategies := ["higher"]
  requiredIndicators := ["atr14", "last", "adx14", "boll20", "keltner20"]
  capabilities := Dict.empty.set "higher" ⟨[.confirmed], ["atr14", "last"]⟩
  pipeline _ bars _ := closeSnapshot bars
  detect _ := some .trending
  detectSoft _ := none
  analyzeStructure _ _ _ := none
  evaluate _ request :=
    if ((request.htfIndicators.get? "H4").bind fun snapshot => (snapshot.get? "last").bind id).bind
        (fun payload => payload.get? "close") = some (.number 200) then
      some {
        strategy := request.strategy
        direction := some .buy
        confidence := 1
        metadata := () }
    else none
  currentSessions _ := []
  deriveEntryGroup _ _ _ := none
  strategyCategory _ := ""

theorem hoursFeed_sameUpTo {higherClose otherHigher lastClose otherLast : ℚ} {T : ℤ}
    (hhours : (((hoursFeed higherClose lastClose).rows "H1").filter (closedBy "H1" T)) =
      ((hoursFeed otherHigher otherLast).rows "H1").filter (closedBy "H1" T))
    (hhigher : (((hoursFeed higherClose lastClose).rows "H4").filter (closedBy "H4" T)) =
      ((hoursFeed otherHigher otherLast).rows "H4").filter (closedBy "H4" T)) :
    SameUpTo T (hoursFeed higherClose lastClose) (hoursFeed otherHigher otherLast) := by
  intro timeframe
  by_cases hfirst : timeframe = "H1"
  · rw [hfirst]
    exact hhours
  · by_cases hsecond : timeframe = "H4"
    · rw [hsecond]
      exact hhigher
    · simp only [hoursFeed, if_neg hfirst, if_neg hsecond]

theorem hoursFeed_enoughWarmup (higherClose lastClose : ℚ) :
    EnoughWarmup higherEngine (hoursFeed higherClose lastClose) := by
  have hbefore (timeframe : String) : ((hoursFeed higherClose lastClose).rows timeframe).countP
      (fun bar => bar.time < higherEngine.config.startTime) =
      ((hoursFeed 100 100).rows timeframe).countP
        fun bar => bar.time < higherEngine.config.startTime := by
    unfold hoursFeed
    dsimp only
    split_ifs
    · rw [List.countP_map, List.countP_map]
      rfl
    · rw [List.countP_map, List.countP_map]
      rfl
    · rfl
    · rfl
  constructor
  · rw [← List.countP_eq_length_filter, hbefore]
    rfl
  · intro _ timeframe htimeframe
    rw [← List.countP_eq_length_filter, hbefore]
    revert timeframe
    decide +kernel

/-- When the four hours are over, what follows them is not seen. -/
theorem higherEngine_noLookahead :
    NoLookahead higherEngine (noon + 4 * 3600) (hoursFeed 200 100) (hoursFeed 200 101) := by
  apply noLookahead_of_undisturbed rfl
    (hoursFeed_sameUpTo (by rfl) (by decide +kernel))
    (hoursFeed_enoughWarmup 200 100) (hoursFeed_enoughWarmup 200 101)
  have hgoesOn (lastClose : ℚ) (hloads : (loadBars higherEngine (hoursFeed 200 lastClose)).2.any
      (fun bar => !closedBy "H1" (noon + 4 * 3600) bar) = true) :
      ¬EndsBy higherEngine (noon + 4 * 3600) (hoursFeed 200 lastClose) := by
    intro hends
    obtain ⟨bar, hbar, hopen⟩ := List.any_eq_true.mp hloads
    have hclosed : closedBy "H1" (noon + 4 * 3600) bar = true := hends bar hbar
    rw [hclosed] at hopen
    exact Bool.false_ne_true hopen
  constructor
  · unfold HigherClosed
    decide +kernel
  · unfold HigherClosed
    decide +kernel
  · exact fun hon => absurd hon (by decide)
  · decide
  · exact fun hends => absurd hends (hgoesOn 100 (by decide))
  · exact fun hends => absurd hends (hgoesOn 101 (by decide))

/-- The four hours are known before they are over: with another close of theirs the strategy
has bought on the first of the hours. -/
theorem higherEngine_looksAhead :
    higherEngine.intrabar = none ∧
      SameUpTo (noon + 3600) (hoursFeed 100 100) (hoursFeed 200 100) ∧
      EnoughWarmup higherEngine (hoursFeed 100 100) ∧
      EnoughWarmup higherEngine (hoursFeed 200 100) ∧
      ¬NoLookahead higherEngine (noon + 3600) (hoursFeed 100 100) (hoursFeed 200 100) := by
  refine ⟨rfl, hoursFeed_sameUpTo (by decide) (by decide +kernel),
    hoursFeed_enoughWarmup 100 100, hoursFeed_enoughWarmup 200 100, fun h => ?_⟩
  have hdecisions := congrArg (fun log => log.1.length) h.log
  revert hdecisions
  decide +kernel

end MT5Services.BacktestLookahead
