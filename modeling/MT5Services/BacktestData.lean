import MT5Services.IntrabarSynthesis
import MT5Services.Prefixes
import MT5Services.PyNumber

/-!
What a backtest reads. The loader gets the stored bars of a symbol from the database, the
warmup bars before the start and the test bars; the engine may borrow warmup bars from the
test bars. The snapshots of all bar positions are computed beforehand, each from a window
that ends at its bar, with delta metrics against earlier snapshots; those of the higher
timeframes are kept as a series that is looked up by the open time of a main bar. The
indicator pipeline is a function of what it is called with.
-/
namespace MT5Services.BacktestData

open IntrabarSynthesis Prefixes PyNumber

/-- A metric: a number, `None`, or a value that `float` refuses. -/
inductive Field
  | number (value : ℚ)
  | null
  | other
  deriving DecidableEq, Repr

abbrev Payload := Dict String Field

/-- The payloads by indicator; `none` is an indicator that failed. -/
abbrev Snapshot := Dict String (Option Payload)

/-- The stored bars of one symbol by timeframe. The time is part of the key. -/
structure Feed where
  rows : String → List Ohlc
  sorted : ∀ timeframe, (rows timeframe).Pairwise fun a b => a.time < b.time

def fetchOhlcRange (feed : Feed) (timeframe : String) (startTime endTime : ℤ) (limit : ℕ) :
    List Ohlc :=
  ((feed.rows timeframe).filter fun bar => startTime ≤ bar.time ∧ bar.time ≤ endTime).take limit

def fetchOhlcBefore (feed : Feed) (timeframe : String) (endTime : ℤ) (limit : ℕ) : List Ohlc :=
  ((feed.rows timeframe).filter fun bar => bar.time ≤ endTime).rtake limit

/-- `_MAX_QUERY_LIMIT`. -/
def maxQueryLimit : ℕ := 100000

def loadAllBars (feed : Feed) (timeframe : String) (startTime endTime : ℤ) : List Ohlc :=
  fetchOhlcRange feed timeframe startTime endTime maxQueryLimit

/-- The query includes a bar that opens at the start; it is dropped afterwards. -/
def preloadWarmupBars (feed : Feed) (timeframe : String) (startTime : ℤ) (warmupBars : ℕ) :
    List Ohlc :=
  (fetchOhlcBefore feed timeframe startTime warmupBars).filter fun bar => bar.time < startTime

/-- The warmup bars and the test bars, after the borrowing. -/
def borrowWarmup (warmupCount : ℕ) (warmupBars testBars : List Ohlc) : List Ohlc × List Ohlc :=
  if warmupBars.length < warmupCount ∧ warmupCount < testBars.length then
    let borrow := warmupCount - warmupBars.length
    (warmupBars ++ testBars.take borrow, testBars.drop borrow)
  else (warmupBars, testBars)

/-- `OptimizedPipeline.compute`: the timeframe, the bars and the wanted indicators, `none`
for all of them. It is empty where the call raises. -/
abbrev Pipeline := String → List Ohlc → Option (List String) → Snapshot

def computeIndicators (pipeline : Pipeline) (timeframe : String) (bars : List Ohlc)
    (names : Option (List String)) : Snapshot :=
  if bars.length < 2 then Dict.empty else pipeline timeframe bars names

/-- What follows the last `_d` of a metric. -/
def afterLastMark : List Char → Option (List Char)
  | [] => none
  | '_' :: 'd' :: rest => some ((afterLastMark rest).getD rest)
  | _ :: rest => afterLastMark rest

/-- A metric that is itself a delta, such as `rsi_d3`. -/
def isDeltaKey (metric : String) : Bool :=
  (afterLastMark metric.toList).any fun digits => digits ≠ [] ∧ digits.all Char.isDigit

def addDelta (delta : ℕ) (prev payload : Payload) : Payload :=
  payload.items.foldl
    (fun result item =>
      match item.2, prev.get? item.1 with
      | .number current, some (.number before) =>
        if isDeltaKey item.1 then result
        else result.set (item.1 ++ "_d" ++ toString delta) (.number (round (current - before) 6))
      | _, _ => result)
    payload

/-- The wanted deltas of each indicator, positive and increasing. -/
abbrev DeltaConfig := Dict String (List ℕ)

/-- One snapshot with its deltas, `earlier` being the snapshots before it. -/
def withDeltas (deltaConfig : DeltaConfig) (earlier : List Snapshot) (snapshot : Snapshot) :
    Snapshot :=
  snapshot.mapValues fun name payload =>
    payload.map fun fields =>
      ((deltaConfig.get? name).getD []).foldl
        (fun fields delta =>
          let prev := if delta ≤ earlier.length then earlier[earlier.length - delta]? else none
          match prev.bind fun before => before.get? name with
          | some (some prevFields) => addDelta delta prevFields fields
          | _ => fields)
        fields

/-- The snapshot of each position, before the deltas. -/
def rawSnapshots (pipeline : Pipeline) (timeframe : String) (names : List String)
    (warmupCount : ℕ) : List Ohlc → List Snapshot :=
  onFronts fun i seen => computeIndicators pipeline timeframe (seen.drop (i - warmupCount)) names

def precomputeAllIndicators (pipeline : Pipeline) (deltaConfig : DeltaConfig) (timeframe : String)
    (names : List String) (warmupCount : ℕ) (allBars : List Ohlc) : List Snapshot :=
  withHistory (withDeltas deltaConfig) (rawSnapshots pipeline timeframe names warmupCount allBars)

/-- `_TF_RANK`. -/
def timeframeRank : List (String × ℕ) :=
  [("M1", 1), ("M5", 2), ("M15", 3), ("M30", 4), ("H1", 5), ("H4", 6), ("D1", 7)]

/-- The higher timeframes of a timeframe, at most three ranks up. -/
def htfList (timeframe : String) : List String :=
  let current := (timeframeRank.lookup timeframe).getD 0
  (timeframeRank.filter fun p => current < p.2 ∧ p.2 ≤ current + 3).map Prod.fst

/-- A snapshot of a higher timeframe, with the bars it was computed from. -/
structure HtfEntry where
  time : ℤ
  window : List Ohlc
  snapshot : Snapshot

/-- All windows of this size. -/
def slidingWindows (size : ℕ) (bars : List Ohlc) : List (List Ohlc) :=
  (List.range (bars.length + 1 - size)).map fun k => (bars.take (size + k)).drop k

def htfEntry (pipeline : Pipeline) (timeframe : String) (window : List Ohlc) : Option HtfEntry :=
  let snapshot := computeIndicators pipeline timeframe window none
  match window.getLast? with
  | some last => if snapshot.items = [] then none else some ⟨last.time, window, snapshot⟩
  | none => none

/-- The default of `warmup_bars` in `preload_htf_indicators`. -/
def htfWarmupBars : ℕ := 200

def htfBars (feed : Feed) (startTime endTime : ℤ) (timeframe : String) : List Ohlc :=
  preloadWarmupBars feed timeframe startTime htfWarmupBars ++
    loadAllBars feed timeframe startTime endTime

/-- `window_size`. -/
def htfWindowSize (allHtf : List Ohlc) : ℕ := min htfWarmupBars allHtf.length

/-- The series of a timeframe with these bars. -/
def seriesOf (pipeline : Pipeline) (timeframe : String) (allHtf : List Ohlc) : List HtfEntry :=
  if allHtf.length < 2 then []
  else (slidingWindows (htfWindowSize allHtf) allHtf).filterMap (htfEntry pipeline timeframe)

def htfSeries (pipeline : Pipeline) (feed : Feed) (startTime endTime : ℤ) (timeframe : String) :
    List HtfEntry :=
  seriesOf pipeline timeframe (htfBars feed startTime endTime timeframe)

/-- `_htf_timeseries`; a timeframe without entries has no place in it. -/
def preloadHtfIndicators (pipeline : Pipeline) (feed : Feed) (startTime endTime : ℤ)
    (timeframes : List String) : List (String × List HtfEntry) :=
  (timeframes.map fun tf => (tf, htfSeries pipeline feed startTime endTime tf)).filter fun p =>
    p.2 ≠ []

/-- The entry that bisection finds: the last one that opened by the given time. -/
def entryAt (series : List HtfEntry) (barTime : ℤ) : Option HtfEntry :=
  (series.takeWhile fun entry => entry.time ≤ barTime).getLast?

def lookupHtfAtTime (timeseries : List (String × List HtfEntry)) (barTime : ℤ) :
    Dict String Snapshot :=
  timeseries.foldl
    (fun result p =>
      match entryAt p.2 barTime with
      | some entry => result.set p.1 entry.snapshot
      | none => result)
    Dict.empty

def buildChildBarIndex (parentTf : String) (childBars : List Ohlc) : Dict ℤ (List Ohlc) :=
  childBars.foldl
    (fun index bar =>
      let parentTime := alignParentBarTime parentTf bar.time
      index.set parentTime ((index.get? parentTime).getD [] ++ [bar]))
    Dict.empty

/-! What is loaded. -/

/-- A property that ends with time ends along the stored bars. -/
theorem Feed.fading (feed : Feed) (timeframe : String) {p : Ohlc → Bool}
    (hp : ∀ a b : Ohlc, a.time < b.time → p b = true → p a = true) :
    (feed.rows timeframe).Pairwise fun a b => p b = true → p a = true :=
  (feed.sorted timeframe).imp fun hab => hp _ _ hab

variable {timeframe : String} {feed : Feed} {endTime startTime : ℤ} {bar : Ohlc}

theorem mem_loadAllBars (h : bar ∈ loadAllBars feed timeframe startTime endTime) :
    bar ∈ feed.rows timeframe ∧ startTime ≤ bar.time ∧ bar.time ≤ endTime := by
  obtain ⟨hrow, hrange⟩ := List.mem_filter.mp (List.mem_of_mem_take h)
  exact ⟨hrow, of_decide_eq_true hrange⟩

theorem mem_preloadWarmupBars {warmupBars : ℕ}
    (h : bar ∈ preloadWarmupBars feed timeframe startTime warmupBars) :
    bar ∈ feed.rows timeframe ∧ bar.time < startTime := by
  obtain ⟨hfetched, hbefore⟩ := List.mem_filter.mp h
  rw [fetchOhlcBefore, List.rtake] at hfetched
  have hrow := List.mem_of_mem_drop hfetched
  exact ⟨(List.mem_filter.mp hrow).1, of_decide_eq_true hbefore⟩

/-- The loaded bars with a property come from the stored bars with it. -/
theorem filter_loadAllBars (feed : Feed) (timeframe : String) (startTime endTime : ℤ)
    {p : Ohlc → Bool} (hp : ∀ a b : Ohlc, a.time < b.time → p b = true → p a = true) :
    (loadAllBars feed timeframe startTime endTime).filter p =
      (((feed.rows timeframe).filter p).filter fun bar =>
        startTime ≤ bar.time ∧ bar.time ≤ endTime).take maxQueryLimit := by
  rw [loadAllBars, fetchOhlcRange, filter_take ((feed.fading timeframe hp).filter _),
    List.filter_filter, List.filter_filter]
  congr 2
  funext bar
  exact Bool.and_comm _ _

variable {other : Feed}

/-- The warmup bars are decided by the bars that open up to the start. -/
theorem preloadWarmupBars_congr
    (h : (feed.rows timeframe).filter (fun bar => bar.time ≤ startTime) =
      (other.rows timeframe).filter fun bar => bar.time ≤ startTime) (warmupBars : ℕ) :
    preloadWarmupBars feed timeframe startTime warmupBars =
      preloadWarmupBars other timeframe startTime warmupBars := by
  rw [preloadWarmupBars, fetchOhlcBefore, h, preloadWarmupBars, fetchOhlcBefore]

/-- At most one bar opens at a time. -/
theorem Feed.length_at_le (feed : Feed) (timeframe : String) (time : ℤ) :
    ((feed.rows timeframe).filter fun bar => bar.time = time).length ≤ 1 := by
  have hsorted := (feed.sorted timeframe).filter fun bar => bar.time = time
  have htime : ∀ bar ∈ (feed.rows timeframe).filter fun bar => bar.time = time,
      bar.time = time := fun bar hbar => of_decide_eq_true (List.mem_filter.mp hbar).2
  generalize (feed.rows timeframe).filter (fun bar => bar.time = time) = rows at hsorted htime ⊢
  rcases rows with _ | ⟨first, _ | ⟨second, rest⟩⟩
  · exact Nat.zero_le 1
  · exact Nat.le_refl 1
  · have hlt := (List.pairwise_cons.mp hsorted).1 second List.mem_cons_self
    have hfirst := htime first List.mem_cons_self
    have hsecond := htime second (List.mem_cons_of_mem first List.mem_cons_self)
    omega

/-- One bar fewer than wanted when a bar opens at the start, which the query counts. -/
theorem le_length_preloadWarmupBars {warmupBars : ℕ}
    (h : warmupBars ≤
      ((feed.rows timeframe).filter fun bar => bar.time < startTime).length) :
    warmupBars ≤ (preloadWarmupBars feed timeframe startTime warmupBars).length +
      ((feed.rows timeframe).filter fun bar => bar.time = startTime).length := by
  have hsorted : ((feed.rows timeframe).filter fun bar => bar.time ≤ startTime).Pairwise
      fun a b => decide (b.time < startTime) = true → decide (a.time < startTime) = true :=
    ((feed.sorted timeframe).filter _).imp fun {a b} hab hb => by
      rw [decide_eq_true_eq] at hb ⊢
      omega
  have hcut := filter_append_filter_not (p := fun bar : Ohlc => bar.time < startTime) hsorted
  rw [List.filter_filter, List.filter_filter] at hcut
  have hbefore : (feed.rows timeframe).filter (fun bar =>
      decide (bar.time < startTime) && decide (bar.time ≤ startTime)) =
      (feed.rows timeframe).filter fun bar => bar.time < startTime := by
    refine List.filter_congr fun bar _ => ?_
    rw [← Bool.decide_and]
    exact decide_eq_decide.mpr (by omega)
  have hat : (feed.rows timeframe).filter (fun bar =>
      (!decide (bar.time < startTime)) && decide (bar.time ≤ startTime)) =
      (feed.rows timeframe).filter fun bar => bar.time = startTime := by
    refine List.filter_congr fun bar _ => ?_
    rw [← decide_not, ← Bool.decide_and]
    exact decide_eq_decide.mpr (by omega)
  rw [hbefore, hat] at hcut
  rw [preloadWarmupBars, fetchOhlcBefore, List.rtake, ← hcut, List.length_append,
    List.drop_append, List.filter_append, List.length_append]
  have hall : (((feed.rows timeframe).filter fun bar => bar.time < startTime).drop
      (((feed.rows timeframe).filter fun bar => bar.time < startTime).length +
        ((feed.rows timeframe).filter fun bar => bar.time = startTime).length - warmupBars)).filter
      (fun bar => bar.time < startTime) =
      ((feed.rows timeframe).filter fun bar => bar.time < startTime).drop
      (((feed.rows timeframe).filter fun bar => bar.time < startTime).length +
        ((feed.rows timeframe).filter fun bar => bar.time = startTime).length - warmupBars) := by
    rw [List.filter_eq_self]
    intro bar hbar
    exact (List.mem_filter.mp (List.mem_of_mem_drop hbar)).2
  rw [hall, List.length_drop]
  omega

/-! What is computed from it. -/

theorem precomputeAllIndicators_causal (pipeline : Pipeline) (deltaConfig : DeltaConfig)
    (timeframe : String) (names : List String) (warmupCount : ℕ) :
    Causal (precomputeAllIndicators pipeline deltaConfig timeframe names warmupCount) :=
  Causal.comp (f := rawSnapshots pipeline timeframe names warmupCount)
    (g := withHistory (withDeltas deltaConfig)) (onFronts_causal _) (withHistory_causal _)

/-! The higher timeframes. -/

variable {size : ℕ}

theorem mem_slidingWindows {bars window : List Ohlc}
    (h : window ∈ slidingWindows size bars) (hbar : bar ∈ window) : bar ∈ bars := by
  obtain ⟨k, -, rfl⟩ := List.mem_map.mp h
  exact List.mem_of_mem_take (List.mem_of_mem_drop hbar)

/-- Further bars bring windows that end with one of them. -/
theorem slidingWindows_append (hsize : 0 < size) (bars later : List Ohlc) :
    ∃ windows, slidingWindows size (bars ++ later) = slidingWindows size bars ++ windows ∧
      ∀ window ∈ windows, ∃ last ∈ later, window.getLast? = some last := by
  obtain ⟨extra, hextra⟩ : ∃ extra, bars.length + later.length + 1 - size =
      (bars.length + 1 - size) + extra := ⟨_, (Nat.add_sub_cancel' (by omega)).symm⟩
  refine ⟨((List.range extra).map (bars.length + 1 - size + ·)).map fun k =>
    ((bars ++ later).take (size + k)).drop k, ?_, fun window hwindow => ?_⟩
  · rw [slidingWindows, List.length_append, hextra, List.range_add, List.map_append, slidingWindows]
    congr 1
    refine List.map_congr_left fun k hk => ?_
    have hlt := List.mem_range.mp hk
    rw [List.take_append_of_le_length (by omega)]
  · obtain ⟨k, hk, rfl⟩ := List.mem_map.mp hwindow
    obtain ⟨j, hj, rfl⟩ := List.mem_map.mp hk
    have hlt := List.mem_range.mp hj
    have hend : size + (bars.length + 1 - size + j) - 1 - bars.length < later.length := by omega
    refine ⟨later[size + (bars.length + 1 - size + j) - 1 - bars.length], List.getElem_mem hend, ?_⟩
    rw [List.getLast?_drop, if_neg (by rw [List.length_take, List.length_append]; omega),
      List.getLast?_take, if_neg (by omega), List.getElem?_append_right (by omega),
      List.getElem?_eq_getElem hend, Option.some_or]

variable {pipeline : Pipeline}

theorem htfEntry_eq_some {window : List Ohlc}
    {entry : HtfEntry} (h : htfEntry pipeline timeframe window = some entry) :
    entry.window = window ∧ ∃ last, window.getLast? = some last ∧ entry.time = last.time := by
  unfold htfEntry at h
  dsimp only at h
  split at h
  · rename_i last hlast
    split at h
    · cases h
    · cases Option.some.inj h
      exact ⟨rfl, last, hlast, rfl⟩
  · cases h

theorem htfBars_sorted (feed : Feed) (startTime endTime : ℤ) (timeframe : String) :
    (htfBars feed startTime endTime timeframe).Pairwise fun a b => a.time < b.time := by
  refine List.pairwise_append.mpr ⟨?_, ?_, fun a ha b hb => ?_⟩
  · rw [preloadWarmupBars, fetchOhlcBefore, List.rtake]
    exact (((feed.sorted timeframe).filter _).drop).filter _
  · exact ((feed.sorted timeframe).filter _).take
  · have hbefore := (mem_preloadWarmupBars ha).2
    have hafter := (mem_loadAllBars hb).2.1
    omega

/-- What is found at a time is the last entry of the bars that opened by then. -/
theorem entryAt_slidingWindows
    (hsize : 0 < size) {bars : List Ohlc} (hsorted : bars.Pairwise fun a b => a.time < b.time)
    (barTime : ℤ) :
    entryAt ((slidingWindows size bars).filterMap (htfEntry pipeline timeframe)) barTime =
      ((slidingWindows size (bars.filter fun bar => bar.time ≤ barTime)).filterMap
        (htfEntry pipeline timeframe)).getLast? := by
  have hfading : bars.Pairwise fun a b =>
      decide (b.time ≤ barTime) = true → decide (a.time ≤ barTime) = true := by
    refine hsorted.imp fun {a b} hab hb => ?_
    rw [decide_eq_true_eq] at hb ⊢
    omega
  obtain ⟨windows, hwindows, hlate⟩ := slidingWindows_append hsize
    (bars.filter fun bar => bar.time ≤ barTime) (bars.filter fun bar => !decide (bar.time ≤ barTime))
  rw [filter_append_filter_not hfading] at hwindows
  have hnone : (windows.filterMap (htfEntry pipeline timeframe)).takeWhile
      (fun entry => entry.time ≤ barTime) = [] := by
    rw [List.takeWhile_eq_nil_iff]
    intro hpos hle
    obtain ⟨window, hwindow, hentry⟩ := List.mem_filterMap.mp (List.getElem_mem hpos)
    obtain ⟨-, last, hlast, htime⟩ := htfEntry_eq_some hentry
    obtain ⟨later, hlater, hsame⟩ := hlate window hwindow
    cases Option.some.inj (hlast.symm.trans hsame)
    have hafter := (List.mem_filter.mp hlater).2
    rw [decide_eq_true_eq] at hle
    rw [Bool.not_eq_true', decide_eq_false_iff_not, ← htime] at hafter
    exact hafter hle
  rw [entryAt, hwindows, List.filterMap_append, List.takeWhile_append_of_pos, hnone,
    List.append_nil]
  intro entry hentry
  obtain ⟨window, hwindow, hfound⟩ := List.mem_filterMap.mp hentry
  obtain ⟨-, last, hlast, htime⟩ := htfEntry_eq_some hfound
  have hmem := mem_slidingWindows hwindow (List.mem_of_getLast? hlast)
  rw [htime]
  exact (List.mem_filter.mp hmem).2

theorem mem_htfBars
    (h : bar ∈ htfBars feed startTime endTime timeframe) : bar ∈ feed.rows timeframe := by
  rcases List.mem_append.mp h with hwarmup | htest
  · exact (mem_preloadWarmupBars hwarmup).1
  · exact (mem_loadAllBars htest).1

/-- With enough bars before the start the windows have their full size. -/
theorem htfWindowSize_eq
    (hwarmup : htfWarmupBars ≤
      ((feed.rows timeframe).filter fun bar => bar.time < startTime).length)
    (hrange : startTime ≤ endTime) :
    htfWindowSize (htfBars feed startTime endTime timeframe) = htfWarmupBars := by
  have hbefore := le_length_preloadWarmupBars hwarmup
  have hone := feed.length_at_le timeframe startTime
  have hat : ((feed.rows timeframe).filter fun bar => bar.time = startTime).length ≤
      (loadAllBars feed timeframe startTime endTime).length := by
    have hloaded := filter_loadAllBars feed timeframe startTime endTime
      (p := fun bar => bar.time ≤ startTime) fun a b hab hb => by
        rw [decide_eq_true_eq] at hb ⊢
        omega
    have hsame : ((feed.rows timeframe).filter fun bar => bar.time ≤ startTime).filter
        (fun bar => startTime ≤ bar.time ∧ bar.time ≤ endTime) =
        (feed.rows timeframe).filter fun bar => bar.time = startTime := by
      rw [List.filter_filter]
      refine List.filter_congr fun bar _ => ?_
      rw [← Bool.decide_and]
      exact decide_eq_decide.mpr (by omega)
    rw [hsame, List.take_of_length_le (hone.trans (by decide))] at hloaded
    rw [← hloaded]
    exact List.length_filter_le _ _
  rw [htfWindowSize, htfBars, List.length_append]
  omega

variable {barTime : ℤ}

theorem filter_htfBars_congr
    (h : (feed.rows timeframe).filter (fun bar => bar.time ≤ barTime) =
      (other.rows timeframe).filter fun bar => bar.time ≤ barTime) (hstart : startTime ≤ barTime) :
    (htfBars feed startTime endTime timeframe).filter (fun bar => bar.time ≤ barTime) =
      (htfBars other startTime endTime timeframe).filter fun bar => bar.time ≤ barTime := by
  have hwarmup : preloadWarmupBars feed timeframe startTime htfWarmupBars =
      preloadWarmupBars other timeframe startTime htfWarmupBars := by
    refine preloadWarmupBars_congr (filter_eq_of_imp h ?_ ?_) htfWarmupBars
    · intro bar _ hbar
      rw [decide_eq_true_eq] at hbar ⊢
      omega
    · intro bar _ hbar
      rw [decide_eq_true_eq] at hbar ⊢
      omega
  have hfading : ∀ a b : Ohlc, a.time < b.time → decide (b.time ≤ barTime) = true →
      decide (a.time ≤ barTime) = true := fun a b hab hb => by
    rw [decide_eq_true_eq] at hb ⊢
    omega
  rw [htfBars, htfBars, List.filter_append, List.filter_append, hwarmup,
    filter_loadAllBars feed timeframe startTime endTime hfading,
    filter_loadAllBars other timeframe startTime endTime hfading, h]

/-- The window of the entry that is found has no bar that opens later. -/
theorem window_of_entryAt {entry : HtfEntry}
    (h : entryAt (htfSeries pipeline feed startTime endTime timeframe) barTime = some entry)
    (hbar : bar ∈ entry.window) : bar ∈ feed.rows timeframe ∧ bar.time ≤ barTime := by
  unfold htfSeries seriesOf at h
  split at h
  · cases h
  · rename_i hlength
    have hsize : 0 < htfWindowSize (htfBars feed startTime endTime timeframe) := by
      rw [htfWindowSize, htfWarmupBars]
      omega
    rw [entryAt_slidingWindows hsize (htfBars_sorted feed startTime endTime timeframe)] at h
    obtain ⟨window, hwindow, hentry⟩ := List.mem_filterMap.mp (List.mem_of_getLast? h)
    rw [(htfEntry_eq_some hentry).1] at hbar
    obtain ⟨hloaded, hopened⟩ := List.mem_filter.mp (mem_slidingWindows hwindow hbar)
    exact ⟨mem_htfBars hloaded, of_decide_eq_true hopened⟩

/-- What is found at a time is decided by the bars that opened by then. -/
theorem entryAt_htfSeries_congr
    (hwarmup : htfWarmupBars ≤
      ((feed.rows timeframe).filter fun bar => bar.time < startTime).length)
    (hother : htfWarmupBars ≤
      ((other.rows timeframe).filter fun bar => bar.time < startTime).length)
    (h : (feed.rows timeframe).filter (fun bar => bar.time ≤ barTime) =
      (other.rows timeframe).filter fun bar => bar.time ≤ barTime)
    (hstart : startTime ≤ barTime) (hend : barTime ≤ endTime) :
    entryAt (htfSeries pipeline feed startTime endTime timeframe) barTime =
      entryAt (htfSeries pipeline other startTime endTime timeframe) barTime := by
  have hseries {feed : Feed} (hwarmup : htfWarmupBars ≤
      ((feed.rows timeframe).filter fun bar => bar.time < startTime).length) :
      entryAt (htfSeries pipeline feed startTime endTime timeframe) barTime =
        ((slidingWindows htfWarmupBars ((htfBars feed startTime endTime timeframe).filter
          fun bar => bar.time ≤ barTime)).filterMap (htfEntry pipeline timeframe)).getLast? := by
    have hsize := htfWindowSize_eq hwarmup (hstart.trans hend)
    have hlength : ¬(htfBars feed startTime endTime timeframe).length < 2 := by
      rw [htfWindowSize, htfWarmupBars] at hsize
      omega
    unfold htfSeries seriesOf
    rw [if_neg hlength, hsize,
      entryAt_slidingWindows (by decide) (htfBars_sorted feed startTime endTime timeframe)]
  rw [hseries hwarmup, hseries hother, filter_htfBars_congr h hstart]

/-- A timeframe without entries is not missed. -/
theorem lookup_preloadHtfIndicators (pipeline : Pipeline) (feed : Feed) (startTime endTime : ℤ)
    (timeframes : List String) (barTime : ℤ) :
    lookupHtfAtTime (preloadHtfIndicators pipeline feed startTime endTime timeframes) barTime =
      timeframes.foldl
        (fun result tf =>
          match entryAt (htfSeries pipeline feed startTime endTime tf) barTime with
          | some entry => result.set tf entry.snapshot
          | none => result)
        Dict.empty := by
  unfold lookupHtfAtTime preloadHtfIndicators
  generalize (Dict.empty : Dict String Snapshot) = found
  induction timeframes generalizing found with
  | nil => rfl
  | cons tf rest ih =>
    rw [List.map_cons, List.foldl_cons]
    by_cases hempty : htfSeries pipeline feed startTime endTime tf = []
    · rw [List.filter_cons_of_neg (by simp [hempty]), ih, hempty]
      rfl
    · rw [List.filter_cons_of_pos (by simp [hempty]), List.foldl_cons, ih]

/-- A main bar finds the child bars that its interval holds. -/
theorem getD_buildChildBarIndex (parentTf : String) (childBars : List Ohlc) (parentTime : ℤ) :
    ((buildChildBarIndex parentTf childBars).get? parentTime).getD [] =
      childBars.filter fun child => alignParentBarTime parentTf child.time = parentTime := by
  induction childBars using List.reverseRecOn with
  | nil => rfl
  | append_singleton front child ih =>
    rw [buildChildBarIndex, List.foldl_append, List.foldl_cons, List.foldl_nil,
      ← buildChildBarIndex, List.filter_append, Dict.get?_set]
    by_cases htime : parentTime = alignParentBarTime parentTf child.time
    · rw [if_pos htime, Option.getD_some, ← htime, ih,
        List.filter_singleton, decide_eq_true htime.symm, cond_true]
    · rw [if_neg htime, ih, List.filter_singleton, decide_eq_false (Ne.symm htime), cond_false,
        List.append_nil]

end MT5Services.BacktestData
