import MT5Services.Dict
import MT5Services.MarketData
import MT5Services.Prefixes

/-!
Closed-bar events of one symbol and timeframe. The single path reads the last
`get_max_lookback` bars up to its bar; a batch reads one window, longer by the number of
its events and ending at its last event, and cuts the bars of every event out of it. Only
an event outside the window is read on its own.
-/
namespace MT5Services.BarBatches

open MarketData Windows

variable {Time Value : Type*}

structure IndicatorConfig where
  name : String
  /-- `int` of the parameters. -/
  params : Dict String ℤ

def historyKeys : List String :=
  ["min_bars", "period", "slow", "signal", "fast", "atr_period", "k_period", "d_period", "lookback"]

def indicatorHistoryRequirement (config : IndicatorConfig) : ℕ :=
  (historyKeys.map fun key => ((config.params.get? key).getD 0).toNat).foldl max 2

/-- `reqs.get(name, 2)`; a later config of the same name replaces an earlier one. -/
def requirement (configs : List IndicatorConfig) (name : String) : ℕ :=
  match (configs.filter (·.name = name)).getLast? with
  | some config => indicatorHistoryRequirement config
  | none => 2

def resolveIndicatorNames (configs : List IndicatorConfig) (indicatorNames : Option (List String)) :
    List String :=
  indicatorNames.getD (configs.map IndicatorConfig.name)

def selectIndicatorNamesForHistory (configs : List IndicatorConfig) (availableBars : ℕ)
    (indicatorNames : Option (List String)) : List String :=
  (resolveIndicatorNames configs indicatorNames).filter fun name =>
    requirement configs name ≤ availableBars

/-- Zero without indicators. -/
def getMaxLookback (configs : List IndicatorConfig) : ℕ :=
  (configs.map fun config => requirement configs config.name).foldl max 0

/-- The eligible names are those of `set_confirmed_eligible_override`, which keeps registered
names only. The pipeline computes the selected indicators on the bars; a result without
entries counts as none. -/
structure Manager (Time Value : Type*) where
  configs : List IndicatorConfig
  confirmedEligible : Option (List String) := none
  registered : ∀ names ∈ confirmedEligible, names ⊆ configs.map IndicatorConfig.name
  pipeline : List Time → List String → List Value

def Manager.lookback (m : Manager Time Value) : ℕ := getMaxLookback m.configs

/-- What `compute_results_with_priority_groups` asks of the pipeline. -/
def request (m : Manager Time Value) (bars : List Time) : Option (List Time × List String) :=
  if bars.length < 2 then none
  else
    let selected := selectIndicatorNamesForHistory m.configs bars.length m.confirmedEligible
    if selected = [] then none else some (bars, selected)

/-- The bars and results that are written back for a request. -/
def writtenBack (m : Manager Time Value) (asked : Option (List Time × List String)) :
    Option (List Time × List Value) :=
  asked.bind fun (bars, names) =>
    if (m.pipeline bars names).isEmpty then none else some (bars, m.pipeline bars names)

/-- An event is skipped before the pipeline when no indicator at all fits its bars. -/
def askedFor (m : Manager Time Value) (bars : List Time) : Option (List Time × List String) :=
  if selectIndicatorNamesForHistory m.configs bars.length none = [] then none else request m bars

/-- Some eligible indicator can be computed on as many bars. -/
def Computes (m : Manager Time Value) (available : ℕ) : Prop :=
  2 ≤ available ∧ selectIndicatorNamesForHistory m.configs available m.confirmedEligible ≠ []

instance (m : Manager Time Value) (available : ℕ) : Decidable (Computes m available) :=
  inferInstanceAs (Decidable (_ ∧ _))

section Requests

variable {m : Manager Time Value}

theorem request_eq_none {bars : List Time} : request m bars = none ↔ ¬ Computes m bars.length := by
  unfold request Computes
  by_cases hlength : bars.length < 2
  · rw [if_pos hlength]
    exact ⟨fun _ h => absurd h.1 (by omega), fun _ => rfl⟩
  · rw [if_neg hlength]
    have htwo : 2 ≤ bars.length := by omega
    by_cases hselected :
        selectIndicatorNamesForHistory m.configs bars.length m.confirmedEligible = []
    · simp [hselected]
    · simp [hselected, htwo]

theorem request_bars {bars : List Time} {asked : List Time × List String}
    (h : request m bars = some asked) : asked.1 = bars := by
  unfold request at h
  split at h
  · cases h
  · dsimp only at h
    split at h
    · cases h
    · cases h
      rfl

theorem select_mono {configs : List IndicatorConfig} {names : Option (List String)} {fewer more : ℕ}
    (h : fewer ≤ more) (hnone : selectIndicatorNamesForHistory configs more names = []) :
    selectIndicatorNamesForHistory configs fewer names = [] := by
  rw [selectIndicatorNamesForHistory, List.filter_eq_nil_iff] at hnone ⊢
  intro name hname
  have hmore := hnone name hname
  simp only [decide_eq_true_eq] at hmore ⊢
  omega

theorem Computes.mono {fewer more : ℕ} (h : fewer ≤ more) (hfewer : Computes m fewer) :
    Computes m more :=
  ⟨hfewer.1.trans h, fun hnone => hfewer.2 (select_mono h hnone)⟩

/-- The check a batch makes first adds nothing: the eligible names are registered ones. -/
theorem askedFor_eq_request (bars : List Time) : askedFor m bars = request m bars := by
  by_cases hnone : selectIndicatorNamesForHistory m.configs bars.length none = []
  · rw [askedFor, if_pos hnone]
    symm
    rw [request_eq_none]
    rintro ⟨-, hselected⟩
    apply hselected
    rw [selectIndicatorNamesForHistory, List.filter_eq_nil_iff] at hnone ⊢
    intro name hname
    refine hnone name ?_
    unfold resolveIndicatorNames at hname ⊢
    cases hnames : m.confirmedEligible with
    | none =>
      rw [hnames] at hname
      exact hname
    | some names =>
      rw [hnames] at hname
      exact m.registered names hnames hname
  · rw [askedFor, if_neg hnone]

/-- Fewer bars ask for the same only where nothing is computed on the more. -/
theorem request_eq_iff {fewer more : List Time} (h : fewer.length < more.length) :
    request m fewer = request m more ↔ ¬ Computes m more.length := by
  constructor
  · intro heq hcomputes
    cases hmore : request m more with
    | none => exact request_eq_none.mp hmore hcomputes
    | some asked =>
      have hsame : fewer = more := by
        rw [← request_bars (heq.trans hmore), request_bars hmore]
      rw [hsame] at h
      exact lt_irrefl _ h
  · intro hnone
    have hfewer : ¬ Computes m fewer.length := fun hcomputes => hnone (hcomputes.mono h.le)
    rw [request_eq_none.mpr hnone, request_eq_none.mpr hfewer]

theorem le_foldl_max (values : List ℕ) (floor : ℕ) :
    floor ≤ values.foldl max floor ∧ ∀ value ∈ values, value ≤ values.foldl max floor :=
  Prefixes.foldl_bound le_refl (fun _ _ _ => le_trans) le_max_left le_max_right floor values

theorem two_le_requirement (configs : List IndicatorConfig) (name : String) :
    2 ≤ requirement configs name := by
  unfold requirement
  split
  · exact (le_foldl_max _ 2).1
  · exact le_refl 2

/-- Without a lookback there are no indicators. -/
theorem not_computes_of_lookback (h : m.lookback = 0) (available : ℕ) : ¬ Computes m available := by
  have hconfigs : m.configs = [] := by
    by_contra hne
    obtain ⟨config, rest, hcons⟩ := List.exists_cons_of_ne_nil hne
    have hle : requirement m.configs config.name ≤ m.lookback := by
      refine (le_foldl_max _ 0).2 _ ?_
      rw [hcons]
      exact List.mem_map.mpr ⟨config, List.mem_cons_self, rfl⟩
    have := two_le_requirement m.configs config.name
    omega
  rintro ⟨-, hselected⟩
  apply hselected
  have hnames : resolveIndicatorNames m.configs m.confirmedEligible = [] := by
    unfold resolveIndicatorNames
    cases hnames : m.confirmedEligible with
    | none => rw [hconfigs]; rfl
    | some names =>
      have hsub := m.registered names hnames
      rw [hconfigs] at hsub
      exact List.eq_nil_of_subset_nil hsub
  rw [selectIndicatorNamesForHistory, hnames, List.filter_nil]

end Requests

variable [LinearOrder Time]

def loadConfirmedBars (m : Manager Time Value) (service : Service Time) (barTime : Time) :
    List Time × Service Time :=
  if m.lookback = 0 then ([], service)
  else
    let (answer, updated) := service.getOhlcWindow barTime m.lookback false true
    let bars := answer.getD []
    if bars.getLast? = some barTime then (bars, updated) else ([], updated)

/-- The single path: what it asks of the pipeline. -/
def processClosedBarEvent (m : Manager Time Value) (service : Service Time) (barTime : Time) :
    Option (List Time × List String) × Service Time :=
  let (bars, updated) := loadConfirmedBars m service barTime
  (if bars = [] then none else request m bars, updated)

/-- An event of a batch: the service at its turn and what was asked of the pipeline. -/
structure Processed (Time : Type*) [LinearOrder Time] where
  barTime : Time
  service : Service Time
  asked : Option (List Time × List String)

/-- The bars of an event, `none` where its bar is missing. -/
def prefixOf (m : Manager Time Value) (window : List Time) (service : Service Time)
    (barTime : Time) : Option (List Time) × Service Time :=
  if barTime ∈ window then
    (some (lastItems (window.take (window.idxOf barTime + 1)) m.lookback), service)
  else
    let (bars, updated) := loadConfirmedBars m service barTime
    (if bars.getLast? = some barTime then some bars else none, updated)

def processEvents (m : Manager Time Value) (window : List Time) :
    Service Time → List Time → List (Processed Time)
  | _, [] => []
  | service, barTime :: rest =>
    let (bars, updated) := prefixOf m window service barTime
    ⟨barTime, service, bars.bind (askedFor m)⟩ :: processEvents m window updated rest

def processSymbolTimeframeBatch (m : Manager Time Value) (service : Service Time)
    (events : List Time) : List (Processed Time) :=
  match events.getLast? with
  | none => []
  | some latest =>
    let (answer, updated) :=
      service.getOhlcWindow latest (m.lookback + events.length) false true
    processEvents m (answer.getD []) updated events

/-- The events of one symbol and timeframe are taken in the order of their bar times. -/
def processClosedBarEventsBatch (m : Manager Time Value) (service : Service Time)
    (events : List Time) : List (Processed Time) :=
  processSymbolTimeframeBatch m service (events.insertionSort (· ≤ ·))

/-- The event asks the pipeline for what the single path would have asked at its turn, and
writes back the same. -/
def SameAsSingle (m : Manager Time Value) (entry : Processed Time) : Prop :=
  entry.asked = (processClosedBarEvent m entry.service entry.barTime).1 ∧
    writtenBack m entry.asked =
      writtenBack m (processClosedBarEvent m entry.service entry.barTime).1

instance [DecidableEq Value] (m : Manager Time Value) (entry : Processed Time) :
    Decidable (SameAsSingle m entry) :=
  inferInstanceAs (Decidable (_ ∧ _))

/-- The bars of the history up to a time, and after one time up to another. -/
def barsUpTo (history : Table Time) (barTime : Time) : List Time :=
  history.rows.filter (· ≤ barTime)

def barsBetween (history : Table Time) (barTime latest : Time) : List Time :=
  (barsUpTo history latest).filter (barTime < ·)

/-- The window reaches back far enough for the event, or not to the event at all, or there is
nothing to compute at it. -/
def Reaches (m : Manager Time Value) (history : Table Time) (count : ℕ) (latest barTime : Time) :
    Prop :=
  (barsUpTo history latest).length ≤ m.lookback + count ∨
    (barsBetween history barTime latest).length ≤ count ∨
    m.lookback + count ≤ (barsBetween history barTime latest).length ∨
    ¬ Computes m (min m.lookback (barsUpTo history barTime).length)

instance (m : Manager Time Value) (history : Table Time) (count : ℕ) (latest barTime : Time) :
    Decidable (Reaches m history count latest barTime) :=
  inferInstanceAs (Decidable (_ ∨ _))

section Batch

variable {m : Manager Time Value} {history : Table Time} {latest : Time} {window : List Time}

theorem barsUpTo_sorted (history : Table Time) (barTime : Time) :
    (barsUpTo history barTime).Pairwise (· < ·) := history.sorted.filter _

theorem mem_barsUpTo {barTime bar : Time} :
    bar ∈ barsUpTo history barTime ↔ bar ∈ history.rows ∧ bar ≤ barTime := by
  rw [barsUpTo, List.mem_filter, decide_eq_true_eq]

theorem barsUpTo_subset {barTime later : Time} (h : barTime ≤ later) :
    barsUpTo history barTime ⊆ barsUpTo history later := by
  intro bar hbar
  obtain ⟨hrow, hle⟩ := mem_barsUpTo.mp hbar
  exact mem_barsUpTo.mpr ⟨hrow, hle.trans h⟩

variable {barTime : Time}

theorem barsUpTo_filter (hle : barTime ≤ latest) :
    (barsUpTo history latest).filter (· ≤ barTime) = barsUpTo history barTime := by
  rw [barsUpTo, barsUpTo, List.filter_filter]
  refine List.filter_congr fun bar _ => ?_
  simp only [← Bool.decide_and, decide_eq_decide]
  exact ⟨fun h => h.1, fun h => ⟨h, h.trans hle⟩⟩

theorem length_barsUpTo (history : Table Time) (hle : barTime ≤ latest) :
    (barsUpTo history latest).length =
      (barsUpTo history barTime).length + (barsBetween history barTime latest).length := by
  have hsplit := congrArg List.length (split_at (barsUpTo_sorted history latest) barTime)
  rw [List.length_append, barsUpTo_filter hle] at hsplit
  exact hsplit.symm

/-- The cache during a batch: it holds the whole window, or it is full and has no hole up to the
latest bar. -/
structure Steady (history : Table Time) (latest : Time) (window : List Time)
    (service : Service Time) : Prop where
  table : service.stored = history
  sorted : service.cached.Pairwise (· < ·)
  known : service.cached ⊆ history.rows
  covers : window ⊆ service.cached ∨
    (0 < service.settings.keepLimit ∧ service.settings.keepLimit ≤ service.cached.length ∧
      ∀ bar ∈ service.cached, ∀ later ∈ barsUpTo history latest, bar ≤ later →
        later ∈ service.cached)

/-- Trimming bars that hold the window, or a hole-free full cache, keeps either. -/
theorem covers_of_trim {merged : List Time} {keep : ℕ} (hsorted : merged.Pairwise (· < ·))
    (hwindow : window <:+ barsUpTo history latest) (hholds : window ⊆ merged) :
    window ⊆ lastItems merged keep ∨
      (0 < keep ∧ keep ≤ (lastItems merged keep).length ∧
        ∀ bar ∈ lastItems merged keep, ∀ later ∈ barsUpTo history latest, bar ≤ later →
          later ∈ lastItems merged keep) := by
  by_cases hall : window ⊆ lastItems merged keep
  · exact Or.inl hall
  · obtain ⟨lost, hlost, hout⟩ : ∃ lost ∈ window, lost ∉ lastItems merged keep := by
      by_contra hnone
      push Not at hnone
      exact hall hnone
    have hpos : 0 < keep := by
      rcases Nat.eq_zero_or_pos keep with rfl | hpos
      · exact absurd (hholds hlost) hout
      · exact hpos
    have hfull : keep ≤ (lastItems merged keep).length := by
      rw [lastItems_of_pos _ hpos] at hout ⊢
      rw [length_rtake]
      by_contra hshort
      have hwhole : merged.rtake keep = merged := rtake_of_length_le (by omega)
      exact hout (hwhole.symm ▸ hholds hlost)
    refine Or.inr ⟨hpos, hfull, ?_⟩
    intro bar hbar later hlater hle
    have hkept := lastItems_suffix merged keep
    have hafter : lost ≤ bar := by
      rcases le_total bar lost with hbefore | hafter
      · exact absurd (upper_of_suffix hsorted hkept hbar (hholds hlost) hbefore) hout
      · exact hafter
    have hin : later ∈ window :=
      upper_of_suffix (barsUpTo_sorted history latest) hwindow hlost hlater (hafter.trans hle)
    exact upper_of_suffix hsorted hkept hbar (hholds hin) hle

/-- A bar the trim keeps has fewer than `keep` kept bars after it, so a full cache before it
has a bar not later than it. -/
theorem exists_le_of_kept {merged cached : List Time} {keep : ℕ} (hpos : 0 < keep)
    (hsorted : merged.Pairwise (· < ·)) (hcached : cached.Pairwise (· < ·))
    (hsub : cached ⊆ merged) (hfull : keep ≤ cached.length) {bar : Time}
    (hbar : bar ∈ lastItems merged keep) : ∃ earlier ∈ cached, earlier ≤ bar := by
  by_contra hnone
  push Not at hnone
  rw [lastItems_of_pos _ hpos] at hbar
  have hfew := ((mem_rtake_iff hsorted).mp hbar).2
  have hafter : cached ⊆ merged.filter (bar < ·) := by
    intro later hlater
    exact List.mem_filter.mpr ⟨hsub hlater, decide_eq_true (hnone later hlater)⟩
  have := (sublist_of_subset hcached (hsorted.filter _) hafter).length_le
  omega

variable {service : Service Time}

theorem Steady.merge (h : Steady history latest window service)
    (hwindow : window <:+ barsUpTo history latest) {bars : List Time}
    (hbars : bars ⊆ barsUpTo history latest) :
    Steady history latest window (service.setOhlcClosed bars) := by
  by_cases hempty : bars = []
  · rw [Service.setOhlcClosed, if_pos hempty]
    exact h
  · have hsorted := mergeSorted_sorted service.cached bars
    have hheld : service.cached ⊆ mergeSorted service.cached bars :=
      fun bar hbar => mem_mergeSorted.mpr (Or.inl hbar)
    have hkept := lastItems_suffix (mergeSorted service.cached bars) service.settings.keepLimit
    rw [Service.setOhlcClosed, if_neg hempty]
    refine ⟨h.table, hsorted.sublist hkept.sublist, ?_, ?_⟩
    · intro bar hbar
      rcases mem_mergeSorted.mp (hkept.mem hbar) with hold | hnew
      · exact h.known hold
      · exact (mem_barsUpTo.mp (hbars hnew)).1
    · rcases h.covers with hholds | ⟨hpos, hfull, hupper⟩
      · exact covers_of_trim hsorted hwindow (List.Subset.trans hholds hheld)
      · refine Or.inr ⟨hpos, ?_, ?_⟩
        · change service.settings.keepLimit ≤ (lastItems _ _).length
          have hlonger := (sublist_of_subset h.sorted hsorted hheld).length_le
          rw [lastItems_of_pos _ hpos, length_rtake]
          omega
        · intro bar hbar later hlater hle
          obtain ⟨earlier, hearlier, hbefore⟩ :=
            exists_le_of_kept hpos hsorted h.sorted hheld hfull hbar
          have hcached := hupper earlier hearlier later hlater (hbefore.trans hle)
          exact upper_of_suffix hsorted hkept hbar (hheld hcached) hle

/-- The service after a single read. -/
theorem Steady.load (h : Steady history latest window service)
    (hwindow : window <:+ barsUpTo history latest) (hle : barTime ≤ latest) :
    Steady history latest window (loadConfirmedBars m service barTime).2 := by
  have hread : Steady history latest window
      (service.getOhlcWindow barTime m.lookback false true).2 := by
    rw [Service.getOhlcWindow]
    by_cases hserved : Served service barTime m.lookback
    · rw [if_pos hserved]
      exact h
    · rw [if_neg hserved, if_neg (by simp)]
      have hknown : service.stored.fetchOhlcBefore barTime m.lookback ⊆ barsUpTo history latest := by
        intro bar hbar
        rw [Table.fetchOhlcBefore, h.table] at hbar
        exact barsUpTo_subset hle ((rtake_suffix _ _).mem hbar)
      have hmerged := h.merge hwindow hknown
      dsimp only
      split <;> exact hmerged
  unfold loadConfirmedBars
  split
  · exact h
  · dsimp only
    split <;> exact hread

/-- What the single path loads for a stored bar. -/
theorem load_stored (htable : service.stored = history)
    (hstored : barTime ∈ history.rows) (hpos : 0 < m.lookback) :
    (loadConfirmedBars m service barTime).1 =
      if Served service barTime m.lookback then (cachedWindow service barTime).rtake m.lookback
      else (barsUpTo history barTime).rtake m.lookback := by
  have hrows : barTime ∈ service.stored.rows := by rwa [htable]
  unfold loadConfirmedBars
  rw [if_neg (by omega), getOhlcWindow_stored hrows hpos]
  by_cases hserved : Served service barTime m.lookback
  · have hlast : ((cachedWindow service barTime).rtake m.lookback).getLast? = some barTime := by
      rw [rtake_eq_concat hpos hserved.1, List.getLast?_concat]
    rw [if_pos hserved, if_pos hserved]
    dsimp only [Option.getD_some]
    rw [if_pos hlast]
  · rw [if_neg hserved, if_neg hserved]
    dsimp only [Option.getD_some]
    rw [if_pos (fetchOhlcBefore_last hrows hpos), Table.fetchOhlcBefore, htable]
    rfl

/-- The single path only ever computes on bars that end at its own. -/
theorem load_last (service : Service Time) (barTime : Time) :
    (loadConfirmedBars m service barTime).1 = [] ∨
      (loadConfirmedBars m service barTime).1.getLast? = some barTime := by
  unfold loadConfirmedBars
  split
  · exact Or.inl rfl
  · dsimp only
    split
    · exact Or.inr ‹_›
    · exact Or.inl rfl

/-- An event outside the window is read on its own. -/
theorem same_of_not_mem (h : barTime ∉ window) :
    SameAsSingle m ⟨barTime, service, (prefixOf m window service barTime).1.bind (askedFor m)⟩ := by
  have hasked : (prefixOf m window service barTime).1.bind (askedFor m) =
      (processClosedBarEvent m service barTime).1 := by
    rw [prefixOf, if_neg h, processClosedBarEvent]
    dsimp only
    rcases load_last (m := m) service barTime with hempty | hlast
    · rw [hempty, List.getLast?_nil, if_neg (by simp), if_pos rfl, Option.bind_none]
    · have hbars : (loadConfirmedBars m service barTime).1 ≠ [] := by
        intro hempty
        rw [hempty, List.getLast?_nil] at hlast
        cases hlast
      rw [if_pos hlast, if_neg hbars, Option.bind_some, askedFor_eq_request]
  exact ⟨hasked, congrArg (writtenBack m) hasked⟩

variable {count : ℕ}

/-- The bars a batch cuts out of its window for an event in it. -/
theorem prefix_of_mem
    (hwindow : window = (barsUpTo history latest).rtake count) (hmem : barTime ∈ window)
    (hpos : 0 < m.lookback) : prefixOf m window service barTime =
      (some (((barsUpTo history barTime).rtake
        (count - (barsBetween history barTime latest).length)).rtake m.lookback), service) := by
  have hsuffix : window <:+ barsUpTo history latest := hwindow ▸ rtake_suffix _ _
  have hsorted : window.Pairwise (· < ·) :=
    (barsUpTo_sorted history latest).sublist hsuffix.sublist
  have hle : barTime ≤ latest := (mem_barsUpTo.mp (hsuffix.mem hmem)).2
  rw [prefixOf, if_pos hmem, take_idxOf hsorted hmem, lastItems_of_pos _ hpos, hwindow,
    filter_rtake (barsUpTo_sorted history latest), barsUpTo_filter hle]
  rfl

theorem single_eq_request (service : Service Time) (barTime : Time) :
    (processClosedBarEvent m service barTime).1 =
      request m (loadConfirmedBars m service barTime).1 := by
  unfold processClosedBarEvent
  by_cases hbars : (loadConfirmedBars m service barTime).1 = []
  · dsimp only
    rw [if_pos hbars, hbars]
    rfl
  · exact if_neg hbars

/-- Where the batch's bars are all the single path could have, it loads the same. -/
theorem load_of_reached {near : ℕ}
    (hsteady : Steady history latest window service) (hpos : 0 < m.lookback)
    (hstored : barTime ∈ history.rows) (hle : barTime ≤ latest)
    (hnear : window.filter (· ≤ barTime) = (barsUpTo history barTime).rtake near)
    (hreach : ((barsUpTo history barTime).rtake near).rtake m.lookback =
      (barsUpTo history barTime).rtake m.lookback) :
    (loadConfirmedBars m service barTime).1 = (barsUpTo history barTime).rtake m.lookback := by
  rw [load_stored hsteady.table hstored hpos]
  split
  · have hserved := ‹Served service barTime m.lookback›
    have hsorted : (cachedWindow service barTime).Pairwise (· < ·) := hsteady.sorted.filter _
    have hsub : cachedWindow service barTime ⊆ barsUpTo history barTime :=
      List.filter_subset _ hsteady.known
    rcases hsteady.covers with hholds | ⟨-, -, hupper⟩
    · refine rtake_of_window_subset hsorted (barsUpTo_sorted history barTime) hsub ?_
      intro bar hbar
      rw [← hreach, ← hnear] at hbar
      obtain ⟨hwindow, hbefore⟩ := List.mem_filter.mp ((rtake_suffix _ _).mem hbar)
      exact List.mem_filter.mpr ⟨hholds hwindow, hbefore⟩
    · refine rtake_of_suffix
        (suffix_of_upper hsorted (barsUpTo_sorted history barTime) hsub ?_) hserved.2
      intro bar hbar later hlater hbefore
      have hcached := hupper bar (List.mem_filter.mp hbar).1 later
        (barsUpTo_subset hle hlater) hbefore
      exact List.mem_filter.mpr ⟨hcached, decide_eq_true (mem_barsUpTo.mp hlater).2⟩
  · rfl

theorem length_load (hsteady : Steady history latest window service) (hpos : 0 < m.lookback)
    (hstored : barTime ∈ history.rows) : (loadConfirmedBars m service barTime).1.length =
      min m.lookback (barsUpTo history barTime).length := by
  rw [load_stored hsteady.table hstored hpos]
  split
  · have hserved := ‹Served service barTime m.lookback›
    have hsub : cachedWindow service barTime ⊆ barsUpTo history barTime :=
      List.filter_subset _ hsteady.known
    have hfewer : (cachedWindow service barTime).length ≤ (barsUpTo history barTime).length :=
      (sublist_of_subset (hsteady.sorted.filter _) (barsUpTo_sorted history barTime) hsub).length_le
    have henough := hserved.2
    rw [length_rtake]
    omega
  · rw [length_rtake]

/-- An event in the window: exactly where the window reaches far enough for it, or nothing is
computed, the batch asks for what the single path would. -/
theorem same_iff_of_mem (hsteady : Steady history latest window service)
    (hwindow : window = (barsUpTo history latest).rtake (m.lookback + count))
    (hmem : barTime ∈ window) :
    SameAsSingle m ⟨barTime, service, (prefixOf m window service barTime).1.bind (askedFor m)⟩ ↔
      Reaches m history count latest barTime := by
  have hsuffix : window <:+ barsUpTo history latest := hwindow ▸ rtake_suffix _ _
  obtain ⟨hstored, hle⟩ := mem_barsUpTo.mp (hsuffix.mem hmem)
  have hsame : SameAsSingle m
      ⟨barTime, service, (prefixOf m window service barTime).1.bind (askedFor m)⟩ ↔
      (prefixOf m window service barTime).1.bind (askedFor m) =
        request m (loadConfirmedBars m service barTime).1 := by
    rw [← single_eq_request]
    exact ⟨fun h => h.1, fun h => ⟨h, congrArg (writtenBack m) h⟩⟩
  rw [hsame]
  rcases Nat.eq_zero_or_pos m.lookback with hzero | hpos
  · -- no indicators: neither path computes anything
    have hnone : ∀ bars : List Time, request m bars = none :=
      fun bars => request_eq_none.mpr (not_computes_of_lookback hzero _)
    rw [prefixOf, if_pos hmem, Option.bind_some, askedFor_eq_request, hnone, hnone]
    exact ⟨fun _ => Or.inr (Or.inr (Or.inr (not_computes_of_lookback hzero _))), fun _ => rfl⟩
  · have hnear : (barsBetween history barTime latest).length < m.lookback + count := by
      rw [hwindow] at hmem
      exact ((mem_rtake_iff (barsUpTo_sorted history latest)).mp hmem).2
    have htotal := length_barsUpTo history hle
    have hfilter : window.filter (· ≤ barTime) = (barsUpTo history barTime).rtake
        (m.lookback + count - (barsBetween history barTime latest).length) := by
      rw [hwindow, filter_rtake (barsUpTo_sorted history latest), barsUpTo_filter hle]
      rfl
    have hlength := length_load (m := m) hsteady hpos hstored
    rw [prefix_of_mem hwindow hmem hpos, Option.bind_some, askedFor_eq_request]
    unfold Reaches
    generalize (barsBetween history barTime latest).length = between at *
    by_cases hreach : m.lookback ≤ m.lookback + count - between ∨
        (barsUpTo history barTime).length ≤ m.lookback + count - between
    · have hideal : ((barsUpTo history barTime).rtake (m.lookback + count - between)).rtake
          m.lookback = (barsUpTo history barTime).rtake m.lookback := by
        by_cases hall : (barsUpTo history barTime).length ≤ m.lookback + count - between
        · rw [rtake_of_length_le hall]
        · refine rtake_of_suffix (rtake_suffix _ _) ?_
          rw [length_rtake]
          omega
      rw [hideal, load_of_reached hsteady hpos hstored hle hfilter hideal]
      refine ⟨fun _ => ?_, fun _ => rfl⟩
      omega
    · have hshort : (((barsUpTo history barTime).rtake (m.lookback + count - between)).rtake
          m.lookback).length < (loadConfirmedBars m service barTime).1.length := by
        rw [length_rtake, length_rtake, hlength]
        omega
      rw [request_eq_iff hshort, hlength]
      refine ⟨fun hnone => Or.inr (Or.inr (Or.inr hnone)), ?_⟩
      rintro (hfew | hclose | hfar | hnone)
      · omega
      · omega
      · omega
      · exact hnone

/-- The events of a batch one after the other; the cache stays steady. -/
theorem processEvents_iff {events : List Time} (hsteady : Steady history latest window service)
    (hwindow : window = (barsUpTo history latest).rtake (m.lookback + count))
    (hlatest : ∀ barTime ∈ events, barTime ≤ latest) :
    (∀ entry ∈ processEvents m window service events, entry.barTime ∈ history.rows →
      SameAsSingle m entry) ↔
    ∀ barTime ∈ events, barTime ∈ history.rows → Reaches m history count latest barTime := by
  have hsuffix : window <:+ barsUpTo history latest := hwindow ▸ rtake_suffix _ _
  induction events generalizing service with
  | nil => simp [processEvents]
  | cons barTime rest ih =>
    have hle := hlatest barTime List.mem_cons_self
    have hnext : Steady history latest window (prefixOf m window service barTime).2 := by
      unfold prefixOf
      split
      · exact hsteady
      · exact hsteady.load hsuffix hle
    have hhead : barTime ∈ history.rows → (SameAsSingle m
        ⟨barTime, service, (prefixOf m window service barTime).1.bind (askedFor m)⟩ ↔
        Reaches m history count latest barTime) := by
      intro hstored
      by_cases hmem : barTime ∈ window
      · exact same_iff_of_mem hsteady hwindow hmem
      · refine ⟨fun _ => Or.inr (Or.inr (Or.inl ?_)), fun _ => same_of_not_mem hmem⟩
        rw [hwindow, mem_rtake_iff (barsUpTo_sorted history latest)] at hmem
        by_contra hnear
        exact hmem ⟨mem_barsUpTo.mpr ⟨hstored, hle⟩, not_le.mp hnear⟩
    have hrest := ih hnext fun other hother => hlatest other (List.mem_cons_of_mem _ hother)
    rw [processEvents]
    simp only [List.forall_mem_cons]
    exact and_congr (forall_congr' hhead) hrest

/-- The window of a batch whose last bar is stored, and the service after it is read. -/
theorem first_read (hcached : service.cached <:+ service.stored.rows)
    (hlatest : latest ∈ service.stored.rows) {limit : ℕ} (hpos : 0 < limit) :
    (service.getOhlcWindow latest limit false true).1 =
        some ((barsUpTo service.stored latest).rtake limit) ∧
      Steady service.stored latest ((barsUpTo service.stored latest).rtake limit)
        (service.getOhlcWindow latest limit false true).2 := by
  have hsorted : service.cached.Pairwise (· < ·) :=
    service.stored.sorted.sublist hcached.sublist
  rw [getOhlcWindow_stored hlatest hpos]
  by_cases hserved : Served service latest limit
  · have hwindow : (cachedWindow service latest).rtake limit =
        (barsUpTo service.stored latest).rtake limit :=
      rtake_of_suffix (hcached.filter _) hserved.2
    rw [if_pos hserved]
    refine ⟨congrArg some hwindow, rfl, hsorted, hcached.subset, Or.inl ?_⟩
    intro bar hbar
    rw [← hwindow] at hbar
    exact (List.mem_filter.mp ((rtake_suffix _ _).mem hbar)).1
  · rw [if_neg hserved]
    refine ⟨rfl, ?_⟩
    have hempty : service.stored.fetchOhlcBefore latest limit ≠ [] := by
      intro hnone
      have hlast := fetchOhlcBefore_last hlatest hpos
      rw [hnone, List.getLast?_nil] at hlast
      cases hlast
    have hmerged := mergeSorted_sorted service.cached (service.stored.fetchOhlcBefore latest limit)
    rw [Service.setOhlcClosed, if_neg hempty]
    refine ⟨rfl, hmerged.sublist (lastItems_suffix _ _).sublist, ?_, ?_⟩
    · intro bar hbar
      rcases mem_mergeSorted.mp ((lastItems_suffix _ _).mem hbar) with hold | hread
      · exact hcached.mem hold
      · exact (mem_barsUpTo.mp ((rtake_suffix _ _).mem hread)).1
    · exact covers_of_trim hmerged (rtake_suffix _ _) fun bar hbar =>
        mem_mergeSorted.mpr (Or.inr hbar)

/-- Without the bar of its last event a batch has no window. -/
theorem first_read_missing
    (hcached : service.cached <:+ service.stored.rows) (hlatest : latest ∉ service.stored.rows)
    (limit : ℕ) : ((service.getOhlcWindow latest limit false true).1).getD [] = [] := by
  have hlast : (cachedWindow service latest).getLast? ≠ some latest := by
    intro hlast
    have hmem := List.mem_of_getLast? hlast
    exact hlatest (hcached.mem (List.mem_filter.mp hmem).1)
  have hread : (service.stored.fetchOhlcBefore latest limit).getLast? ≠ some latest := by
    intro hread
    have hmem := (rtake_suffix _ _).mem (List.mem_of_getLast? hread)
    exact hlatest (List.mem_filter.mp hmem).1
  rw [Service.getOhlcWindow, if_neg fun hserved => hlast hserved.1, if_neg (by simp)]
  dsimp only
  rw [if_neg hread, windowFallback, if_neg hlast]
  rfl

theorem processEvents_without_window (service : Service Time) (events : List Time) :
    ∀ entry ∈ processEvents m [] service events, SameAsSingle m entry := by
  induction events generalizing service with
  | nil =>
    intro entry hentry
    exact absurd hentry List.not_mem_nil
  | cons barTime rest ih =>
    intro entry hentry
    rcases List.mem_cons.mp hentry with rfl | hrest
    · exact same_of_not_mem List.not_mem_nil
    · exact ih _ entry hrest

theorem processEvents_barTimes (service : Service Time) (events : List Time) :
    (processEvents m window service events).map Processed.barTime = events := by
  induction events generalizing service with
  | nil => rfl
  | cons barTime rest ih => exact congrArg (barTime :: ·) (ih _)

/-- Every event of a batch is processed once. -/
theorem batch_barTimes (service : Service Time) (events : List Time) :
    ((processClosedBarEventsBatch m service events).map Processed.barTime).Perm events := by
  refine List.Perm.trans ?_ (List.perm_insertionSort (· ≤ ·) events)
  unfold processClosedBarEventsBatch processSymbolTimeframeBatch
  cases hlast : (events.insertionSort (· ≤ ·)).getLast? with
  | none =>
    rw [List.getLast?_eq_none_iff.mp hlast]
    exact List.Perm.nil
  | some latest =>
    dsimp only
    rw [processEvents_barTimes]

theorem le_of_getLast?_insertionSort {events : List Time} {last other : Time}
    (hlast : (events.insertionSort (· ≤ ·)).getLast? = some last) (hother : other ∈ events) :
    other ≤ last := by
  obtain ⟨front, hfront⟩ := List.getLast?_eq_some_iff.mp hlast
  have hsorted : (events.insertionSort (· ≤ ·)).Pairwise (· ≤ ·) :=
    List.pairwise_insertionSort ..
  have hmem := (List.perm_insertionSort (· ≤ ·) events).symm.subset hother
  rw [hfront] at hmem hsorted
  rcases List.mem_append.mp hmem with hbefore | hself
  · exact (List.pairwise_append.mp hsorted).2.2 other hbefore last List.mem_cons_self
  · exact (List.mem_singleton.mp hself).le

/-- Any stored history behind a cache without holes, any events in any order. -/
theorem batch_same_iff (m : Manager Time Value) (service : Service Time)
    (hcached : service.cached <:+ service.stored.rows) (events : List Time) :
    (∀ entry ∈ processClosedBarEventsBatch m service events,
      entry.barTime ∈ service.stored.rows → SameAsSingle m entry) ↔
    ∀ latest ∈ events, (∀ other ∈ events, other ≤ latest) → latest ∈ service.stored.rows →
      ∀ barTime ∈ events, barTime ∈ service.stored.rows →
        Reaches m service.stored events.length latest barTime := by
  have hperm := List.perm_insertionSort (· ≤ ·) events
  unfold processClosedBarEventsBatch processSymbolTimeframeBatch
  cases hlast : (events.insertionSort (· ≤ ·)).getLast? with
  | none =>
    have hnone : events = [] := by
      rw [List.getLast?_eq_none_iff.mp hlast] at hperm
      exact hperm.symm.eq_nil
    subst hnone
    simp
  | some last =>
    have hmax : ∀ other ∈ events, other ≤ last :=
      fun other hother => le_of_getLast?_insertionSort hlast hother
    have hlastmem : last ∈ events := hperm.subset (List.mem_of_getLast? hlast)
    have honly : ∀ latest ∈ events, (∀ other ∈ events, other ≤ latest) → latest = last :=
      fun latest hlatest hall => le_antisymm (hmax latest hlatest) (hall last hlastmem)
    have hcount : (events.insertionSort (· ≤ ·)).length = events.length :=
      List.length_insertionSort ..
    by_cases hstored : last ∈ service.stored.rows
    · have hpos : 0 < m.lookback + (events.insertionSort (· ≤ ·)).length := by
        rw [hcount]
        have := List.length_pos_of_mem hlastmem
        omega
      obtain ⟨hwindow, hsteady⟩ := first_read hcached hstored hpos
      have hlatest : ∀ barTime ∈ events.insertionSort (· ≤ ·), barTime ≤ last :=
        fun barTime hbar => hmax barTime (hperm.subset hbar)
      have hiff := processEvents_iff (m := m) hsteady rfl hlatest
      dsimp only
      rw [hwindow, Option.getD_some, hiff, hcount]
      constructor
      · intro h latest hlatest hall _ barTime hbar hrow
        rw [honly latest hlatest hall]
        exact h barTime (hperm.symm.subset hbar) hrow
      · intro h barTime hbar hrow
        exact h last hlastmem hmax hstored barTime (hperm.subset hbar) hrow
    · dsimp only
      rw [first_read_missing hcached hstored]
      constructor
      · intro _ latest hlatest hall hrow
        rw [honly latest hlatest hall] at hrow
        exact absurd hrow hstored
      · intro _ entry hentry _
        exact processEvents_without_window _ _ entry hentry

end Batch

/-- Two indicators with periods 5 and 3, whose values are the bars they were computed on. -/
def twoIndicators : Manager ℕ (List ℕ × List String) :=
  { configs :=
      [⟨"sma5", Dict.empty.set "period" 5⟩, ⟨"sma3", Dict.empty.set "period" 3⟩]
    registered := fun _ h => absurd h (by simp)
    pipeline := fun bars names => [(bars, names)] }

def tenStored : Service ℕ := { stored := tenBars }

theorem contiguous_events_same :
    (processClosedBarEventsBatch twoIndicators tenStored [10, 8, 9]).map (fun entry => entry.barTime) =
        [8, 9, 10] ∧
      ∀ entry ∈ processClosedBarEventsBatch twoIndicators tenStored [10, 8, 9],
        entry.barTime ∈ tenStored.stored.rows → SameAsSingle twoIndicators entry := by
  constructor
  · decide +kernel
  · exact (batch_same_iff twoIndicators tenStored List.nil_suffix [10, 8, 9]).mpr
      (by decide +kernel)

/-- The events at 7 and 10 with the two bars between them processed before. -/
theorem gap_events_differ :
    ((processClosedBarEventsBatch twoIndicators tenStored [7, 10]).map fun entry =>
        (entry.barTime, entry.asked)) =
      [(7, some ([4, 5, 6, 7], ["sma3"])), (10, some ([6, 7, 8, 9, 10], ["sma5", "sma3"]))] ∧
    (processClosedBarEvent twoIndicators tenStored 7).1 =
      some ([3, 4, 5, 6, 7], ["sma5", "sma3"]) ∧
    ¬ ∀ entry ∈ processClosedBarEventsBatch twoIndicators tenStored [7, 10],
      entry.barTime ∈ tenStored.stored.rows → SameAsSingle twoIndicators entry := by
  decide +kernel

end MT5Services.BarBatches
