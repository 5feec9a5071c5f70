import Mathlib.Algebra.Order.Ring.Int
import Mathlib.Data.Rat.Defs
import Mathlib.Data.String.Basic
import MT5Services.GoldRelevance
import MT5Services.MergedIntervals
import MT5Services.TradeFrequency

/-!
The trade guard of the economic calendar: the events of a range around the evaluation time,
a protected window about each, windows merged where they meet, and a block while a merged
window of enough importance is active. The range comes from a lookback and a lookahead, the
windows from buffers of their own that a forecast may widen. The guard misses no active
event exactly when the range reaches as far as the buffers on both sides. Times are
microseconds.
-/
namespace MT5Services.TradeGuard

open GoldRelevance MergedIntervals PyText
open TradeFrequency (RiskCheckResult)

inductive EventStatus
  | scheduled
  | imminent
  | pendingRelease
  | released
  | cancelled
  | deleted
  deriving DecidableEq, Repr

/-- A row of `economic_calendar_events`, as far as the guard reads it. -/
structure EconomicCalendarEvent where
  scheduledAt : ℤ
  eventUid : String
  source : String
  eventName : String
  country : Option String
  category : Option String
  currency : Option String
  importance : Option ℤ
  sessionBucket : String
  status : EventStatus
  deriving DecidableEq, Repr

structure EconomicConfig where
  enabled : Bool := true
  highImportanceThreshold : ℤ := 3
  preEventBufferMinutes : ℤ := 30
  postEventBufferMinutes : ℤ := 30
  tradeGuardEnabled : Bool := true
  tradeGuardLookaheadMinutes : ℤ := 180
  tradeGuardLookbackMinutes : ℤ := 0
  tradeGuardImportanceMin : Option ℤ := none
  tradeGuardBlockImportanceMin : ℤ := 3
  tradeGuardWarnPreBufferMinutes : ℤ := 15
  tradeGuardWarnPostBufferMinutes : ℤ := 10
  tradeGuardRelevanceFilterEnabled : Bool := false
  goldImpactKeywords : String := ""
  goldImpactCategories : String := ""
  marketImpactHighSpikeThreshold : ℚ := 3
  marketImpactHighSpikeBufferMinutes : ℤ := 60
  marketImpactMedSpikeThreshold : ℚ := 2
  marketImpactMedSpikeBufferMinutes : ℤ := 45

/-- `timedelta(minutes=n)`. -/
def minutes (n : ℤ) : ℤ := 60000000 * n

/-- `expected_volatility_spike` of the forecast for an event name; none also where there is
no forecast or the call fails. -/
abbrev MarketImpactAnalyzer := String → Option ℚ

/-- What the guard is built over. -/
structure Service where
  settings : EconomicConfig
  marketImpactAnalyzer : Option MarketImpactAnalyzer
  /-- The table, in the order the database reads rows of one time. -/
  calendar : List EconomicCalendarEvent

/-! ### Protected windows -/

/-- The spike that the forecast for the event shows. -/
def expectedSpike (analyzer : Option MarketImpactAnalyzer) (eventName : String) : Option ℚ :=
  if eventName = "" then none else analyzer.bind fun forecast => forecast eventName

/-- The buffers before and after, in minutes, wider for an event that moves the market. -/
def eventBuffers (settings : EconomicConfig) (analyzer : Option MarketImpactAnalyzer)
    (eventName : String) : ℤ × ℤ :=
  let preBuffer := settings.preEventBufferMinutes
  let postBuffer := settings.postEventBufferMinutes
  match expectedSpike analyzer eventName with
  | none => (preBuffer, postBuffer)
  | some spike =>
    if settings.marketImpactHighSpikeThreshold < spike then
      (max preBuffer settings.marketImpactHighSpikeBufferMinutes,
        max postBuffer settings.marketImpactHighSpikeBufferMinutes)
    else if settings.marketImpactMedSpikeThreshold < spike then
      (max preBuffer settings.marketImpactMedSpikeBufferMinutes,
        max postBuffer settings.marketImpactMedSpikeBufferMinutes)
    else (preBuffer, postBuffer)

def computeWindowBounds (service : Service) (event : EconomicCalendarEvent) : ℤ × ℤ :=
  let buffers := eventBuffers service.settings service.marketImpactAnalyzer event.eventName
  (event.scheduledAt - minutes buffers.1, event.scheduledAt + minutes buffers.2)

structure RiskWindow where
  eventUid : String
  eventName : String
  source : String
  country : Option String
  currency : Option String
  category : Option String
  importance : Option ℤ
  sessionBucket : String
  windowStart : ℤ
  windowEnd : ℤ

def buildWindow (service : Service) (event : EconomicCalendarEvent) : RiskWindow :=
  let bounds := computeWindowBounds service event
  { eventUid := event.eventUid
    eventName := event.eventName
    source := event.source
    country := event.country
    currency := event.currency
    category := event.category
    importance := event.importance
    sessionBucket := event.sessionBucket
    windowStart := bounds.1
    windowEnd := bounds.2 }

structure MergedWindow where
  windowStart : ℤ
  windowEnd : ℤ
  eventUids : List String
  eventNames : List String
  sources : List String
  countries : List String
  currencies : List String
  categories : List String
  sessions : List String
  maxImportance : Option ℤ
  deriving DecidableEq, Repr

/-- `sorted(set(texts))`. -/
def sortedSet (texts : List String) : List String := texts.dedup.insertionSort (· ≤ ·)

/-- The texts with one more, unless it is missing or empty. -/
def withText (texts : List String) (text : Option String) : List String :=
  if text.getD "" = "" then texts else sortedSet (texts ++ [text.getD ""])

/-- A window on its own. -/
def openWindow (window : RiskWindow) : MergedWindow where
  windowStart := window.windowStart
  windowEnd := window.windowEnd
  eventUids := [window.eventUid]
  eventNames := [window.eventName]
  sources := withText [] (some window.source)
  countries := withText [] window.country
  currencies := withText [] window.currency
  categories := withText [] window.category
  sessions := withText [] (some window.sessionBucket)
  maxImportance := window.importance

/-- `max` where a missing value gives way. -/
def maxImportance : Option ℤ → Option ℤ → Option ℤ
  | current, none => current
  | none, some importance => some importance
  | some current, some importance => some (max current importance)

/-- The current window with one more event in it. -/
def takeUp (current : MergedWindow) (window : RiskWindow) : MergedWindow where
  windowStart := current.windowStart
  windowEnd := max current.windowEnd window.windowEnd
  eventUids := current.eventUids ++ [window.eventUid]
  eventNames := current.eventNames ++ [window.eventName]
  sources := withText current.sources (some window.source)
  countries := withText current.countries window.country
  currencies := withText current.currencies window.currency
  categories := withText current.categories window.category
  sessions := withText current.sessions (some window.sessionBucket)
  maxImportance := maxImportance current.maxImportance window.importance

def merging : Merging RiskWindow MergedWindow ℤ where
  start := RiskWindow.windowStart
  finish := RiskWindow.windowEnd
  begins := MergedWindow.windowStart
  reach := MergedWindow.windowEnd
  single := openWindow
  join := takeUp
  begins_single := fun _ => rfl
  reach_single := fun _ => rfl
  begins_join := fun _ _ => rfl
  reach_join := fun _ _ => rfl

def mergeWindows (windows : List RiskWindow) : List MergedWindow := merge merging windows

/-! ### The events of a range -/

/-- The conditions of `fetch_economic_calendar`; an empty list asks for nothing. -/
structure CalendarQuery where
  startTime : Option ℤ := none
  endTime : Option ℤ := none
  limit : ℕ
  sources : List String := []
  countries : List String := []
  currencies : List String := []
  sessionBuckets : List String := []
  statuses : List EventStatus := []
  importanceMin : Option ℤ := none

/-- `column = ANY(allowed)`, asked only of a list that is not empty. -/
def anyOf {α : Type} [DecidableEq α] (allowed : List α) (column : Option α) : Bool :=
  allowed.isEmpty || column.any fun value => value ∈ allowed

/-- The conditions besides the range of times. -/
def CalendarQuery.accepts (query : CalendarQuery) (event : EconomicCalendarEvent) : Bool :=
  anyOf query.sources (some event.source) && anyOf query.countries event.country &&
    anyOf query.currencies event.currency &&
    anyOf query.sessionBuckets (some event.sessionBucket) &&
    anyOf query.statuses (some event.status) &&
    query.importanceMin.all fun least => least ≤ event.importance.getD 0

def CalendarQuery.inRange (query : CalendarQuery) (event : EconomicCalendarEvent) : Bool :=
  (query.startTime.all fun start => start ≤ event.scheduledAt) &&
    query.endTime.all fun finish => event.scheduledAt ≤ finish

/-- The rows that the query selects, before the limit. -/
def matching (calendar : List EconomicCalendarEvent) (query : CalendarQuery) :
    List EconomicCalendarEvent :=
  calendar.filter fun event => query.inRange event && query.accepts event

def fetchEconomicCalendar (calendar : List EconomicCalendarEvent) (query : CalendarQuery) :
    List EconomicCalendarEvent :=
  ((matching calendar query).insertionSort fun a b => a.scheduledAt ≤ b.scheduledAt).take
    query.limit

/-! ### The symbol -/

/-- `str.isalnum` and `str.isalpha` of one character. -/
structure CharClasses where
  isAlnum : Char → Bool
  isAlpha : Char → Bool

def currencyToCountry : List (String × String) :=
  [("AUD", "Australia"), ("CAD", "Canada"), ("CHF", "Switzerland"), ("CNY", "China"),
    ("EUR", "Euro Area"), ("GBP", "United Kingdom"), ("JPY", "Japan"),
    ("NZD", "New Zealand"), ("USD", "United States")]

def indexSymbolCountryHints : List (String × String) :=
  [("US", "United States"), ("DE", "Germany"), ("GER", "Germany"), ("UK", "United Kingdom"),
    ("JP", "Japan"), ("HK", "China"), ("CN", "China"), ("AU", "Australia")]

def normalizeSymbol (classes : CharClasses) (symbol : String) : String :=
  String.ofList ((upper symbol).toList.filter classes.isAlnum)

structure SymbolContext where
  symbol : String
  normalizedSymbol : String
  currencies : List String
  countries : List String
  deriving DecidableEq, Repr

/-- The base and the quote of a symbol that begins with six letters. -/
def currencyPair (classes : CharClasses) (normalized : String) : List String :=
  let front := normalized.toList.take 6
  let base := String.ofList (front.take 3)
  let quote := String.ofList (front.drop 3)
  if 6 ≤ normalized.toList.length ∧ front.all classes.isAlpha = true ∧
      base ∈ currencyToCountry.map Prod.fst ∧ quote ∈ currencyToCountry.map Prod.fst then
    [base, quote]
  else []

def inferSymbolContext (classes : CharClasses) (symbol : String) : SymbolContext :=
  let normalized := normalizeSymbol classes symbol
  let named := currencyToCountry.filter fun entry =>
    entry.1.toList <:+: normalized.toList
  let hinted := indexSymbolCountryHints.filter fun entry =>
    entry.1.toList <+: normalized.toList
  let currencies := currencyPair classes normalized ++ named.map Prod.fst
  let countries := named.map Prod.snd ++ hinted.map Prod.snd
  { symbol := symbol
    normalizedSymbol := normalized
    currencies := sortedSet currencies
    countries := sortedSet
      (if countries = [] then currencies.filterMap fun c => currencyToCountry.lookup c
      else countries) }

/-! ### The guard -/

/-- `_build_relevance_matcher_from_settings`; no matcher means no filter. -/
def buildRelevanceMatcherFromSettings (settings : EconomicConfig) :
    Except String (Option EventRelevanceMatcher) :=
  if settings.tradeGuardRelevanceFilterEnabled = false then .ok none
  else
    (buildRelevanceMatcher
      (.fromCsv settings.goldImpactKeywords settings.goldImpactCategories)).map some

/-- Whether a name with a category makes a window relevant; one that is no event does not. -/
def relevantPair (matcher : EventRelevanceMatcher) (name : String) (category : Option String) :
    Bool :=
  (EventSummary.make? name category).any matcher.isRelevant

/-- Some name with some category, or with none where the window has no category. -/
def relevantWindow (matcher : EventRelevanceMatcher) (window : MergedWindow) : Bool :=
  let categories := if window.categories = [] then [none] else window.categories.map some
  window.eventNames.any fun name => categories.any (relevantPair matcher name)

/-- `_effective_importance`: one level less for a window that is not relevant. -/
def effectiveImportance (matcher : Option EventRelevanceMatcher) (window : MergedWindow) : ℤ :=
  let raw := window.maxImportance.getD 0
  match matcher with
  | none => raw
  | some matcher => if relevantWindow matcher window then raw else max 0 (raw - 1)

structure TradeGuardAssessment where
  symbol : String
  evaluationTime : ℤ
  blocked : Bool
  warned : Bool
  severity : String
  currencies : List String
  countries : List String
  activeWindows : List MergedWindow
  blockWindows : List MergedWindow
  warnWindows : List MergedWindow
  upcomingWindows : List MergedWindow
  importanceMin : ℤ
  blockImportanceMin : ℤ
  deriving DecidableEq, Repr

def MergedWindow.active (window : MergedWindow) (t : ℤ) : Bool :=
  window.windowStart ≤ t ∧ t ≤ window.windowEnd

/-- The window shrunk from the full buffers to those of a warning holds the time. -/
def MergedWindow.warns (settings : EconomicConfig) (window : MergedWindow) (t : ℤ) : Bool :=
  let shrinkStart :=
    minutes (settings.preEventBufferMinutes - settings.tradeGuardWarnPreBufferMinutes)
  let shrinkEnd :=
    minutes (settings.postEventBufferMinutes - settings.tradeGuardWarnPostBufferMinutes)
  window.windowStart + shrinkStart ≤ t ∧ t ≤ window.windowEnd - shrinkEnd

/-- `importance_min`, or the threshold of the settings. -/
def leastImportance (settings : EconomicConfig) (importanceMin : Option ℤ) : ℤ :=
  importanceMin.getD settings.highImportanceThreshold

/-- The call of `get_events`. -/
def guardQuery (settings : EconomicConfig) (context : SymbolContext) (evaluationTime : ℤ)
    (lookaheadMinutes lookbackMinutes : ℤ) (limit : ℕ) (importanceMin : Option ℤ) :
    CalendarQuery where
  startTime := some (evaluationTime - minutes (max 0 lookbackMinutes))
  endTime := some (evaluationTime + minutes (max 0 lookaheadMinutes))
  limit := limit
  countries := context.countries
  currencies := context.currencies
  statuses := [.scheduled, .imminent, .pendingRelease, .released]
  importanceMin := some (leastImportance settings importanceMin)

/-- What `get_trade_guard` says of the merged windows. -/
def assess (settings : EconomicConfig) (context : SymbolContext) (evaluationTime : ℤ)
    (importanceMin : Option ℤ) (matcher : Option EventRelevanceMatcher)
    (mergedWindows : List MergedWindow) : TradeGuardAssessment :=
  let activeWindows := mergedWindows.filter fun window => window.active evaluationTime
  let blockMin := settings.tradeGuardBlockImportanceMin
  let blockWindows := activeWindows.filter fun window =>
    blockMin ≤ effectiveImportance matcher window
  let warnWindows := (activeWindows.filter fun window =>
    effectiveImportance matcher window < blockMin ∧
      1 ≤ effectiveImportance matcher window).filter fun window =>
        window.warns settings evaluationTime
  { symbol := context.symbol
    evaluationTime := evaluationTime
    blocked := !blockWindows.isEmpty
    warned := !warnWindows.isEmpty
    severity :=
      if blockWindows.isEmpty = false then "block"
      else if warnWindows.isEmpty = false then "warn" else "none"
    currencies := context.currencies
    countries := context.countries
    activeWindows := activeWindows
    blockWindows := blockWindows
    warnWindows := warnWindows
    upcomingWindows := mergedWindows.filter fun window => evaluationTime < window.windowStart
    importanceMin := leastImportance settings importanceMin
    blockImportanceMin := blockMin }

def getTradeGuard (classes : CharClasses) (service : Service) (symbol : String)
    (evaluationTime : ℤ) (lookaheadMinutes lookbackMinutes : ℤ) (limit : ℕ)
    (importanceMin : Option ℤ) : Except String TradeGuardAssessment :=
  let settings := service.settings
  let context := inferSymbolContext classes symbol
  let events := fetchEconomicCalendar service.calendar
    (guardQuery settings context evaluationTime lookaheadMinutes lookbackMinutes limit
      importanceMin)
  let mergedWindows := mergeWindows (events.map (buildWindow service))
  (buildRelevanceMatcherFromSettings settings).map fun matcher =>
    assess settings context evaluationTime importanceMin matcher mergedWindows

/-- The call that `EconomicEventRule` makes; the limit is the default. -/
def ruleGuard (classes : CharClasses) (service : Service) (symbol : String)
    (evaluationTime : ℤ) : Except String TradeGuardAssessment :=
  getTradeGuard classes service symbol evaluationTime
    service.settings.tradeGuardLookaheadMinutes service.settings.tradeGuardLookbackMinutes 500
    service.settings.tradeGuardImportanceMin

/-- `EconomicEventRule.evaluate` with a provider; the check's details are the assessment. -/
def EconomicEventRule.evaluate (classes : CharClasses) (service : Service) (symbol : String)
    (evaluationTime : ℤ) (mode : String) :
    Except String (List (RiskCheckResult × TradeGuardAssessment)) :=
  if service.settings.enabled = false ∨ service.settings.tradeGuardEnabled = false then .ok []
  else
    (ruleGuard classes service symbol evaluationTime).map fun assessment =>
      if assessment.blocked = false then []
      else
        [({ name := "economic_event"
            verdict := if mode = "block" then "block" else "warn"
            reason := some
              (if assessment.activeWindows.isEmpty = false then
                "High-impact economic event window active (" ++
                  toString assessment.activeWindows.length ++ " window(s))"
              else "High-impact economic event risk detected") }, assessment)]

/-! ### Merging loses no weight -/

theorem mem_sortedSet {texts : List String} {text : String} :
    text ∈ sortedSet texts ↔ text ∈ texts := by
  rw [sortedSet, List.mem_insertionSort, List.mem_dedup]

theorem mem_withText {texts : List String} {text : Option String} {name : String} :
    name ∈ withText texts text ↔ name ∈ texts ∨ (name ≠ "" ∧ text = some name) := by
  unfold withText
  split
  · rename_i hempty
    constructor
    · exact Or.inl
    · rintro (hmem | ⟨hne, rfl⟩)
      · exact hmem
      · exact absurd hempty hne
  · rename_i hne
    rw [mem_sortedSet, List.mem_append, List.mem_singleton]
    cases text with
    | none => simp at hne
    | some value =>
      simp only [Option.getD_some] at hne ⊢
      constructor
      · rintro (hmem | rfl)
        · exact Or.inl hmem
        · exact Or.inr ⟨hne, rfl⟩
      · rintro (hmem | ⟨-, hvalue⟩)
        · exact Or.inl hmem
        · exact Or.inr (Option.some.inj hvalue).symm

theorem le_maxImportance_left {a b : Option ℤ} {i : ℤ} (h : ∃ j, a = some j ∧ i ≤ j) :
    ∃ j, maxImportance a b = some j ∧ i ≤ j := by
  obtain ⟨j, rfl, hj⟩ := h
  cases b with
  | none => exact ⟨j, rfl, hj⟩
  | some b => exact ⟨max j b, rfl, le_trans hj (le_max_left j b)⟩

theorem le_maxImportance_right (a : Option ℤ) (i : ℤ) :
    ∃ j, maxImportance a (some i) = some j ∧ i ≤ j := by
  cases a with
  | none => exact ⟨i, rfl, le_refl i⟩
  | some a => exact ⟨max a i, rfl, le_max_right a i⟩

/-- What the merged window keeps of one of its events. -/
structure Keeps (window : RiskWindow) (merged : MergedWindow) : Prop where
  name : window.eventName ∈ merged.eventNames
  category : ∀ c, c ≠ "" → window.category = some c → c ∈ merged.categories
  importance : ∀ i, window.importance = some i → ∃ j, merged.maxImportance = some j ∧ i ≤ j

theorem keeps_openWindow (window : RiskWindow) : Keeps window (openWindow window) where
  name := List.mem_singleton_self _
  category := fun _ hne hcategory => mem_withText.mpr (Or.inr ⟨hne, hcategory⟩)
  importance := fun i hi => ⟨i, hi, le_refl i⟩

theorem keeps_takeUp (merged : MergedWindow) (window : RiskWindow) :
    Keeps window (takeUp merged window) where
  name := List.mem_append_right _ (List.mem_singleton_self _)
  category := fun _ hne hcategory => mem_withText.mpr (Or.inr ⟨hne, hcategory⟩)
  importance := by
    intro i hi
    simp only [takeUp, hi]
    exact le_maxImportance_right _ i

theorem Keeps.takeUp (merged : MergedWindow) (next window : RiskWindow)
    (h : Keeps window merged) : Keeps window (takeUp merged next) where
  name := List.mem_append_left _ h.name
  category := fun c hne hcategory => mem_withText.mpr (Or.inl (h.category c hne hcategory))
  importance := fun i hi => le_maxImportance_left (h.importance i hi)

variable {windows : List RiskWindow}

theorem exists_merged {window : RiskWindow} (h : window ∈ windows) :
    ∃ merged ∈ mergeWindows windows, Covers merging Keeps window merged :=
  exists_covers_merge keeps_openWindow keeps_takeUp Keeps.takeUp h

theorem empty_notMem_categories : ∀ merged ∈ mergeWindows windows, "" ∉ merged.categories := by
  apply merge_built
  · intro window _ hmem
    rcases mem_withText.mp hmem with hmem | ⟨hne, -⟩
    · simp at hmem
    · exact hne rfl
  · intro merged window _ hbefore hmem
    rcases mem_withText.mp hmem with hmem | ⟨hne, -⟩
    · exact hbefore hmem
    · exact hne rfl

theorem maxImportance_nonneg (h : ∀ window ∈ windows, 0 ≤ window.importance.getD 0) :
    ∀ merged ∈ mergeWindows windows, 0 ≤ merged.maxImportance.getD 0 := by
  apply merge_built
  · exact h
  · intro merged window hwindow hbefore
    have hnext := h window hwindow
    change 0 ≤ (maxImportance merged.maxImportance window.importance).getD 0
    cases hcurrent : merged.maxImportance with
    | none =>
      cases hadded : window.importance with
      | none => exact le_refl 0
      | some i =>
        rw [hadded] at hnext
        exact hnext
    | some current =>
      rw [hcurrent] at hbefore
      cases window.importance with
      | none => exact hbefore
      | some i => exact le_trans hbefore (le_max_left current i)

section Relevance

variable {matcher : EventRelevanceMatcher} {window : RiskWindow} {merged : MergedWindow}

theorem relevantPair_iff {name : String} {category : Option String} :
    relevantPair matcher name category = true ↔ name ≠ "" ∧ category ≠ some "" ∧
      (matcher.hasCategory category = true ∨
        keywordSearch matcher.policy.keywords name = true) := by
  unfold relevantPair EventSummary.make?
  split
  · rename_i h
    simp only [Option.any_some, EventRelevanceMatcher.isRelevant, Bool.or_eq_true]
    exact ⟨fun hrelevant => ⟨h.1, h.2, hrelevant⟩, fun hrelevant => hrelevant.2.2⟩
  · rename_i h
    simp only [Option.any_none, Bool.false_eq_true, false_iff]
    rintro ⟨hname, hcategory, -⟩
    exact h ⟨hname, hcategory⟩

/-- The pairs that decide: every name with every category, or with none at all. -/
def Pairs (merged : MergedWindow) (name : String) (category : Option String) : Prop :=
  name ∈ merged.eventNames ∧
    ((merged.categories = [] ∧ category = none) ∨ ∃ c ∈ merged.categories, category = some c)

theorem relevantWindow_iff :
    relevantWindow matcher merged = true ↔
      ∃ name category, Pairs merged name category ∧
        relevantPair matcher name category = true := by
  unfold relevantWindow Pairs
  rw [List.any_eq_true]
  by_cases hcategories : merged.categories = []
  · simp [hcategories]
  · simp only [hcategories, if_false, List.any_map, List.any_eq_true, Function.comp_apply,
      false_and, false_or]
    constructor
    · rintro ⟨name, hname, c, hc, hpair⟩
      exact ⟨name, some c, ⟨hname, c, hc, rfl⟩, hpair⟩
    · rintro ⟨name, category, ⟨hname, c, hc, rfl⟩, hpair⟩
      exact ⟨name, hname, c, hc, hpair⟩

/-- A window that is relevant on its own stays so in what it is merged into: a keyword hit
does not depend on the category it is tried with. -/
theorem relevantWindow_of_keeps (hcategories : "" ∉ merged.categories)
    (hkeeps : Keeps window merged) (h : relevantWindow matcher (openWindow window) = true) :
    relevantWindow matcher merged = true := by
  obtain ⟨name, category, ⟨hname, hcategory⟩, hpair⟩ := relevantWindow_iff.mp h
  obtain ⟨hne, -, hhit⟩ := relevantPair_iff.mp hpair
  have hown : name = window.eventName := List.mem_singleton.mp hname
  have hmerged : name ∈ merged.eventNames := hown ▸ hkeeps.name
  rcases hcategory with ⟨-, rfl⟩ | ⟨c, hc, rfl⟩
  · have hkeyword : keywordSearch matcher.policy.keywords name = true := by
      rcases hhit with hcategory | hkeyword
      · simp [EventRelevanceMatcher.hasCategory] at hcategory
      · exact hkeyword
    cases hlist : merged.categories with
    | nil =>
      have hpairs : Pairs merged name none := ⟨hmerged, Or.inl ⟨hlist, rfl⟩⟩
      exact relevantWindow_iff.mpr ⟨name, none, hpairs, hpair⟩
    | cons c rest =>
      have hc : c ∈ merged.categories := by
        rw [hlist]
        exact List.mem_cons_self
      have hcne : some c ≠ some "" := by
        intro heq
        exact hcategories (Option.some.inj heq ▸ hc)
      have hpairs : Pairs merged name (some c) := ⟨hmerged, Or.inr ⟨c, hc, rfl⟩⟩
      exact relevantWindow_iff.mpr ⟨name, some c, hpairs,
        relevantPair_iff.mpr ⟨hne, hcne, Or.inr hkeyword⟩⟩
  · rcases mem_withText.mp hc with hnone | ⟨hcne, hwindow⟩
    · simp at hnone
    · have hpairs : Pairs merged name (some c) :=
        ⟨hmerged, Or.inr ⟨c, hkeeps.category c hcne hwindow, rfl⟩⟩
      exact relevantWindow_iff.mpr ⟨name, some c, hpairs, hpair⟩

end Relevance

section Importance

variable {matcher : Option EventRelevanceMatcher} {window : RiskWindow} {merged : MergedWindow}

variable (matcher) in
theorem effectiveImportance_nonneg (h : 0 ≤ merged.maxImportance.getD 0) :
    0 ≤ effectiveImportance matcher merged := by
  unfold effectiveImportance
  cases matcher with
  | none => exact h
  | some matcher =>
    dsimp only
    split
    · exact h
    · exact le_max_left 0 _

variable (matcher merged) in
/-- The filter takes one level at most. -/
theorem pred_le_effectiveImportance :
    merged.maxImportance.getD 0 - 1 ≤ effectiveImportance matcher merged := by
  unfold effectiveImportance
  cases matcher with
  | none =>
    dsimp only
    omega
  | some matcher =>
    dsimp only
    split
    · omega
    · exact le_max_right 0 _

/-- A positive importance of a window on its own is not lost in what it is merged into. -/
theorem le_effectiveImportance_of_keeps (hcategories : "" ∉ merged.categories)
    (hkeeps : Keeps window merged) {least : ℤ} (hleast : 0 < least)
    (h : least ≤ effectiveImportance matcher (openWindow window)) :
    least ≤ effectiveImportance matcher merged := by
  have hraw : ∀ i, 0 < i → i ≤ (openWindow window).maxImportance.getD 0 →
      i ≤ merged.maxImportance.getD 0 := by
    intro i hi hle
    change i ≤ window.importance.getD 0 at hle
    cases himportance : window.importance with
    | none =>
      rw [himportance, Option.getD_none] at hle
      omega
    | some own =>
      obtain ⟨j, hj, hown⟩ := hkeeps.importance own himportance
      rw [himportance, Option.getD_some] at hle
      rw [hj, Option.getD_some]
      omega
  cases matcher with
  | none => exact hraw least hleast h
  | some matcher =>
    have hstays : relevantWindow matcher (openWindow window) = true →
        relevantWindow matcher merged = true := relevantWindow_of_keeps hcategories hkeeps
    simp only [effectiveImportance] at h ⊢
    by_cases hown : relevantWindow matcher (openWindow window) = true
    · rw [if_pos hown] at h
      rw [if_pos (hstays hown)]
      exact hraw least hleast h
    · -- a window on its own that is not relevant has a level to spare
      rw [if_neg hown] at h
      have hspare := hraw (least + 1) (by omega) (by omega)
      have hlevel := pred_le_effectiveImportance (some matcher) merged
      simp only [effectiveImportance] at hlevel
      omega

end Importance

/-! ### No active event is missed -/

section Guard

variable (classes : CharClasses) (service : Service) (symbol : String) (t : ℤ)

/-- The query of the rule at a time. -/
def ruleQuery : CalendarQuery :=
  guardQuery service.settings (inferSymbolContext classes symbol) t
    service.settings.tradeGuardLookaheadMinutes service.settings.tradeGuardLookbackMinutes 500
    service.settings.tradeGuardImportanceMin

/-- The row limit cuts nothing off. -/
def WithinLimit : Prop :=
  (matching service.calendar (ruleQuery classes service symbol t)).length ≤ 500

/-- An event for the symbol, of an accepted status and enough importance, whose own window
holds the time and whose own effective importance blocks. -/
structure ActiveEvent (event : EconomicCalendarEvent) : Prop where
  accepted : (ruleQuery classes service symbol t).accepts event = true
  started : (computeWindowBounds service event).1 ≤ t
  lasting : t ≤ (computeWindowBounds service event).2
  blocks : ∃ matcher, buildRelevanceMatcherFromSettings service.settings = .ok matcher ∧
    service.settings.tradeGuardBlockImportanceMin ≤
      effectiveImportance matcher (openWindow (buildWindow service event))

/-- `get_trade_guard` answers with a block. -/
def Blocks : Prop :=
  ∃ assessment, ruleGuard classes service symbol t = .ok assessment ∧
    assessment.blocked = true

/-- A block needs a positive importance, or no stored importance is negative. -/
def OnScale : Prop :=
  0 < service.settings.tradeGuardBlockImportanceMin ∨
    ∀ event ∈ service.calendar, 0 ≤ event.importance.getD 0

variable {classes service symbol t} {event : EconomicCalendarEvent}

theorem inRange_iff :
    (ruleQuery classes service symbol t).inRange event = true ↔
      t - minutes (max 0 service.settings.tradeGuardLookbackMinutes) ≤ event.scheduledAt ∧
        event.scheduledAt ≤ t + minutes (max 0 service.settings.tradeGuardLookaheadMinutes) := by
  simp [ruleQuery, guardQuery, CalendarQuery.inRange]

variable {calendar : List EconomicCalendarEvent} {query : CalendarQuery}

theorem mem_matching : event ∈ matching calendar query ↔
      event ∈ calendar ∧ query.inRange event = true ∧ query.accepts event = true := by
  rw [matching, List.mem_filter, Bool.and_eq_true]

theorem mem_calendar_of_fetch
    (h : event ∈ fetchEconomicCalendar calendar query) : event ∈ calendar := by
  have hsorted := List.mem_of_mem_take h
  exact (mem_matching.mp ((List.mem_insertionSort _).mp hsorted)).1

theorem withinLimit_of_length_le (h : service.calendar.length ≤ 500) :
    WithinLimit classes service symbol t :=
  le_trans (List.length_filter_le _ _) h

/-- Within the limit the query gives every row that it selects. -/
theorem mem_fetch (hlimit : (matching calendar query).length ≤ query.limit)
    (h : event ∈ matching calendar query) : event ∈ fetchEconomicCalendar calendar query := by
  have hlength : ((matching calendar query).insertionSort
      fun a b => a.scheduledAt ≤ b.scheduledAt).length ≤ query.limit := by
    rw [List.length_insertionSort]
    exact hlimit
  rw [fetchEconomicCalendar, List.take_of_length_le hlength]
  exact (List.mem_insertionSort _).mpr h

/-- The windows that the guard of the rule looks at. -/
def ruleWindows (classes : CharClasses) (service : Service) (symbol : String) (t : ℤ) :
    List RiskWindow :=
  (fetchEconomicCalendar service.calendar (ruleQuery classes service symbol t)).map
    (buildWindow service)

theorem assess_blocked_iff {settings : EconomicConfig} {context : SymbolContext}
    {importanceMin : Option ℤ} {matcher : Option EventRelevanceMatcher}
    {mergedWindows : List MergedWindow} :
    (assess settings context t importanceMin matcher mergedWindows).blocked = true ↔
      ∃ merged ∈ mergedWindows, merged.active t = true ∧
        settings.tradeGuardBlockImportanceMin ≤ effectiveImportance matcher merged := by
  simp only [assess, Bool.not_eq_true', List.isEmpty_eq_false_iff_exists_mem, List.mem_filter,
    decide_eq_true_eq, and_assoc]

theorem blocks_iff :
    Blocks classes service symbol t ↔
      ∃ matcher, buildRelevanceMatcherFromSettings service.settings = .ok matcher ∧
        ∃ merged ∈ mergeWindows (ruleWindows classes service symbol t),
          merged.active t = true ∧ service.settings.tradeGuardBlockImportanceMin ≤
            effectiveImportance matcher merged := by
  have hguard : ruleGuard classes service symbol t =
      (buildRelevanceMatcherFromSettings service.settings).map fun matcher =>
        assess service.settings (inferSymbolContext classes symbol) t
          service.settings.tradeGuardImportanceMin matcher
          (mergeWindows (ruleWindows classes service symbol t)) := rfl
  unfold Blocks
  rw [hguard]
  cases buildRelevanceMatcherFromSettings service.settings with
  | error message =>
    constructor
    · rintro ⟨assessment, hassessment, -⟩
      cases hassessment
    · rintro ⟨matcher, hmatcher, -⟩
      cases hmatcher
  | ok matcher =>
    constructor
    · rintro ⟨assessment, hassessment, hblocked⟩
      cases hassessment
      exact ⟨matcher, rfl, assess_blocked_iff.mp hblocked⟩
    · rintro ⟨other, hother, hblocking⟩
      cases hother
      exact ⟨_, rfl, assess_blocked_iff.mpr hblocking⟩

/-- An active event that the query reaches blocks, whatever it is merged with. -/
theorem blocks_of_inRange (hlimit : WithinLimit classes service symbol t)
    (hscale : OnScale service) (hmem : event ∈ service.calendar)
    (hactive : ActiveEvent classes service symbol t event)
    (hrange : (ruleQuery classes service symbol t).inRange event = true) :
    Blocks classes service symbol t := by
  have hfetched := mem_fetch hlimit (mem_matching.mpr ⟨hmem, hrange, hactive.accepted⟩)
  have hwindow : buildWindow service event ∈ ruleWindows classes service symbol t :=
    List.mem_map_of_mem hfetched
  obtain ⟨merged, hmerged, hcovers⟩ := exists_merged hwindow
  obtain ⟨matcher, hmatcher, hown⟩ := hactive.blocks
  have hcategories := empty_notMem_categories merged hmerged
  have hbegins : merged.windowStart ≤ t := le_trans hcovers.begins hactive.started
  have hreach : t ≤ merged.windowEnd := le_trans hactive.lasting hcovers.reach
  have hmergedActive : merged.active t = true := by
    simp only [MergedWindow.active, decide_eq_true_eq]
    exact ⟨hbegins, hreach⟩
  refine blocks_iff.mpr ⟨matcher, hmatcher, merged, hmerged, hmergedActive, ?_⟩
  by_cases hleast : 0 < service.settings.tradeGuardBlockImportanceMin
  · exact le_effectiveImportance_of_keeps hcategories hcovers.holds hleast hown
  · have hstored := hscale.resolve_left hleast
    have hnonneg : ∀ window ∈ ruleWindows classes service symbol t,
        0 ≤ window.importance.getD 0 := by
      intro window hwindow
      obtain ⟨other, hother, rfl⟩ := List.mem_map.mp hwindow
      exact hstored other (mem_calendar_of_fetch hother)
    have heffective := effectiveImportance_nonneg matcher
      (maxImportance_nonneg hnonneg merged hmerged)
    omega

/-- Alone in the calendar an event blocks only when the query reaches it. -/
theorem inRange_of_blocks (hcalendar : service.calendar = [event])
    (h : Blocks classes service symbol t) :
    (ruleQuery classes service symbol t).inRange event = true := by
  obtain ⟨-, -, merged, hmerged, -⟩ := blocks_iff.mp h
  by_contra hrange
  have hempty : ruleWindows classes service symbol t = [] := by
    simp [ruleWindows, fetchEconomicCalendar, matching, hcalendar, hrange]
  rw [hempty] at hmerged
  simp [mergeWindows, merge, sortByStart, sweep] at hmerged

end Guard

section Complete

/-- For no calendar does the guard let an active event pass. -/
def MissesNone (classes : CharClasses) (settings : EconomicConfig)
    (analyzer : Option MarketImpactAnalyzer) (symbol : String) (t : ℤ) : Prop :=
  ∀ calendar, WithinLimit classes ⟨settings, analyzer, calendar⟩ symbol t →
    OnScale ⟨settings, analyzer, calendar⟩ →
      (∃ event ∈ calendar, ActiveEvent classes ⟨settings, analyzer, calendar⟩ symbol t event) →
        Blocks classes ⟨settings, analyzer, calendar⟩ symbol t

/-- The relevance filter is on and has nothing to filter by. -/
def EmptyFilter (settings : EconomicConfig) : Prop :=
  settings.tradeGuardRelevanceFilterEnabled = true ∧
    (GoldRelevancePolicy.fromCsv settings.goldImpactKeywords
      settings.goldImpactCategories).isEmpty = true

/-- The range reaches as far as the buffers of every event name whose window is not empty. -/
def RangeReaches (settings : EconomicConfig) (analyzer : Option MarketImpactAnalyzer) : Prop :=
  ∀ eventName, (eventBuffers settings analyzer eventName).1 +
      (eventBuffers settings analyzer eventName).2 < 0 ∨
    ((eventBuffers settings analyzer eventName).1 ≤
        max 0 settings.tradeGuardLookaheadMinutes ∧
      (eventBuffers settings analyzer eventName).2 ≤
        max 0 settings.tradeGuardLookbackMinutes)

theorem matcher_ok_iff {settings : EconomicConfig} :
    (∃ matcher, buildRelevanceMatcherFromSettings settings = .ok matcher) ↔
      ¬ EmptyFilter settings := by
  unfold buildRelevanceMatcherFromSettings EmptyFilter buildRelevanceMatcher
  cases settings.tradeGuardRelevanceFilterEnabled with
  | false => simp
  | true =>
    simp only [Bool.true_eq_false, if_false, true_and]
    split
    · rename_i hpolicy
      simp [Except.map, hpolicy]
    · rename_i hpolicy
      simpa [Except.map] using hpolicy

variable (classes : CharClasses) (settings : EconomicConfig)
  (analyzer : Option MarketImpactAnalyzer) (symbol : String) (t : ℤ)

def heavyImportance (settings : EconomicConfig) : ℤ :=
  max (leastImportance settings settings.tradeGuardImportanceMin)
    (max 1 (settings.tradeGuardBlockImportanceMin + 1))

/-- An event of a name and a time that the guard should heed. -/
def heavyEvent (eventName : String) (scheduledAt : ℤ) : EconomicCalendarEvent where
  scheduledAt := scheduledAt
  eventUid := ""
  source := ""
  eventName := eventName
  country := (inferSymbolContext classes symbol).countries.head?
  category := none
  currency := (inferSymbolContext classes symbol).currencies.head?
  importance := some (heavyImportance settings)
  sessionBucket := ""
  status := .scheduled

theorem heavyImportance_spec (settings : EconomicConfig) :
    leastImportance settings settings.tradeGuardImportanceMin ≤ heavyImportance settings ∧
      1 ≤ heavyImportance settings ∧
        settings.tradeGuardBlockImportanceMin + 1 ≤ heavyImportance settings := by
  unfold heavyImportance
  omega

theorem anyOf_nil {α : Type} [DecidableEq α] (column : Option α) : anyOf [] column = true := rfl

theorem anyOf_head {α : Type} [DecidableEq α] (allowed : List α) :
    anyOf allowed allowed.head? = true := by
  cases allowed with
  | nil => rfl
  | cons first rest => simp [anyOf]

variable {classes settings analyzer symbol t} {eventName : String} {scheduledAt : ℤ}

variable (classes symbol) in
theorem activeEvent_heavyEvent (hfilter : ¬ EmptyFilter settings)
    (hstarted : scheduledAt - minutes (eventBuffers settings analyzer eventName).1 ≤ t)
    (hlasting : t ≤ scheduledAt + minutes (eventBuffers settings analyzer eventName).2) :
    ActiveEvent classes
      ⟨settings, analyzer, [heavyEvent classes settings symbol eventName scheduledAt]⟩ symbol t
      (heavyEvent classes settings symbol eventName scheduledAt) where
  accepted := by
    have hleast := (heavyImportance_spec settings).1
    have hstatus : anyOf [EventStatus.scheduled, .imminent, .pendingRelease, .released]
        (some .scheduled) = true := rfl
    simp [CalendarQuery.accepts, ruleQuery, guardQuery, heavyEvent, anyOf_nil, anyOf_head,
      hstatus, hleast]
  started := hstarted
  lasting := hlasting
  blocks := by
    obtain ⟨matcher, hmatcher⟩ := matcher_ok_iff.mpr hfilter
    refine ⟨matcher, hmatcher, ?_⟩
    have hlevel := pred_le_effectiveImportance matcher (openWindow (buildWindow
      ⟨settings, analyzer, [heavyEvent classes settings symbol eventName scheduledAt]⟩
      (heavyEvent classes settings symbol eventName scheduledAt)))
    change heavyImportance settings - 1 ≤ _ at hlevel
    have hheavy := (heavyImportance_spec settings).2.2
    dsimp only
    omega

variable (eventName scheduledAt) in
/-- A guard that misses no event reaches every time at which one would be active. -/
theorem reaches_of_missesNone (h : MissesNone classes settings analyzer symbol t)
    (hfilter : ¬ EmptyFilter settings)
    (hstarted : scheduledAt - minutes (eventBuffers settings analyzer eventName).1 ≤ t)
    (hlasting : t ≤ scheduledAt + minutes (eventBuffers settings analyzer eventName).2) :
    t - minutes (max 0 settings.tradeGuardLookbackMinutes) ≤ scheduledAt ∧
      scheduledAt ≤ t + minutes (max 0 settings.tradeGuardLookaheadMinutes) := by
  let event := heavyEvent classes settings symbol eventName scheduledAt
  have hone : [event].length ≤ 500 := by
    rw [List.length_singleton]
    decide
  have hlimit : WithinLimit classes ⟨settings, analyzer, [event]⟩ symbol t :=
    withinLimit_of_length_le hone
  have hscale : OnScale ⟨settings, analyzer, [event]⟩ := by
    refine Or.inr fun other hother => ?_
    have hpositive := (heavyImportance_spec settings).2.1
    rw [List.mem_singleton.mp hother]
    simp only [event, heavyEvent, Option.getD_some]
    omega
  have hactive := activeEvent_heavyEvent classes symbol hfilter hstarted hlasting
  have hblocks := h [event] hlimit hscale ⟨event, List.mem_singleton_self _, hactive⟩
  exact inRange_iff.mp (inRange_of_blocks rfl hblocks)

theorem rangeReaches_of_missesNone (h : MissesNone classes settings analyzer symbol t)
    (hfilter : ¬ EmptyFilter settings) : RangeReaches settings analyzer := by
  intro eventName
  by_cases hempty : (eventBuffers settings analyzer eventName).1 +
      (eventBuffers settings analyzer eventName).2 < 0
  · exact Or.inl hempty
  · -- the first and the last event whose window holds the time
    have hlast := reaches_of_missesNone eventName
      (t + minutes (eventBuffers settings analyzer eventName).1) h hfilter
      (by omega) (by simp only [minutes]; omega)
    have hfirst := reaches_of_missesNone eventName
      (t - minutes (eventBuffers settings analyzer eventName).2) h hfilter
      (by simp only [minutes]; omega) (by omega)
    simp only [minutes] at hlast hfirst
    right
    constructor
    · omega
    · omega

theorem inRange_of_rangeReaches {service : Service} {event : EconomicCalendarEvent}
    (h : RangeReaches service.settings service.marketImpactAnalyzer)
    (hactive : ActiveEvent classes service symbol t event) :
    (ruleQuery classes service symbol t).inRange event = true := by
  have hstarted := hactive.started
  have hlasting := hactive.lasting
  simp only [computeWindowBounds, minutes] at hstarted hlasting
  rw [inRange_iff]
  simp only [minutes]
  rcases h event.eventName with hempty | ⟨hahead, hback⟩
  · omega
  · omega

/-- The guard misses no active event exactly when the range reaches as far as the buffers;
where the filter has nothing to filter by it judges no event. -/
theorem missesNone_iff (classes : CharClasses) (settings : EconomicConfig)
    (analyzer : Option MarketImpactAnalyzer) (symbol : String) (t : ℤ) :
    MissesNone classes settings analyzer symbol t ↔
      EmptyFilter settings ∨ RangeReaches settings analyzer := by
  constructor
  · intro h
    by_cases hfilter : EmptyFilter settings
    · exact Or.inl hfilter
    · exact Or.inr (rangeReaches_of_missesNone h hfilter)
  · rintro (hfilter | hreaches) calendar hlimit hscale ⟨event, hmem, hactive⟩
    · obtain ⟨matcher, hmatcher, -⟩ := hactive.blocks
      exact absurd hfilter (matcher_ok_iff.mp ⟨matcher, hmatcher⟩)
    · exact blocks_of_inRange hlimit hscale hmem hactive
        (inRange_of_rangeReaches hreaches hactive)

end Complete

/-! ### Ten minutes after a release -/

def asciiClasses : CharClasses where
  isAlnum := Char.isAlphanum
  isAlpha := Char.isAlpha

def cpiRelease : EconomicCalendarEvent where
  scheduledAt := 0
  eventUid := "jin10:1"
  source := "jin10"
  eventName := "CPI"
  country := some "United States"
  category := none
  currency := some "USD"
  importance := some 3
  sessionBucket := "us"
  status := .released

/-- The default settings over one release. -/
def afterRelease : Service where
  settings := {}
  marketImpactAnalyzer := none
  calendar := [cpiRelease]

/-- The lookback of zero minutes drops an event from its release on, while its window lasts
for another half hour. -/
theorem not_blocks_afterRelease :
    WithinLimit asciiClasses afterRelease "XAUUSD" (minutes 10) ∧ OnScale afterRelease ∧
      cpiRelease ∈ afterRelease.calendar ∧
      ActiveEvent asciiClasses afterRelease "XAUUSD" (minutes 10) cpiRelease ∧
      ¬ Blocks asciiClasses afterRelease "XAUUSD" (minutes 10) := by
  have hlate : (ruleQuery asciiClasses afterRelease "XAUUSD" (minutes 10)).inRange cpiRelease =
      false := by decide
  refine ⟨withinLimit_of_length_le (by decide), Or.inl (by decide),
    List.mem_singleton_self _, ?_, ?_⟩
  · exact {
      accepted := by decide +kernel
      started := by decide
      lasting := by decide
      blocks := ⟨none, rfl, by decide⟩ }
  · intro hblocks
    have hrange := inRange_of_blocks rfl hblocks
    rw [hlate] at hrange
    exact Bool.false_ne_true hrange

end MT5Services.TradeGuard
