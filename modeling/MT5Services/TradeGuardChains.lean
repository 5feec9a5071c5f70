import MT5Services.TradeGuard

/-!
What a block of the trade guard rests on. Windows that meet are merged before they are judged,
and the merged window is judged by the highest importance in it and by every name with every
category in it. So the reason for a block is one of a chain: some event of the chain is active,
and the chain as a whole has the importance. An event whose window meets no other is judged
alone.
-/
namespace MT5Services.TradeGuardChains

open GoldRelevance MergedIntervals TradeGuard

/-- The windows that a call of `get_trade_guard` looks at. -/
def guardWindows (classes : CharClasses) (service : Service) (symbol : String) (t : ℤ)
    (lookaheadMinutes lookbackMinutes : ℤ) (limit : ℕ) (importanceMin : Option ℤ) :
    List RiskWindow :=
  (fetchEconomicCalendar service.calendar
    (guardQuery service.settings (inferSymbolContext classes symbol) t lookaheadMinutes
      lookbackMinutes limit importanceMin)).map (buildWindow service)

def RiskWindow.Holds (window : RiskWindow) (t : ℤ) : Prop :=
  window.windowStart ≤ t ∧ t ≤ window.windowEnd

/-- The importance that blocks, for the matcher that the settings give. -/
def Blocking (settings : EconomicConfig) (window : MergedWindow) : Prop :=
  ∃ matcher, buildRelevanceMatcherFromSettings settings = .ok matcher ∧
    settings.tradeGuardBlockImportanceMin ≤ effectiveImportance matcher window

/-- A single event of the calendar is a reason to block: its own window holds the time, and
its own effective importance is enough. -/
def OwnReason (service : Service) (t : ℤ) (event : EconomicCalendarEvent) : Prop :=
  RiskWindow.Holds (buildWindow service event) t ∧
    Blocking service.settings (openWindow (buildWindow service event))

/-- A chain of windows, each of which starts inside an earlier one, is a reason to block: one
of them holds the time, and what they are merged into has importance enough. -/
structure ChainReason (settings : EconomicConfig) (windows : List RiskWindow) (t : ℤ)
    (first : RiskWindow) (others : List RiskWindow) : Prop where
  chain : Chain merging windows (first :: others)
  active : ∃ window ∈ first :: others, RiskWindow.Holds window t
  blocking : Blocking settings (others.foldl takeUp (openWindow first))

/-- No window starts inside another one. -/
def Apart (windows : List RiskWindow) : Prop :=
  windows.Pairwise fun a b =>
    ¬ (a.windowStart ≤ b.windowStart ∧ b.windowStart ≤ a.windowEnd) ∧
      ¬ (b.windowStart ≤ a.windowStart ∧ a.windowStart ≤ b.windowEnd)

section Guard

variable {classes : CharClasses} {service : Service} {symbol : String} {t : ℤ}
  {lookaheadMinutes lookbackMinutes : ℤ} {limit : ℕ} {importanceMin : Option ℤ}
  {assessment : TradeGuardAssessment}

theorem exists_merged_of_blocked
    (h : getTradeGuard classes service symbol t lookaheadMinutes lookbackMinutes limit
      importanceMin = .ok assessment)
    (hblocked : assessment.blocked = true) :
    ∃ merged ∈ mergeWindows (guardWindows classes service symbol t lookaheadMinutes
        lookbackMinutes limit importanceMin),
      merged.active t = true ∧ Blocking service.settings merged := by
  unfold getTradeGuard at h
  dsimp only at h
  cases hmatcher : buildRelevanceMatcherFromSettings service.settings with
  | error message =>
    rw [hmatcher] at h
    cases h
  | ok matcher =>
    rw [hmatcher] at h
    cases h
    obtain ⟨merged, hmerged, hactive, heffective⟩ := assess_blocked_iff.mp hblocked
    exact ⟨merged, hmerged, hactive, matcher, hmatcher, heffective⟩

/-- A block rests on a chain of windows that meet, and on a single event where none meet. -/
theorem chain_reason_of_blocked
    (h : getTradeGuard classes service symbol t lookaheadMinutes lookbackMinutes limit
      importanceMin = .ok assessment)
    (hblocked : assessment.blocked = true) :
    (∃ first others, ChainReason service.settings
      (guardWindows classes service symbol t lookaheadMinutes lookbackMinutes limit
        importanceMin) t first others) ∧
    (Apart (guardWindows classes service symbol t lookaheadMinutes lookbackMinutes limit
        importanceMin) →
      ∃ event ∈ service.calendar, OwnReason service t event) := by
  obtain ⟨merged, hmerged, hactive, hblocking⟩ := exists_merged_of_blocked h hblocked
  obtain ⟨first, others, hchain, hpooled⟩ := exists_chain_of_mem_merge hmerged
  subst hpooled
  simp only [MergedWindow.active, decide_eq_true_eq] at hactive
  obtain ⟨window, hwindow, hholds⟩ :=
    exists_holds_of_pooled hchain.linked hactive.1 hactive.2
  refine ⟨⟨first, others, hchain, ⟨window, hwindow, hholds⟩, hblocking⟩, fun hapart => ?_⟩
  have halone := hchain.eq_nil_of_apart hapart
  subst halone
  rw [List.mem_singleton.mp hwindow] at hholds
  obtain ⟨event, hevent, hfirst⟩ := List.mem_map.mp (hchain.mem List.mem_cons_self)
  have hcalendar := mem_calendar_of_fetch hevent
  rw [← hfirst] at hholds hblocking
  exact ⟨event, hcalendar, hholds, hblocking⟩

end Guard

/-! ### A minor event under the weight of a major one -/

def majorRelease : EconomicCalendarEvent where
  scheduledAt := 0
  eventUid := "jin10:1"
  source := "jin10"
  eventName := "Fed Interest Rate Decision"
  country := some "United States"
  category := some "Interest Rate"
  currency := some "USD"
  importance := some 3
  sessionBucket := "us"
  status := .released

def minorRelease : EconomicCalendarEvent where
  scheduledAt := minutes 50
  eventUid := "jin10:2"
  source := "jin10"
  eventName := "Crude Oil Stocks Change"
  country := some "United States"
  category := some "Energy"
  currency := some "USD"
  importance := some 2
  sessionBucket := "us"
  status := .scheduled

/-- The default settings over two releases fifty minutes apart. -/
def twoReleases : Service where
  settings := {}
  marketImpactAnalyzer := none
  calendar := [majorRelease, minorRelease]

/-- An hour after the major release, when its own window is over. -/
def hourLater : TradeGuardAssessment :=
  assess twoReleases.settings (inferSymbolContext asciiClasses "XAUUSD") (minutes 60) (some 2) none
    (mergeWindows (guardWindows asciiClasses twoReleases "XAUUSD" (minutes 60) 180 120 500 (some 2)))

theorem getTradeGuard_hourLater :
    getTradeGuard asciiClasses twoReleases "XAUUSD" (minutes 60) 180 120 500 (some 2) =
      .ok hourLater := rfl

theorem hourLater_blocked : hourLater.blocked = true := by decide +kernel

theorem hourLater_chain :
    (∃ first others, ChainReason twoReleases.settings
      (guardWindows asciiClasses twoReleases "XAUUSD" (minutes 60) 180 120 500 (some 2))
      (minutes 60) first others) ∧
    (Apart (guardWindows asciiClasses twoReleases "XAUUSD" (minutes 60) 180 120 500 (some 2)) →
      ∃ event ∈ twoReleases.calendar, OwnReason twoReleases (minutes 60) event) :=
  chain_reason_of_blocked getTradeGuard_hourLater hourLater_blocked

/-- The minor release is active and the major one has the importance, so neither is a reason
of its own. -/
theorem hourLater_no_own_reason :
    ¬ ∃ event ∈ twoReleases.calendar, OwnReason twoReleases (minutes 60) event := by
  rintro ⟨event, hevent, hholds, matcher, hmatcher, hleast⟩
  have hnone : matcher = none := (Except.ok.inj hmatcher).symm
  subst hnone
  rcases List.mem_cons.mp hevent with hmajor | hrest
  · subst hmajor
    exact absurd hholds.2 (by decide)
  · rw [List.mem_singleton.mp hrest] at hleast
    exact absurd hleast (by decide)

theorem block_without_own_reason :
    ¬ ∀ (classes : CharClasses) (service : Service) (symbol : String) (t lookaheadMinutes
      lookbackMinutes : ℤ) (limit : ℕ) (importanceMin : Option ℤ)
      (assessment : TradeGuardAssessment),
      getTradeGuard classes service symbol t lookaheadMinutes lookbackMinutes limit
        importanceMin = .ok assessment → assessment.blocked = true →
        ∃ event ∈ service.calendar, OwnReason service t event := by
  intro hclaim
  exact hourLater_no_own_reason
    (hclaim _ _ _ _ _ _ _ _ _ getTradeGuard_hourLater hourLater_blocked)

end MT5Services.TradeGuardChains
