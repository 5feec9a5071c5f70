import Mathlib.Algebra.Order.Field.Basic
import Mathlib.Algebra.Order.Field.Rat
import Mathlib.Data.List.MinMax
import Mathlib.Tactic.Linarith
import Mathlib.Tactic.NormNum
import Mathlib.Tactic.Ring
import MT5Services.TradeGuard

/-!
The confidence decay of signals near economic events: a policy with a hard block about an
event and a linear decay around it, and a service that asks the calendar for the events of the
decay window and applies the policy to the nearest one. The service reads the time of an
event under the name `event_time`, which no row of the calendar has, so it decays nothing.
Times are microseconds, distances minutes.
-/
namespace MT5Services.EconomicDecay

open TradeGuard

/-! ### The policy -/

structure EconomicEventWindow where
  lookaheadMinutes : ℤ
  lookbackMinutes : ℤ
  importanceMin : ℤ
  deriving DecidableEq, Repr

structure SignalEconomicPolicy where
  enabled : Bool
  filterWindow : EconomicEventWindow
  queryWindow : EconomicEventWindow
  hardBlockPreMinutes : ℤ
  hardBlockPostMinutes : ℤ
  decayPreMinutes : ℤ
  decayPostMinutes : ℤ
  deriving DecidableEq, Repr

/-- The settings that a policy is built from. -/
structure EconomicSettings where
  enabled : Bool := true
  highImportanceThreshold : ℤ := 3
  preEventBufferMinutes : ℤ := 30
  postEventBufferMinutes : ℤ := 30
  releaseWatchApproachingMinutes : ℤ := 120
  releaseWatchPostEventMinutes : ℤ := 15

def SignalEconomicPolicy.decayForDelta (policy : SignalEconomicPolicy) (deltaMinutes : ℚ) : ℚ :=
  if policy.enabled = false then 1
  else if policy.decayPreMinutes < deltaMinutes then 1
  else if policy.hardBlockPreMinutes < deltaMinutes then
    let span : ℚ := policy.decayPreMinutes - policy.hardBlockPreMinutes
    if span ≤ 0 then 0 else max 0 (min 1 ((deltaMinutes - policy.hardBlockPreMinutes) / span))
  else if 0 ≤ deltaMinutes then 0
  else if -policy.hardBlockPostMinutes ≤ deltaMinutes then 0
  else if -policy.decayPostMinutes ≤ deltaMinutes then
    let span : ℚ := policy.decayPostMinutes - policy.hardBlockPostMinutes
    if span ≤ 0 then 1 else max 0 (min 1 ((|deltaMinutes| - policy.hardBlockPostMinutes) / span))
  else 1

def buildSignalEconomicPolicy (settings : EconomicSettings) : SignalEconomicPolicy :=
  let importanceMin := max 1 settings.highImportanceThreshold
  let hardBlockPre := max 0 settings.preEventBufferMinutes
  let hardBlockPost := max 0 settings.postEventBufferMinutes
  let decayPre := max hardBlockPre settings.releaseWatchApproachingMinutes
  let decayPost := max hardBlockPost settings.releaseWatchPostEventMinutes
  { enabled := settings.enabled
    filterWindow := ⟨hardBlockPre, hardBlockPost, importanceMin⟩
    queryWindow := ⟨decayPre, decayPost, importanceMin⟩
    hardBlockPreMinutes := hardBlockPre
    hardBlockPostMinutes := hardBlockPost
    decayPreMinutes := decayPre
    decayPostMinutes := decayPost }

/-! ### The rows of the calendar -/

/-- The attributes of an `EconomicCalendarEvent` besides `scheduled_at`: its fields and its
methods. -/
def otherAttributes : List String :=
  ["event_uid", "source", "provider_event_id", "event_name", "country", "category", "currency",
    "reference", "actual", "previous", "forecast", "revised", "importance", "unit", "release_id",
    "source_url", "all_day", "scheduled_at_local", "local_timezone", "scheduled_at_release",
    "release_timezone", "session_bucket", "is_asia_session", "is_europe_session",
    "is_us_session", "status", "first_seen_at", "last_seen_at", "released_at",
    "last_value_check_at", "raw_payload", "ingested_at", "last_updated", "enrich_time_context",
    "to_row", "to_update_row", "from_db_row"]

/-- What the other attributes of a row hold, as far as it is a time. -/
abbrev OtherTimes := EconomicCalendarEvent → String → Option ℤ

/-- `getattr(evt, name, None)`. -/
def getAttribute (others : OtherTimes) (event : EconomicCalendarEvent) (name : String) :
    Option ℤ :=
  if name = "scheduled_at" then some event.scheduledAt
  else if name ∈ otherAttributes then others event name
  else none

/-! ### The service -/

/-- The provider serves the rows of the table; the read-only one does the same. -/
structure EconomicDecayService where
  calendar : List EconomicCalendarEvent
  others : OtherTimes
  policy : SignalEconomicPolicy

/-- The call of `get_events` for a window of the policy. -/
def windowQuery (context : SymbolContext) (window : EconomicEventWindow) (atTime : ℤ)
    (limit : ℕ) : CalendarQuery where
  startTime := some (atTime - minutes window.lookbackMinutes)
  endTime := some (atTime + minutes window.lookaheadMinutes)
  limit := limit
  countries := context.countries
  currencies := context.currencies
  statuses := [.scheduled, .imminent, .pendingRelease, .released]
  importanceMin := some window.importanceMin

/-- `(event_time - at_time).total_seconds() / 60.0`. -/
def deltaMinutes (eventTime atTime : ℤ) : ℚ := ((eventTime - atTime : ℤ) : ℚ) / 60000000

/-- A delta takes the place of the best one so far when it is closer. -/
def closer (bestDelta : Option ℚ) (delta : ℚ) : Option ℚ :=
  match bestDelta with
  | none => some delta
  | some best => if |delta| < |best| then some delta else some best

/-- The loop over the events, with the times that it reads off them. -/
def bestDelta (atTime : ℤ) (eventTimes : List (Option ℤ)) : Option ℚ :=
  eventTimes.foldl
    (fun best eventTime =>
      match eventTime with
      | none => best
      | some eventTime => closer best (deltaMinutes eventTime atTime)) none

namespace EconomicDecayService

/-- `_query`. -/
def query (classes : CharClasses) (service : EconomicDecayService) (symbol : String)
    (atTime : ℤ) : ℚ :=
  let events := fetchEconomicCalendar service.calendar
    (windowQuery (inferSymbolContext classes symbol) service.policy.queryWindow atTime 5)
  match bestDelta atTime (events.map fun evt => getAttribute service.others evt "event_time") with
  | none => 1
  | some best => service.policy.decayForDelta best

/-- `decay_factor`, with what the cache holds for the symbol. -/
def decayFactor (classes : CharClasses) (service : EconomicDecayService) (symbol : String)
    (atTime : ℤ) (cached : Option ℚ) : ℚ :=
  if service.policy.enabled = false then 1
  else cached.getD (service.query classes symbol atTime)

def hasBlockingEvent (classes : CharClasses) (service : EconomicDecayService) (symbol : String)
    (atTime : ℤ) : Bool × String :=
  let events := fetchEconomicCalendar service.calendar
    (windowQuery (inferSymbolContext classes symbol) service.policy.filterWindow atTime 50)
  if service.policy.enabled = false then (false, "")
  else if events ≠ [] then (true, "economic_event_block")
  else (false, "")

/-- The events of the symbol in a window of the policy, however many there are. -/
def matchingEvents (classes : CharClasses) (service : EconomicDecayService)
    (window : EconomicEventWindow) (symbol : String) (atTime : ℤ) : List EconomicCalendarEvent :=
  matching service.calendar (windowQuery (inferSymbolContext classes symbol) window atTime 0)

end EconomicDecayService

/-! ### What the policy says inside the decay window -/

theorem clamped_eq_one_iff {x span : ℚ} (hspan : 0 < span) :
    max 0 (min 1 (x / span)) = 1 ↔ span ≤ x := by
  rw [← one_le_div hspan]
  constructor
  · intro h
    by_contra hlt
    have hmin : min 1 (x / span) < 1 := lt_of_le_of_lt (min_le_right _ _) (not_le.mp hlt)
    have hmax : max 0 (min 1 (x / span)) < 1 := max_lt one_pos hmin
    rw [h] at hmax
    exact lt_irrefl _ hmax
  · intro h
    rw [min_eq_left h, max_eq_right zero_le_one]

/-- The four widths of a policy in their order. -/
structure Ordered (policy : SignalEconomicPolicy) : Prop where
  pre_nonneg : 0 ≤ policy.hardBlockPreMinutes
  pre_le : policy.hardBlockPreMinutes ≤ policy.decayPreMinutes
  post_nonneg : 0 ≤ policy.hardBlockPostMinutes
  post_le : policy.hardBlockPostMinutes ≤ policy.decayPostMinutes

theorem ordered_build (settings : EconomicSettings) :
    Ordered (buildSignalEconomicPolicy settings) where
  pre_nonneg := le_max_left _ _
  pre_le := le_max_left _ _
  post_nonneg := le_max_left _ _
  post_le := le_max_left _ _

/-- Within the window the decay ends only at the edges of a zone that has some width. -/
theorem decayForDelta_eq_one_iff {policy : SignalEconomicPolicy} {delta : ℚ}
    (henabled : policy.enabled = true) (hordered : Ordered policy)
    (hlow : -(policy.decayPostMinutes : ℚ) ≤ delta) (hhigh : delta ≤ policy.decayPreMinutes) :
    policy.decayForDelta delta = 1 ↔
      (policy.hardBlockPreMinutes < policy.decayPreMinutes ∧ delta = policy.decayPreMinutes) ∨
        (policy.hardBlockPostMinutes < policy.decayPostMinutes ∧
          delta = -(policy.decayPostMinutes : ℚ)) := by
  have hpre : (0 : ℚ) ≤ policy.hardBlockPreMinutes := by exact_mod_cast hordered.pre_nonneg
  have hpreLe : (policy.hardBlockPreMinutes : ℚ) ≤ policy.decayPreMinutes := by
    exact_mod_cast hordered.pre_le
  have hpost : (0 : ℚ) ≤ policy.hardBlockPostMinutes := by exact_mod_cast hordered.post_nonneg
  have hpostLe : (policy.hardBlockPostMinutes : ℚ) ≤ policy.decayPostMinutes := by
    exact_mod_cast hordered.post_le
  have hpreCast : policy.hardBlockPreMinutes < policy.decayPreMinutes ↔
      (policy.hardBlockPreMinutes : ℚ) < policy.decayPreMinutes := by norm_cast
  have hpostCast : policy.hardBlockPostMinutes < policy.decayPostMinutes ↔
      (policy.hardBlockPostMinutes : ℚ) < policy.decayPostMinutes := by norm_cast
  rw [hpreCast, hpostCast]
  unfold SignalEconomicPolicy.decayForDelta
  dsimp only
  rw [henabled, if_neg (by decide), if_neg (not_lt.mpr hhigh)]
  by_cases hbefore : (policy.hardBlockPreMinutes : ℚ) < delta
  · -- on the way to the event
    have hspan : (0 : ℚ) < policy.decayPreMinutes - policy.hardBlockPreMinutes := by linarith
    rw [if_pos hbefore, if_neg (not_le.mpr hspan), clamped_eq_one_iff hspan]
    constructor
    · intro h
      exact Or.inl ⟨by linarith, by linarith⟩
    · rintro (⟨_, hedge⟩ | ⟨_, hedge⟩)
      · rw [hedge]
      · linarith
  · rw [if_neg hbefore]
    by_cases hahead : 0 ≤ delta
    · rw [if_pos hahead]
      constructor
      · intro h
        exact absurd h (by norm_num)
      · rintro (⟨hwide, hedge⟩ | ⟨hwide, hedge⟩) <;> linarith
    · rw [if_neg hahead]
      by_cases hblocked : -(policy.hardBlockPostMinutes : ℚ) ≤ delta
      · rw [if_pos hblocked]
        constructor
        · intro h
          exact absurd h (by norm_num)
        · rintro (⟨hwide, hedge⟩ | ⟨hwide, hedge⟩) <;> linarith
      · -- after the event
        have hspan : (0 : ℚ) < policy.decayPostMinutes - policy.hardBlockPostMinutes := by
          linarith
        rw [if_neg hblocked, if_pos hlow, if_neg (not_le.mpr hspan), clamped_eq_one_iff hspan,
          abs_of_neg (not_le.mp hahead)]
        constructor
        · intro h
          exact Or.inr ⟨by linarith, by linarith⟩
        · rintro (⟨_, hedge⟩ | ⟨_, hedge⟩)
          · linarith
          · rw [hedge]
            linarith

/-! ### The loop -/

/-- What the loop knows after some events: nothing while no time was read, else the delta of
a nearest one. -/
inductive Found (atTime : ℤ) (eventTimes : List (Option ℤ)) : Option ℚ → Prop
  | nothing (hnone : ∀ eventTime ∈ eventTimes, eventTime = none) : Found atTime eventTimes none
  | nearest (eventTime : ℤ) (hmem : some eventTime ∈ eventTimes)
      (hleast : ∀ other, some other ∈ eventTimes →
        |deltaMinutes eventTime atTime| ≤ |deltaMinutes other atTime|) :
      Found atTime eventTimes (some (deltaMinutes eventTime atTime))

theorem Found.skip {atTime : ℤ} {eventTimes : List (Option ℤ)} {best : Option ℚ}
    (h : Found atTime eventTimes best) : Found atTime (eventTimes ++ [none]) best := by
  have hmem : ∀ other, some other ∈ eventTimes ++ [none] → some other ∈ eventTimes := by
    intro other hother
    simpa using hother
  cases h with
  | nothing hnone =>
    refine .nothing fun eventTime hother => ?_
    rcases List.mem_append.mp hother with hold | hnew
    · exact hnone eventTime hold
    · exact List.mem_singleton.mp hnew
  | nearest eventTime hfound hleast =>
    exact .nearest eventTime (List.mem_append_left _ hfound)
      fun other hother => hleast other (hmem other hother)

theorem Found.closer {atTime : ℤ} {eventTimes : List (Option ℤ)} {best : Option ℚ}
    (h : Found atTime eventTimes best) (next : ℤ) :
    Found atTime (eventTimes ++ [some next]) (closer best (deltaMinutes next atTime)) := by
  have hcases : ∀ other, some other ∈ eventTimes ++ [some next] →
      some other ∈ eventTimes ∨ other = next := by
    intro other hother
    simpa using hother
  have hnext : some next ∈ eventTimes ++ [some next] := by simp
  cases h with
  | nothing hnone =>
    refine .nearest next hnext fun other hother => ?_
    rcases hcases other hother with hold | rfl
    · exact absurd (hnone _ hold) (Option.some_ne_none other)
    · exact le_rfl
  | nearest eventTime hfound hleast =>
    unfold EconomicDecay.closer
    dsimp only
    by_cases hlt : |deltaMinutes next atTime| < |deltaMinutes eventTime atTime|
    · rw [if_pos hlt]
      refine .nearest next hnext fun other hother => ?_
      rcases hcases other hother with hold | rfl
      · exact hlt.le.trans (hleast other hold)
      · exact le_rfl
    · rw [if_neg hlt]
      refine .nearest eventTime (List.mem_append_left _ hfound) fun other hother => ?_
      rcases hcases other hother with hold | rfl
      · exact hleast other hold
      · exact not_lt.mp hlt

/-- The loop finds a nearest one of the events whose time it can read. -/
theorem found_bestDelta (atTime : ℤ) (eventTimes : List (Option ℤ)) :
    Found atTime eventTimes (bestDelta atTime eventTimes) := by
  induction eventTimes using List.reverseRecOn with
  | nil => exact .nothing fun eventTime hmem => absurd hmem List.not_mem_nil
  | append_singleton front last ih =>
    rw [bestDelta, List.foldl_concat]
    cases last with
    | none => exact ih.skip
    | some next => exact ih.closer next

/-! ### What the service reads off a row -/

theorem getAttribute_event_time (others : OtherTimes) (event : EconomicCalendarEvent) :
    getAttribute others event "event_time" = none := by
  have hother : "event_time" ∉ otherAttributes := by decide
  rw [getAttribute, if_neg (by decide), if_neg hother]

section Service

variable (classes : CharClasses) (service : EconomicDecayService) (symbol : String) (atTime : ℤ)

/-- No row has the time that the loop looks for. -/
theorem query_eq_one : service.query classes symbol atTime = 1 := by
  unfold EconomicDecayService.query
  dsimp only
  set events := fetchEconomicCalendar service.calendar
    (windowQuery (inferSymbolContext classes symbol) service.policy.queryWindow atTime 5)
  have hfound := found_bestDelta atTime
    (events.map fun evt => getAttribute service.others evt "event_time")
  cases hbest : bestDelta atTime
      (events.map fun evt => getAttribute service.others evt "event_time") with
  | none => rfl
  | some best =>
    rw [hbest] at hfound
    cases hfound with
    | nearest eventTime hmem _ =>
      obtain ⟨evt, _, hevt⟩ := List.mem_map.mp hmem
      rw [getAttribute_event_time] at hevt
      cases hevt

theorem decayFactor_eq_one : service.decayFactor classes symbol atTime none = 1 := by
  unfold EconomicDecayService.decayFactor
  split
  · rfl
  · rw [Option.getD_none, query_eq_one]

/-- A matching event of the decay window that no other one is nearer than. -/
structure Nearest (event : EconomicCalendarEvent) : Prop where
  mem : event ∈ service.matchingEvents classes service.policy.queryWindow symbol atTime
  least : ∀ other ∈ service.matchingEvents classes service.policy.queryWindow symbol atTime,
    |deltaMinutes event.scheduledAt atTime| ≤ |deltaMinutes other.scheduledAt atTime|

/-- The decay is that of a nearest event, one without any, and zero under a block. -/
structure Follows : Prop where
  decays : (service.matchingEvents classes service.policy.queryWindow symbol atTime = [] ∧
      service.decayFactor classes symbol atTime none = 1) ∨
    ∃ event, Nearest classes service symbol atTime event ∧
      service.decayFactor classes symbol atTime none =
        service.policy.decayForDelta (deltaMinutes event.scheduledAt atTime)
  blocks : (service.hasBlockingEvent classes symbol atTime).1 = true →
    service.decayFactor classes symbol atTime none = 0

/-- The event lies on the outer edge of a decay zone that has some width. -/
def OnOuterEdge (policy : SignalEconomicPolicy) (event : EconomicCalendarEvent) (atTime : ℤ) :
    Prop :=
  (policy.hardBlockPreMinutes < policy.decayPreMinutes ∧
      event.scheduledAt - atTime = minutes policy.decayPreMinutes) ∨
    (policy.hardBlockPostMinutes < policy.decayPostMinutes ∧
      event.scheduledAt - atTime = -minutes policy.decayPostMinutes)

variable {classes service symbol atTime}

theorem fetch_ne_nil_iff {calendar : List EconomicCalendarEvent} {query : CalendarQuery}
    (hlimit : 0 < query.limit) :
    fetchEconomicCalendar calendar query ≠ [] ↔ matching calendar query ≠ [] := by
  have hlength : (fetchEconomicCalendar calendar query).length =
      min query.limit (matching calendar query).length := by
    rw [fetchEconomicCalendar, List.length_take, List.length_insertionSort]
  rw [← List.length_pos_iff, ← List.length_pos_iff, hlength]
  omega

theorem hasBlockingEvent_iff :
    (service.hasBlockingEvent classes symbol atTime).1 = true ↔
      service.policy.enabled = true ∧
        service.matchingEvents classes service.policy.filterWindow symbol atTime ≠ [] := by
  have hfetch : fetchEconomicCalendar service.calendar
      (windowQuery (inferSymbolContext classes symbol) service.policy.filterWindow atTime 50) ≠
        [] ↔ service.matchingEvents classes service.policy.filterWindow symbol atTime ≠ [] :=
    fetch_ne_nil_iff (Nat.succ_pos 49)
  unfold EconomicDecayService.hasBlockingEvent
  dsimp only
  rw [← hfetch]
  cases henabled : service.policy.enabled with
  | false => simp
  | true =>
    rw [if_neg (by decide)]
    split
    · rename_i hsome
      exact ⟨fun _ => ⟨rfl, hsome⟩, fun _ => rfl⟩
    · rename_i hnone
      exact ⟨fun h => absurd h Bool.false_ne_true, fun h => absurd h.2 hnone⟩

theorem mem_matchingEvents {window : EconomicEventWindow} {event : EconomicCalendarEvent} :
    event ∈ service.matchingEvents classes window symbol atTime ↔
      event ∈ service.calendar ∧
        (atTime - minutes window.lookbackMinutes ≤ event.scheduledAt ∧
          event.scheduledAt ≤ atTime + minutes window.lookaheadMinutes) ∧
        (windowQuery (inferSymbolContext classes symbol) window atTime 0).accepts event = true := by
  rw [EconomicDecayService.matchingEvents, mem_matching]
  simp [windowQuery, CalendarQuery.inRange]

/-- An event of the window has its delta between the two edges. -/
theorem deltaMinutes_bounds {window : EconomicEventWindow} {event : EconomicCalendarEvent}
    (h : event ∈ service.matchingEvents classes window symbol atTime) :
    -(window.lookbackMinutes : ℚ) ≤ deltaMinutes event.scheduledAt atTime ∧
      deltaMinutes event.scheduledAt atTime ≤ window.lookaheadMinutes := by
  obtain ⟨_, ⟨hstart, hfinish⟩, _⟩ := mem_matchingEvents.mp h
  unfold minutes at hstart hfinish
  have hlow : -(60000000 * window.lookbackMinutes) ≤ event.scheduledAt - atTime := by omega
  have hhigh : event.scheduledAt - atTime ≤ 60000000 * window.lookaheadMinutes := by omega
  have hlowCast : -(60000000 * (window.lookbackMinutes : ℚ)) ≤
      ((event.scheduledAt - atTime : ℤ) : ℚ) := by exact_mod_cast hlow
  have hhighCast : ((event.scheduledAt - atTime : ℤ) : ℚ) ≤
      60000000 * (window.lookaheadMinutes : ℚ) := by exact_mod_cast hhigh
  unfold deltaMinutes
  constructor
  · rw [le_div_iff₀ (by norm_num)]
    linarith
  · rw [div_le_iff₀ (by norm_num)]
    linarith

theorem deltaMinutes_eq_iff (eventTime atTime n : ℤ) :
    deltaMinutes eventTime atTime = n ↔ eventTime - atTime = minutes n := by
  unfold deltaMinutes minutes
  rw [div_eq_iff (by norm_num)]
  constructor
  · intro h
    have hcast : ((eventTime - atTime : ℤ) : ℚ) = ((60000000 * n : ℤ) : ℚ) := by
      rw [h]
      push_cast
      ring
    exact_mod_cast hcast
  · intro h
    rw [h]
    push_cast
    ring

theorem onOuterEdge_iff {policy : SignalEconomicPolicy} {event : EconomicCalendarEvent} :
    OnOuterEdge policy event atTime ↔
      (policy.hardBlockPreMinutes < policy.decayPreMinutes ∧
        deltaMinutes event.scheduledAt atTime = policy.decayPreMinutes) ∨
      (policy.hardBlockPostMinutes < policy.decayPostMinutes ∧
        deltaMinutes event.scheduledAt atTime = -(policy.decayPostMinutes : ℚ)) := by
  have hneg : -(policy.decayPostMinutes : ℚ) = ((-policy.decayPostMinutes : ℤ) : ℚ) := by
    push_cast
    rfl
  have hminutes : minutes (-policy.decayPostMinutes) = -minutes policy.decayPostMinutes := by
    unfold minutes
    omega
  rw [hneg, deltaMinutes_eq_iff, deltaMinutes_eq_iff, hminutes]
  rfl

/-- Some matching event is nearest, if there is one at all. -/
theorem exists_nearest
    (h : service.matchingEvents classes service.policy.queryWindow symbol atTime ≠ []) :
    ∃ event, Nearest classes service symbol atTime event := by
  have hfound := found_bestDelta atTime
    ((service.matchingEvents classes service.policy.queryWindow symbol atTime).map
      fun event => some event.scheduledAt)
  obtain ⟨first, hfirst⟩ := List.exists_mem_of_ne_nil _ h
  cases hbest : bestDelta atTime
      ((service.matchingEvents classes service.policy.queryWindow symbol atTime).map
        fun event => some event.scheduledAt) with
  | none =>
    rw [hbest] at hfound
    cases hfound with
    | nothing hnone =>
      have hread := hnone _ (List.mem_map_of_mem hfirst)
      cases hread
  | some best =>
    rw [hbest] at hfound
    cases hfound with
    | nearest eventTime hmem hleast =>
      obtain ⟨event, hevent, htime⟩ := List.mem_map.mp hmem
      cases htime
      exact ⟨event, hevent, fun other hother => hleast _ (List.mem_map_of_mem hother)⟩


end Service

section Built

variable {classes : CharClasses} {calendar : List EconomicCalendarEvent} {others : OtherTimes}
  {settings : EconomicSettings} {symbol : String} {atTime : ℤ}

/-- The events that block are among those of the decay window. -/
theorem mem_query_of_mem_filter {event : EconomicCalendarEvent}
    {service : EconomicDecayService}
    (hpolicy : service.policy = buildSignalEconomicPolicy settings)
    (h : event ∈ service.matchingEvents classes service.policy.filterWindow symbol atTime) :
    event ∈ service.matchingEvents classes service.policy.queryWindow symbol atTime := by
  obtain ⟨hmem, ⟨hstart, hfinish⟩, haccepts⟩ := mem_matchingEvents.mp h
  have hordered := ordered_build settings
  rw [hpolicy] at hstart hfinish haccepts ⊢
  refine mem_matchingEvents.mpr ⟨hmem, ⟨?_, ?_⟩, haccepts⟩
  · have hle : (buildSignalEconomicPolicy settings).filterWindow.lookbackMinutes ≤
        (buildSignalEconomicPolicy settings).queryWindow.lookbackMinutes := hordered.post_le
    unfold minutes at hstart ⊢
    omega
  · have hle : (buildSignalEconomicPolicy settings).filterWindow.lookaheadMinutes ≤
        (buildSignalEconomicPolicy settings).queryWindow.lookaheadMinutes := hordered.pre_le
    unfold minutes at hfinish ⊢
    omega

/-- Over an enabled policy a matching event leaves the confidence alone only on an edge. -/
theorem decayForDelta_nearest_eq_one_iff {service : EconomicDecayService}
    (hpolicy : service.policy = buildSignalEconomicPolicy settings)
    (henabled : settings.enabled = true) {event : EconomicCalendarEvent}
    (h : Nearest classes service symbol atTime event) :
    service.policy.decayForDelta (deltaMinutes event.scheduledAt atTime) = 1 ↔
      OnOuterEdge service.policy event atTime := by
  obtain ⟨hlow, hhigh⟩ := deltaMinutes_bounds h.mem
  rw [onOuterEdge_iff]
  rw [hpolicy] at hlow hhigh ⊢
  exact decayForDelta_eq_one_iff henabled (ordered_build settings) hlow hhigh

theorem follows_of_no_match {service : EconomicDecayService}
    (hpolicy : service.policy = buildSignalEconomicPolicy settings)
    (hnone : service.matchingEvents classes service.policy.queryWindow symbol atTime = []) :
    Follows classes service symbol atTime := by
  refine ⟨Or.inl ⟨hnone, decayFactor_eq_one classes service symbol atTime⟩, fun hblocked => ?_⟩
  obtain ⟨event, hevent⟩ := List.exists_mem_of_ne_nil _ (hasBlockingEvent_iff.mp hblocked).2
  have hmem := mem_query_of_mem_filter hpolicy hevent
  rw [hnone] at hmem
  cases hmem

theorem follows_of_disabled {service : EconomicDecayService}
    (hdisabled : service.policy.enabled = false) : Follows classes service symbol atTime := by
  have hone := decayFactor_eq_one classes service symbol atTime
  constructor
  · by_cases hmatching :
        service.matchingEvents classes service.policy.queryWindow symbol atTime = []
    · exact Or.inl ⟨hmatching, hone⟩
    · obtain ⟨event, hnearest⟩ := exists_nearest hmatching
      refine Or.inr ⟨event, hnearest, ?_⟩
      rw [hone, SignalEconomicPolicy.decayForDelta, if_pos hdisabled]
  · intro hblocked
    have henabled := (hasBlockingEvent_iff.mp hblocked).1
    rw [hdisabled] at henabled
    exact absurd henabled Bool.false_ne_true

end Built

/-- With rows of the calendar the decay follows the nearest event exactly where there is
nothing to follow: under a disabled policy, without a matching event, or with a nearest one
on an outer edge and no event in the block. -/
theorem follows_iff (classes : CharClasses) (calendar : List EconomicCalendarEvent)
    (others : OtherTimes) (settings : EconomicSettings) (symbol : String) (atTime : ℤ) :
    let service : EconomicDecayService := ⟨calendar, others, buildSignalEconomicPolicy settings⟩
    Follows classes service symbol atTime ↔
      settings.enabled = false ∨
        service.matchingEvents classes service.policy.queryWindow symbol atTime = [] ∨
        ((∃ event, Nearest classes service symbol atTime event ∧
            OnOuterEdge service.policy event atTime) ∧
          service.matchingEvents classes service.policy.filterWindow symbol atTime = []) := by
  intro service
  have hone := decayFactor_eq_one classes service symbol atTime
  have hpolicy : service.policy = buildSignalEconomicPolicy settings := rfl
  constructor
  · intro hfollows
    cases henabled : settings.enabled with
    | false => exact Or.inl rfl
    | true =>
      have hclear :
          service.matchingEvents classes service.policy.filterWindow symbol atTime = [] := by
        by_contra hblock
        have hzero := hfollows.blocks (hasBlockingEvent_iff.mpr ⟨henabled, hblock⟩)
        rw [hone] at hzero
        exact one_ne_zero hzero
      rcases hfollows.decays with ⟨hnone, _⟩ | ⟨event, hnearest, hdecay⟩
      · exact Or.inr (Or.inl hnone)
      · rw [hone] at hdecay
        have hedge := (decayForDelta_nearest_eq_one_iff hpolicy henabled hnearest).mp hdecay.symm
        exact Or.inr (Or.inr ⟨⟨event, hnearest, hedge⟩, hclear⟩)
  · rintro (hdisabled | hnone | ⟨⟨event, hnearest, hedge⟩, hclear⟩)
    · exact follows_of_disabled hdisabled
    · exact follows_of_no_match hpolicy hnone
    · refine ⟨Or.inr ⟨event, hnearest, ?_⟩, fun hblocked => ?_⟩
      · cases henabled : settings.enabled with
        | false =>
          have hpolicyDisabled : service.policy.enabled = false := henabled
          rw [hone, SignalEconomicPolicy.decayForDelta, if_pos hpolicyDisabled]
        | true =>
          rw [hone, (decayForDelta_nearest_eq_one_iff hpolicy henabled hnearest).mpr hedge]
      · exact absurd hclear (hasBlockingEvent_iff.mp hblocked).2

/-- Ten minutes before a release the signals are blocked, and nothing is decayed. -/
theorem release_decays_nothing :
    ¬ ∀ (classes : CharClasses) (calendar : List EconomicCalendarEvent) (others : OtherTimes)
      (settings : EconomicSettings) (symbol : String) (atTime : ℤ),
      Follows classes ⟨calendar, others, buildSignalEconomicPolicy settings⟩ symbol atTime := by
  intro hclaim
  have hfollows := hclaim asciiClasses [cpiRelease] (fun _ _ => none) {} "XAUUSD" (-minutes 10)
  have hblocked : (EconomicDecayService.hasBlockingEvent asciiClasses
      ⟨[cpiRelease], fun _ _ => none, buildSignalEconomicPolicy {}⟩ "XAUUSD"
      (-minutes 10)).1 = true := by decide +kernel
  have hzero := hfollows.blocks hblocked
  rw [decayFactor_eq_one] at hzero
  exact one_ne_zero hzero

end MT5Services.EconomicDecay
