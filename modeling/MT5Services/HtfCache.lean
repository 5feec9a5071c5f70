import MT5Services.Dict
import MT5Services.Runs
import MT5Services.SignalStates

/-!
`HTFStateCache`: the direction of a symbol on a higher timeframe, taken from the confirmed
signals of all strategies it listens to. What the cache should say is told by a reference
that knows which strategy set the direction and on which bars it has been held since. The
cache itself counts the signals and forgets the direction with any cancellation.
-/
namespace MT5Services.HtfCache

open Runs SignalStates

/-- The bar time stands in the metadata; the cache does not read it. -/
structure SignalEvent where
  symbol : String
  timeframe : String
  strategy : String
  barTime : ℚ
  state : SignalState
  confidence : ℚ
  regime : String
  deriving DecidableEq, Repr

structure HtfDirectionContext where
  direction : Side
  confidence : ℚ
  regime : String
  stableBars : ℕ
  updatedAt : ℚ
  deriving DecidableEq, Repr

structure Settings where
  htfMap : Dict String String
  maxAge : ℚ
  /-- All strategies when `none`. -/
  sourceStrategies : Option (List String)
  positive : 0 < maxAge

def defaultHtfMap : Dict String String :=
  ((((Dict.empty.set "M1" "M5").set "M5" "M15").set "M15" "H1").set "H1" "H4").set "H4" "D1"

theorem one_le_max_age (maxAgeSeconds : ℚ) : 0 < max 1 maxAgeSeconds :=
  lt_of_lt_of_le zero_lt_one (le_max_left 1 maxAgeSeconds)

/-- An empty map or set counts as not given. -/
def construct (htfMap : Option (Dict String String)) (maxAgeSeconds : ℚ)
    (sourceStrategies : Option (List String)) : Settings where
  htfMap := (htfMap.filter fun map => map.items ≠ []).getD defaultHtfMap
  maxAge := max 1 maxAgeSeconds
  sourceStrategies := sourceStrategies.filter fun names => names ≠ []
  positive := one_le_max_age maxAgeSeconds

/-- Symbol and higher timeframe. -/
abbrev Key := String × String

abbrev Cache := Dict Key HtfDirectionContext

def Settings.listens (c : Settings) (strategy : String) : Bool :=
  match c.sourceStrategies with
  | none => true
  | some names => strategy ∈ names

def SignalEvent.key (event : SignalEvent) : Key := (event.symbol, event.timeframe)

def stableBarsAfter (prev : Option HtfDirectionContext) (direction : Side) : ℕ :=
  match prev with
  | none => 1
  | some entry => if entry.direction = direction then entry.stableBars + 1 else 1

def onSignalEvent (c : Settings) (cache : Cache) (now : ℚ) (event : SignalEvent) : Cache :=
  if c.listens event.strategy then
    match event.state with
    | .confirmedCancelled => cache.pop event.key
    | .confirmed direction =>
      cache.set event.key
        { direction := direction
          confidence := event.confidence
          regime := event.regime
          stableBars := stableBarsAfter (cache.get? event.key) direction
          updatedAt := now }
    | .tickDerived _ | .intrabarArmed _ => cache
  else cache

def getHtfContext (c : Settings) (cache : Cache) (now : ℚ) (symbol ltfTimeframe : String) :
    Option HtfDirectionContext :=
  match c.htfMap.get? ltfTimeframe with
  | none => none
  | some htf => (cache.get? (symbol, htf)).filter fun entry => now - entry.updatedAt ≤ c.maxAge

/-- A direction that is held: the strategy that last set it, when that was, and the bars of
the signals since it began. -/
structure Held where
  direction : Side
  strategy : String
  setAt : ℚ
  bars : List ℚ
  deriving DecidableEq, Repr

/-- The number of distinct bars on which the direction was held. -/
def Held.stableBars (held : Held) : ℕ := held.bars.dedup.length

/-- A signal sets the direction; only the strategy that set it takes it back, and with the
cancellation of another one the direction is held on that bar too. -/
def holds (c : Settings) (key : Key) (held : Option Held) (now : ℚ) (event : SignalEvent) :
    Option Held :=
  if c.listens event.strategy ∧ event.key = key then
    match event.state with
    | .confirmed direction =>
      some
        { direction := direction
          strategy := event.strategy
          setAt := now
          bars := ((held.filter fun before => before.direction = direction).elim []
            Held.bars) ++ [event.barTime] }
    | .confirmedCancelled =>
      (held.filter fun before => before.strategy ≠ event.strategy).map fun before =>
        { before with bars := before.bars ++ [event.barTime] }
    | .tickDerived _ | .intrabarArmed _ => held
  else held

structure Arrival where
  now : ℚ
  event : SignalEvent
  deriving DecidableEq, Repr

/-- The cache beside what is held on one symbol and timeframe. -/
structure Watched where
  cache : Cache := Dict.empty
  held : Option Held := none

def step (c : Settings) (key : Key) (s : Watched) (arrival : Arrival) : Option Watched :=
  some
    { cache := onSignalEvent c s.cache arrival.now arrival.event
      held := holds c key s.held arrival.now arrival.event }

/-- At any time the cache reports the direction that is held, unless it is too old, with the
number of bars on which it was. -/
def Reports (c : Settings) (symbol ltfTimeframe : String) (s : Watched) : Prop :=
  ∀ now, (getHtfContext c s.cache now symbol ltfTimeframe).map
      (fun context => (context.direction, context.stableBars)) =
    (s.held.filter fun held => now - held.setAt ≤ c.maxAge).map
      fun held => (held.direction, held.stableBars)

/-- A signal that repeats the direction is the first on its bar, and a cancellation is of
the strategy that set the direction. -/
def Plain (c : Settings) (key : Key) (s : Watched) (arrival : Arrival) : Prop :=
  c.listens arrival.event.strategy → arrival.event.key = key → ∀ held ∈ s.held,
    match arrival.event.state with
    | .confirmed direction => held.direction = direction → arrival.event.barTime ∉ held.bars
    | .confirmedCancelled => held.strategy = arrival.event.strategy
    | .tickDerived _ | .intrabarArmed _ => True

/-- Where both know a direction it was set at the same time. -/
def SameTime (key : Key) (s : Watched) : Prop :=
  ∀ entry held, s.cache.get? key = some entry → s.held = some held → entry.updatedAt = held.setAt

/-- The cache and the reference agree on the direction and the count. -/
def Agrees (key : Key) (s : Watched) : Prop :=
  (s.cache.get? key).map (fun entry => (entry.direction, entry.stableBars)) =
    s.held.map fun held => (held.direction, held.stableBars)

theorem stableBars_append (bars : List ℚ) (bar : ℚ) :
    (bars ++ [bar]).dedup.length = bars.dedup.length + if bar ∈ bars then 0 else 1 := by
  have hperm : (bars ++ [bar]).dedup.length = (bar :: bars).dedup.length :=
    (List.perm_append_singleton bar bars).dedup.length_eq
  rw [hperm]
  split_ifs with hmem
  · rw [List.dedup_cons_of_mem hmem]
    omega
  · rw [List.dedup_cons_of_notMem hmem, List.length_cons]

variable {c : Settings} {s : Watched}

theorem reports_iff_agrees {symbol ltfTimeframe htf : String}
    (hmap : c.htfMap.get? ltfTimeframe = some htf) (h : SameTime (symbol, htf) s) :
    Reports c symbol ltfTimeframe s ↔ Agrees (symbol, htf) s := by
  have hget : ∀ now, getHtfContext c s.cache now symbol ltfTimeframe =
      (s.cache.get? (symbol, htf)).filter fun entry => now - entry.updatedAt ≤ c.maxAge := by
    intro now
    unfold getHtfContext
    rw [hmap]
  have hfresh : ∀ time : ℚ, decide (time - time ≤ c.maxAge) = true := by
    intro time
    apply decide_eq_true
    rw [sub_self]
    exact le_of_lt c.positive
  unfold Reports Agrees
  simp only [hget]
  cases hentry : s.cache.get? (symbol, htf) with
  | none =>
    cases hheld : s.held with
    | none => exact iff_of_true (fun _ => rfl) rfl
    | some held =>
      refine iff_of_false ?_ (by simp)
      intro hall
      have hnow := hall held.setAt
      rw [Option.filter_some, hfresh] at hnow
      cases hnow
  | some entry =>
    cases hheld : s.held with
    | none =>
      refine iff_of_false ?_ (by simp)
      intro hall
      have hnow := hall entry.updatedAt
      rw [Option.filter_some, hfresh] at hnow
      cases hnow
    | some held =>
      have htime := h entry held hentry hheld
      simp only [Option.filter_some, htime, Option.map_some]
      constructor
      · intro hall
        have hnow := hall held.setAt
        rw [if_pos (hfresh _), if_pos (hfresh _)] at hnow
        exact hnow
      · intro hsame now
        split_ifs
        · exact hsame
        · rfl

/-- Both sides after a signal. -/
def arrived (c : Settings) (key : Key) (s : Watched) (arrival : Arrival) : Watched where
  cache := onSignalEvent c s.cache arrival.now arrival.event
  held := holds c key s.held arrival.now arrival.event

variable {key : Key} {arrival : Arrival}

/-- What a signal of a listened strategy on the key makes of both. -/
theorem agrees_confirmed {direction : Side} (hlistens : c.listens arrival.event.strategy = true)
    (hkey : arrival.event.key = key) (hstate : arrival.event.state = .confirmed direction)
    (hagrees : Agrees key s) : (Agrees key (arrived c key s arrival) ↔ Plain c key s arrival) ∧
      SameTime key (arrived c key s arrival) := by
  subst hkey
  have hplain : Plain c arrival.event.key s arrival ↔ ∀ held ∈ s.held,
      held.direction = direction → arrival.event.barTime ∉ held.bars := by
    unfold Plain
    rw [hstate]
    exact ⟨fun h => h hlistens rfl, fun h _ _ => h⟩
  rw [hplain]
  unfold Agrees at hagrees
  unfold Agrees SameTime arrived onSignalEvent holds
  simp only [hlistens, hstate, if_true, and_self, Dict.get?_set, Option.map_some, Held.stableBars]
  refine ⟨?_, ?_⟩
  · cases hentry : s.cache.get? arrival.event.key with
    | none =>
      rw [hentry] at hagrees
      have hheld : s.held = none := Option.map_eq_none_iff.mp hagrees.symm
      rw [hheld]
      refine iff_of_true rfl ?_
      intro held hmem
      cases hmem
    | some entry =>
      rw [hentry] at hagrees
      obtain ⟨held, hheld, hsame⟩ := Option.map_eq_some_iff.mp hagrees.symm
      obtain ⟨hdirection, hstable⟩ := Prod.mk.inj hsame
      rw [hheld]
      simp only [stableBarsAfter, Option.filter_some, ← hdirection, Option.mem_def,
        Option.some.injEq, forall_eq']
      by_cases hrepeats : held.direction = direction
      · rw [if_pos hrepeats, if_pos (decide_eq_true hrepeats), Option.elim_some,
          stableBars_append, ← hstable]
        unfold Held.stableBars
        split_ifs with hbar
        · simp [hrepeats, hbar]
        · simp [hrepeats, hbar]
      · have hfalse : ¬ decide (held.direction = direction) = true := by
          rw [decide_eq_true_eq]
          exact hrepeats
        rw [if_neg hrepeats, if_neg hfalse, Option.elim_none]
        exact iff_of_true rfl fun h => absurd h hrepeats
  · intro entry held hentry hheld
    cases hentry
    cases hheld
    rfl

theorem agrees_cancelled
    (hlistens : c.listens arrival.event.strategy = true) (hkey : arrival.event.key = key)
    (hstate : arrival.event.state = .confirmedCancelled) :
    (Agrees key (arrived c key s arrival) ↔ Plain c key s arrival) ∧
      SameTime key (arrived c key s arrival) := by
  subst hkey
  have hplain : Plain c arrival.event.key s arrival ↔ ∀ held ∈ s.held,
      held.strategy = arrival.event.strategy := by
    unfold Plain
    rw [hstate]
    exact ⟨fun h => h hlistens rfl, fun h _ _ => h⟩
  rw [hplain]
  unfold Agrees SameTime arrived onSignalEvent holds
  simp only [hlistens, hstate, if_true, and_self, Dict.get?_pop]
  refine ⟨?_, ?_⟩
  · cases hheld : s.held with
    | none =>
      refine iff_of_true rfl ?_
      intro held hmem
      cases hmem
    | some held =>
      simp only [Option.filter_some, Option.mem_def, Option.some.injEq, forall_eq']
      by_cases hown : held.strategy = arrival.event.strategy
      · have hfalse : ¬ decide (held.strategy ≠ arrival.event.strategy) = true := by
          rw [decide_eq_true_eq]
          exact fun h => h hown
        rw [if_neg hfalse]
        exact iff_of_true rfl hown
      · rw [if_pos (decide_eq_true hown)]
        refine iff_of_false ?_ hown
        intro h
        cases h
  · intro entry held hentry
    cases hentry

/-- Nothing of the key changes. -/
theorem agrees_other
    (hcache : (onSignalEvent c s.cache arrival.now arrival.event).get? key = s.cache.get? key)
    (hheld : holds c key s.held arrival.now arrival.event = s.held) (hagrees : Agrees key s)
    (htime : SameTime key s) (hplain : Plain c key s arrival) :
    (Agrees key (arrived c key s arrival) ↔ Plain c key s arrival) ∧
      SameTime key (arrived c key s arrival) := by
  unfold Agrees SameTime at *
  unfold arrived
  dsimp only
  rw [hcache, hheld]
  exact ⟨iff_of_true hagrees hplain, htime⟩

/-- A step from agreement keeps it exactly when it is plain. -/
theorem step_agrees (s : Watched) (arrival : Arrival) (t : Watched)
    (hagrees : Agrees key s) (htime : SameTime key s) (hstep : step c key s arrival = some t) :
    (Agrees key t ↔ Plain c key s arrival) ∧ SameTime key t := by
  cases Option.some.inj hstep
  change (Agrees key (arrived c key s arrival) ↔ _) ∧ SameTime key (arrived c key s arrival)
  by_cases hours : c.listens arrival.event.strategy = true ∧ arrival.event.key = key
  · obtain ⟨hlistens, hkey⟩ := hours
    cases hstate : arrival.event.state with
    | confirmed direction => exact agrees_confirmed hlistens hkey hstate hagrees
    | confirmedCancelled => exact agrees_cancelled hlistens hkey hstate
    | tickDerived side =>
      apply agrees_other _ _ hagrees htime
      · intro _ _ held _
        rw [hstate]
        trivial
      · simp only [onSignalEvent, hlistens, hstate, if_true]
      · simp only [holds, hlistens, hkey, hstate, and_self, if_true]
    | intrabarArmed side =>
      apply agrees_other _ _ hagrees htime
      · intro _ _ held _
        rw [hstate]
        trivial
      · simp only [onSignalEvent, hlistens, hstate, if_true]
      · simp only [holds, hlistens, hkey, hstate, and_self, if_true]
  · apply agrees_other _ _ hagrees htime
    · intro hlistens hkey
      exact absurd ⟨hlistens, hkey⟩ hours
    · unfold onSignalEvent
      split_ifs with hlistens
      · have hkey : key ≠ arrival.event.key := fun h => hours ⟨hlistens, h.symm⟩
        cases arrival.event.state with
        | confirmed direction =>
          dsimp only
          rw [Dict.get?_set, if_neg hkey]
        | confirmedCancelled =>
          dsimp only
          rw [Dict.get?_pop, if_neg hkey]
        | tickDerived side => rfl
        | intrabarArmed side => rfl
      · rfl
    · unfold holds
      rw [if_neg hours]

/-- For the signals of any symbols, timeframes and strategies in any order: what the cache
reports of a symbol is right all the time if and only if every signal on it is plain. -/
theorem reports_throughout_iff (c : Settings) (symbol : String) {ltfTimeframe htf : String}
    (hmap : c.htfMap.get? ltfTimeframe = some htf) (arrivals : List Arrival) :
    (∀ front back s, arrivals = front ++ back →
        run (step c (symbol, htf)) {} front = some s → Reports c symbol ltfTimeframe s) ↔
      Along (step c (symbol, htf)) (Plain c (symbol, htf)) {} arrivals := by
  have htime : SameTime (symbol, htf) ({} : Watched) := by
    intro entry held hentry
    cases hentry
  refine forall_reached_iff_along ?_ ?_ ((reports_iff_agrees hmap htime).mpr rfl) htime arrivals
  · intro s arrival t hreports hs hstep
    have hagrees := (reports_iff_agrees hmap hs).mp hreports
    obtain ⟨hiff, ht⟩ := step_agrees s arrival t hagrees hs hstep
    exact ⟨(reports_iff_agrees hmap ht).trans hiff, ht⟩
  · intro s arrival hstuck
    cases hstuck

def hourly : Settings := construct none 14400 none

def signalAt (now : ℚ) (strategy : String) (barTime : ℚ) (state : SignalState) : Arrival :=
  ⟨now, ⟨"XAUUSD", "H1", strategy, barTime, state, 4 / 5, "trending"⟩⟩

/-- Two bars of one strategy. -/
def twoBars : List Arrival :=
  [signalAt 0 "trend" 0 (.confirmed .buy), signalAt 3600 "trend" 3600 (.confirmed .buy)]

theorem reports_throughout_iff_twoBars :
    (∀ front back s, twoBars = front ++ back →
        run (step hourly ("XAUUSD", "H1")) {} front = some s → Reports hourly "XAUUSD" "M15" s) ↔
      Along (step hourly ("XAUUSD", "H1")) (Plain hourly ("XAUUSD", "H1")) {} twoBars :=
  reports_throughout_iff hourly "XAUUSD" (by decide +kernel) twoBars

def sameBar : List Arrival :=
  [signalAt 0 "trend" 0 (.confirmed .buy), signalAt 1 "momentum" 0 (.confirmed .buy)]

/-- Two strategies that confirm the same bar make two of it. -/
theorem not_reports :
    ¬ ∀ (arrivals front back : List Arrival) (s : Watched), arrivals = front ++ back →
      (arrivals.Pairwise fun a b => a.event.barTime ≤ b.event.barTime) →
        run (step hourly ("XAUUSD", "H1")) {} front = some s →
          Reports hourly "XAUUSD" "M15" s := by
  intro hall
  have hreports := hall sameBar sameBar [] _ (List.append_nil sameBar).symm (by decide +kernel) rfl
  have hnow := hreports 1
  revert hnow
  decide +kernel

end MT5Services.HtfCache
