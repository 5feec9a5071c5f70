import MT5Services.IndicatorPipeline
import MT5Services.Windows
import Mathlib.Algebra.Order.BigOperators.Group.List
import Mathlib.Algebra.Order.Field.Rat
import Mathlib.Tactic.FieldSimp
import Mathlib.Tactic.Linarith
import Mathlib.Tactic.Positivity
import Mathlib.Tactic.Ring

/-!
`IncrementalIndicator.compute` with the three classes that keep a window: a moving average,
Bollinger bands and a Donchian channel. A state holds sums or ring buffers of the last
`period` bars of the call that saved it; the fast path is taken as soon as the newest bar
is later than the saved one and replaces the oldest bar of the window by the newest.
-/
namespace MT5Services.IncrementalIndicators

open Runs Windows
open IndicatorPipeline (Bar Scope IndicatorState canUseIncremental)

/-- A subclass: the answers are `none` where the code returns an empty dictionary. `read` is
what it takes from a bar and `ring` the readings its state keeps. -/
structure IncrementalClass (R M X : Type*) where
  minDataPoints : ℕ
  computeFull : List Bar → Option R
  computeIncremental : List Bar → M → Option R
  createIntermediate : List Bar → M
  read : Bar → X
  ring : M → List X

structure Call where
  bars : List Bar
  scope : Scope
  useIncremental : Bool := true
  forceFull : Bool := false
  /-- The clock when the saved state is looked at, and when the new one is saved. -/
  now : ℚ
  savedAt : ℚ
  deriving DecidableEq

/-- The states of one symbol and timeframe, and a log of the calls with their answers. -/
structure Indicator (R M : Type*) where
  stateStore : Dict Scope (IndicatorState M) := Dict.empty
  answered : List (Call × Option R) := []

variable {R M X : Type*}

/-- The state the fast path continues from, when it is taken. -/
def fastState (s : Indicator R M) (call : Call) : Option (IndicatorState M) :=
  if call.useIncremental ∧ call.forceFull = false then
    (s.stateStore.get? call.scope).filter fun state =>
      state.isValid call.now && canUseIncremental call.bars state
  else none

def createNewState (c : IncrementalClass R M X) (call : Call) : IndicatorState M :=
  { timestamp := call.savedAt
    lastBarTime := call.bars.getLast?.map Bar.time
    intermediateResults := c.createIntermediate call.bars }

def result (c : IncrementalClass R M X) (s : Indicator R M) (call : Call) : Option R :=
  match fastState s call with
  | some state => c.computeIncremental call.bars state.intermediateResults
  | none => c.computeFull call.bars

/-- An empty answer leaves the saved state alone. -/
def compute (c : IncrementalClass R M X) (s : Indicator R M) (call : Call) : Indicator R M :=
  if call.bars.length < c.minDataPoints then { s with answered := s.answered ++ [(call, none)] }
  else
    { stateStore :=
        match result c s call with
        | some _ => s.stateStore.set call.scope (createNewState c call)
        | none => s.stateStore
      answered := s.answered ++ [(call, result c s call)] }

def step (c : IncrementalClass R M X) (s : Indicator R M) (call : Call) :
    Option (Indicator R M) :=
  some (compute c s call)

def start : Indicator R M := {}

/-- Every call with enough bars was answered as a full computation would have. -/
def AnswersFull (c : IncrementalClass R M X) (s : Indicator R M) : Prop :=
  ∀ entry ∈ s.answered, c.minDataPoints ≤ entry.1.bars.length →
    entry.2 = c.computeFull entry.1.bars

instance [DecidableEq R] (c : IncrementalClass R M X) (s : Indicator R M) :
    Decidable (AnswersFull c s) :=
  inferInstanceAs (Decidable (∀ entry ∈ s.answered, _ → _))

/-- The calls in their order are all answered as by full computations. -/
def AlwaysFull (c : IncrementalClass R M X) (calls : List Call) : Prop :=
  ∀ s ∈ run (step c) start calls, AnswersFull c s

instance [DecidableEq R] (c : IncrementalClass R M X) (calls : List Call) :
    Decidable (AlwaysFull c calls) :=
  inferInstanceAs (Decidable (∀ s ∈ run (step c) start calls, AnswersFull c s))

/-- The saved window without its oldest reading is the window before the newest bar. -/
def Slides (c : IncrementalClass R M X) (saved : M) (bars : List Bar) : Prop :=
  (c.ring saved).tail = (bars.map c.read).dropLast.rtake (c.minDataPoints - 1)

/-- Where the fast path is taken, exactly one bar has come since the state was saved and
the bars saved have not changed. -/
def FastSlides (c : IncrementalClass R M X) (s : Indicator R M) (call : Call) : Prop :=
  ∀ state ∈ fastState s call, Slides c state.intermediateResults call.bars

instance [DecidableEq X] (c : IncrementalClass R M X) (s : Indicator R M) (call : Call) :
    Decidable (FastSlides c s call) :=
  inferInstanceAs (Decidable (∀ state ∈ fastState s call, _ = _))

/-- A class keeps to its window: from a state saved over enough bars, the fast path computes
the full answer once the window slides by one bar. -/
def Windowed (c : IncrementalClass R M X) : Prop :=
  ∀ saved bars, c.minDataPoints ≤ saved.length → c.minDataPoints ≤ bars.length →
    Slides c (c.createIntermediate saved) bars →
    c.computeIncremental bars (c.createIntermediate saved) = c.computeFull bars

/-- The saved states are those of calls with enough bars, and the answers so far are full. -/
structure Seeded (c : IncrementalClass R M X) (s : Indicator R M) : Prop where
  states : ∀ scope state, s.stateStore.get? scope = some state → ∃ saved : List Bar,
    c.minDataPoints ≤ saved.length ∧ state.intermediateResults = c.createIntermediate saved
  answers : AnswersFull c s

variable {s : Indicator R M} {call : Call}

theorem fastState_stored {state : IndicatorState M}
    (h : fastState s call = some state) : s.stateStore.get? call.scope = some state := by
  unfold fastState at h
  split at h
  · exact (Option.filter_eq_some_iff.mp h).1
  · cases h

variable {c : IncrementalClass R M X}

/-- The window of the call is the saved one, slid by the newest bar. -/
theorem Slides.window {saved : M} {bars : List Bar} {newest : Bar}
    (h : Slides c saved bars) (hpos : 0 < c.minDataPoints) (hnewest : bars.getLast? = some newest) :
    (bars.map c.read).rtake c.minDataPoints = (c.ring saved).tail ++ [c.read newest] := by
  have hlast : (bars.map c.read).getLast? = some (c.read newest) := by
    rw [List.getLast?_map, hnewest, Option.map_some]
  rw [rtake_eq_concat hpos hlast, h]

/-- One call: with enough bars the answer is the full one, on either path. -/
theorem result_full (hc : Windowed c)
    (hs : Seeded c s) (henough : c.minDataPoints ≤ call.bars.length)
    (hslides : FastSlides c s call) : result c s call = c.computeFull call.bars := by
  unfold result
  cases hfast : fastState s call with
  | none => rfl
  | some state =>
    obtain ⟨saved, hsaved, hmade⟩ := hs.states call.scope state (fastState_stored hfast)
    have hwindow : Slides c (c.createIntermediate saved) call.bars := hmade ▸ hslides state hfast
    change c.computeIncremental call.bars state.intermediateResults = _
    rw [hmade]
    exact hc saved call.bars hsaved henough hwindow

theorem compute_seeded (hc : Windowed c) (hs : Seeded c s) (hslides : FastSlides c s call) :
    Seeded c (compute c s call) := by
  by_cases hfew : call.bars.length < c.minDataPoints
  · rw [compute, if_pos hfew]
    refine ⟨hs.states, ?_⟩
    intro entry hentry henough
    rcases List.mem_append.mp hentry with hold | hnew
    · exact hs.answers entry hold henough
    · obtain rfl := List.mem_singleton.mp hnew
      exact absurd hfew (Nat.not_lt.mpr henough)
  · have henough : c.minDataPoints ≤ call.bars.length := Nat.not_lt.mp hfew
    rw [compute, if_neg hfew]
    constructor
    · intro scope state hstate
      cases hresult : result c s call with
      | none =>
        simp only [hresult] at hstate
        exact hs.states scope state hstate
      | some answer =>
        simp only [hresult] at hstate
        rw [Dict.get?_set] at hstate
        split at hstate
        · cases Option.some.inj hstate
          exact ⟨call.bars, henough, rfl⟩
        · exact hs.states scope state hstate
    · intro entry hentry hbars
      rcases List.mem_append.mp hentry with hold | hnew
      · exact hs.answers entry hold hbars
      · obtain rfl := List.mem_singleton.mp hnew
        exact result_full hc hs henough hslides

theorem start_seeded (c : IncrementalClass R M X) : Seeded c start := by
  constructor
  · intro scope state hstate
    rw [start, Dict.get?_empty] at hstate
    cases hstate
  · intro entry hentry
    cases hentry

/-- A whole run of a class that keeps to its window. -/
theorem alwaysFull_of_windowed (hc : Windowed c) {calls : List Call}
    (hslides : Along (step c) (FastSlides c) start calls) : AlwaysFull c calls := by
  intro s hrun
  refine (run_invariant_along (I := Seeded c) ?_ (start_seeded c) hslides hrun).answers
  intro t call u ht hcall hstep
  cases Option.some.inj hstep
  exact compute_seeded hc ht hcall

/-- The numbers given under the key and its aliases in order, `none` where a key is absent or
not a number; a number below one gives way to the default. -/
def getInt (values : List (Option ℤ)) (default : ℕ) : ℕ :=
  match values.findSome? id with
  | some value => if 0 < value then value.toNat else default
  | none => default

def getFloat (values : List (Option ℚ)) (default : ℚ) : ℚ :=
  (values.findSome? id).getD default

structure Params where
  period : Option ℤ := none
  window : Option ℤ := none
  mult : Option ℚ := none
  numStd : Option ℚ := none
  deriving DecidableEq

def Params.length (params : Params) : ℕ := getInt [params.period, params.window] 20

def Params.width (params : Params) : ℚ := getFloat [params.mult, params.numStd] 2

theorem getInt_pos (values : List (Option ℤ)) {default : ℕ} (h : 0 < default) :
    0 < getInt values default := by
  unfold getInt
  split
  · split <;> omega
  · exact h

theorem Params.length_pos (params : Params) : 0 < params.length := getInt_pos _ (by omega)

def mean (values : List ℚ) : ℚ := values.sum / values.length

structure SmaState where
  runningSum : ℚ
  lastCloses : List ℚ
  deriving DecidableEq

def sma (params : Params) (bars : List Bar) : Option ℚ :=
  let closes := (bars.map Bar.close).rtake params.length
  if closes.length < params.length then none else some (mean closes)

/-- The oldest close of a full window, which the newest one replaces. -/
def dropped (period : ℕ) (lastCloses : List ℚ) : ℚ :=
  if period ≤ lastCloses.length then lastCloses.headD 0 else 0

def smaIncremental (params : Params) : IncrementalClass ℚ SmaState ℚ :=
  { minDataPoints := params.length
    computeFull := sma params
    computeIncremental := fun bars state => bars.getLast?.map fun bar =>
      (state.runningSum - dropped params.length state.lastCloses + bar.close) / params.length
    createIntermediate := fun bars =>
      let closes := (bars.rtake params.length).map Bar.close
      { runningSum := closes.sum, lastCloses := closes }
    read := Bar.close
    ring := SmaState.lastCloses }

theorem newest_of_le {bars : List Bar} {n : ℕ} (hpos : 0 < n) (h : n ≤ bars.length) :
    ∃ newest, bars.getLast? = some newest := by
  have hbars : bars ≠ [] := by
    rintro rfl
    rw [List.length_nil] at h
    omega
  exact ⟨bars.getLast hbars, List.getLast?_eq_some_getLast hbars⟩

theorem dropped_sum {period : ℕ} {closes : List ℚ} (h : period ≤ closes.length)
    (f : ℚ → ℚ) (hpos : 0 < period) :
    (closes.map f).sum - f (dropped period closes) = (closes.tail.map f).sum := by
  cases closes with
  | nil =>
    rw [List.length_nil] at h
    omega
  | cons oldest rest =>
    rw [dropped, if_pos h, List.headD_cons, List.map_cons, List.sum_cons, List.tail_cons,
      add_sub_cancel_left]

theorem smaIncremental_windowed (params : Params) : Windowed (smaIncremental params) := by
  intro saved bars hsaved hbars hslides
  change params.length ≤ saved.length at hsaved
  change params.length ≤ bars.length at hbars
  have hpos := params.length_pos
  obtain ⟨newest, hnewest⟩ := newest_of_le hpos hbars
  let closes := (saved.rtake params.length).map Bar.close
  have hlength : params.length ≤ closes.length := by
    rw [List.length_map, length_rtake_of_le hsaved]
  have hwindow : (bars.map Bar.close).rtake params.length = closes.tail ++ [newest.close] :=
    hslides.window hpos hnewest
  have hfull : ¬ ((bars.map Bar.close).rtake params.length).length < params.length := by
    rw [length_rtake, List.length_map]
    omega
  have hcount : ((bars.map Bar.close).rtake params.length).length = params.length := by
    rw [length_rtake, List.length_map]
    omega
  have hsum : closes.sum - dropped params.length closes = closes.tail.sum := by
    simpa only [List.map_id, id] using dropped_sum hlength id hpos
  change bars.getLast?.map _ = sma params bars
  rw [sma, if_neg hfull, mean, hcount, hwindow, hnewest, Option.map_some, List.sum_append,
    List.sum_singleton, ← hsum]
  rfl

structure BollingerState where
  runningSum : ℚ
  runningSqSum : ℚ
  lastCloses : List ℚ
  deriving DecidableEq

/-- The bands as their middle and the square of their half-width. -/
structure Bands where
  bbMid : ℚ
  halfWidthSq : ℚ
  close : ℚ
  deriving DecidableEq

/-- `np.std` squared. -/
def variance (values : List ℚ) : ℚ := mean (values.map fun value => (value - mean values) ^ 2)

def bollinger (params : Params) (bars : List Bar) : Option Bands :=
  let closes := (bars.map Bar.close).rtake params.length
  if closes.length < params.length then none
  else closes.getLast?.map fun close =>
    { bbMid := mean closes
      halfWidthSq := params.width ^ 2 * variance closes
      close := close }

def bollingerIncremental (params : Params) : IncrementalClass Bands BollingerState ℚ :=
  { minDataPoints := params.length
    computeFull := bollinger params
    computeIncremental := fun bars state => bars.getLast?.map fun bar =>
      let oldest := dropped params.length state.lastCloses
      let runningSum := state.runningSum - oldest + bar.close
      let runningSqSum := state.runningSqSum - oldest ^ 2 + bar.close ^ 2
      let middle := runningSum / params.length
      let var := runningSqSum / params.length - middle ^ 2
      { bbMid := middle
        halfWidthSq := params.width ^ 2 * if 0 < var then var else 0
        close := bar.close }
    createIntermediate := fun bars =>
      let closes := (bars.map Bar.close).rtake params.length
      { runningSum := closes.sum
        runningSqSum := (closes.map (· ^ 2)).sum
        lastCloses := closes }
    read := Bar.close
    ring := BollingerState.lastCloses }

theorem sum_sq_sub (values : List ℚ) (middle : ℚ) :
    (values.map fun value => (value - middle) ^ 2).sum =
      (values.map (· ^ 2)).sum - 2 * middle * values.sum + values.length * middle ^ 2 := by
  induction values with
  | nil => simp
  | cons value rest ih =>
    rw [List.map_cons, List.sum_cons, ih, List.map_cons, List.sum_cons, List.sum_cons,
      List.length_cons]
    push_cast
    ring

/-- The variance as the running sums have it. -/
theorem variance_eq {values : List ℚ} (h : 0 < values.length) :
    variance values =
      (values.map (· ^ 2)).sum / values.length - (values.sum / values.length) ^ 2 := by
  have hcount : (values.length : ℚ) ≠ 0 := by
    have hne : values.length ≠ 0 := by omega
    exact_mod_cast hne
  rw [variance, mean, List.length_map, sum_sq_sub, mean]
  field_simp
  ring

theorem variance_nonneg (values : List ℚ) : 0 ≤ variance values := by
  refine div_nonneg (List.sum_nonneg ?_) (by positivity)
  intro square hsquare
  obtain ⟨value, -, rfl⟩ := List.mem_map.mp hsquare
  exact sq_nonneg _

theorem bollingerIncremental_windowed (params : Params) :
    Windowed (bollingerIncremental params) := by
  intro saved bars hsaved hbars hslides
  change params.length ≤ saved.length at hsaved
  change params.length ≤ bars.length at hbars
  have hpos := params.length_pos
  obtain ⟨newest, hnewest⟩ := newest_of_le hpos hbars
  let closes := (saved.map Bar.close).rtake params.length
  have hlength : params.length ≤ closes.length := by
    rw [length_rtake, List.length_map]
    omega
  have hwindow : (bars.map Bar.close).rtake params.length = closes.tail ++ [newest.close] :=
    hslides.window hpos hnewest
  have hcount : (closes.tail ++ [newest.close]).length = params.length := by
    rw [← hwindow, length_rtake, List.length_map]
    omega
  have hsum : closes.sum - dropped params.length closes = closes.tail.sum := by
    simpa only [List.map_id, id] using dropped_sum hlength id hpos
  have hsq : (closes.map (· ^ 2)).sum - dropped params.length closes ^ 2 =
      (closes.tail.map (· ^ 2)).sum := dropped_sum hlength (· ^ 2) hpos
  have hvariance : variance (closes.tail ++ [newest.close]) =
      ((closes.map (· ^ 2)).sum - dropped params.length closes ^ 2 + newest.close ^ 2) /
        params.length -
      ((closes.sum - dropped params.length closes + newest.close) / params.length) ^ 2 := by
    rw [variance_eq (by omega), hcount, hsum, hsq, List.map_append, List.sum_append,
      List.sum_append, List.map_singleton, List.sum_singleton, List.sum_singleton]
  have hclipped : (if 0 < variance (closes.tail ++ [newest.close]) then
      variance (closes.tail ++ [newest.close]) else 0) =
      variance (closes.tail ++ [newest.close]) := by
    split
    · rfl
    · exact le_antisymm (variance_nonneg _) (not_lt.mp ‹_›)
  change bars.getLast?.map _ = bollinger params bars
  rw [bollinger, hwindow, if_neg (by omega), List.getLast?_concat, hnewest,
    Option.map_some, Option.map_some, mean, hcount, List.sum_append, List.sum_singleton, ← hsum,
    ← hclipped, hvariance]
  rfl

structure DonchianState where
  lastHighs : List ℚ
  lastLows : List ℚ
  deriving DecidableEq

structure Channel where
  upper : ℚ
  lower : ℚ
  mid : ℚ
  close : ℚ
  deriving DecidableEq

/-- The channel of a window's highs and lows; Python's `max` raises on an empty one. -/
def channel (highs lows : List ℚ) (close : ℚ) : Option Channel :=
  highs.max?.bind fun upper => lows.min?.map fun lower =>
    { upper := upper, lower := lower, mid := (upper + lower) / 2, close := close }

def donchian (params : Params) (bars : List Bar) : Option Channel :=
  let window := bars.rtake params.length
  if window.length < params.length then none
  else window.getLast?.bind fun last =>
    channel (window.map Bar.high) (window.map Bar.low) last.close

/-- The readings of a window with the newest one appended. -/
def pushed (period : ℕ) (readings : List ℚ) (newest : ℚ) : List ℚ :=
  if period < (readings ++ [newest]).length then (readings ++ [newest]).rtake period
  else readings ++ [newest]

def donchianIncremental (params : Params) : IncrementalClass Channel DonchianState (ℚ × ℚ) :=
  { minDataPoints := params.length
    computeFull := donchian params
    computeIncremental := fun bars state => bars.getLast?.bind fun bar =>
      channel (pushed params.length state.lastHighs bar.high)
        (pushed params.length state.lastLows bar.low) bar.close
    createIntermediate := fun bars =>
      let window := bars.rtake params.length
      { lastHighs := window.map Bar.high, lastLows := window.map Bar.low }
    read := fun bar => (bar.high, bar.low)
    ring := fun state => state.lastHighs.zip state.lastLows }

theorem pushed_full {period : ℕ} {readings : List ℚ} (h : readings.length = period)
    (hpos : 0 < period) (newest : ℚ) : pushed period readings newest = readings.tail ++ [newest] := by
  have hlonger : period < (readings ++ [newest]).length := by
    rw [List.length_append, List.length_singleton]
    omega
  have hnewest : (readings ++ [newest]).getLast? = some newest := List.getLast?_concat ..
  rw [pushed, if_pos hlonger, rtake_eq_concat hpos hnewest, List.dropLast_concat, List.rtake]
  have hone : readings.length - (period - 1) = 1 := by omega
  rw [hone, List.drop_one]

theorem donchianIncremental_windowed (params : Params) :
    Windowed (donchianIncremental params) := by
  intro saved bars hsaved hbars hslides
  change params.length ≤ saved.length at hsaved
  change params.length ≤ bars.length at hbars
  have hpos := params.length_pos
  obtain ⟨newest, hnewest⟩ := newest_of_le hpos hbars
  let window := saved.rtake params.length
  have hlength : window.length = params.length := length_rtake_of_le hsaved
  have hring : ((window.map Bar.high).zip (window.map Bar.low)).tail =
      window.tail.map fun bar => (bar.high, bar.low) := by
    rw [List.zip_map', ← List.map_tail]
  have hwindow : (bars.rtake params.length).map (fun bar => (bar.high, bar.low)) =
      window.tail.map (fun bar => (bar.high, bar.low)) ++ [(newest.high, newest.low)] := by
    rw [map_rtake, ← hring]
    exact hslides.window hpos hnewest
  have hhighs : (bars.rtake params.length).map Bar.high =
      pushed params.length (window.map Bar.high) newest.high := by
    rw [pushed_full (by rw [List.length_map, hlength]) hpos, ← List.map_tail]
    simpa only [List.map_map, List.map_append, Function.comp_def, List.map_cons, List.map_nil]
      using congrArg (List.map Prod.fst) hwindow
  have hlows : (bars.rtake params.length).map Bar.low =
      pushed params.length (window.map Bar.low) newest.low := by
    rw [pushed_full (by rw [List.length_map, hlength]) hpos, ← List.map_tail]
    simpa only [List.map_map, List.map_append, Function.comp_def, List.map_cons, List.map_nil]
      using congrArg (List.map Prod.snd) hwindow
  have hlast : (bars.rtake params.length).getLast? = some newest := by
    rw [rtake_eq_concat hpos hnewest, List.getLast?_concat]
  have hfull : ¬ (bars.rtake params.length).length < params.length := by
    rw [length_rtake_of_le hbars]
    omega
  change bars.getLast?.bind _ = donchian params bars
  rw [donchian, if_neg hfull, hlast, hhighs, hlows, hnewest]
  rfl

/-- Any calls of the three classes, in either scope, with any lists of bars. -/
theorem incremental_full (params : Params) (calls : List Call) :
    (Along (step (smaIncremental params)) (FastSlides (smaIncremental params)) start calls →
      AlwaysFull (smaIncremental params) calls) ∧
    (Along (step (bollingerIncremental params)) (FastSlides (bollingerIncremental params))
        start calls →
      AlwaysFull (bollingerIncremental params) calls) ∧
    (Along (step (donchianIncremental params)) (FastSlides (donchianIncremental params))
        start calls →
      AlwaysFull (donchianIncremental params) calls) :=
  ⟨alwaysFull_of_windowed (smaIncremental_windowed params),
    alwaysFull_of_windowed (bollingerIncremental_windowed params),
    alwaysFull_of_windowed (donchianIncremental_windowed params)⟩

def flatBar (time price : ℚ) : Bar := ⟨time, price, price, price, price, 0⟩

def callAt (bars : List Bar) : Call :=
  { bars := bars, scope := .confirmed, now := 0, savedAt := 0 }

def twoBars : Params := { period := some 2 }

/-- Two bars, the window slid by one, the same bars again, and a slide in the other scope. -/
def slidingCalls : List Call :=
  [callAt [flatBar 0 1, flatBar 1 2], callAt [flatBar 1 2, flatBar 2 3],
    callAt [flatBar 1 2, flatBar 2 3], { callAt [flatBar 0 1, flatBar 1 7] with scope := .intrabar },
    { callAt [flatBar 1 7, flatBar 2 5] with scope := .intrabar }]

theorem slidingCalls_full :
    AlwaysFull (smaIncremental twoBars) slidingCalls ∧
    AlwaysFull (bollingerIncremental twoBars) slidingCalls ∧
    AlwaysFull (donchianIncremental twoBars) slidingCalls :=
  ⟨(incremental_full twoBars slidingCalls).1 (by decide +kernel),
    (incremental_full twoBars slidingCalls).2.1 (by decide +kernel),
    (incremental_full twoBars slidingCalls).2.2 (by decide +kernel)⟩

/-- Two new bars between the calls. -/
def gapCalls : List Call :=
  [callAt [flatBar 0 1, flatBar 1 2],
    callAt [flatBar 0 1, flatBar 1 2, flatBar 2 3, flatBar 3 4]]

/-- The bar at time 1 is a preview in the first call and closed in the second. -/
def previewCalls : List Call :=
  [callAt [flatBar 0 1, flatBar 1 2], callAt [flatBar 1 5, flatBar 2 3]]

theorem gap_and_preview_not_full :
    (∀ call ∈ gapCalls ++ previewCalls, call.bars.Pairwise fun earlier later =>
      earlier.time < later.time) ∧
    (¬ AlwaysFull (smaIncremental twoBars) gapCalls ∧
      ¬ AlwaysFull (bollingerIncremental twoBars) gapCalls ∧
      ¬ AlwaysFull (donchianIncremental twoBars) gapCalls) ∧
    ¬ AlwaysFull (smaIncremental twoBars) previewCalls ∧
    ¬ AlwaysFull (bollingerIncremental twoBars) previewCalls ∧
    ¬ AlwaysFull (donchianIncremental twoBars) previewCalls := by
  decide +kernel

end MT5Services.IncrementalIndicators
