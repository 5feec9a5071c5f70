import MT5Services.BacktestIntrabar
import MT5Services.SignalStates
import MT5Services.Streaks

/-!
When an intrabar signal is armed. The coordinator counts, for every symbol, timeframe and
strategy, how often the strategy has kept its direction on the parent bar, and arms the signal
when the count and the confidence are high enough, once until it counts anew. The evaluations
that reach it are the ones with a direction, and the close of the parent bar makes it forget.
-/
namespace MT5Services.IntrabarArming

open Histories SignalStates Streaks

structure PolicyOverride where
  minStableBars : Option ℕ := none
  minConfidence : Option ℚ := none

structure IntrabarTradingPolicy where
  minStableBars : ℕ := 3
  minConfidence : ℚ := 3 / 4
  enabledStrategies : List String := []
  strategyOverrides : Dict String PolicyOverride := Dict.empty

def IntrabarTradingPolicy.getMinStableBars (policy : IntrabarTradingPolicy) (strategy : String) :
    ℕ :=
  ((policy.strategyOverrides.get? strategy).bind PolicyOverride.minStableBars).getD
    policy.minStableBars

def IntrabarTradingPolicy.getMinConfidence (policy : IntrabarTradingPolicy) (strategy : String) :
    ℚ :=
  ((policy.strategyOverrides.get? strategy).bind PolicyOverride.minConfidence).getD
    policy.minConfidence

structure StabilityState where
  direction : Side
  stableCount : ℕ
  parentBarTime : ℚ
  lastConfidence : ℚ
  armedEmitted : Bool
  deriving DecidableEq, Repr

structure IntrabarTradeCoordinator where
  states : Dict Target StabilityState := Dict.empty
  updatesTotal : ℕ := 0
  armedTotal : ℕ := 0

/-- What `update` does to the state under the key; true when the signal is armed. -/
def nextState (minBars : ℕ) (minConf : ℚ) (state? : Option StabilityState) (direction : Side)
    (confidence parentBarTime : ℚ) : Bool × StabilityState :=
  let first : StabilityState := ⟨direction, 1, parentBarTime, confidence, false⟩
  match state? with
  | none => (false, first)
  | some state =>
    if state.parentBarTime ≠ parentBarTime then (false, first)
    else if state.direction = direction then
      let state :=
        { state with
          stableCount := state.stableCount + 1
          lastConfidence := confidence }
      if minBars ≤ state.stableCount ∧ minConf ≤ confidence ∧ state.armedEmitted = false then
        (true, { state with armedEmitted := true })
      else (false, state)
    else (false, first)

/-- The direction is `none` for hold. -/
def update (policy : IntrabarTradingPolicy) (c : IntrabarTradeCoordinator) (key : Target)
    (direction : Option Side) (confidence parentBarTime : ℚ) :
    Option SignalState × IntrabarTradeCoordinator :=
  if key.strategy ∉ policy.enabledStrategies then (none, c)
  else
    match direction with
    | none => (none, c)
    | some side =>
      let next := nextState (policy.getMinStableBars key.strategy)
        (policy.getMinConfidence key.strategy) (c.states.get? key) side confidence parentBarTime
      (if next.1 then some (.intrabarArmed side) else none,
        { states := c.states.set key next.2
          updatesTotal := c.updatesTotal + 1
          armedTotal := if next.1 then c.armedTotal + 1 else c.armedTotal })

def onParentBarClose (c : IntrabarTradeCoordinator) (symbol parentTf : String) (barTime : ℚ) :
    IntrabarTradeCoordinator :=
  { c with
    states := c.states.pick fun key =>
      !(key.symbol = symbol && key.timeframe = parentTf &&
        (c.states.get? key).any fun state => state.parentBarTime = barTime) }

variable {V : Type*}

/-- An intrabar decision on its way into `transition_and_publish`. -/
structure Evaluation (V : Type*) where
  target : Target
  direction : Option Side
  confidence : ℚ
  barTime : ℚ
  snapshotTime : ℚ
  indicators : V
  timestamp : ℚ
  persisted : Bool := true
  deriving DecidableEq

def Evaluation.delivery (e : Evaluation V) (armed : Bool) : Delivery V where
  target := e.target
  scope := .intrabar
  snapshotTime := e.snapshotTime
  barTime := e.barTime
  indicators := e.indicators
  direction := e.direction
  armed := armed
  timestamp := e.timestamp
  persisted := e.persisted

inductive Call (V : Type*)
  | evaluation (e : Evaluation V)
  | parentBarClose (symbol timeframe : String) (barTime : ℚ)
  deriving DecidableEq

/-- The runtime with its coordinator. -/
structure ArmingRuntime (V : Type*) where
  coordinator : IntrabarTradeCoordinator := {}
  signals : Runtime V := SignalStates.start

/-- The coordinator is asked only about decisions with a direction. -/
def coordinatorAnswer (policy : IntrabarTradingPolicy) (c : IntrabarTradeCoordinator)
    (e : Evaluation V) : Option SignalState × IntrabarTradeCoordinator :=
  match e.direction with
  | none => (none, c)
  | some side => update policy c e.target (some side) e.confidence e.barTime

def step (policy : IntrabarTradingPolicy) (s : ArmingRuntime V) : Call V → ArmingRuntime V
  | .evaluation e =>
    let answer := coordinatorAnswer policy s.coordinator e
    { coordinator := answer.2
      signals := transitionAndPublish s.signals (stateOf s.signals e.target)
        (e.delivery answer.1.isSome) }
  | .parentBarClose symbol timeframe barTime =>
    { s with coordinator := onParentBarClose s.coordinator symbol timeframe barTime }

def after (policy : IntrabarTradingPolicy) (calls : List (Call V)) : ArmingRuntime V :=
  calls.foldl (step policy) {}

/-- What the call publishes when it comes after the calls. -/
def publishedBy (policy : IntrabarTradingPolicy) (calls : List (Call V)) (call : Call V) :
    List (Published V) :=
  (step policy (after policy calls) call).signals.log.drop (after policy calls).signals.log.length

/-- The evaluation is one of the run: of the target, in the direction, on the parent bar. -/
def inRun (target : Target) (side : Side) (barTime : ℚ) : Call V → Bool
  | .evaluation e => e.target = target ∧ e.direction = some side ∧ e.barTime = barTime
  | .parentBarClose .. => false

/-- A hold, the opposite direction and another parent bar end the run. -/
def endsRun (target : Target) (side : Side) (barTime : ℚ) : Call V → Bool
  | .evaluation e => e.target = target ∧ ¬(e.direction = some side ∧ e.barTime = barTime)
  | .parentBarClose .. => false

/-- What makes the coordinator count anew: not a hold, but the close of the bar. -/
def restartsCount (target : Target) (side : Side) (barTime : ℚ) : Call V → Bool
  | .evaluation e =>
    e.target = target ∧ e.direction.isSome ∧ ¬(e.direction = some side ∧ e.barTime = barTime)
  | .parentBarClose symbol timeframe closed =>
    target.symbol = symbol ∧ target.timeframe = timeframe ∧ closed = barTime

/-- Enough evaluations, and confidence enough in this one. -/
def ready (policy : IntrabarTradingPolicy) (strategy : String) (n : ℕ) : Call V → Bool
  | .evaluation e =>
    policy.getMinStableBars strategy ≤ n ∧ policy.getMinConfidence strategy ≤ e.confidence
  | .parentBarClose .. => false

def Call.withConfidence (confidence : ℚ) : Call V → Call V
  | .evaluation e => .evaluation { e with confidence := confidence }
  | .parentBarClose symbol timeframe barTime => .parentBarClose symbol timeframe barTime

/-- The same calls up to the confidences of their evaluations. -/
def SameButConfidences (calls other : List (Call V)) : Prop :=
  calls.map (Call.withConfidence 0) = other.map (Call.withConfidence 0)

/-- The armed event is published exactly for the evaluation that is the first ready one of its
run. -/
def ArmedAsDue (policy : IntrabarTradingPolicy) (earlier : List (Call V)) : Call V → Prop
  | .evaluation e =>
    e.target.strategy ∈ policy.enabledStrategies → ∀ side,
      ((∃ event ∈ publishedBy policy earlier (.evaluation e),
        event.signalState = .intrabarArmed side) ↔
          e.direction = some side ∧
            First (inRun e.target side e.barTime) (endsRun e.target side e.barTime)
              (ready policy e.target.strategy) earlier (.evaluation e))
  | .parentBarClose .. => True

/-- More than one evaluation is asked for, and the count of the coordinator reaches that number
with the run. -/
def CountedAsRun (policy : IntrabarTradingPolicy) (earlier : List (Call V)) : Call V → Prop
  | .evaluation e =>
    e.target.strategy ∈ policy.enabledStrategies → ∀ side, e.direction = some side →
      2 ≤ policy.getMinStableBars e.target.strategy ∧
        EvenAt (inRun e.target side e.barTime) (restartsCount e.target side e.barTime)
          (endsRun e.target side e.barTime) (policy.getMinStableBars e.target.strategy) earlier
          (.evaluation e)
  | .parentBarClose .. => True

/-- The coordinator arms from the second evaluation of its count on. -/
def codeReady (policy : IntrabarTradingPolicy) (strategy : String) (n : ℕ) (call : Call V) :
    Bool :=
  2 ≤ n && ready policy strategy n call

/-- The count that goes on with an evaluation, and whether it has armed. -/
def countOf (state? : Option StabilityState) (side : Side) (barTime : ℚ) : ℕ × Bool :=
  match state? with
  | none => (0, false)
  | some state =>
    if state.direction = side ∧ state.parentBarTime = barTime then
      (state.stableCount, state.armedEmitted)
    else (0, false)

@[simp] theorem countOf_none (side : Side) (barTime : ℚ) : countOf none side barTime = (0, false) :=
  rfl

@[simp] theorem countOf_some (state : StabilityState) (side : Side) (barTime : ℚ) :
    countOf (some state) side barTime =
      if state.direction = side ∧ state.parentBarTime = barTime then
        (state.stableCount, state.armedEmitted)
      else (0, false) :=
  rfl

/-- The state is what the calls so far make it. -/
structure Tracks (policy : IntrabarTradingPolicy) (calls : List (Call V)) (target : Target)
    (state? : Option StabilityState) : Prop where
  count : ∀ side barTime,
    countOf state? side barTime =
      summary (inRun target side barTime) (restartsCount target side barTime)
        (codeReady policy target.strategy) calls
  positive : ∀ state, state? = some state → 0 < state.stableCount

/-- The state after an evaluation goes on with the count of its direction and bar. -/
theorem nextState_eq (minBars : ℕ) (minConf : ℚ) (state? : Option StabilityState) (side : Side)
    (confidence barTime : ℚ) (hpos : ∀ state, state? = some state → 0 < state.stableCount) :
    let count := countOf state? side barTime
    let due : Bool := 2 ≤ count.1 + 1 ∧ minBars ≤ count.1 + 1 ∧ minConf ≤ confidence
    nextState minBars minConf state? side confidence barTime =
      (due && !count.2, ⟨side, count.1 + 1, barTime, confidence, count.2 || due⟩) := by
  cases state? with
  | none => simp [nextState, countOf]
  | some state =>
    have hcount := hpos state rfl
    obtain ⟨direction, stableCount, parentBarTime, lastConfidence, armedEmitted⟩ := state
    by_cases hbar : parentBarTime = barTime
    · by_cases hside : direction = side
      · have htwo : 1 ≤ stableCount := hcount
        subst hbar hside
        by_cases hdue : minBars ≤ stableCount + 1 ∧ minConf ≤ confidence
        · cases armedEmitted <;> simp [nextState, hdue, htwo]
        · cases armedEmitted <;> simp [nextState, hdue, htwo]
      · simp [nextState, hbar, hside]
    · simp [nextState, hbar]

section Calls

variable {policy : IntrabarTradingPolicy} {calls : List (Call V)} {target : Target}

variable {e : Evaluation V}

theorem Tracks.evaluated {state? : Option StabilityState} (h : Tracks policy calls target state?)
    (he : e.target = target) {side : Side} (hside : e.direction = some side) :
    Tracks policy (calls ++ [.evaluation e]) target
      (some (nextState (policy.getMinStableBars target.strategy)
        (policy.getMinConfidence target.strategy) state? side e.confidence e.barTime).2) := by
  rw [nextState_eq _ _ _ _ _ _ h.positive]
  constructor
  · intro other barTime
    rw [summary_concat, ← h.count, observe]
    by_cases hrun : side = other ∧ e.barTime = barTime
    · obtain ⟨rfl, rfl⟩ := hrun
      simp [restartsCount, inRun, he, hside, codeReady, ready, Bool.decide_and]
    · have hrestarts : restartsCount target other barTime (.evaluation e) = true := by
        simpa [restartsCount, he, hside] using not_and_or.mp hrun
      rw [if_pos hrestarts, countOf_some, if_neg hrun]
  · intro state hstate
    cases Option.some.inj hstate
    exact Nat.succ_pos _

/-- A call that neither is in a run of the target nor restarts one. -/
theorem Tracks.passedBy {state? : Option StabilityState} (h : Tracks policy calls target state?)
    {call : Call V} (hrun : ∀ side barTime, inRun target side barTime call = false)
    (hrestarts : ∀ side barTime, restartsCount target side barTime call = false) :
    Tracks policy (calls ++ [call]) target state? where
  count := by
    intro side barTime
    rw [summary_concat, observe, hrun, hrestarts]
    exact h.count side barTime
  positive := h.positive

theorem get?_onParentBarClose (c : IntrabarTradeCoordinator) (symbol timeframe : String)
    (barTime : ℚ) (key : Target) :
    (onParentBarClose c symbol timeframe barTime).states.get? key =
      (c.states.get? key).filter fun state =>
        ¬(key.symbol = symbol ∧ key.timeframe = timeframe ∧ state.parentBarTime = barTime) := by
  rw [onParentBarClose, Dict.get?_pick]
  cases c.states.get? key with
  | none => simp
  | some state => simp [Option.filter_some, or_assoc]

theorem Tracks.closed {c : IntrabarTradeCoordinator}
    (h : Tracks policy calls target (c.states.get? target)) (symbol timeframe : String)
    (barTime : ℚ) :
    Tracks policy (calls ++ [.parentBarClose symbol timeframe barTime]) target
      ((onParentBarClose c symbol timeframe barTime).states.get? target) := by
  rw [get?_onParentBarClose]
  constructor
  · intro side other
    rw [summary_concat, ← h.count, observe]
    simp only [inRun, Bool.false_eq_true, if_false, restartsCount, decide_eq_true_eq]
    cases c.states.get? target with
    | none => simp
    | some state =>
      rw [Option.filter_some, countOf_some]
      by_cases hkey : target.symbol = symbol ∧ target.timeframe = timeframe
      · by_cases hclosed : state.parentBarTime = barTime
        · simp only [hkey, hclosed, and_self, not_true, decide_false, Bool.false_eq_true,
            if_false, countOf_none, true_and]
          grind
        · simp only [hkey, hclosed, and_false, not_false_eq_true, decide_true, if_true,
            countOf_some, true_and]
          grind
      · have hopen : ∀ p, ¬(target.symbol = symbol ∧ target.timeframe = timeframe ∧ p) :=
          fun p hall => hkey ⟨hall.1, hall.2.1⟩
        simp only [hopen, not_false_eq_true, decide_true, if_true, if_false, countOf_some]
  · intro state hstate
    exact h.positive state (Option.filter_eq_some_iff.mp hstate).1

/-- A whitelisted target has the state of its calls. -/
theorem tracks_after (hlisted : target.strategy ∈ policy.enabledStrategies)
    (calls : List (Call V)) :
    Tracks policy calls target ((after policy calls).coordinator.states.get? target) := by
  induction calls using List.reverseRecOn with
  | nil =>
    constructor
    · intro side barTime
      rfl
    · intro state hstate
      cases hstate
  | append_singleton calls call ih =>
    rw [after, List.foldl_append]
    change Tracks policy _ target
      ((step policy (after policy calls) call).coordinator.states.get? _)
    cases call with
    | parentBarClose symbol timeframe barTime => exact ih.closed symbol timeframe barTime
    | evaluation e =>
      by_cases he : e.target = target
      · cases hside : e.direction with
        | none =>
          simp only [step, coordinatorAnswer, hside]
          apply ih.passedBy
          · simp [inRun, hside]
          · simp [restartsCount, hside]
        | some side =>
          simp only [step, coordinatorAnswer, hside, update, he, not_not.mpr hlisted, if_false,
            Dict.get?_set, if_pos]
          exact ih.evaluated he hside
      · have hstates : (step policy (after policy calls)
            (.evaluation e)).coordinator.states.get? target =
              (after policy calls).coordinator.states.get? target := by
          simp only [step, coordinatorAnswer]
          cases e.direction with
          | none => rfl
          | some side =>
            simp only [update]
            split
            · rfl
            · exact (Dict.get?_set ..).trans (if_neg (Ne.symm he))
        rw [hstates]
        apply ih.passedBy
        · simp [inRun, he]
        · simp [restartsCount, he]

theorem publishedBy_hold (h : e.direction = none) :
    publishedBy policy calls (.evaluation e) = [] := by
  simp [publishedBy, step, transitionAndPublish, Evaluation.delivery, h, setState]

theorem publishedBy_side {side : Side} (h : e.direction = some side) :
    publishedBy policy calls (.evaluation e) =
      if (coordinatorAnswer policy (after policy calls).coordinator e).1.isSome then
        [⟨e.target, .intrabarArmed side, e.barTime, e.indicators⟩]
      else [] := by
  simp only [publishedBy, step, transitionAndPublish, Evaluation.delivery, h]
  split
  · simp [emit, setState]
  · simp [setState]

/-- The armed event comes with the first evaluation that is ready in the count of the
coordinator. -/
theorem armed_iff_first (hlisted : e.target.strategy ∈ policy.enabledStrategies) (side : Side) :
    (∃ event ∈ publishedBy policy calls (.evaluation e), event.signalState = .intrabarArmed side) ↔
      e.direction = some side ∧
        First (inRun e.target side e.barTime) (restartsCount e.target side e.barTime)
          (codeReady policy e.target.strategy) calls (.evaluation e) := by
  cases hside : e.direction with
  | none => simp [publishedBy_hold hside]
  | some other =>
    have htracks := tracks_after (V := V) hlisted calls
    have harmed : (coordinatorAnswer policy (after policy calls).coordinator e).1.isSome = true ↔
        First (inRun e.target other e.barTime) (restartsCount e.target other e.barTime)
          (codeReady policy e.target.strategy) calls (.evaluation e) := by
      rw [first_iff, ← summary_fst (codeReady policy e.target.strategy),
        ← htracks.count other e.barTime]
      simp only [coordinatorAnswer, hside, update, not_not.mpr hlisted, if_false,
        nextState_eq _ _ _ _ _ _ htracks.positive]
      simp [codeReady, ready]
    rw [publishedBy_side hside]
    by_cases hsame : other = side
    · subst hsame
      rw [← harmed]
      simp
    · simp [hsame]

end Calls

section Confidences

variable (target : Target) (side : Side) (barTime confidence : ℚ) (call : Call V)

@[simp] theorem withConfidence_evaluation (e : Evaluation V) :
    (Call.evaluation e).withConfidence confidence =
      .evaluation { e with confidence := confidence } :=
  rfl

@[simp] theorem inRun_withConfidence :
    inRun target side barTime (call.withConfidence confidence) =
      inRun target side barTime call := by
  cases call <;> rfl

@[simp] theorem endsRun_withConfidence :
    endsRun target side barTime (call.withConfidence confidence) =
      endsRun target side barTime call := by
  cases call <;> rfl

@[simp] theorem restartsCount_withConfidence :
    restartsCount target side barTime (call.withConfidence confidence) =
      restartsCount target side barTime call := by
  cases call <;> rfl

@[simp] theorem withConfidence_withConfidence (other : ℚ) :
    (call.withConfidence other).withConfidence confidence = call.withConfidence confidence := by
  cases call <;> rfl

end Confidences

variable {side : Side}

theorem not_interrupted_of_inRun {target : Target} {barTime : ℚ} {call : Call V}
    (h : inRun target side barTime call = true) :
    restartsCount target side barTime call = false ∧ endsRun target side barTime call = false := by
  cases call with
  | parentBarClose symbol timeframe closed => cases h
  | evaluation e =>
    simp only [inRun, decide_eq_true_eq] at h
    simp [restartsCount, endsRun, h.2]

/-- The condition does not look at the confidences. -/
theorem countedAsRun_withConfidence (policy : IntrabarTradingPolicy) (calls : List (Call V)) :
    AtEach (CountedAsRun policy) (calls.map (Call.withConfidence 0)) ↔
      AtEach (CountedAsRun policy) calls := by
  induction calls using List.reverseRecOn with
  | nil => rfl
  | append_singleton calls call ih =>
    rw [List.map_append, List.map_singleton, atEach_concat, atEach_concat, ih]
    refine and_congr_right fun _ => ?_
    cases call with
    | parentBarClose symbol timeframe barTime => rfl
    | evaluation e =>
      simp only [withConfidence_evaluation, CountedAsRun, EvenAt, streak_map,
        inRun_withConfidence, restartsCount_withConfidence, endsRun_withConfidence]
      rfl

variable {policy : IntrabarTradingPolicy}

/-- Where the count reaches the number with the run, the first ready evaluations are the same. -/
theorem first_iff_of_countedAsRun {earlier : List (Call V)}
    {e : Evaluation V} (h : AtEach (CountedAsRun policy) (earlier ++ [.evaluation e]))
    (hlisted : e.target.strategy ∈ policy.enabledStrategies) (hside : e.direction = some side) :
    First (inRun e.target side e.barTime) (restartsCount e.target side e.barTime)
        (codeReady policy e.target.strategy) earlier (.evaluation e) ↔
      First (inRun e.target side e.barTime) (endsRun e.target side e.barTime)
        (ready policy e.target.strategy) earlier (.evaluation e) := by
  have htwo := ((atEach_concat.mp h).2 hlisted side hside).1
  have hlimit : ∀ n (call : Call V), ready policy e.target.strategy n call = true →
      policy.getMinStableBars e.target.strategy ≤ n := by
    intro n call hready
    cases call with
    | parentBarClose symbol timeframe barTime => cases hready
    | evaluation other => exact (of_decide_eq_true hready).1
  have hcode : codeReady (V := V) policy e.target.strategy = ready policy e.target.strategy := by
    funext n call
    cases hready : ready policy e.target.strategy n call with
    | false => rw [codeReady, hready, Bool.and_false]
    | true => simp [codeReady, hready, htwo.trans (hlimit n call hready)]
  rw [hcode]
  refine first_congr htwo hlimit (fun _ => not_interrupted_of_inRun) (by simp [inRun, hside]) ?_
  intro front call back hsplit hrun
  cases call with
  | parentBarClose symbol timeframe barTime => cases hrun
  | evaluation other =>
    have hcall := h front _ back hsplit
    simp only [inRun, decide_eq_true_eq] at hrun
    obtain ⟨htarget, hdirection, hbar⟩ := hrun
    rw [CountedAsRun, htarget, hbar] at hcall
    exact (hcall hlisted side hdirection).2 (by simp [inRun, htarget, hdirection, hbar])

/-- Counted like the runs, the evaluations are armed as they are due. -/
theorem armedAsDue_of_countedAsRun {calls : List (Call V)}
    (h : AtEach (CountedAsRun policy) calls) : AtEach (ArmedAsDue policy) calls := by
  intro earlier call later hsplit
  cases call with
  | parentBarClose symbol timeframe barTime => trivial
  | evaluation e =>
    intro hlisted side
    rw [armed_iff_first hlisted]
    refine and_congr_right fun hside => first_iff_of_countedAsRun ?_ hlisted hside
    intro front call back hfront
    apply h front call (back ++ later)
    rw [hsplit, List.append_cons, hfront, List.append_assoc, List.cons_append]

/-- One confident evaluation after calls that all lack confidence shows the count and the run. -/
theorem reached_iff_of_armedAsDue {earlier later : List (Call V)}
    {e : Evaluation V} (hlisted : e.target.strategy ∈ policy.enabledStrategies)
    (hside : e.direction = some side)
    (h : ∀ other, SameButConfidences other (earlier ++ .evaluation e :: later) →
      AtEach (ArmedAsDue policy) other) : let needed := policy.getMinStableBars e.target.strategy
    let count := streak (inRun e.target side e.barTime) (restartsCount e.target side e.barTime)
      earlier
    let run := streak (inRun e.target side e.barTime) (endsRun e.target side e.barTime) earlier
    (2 ≤ count + 1 ∧ needed ≤ count + 1) ↔ needed ≤ run + 1 := by
  intro needed count run
  let enough := policy.getMinConfidence e.target.strategy
  let calm := earlier.map (Call.withConfidence (enough - 1))
  have hcalm : ∀ call ∈ calm, ∀ n, ready policy e.target.strategy n call = false := by
    intro call hcall n
    obtain ⟨original, -, rfl⟩ := List.mem_map.mp hcall
    cases original with
    | parentBarClose symbol timeframe barTime => rfl
    | evaluation other => simp [ready, enough]
  have hall : SameButConfidences (calm ++ .evaluation { e with confidence := enough } :: later)
      (earlier ++ .evaluation e :: later) := by
    simp [SameButConfidences, calm, Function.comp_def]
  have harmed := h _ hall calm _ later rfl hlisted side
  rw [armed_iff_first (e := { e with confidence := enough }) hlisted, and_congr_right_iff] at harmed
  have hfirst := harmed hside
  rw [first_of_calm hcalm, first_of_calm (by simp +contextual [codeReady, hcalm])] at hfirst
  simpa [calm, streak_map, codeReady, ready, enough] using hfirst

/-- The earliest evaluation of a target with a direction can not be armed: its count begins. -/
theorem two_le_of_armedAsDue {calls : List (Call V)}
    (h : ∀ other, SameButConfidences other calls → AtEach (ArmedAsDue policy) other)
    {target : Target} (hlisted : target.strategy ∈ policy.enabledStrategies) (length : ℕ) :
    ∀ {earlier later : List (Call V)} {e : Evaluation V} {side : Side},
      calls = earlier ++ .evaluation e :: later → earlier.length = length → e.target = target →
        e.direction = some side → 2 ≤ policy.getMinStableBars target.strategy := by
  induction length using Nat.strong_induction_on with
  | h length ih =>
    intro earlier later e side hsplit hlength htarget hside
    by_contra hone
    subst htarget
    have hreached := reached_iff_of_armedAsDue hlisted hside (hsplit ▸ h)
    have hcount := (hreached.mpr (by omega)).1
    obtain ⟨call, hcall, hrun⟩ := exists_counted (Nat.ne_of_gt (Nat.le_of_succ_le_succ hcount))
    obtain ⟨front, back, hfront⟩ := List.append_of_mem hcall
    cases call with
    | parentBarClose symbol timeframe barTime => cases hrun
    | evaluation other =>
      simp only [inRun, decide_eq_true_eq] at hrun
      have hearlier : front.length < length := by
        rw [← hlength, hfront, List.length_append, List.length_cons]
        omega
      have hcalls : calls = front ++ .evaluation other :: (back ++ .evaluation e :: later) := by
        rw [hsplit, hfront, List.append_assoc, List.cons_append]
      exact hone (ih front.length hearlier hcalls rfl hrun.1 hrun.2.1)

/-- Whatever the confidences, the armed events come with the first ready evaluations of the runs:
this is so exactly where the coordinator counts like the runs. -/
theorem armedAsDue_iff (policy : IntrabarTradingPolicy) (calls : List (Call V)) :
    (∀ other, SameButConfidences other calls → AtEach (ArmedAsDue policy) other) ↔
      AtEach (CountedAsRun policy) calls := by
  constructor
  · intro h earlier call later hsplit
    cases call with
    | parentBarClose symbol timeframe barTime => trivial
    | evaluation e =>
      intro hlisted side hside
      have htwo := two_le_of_armedAsDue h hlisted earlier.length hsplit rfl rfl hside
      refine ⟨htwo, fun _ => ?_⟩
      exact (and_iff_right_of_imp htwo.trans).symm.trans
        (reached_iff_of_armedAsDue hlisted hside (hsplit ▸ h))
  · intro h other hother
    apply armedAsDue_of_countedAsRun
    rwa [← countedAsRun_withConfidence, hother, countedAsRun_withConfidence]

def goldBreakout : Target := ⟨"XAUUSD", "H1", "breakout"⟩

def evaluated (direction : Option Side) (snapshotTime : ℚ) : Call Unit :=
  .evaluation {
    target := goldBreakout
    direction := direction
    confidence := 4 / 5
    barTime := 0
    snapshotTime := snapshotTime
    indicators := ()
    timestamp := snapshotTime }

/-- The hold between the two evaluations ends the run, and the coordinator counts on. Where one
evaluation is enough, it wants a second one. -/
theorem not_armedAsDue :
    ¬AtEach (ArmedAsDue { minStableBars := 2, enabledStrategies := ["breakout"] })
        [evaluated (some .buy) 300, evaluated none 600, evaluated (some .buy) 900] ∧
      ¬AtEach (ArmedAsDue { minStableBars := 1, enabledStrategies := ["breakout"] })
        [evaluated (some .buy) 300] := by
  constructor
  · intro h
    have hlast := h [evaluated (some .buy) 300, evaluated none 600] _ [] rfl (by decide) .buy
    have hpublished : ∃ event ∈ publishedBy
        { minStableBars := 2, enabledStrategies := ["breakout"] }
        [evaluated (some .buy) 300, evaluated none 600] (evaluated (some .buy) 900),
          event.signalState = .intrabarArmed .buy := by decide +kernel
    exact absurd (hlast.mp hpublished).2.1 (by decide +kernel)
  · intro h
    have hfirst := h [] _ [] rfl (by decide) .buy
    have hnone : ¬∃ event ∈ publishedBy
        { minStableBars := 1, enabledStrategies := ["breakout"] } [] (evaluated (some .buy) 300),
          event.signalState = .intrabarArmed .buy := by decide +kernel
    refine hnone (hfirst.mpr ⟨rfl, by decide +kernel, ?_⟩)
    intro front call back hsplit
    exact absurd hsplit.symm (List.append_ne_nil_of_right_ne_nil front (List.cons_ne_nil call back))

section Backtest

open BacktestDecisions BacktestIntrabar ExitRules

def sideOf : Direction → Side
  | .buy => .buy
  | .sell => .sell

/-- The state of the coordinator of the backtest, which keeps one symbol and timeframe. -/
def ofBacktest (state : BacktestIntrabar.StabilityState) : StabilityState where
  direction := sideOf state.direction
  stableCount := state.stableCount
  parentBarTime := state.parentBarTime
  lastConfidence := state.lastConfidence
  armedEmitted := state.armedEmitted

/-- The coordinator of the backtest counts and arms the same way. -/
theorem coordinatorUpdate_eq (plan : IntrabarPlan) (context : IntrabarContext V) {strategy : String}
    (hlisted : plan.enabledStrategies.contains strategy) (direction : Direction) (confidence : ℚ)
    (parentBarTime : ℤ) :
    let answer := coordinatorUpdate plan context strategy direction confidence parentBarTime
    (answer.1, (answer.2.states.get? strategy).map ofBacktest) =
      Prod.map id some (nextState plan.minStableBars plan.minConfidence
        ((context.states.get? strategy).map ofBacktest) (sideOf direction) confidence
        parentBarTime) := by
  have hside {d : Direction} : sideOf d = sideOf direction ↔ d = direction := by
    cases d <;> cases direction <;> decide
  simp only [coordinatorUpdate, hlisted, Bool.not_true, Bool.false_eq_true, if_false]
  cases context.states.get? strategy with
  | none => simp [nextState, ofBacktest]
  | some state =>
    simp only [Option.map_some, nextState, ofBacktest, hside, ne_eq, Int.cast_inj]
    by_cases hbar : state.parentBarTime = parentBarTime
    · by_cases hdirection : state.direction = direction
      · simp only [hbar, hdirection, not_true, or_self, if_false, if_true]
        split
        · simp [ofBacktest]
        · simp [ofBacktest]
      · simp [hbar, hdirection, ofBacktest]
    · simp [hbar, ofBacktest]

end Backtest

end MT5Services.IntrabarArming
