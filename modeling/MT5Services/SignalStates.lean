import MT5Services.Dict
import MT5Services.Histories
import MT5Services.Runs
import MT5Services.SignalQueues
import Mathlib.Algebra.Order.Ring.Rat
import Mathlib.Data.Fintype.Basic
import Mathlib.Data.List.Sort

/-!
The signal state machine of every target and what it publishes. A snapshot is dropped when
it is the last one evaluated for the target; a confirmed decision moves the state of the
target and is published unless it was emitted before; only changes of the state are
persisted. After a restart the state comes back from the newest persisted row. The log has
every published signal.
-/
namespace MT5Services.SignalStates

open Histories Runs SignalQueues

structure Target where
  symbol : String
  timeframe : String
  strategy : String
  deriving DecidableEq, Repr

inductive Side
  | buy
  | sell
  deriving DecidableEq, Repr

instance : Fintype Side := ⟨{.buy, .sell}, by intro side; cases side <;> simp⟩

inductive SignalState
  | confirmed (side : Side)
  | confirmedCancelled
  | tickDerived (side : Side)
  | intrabarArmed (side : Side)
  deriving DecidableEq, Repr

/-- `confirmedState` is `none` for `idle`. -/
structure RuntimeSignalState where
  confirmedState : Option Side := none
  confirmedBarTime : Option ℚ := none
  lastEmittedState : Option SignalState := none
  lastEmittedAt : Option ℚ := none
  lastEmittedBarTime : Option ℚ := none
  lastSnapshotScope : Option Scope := none
  lastSnapshotBarTime : Option ℚ := none
  lastSnapshotSignature : Option ℤ := none
  lastSnapshotTime : Option ℚ := none

def shouldEmit (state : RuntimeSignalState) (signalState : SignalState) (eventTime barTime : ℚ)
    (cooldownSeconds : ℚ) : Bool :=
  if state.lastEmittedState ≠ some signalState then true
  else if state.lastEmittedBarTime ≠ some barTime then true
  else
    match state.lastEmittedAt with
    | none => true
    | some emittedAt => cooldownSeconds ≤ eventTime - emittedAt

def markEmitted (state : RuntimeSignalState) (signalState : SignalState)
    (eventTime barTime : ℚ) : RuntimeSignalState :=
  { state with
    lastEmittedState := some signalState
    lastEmittedAt := some eventTime
    lastEmittedBarTime := some barTime }

variable {V : Type*}

/-- A snapshot evaluated for one target, with the decision of the strategy (`none` for
hold) and its time, the answer of the intrabar coordinator, and whether the write of its
record succeeds. -/
structure Delivery (V : Type*) where
  target : Target
  scope : Scope
  snapshotTime : ℚ
  barTime : ℚ
  indicators : V
  direction : Option Side
  armed : Bool := false
  timestamp : ℚ
  persisted : Bool := true

def Delivery.eventTime (d : Delivery V) : ℚ :=
  match d.scope with
  | .confirmed => d.barTime
  | .intrabar | .tickDerived => d.snapshotTime

structure Config (V : Type*) where
  /-- `snapshot_signature`, a hash of the indicator values. -/
  snapshotSignature : V → ℤ
  dedupeWindowSeconds : ℚ := 1
  /-- The number of configured targets. -/
  targets : ℕ := 1

/-- The snapshot slot of the state is this very snapshot. -/
def lastSnapshotIs (c : Config V) (state : RuntimeSignalState) (d : Delivery V) : Bool :=
  state.lastSnapshotScope = some d.scope ∧ state.lastSnapshotBarTime = some d.barTime ∧
    state.lastSnapshotSignature = some (c.snapshotSignature d.indicators)

def duplicate (c : Config V) (state : RuntimeSignalState) (d : Delivery V) : Bool :=
  lastSnapshotIs c state d &&
    (d.scope = .confirmed ||
      match state.lastSnapshotTime with
      | none => false
      | some previous => |d.eventTime - previous| < c.dedupeWindowSeconds)

def noteSnapshot (c : Config V) (state : RuntimeSignalState) (d : Delivery V) :
    RuntimeSignalState :=
  { state with
    lastSnapshotScope := some d.scope
    lastSnapshotBarTime := some d.barTime
    lastSnapshotSignature := some (c.snapshotSignature d.indicators)
    lastSnapshotTime := some d.eventTime }

/-- `none` for a duplicate. -/
def isNewSnapshot (c : Config V) (state : RuntimeSignalState) (d : Delivery V) :
    Option RuntimeSignalState :=
  if duplicate c state d then none else some (noteSnapshot c state d)

/-- What `transition_confirmed` returns: the new signal and whether the state changed. -/
structure Transition where
  signalState : SignalState
  stateChanged : Bool
  deriving DecidableEq, Repr

def transitionConfirmed (state : RuntimeSignalState) (direction : Option Side)
    (eventTime barTime : ℚ) : RuntimeSignalState × Option Transition :=
  match direction with
  | none =>
    let idle := { state with confirmedState := none, confirmedBarTime := some barTime }
    if state.confirmedState.isSome then
      (markEmitted idle .confirmedCancelled eventTime barTime, some ⟨.confirmedCancelled, true⟩)
    else (idle, none)
  | some side =>
    let moved := { state with confirmedState := some side, confirmedBarTime := some barTime }
    if shouldEmit moved (.confirmed side) eventTime barTime 0 then
      (markEmitted moved (.confirmed side) eventTime barTime,
        some ⟨.confirmed side, state.confirmedState ≠ some side⟩)
    else (moved, none)

structure Row where
  target : Target
  signalState : SignalState
  generatedAt : ℚ
  barTime : ℚ
  deriving DecidableEq

/-- Armed intrabar signals go to the preview table, all others, tick-derived ones
included, to the table of confirmed signals. -/
def Row.inConfirmedTable (row : Row) : Bool :=
  match row.signalState with
  | .intrabarArmed _ => false
  | .confirmed _ | .confirmedCancelled | .tickDerived _ => true

structure Published (V : Type*) where
  target : Target
  signalState : SignalState
  barTime : ℚ
  indicators : V
  deriving DecidableEq

/-- The rows stand latest insert first. -/
structure Runtime (V : Type*) where
  stateByTarget : Dict Target RuntimeSignalState := Dict.empty
  rows : List Row := []
  log : List (Published V) := []

def start : Runtime V := {}

def stateOf (s : Runtime V) (target : Target) : RuntimeSignalState :=
  (s.stateByTarget.get? target).getD {}

def setState (s : Runtime V) (target : Target) (state : RuntimeSignalState) : Runtime V :=
  { s with stateByTarget := s.stateByTarget.set target state }

/-- Persist the signal if the state changed, and publish it. -/
def emit (s : Runtime V) (d : Delivery V) (t : Transition) : Runtime V :=
  { s with
    rows := if t.stateChanged && d.persisted then
        ⟨d.target, t.signalState, d.timestamp, d.barTime⟩ :: s.rows
      else s.rows
    log := s.log ++ [⟨d.target, t.signalState, d.barTime, d.indicators⟩] }

/-- `transition_and_publish` on a snapshot that was found new. -/
def transitionAndPublish (s : Runtime V) (state : RuntimeSignalState) (d : Delivery V) :
    Runtime V :=
  match d.scope, d.direction with
  | .confirmed, direction =>
    match transitionConfirmed state direction d.eventTime d.barTime with
    | (after, some t) => emit (setState s d.target after) d t
    | (after, none) => setState s d.target after
  | .tickDerived, some side =>
    emit (setState s d.target (markEmitted state (.tickDerived side) d.eventTime d.barTime)) d
      ⟨.tickDerived side, true⟩
  | .intrabar, some side =>
    if d.armed then emit (setState s d.target state) d ⟨.intrabarArmed side, true⟩
    else setState s d.target state
  | .tickDerived, none => setState s d.target state
  | .intrabar, none => setState s d.target state

def deliver (c : Config V) (s : Runtime V) (d : Delivery V) : Runtime V :=
  match isNewSnapshot c (stateOf s d.target) d with
  | none => setState s d.target (stateOf s d.target)
  | some state => transitionAndPublish s state d

def restoreConfirmedState (state : RuntimeSignalState) (row : Row) : RuntimeSignalState :=
  match row.signalState with
  | .confirmedCancelled =>
    markEmitted { state with confirmedState := none, confirmedBarTime := some row.barTime }
      .confirmedCancelled row.generatedAt row.barTime
  | .confirmed side =>
    markEmitted { state with confirmedState := some side, confirmedBarTime := some row.barTime }
      (.confirmed side) row.generatedAt row.barTime
  | .tickDerived _ | .intrabarArmed _ => state

/-- The newest rows of both tables together. -/
def recentSignals (rows : List Row) (limit : ℕ) : List Row :=
  (rows.insertionSort fun a b => b.generatedAt ≤ a.generatedAt).take limit

/-- The rows one by one; the first of a target in the confirmed table is used. -/
def restoreRows (restored : List Target) (s : Runtime V) : List Row → Runtime V
  | [] => s
  | row :: rest =>
    let state := stateOf s row.target
    if row.inConfirmedTable ∧ row.target ∉ restored then
      restoreRows (row.target :: restored)
        (setState s row.target (restoreConfirmedState state row)) rest
    else restoreRows restored (setState s row.target state) rest

def restoreState (c : Config V) (s : Runtime V) : Runtime V :=
  restoreRows [] s (recentSignals s.rows (max (c.targets * 6) 200))

inductive Act (V : Type*)
  | deliver (d : Delivery V)
  /-- `stop` and `start` in one process. -/
  | restart
  /-- A new process. -/
  | newProcess

def step (c : Config V) (s : Runtime V) : Act V → Option (Runtime V)
  | .deliver d => some (deliver c s d)
  | .restart => some (restoreState c s)
  | .newProcess => some (restoreState c { s with stateByTarget := Dict.empty })

/-- The signal is one of the confirmed ones. -/
def SignalState.isConfirmed : SignalState → Bool
  | .confirmed _ | .confirmedCancelled => true
  | .tickDerived _ | .intrabarArmed _ => false

/-- The last confirmed signal published for the target. -/
def lastConfirmed (target : Target) (log : List (Published V)) : Option SignalState :=
  log.foldl (fun last entry =>
    if entry.target = target ∧ entry.signalState.isConfirmed then some entry.signalState
    else last) none

/-- The confirmed snapshot has led to a published buy or sell. -/
def Signalled (target : Target) (barTime : ℚ) (indicators : V) (log : List (Published V)) : Prop :=
  ∃ entry ∈ log, entry.target = target ∧ entry.barTime = barTime ∧
    entry.indicators = indicators ∧ ∃ side, entry.signalState = .confirmed side

/-- A confirmed buy or sell is the first of its snapshot, and a cancellation follows a buy
or sell of the target. -/
structure Allowed (earlier : List (Published V)) (entry : Published V) : Prop where
  once : ∀ side, entry.signalState = .confirmed side →
    ¬ Signalled entry.target entry.barTime entry.indicators earlier
  cancels : entry.signalState = .confirmedCancelled →
    ∃ side, lastConfirmed entry.target earlier = some (.confirmed side)

/-- The target still knows the snapshot: it is in the snapshot slot, or the emission slot
was restored from the row of this bar and side. -/
def Remembered (c : Config V) (state : RuntimeSignalState) (d : Delivery V) (side : Side) : Prop :=
  lastSnapshotIs c state d = true ∨
    (state.lastEmittedState = some (.confirmed side) ∧
      state.lastEmittedBarTime = some d.barTime ∧
      ∃ emittedAt ∈ state.lastEmittedAt, d.barTime < emittedAt)

/-- The delivery changes the state of a signal, which is recorded. -/
def changesState (c : Config V) (s : Runtime V) (d : Delivery V) : Bool :=
  !duplicate c (stateOf s d.target) d &&
    match d.scope with
    | .confirmed =>
      (transitionConfirmed (noteSnapshot c (stateOf s d.target) d) d.direction d.eventTime
        d.barTime).2.any Transition.stateChanged
    | .intrabar => d.armed && d.direction.isSome
    | .tickDerived => d.direction.isSome

/-- The record is written, and its time is later than that of the records before. -/
def Recorded (s : Runtime V) (d : Delivery V) : Prop :=
  d.persisted = true ∧ ∀ row ∈ s.rows, row.generatedAt < d.timestamp

/-- A snapshot that was signalled comes again only while it is remembered, and the records of
the changes are written, with a clock that goes forward from one to the next. -/
def WellDelivered (c : Config V) (s : Runtime V) : Act V → Prop
  | .deliver d =>
    (changesState c s d = true → Recorded s d) ∧
      ∀ side, d.scope = .confirmed → d.direction = some side →
        Signalled d.target d.barTime d.indicators s.log →
        Remembered c (stateOf s d.target) d side
  | .restart | .newProcess => True

instance [DecidableEq V] (target : Target) (barTime : ℚ) (indicators : V)
    (log : List (Published V)) : Decidable (Signalled target barTime indicators log) :=
  inferInstanceAs (Decidable (∃ entry ∈ log, entry.target = target ∧ entry.barTime = barTime ∧
    entry.indicators = indicators ∧ ∃ side, entry.signalState = .confirmed side))

instance (c : Config V) (state : RuntimeSignalState) (d : Delivery V) (side : Side) :
    Decidable (Remembered c state d side) :=
  inferInstanceAs (Decidable (lastSnapshotIs c state d = true ∨
    (state.lastEmittedState = some (.confirmed side) ∧
      state.lastEmittedBarTime = some d.barTime ∧
      ∃ emittedAt ∈ state.lastEmittedAt, d.barTime < emittedAt)))

instance [DecidableEq V] (c : Config V) (s : Runtime V) : DecidablePred (WellDelivered c s)
  | .deliver d =>
    inferInstanceAs (Decidable ((changesState c s d = true →
      d.persisted = true ∧ ∀ row ∈ s.rows, row.generatedAt < d.timestamp) ∧
      ∀ side, d.scope = .confirmed → d.direction = some side →
        Signalled d.target d.barTime d.indicators s.log →
        Remembered c (stateOf s d.target) d side))
  | .restart => inferInstanceAs (Decidable True)
  | .newProcess => inferInstanceAs (Decidable True)

/-- The newest row of the target in the table of confirmed signals. -/
def newestRow (target : Target) (rows : List Row) : Option Row :=
  rows.find? fun row => row.target = target ∧ row.inConfirmedTable

/-- The states in memory and the rows agree with what was published last. -/
structure Consistent (s : Runtime V) : Prop where
  confirmed : ∀ target side, (stateOf s target).confirmedState = some side →
    lastConfirmed target s.log = some (.confirmed side)
  emitted : ∀ target side, (stateOf s target).lastEmittedState = some (.confirmed side) →
    lastConfirmed target s.log = some (.confirmed side)
  stored : ∀ target side row, newestRow target s.rows = some row →
    row.signalState = .confirmed side → lastConfirmed target s.log = some (.confirmed side)
  ordered : s.rows.Pairwise fun a b => b.generatedAt < a.generatedAt
  allowed : AtEach Allowed s.log

theorem lastConfirmed_concat (target : Target) (log : List (Published V)) (entry : Published V) :
    lastConfirmed target (log ++ [entry]) =
      if entry.target = target ∧ entry.signalState.isConfirmed then some entry.signalState
      else lastConfirmed target log := by
  simp only [lastConfirmed, List.foldl_append, List.foldl_cons, List.foldl_nil]

theorem stateOf_setState (s : Runtime V) (target other : Target) (state : RuntimeSignalState) :
    stateOf (setState s target state) other = if other = target then state else stateOf s other := by
  unfold stateOf setState
  rw [Dict.get?_set]
  split_ifs
  · rfl
  · rfl

theorem newestRow_cons (target : Target) (row : Row) (rows : List Row) :
    newestRow target (row :: rows) =
      if row.target = target ∧ row.inConfirmedTable then some row else newestRow target rows := by
  unfold newestRow
  rw [List.find?_cons]
  by_cases hrow : row.target = target ∧ row.inConfirmedTable
  · rw [decide_eq_true hrow, if_pos hrow]
  · rw [decide_eq_false hrow, if_neg hrow]

variable {s : Runtime V}

/-- A new state for one target that agrees with its last confirmed signal. -/
theorem Consistent.setState (h : Consistent s) (target : Target) (state : RuntimeSignalState)
    (hconfirmed : ∀ side, state.confirmedState = some side →
      lastConfirmed target s.log = some (.confirmed side))
    (hemitted : ∀ side, state.lastEmittedState = some (.confirmed side) →
      lastConfirmed target s.log = some (.confirmed side)) :
    Consistent (SignalStates.setState s target state) where
  confirmed := by
    intro other side hstate
    rw [stateOf_setState] at hstate
    split_ifs at hstate with hother
    · rw [hother]
      exact hconfirmed side hstate
    · exact h.confirmed other side hstate
  emitted := by
    intro other side hstate
    rw [stateOf_setState] at hstate
    split_ifs at hstate with hother
    · rw [hother]
      exact hemitted side hstate
    · exact h.emitted other side hstate
  stored := h.stored
  ordered := h.ordered
  allowed := h.allowed

/-- A signal of one target adds no row of another. -/
theorem newestRow_emit_of_ne {d : Delivery V} (t : Transition)
    (after : RuntimeSignalState) {other : Target} (hother : other ≠ d.target) :
    newestRow other (emit (setState s d.target after) d t).rows = newestRow other s.rows := by
  unfold emit setState
  dsimp only
  split_ifs
  · rw [newestRow_cons, if_neg]
    rintro ⟨hsame, _⟩
    exact hother hsame.symm
  · rfl

/-- A signal of one target: its state and its newest row must agree with it. -/
theorem Consistent.emit (h : Consistent s) (d : Delivery V) (t : Transition)
    (after : RuntimeSignalState) (log : List (Published V))
    (hlog : log = s.log ++ [⟨d.target, t.signalState, d.barTime, d.indicators⟩])
    (hallowed : Allowed s.log ⟨d.target, t.signalState, d.barTime, d.indicators⟩)
    (hrecorded : t.stateChanged = true → Recorded s d)
    (hconfirmed : ∀ side, after.confirmedState = some side →
      lastConfirmed d.target log = some (.confirmed side))
    (hemitted : ∀ side, after.lastEmittedState = some (.confirmed side) →
      lastConfirmed d.target log = some (.confirmed side))
    (hstored : ∀ side row,
      newestRow d.target (SignalStates.emit (SignalStates.setState s d.target after) d t).rows =
        some row →
      row.signalState = .confirmed side → lastConfirmed d.target log = some (.confirmed side)) :
    Consistent (SignalStates.emit (SignalStates.setState s d.target after) d t) := by
  have hothers : ∀ other, other ≠ d.target →
      lastConfirmed other log = lastConfirmed other s.log := by
    intro other hother
    rw [hlog, lastConfirmed_concat, if_neg]
    rintro ⟨hsame, _⟩
    exact hother hsame.symm
  have hstate : ∀ other,
      stateOf (SignalStates.emit (SignalStates.setState s d.target after) d t) other =
        if other = d.target then after else stateOf s other := by
    intro other
    exact stateOf_setState s d.target other after
  have hnewLog : (SignalStates.emit (SignalStates.setState s d.target after) d t).log = log :=
    hlog.symm
  refine ⟨?_, ?_, ?_, ?_, ?_⟩
  · intro other side hside
    rw [hstate] at hside
    rw [hnewLog]
    split_ifs at hside with hother
    · rw [hother]
      exact hconfirmed side hside
    · rw [hothers other hother]
      exact h.confirmed other side hside
  · intro other side hside
    rw [hstate] at hside
    rw [hnewLog]
    split_ifs at hside with hother
    · rw [hother]
      exact hemitted side hside
    · rw [hothers other hother]
      exact h.emitted other side hside
  · intro other side row hrow hside
    rw [hnewLog]
    by_cases hother : other = d.target
    · rw [hother] at hrow ⊢
      exact hstored side row hrow hside
    · rw [newestRow_emit_of_ne t after hother] at hrow
      rw [hothers other hother]
      exact h.stored other side row hrow hside
  · show List.Pairwise _ (if t.stateChanged && d.persisted then _ else s.rows)
    split_ifs with hwritten
    · exact List.pairwise_cons.mpr
        ⟨(hrecorded (Bool.and_eq_true_iff.mp hwritten).1).2, h.ordered⟩
    · exact h.ordered
  · rw [hnewLog, hlog]
    exact atEach_concat.mpr ⟨h.allowed, hallowed⟩

theorem newestRow_emit {d : Delivery V} {t : Transition}
    (after : RuntimeSignalState) (hpersisted : d.persisted = true) (hchanged : t.stateChanged = true) :
    newestRow d.target (emit (setState s d.target after) d t).rows =
      if Row.inConfirmedTable ⟨d.target, t.signalState, d.timestamp, d.barTime⟩ then
        some ⟨d.target, t.signalState, d.timestamp, d.barTime⟩
      else newestRow d.target s.rows := by
  unfold emit setState
  dsimp only
  rw [hchanged, hpersisted, Bool.and_true, if_pos rfl, newestRow_cons]
  simp

/-- A confirmed signal that changed the state and was recorded. -/
theorem Consistent.emitChange (h : Consistent s) (d : Delivery V)
    (signalState : SignalState) (after : RuntimeSignalState)
    (hsignal : signalState.isConfirmed = true)
    (hallowed : Allowed s.log ⟨d.target, signalState, d.barTime, d.indicators⟩)
    (hrecorded : Recorded s d)
    (hconfirmed : ∀ side, after.confirmedState = some side → signalState = .confirmed side)
    (hemitted : after.lastEmittedState = some signalState) :
    Consistent (SignalStates.emit (SignalStates.setState s d.target after) d ⟨signalState, true⟩) := by
  have hlast : lastConfirmed d.target
      (s.log ++ [⟨d.target, signalState, d.barTime, d.indicators⟩]) = some signalState := by
    rw [lastConfirmed_concat, if_pos ⟨rfl, hsignal⟩]
  refine h.emit d _ after _ rfl hallowed (fun _ => hrecorded) ?_ ?_ ?_
  · intro side hside
    rw [hlast, hconfirmed side hside]
  · intro side hside
    rw [hlast, ← hside, hemitted]
  · intro side row hrow hside
    have htable : Row.inConfirmedTable ⟨d.target, signalState, d.timestamp, d.barTime⟩ = true := by
      cases signalState with
      | confirmed _ => rfl
      | confirmedCancelled => rfl
      | tickDerived _ => rfl
      | intrabarArmed _ => cases hsignal
    rw [newestRow_emit after hrecorded.1 rfl, if_pos htable] at hrow
    cases Option.some.inj hrow
    rw [hlast]
    exact congrArg some hside

/-- The same side once more: nothing is recorded, and nothing has to be. -/
theorem Consistent.emitAgain (h : Consistent s) (d : Delivery V) (side : Side)
    (after : RuntimeSignalState)
    (hallowed : Allowed s.log ⟨d.target, .confirmed side, d.barTime, d.indicators⟩)
    (hbefore : lastConfirmed d.target s.log = some (.confirmed side))
    (hconfirmed : after.confirmedState = some side)
    (hemitted : after.lastEmittedState = some (.confirmed side)) : Consistent
      (SignalStates.emit (SignalStates.setState s d.target after) d ⟨.confirmed side, false⟩) := by
  have hlast : lastConfirmed d.target
      (s.log ++ [⟨d.target, .confirmed side, d.barTime, d.indicators⟩]) =
        some (.confirmed side) := by
    rw [lastConfirmed_concat, if_pos ⟨rfl, rfl⟩]
  refine h.emit d _ after _ rfl hallowed (fun h => (nomatch h)) ?_ ?_ ?_
  · intro other hother
    rw [hlast, Option.some.inj (hconfirmed.symm.trans hother)]
  · intro other hother
    rw [hlast, ← hother, hemitted]
  · intro other row hrow hother
    rw [hlast, ← hbefore]
    exact h.stored d.target other row hrow hother

/-- A tick-derived or armed signal leaves the confirmed ones alone. -/
theorem Consistent.emitOther (h : Consistent s) (d : Delivery V)
    (signalState : SignalState) (after : RuntimeSignalState)
    (hsignal : signalState.isConfirmed = false) (hrecorded : Recorded s d)
    (hconfirmed : ∀ side, after.confirmedState = some side →
      lastConfirmed d.target s.log = some (.confirmed side))
    (hemitted : ∀ side, after.lastEmittedState = some (.confirmed side) →
      lastConfirmed d.target s.log = some (.confirmed side)) :
    Consistent (SignalStates.emit (SignalStates.setState s d.target after) d ⟨signalState, true⟩) := by
  have hlast : lastConfirmed d.target
      (s.log ++ [⟨d.target, signalState, d.barTime, d.indicators⟩]) =
        lastConfirmed d.target s.log := by
    rw [lastConfirmed_concat, if_neg]
    rintro ⟨_, hconfirmed⟩
    rw [hsignal] at hconfirmed
    cases hconfirmed
  have hallowed : Allowed s.log ⟨d.target, signalState, d.barTime, d.indicators⟩ := by
    constructor
    · rintro side rfl
      cases hsignal
    · rintro rfl
      cases hsignal
  refine h.emit d _ after _ rfl hallowed (fun _ => hrecorded) ?_ ?_ ?_
  · intro side hside
    rw [hlast]
    exact hconfirmed side hside
  · intro side hside
    rw [hlast]
    exact hemitted side hside
  · intro side row hrow hside
    rw [newestRow_emit after hrecorded.1 rfl] at hrow
    rw [hlast]
    split_ifs at hrow
    · cases Option.some.inj hrow
      rw [show signalState = .confirmed side from hside] at hsignal
      cases hsignal
    · exact h.stored d.target side row hrow hside

/-- A decision is held back only when it was emitted last, for this bar and after it. -/
theorem shouldEmit_false {state : RuntimeSignalState} {signalState : SignalState} {time : ℚ} :
    shouldEmit state signalState time time 0 = false ↔
      state.lastEmittedState = some signalState ∧ state.lastEmittedBarTime = some time ∧
        ∃ emittedAt ∈ state.lastEmittedAt, time < emittedAt := by
  unfold shouldEmit
  split_ifs with hstate hbar
  · simp [hstate]
  · simp [hbar]
  · rw [not_not] at hstate hbar
    cases hat : state.lastEmittedAt with
    | none => simp
    | some emittedAt => simp [hstate, hbar]

/-- A confirmed hold cancels what was signalled, or nothing. -/
theorem hold_consistent (h : Consistent s) (c : Config V) (d : Delivery V)
    (hscope : d.scope = .confirmed) (hdirection : d.direction = none)
    (hrecorded : (stateOf s d.target).confirmedState.isSome → Recorded s d) :
    Consistent (transitionAndPublish s (noteSnapshot c (stateOf s d.target) d) d) := by
  unfold transitionAndPublish transitionConfirmed
  rw [hscope, hdirection]
  dsimp only
  cases hstate : (stateOf s d.target).confirmedState with
  | none =>
    rw [noteSnapshot, hstate]
    apply h.setState
    · intro side hside
      cases hside
    · exact h.emitted d.target
  | some side =>
    rw [noteSnapshot, hstate]
    apply h.emitChange d _ _ rfl _ (hrecorded (by rw [hstate]; rfl))
    · intro other hother
      cases hother
    · rfl
    · constructor
      · intro other hother
        cases hother
      · intro _
        exact ⟨side, h.confirmed d.target side hstate⟩

variable {c : Config V}

/-- A confirmed buy or sell is published, or was published last. -/
theorem side_consistent (h : Consistent s) (d : Delivery V)
    {side : Side} (hscope : d.scope = .confirmed) (hdirection : d.direction = some side)
    (hguard : WellDelivered c s (.deliver d)) (hnew : duplicate c (stateOf s d.target) d = false) :
    Consistent (transitionAndPublish s (noteSnapshot c (stateOf s d.target) d) d) := by
  obtain ⟨hrecorded, hremembered⟩ := hguard
  simp only [changesState, hnew, hscope, hdirection, Bool.not_false, Bool.true_and] at hrecorded
  have htime : d.eventTime = d.barTime := by rw [Delivery.eventTime, hscope]
  unfold transitionAndPublish transitionConfirmed
  rw [hscope, hdirection, htime]
  dsimp only
  split_ifs with hemit
  · have hallowed : Allowed s.log ⟨d.target, .confirmed side, d.barTime, d.indicators⟩ := by
      refine ⟨?_, by simp⟩
      intro _ _ hsignalled
      rcases hremembered side hscope hdirection hsignalled with hslot | hrestored
      · rw [duplicate, hslot, hscope] at hnew
        cases hnew
      · exact absurd hemit (Bool.not_eq_true _ ▸ shouldEmit_false.mpr hrestored)
    by_cases hsame : (stateOf s d.target).confirmedState = some side
    · have hunchanged : decide ((noteSnapshot c (stateOf s d.target) d).confirmedState ≠
          some side) = false := decide_eq_false (not_not.mpr hsame)
      rw [hunchanged]
      exact h.emitAgain d side _ hallowed (h.confirmed d.target side hsame) rfl rfl
    · have hchanged : decide ((noteSnapshot c (stateOf s d.target) d).confirmedState ≠
          some side) = true := decide_eq_true hsame
      have hwritten : Recorded s d := by
        apply hrecorded
        rw [transitionConfirmed, htime, if_pos hemit]
        exact hchanged
      rw [hchanged]
      apply h.emitChange d _ _ rfl hallowed hwritten
      · intro other hother
        exact congrArg _ (Option.some.inj hother)
      · rfl
  · have hheld := (shouldEmit_false.mp (Bool.not_eq_true _ ▸ hemit)).1
    have hlast := h.emitted d.target side hheld
    apply h.setState
    · intro other hother
      rw [← Option.some.inj hother]
      exact hlast
    · exact h.emitted d.target

theorem transitionAndPublish_consistent (h : Consistent s)
    (d : Delivery V) (hguard : WellDelivered c s (.deliver d))
    (hnew : duplicate c (stateOf s d.target) d = false) :
    Consistent (transitionAndPublish s (noteSnapshot c (stateOf s d.target) d) d) := by
  have hconfirmed := h.confirmed d.target
  have hemitted := h.emitted d.target
  cases hscope : d.scope with
  | confirmed =>
    cases hdirection : d.direction with
    | none =>
      refine hold_consistent h c d hscope hdirection fun hsome => hguard.1 ?_
      simp [changesState, hnew, hscope, hdirection, transitionConfirmed, noteSnapshot, hsome]
    | some side => exact side_consistent h d hscope hdirection hguard hnew
  | intrabar =>
    unfold transitionAndPublish
    rw [hscope]
    cases hdirection : d.direction with
    | none => exact h.setState _ _ hconfirmed hemitted
    | some side =>
      dsimp only
      split_ifs with harmed
      · refine h.emitOther d _ _ rfl (hguard.1 ?_) hconfirmed hemitted
        simp [changesState, hnew, hscope, hdirection, harmed]
      · exact h.setState _ _ hconfirmed hemitted
  | tickDerived =>
    unfold transitionAndPublish
    rw [hscope]
    cases hdirection : d.direction with
    | none => exact h.setState _ _ hconfirmed hemitted
    | some side =>
      have hrecorded : Recorded s d :=
        hguard.1 (by simp [changesState, hnew, hscope, hdirection])
      dsimp only
      refine h.emitOther d (.tickDerived side) _ rfl hrecorded hconfirmed ?_
      intro other hother
      cases hother

theorem deliver_consistent (h : Consistent s) (d : Delivery V)
    (hguard : WellDelivered c s (.deliver d)) : Consistent (deliver c s d) := by
  unfold deliver isNewSnapshot
  cases hnew : duplicate c (stateOf s d.target) d with
  | true => exact h.setState _ _ (h.confirmed d.target) (h.emitted d.target)
  | false => exact transitionAndPublish_consistent h d hguard hnew

theorem restoreRows_frame (restored : List Target) (s : Runtime V) (rows : List Row) :
    (restoreRows restored s rows).log = s.log ∧ (restoreRows restored s rows).rows = s.rows := by
  induction rows generalizing restored s with
  | nil => exact ⟨rfl, rfl⟩
  | cons row rest ih =>
    unfold restoreRows
    dsimp only
    split_ifs
    · exact ih _ _
    · exact ih _ _

theorem stateOf_setState_self (s : Runtime V) (target other : Target) :
    stateOf (setState s target (stateOf s target)) other = stateOf s other := by
  rw [stateOf_setState]
  split_ifs with hother
  · rw [hother]
  · rfl

variable {target : Target}

theorem stateOf_restoreRows_of_mem {restored : List Target}
    (hmem : target ∈ restored) (s : Runtime V) (rows : List Row) :
    stateOf (restoreRows restored s rows) target = stateOf s target := by
  induction rows generalizing restored s with
  | nil => rfl
  | cons row rest ih =>
    unfold restoreRows
    dsimp only
    split_ifs with huse
    · rw [ih (List.mem_cons_of_mem row.target hmem), stateOf_setState, if_neg]
      rintro rfl
      exact huse.2 hmem
    · rw [ih hmem, stateOf_setState_self]

/-- A target is restored from its first row in the confirmed table. -/
theorem stateOf_restoreRows {restored : List Target}
    (hmem : target ∉ restored) (s : Runtime V) (rows : List Row) :
    stateOf (restoreRows restored s rows) target =
      ((newestRow target rows).map (restoreConfirmedState (stateOf s target))).getD
        (stateOf s target) := by
  induction rows generalizing restored s with
  | nil => rfl
  | cons row rest ih =>
    unfold restoreRows
    dsimp only
    rw [newestRow_cons]
    by_cases htable : row.inConfirmedTable = true
    · by_cases htarget : row.target = target
      · have huse : row.inConfirmedTable ∧ row.target ∉ restored := by
          rw [htarget]
          exact ⟨htable, hmem⟩
        rw [if_pos huse, if_pos ⟨htarget, htable⟩, htarget,
          stateOf_restoreRows_of_mem List.mem_cons_self, stateOf_setState, if_pos rfl]
        rfl
      · have hskip : ¬ (row.target = target ∧ row.inConfirmedTable) := fun hboth => htarget hboth.1
        rw [if_neg hskip]
        split_ifs
        · have hfresh : target ∉ row.target :: restored := by
            rw [List.mem_cons, not_or]
            exact ⟨Ne.symm htarget, hmem⟩
          rw [ih hfresh, stateOf_setState, if_neg (Ne.symm htarget)]
        · rw [ih hmem, stateOf_setState_self]
    · rw [if_neg (fun hboth => htable hboth.1), if_neg (fun hboth => htable hboth.2), ih hmem,
        stateOf_setState_self]

theorem recentSignals_eq {rows : List Row}
    (hordered : rows.Pairwise fun a b => b.generatedAt < a.generatedAt) (limit : ℕ) :
    recentSignals rows limit = rows.take limit := by
  unfold recentSignals
  rw [List.Pairwise.insertionSort_eq]
  apply hordered.imp
  intro a b hlt
  exact le_of_lt hlt

/-- A row among the recent ones is the newest of its target. -/
theorem newestRow_take {rows : List Row} {limit : ℕ} {row : Row}
    (h : newestRow target (rows.take limit) = some row) : newestRow target rows = some row := by
  unfold newestRow at h ⊢
  rw [← List.take_append_drop limit rows, List.find?_append, h]
  rfl

/-- After a restart a target has its old state, or the one of its newest row. -/
theorem stateOf_restoreState (c : Config V)
    (hordered : s.rows.Pairwise fun a b => b.generatedAt < a.generatedAt) (target : Target) :
    stateOf (restoreState c s) target = stateOf s target ∨
      ∃ row, newestRow target s.rows = some row ∧
        stateOf (restoreState c s) target = restoreConfirmedState (stateOf s target) row := by
  have hrestored := stateOf_restoreRows (List.not_mem_nil (a := target)) s
    (s.rows.take (max (c.targets * 6) 200))
  rw [restoreState, recentSignals_eq hordered, hrestored]
  cases hnewest : newestRow target (s.rows.take (max (c.targets * 6) 200)) with
  | none => exact .inl rfl
  | some row => exact .inr ⟨row, newestRow_take hnewest, rfl⟩

theorem restoreConfirmedState_cases (state : RuntimeSignalState) (row : Row) :
    restoreConfirmedState state row = state ∨
      (restoreConfirmedState state row).confirmedState = none ∧
        (restoreConfirmedState state row).lastEmittedState = some .confirmedCancelled ∨
      ∃ side, row.signalState = .confirmed side ∧
        (restoreConfirmedState state row).confirmedState = some side ∧
        (restoreConfirmedState state row).lastEmittedState = some (.confirmed side) := by
  unfold restoreConfirmedState
  cases hstate : row.signalState with
  | confirmed side => exact .inr (.inr ⟨side, rfl, rfl, rfl⟩)
  | confirmedCancelled => exact .inr (.inl ⟨rfl, rfl⟩)
  | tickDerived side => exact .inl rfl
  | intrabarArmed side => exact .inl rfl

theorem restoreState_consistent (c : Config V) (h : Consistent s) :
    Consistent (restoreState c s) := by
  obtain ⟨hlog, hrows⟩ := restoreRows_frame [] s (recentSignals s.rows (max (c.targets * 6) 200))
  have hlog' : (restoreState c s).log = s.log := hlog
  have hrows' : (restoreState c s).rows = s.rows := hrows
  have hstates : ∀ target side,
      (stateOf (restoreState c s) target).confirmedState = some side ∨
        (stateOf (restoreState c s) target).lastEmittedState = some (.confirmed side) →
      lastConfirmed target s.log = some (.confirmed side) := by
    intro target side hside
    rcases stateOf_restoreState c h.ordered target with hsame | ⟨row, hnewest, hrow⟩
    · rw [hsame] at hside
      exact hside.elim (h.confirmed target side) (h.emitted target side)
    · rw [hrow] at hside
      rcases restoreConfirmedState_cases (stateOf s target) row with hsame | ⟨hidle, hcancelled⟩ |
        ⟨stored, hstored, hconfirmed, hemitted⟩
      · rw [hsame] at hside
        exact hside.elim (h.confirmed target side) (h.emitted target side)
      · rw [hidle, hcancelled] at hside
        simp at hside
      · rw [hconfirmed, hemitted] at hside
        have heq : stored = side := by simpa using hside
        rw [← heq]
        exact h.stored target stored row hnewest hstored
  refine ⟨?_, ?_, ?_, ?_, ?_⟩
  · intro target side hside
    rw [hlog']
    exact hstates target side (.inl hside)
  · intro target side hside
    rw [hlog']
    exact hstates target side (.inr hside)
  · rw [hlog', hrows']
    exact h.stored
  · rw [hrows']
    exact h.ordered
  · rw [hlog']
    exact h.allowed

theorem forget_consistent (h : Consistent s) :
    Consistent { s with stateByTarget := Dict.empty } where
  confirmed := by
    intro target side hside
    cases hside
  emitted := by
    intro target side hside
    cases hside
  stored := h.stored
  ordered := h.ordered
  allowed := h.allowed

theorem start_consistent : Consistent (start : Runtime V) where
  confirmed := by
    intro target side hside
    cases hside
  emitted := by
    intro target side hside
    cases hside
  stored := by
    intro target side row hrow
    cases hrow
  ordered := List.Pairwise.nil
  allowed := atEach_nil Allowed

theorem step_consistent (c : Config V) (s : Runtime V) (act : Act V) (t : Runtime V)
    (h : Consistent s) (hguard : WellDelivered c s act) (hstep : step c s act = some t) :
    Consistent t := by
  cases act with
  | deliver d =>
    cases Option.some.inj hstep
    exact deliver_consistent h d hguard
  | restart =>
    cases Option.some.inj hstep
    exact restoreState_consistent c h
  | newProcess =>
    cases Option.some.inj hstep
    exact restoreState_consistent c (forget_consistent h)

/-- In runs where signalled snapshots come again only while they are remembered, each
confirmed snapshot is signalled at most once and cancellations follow a buy or sell. -/
theorem signals_once (c : Config V) (acts front back : List (Act V))
    (hdelivered : Along (step c) (WellDelivered c) start acts) (hacts : acts = front ++ back)
    (s : Runtime V) (hrun : run (step c) start front = some s) : AtEach Allowed s.log := by
  rw [hacts] at hdelivered
  have hconsistent := run_invariant_along (step_consistent c) start_consistent
    (along_front hdelivered) hrun
  exact hconsistent.allowed

def goldRsi : Target := ⟨"XAUUSD", "M5", "rsi_reversion"⟩

/-- A confirmed bar with its indicator value and the decision on it. -/
def confirmedBar (barTime : ℚ) (indicators : ℕ) (direction : Option Side) (timestamp : ℚ) :
    Act ℕ :=
  .deliver
    { target := goldRsi
      scope := .confirmed
      snapshotTime := timestamp
      barTime := barTime
      indicators := indicators
      direction := direction
      timestamp := timestamp }

def intrabarSnapshot (barTime : ℚ) (timestamp : ℚ) : Act ℕ :=
  .deliver
    { target := goldRsi
      scope := .intrabar
      snapshotTime := timestamp
      barTime := barTime
      indicators := 0
      direction := none
      timestamp := timestamp }

def signature : Config ℕ := { snapshotSignature := fun indicators => indicators }

/-- A buy delivered twice, again after a restart of the process, and cancelled. -/
def redelivered : List (Act ℕ) :=
  [confirmedBar 300 22 (some .buy) 601, confirmedBar 300 22 (some .buy) 631, .newProcess,
    confirmedBar 300 22 (some .buy) 661, confirmedBar 600 50 none 901]

theorem signals_once_redelivered :
    AtEach Allowed [(⟨goldRsi, .confirmed .buy, 300, 22⟩ : Published ℕ),
      ⟨goldRsi, .confirmedCancelled, 600, 50⟩] := by
  have hend : (run (step signature) start redelivered).map Runtime.log =
      some [⟨goldRsi, .confirmed .buy, 300, 22⟩, ⟨goldRsi, .confirmedCancelled, 600, 50⟩] := by
    decide +kernel
  obtain ⟨s, hrun, hlog⟩ := Option.map_eq_some_iff.mp hend
  rw [← hlog]
  exact signals_once signature redelivered redelivered [] (by decide +kernel)
    (List.append_nil _).symm s hrun

/-- The bar comes again after an intrabar snapshot of the next bar. -/
def reconciled : List (Act ℕ) :=
  [confirmedBar 300 22 (some .buy) 601, intrabarSnapshot 600 630,
    confirmedBar 300 22 (some .buy) 661]

theorem reconciled_bar_is_signalled_twice :
    ¬ ∀ (c : Config ℕ) (acts front back : List (Act ℕ)) (s : Runtime ℕ),
      acts = front ++ back → run (step c) start front = some s → AtEach Allowed s.log := by
  intro hall
  have hend : (run (step signature) start reconciled).map Runtime.log =
      some [⟨goldRsi, .confirmed .buy, 300, 22⟩, ⟨goldRsi, .confirmed .buy, 300, 22⟩] := by
    decide +kernel
  obtain ⟨s, hrun, hlog⟩ := Option.map_eq_some_iff.mp hend
  have hallowed := hall signature reconciled reconciled [] s (List.append_nil _).symm hrun
  rw [hlog] at hallowed
  have honce := (hallowed [⟨goldRsi, .confirmed .buy, 300, 22⟩] _ [] rfl).once .buy rfl
  exact honce ⟨_, List.mem_singleton_self _, rfl, rfl, rfl, .buy, rfl⟩

end MT5Services.SignalStates
