import MT5Services.PositionManager
import MT5Services.Reconciliation

/-!
The reason that is recorded for a position the broker no longer lists. Every evaluation that
reports a close writes `last_exit_reason`, whether or not a close follows. The reconciliation
fills in only what is still empty, and it compares the close price with attributes that a
tracked position does not have. A position is followed from its opening with the reasons its
evaluations reported and with whether a market close of the manager went through.
-/
namespace MT5Services.ExitAttribution

open PyNumber ExitRules PositionManager
open Reconciliation (ExitReason Tracked CloseDetails closedPosition inferExitReasonFromPrice)

/-- What `close_position` answers: an exception, a report with its `success` or another value. -/
inductive CloseAnswer
  | raises
  | report (success : Option Bool)
  | other (truthy : Bool)
  deriving DecidableEq, Repr

def CloseAnswer.succeeds : CloseAnswer → Bool
  | .raises => false
  | .report success => success.getD false
  | .other truthy => truthy

/-- What happens to a tracked position; a price comes with the broker's answer to the market
close that it may lead to. -/
inductive Event
  | price (tick : Tick) (answer : CloseAnswer)
  | signal (event : SignalEvent)
  | regimeChange (regime : Option String)

def Event.act (ticket : ℤ) : Event → Act
  | .price tick _ => .price ticket tick
  | .signal event => .signal event
  | .regimeChange regime => .regimeChange ticket regime

/-- A position since it is tracked. Of `reports` and `managerClosed` the manager keeps no
record: they are the reasons its evaluations gave, and a market close that succeeded. -/
structure Life where
  pos : TrackedPosition
  symbol : String
  volume : ℚ
  takeProfit : ℚ
  reports : List CloseReason := []
  managerClosed : Bool := false

def closesMarket : Option ChandelierAction → Bool
  | some (.closeMarket _) => true
  | _ => false

def follow (config : ChandelierConfig) (life : Life) : Event → Life
  | .price tick answer =>
    let noted := notePrice life.pos tick.price
    { life with
      pos := updatePrice config life.pos tick
      reports := life.reports ++
        ((exitResult config noted tick).bind ExitCheckResult.closeReason).toList
      managerClosed := life.managerClosed ||
        closesMarket (evaluateChandelierExit config noted tick).2 && answer.succeeds }
  | .signal event => { life with pos := noteSignal config event life.pos }
  | .regimeChange regime => { life with pos := adjustAggression config regime life.pos }

/-- The two ways by which a position comes to be tracked. -/
inductive Beginning
  | track (ticket : ℤ) (opening : Opening)
  | recover (ticket : ℤ) (broker : BrokerPosition)

def Beginning.position : Beginning → TrackedPosition
  | .track ticket opening => trackPosition ticket opening
  | .recover ticket broker => recoverPosition ticket broker

/-- The texts of the reasons, as the reconciliation finds them in the field. -/
def reasonText : CloseReason → ExitReason
  | .stopLoss => .stopLoss
  | .takeProfit => .takeProfit
  | .trailingStop => .rule "trailing_stop"
  | .signalExit => .rule "signal_exit"
  | .timeout => .rule "timeout"

/-- The position as the reconciliation reads it. -/
def Life.tracked (life : Life) : Tracked where
  symbol := life.symbol
  volume := life.volume
  atrAtEntry := life.pos.atrAtEntry
  lastExitReason := life.pos.lastExitReason.map reasonText

def Life.recordedReason (life : Life) (details : CloseDetails) : Option ExitReason :=
  (closedPosition details life.tracked).lastExitReason

def Life.tolerance (life : Life) : ℚ := max (life.pos.atrAtEntry * (1 / 5)) (3 / 2)

def Life.AtStop (life : Life) (closePrice : ℚ) : Prop :=
  |closePrice - life.pos.stopLoss| ≤ life.tolerance

def Life.AtTarget (life : Life) (closePrice : ℚ) : Prop :=
  |closePrice - life.takeProfit| ≤ life.tolerance

instance (life : Life) (closePrice : ℚ) : Decidable (life.AtStop closePrice) :=
  inferInstanceAs (Decidable (_ ≤ _))

instance (life : Life) (closePrice : ℚ) : Decidable (life.AtTarget closePrice) :=
  inferInstanceAs (Decidable (_ ≤ _))

/-- The reason by the levels of the position: its stop first, then its target. -/
def Life.reasonAt (life : Life) (closePrice : ℚ) : ExitReason :=
  if life.AtStop closePrice then .stopLoss
  else if life.AtTarget closePrice then .takeProfit
  else .brokerClose

/-- A position that the manager has not closed itself is recorded with the reason by its
levels when the broker gives its close price. -/
def Life.Attributed (life : Life) (closePrice : ℚ) : Prop :=
  life.managerClosed = false →
    life.recordedReason (.closePrice (.number closePrice)) = some (life.reasonAt closePrice)

instance (life : Life) (closePrice : ℚ) : Decidable (life.Attributed closePrice) :=
  inferInstanceAs (Decidable (_ → _))

/-- The reported reason is the level that the close price lies at. -/
def Life.Names (life : Life) (closePrice : ℚ) : CloseReason → Prop
  | .stopLoss => life.AtStop closePrice
  | .takeProfit => ¬life.AtStop closePrice ∧ life.AtTarget closePrice
  | .trailingStop => False
  | .signalExit => False
  | .timeout => False

/-- The last reason reported agrees with the levels; where none was, the close price is at
neither of them. -/
def Life.ReportsAgree (life : Life) (closePrice : ℚ) : Prop :=
  match life.reports.getLast? with
  | some reason => life.Names closePrice reason
  | none => ¬life.AtStop closePrice ∧ ¬life.AtTarget closePrice

/-- The life of a position through a history. -/
def lifeOf (config : ChandelierConfig) (b : Beginning) (symbol : String)
    (volume takeProfit : ℚ) (history : List Event) : Life :=
  history.foldl (follow config)
    { pos := b.position
      symbol := symbol
      volume := volume
      takeProfit := takeProfit }

theorem beginning_lastExitReason (b : Beginning) : b.position.lastExitReason = none := by
  cases b with
  | track ticket opening => rfl
  | recover ticket broker => rfl

theorem notePrice_lastExitReason (pos : TrackedPosition) (price : ℚ) :
    (notePrice pos price).lastExitReason = pos.lastExitReason := by
  unfold notePrice
  split
  · split_ifs
    · rfl
    · rfl
  · split_ifs
    · rfl
    · rfl

theorem evaluateChandelierExit_lastExitReason (config : ChandelierConfig)
    (pos : TrackedPosition) (tick : Tick) :
    (evaluateChandelierExit config pos tick).1.lastExitReason =
      ((exitResult config pos tick).bind ExitCheckResult.closeReason).or pos.lastExitReason := by
  unfold evaluateChandelierExit exitResult
  split_ifs with hzero
  · rfl
  · cases tick.readings with
    | none => rfl
    | some readings =>
      simp only [Option.bind_some]
      cases evaluateExit config (exitQuery pos tick readings) with
      | none => rfl
      | some result => rfl

theorem updatePrice_lastExitReason (config : ChandelierConfig) (pos : TrackedPosition)
    (tick : Tick) :
    (updatePrice config pos tick).lastExitReason =
      ((exitResult config (notePrice pos tick.price) tick).bind
        ExitCheckResult.closeReason).or pos.lastExitReason := by
  unfold updatePrice
  rw [applyChandelierAction_eq, evaluateChandelierExit_lastExitReason, notePrice_lastExitReason]

theorem getLast?_append_toList {α : Type*} (list : List α) (last : Option α) :
    (list ++ last.toList).getLast? = last.or list.getLast? := by
  cases last with
  | none => simp
  | some x => simp

/-- The field holds the last reason that an evaluation reported. -/
def Life.Recorded (life : Life) : Prop :=
  life.pos.lastExitReason = life.reports.getLast?

theorem follow_recorded (config : ChandelierConfig) (life : Life) (event : Event)
    (h : life.Recorded) : (follow config life event).Recorded := by
  unfold Life.Recorded at h ⊢
  cases event with
  | price tick answer =>
    simp only [follow]
    rw [updatePrice_lastExitReason, getLast?_append_toList, h]
  | signal event =>
    simp only [follow]
    obtain ⟨dirs, hdirs⟩ := noteSignal_eq config event life.pos
    rw [hdirs, h]
  | regimeChange regime =>
    simp only [follow]
    obtain ⟨spec, noted, hadjusted⟩ := adjustAggression_eq config regime life.pos
    rw [hadjusted, h]

/-- Through every history the field holds the last reason reported since the opening,
however long ago that was and whatever came of it. -/
theorem lifeOf_recorded (config : ChandelierConfig) (b : Beginning) (symbol : String)
    (volume takeProfit : ℚ) (history : List Event) :
    (lifeOf config b symbol volume takeProfit history).Recorded := by
  unfold lifeOf
  apply List.foldlRecOn (motive := Life.Recorded)
  · exact beginning_lastExitReason b
  · intro life hlife event _
    exact follow_recorded config life event hlife

theorem reasonAt_eq_stopLoss_iff (life : Life) (closePrice : ℚ) :
    life.reasonAt closePrice = .stopLoss ↔ life.AtStop closePrice := by
  unfold Life.reasonAt
  split_ifs with hstop htarget
  · simp [hstop]
  · simp [hstop]
  · simp [hstop]

theorem reasonAt_eq_takeProfit_iff (life : Life) (closePrice : ℚ) :
    life.reasonAt closePrice = .takeProfit ↔
      ¬life.AtStop closePrice ∧ life.AtTarget closePrice := by
  unfold Life.reasonAt
  split_ifs with hstop htarget
  · simp [hstop]
  · simp [hstop, htarget]
  · simp [htarget]

theorem reasonAt_eq_brokerClose_iff (life : Life) (closePrice : ℚ) :
    life.reasonAt closePrice = .brokerClose ↔
      ¬life.AtStop closePrice ∧ ¬life.AtTarget closePrice := by
  unfold Life.reasonAt
  split_ifs with hstop htarget
  · simp [hstop]
  · simp [htarget]
  · simp [hstop, htarget]

theorem reasonAt_ne_rule (life : Life) (closePrice : ℚ) (text : String) :
    life.reasonAt closePrice ≠ .rule text := by
  unfold Life.reasonAt
  split_ifs with hstop htarget
  · simp
  · simp
  · simp

theorem reasonAt_eq_reasonText_iff (life : Life) (closePrice : ℚ) (reason : CloseReason) :
    life.reasonAt closePrice = reasonText reason ↔ life.Names closePrice reason := by
  cases reason with
  | stopLoss => exact reasonAt_eq_stopLoss_iff life closePrice
  | takeProfit => exact reasonAt_eq_takeProfit_iff life closePrice
  | trailingStop => exact iff_false_intro (reasonAt_ne_rule life closePrice _)
  | signalExit => exact iff_false_intro (reasonAt_ne_rule life closePrice _)
  | timeout => exact iff_false_intro (reasonAt_ne_rule life closePrice _)

/-- Without a stop and a target to compare with, an empty field is filled with the close by
the broker. -/
theorem recordedReason_eq (life : Life) (closePrice : ℚ) :
    life.recordedReason (.closePrice (.number closePrice)) =
      some ((life.pos.lastExitReason.map reasonText).getD .brokerClose) := rfl

/-- Through every history the recorded reason is the one by the levels exactly when the
manager closed the position itself or the reasons reported agree with the levels. -/
theorem attributed_iff (config : ChandelierConfig) (b : Beginning) (symbol : String)
    (volume takeProfit : ℚ) (history : List Event) (closePrice : ℚ) :
    (lifeOf config b symbol volume takeProfit history).Attributed closePrice ↔
      (lifeOf config b symbol volume takeProfit history).managerClosed = true ∨
        (lifeOf config b symbol volume takeProfit history).ReportsAgree closePrice := by
  have hrecorded := lifeOf_recorded config b symbol volume takeProfit history
  generalize lifeOf config b symbol volume takeProfit history = life at hrecorded ⊢
  unfold Life.Attributed Life.ReportsAgree
  rw [recordedReason_eq, Option.some_inj, hrecorded]
  cases hclosed : life.managerClosed with
  | true => simp
  | false =>
    cases hlast : life.reports.getLast? with
    | none => simp [← reasonAt_eq_brokerClose_iff, eq_comm]
    | some reason => simp [← reasonAt_eq_reasonText_iff, eq_comm]

/-- The manager carries a tracked position along as its life does. -/
theorem get?_history (config : ChandelierConfig) (ticket : ℤ) (life : Life)
    (history : List Event) (s : Positions) (h : s.get? ticket = some life.pos) :
    ((history.map (Event.act ticket)).foldl (PositionManager.apply config) s).get? ticket =
      some (history.foldl (follow config) life).pos := by
  induction history generalizing life s with
  | nil => exact h
  | cons event rest ih =>
    rw [List.map_cons, List.foldl_cons, List.foldl_cons]
    apply ih
    cases event with
    | price tick answer =>
      simp only [Event.act, PositionManager.apply]
      rw [get?_modifyAt, h, Option.map_some, if_pos rfl]
      rfl
    | signal event =>
      simp only [Event.act, PositionManager.apply]
      rw [Dict.get?_mapValues, h, Option.map_some]
      rfl
    | regimeChange regime =>
      simp only [Event.act, PositionManager.apply]
      rw [get?_modifyAt, h, Option.map_some, if_pos rfl]
      rfl

/-- A buy whose broker stop fills at its level is recorded as closed by the broker, and after
one price at the stop a close at the target is recorded as a stop. -/
theorem misattributed :
    ¬(lifeOf {} (.track 1 buyAtHundred) "XAUUSD" 1 110 []).Attributed 95 ∧
      ¬(lifeOf {} (.track 1 buyAtHundred) "XAUUSD" 1 110
        [.price { price := 95, now := 60, answer := .unreported } .raises]).Attributed 110 := by
  refine ⟨?_, ?_⟩
  · decide +kernel
  · decide +kernel

end MT5Services.ExitAttribution
