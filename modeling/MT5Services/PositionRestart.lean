import MT5Services.ExitOrders

/-!
Exit management over a restart. While a position is tracked, its row in the state store
is written when it is first tracked, when a new stop is confirmed and when it is flushed.
After a restart the open broker position is recovered from that row, from the audit of
the command that opened it and from what the broker reports. The row has no column for
the peak, the exit spec, the category and the signals seen, and keeps the flag of the
opening in place of the running breakeven flag.
-/
namespace MT5Services.PositionRestart

open PyNumber ExitRules PositionManager ExitOrders Runs

/-- The columns of `position_runtime_states` that the recovery reads. -/
structure StateRow where
  signalId : Option String
  timeframe : String
  strategy : String
  entryPrice : ℚ
  initialStopLoss : ℚ
  atrAtEntry : ℚ
  regime : Option String
  highestPrice : Option ℚ
  lowestPrice : Option ℚ
  currentPrice : Option ℚ
  breakevenApplied : Bool
  deriving DecidableEq, Repr

/-- `record_position_tracked`, also behind `record_position_update`: an initial stop once
written stays, where zero counts as not written. -/
def recordPositionTracked (signalId : String) (existing : Option StateRow)
    (pos : TrackedPosition) : StateRow where
  signalId := PyText.stripOrNone (some signalId)
  timeframe := pos.timeframe
  strategy := pos.strategy
  entryPrice := pos.entryPrice
  initialStopLoss := orElse (existing.map StateRow.initialStopLoss) pos.stopLoss
  atrAtEntry := pos.atrAtEntry
  regime := pos.regime
  highestPrice := pos.highestPrice
  lowestPrice := pos.lowestPrice
  currentPrice := pos.currentPrice
  breakevenApplied := pos.breakevenApplied

/-- What `resolve_position_context` finds in the audit of the opening command; a position
without one has no fields. -/
structure AuditContext where
  signalId : String := ""
  regime : Option String := none
  fillPrice : Option ℚ := none
  deriving DecidableEq, Repr

/-- The open position as the broker reports it. -/
structure RawPosition where
  action : Direction
  priceOpen : ℚ
  sl : ℚ
  time : ℤ
  restorableComment : Bool
  deriving DecidableEq, Repr

/-- The merged context: what the row has goes over the audit. -/
def mergeContext (row : StateRow) (context : AuditContext) (raw : RawPosition) :
    BrokerPosition where
  action := raw.action
  priceOpen := raw.priceOpen
  stopLoss := raw.sl
  openedAt := raw.time
  entryPrice := some row.entryPrice
  fillPrice := context.fillPrice
  atrAtEntry := some row.atrAtEntry
  timeframe := row.timeframe
  strategy := row.strategy
  regime := row.regime.or context.regime
  highestPrice := row.highestPrice
  lowestPrice := row.lowestPrice
  currentPrice := row.currentPrice
  breakevenApplied := row.breakevenApplied
  initialStopLoss := some row.initialStopLoss

/-- `sync_open_positions` for one broker position; a position that cannot be told for one
of the system's own is skipped. -/
def syncOpenPosition (ticket : ℤ) (row : StateRow) (context : AuditContext) (raw : RawPosition) :
    Option TrackedPosition :=
  if ticket ≤ 0 ∨ ((row.signalId.getD context.signalId) = "" ∧ raw.restorableComment = false) then
    none
  else some (recoverPosition ticket (mergeContext row context raw))

/-- A tracked position and its row. -/
structure Managed where
  pos : TrackedPosition
  row : StateRow

inductive History
  | price (tick : Tick)
  | signal (event : SignalEvent)
  | flush

section Managing

variable (config : ChandelierConfig) (signalId : String)

def flushed (m : Managed) (pos : TrackedPosition) : Managed :=
  ⟨pos, recordPositionTracked signalId (some m.row) pos⟩

/-- The stop was moved and the broker confirmed it, so the update callback runs. -/
def stopConfirmed (pos : TrackedPosition) (tick : Tick) : Bool :=
  match requested config pos tick with
  | some (.modifySl _) => tick.answer.accepts pos.ticket
  | _ => false

def manage (m : Managed) : History → Managed
  | .price tick =>
    let pos := updatePrice config m.pos tick
    if stopConfirmed config m.pos tick then flushed signalId m pos else { m with pos := pos }
  | .signal event => { m with pos := noteSignal config event m.pos }
  | .flush => flushed signalId m m.pos

/-- How a position came to be tracked: opened by a signal, or recovered earlier from some
row. -/
inductive Origin
  | opened (opening : Opening)
  | recovered (row : StateRow) (context : AuditContext) (raw : RawPosition)

/-- Both ways end with a write of the row. -/
def beginTracking (ticket : ℤ) : Origin → Managed
  | .opened opening =>
    let pos := trackPosition ticket opening
    ⟨pos, recordPositionTracked signalId none pos⟩
  | .recovered row context raw =>
    let pos := recoverPosition ticket (mergeContext row context raw)
    ⟨pos, recordPositionTracked signalId (some row) pos⟩

/-- The position and its row at a point where the last update has been flushed. -/
def managedAt (ticket : ℤ) (origin : Origin) (history : List History) : Managed :=
  manage config signalId (history.foldl (manage config signalId)
    (beginTracking signalId ticket origin)) .flush

end Managing

/-- The runtime state that the exits depend on. -/
structure SameFields (old new : TrackedPosition) : Prop where
  entryPrice : new.entryPrice = old.entryPrice
  initialRisk : new.initialRisk = old.initialRisk
  peakPrice : new.peakPrice = old.peakPrice
  breakevenActivated : new.breakevenActivated = old.breakevenActivated
  exitSpec : new.exitSpec = old.exitSpec
  strategyCategory : new.strategyCategory = old.strategyCategory

/-- After the restart a position is tracked again with the same state, and every next
price leads to the same request. -/
def Transparent (config : ChandelierConfig) (ticket : ℤ) (m : Managed) (context : AuditContext)
    (raw : RawPosition) : Prop :=
  ∃ new, syncOpenPosition ticket m.row context raw = some new ∧ SameFields m.pos new ∧
    ∀ tick, requested config new tick = requested config m.pos tick

/-- The broker's stop is on the profit side of the entry. -/
def stopInProfit (action : Direction) (entryPrice stopLoss : ℚ) : Bool :=
  match action with
  | .buy => entryPrice ≤ stopLoss
  | .sell => stopLoss ≤ entryPrice ∧ 0 < stopLoss

/-- What has to hold of a position for its state to survive: it can be recovered at its
entry and with its risk, and it never used what the row does not keep. -/
structure FieldsSurvive (ticket : ℤ) (m : Managed) (context : AuditContext) (raw : RawPosition) :
    Prop where
  ticket : 0 < ticket
  own : m.row.signalId.getD context.signalId ≠ "" ∨ raw.restorableComment = true
  entry : orElse context.fillPrice (orElse (some m.pos.entryPrice) raw.priceOpen) =
    m.pos.entryPrice
  risk : (recoverBaseline raw.action m.pos.entryPrice raw.sl
    (orElse (some m.pos.atrAtEntry) (defaultAtrFromPosition
      (orElse (some m.pos.entryPrice) raw.priceOpen) raw.sl))
    (some m.row.initialStopLoss)).2 = m.pos.initialRisk
  peak : m.pos.peakPrice = none
  breakeven : (m.pos.breakevenApplied ||
    stopInProfit raw.action (orElse (some m.pos.entryPrice) raw.priceOpen) raw.sl) =
      m.pos.breakevenActivated
  exitSpec : m.pos.exitSpec = {}
  strategyCategory : m.pos.strategyCategory = ""

/-- What else the next request reads: the broker holds the position as it was tracked and the
entry ATR is kept; and where the rule that reads it is on, the opening time is the broker's, no
signal was noted, and the multiple of the stop is the one the risk gives. -/
structure RequestSurvives (config : ChandelierConfig) (m : Managed) (raw : RawPosition) : Prop where
  action : raw.action = m.pos.action
  stopLoss : raw.sl = m.pos.stopLoss
  openedAt : 0 < config.timeoutBars → raw.time = m.pos.openedAt
  signals : config.signalExitEnabled = true → m.pos.recentSignalDirs = []
  atr : orElse (some m.pos.atrAtEntry) (defaultAtrFromPosition
    (orElse (some m.pos.entryPrice) raw.priceOpen) raw.sl) = m.pos.atrAtEntry
  mult : config.enforceRFloor = true → m.pos.slAtrMult =
    if 0 < m.pos.atrAtEntry ∧ 0 < m.pos.initialRisk then
      round (m.pos.initialRisk / m.pos.atrAtEntry) 4
    else if 0 < m.pos.atrAtEntry ∧ 0 < m.pos.stopLoss then
      round (|m.pos.entryPrice - m.pos.stopLoss| / m.pos.atrAtEntry) 4
    else 0

/-- The row says what the position says. -/
structure UpToDate (m : Managed) : Prop where
  entryPrice : m.row.entryPrice = m.pos.entryPrice
  atrAtEntry : m.row.atrAtEntry = m.pos.atrAtEntry
  timeframe : m.row.timeframe = m.pos.timeframe
  highestPrice : m.row.highestPrice = m.pos.highestPrice
  lowestPrice : m.row.lowestPrice = m.pos.lowestPrice
  breakevenApplied : m.row.breakevenApplied = m.pos.breakevenApplied

theorem upToDate_managedAt (config : ChandelierConfig) (signalId : String) (ticket : ℤ)
    (origin : Origin) (history : List History) :
    UpToDate (managedAt config signalId ticket origin history) :=
  ⟨rfl, rfl, rfl, rfl, rfl, rfl⟩

/-- Prices only move the best price on. -/
theorem notePrice_best (pos : TrackedPosition) (price best : ℚ)
    (hbest : bestPrice pos = some best) : (bestPrice (notePrice pos price)).isSome = true := by
  unfold bestPrice at hbest
  unfold notePrice
  split
  · rename_i haction
    rw [haction] at hbest
    split_ifs
    · simp only [bestPrice, haction, Option.isSome_some]
    · simp only [bestPrice, haction, hbest, Option.isSome_some]
  · rename_i haction
    rw [haction] at hbest
    split_ifs
    · simp only [bestPrice, haction, Option.isSome_some]
    · simp only [bestPrice, haction, hbest, Option.isSome_some]

/-- A reading of the position that the bookkeeping of an evaluation and a new stop do not
touch is the same after a price as after noting it. -/
theorem updatePrice_reads {β : Type*} (f : TrackedPosition → β)
    (hbars : ∀ pos count, f { pos with barsHeld := count } = f pos)
    (hresult : ∀ pos result regime, f (recordResult pos result regime) = f pos)
    (hstop : ∀ pos level, f { pos with stopLoss := level } = f pos)
    (config : ChandelierConfig) (pos : TrackedPosition) (tick : Tick) :
    f (updatePrice config pos tick) = f (notePrice pos tick.price) := by
  have hevaluated : ∀ noted : TrackedPosition,
      f (evaluateChandelierExit config noted tick).1 = f noted := by
    intro noted
    unfold evaluateChandelierExit
    split_ifs
    · rfl
    · cases tick.readings with
      | none => exact hbars noted _
      | some readings =>
        dsimp only
        cases evaluateExit config (exitQuery noted tick readings) with
        | none => exact hbars noted _
        | some result => exact (hresult _ result _).trans (hbars noted _)
  have happlied : ∀ (noted : TrackedPosition) (action : Option ChandelierAction),
      f (applyChandelierAction noted action tick.answer) = f noted := by
    intro noted action
    unfold applyChandelierAction modifySl
    split
    · split_ifs
      · exact hstop noted _
      · rfl
    · rfl
    · rfl
  unfold updatePrice
  rw [happlied, hevaluated]

theorem bestPrice_updatePrice (config : ChandelierConfig) (pos : TrackedPosition) (tick : Tick) :
    bestPrice (updatePrice config pos tick) = bestPrice (notePrice pos tick.price) :=
  updatePrice_reads bestPrice (fun _ _ => rfl) (fun _ _ _ => rfl) (fun _ _ => rfl) config pos tick

theorem manage_price_pos (config : ChandelierConfig) (signalId : String) (m : Managed)
    (tick : Tick) :
    (manage config signalId m (.price tick)).pos = updatePrice config m.pos tick := by
  unfold manage
  dsimp only
  split_ifs
  · rfl
  · rfl

/-- A tracked position always knows the best price of its own side. -/
theorem best_manage (config : ChandelierConfig) (signalId : String) (m : Managed)
    (event : History) (h : (bestPrice m.pos).isSome = true) :
    (bestPrice (manage config signalId m event).pos).isSome = true := by
  cases event with
  | price tick =>
    obtain ⟨best, hbest⟩ := Option.isSome_iff_exists.mp h
    rw [manage_price_pos, bestPrice_updatePrice]
    exact notePrice_best m.pos tick.price best hbest
  | signal event =>
    have hsame : bestPrice (noteSignal config event m.pos) = bestPrice m.pos := by
      unfold noteSignal
      split
      · rfl
      · dsimp only
        split
        · rfl
        · rfl
    unfold manage
    rw [hsame]
    exact h
  | flush =>
    unfold manage flushed
    exact h

theorem startingExtreme_own (given : Option ℚ) (entryPrice : ℚ) :
    (startingExtreme given true entryPrice).isSome = true := by
  cases given with
  | none => rfl
  | some price => rfl

theorem best_beginTracking (signalId : String) (ticket : ℤ) (origin : Origin) :
    (bestPrice (beginTracking signalId ticket origin).pos).isSome = true := by
  cases origin with
  | opened opening =>
    have hbest := startingExtreme_own opening.highestPrice (opening.fillPrice.getD opening.entryPrice)
    have hbest' := startingExtreme_own opening.lowestPrice (opening.fillPrice.getD opening.entryPrice)
    cases haction : opening.action with
    | buy => simpa only [beginTracking, bestPrice, trackPosition, haction, decide_true] using hbest
    | sell => simpa only [beginTracking, bestPrice, trackPosition, haction, decide_true] using hbest'
  | recovered row context raw =>
    have hbest := startingExtreme_own row.highestPrice (orElse (some row.entryPrice) raw.priceOpen)
    have hbest' := startingExtreme_own row.lowestPrice (orElse (some row.entryPrice) raw.priceOpen)
    cases haction : raw.action with
    | buy =>
      simpa only [beginTracking, bestPrice, recoverPosition, mergeContext, haction, decide_true]
        using hbest
    | sell =>
      simpa only [beginTracking, bestPrice, recoverPosition, mergeContext, haction, decide_true]
        using hbest'

theorem best_managedAt (config : ChandelierConfig) (signalId : String) (ticket : ℤ)
    (origin : Origin) (history : List History) :
    (bestPrice (managedAt config signalId ticket origin history).pos).isSome = true := by
  unfold managedAt
  apply best_manage
  induction history using List.reverseRecOn with
  | nil => exact best_beginTracking signalId ticket origin
  | append_singleton front event ih =>
    rw [List.foldl_append]
    exact best_manage config signalId _ event ih

theorem activeExit_unread (config : ChandelierConfig) (q : ExitQuery) (profile : ExitProfile)
    {bars : ℤ} {dirs : List Direction} (hbars : 0 < config.timeoutBars → bars = q.barsHeld)
    (hdirs : config.signalExitEnabled = true → dirs = q.recentSignalDirs) :
    activeExit config { q with barsHeld := bars, recentSignalDirs := dirs } profile =
      activeExit config q profile := by
  have htimeout : (0 < config.timeoutBars ∧ checkTimeout q.action q.entryPrice q.barClose
        q.initialRisk bars config.timeoutBars profile.breakevenR = true) ↔
      0 < config.timeoutBars ∧ checkTimeout q.action q.entryPrice q.barClose q.initialRisk
        q.barsHeld config.timeoutBars profile.breakevenR = true :=
    and_congr_right fun hon => by rw [hbars hon]
  unfold activeExit
  by_cases hon : config.signalExitEnabled = true
  · rw [hdirs hon]
    simp only [htimeout]
    rfl
  · simp only [hon, Bool.false_eq_true, false_and, if_false, htimeout]

theorem effectiveChandelierMult_unread (config : ChandelierConfig) (q : ExitQuery)
    (profile : ExitProfile) {mult : ℚ}
    (hmult : config.enforceRFloor = true → mult = q.initialSlAtrMult) :
    effectiveChandelierMult config { q with initialSlAtrMult := mult } profile =
      effectiveChandelierMult config q profile := by
  unfold effectiveChandelierMult
  by_cases hon : config.enforceRFloor = true
  · rw [hmult hon]
  · simp only [hon, Bool.false_eq_true, false_and, if_false]

/-- Without spec and category the regime is not read, and of the other three fields only those
of the rules that are on. -/
theorem evaluateExit_unread (config : ChandelierConfig) (q : ExitQuery) {regime : String}
    {bars : ℤ} {dirs : List Direction} {mult : ℚ} (hspec : q.exitSpec = {})
    (hcategory : q.strategyCategory = "") (hbars : 0 < config.timeoutBars → bars = q.barsHeld)
    (hdirs : config.signalExitEnabled = true → dirs = q.recentSignalDirs)
    (hmult : config.enforceRFloor = true → mult = q.initialSlAtrMult) :
    evaluateExit config { q with
      currentRegime := regime
      barsHeld := bars
      recentSignalDirs := dirs
      initialSlAtrMult := mult } = evaluateExit config q := by
  generalize hother : { q with
    currentRegime := regime
    barsHeld := bars
    recentSignalDirs := dirs
    initialSlAtrMult := mult } = other
  have hmode : q.exitSpec.isBarrier = false := by
    rw [hspec]
    decide +kernel
  have hmodeOther : other.exitSpec.isBarrier = false := by
    rw [← hother]
    exact hmode
  have hprofile : exitProfile config other = exitProfile config q := by
    unfold exitProfile
    simp [← hother, hspec, hcategory]
  have hchandelier (profile : ExitProfile) :
      evaluateChandelier config other profile = evaluateChandelier config q profile := by
    have hfloor : effectiveChandelierMult config other profile =
        effectiveChandelierMult config q profile := by
      rw [← hother]
      exact effectiveChandelierMult_unread config q profile hmult
    have hactive : activeExit config other profile = activeExit config q profile := by
      rw [← hother]
      exact activeExit_unread config q profile hbars hdirs
    unfold evaluateChandelier evaluateTrailing trailingReached trailingSl chandelierAt
    rw [hfloor, hactive, ← hother]
    rfl
  unfold evaluateExit
  rw [hmode, hmodeOther, hprofile, funext hchandelier, if_neg Bool.false_ne_true,
    if_neg Bool.false_ne_true]

section Restart

variable (ticket : ℤ) (m : Managed) (context : AuditContext) (raw : RawPosition)

def restored : TrackedPosition := recoverPosition ticket (mergeContext m.row context raw)

theorem syncOpenPosition_eq_some (new : TrackedPosition) :
    syncOpenPosition ticket m.row context raw = some new ↔
      0 < ticket ∧ (m.row.signalId.getD context.signalId ≠ "" ∨ raw.restorableComment = true) ∧
        restored ticket m context raw = new := by
  unfold syncOpenPosition
  split_ifs with hskip
  · constructor
    · intro h
      cases h
    · rintro ⟨hticket, hown, _⟩
      rcases hskip with hneg | ⟨hid, hcomment⟩
      · omega
      · rcases hown with hown | hown
        · exact absurd hid hown
        · rw [hcomment] at hown
          cases hown
  · rw [not_or, not_and_or, not_le, Bool.not_eq_false] at hskip
    constructor
    · intro h
      exact ⟨hskip.1, hskip.2, Option.some.inj h⟩
    · rintro ⟨_, _, rfl⟩
      rfl

theorem restored_action : (restored ticket m context raw).action = raw.action := rfl

theorem restored_stopLoss : (restored ticket m context raw).stopLoss = raw.sl := rfl

theorem restored_openedAt : (restored ticket m context raw).openedAt = raw.time := rfl

theorem restored_timeframe : (restored ticket m context raw).timeframe = m.row.timeframe := rfl

theorem restored_exitSpec : (restored ticket m context raw).exitSpec = {} := rfl

theorem restored_strategyCategory : (restored ticket m context raw).strategyCategory = "" := rfl

theorem restored_entryPrice (hfresh : UpToDate m) :
    (restored ticket m context raw).entryPrice =
      orElse context.fillPrice (orElse (some m.pos.entryPrice) raw.priceOpen) := by
  rw [← hfresh.entryPrice]
  rfl

theorem restored_atrAtEntry (hfresh : UpToDate m) :
    (restored ticket m context raw).atrAtEntry =
      orElse (some m.pos.atrAtEntry) (defaultAtrFromPosition
        (orElse (some m.pos.entryPrice) raw.priceOpen) raw.sl) := by
  rw [← hfresh.entryPrice, ← hfresh.atrAtEntry]
  rfl

theorem restored_initialRisk :
    (restored ticket m context raw).initialRisk =
      (recoverBaseline raw.action
        (restored ticket m context raw).entryPrice raw.sl
        (restored ticket m context raw).atrAtEntry
        (some m.row.initialStopLoss)).2 := rfl

theorem restored_breakeven (hfresh : UpToDate m) :
    (restored ticket m context raw).breakevenActivated =
      (m.pos.breakevenApplied ||
        stopInProfit raw.action (orElse (some m.pos.entryPrice) raw.priceOpen) raw.sl) := by
  rw [← hfresh.entryPrice, ← hfresh.breakevenApplied]
  rfl

theorem sameFields_restored_iff (hfresh : UpToDate m) :
    SameFields m.pos (restored ticket m context raw) ↔
      orElse context.fillPrice (orElse (some m.pos.entryPrice) raw.priceOpen) = m.pos.entryPrice ∧
      (recoverBaseline raw.action m.pos.entryPrice raw.sl
        (orElse (some m.pos.atrAtEntry) (defaultAtrFromPosition
          (orElse (some m.pos.entryPrice) raw.priceOpen) raw.sl))
        (some m.row.initialStopLoss)).2 = m.pos.initialRisk ∧
      m.pos.peakPrice = none ∧
      (m.pos.breakevenApplied ||
        stopInProfit raw.action (orElse (some m.pos.entryPrice) raw.priceOpen) raw.sl) =
          m.pos.breakevenActivated ∧
      m.pos.exitSpec = {} ∧ m.pos.strategyCategory = "" := by
  constructor
  · rintro ⟨hentry, hrisk, hpeak, hflag, hspec, hcategory⟩
    rw [restored_initialRisk ticket m context raw, hentry,
      restored_atrAtEntry ticket m context raw hfresh] at hrisk
    rw [restored_entryPrice ticket m context raw hfresh] at hentry
    rw [restored_breakeven ticket m context raw hfresh] at hflag
    exact ⟨hentry, hrisk, hpeak.symm, hflag, hspec.symm, hcategory.symm⟩
  · rintro ⟨hentry, hrisk, hpeak, hflag, hspec, hcategory⟩
    have hentry' : (restored ticket m context raw).entryPrice =
        m.pos.entryPrice := by
      rw [restored_entryPrice ticket m context raw hfresh]
      exact hentry
    refine ⟨hentry', ?_, hpeak.symm, ?_, hspec.symm, hcategory.symm⟩
    · rw [restored_initialRisk ticket m context raw, hentry',
        restored_atrAtEntry ticket m context raw hfresh]
      exact hrisk
    · rw [restored_breakeven ticket m context raw hfresh]
      exact hflag

/-- The recovered position knows the same best price. -/
theorem restored_best (hfresh : UpToDate m) (haction : raw.action = m.pos.action)
    (hbest : (bestPrice m.pos).isSome = true) :
    bestPrice (restored ticket m context raw) = bestPrice m.pos := by
  obtain ⟨best, hbest⟩ := Option.isSome_iff_exists.mp hbest
  unfold bestPrice at hbest ⊢
  simp only [restored, recoverPosition, mergeContext, haction, hfresh.highestPrice, hfresh.lowestPrice]
  cases hside : m.pos.action with
  | buy =>
    rw [hside] at hbest
    simp only at hbest ⊢
    rw [hbest]
    rfl
  | sell =>
    rw [hside] at hbest
    simp only at hbest ⊢
    rw [hbest]
    rfl

/-- The multiple of the initial stop is computed anew. -/
theorem restored_slAtrMult (hfields : SameFields m.pos (restored ticket m context raw))
    (hatr : (restored ticket m context raw).atrAtEntry = m.pos.atrAtEntry)
    {config : ChandelierConfig} (hrequest : RequestSurvives config m raw)
    (hon : config.enforceRFloor = true) :
    (restored ticket m context raw).slAtrMult = m.pos.slAtrMult := by
  have hmult : (restored ticket m context raw).slAtrMult =
      if 0 < (restored ticket m context raw).atrAtEntry ∧
          0 < (restored ticket m context raw).initialRisk then
        round ((restored ticket m context raw).initialRisk /
          (restored ticket m context raw).atrAtEntry) 4
      else if 0 < (restored ticket m context raw).atrAtEntry ∧
          0 < raw.sl then
        round (|(restored ticket m context raw).entryPrice - raw.sl| /
          (restored ticket m context raw).atrAtEntry) 4
      else 0 := rfl
  rw [hmult, hatr, hfields.initialRisk, hfields.entryPrice, hrequest.stopLoss]
  exact (hrequest.mult hon).symm

/-- The exit rules are asked the same, apart from what `evaluateExit_unread` is about. -/
theorem restored_query (hfresh : UpToDate m) (hbest : (bestPrice m.pos).isSome = true)
    (hfields : SameFields m.pos (restored ticket m context raw)) {config : ChandelierConfig}
    (hrequest : RequestSurvives config m raw) (tick : Tick) (readings : Readings) :
    exitQuery (notePrice (restored ticket m context raw) tick.price) tick
        readings =
      { exitQuery (notePrice m.pos tick.price) tick readings with
        currentRegime := getCurrentRegime (restored ticket m context raw) readings.regime
        barsHeld := computeBarsHeld (restored ticket m context raw) tick.now
        recentSignalDirs := []
        initialSlAtrMult := (restored ticket m context raw).slAtrMult } := by
  have hatr := (restored_atrAtEntry ticket m context raw hfresh).trans hrequest.atr
  have hpeak : (notePrice (restored ticket m context raw)
      tick.price).peakPrice = (notePrice m.pos tick.price).peakPrice := by
    obtain ⟨best, hbest'⟩ := Option.isSome_iff_exists.mp hbest
    rw [notePrice_peak_eq m.pos tick.price best hbest',
      notePrice_peak_eq _ tick.price best
        ((restored_best ticket m context raw hfresh hrequest.action hbest).trans hbest'),
      hfields.peakPrice, restored_action, hrequest.action]
  have hcurrent : getCurrentAtr (restored ticket m context raw) readings =
      getCurrentAtr m.pos readings := by
    unfold getCurrentAtr
    rw [hatr]
  rw [exitQuery_notePrice_eq, exitQuery_notePrice_eq, hpeak]
  simp only [exitQuery, ExitQuery.mk.injEq]
  exact ⟨hrequest.action, hfields.entryPrice, trivial, trivial, trivial, hrequest.stopLoss,
    hfields.initialRisk, by rw [hfields.entryPrice], hcurrent, trivial, hfields.breakevenActivated,
    rfl, hfields.strategyCategory, trivial, hfresh.timeframe, trivial, hatr,
    hfields.exitSpec, trivial⟩

theorem restored_exitResult {config : ChandelierConfig} (hfresh : UpToDate m)
    (hbest : (bestPrice m.pos).isSome = true)
    (hfields : SameFields m.pos (restored ticket m context raw))
    (hrequest : RequestSurvives config m raw) (tick : Tick) :
    exitResult config (notePrice (restored ticket m context raw) tick.price) tick =
      exitResult config (notePrice m.pos tick.price) tick := by
  unfold exitResult
  rw [(notePrice_frame _ tick.price).2.2.2.1, (notePrice_frame m.pos tick.price).2.2.2.1,
    hfields.initialRisk]
  cases tick.readings with
  | none => rw [Option.bind_none, Option.bind_none]
  | some readings =>
    rw [Option.bind_some, Option.bind_some,
      restored_query ticket m context raw hfresh hbest hfields hrequest tick readings,
      exitQuery_notePrice_eq m.pos, evaluateExit_unread]
    · exact hfields.exitSpec.symm.trans (restored_exitSpec ticket m context raw)
    · exact hfields.strategyCategory.symm.trans (restored_strategyCategory ticket m context raw)
    · intro hon
      show computeBarsHeld (restored ticket m context raw) tick.now = computeBarsHeld m.pos tick.now
      unfold computeBarsHeld
      rw [restored_openedAt, restored_timeframe, hrequest.openedAt hon, hfresh.timeframe]
    · intro hon
      exact (hrequest.signals hon).symm
    · intro hon
      exact restored_slAtrMult ticket m context raw hfields
        ((restored_atrAtEntry ticket m context raw hfresh).trans hrequest.atr) hrequest hon

/-- A position without a risk asks for nothing. -/
theorem restored_requested (config : ChandelierConfig) (hfresh : UpToDate m)
    (hbest : (bestPrice m.pos).isSome = true)
    (hfields : SameFields m.pos (restored ticket m context raw))
    (hrequest : 0 < m.pos.initialRisk → RequestSurvives config m raw) (tick : Tick) :
    requested config (restored ticket m context raw) tick =
      requested config m.pos tick := by
  rw [requested_eq, requested_eq]
  by_cases hrisk : 0 < m.pos.initialRisk
  · rw [restored_exitResult ticket m context raw hfresh hbest hfields (hrequest hrisk) tick,
      restored_stopLoss, (hrequest hrisk).stopLoss]
  · have hnone (pos : TrackedPosition) (hsame : pos.initialRisk = m.pos.initialRisk) :
        exitResult config (notePrice pos tick.price) tick = none := by
      unfold exitResult
      rw [(notePrice_frame pos tick.price).2.2.2.1, hsame, if_pos (not_lt.mp hrisk)]
    rw [hnone _ hfields.initialRisk, hnone _ rfl]
    rfl

end Restart

/-- At every flushed point of every history a transparent restart needs the state to be one
that the row can carry, and with what the broker holds this is enough. -/
theorem restart_transparent (config : ChandelierConfig) (signalId : String) (ticket : ℤ)
    (origin : Origin) (history : List History) (context : AuditContext) (raw : RawPosition) :
    (Transparent config ticket (managedAt config signalId ticket origin history) context raw →
      FieldsSurvive ticket (managedAt config signalId ticket origin history) context raw) ∧
    (FieldsSurvive ticket (managedAt config signalId ticket origin history) context raw →
      (0 < (managedAt config signalId ticket origin history).pos.initialRisk →
        RequestSurvives config (managedAt config signalId ticket origin history) raw) →
      Transparent config ticket (managedAt config signalId ticket origin history) context raw) := by
  have hfresh := upToDate_managedAt config signalId ticket origin history
  have hbest := best_managedAt config signalId ticket origin history
  generalize managedAt config signalId ticket origin history = m at hfresh hbest
  constructor
  · rintro ⟨new, hsync, hfields, _⟩
    obtain ⟨hticket, hown, rfl⟩ := (syncOpenPosition_eq_some ticket m context raw new).mp hsync
    obtain ⟨hentry, hrisk, hpeak, hflag, hspec, hcategory⟩ :=
      (sameFields_restored_iff ticket m context raw hfresh).mp hfields
    exact ⟨hticket, hown, hentry, hrisk, hpeak, hflag, hspec, hcategory⟩
  · rintro ⟨hticket, hown, hentry, hrisk, hpeak, hflag, hspec, hcategory⟩ hrequest
    have hfields : SameFields m.pos (restored ticket m context raw) :=
      (sameFields_restored_iff ticket m context raw hfresh).mpr
        ⟨hentry, hrisk, hpeak, hflag, hspec, hcategory⟩
    exact ⟨_, (syncOpenPosition_eq_some ticket m context raw _).mpr ⟨hticket, hown, rfl⟩, hfields,
      restored_requested ticket m context raw config hfresh hbest hfields hrequest⟩

/-- Entry and risk stay as they were when the position was opened, and so does an initial
stop that is not zero. -/
structure KeepsBaseline (opening : Opening) (m : Managed) : Prop where
  entryPrice : m.pos.entryPrice = opening.fillPrice.getD opening.entryPrice
  initialRisk : m.pos.initialRisk = |opening.fillPrice.getD opening.entryPrice - opening.stopLoss|
  initialStopLoss : m.row.initialStopLoss = opening.stopLoss

theorem updatePrice_entryPrice (config : ChandelierConfig) (pos : TrackedPosition) (tick : Tick) :
    (updatePrice config pos tick).entryPrice = pos.entryPrice := by
  rw [updatePrice_reads TrackedPosition.entryPrice (fun _ _ => rfl) (fun _ _ _ => rfl)
    (fun _ _ => rfl)]
  have hquery := congrArg ExitQuery.entryPrice (exitQuery_notePrice_eq pos tick {})
  exact hquery

theorem updatePrice_initialRisk (config : ChandelierConfig) (pos : TrackedPosition)
    (tick : Tick) : (updatePrice config pos tick).initialRisk = pos.initialRisk := by
  rw [updatePrice_reads TrackedPosition.initialRisk (fun _ _ => rfl) (fun _ _ _ => rfl)
    (fun _ _ => rfl)]
  exact (notePrice_frame pos tick.price).2.2.2.1

theorem recordPositionTracked_initialStopLoss (signalId : String) (row : StateRow)
    (pos : TrackedPosition) (hstop : row.initialStopLoss ≠ 0) :
    (recordPositionTracked signalId (some row) pos).initialStopLoss = row.initialStopLoss := by
  simp only [recordPositionTracked, Option.map_some, orElse, hstop, if_false]

theorem noteSignal_baseline (config : ChandelierConfig) (event : SignalEvent)
    (pos : TrackedPosition) :
    (noteSignal config event pos).entryPrice = pos.entryPrice ∧
      (noteSignal config event pos).initialRisk = pos.initialRisk := by
  unfold noteSignal
  split
  · exact ⟨rfl, rfl⟩
  · dsimp only
    split
    · exact ⟨rfl, rfl⟩
    · exact ⟨rfl, rfl⟩

theorem manage_baseline (config : ChandelierConfig) (signalId : String) (opening : Opening)
    (m : Managed) (event : History) (hstop : opening.stopLoss ≠ 0)
    (h : KeepsBaseline opening m) : KeepsBaseline opening (manage config signalId m event) := by
  have hrow : m.row.initialStopLoss ≠ 0 := by
    rw [h.initialStopLoss]
    exact hstop
  cases event with
  | price tick =>
    refine ⟨?_, ?_, ?_⟩
    · rw [manage_price_pos, updatePrice_entryPrice]
      exact h.entryPrice
    · rw [manage_price_pos, updatePrice_initialRisk]
      exact h.initialRisk
    · unfold manage
      dsimp only
      split_ifs
      · rw [flushed, recordPositionTracked_initialStopLoss _ _ _ hrow]
        exact h.initialStopLoss
      · exact h.initialStopLoss
  | signal event =>
    obtain ⟨hentry, hrisk⟩ := noteSignal_baseline config event m.pos
    exact ⟨hentry.trans h.entryPrice, hrisk.trans h.initialRisk, h.initialStopLoss⟩
  | flush =>
    refine ⟨h.entryPrice, h.initialRisk, ?_⟩
    rw [manage, flushed, recordPositionTracked_initialStopLoss _ _ _ hrow]
    exact h.initialStopLoss

theorem managedAt_baseline (config : ChandelierConfig) (signalId : String) (ticket : ℤ)
    (opening : Opening) (history : List History) (hstop : opening.stopLoss ≠ 0) :
    KeepsBaseline opening (managedAt config signalId ticket (.opened opening) history) := by
  have hbegin : KeepsBaseline opening (beginTracking signalId ticket (.opened opening)) :=
    ⟨rfl, rfl, rfl⟩
  unfold managedAt
  apply manage_baseline config signalId opening _ _ hstop
  induction history using List.reverseRecOn with
  | nil => exact hbegin
  | append_singleton front event ih =>
    rw [List.foldl_append]
    exact manage_baseline config signalId opening _ event hstop ih

/-- Wherever the stop has been moved to, a position that was opened with a stop is recovered
with its risk exactly when the recovered entry is as far from that stop as the entry was. -/
theorem risk_survives (config : ChandelierConfig) (signalId : String) (ticket : ℤ)
    (opening : Opening) (history : List History) (context : AuditContext) (raw : RawPosition)
    (new : TrackedPosition) (hstop : 0 < opening.stopLoss)
    (hsync : syncOpenPosition ticket
      (managedAt config signalId ticket (.opened opening) history).row context raw = some new) :
    new.initialRisk =
        (managedAt config signalId ticket (.opened opening) history).pos.initialRisk ↔
      |orElse context.fillPrice
            (orElse (some (opening.fillPrice.getD opening.entryPrice)) raw.priceOpen) -
          opening.stopLoss| =
        |opening.fillPrice.getD opening.entryPrice - opening.stopLoss| := by
  have hbase := managedAt_baseline config signalId ticket opening history hstop.ne'
  have hfresh := upToDate_managedAt config signalId ticket (.opened opening) history
  obtain ⟨-, -, rfl⟩ := (syncOpenPosition_eq_some ticket _ context raw new).mp hsync
  rw [restored_initialRisk, restored_entryPrice _ _ _ _ hfresh, hbase.initialStopLoss,
    hbase.initialRisk, hbase.entryPrice]
  unfold recoverBaseline
  simp [Option.filter, hstop, not_le.mpr hstop]

/-- The broker's side of the position at a given stop. -/
def brokerBuy (sl : ℚ) : RawPosition := ⟨.buy, 100, sl, 0, true⟩

theorem restart_transparent_plain :
    Transparent {} 1 (managedAt {} "sig" 1 (.opened buyAtHundred) [.price (priceAt 99)]) {}
      (brokerBuy 95) :=
  (restart_transparent {} "sig" 1 (.opened buyAtHundred) [.price (priceAt 99)] {} (brokerBuy 95)).2
    (by constructor <;> decide +kernel) fun _ => by constructor <;> decide +kernel

/-- Closed by time after one bar. -/
def timedBuy : Opening :=
  { buyAtHundred with exitSpec := { filledBelowQuote.exitSpec with timeBars := .number 1 } }

/-- A price two hours after the opening. -/
def twoHoursLater (price : ℚ) : Tick where
  price := price
  now := 7200
  answer := .report [1] []

/-- A better price leaves a peak that the recovered position does not have, and a position
with a time barrier is no longer closed at it. -/
theorem restart_forgets :
    ¬Transparent {} 1 (managedAt {} "sig" 1 (.opened buyAtHundred) [.price (priceAt 104)]) {}
        (brokerBuy (391 / 4)) ∧
      ¬Transparent {} 1 (managedAt {} "sig" 1 (.opened timedBuy) []) {} (brokerBuy 95) := by
  constructor
  · rintro ⟨new, hsync, hfields, _⟩
    have hpeak : (managedAt {} "sig" 1 (.opened buyAtHundred) [.price (priceAt 104)]).pos.peakPrice =
        some 104 := by
      decide +kernel
    obtain ⟨_, _, rfl⟩ := (syncOpenPosition_eq_some _ _ _ _ new).mp hsync
    exact absurd (hfields.peakPrice.trans hpeak) (by simp [restored, recoverPosition])
  · rintro ⟨new, hsync, _, hrequests⟩
    obtain ⟨_, _, rfl⟩ := (syncOpenPosition_eq_some _ _ _ _ new).mp hsync
    exact absurd (hrequests (twoHoursLater 100)) (by decide +kernel)

theorem risk_survives_trailed :
    (restored 1 (managedAt {} "sig" 1 (.opened buyAtHundred) [.price (priceAt 104)]) {}
        (brokerBuy (391 / 4))).initialRisk =
      (managedAt {} "sig" 1 (.opened buyAtHundred) [.price (priceAt 104)]).pos.initialRisk :=
  (risk_survives {} "sig" 1 buyAtHundred [.price (priceAt 104)] {} (brokerBuy (391 / 4)) _
    (by decide)
    ((syncOpenPosition_eq_some _ _ _ _ _).mpr ⟨by decide, Or.inr rfl, rfl⟩)).mpr (by rfl)

end MT5Services.PositionRestart
