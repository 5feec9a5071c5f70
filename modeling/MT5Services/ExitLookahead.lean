import MT5Services.ExitFills

/-!
What the stops of the backtest may know. The rules compare the current bar with the stop that
the peak at its open gives; the new peak only moves the stop of the next bar. So the stop that
closes a position is one of two levels: the stored one, which the earlier bars have left, and
the one the current ATR and regime make of it. A position is followed from its entry by
what it has seen, the highs, lows, ATRs and regimes of the bars it stayed open on.
-/
namespace MT5Services.ExitLookahead

open PyNumber ExitRules Runs Portfolio Departures PositionClosings ExitFills

/-- What a position sees of a bar. -/
structure Seen where
  high : ℚ
  low : ℚ
  atr : ℚ
  regime : String
  deriving DecidableEq, Repr

def seen (bar : Bar) (readings : BarReadings) : Seen :=
  ⟨bar.high, bar.low, readings.currentAtr, readings.currentRegime⟩

/-- The bars of a list of calls. -/
def seenOn (labels : List Act) : List Seen :=
  labels.filterMap fun
    | .exits bar _ readings => some (seen bar readings)
    | _ => none

/-- What the bars change of a position and the trailing rules read. -/
structure Trail where
  stop : ℚ
  peak : Option ℚ
  activated : Bool

/-- What else changes while a position is open. -/
structure Books where
  barsHeld : ℤ
  recentSignalDirs : List Direction
  swapCost : ℚ
  mfePrice : Option ℚ
  maePrice : Option ℚ

/-- The position that was entered, later. -/
def carry (entry : Position) (trail : Trail) (books : Books) : Position :=
  { entry with
    stopLoss := trail.stop
    peakPrice := trail.peak
    breakevenActivated := trail.activated
    barsHeld := books.barsHeld
    recentSignalDirs := books.recentSignalDirs
    swapCost := books.swapCost
    mfePrice := books.mfePrice
    maePrice := books.maePrice }

def entryTrail (entry : Position) : Trail :=
  ⟨entry.stopLoss, entry.peakPrice, entry.breakevenActivated⟩

def booksOf (pos : Position) : Books :=
  ⟨pos.barsHeld, pos.recentSignalDirs, pos.swapCost, pos.mfePrice, pos.maePrice⟩

def openPeak (entry : Position) (trail : Trail) : ℚ := orElse trail.peak entry.entryPrice

/-- The peak after a bar. -/
def newPeak (entry : Position) (trail : Trail) (high low : ℚ) : Option ℚ :=
  let favorable :=
    match entry.direction with
    | .buy => high
    | .sell => low
  if entry.direction.better (openPeak entry trail) favorable then some favorable else trail.peak

/-- The part of a query that the trailing rules read; the prices of the bar are left out. -/
def trailQuery (entry : Position) (trail : Trail) (atr : ℚ) (regime : String) : ExitQuery where
  action := entry.direction
  entryPrice := entry.entryPrice
  barHigh := 0
  barLow := 0
  barClose := 0
  currentStopLoss := trail.stop
  initialRisk := entry.initialRisk
  peakPrice := 0
  currentAtr := atr
  breakevenAlreadyActivated := trail.activated
  strategyCategory := entry.strategyCategory
  currentRegime := regime
  timeframe := entry.timeframe
  initialSlAtrMult := entry.slAtrMult
  exitSpec := entry.exitSpec

/-- What a bar on which the position stays open leaves. -/
def watch (config : ChandelierConfig) (entry : Position) (trail : Trail) (view : Seen) : Trail :=
  let peak := newPeak entry trail view.high view.low
  let q := trailQuery entry trail view.atr view.regime
  if entry.exitSpec.isBarrier then ⟨trail.stop, peak, false⟩
  else
    match exitProfile config q with
    | none => trail
    | some profile =>
      ⟨(trailingSl config q profile (orElse peak entry.entryPrice)).getD trail.stop, peak,
        (breakevenAt config q profile (orElse peak entry.entryPrice)).2⟩

def trailAfter (config : ChandelierConfig) (entry : Position) (history : List Seen) : Trail :=
  history.foldl (watch config entry) (entryTrail entry)

/-- The stop that the earlier bars have left. -/
def storedStop (c : Settings) (entry : Position) (history : List Seen) (_atr : ℚ)
    (_regime : String) : ℚ :=
  (trailAfter c.chandelierConfig entry history).stop

/-- The stop that the current ATR and regime make of it, from the peak of the earlier bars; in
barrier mode the fixed distance from the entry. -/
def recomputed (config : ChandelierConfig) (entry : Position) (trail : Trail) (atr : ℚ)
    (regime : String) : ℚ :=
  let q := trailQuery entry trail atr regime
  if entry.exitSpec.isBarrier then
    match barriersOf q with
    | none => trail.stop
    | some b => moved entry.direction.opposite entry.entryPrice (b.slAtr * b.atr)
  else
    match exitProfile config q with
    | none => trail.stop
    | some profile => (trailingSl config q profile (openPeak entry trail)).getD trail.stop

def recomputedStop (c : Settings) (entry : Position) (history : List Seen) (atr : ℚ)
    (regime : String) : ℚ :=
  recomputed c.chandelierConfig entry (trailAfter c.chandelierConfig entry history) atr regime

/-- The position was open at the start or was opened by one of the calls; the history is what
the calls since then have shown it. -/
def Entered (c : Settings) (s : Tracker) (labels : List Act) (entry : Position)
    (history : List Seen) : Prop :=
  (entry ∈ s.openPositions ∧ history = seenOn labels) ∨
    ∃ front order back t, labels = front ++ .openTrade order :: back ∧
      run (step c) s front = some t ∧
      entry = newPosition c (canOpenPosition c t order.bar order.tradeParams).1 order ∧
      history = seenOn back

/-- In every run, a stop that closes a position is one of the levels, which know of the earlier
bars what the view shows, and of the current bar the ATR and the regime. -/
def DecidedBy {V : Type*} (view : Seen → V)
    (levels : List (Settings → Position → List V → ℚ → String → ℚ)) : Prop :=
  ∀ c s labels t bar barIndex readings, run (step c) s labels = some t →
    ∀ x ∈ closings c t (.exits bar barIndex readings), StoppedOut x.2.reason →
      ∃ entry history, Entered c s labels entry history ∧
        (∃ trail books, x.1 = carry entry trail books) ∧
        ∃ level ∈ levels, x.1.stopLoss =
          level c entry (history.map view) readings.currentAtr readings.currentRegime

/-- The decision, without the stop of the next bar. -/
def decided (result : ExitCheckResult) : Bool × Option CloseReason :=
  (result.shouldClose, result.closeReason)

/-- The query with a peak at the open of the bar and the one after it. -/
def atPeaks (q : ExitQuery) (atOpen peak : ℚ) : ExitQuery :=
  { q with peakPrice := peak, peakPriceAtBarOpen := some atOpen }

section Bar

variable (config : ChandelierConfig) (entry : Position) (trail : Trail) (books : Books) (bar : Bar)
  (readings : BarReadings)

theorem carry_entry : entry = carry entry (entryTrail entry) (booksOf entry) := rfl

/-- A bar changes the peak and the books. -/
theorem noteBar_carry :
    noteBar (carry entry trail books) bar =
      carry entry { trail with peak := newPeak entry trail bar.high bar.low }
        (booksOf (noteBar (carry entry trail books) bar)) := by
  cases hside : entry.direction with
  | buy => simp [carry, noteBar, newPeak, openPeak, peakAtBarOpen, booksOf, hside]
  | sell => simp [carry, noteBar, newPeak, openPeak, peakAtBarOpen, booksOf, hside]

theorem evaluated_carry :
    ∃ later, evaluated config bar readings (carry entry trail books) =
      carry entry { trail with peak := newPeak entry trail bar.high bar.low } later := by
  refine ⟨booksOf (evaluated config bar readings (carry entry trail books)), ?_⟩
  unfold evaluated
  rw [noteDirection_eq, noteBar_carry]
  rfl

/-- What the rules are asked on a bar. -/
def barQuery : ExitQuery :=
  exitQuery (carry entry { trail with peak := newPeak entry trail bar.high bar.low } books)
    (openPeak entry trail) bar readings

theorem ruleExit_carry :
    ∃ later, evaluated config bar readings (carry entry trail books) =
        carry entry { trail with peak := newPeak entry trail bar.high bar.low } later ∧
      ruleExit config bar readings (carry entry trail books) =
        evaluateExit config (barQuery entry trail later bar readings) := by
  obtain ⟨later, hlater⟩ := evaluated_carry config entry trail books bar readings
  refine ⟨later, hlater, ?_⟩
  unfold ruleExit
  rw [hlater]
  rfl

end Bar

section Round

variable {config : ChandelierConfig} {bar : Bar} {barIndex : ℤ} {readings : BarReadings}

theorem ruleVisit_stays {pos changed : Position} {result : ExitCheckResult}
    (h : ruleVisit config bar barIndex pos result = .stays changed) :
    changed = takeResult pos result ∧ (result.shouldClose = false ∨ result.closeReason = none) := by
  unfold ruleVisit at h
  cases hclose : result.shouldClose with
  | false =>
    simp only [hclose] at h
    exact ⟨(Visit.stays.inj h).symm, Or.inl rfl⟩
  | true =>
    cases hreason : result.closeReason with
    | none =>
      simp only [hclose, hreason] at h
      exact ⟨(Visit.stays.inj h).symm, Or.inr rfl⟩
    | some reason => simp [hclose, hreason] at h

theorem ruleVisit_leaves {pos : Position} {result : ExitCheckResult} {x : Position × Closing}
    (h : ruleVisit config bar barIndex pos result = .leaves x) :
    x.1 = takeResult pos result ∧
      ∃ reason, result.closeReason = some reason ∧ x.2.reason = .rule reason := by
  unfold ruleVisit at h
  cases hclose : result.shouldClose with
  | false => simp [hclose] at h
  | true =>
    cases hreason : result.closeReason with
    | none => simp [hclose, hreason] at h
    | some reason =>
      simp only [hclose, hreason] at h
      obtain rfl := Visit.leaves.inj h
      exact ⟨rfl, reason, rfl, rfl⟩

/-- The results of a barrier evaluation. -/
theorem evaluateBarrierExit_cases (q : ExitQuery) (b : Barriers) :
    evaluateBarrierExit q b = ⟨false, none, none, 0, false⟩ ∨
      evaluateBarrierExit q b = ⟨true, some .stopLoss,
        some (moved q.action.opposite q.entryPrice (b.slAtr * b.atr)), round q.rMultiple 4, false⟩ ∨
      evaluateBarrierExit q b = ⟨true, some .takeProfit,
        some (moved q.action q.entryPrice (b.tpAtr * b.atr)), round q.rMultiple 4, false⟩ ∨
      evaluateBarrierExit q b = ⟨true, some .timeout, none, round q.rMultiple 4, false⟩ ∨
      evaluateBarrierExit q b = ⟨false, none, none, round q.rMultiple 4, false⟩ := by
  unfold evaluateBarrierExit
  by_cases hdegenerate : b.Degenerate
  · rw [if_pos hdegenerate]
    exact Or.inl rfl
  · rw [if_neg hdegenerate, hitBarrier_eq]
    by_cases hstop : q.stopReachedAt (moved q.action.opposite q.entryPrice (b.slAtr * b.atr)) = true
    · rw [if_pos hstop]
      exact Or.inr (Or.inl rfl)
    · rw [if_neg hstop]
      by_cases htarget : targetReached q.action q.barHigh q.barLow
          (moved q.action q.entryPrice (b.tpAtr * b.atr)) = true
      · rw [if_pos htarget]
        exact Or.inr (Or.inr (Or.inl rfl))
      · rw [if_neg htarget]
        dsimp only
        split_ifs
        · exact Or.inr (Or.inr (Or.inr (Or.inl rfl)))
        · exact Or.inr (Or.inr (Or.inr (Or.inr rfl)))

/-- A barrier that closes nothing leaves the stop alone. -/
theorem barrier_stays {q : ExitQuery} {b : Barriers}
    (h : (evaluateBarrierExit q b).shouldClose = false ∨
      (evaluateBarrierExit q b).closeReason = none) :
    (evaluateBarrierExit q b).newStopLoss = none := by
  rcases evaluateBarrierExit_cases q b with hr | hr | hr | hr | hr
  · rw [hr]
  · simp [hr] at h
  · simp [hr] at h
  · rw [hr]
  · rw [hr]

/-- A barrier stop is the fixed distance from the entry. -/
theorem barrier_stop {q : ExitQuery} {b : Barriers}
    (h : (evaluateBarrierExit q b).closeReason = some .stopLoss ∨
      (evaluateBarrierExit q b).closeReason = some .trailingStop) :
    (evaluateBarrierExit q b).newStopLoss =
      some (moved q.action.opposite q.entryPrice (b.slAtr * b.atr)) := by
  rcases evaluateBarrierExit_cases q b with hr | hr | hr | hr | hr
  · simp [hr] at h
  · rw [hr]
  · simp [hr] at h
  · simp [hr] at h
  · simp [hr] at h

/-- Chandelier rules that close nothing trail the stop from the new peak. -/
theorem chandelier_stays {q : ExitQuery} {profile : ExitProfile}
    (h : (evaluateChandelier config q profile).shouldClose = false ∨
      (evaluateChandelier config q profile).closeReason = none) :
    (evaluateChandelier config q profile).newStopLoss = trailingSl config q profile q.peakPrice ∧
      (evaluateChandelier config q profile).breakevenActivated =
        (breakevenAt config q profile q.peakPrice).2 := by
  rcases evaluateChandelier_cases config q profile with
    ⟨-, -, hresult⟩ | ⟨-, -, hresult⟩ | ⟨-, -, hresult⟩
  · rw [hresult] at h
    rcases h with h | h
    · cases h
    · cases h
  · rw [hresult] at h
    rcases h with h | h
    · cases h
    · cases h
  · rw [hresult] at h ⊢
    unfold evaluateTrailing at h ⊢
    split_ifs at h ⊢
    · rcases h with h | h
      · cases h
      · cases h
    · exact ⟨rfl, rfl⟩

/-- Chandelier rules that close at a stop leave the stored one or take the trailing stop of the
peak at the open. -/
theorem chandelier_stop {q : ExitQuery} {profile : ExitProfile}
    (h : (evaluateChandelier config q profile).closeReason = some .stopLoss ∨
      (evaluateChandelier config q profile).closeReason = some .trailingStop) :
    (evaluateChandelier config q profile).newStopLoss = none ∨
      (evaluateChandelier config q profile).newStopLoss =
        trailingSl config q profile (q.peakPriceAtBarOpen.getD q.peakPrice) := by
  rcases evaluateChandelier_cases config q profile with
    ⟨-, -, hresult⟩ | ⟨-, -, hresult⟩ | ⟨-, -, hresult⟩
  · rw [hresult]
    exact Or.inl rfl
  · rw [hresult]
    exact Or.inl rfl
  · rw [hresult] at h ⊢
    unfold evaluateTrailing at h ⊢
    split_ifs at h ⊢
    · exact Or.inr rfl
    · rcases activeExit_cases config q profile with hactive | hactive | hactive
      · simp [hactive] at h
      · simp [hactive] at h
      · simp [hactive] at h

end Round

section Modes

variable (config : ChandelierConfig) (q : ExitQuery)

theorem evaluateExit_of_barrier (h : q.exitSpec.isBarrier = true) :
    evaluateExit config q = (barriersOf q).map (evaluateBarrierExit q) := if_pos h

theorem evaluateExit_of_chandelier (h : q.exitSpec.isBarrier = false) :
    evaluateExit config q = (exitProfile config q).map (evaluateChandelier config q) :=
  if_neg (Bool.eq_false_iff.mp h)

end Modes

section Life

variable (config : ChandelierConfig) {entry : Position} {trail : Trail} {books : Books} {bar : Bar}
  {barIndex : ℤ} {readings : BarReadings}

/-- A position that stays has watched the bar. -/
theorem visitExits_stays {changed : Position}
    (h : visitExits config bar barIndex readings (carry entry trail books) =
      some (.stays changed)) :
    ∃ later, changed = carry entry (watch config entry trail (seen bar readings)) later := by
  obtain ⟨later, hevaluated, hrules⟩ := ruleExit_carry config entry trail books bar readings
  unfold visitExits at h
  rw [hrules, hevaluated] at h
  split at h
  · cases h
  · obtain ⟨result, hresult, hvisit⟩ := Option.map_eq_some_iff.mp h
    obtain ⟨rfl, hopen⟩ := ruleVisit_stays hvisit
    refine ⟨later, ?_⟩
    unfold watch
    cases hmode : entry.exitSpec.isBarrier with
    | true =>
      rw [evaluateExit_of_barrier config (barQuery entry trail later bar readings) hmode] at hresult
      obtain ⟨b, -, rfl⟩ := Option.map_eq_some_iff.mp hresult
      rw [if_pos rfl, takeResult, barrier_stays hopen, evaluateBarrierExit_breakeven]
      rfl
    | false =>
      rw [evaluateExit_of_chandelier config (barQuery entry trail later bar readings) hmode]
        at hresult
      obtain ⟨profile, hprofile, rfl⟩ := Option.map_eq_some_iff.mp hresult
      obtain ⟨hstop, hflag⟩ := chandelier_stays hopen
      have hview : exitProfile config (trailQuery entry trail (seen bar readings).atr
          (seen bar readings).regime) = some profile := hprofile
      rw [if_neg Bool.false_ne_true, hview, takeResult, hstop, hflag]
      rfl

/-- A stop that closes is the stored one or the recomputed one. -/
theorem visitExits_leaves {x : Position × Closing}
    (h : visitExits config bar barIndex readings (carry entry trail books) = some (.leaves x))
    (hstopped : StoppedOut x.2.reason) :
    (∃ last later, x.1 = carry entry last later) ∧
      (x.1.stopLoss = trail.stop ∨
        x.1.stopLoss =
          recomputed config entry trail readings.currentAtr readings.currentRegime) := by
  obtain ⟨later, hevaluated, hrules⟩ := ruleExit_carry config entry trail books bar readings
  unfold visitExits at h
  rw [hrules, hevaluated] at h
  split at h
  · obtain rfl := Visit.leaves.inj (Option.some.inj h)
    exact ⟨⟨_, _, noteBar_carry entry trail books bar⟩, Or.inl rfl⟩
  · obtain ⟨result, hresult, hvisit⟩ := Option.map_eq_some_iff.mp h
    obtain ⟨htaken, reason, hreason, hrule⟩ := ruleVisit_leaves hvisit
    have hstop : result.closeReason = some .stopLoss ∨ result.closeReason = some .trailingStop := by
      rw [hreason]
      rw [hrule] at hstopped
      rcases hstopped with hstopped | hstopped
      · exact Or.inl (congrArg some (ExitReason.rule.inj hstopped))
      · exact Or.inr (congrArg some (ExitReason.rule.inj hstopped))
    rw [htaken]
    refine ⟨⟨⟨result.newStopLoss.getD trail.stop, newPeak entry trail bar.high bar.low,
      result.breakevenActivated⟩, later, rfl⟩, ?_⟩
    unfold recomputed
    cases hmode : entry.exitSpec.isBarrier with
    | true =>
      rw [evaluateExit_of_barrier config (barQuery entry trail later bar readings) hmode] at hresult
      obtain ⟨b, hb, rfl⟩ := Option.map_eq_some_iff.mp hresult
      have hview : barriersOf (trailQuery entry trail readings.currentAtr
          readings.currentRegime) = some b := hb
      rw [if_pos rfl, hview, takeResult, barrier_stop hstop]
      exact Or.inr rfl
    | false =>
      rw [evaluateExit_of_chandelier config (barQuery entry trail later bar readings) hmode]
        at hresult
      obtain ⟨profile, hprofile, rfl⟩ := Option.map_eq_some_iff.mp hresult
      have hview : exitProfile config (trailQuery entry trail readings.currentAtr
          readings.currentRegime) = some profile := hprofile
      rw [if_neg Bool.false_ne_true, hview, takeResult]
      rcases chandelier_stop hstop with hnone | htrail
      · rw [hnone]
        exact Or.inl rfl
      · rw [htrail]
        exact Or.inr rfl

end Life

theorem decided_evaluateTrailing (config : ChandelierConfig) (q : ExitQuery)
    (profile : ExitProfile) :
    decided (evaluateTrailing config q profile) =
      if trailingReached config q profile then (true, some .trailingStop)
      else ((activeExit config q profile).isSome, activeExit config q profile) := by
  unfold evaluateTrailing decided
  split_ifs
  · rfl
  · rfl

/-- The peak that the current bar has moved plays no part in the decision. -/
theorem decided_peak (config : ChandelierConfig) (q : ExitQuery) (atOpen peak other : ℚ) :
    (evaluateExit config (atPeaks q atOpen peak)).map decided =
      (evaluateExit config (atPeaks q atOpen other)).map decided := by
  cases hmode : q.exitSpec.isBarrier with
  | true =>
    rw [evaluateExit_of_barrier config (atPeaks q atOpen peak) hmode,
      evaluateExit_of_barrier config (atPeaks q atOpen other) hmode]
    rfl
  | false =>
    rw [evaluateExit_of_chandelier config (atPeaks q atOpen peak) hmode,
      evaluateExit_of_chandelier config (atPeaks q atOpen other) hmode, Option.map_map,
      Option.map_map]
    apply Option.map_congr
    intro profile _
    change decided (evaluateChandelier config (atPeaks q atOpen peak) profile) =
      decided (evaluateChandelier config (atPeaks q atOpen other) profile)
    cases hstop : q.stopReachedAt q.currentStopLoss with
    | true =>
      rw [evaluateChandelier_of_stop config (atPeaks q atOpen peak) profile hstop,
        evaluateChandelier_of_stop config (atPeaks q atOpen other) profile hstop]
      rfl
    | false =>
      cases htarget : (checkHardTp q.action q.entryPrice q.barHigh q.barLow q.initialRisk
          config.maxTpR).isSome with
      | true =>
        rw [evaluateChandelier_of_target config (atPeaks q atOpen peak) profile hstop htarget,
          evaluateChandelier_of_target config (atPeaks q atOpen other) profile hstop htarget]
      | false =>
        rw [evaluateChandelier_of_trail config (atPeaks q atOpen peak) profile hstop htarget,
          evaluateChandelier_of_trail config (atPeaks q atOpen other) profile hstop htarget,
          decided_evaluateTrailing, decided_evaluateTrailing]
        rfl

section Calls

variable {c : Settings} {s t : Tracker} {a : Act}

theorem mem_openPosition {order : OpenOrder} {pos : Position}
    (hpos : pos ∈ (openPosition c s order).openPositions) :
    pos ∈ s.openPositions ∨
      pos = newPosition c (canOpenPosition c s order.bar order.tradeParams).1 order := by
  have hgates := (sameCash_canOpenPosition c s order.bar order.tradeParams).positions
  unfold openPosition at hpos
  split at hpos
  · rename_i gated refusal hrefused
    rw [hrefused] at hgates
    exact Or.inl (hgates ▸ hpos)
  · rename_i gated hopened
    rw [hopened] at hgates ⊢
    rcases List.mem_append.mp hpos with hold | hnew
    · exact Or.inl (hgates ▸ hold)
    · exact Or.inr (List.mem_singleton.mp hnew)

theorem mem_openPosition_of_mem (order : OpenOrder) {pos : Position}
    (hpos : pos ∈ s.openPositions) : pos ∈ (openPosition c s order).openPositions := by
  have hgates := (sameCash_canOpenPosition c s order.bar order.tradeParams).positions
  unfold openPosition
  split
  · rename_i gated refusal hrefused
    rw [hrefused] at hgates
    exact hgates ▸ hpos
  · rename_i gated hopened
    rw [hopened] at hgates
    exact List.mem_append_left _ (hgates ▸ hpos)

theorem evaluated_direction (config : ChandelierConfig) (bar : Bar) (readings : BarReadings)
    (pos : Position) : (evaluated config bar readings pos).direction = pos.direction := by
  unfold evaluated
  rw [noteDirection_eq]
  rfl

/-- What a bar leaves open keeps its side, its size and its swap. -/
theorem visit_frame {call : Bar × (Position → Option PositionVisit)} {pos changed : Position}
    (hcall : closingCall c s a = some call) (hvisit : call.2 pos = some (.stays changed)) :
    changed.direction = pos.direction ∧ changed.positionSize = pos.positionSize ∧
      changed.swapCost = pos.swapCost := by
  cases a with
  | exits bar barIndex readings =>
    obtain rfl := Option.some.inj hcall
    cases hflat : flatReason c s bar with
    | some reason =>
      simp only [hflat] at hvisit
      cases hvisit
    | none =>
      simp only [hflat] at hvisit
      unfold visitExits at hvisit
      split at hvisit
      · cases hvisit
      · obtain ⟨result, _, hresult⟩ := Option.map_eq_some_iff.mp hvisit
        obtain ⟨rfl, _⟩ := ruleVisit_stays hresult
        obtain ⟨hswap, hsize⟩ := evaluated_frame c.chandelierConfig bar readings pos result
        exact ⟨evaluated_direction c.chandelierConfig bar readings pos, hsize, hswap⟩
  | signalExit strategy bar barIndex =>
    obtain rfl := Option.some.inj hcall
    simp only [visitSignal] at hvisit
    split_ifs at hvisit
    · cases hvisit
    · obtain rfl := Visit.stays.inj (Option.some.inj hvisit)
      exact ⟨rfl, rfl, rfl⟩
  | endOfTest bar barIndex =>
    obtain rfl := Option.some.inj hcall
    cases hvisit
  | observe bar => cases hcall
  | swap bar => cases hcall
  | atrReference atr => cases hcall
  | checkOpen bar params => cases hcall
  | openTrade order => cases hcall
  | equity bar => cases hcall

theorem mem_openPositions_of_exits {bar : Bar} {barIndex : ℤ} {readings : BarReadings}
    (h : step c s (.exits bar barIndex readings) = some t) {pos : Position}
    (hpos : pos ∈ t.openPositions) : ∃ before ∈ s.openPositions,
      visitExits c.chandelierConfig bar barIndex readings before = some (.stays pos) := by
  rw [openPositions_of_closingCall rfl h] at hpos
  obtain ⟨before, hbefore, hvisit⟩ := mem_staying.mp hpos
  refine ⟨before, hbefore, ?_⟩
  cases hflat : flatReason c s bar with
  | some reason => simp [hflat, visitAll] at hvisit
  | none => simpa only [hflat] using hvisit

theorem mem_openPositions_of_signalExit {strategy : String} {bar : Bar} {barIndex : ℤ}
    (h : step c s (.signalExit strategy bar barIndex) = some t) {pos : Position}
    (hpos : pos ∈ t.openPositions) : pos ∈ s.openPositions := by
  rw [openPositions_of_closingCall rfl h] at hpos
  obtain ⟨before, hbefore, hvisit⟩ := mem_staying.mp hpos
  unfold visitSignal at hvisit
  split_ifs at hvisit
  · cases hvisit
  · obtain rfl := Visit.stays.inj (Option.some.inj hvisit)
    exact hbefore

/-- Where the open positions after a call come from. -/
theorem mem_openPositions_of_step (h : step c s a = some t) {pos : Position}
    (hpos : pos ∈ t.openPositions) :
    (∃ before ∈ s.openPositions, seenOn [a] = [] ∧
        ∃ swapCost, pos = { before with swapCost := swapCost }) ∨
      (∃ before ∈ s.openPositions, ∃ bar barIndex readings, a = .exits bar barIndex readings ∧
        visitExits c.chandelierConfig bar barIndex readings before = some (.stays pos)) ∨
      ∃ order, a = .openTrade order ∧
        pos = newPosition c (canOpenPosition c s order.bar order.tradeParams).1 order := by
  have hsame : t.openPositions = s.openPositions → seenOn [a] = [] →
      ∃ before ∈ s.openPositions, seenOn [a] = [] ∧
        ∃ swapCost, pos = { before with swapCost := swapCost } := by
    intro hpositions hnone
    rw [hpositions] at hpos
    exact ⟨pos, hpos, hnone, pos.swapCost, rfl⟩
  cases a with
  | exits bar barIndex readings =>
    obtain ⟨before, hbefore, hvisit⟩ := mem_openPositions_of_exits h hpos
    exact Or.inr (Or.inl ⟨before, hbefore, bar, barIndex, readings, rfl, hvisit⟩)
  | signalExit strategy bar barIndex =>
    exact Or.inl ⟨pos, mem_openPositions_of_signalExit h hpos, rfl, pos.swapCost, rfl⟩
  | endOfTest bar barIndex =>
    rw [openPositions_of_closingCall rfl h] at hpos
    obtain ⟨before, -, hvisit⟩ := mem_staying.mp hpos
    cases hvisit
  | observe bar =>
    obtain rfl := Option.some.inj h
    exact Or.inl (hsame (sameCash_ensureDayStartEquity s _ _).positions rfl)
  | swap bar =>
    obtain rfl := Option.some.inj h
    unfold applyOvernightSwap at hpos hsame
    split_ifs at hpos hsame
    · exact Or.inl (hsame rfl rfl)
    · exact Or.inl (hsame rfl rfl)
    · exact Or.inl (hsame rfl rfl)
    · obtain ⟨before, hbefore, rfl⟩ := List.mem_map.mp hpos
      exact Or.inl ⟨before, hbefore, rfl, _, rfl⟩
  | atrReference atr =>
    obtain rfl := Option.some.inj h
    exact Or.inl (hsame (sameCash_updateAtrReference s atr).positions rfl)
  | checkOpen bar params =>
    obtain rfl := Option.some.inj h
    exact Or.inl (hsame (sameCash_canOpenPosition c s bar params).positions rfl)
  | equity bar =>
    obtain rfl := Option.some.inj h
    exact Or.inl (hsame (sameCash_recordEquity c s bar).positions rfl)
  | openTrade order =>
    obtain rfl := Option.some.inj h
    rcases mem_openPosition hpos with hold | hnew
    · exact Or.inl ⟨pos, hold, rfl, pos.swapCost, rfl⟩
    · exact Or.inr (Or.inr ⟨order, rfl, hnew⟩)

theorem seenOn_append (front back : List Act) :
    seenOn (front ++ back) = seenOn front ++ seenOn back := List.filterMap_append

/-- One call later the history has grown by what the call has shown. -/
theorem Entered.snoc {labels : List Act} {entry : Position} {history : List Seen}
    (h : Entered c s labels entry history) (a : Act) :
    Entered c s (labels ++ [a]) entry (history ++ seenOn [a]) := by
  rcases h with ⟨hentry, rfl⟩ | ⟨front, order, back, u, rfl, hrun, hentry, rfl⟩
  · exact Or.inl ⟨hentry, (seenOn_append labels [a]).symm⟩
  · refine Or.inr ⟨front, order, back ++ [a], u, ?_, hrun, hentry, (seenOn_append back [a]).symm⟩
    rw [List.append_assoc, List.cons_append]

theorem trailAfter_snoc (config : ChandelierConfig) (entry : Position) (history : List Seen)
    (view : Seen) :
    trailAfter config entry (history ++ [view]) =
      watch config entry (trailAfter config entry history) view := by
  unfold trailAfter
  rw [List.foldl_append]
  rfl

/-- Every open position of a run is the one that was entered, with the trail of what it has
seen since. -/
theorem follows_of_run {labels : List Act} (h : run (step c) s labels = some t) :
    ∀ pos ∈ t.openPositions, ∃ entry history books, Entered c s labels entry history ∧
      pos = carry entry (trailAfter c.chandelierConfig entry history) books := by
  induction labels using List.reverseRecOn generalizing t with
  | nil =>
    obtain rfl := Option.some.inj h
    intro pos hpos
    exact ⟨pos, [], booksOf pos, Or.inl ⟨hpos, rfl⟩, rfl⟩
  | append_singleton labels a ih =>
    rw [run_append] at h
    obtain ⟨u, hu, hlast⟩ := Option.bind_eq_some_iff.mp h
    obtain ⟨v, hstep, hv⟩ := run_cons hlast
    obtain rfl := Option.some.inj hv
    intro pos hpos
    rcases mem_openPositions_of_step hstep hpos with
      ⟨before, hbefore, hnone, swapCost, rfl⟩ | ⟨before, hbefore, bar, barIndex, readings, rfl, hvisit⟩
        | ⟨order, rfl, rfl⟩
    · obtain ⟨entry, history, books, hentered, rfl⟩ := ih hu before hbefore
      have hlater := hentered.snoc a
      rw [hnone, List.append_nil] at hlater
      exact ⟨entry, history, { books with swapCost := swapCost }, hlater, rfl⟩
    · obtain ⟨entry, history, books, hentered, rfl⟩ := ih hu before hbefore
      obtain ⟨later, rfl⟩ := visitExits_stays c.chandelierConfig hvisit
      refine ⟨entry, history ++ [seen bar readings], later, hentered.snoc _, ?_⟩
      rw [trailAfter_snoc]
    · have hentered : Entered c s (labels ++ [.openTrade order])
          (newPosition c (canOpenPosition c u order.bar order.tradeParams).1 order) [] :=
        Or.inr ⟨labels, order, [], u, rfl, hu, rfl, rfl⟩
      exact ⟨_, [], booksOf _, hentered, carry_entry _⟩

end Calls

/-- The decision ignores the peak that the current bar has moved, and the stop that closes a
position in a run is one of two levels that know nothing of the prices of the current bar. -/
theorem exits_do_not_look_ahead :
    (∀ (config : ChandelierConfig) (q : ExitQuery) (atOpen peak other : ℚ),
      (evaluateExit config (atPeaks q atOpen peak)).map decided =
        (evaluateExit config (atPeaks q atOpen other)).map decided) ∧
      DecidedBy id [storedStop, recomputedStop] := by
  refine ⟨decided_peak, ?_⟩
  intro c s labels t bar barIndex readings hrun x hx hstopped
  rw [closings_exits] at hx
  obtain ⟨pos, ⟨before, after, hsplit, -⟩, hvisit⟩ := mem_left.mp hx
  have hpos : pos ∈ t.openPositions := by
    rw [hsplit]
    exact List.mem_append_right before List.mem_cons_self
  obtain ⟨entry, history, books, hentered, rfl⟩ := follows_of_run hrun pos hpos
  cases hflat : flatReason c t bar with
  | some reason =>
    simp only [hflat] at hvisit
    obtain rfl := Visit.leaves.inj (Option.some.inj hvisit)
    rcases flatReason_cases hflat with rfl | rfl
    · simp [StoppedOut] at hstopped
    · simp [StoppedOut] at hstopped
  | none =>
    simp only [hflat] at hvisit
    obtain ⟨hcarried, hlevel⟩ := visitExits_leaves c.chandelierConfig hvisit hstopped
    refine ⟨entry, history, hentered, hcarried, ?_⟩
    rw [List.map_id]
    rcases hlevel with hstored | hrecomputed
    · exact ⟨storedStop, List.mem_cons_self, hstored⟩
    · exact ⟨recomputedStop, List.mem_cons_of_mem _ List.mem_cons_self, hrecomputed⟩

section Examples

/-- The highs and lows of the earlier bars, without their ATRs and regimes. -/
def extremes (view : Seen) : ℚ × ℚ := (view.high, view.low)

def oneBuy : Tracker :=
  openPosition { initialBalance := 10000 } (start { initialBalance := 10000 }) tenthOfLot

/-- A first bar that the buy survives. -/
def risingBar : Bar := ⟨7200, 2001, 2004, 2000, 2003⟩

/-- What a second bar closes, with the stop and the reason. -/
def stopsOn (first : BarReadings) (bar : Bar) (readings : BarReadings) :
    Option (List (ℚ × ExitReason)) :=
  (run (step { initialBalance := 10000 }) oneBuy [.exits risingBar 1 first]).map fun t =>
    (closings { initialBalance := 10000 } t (.exits bar 2 readings)).map fun x =>
      (x.1.stopLoss, x.2.reason)

/-- The only entry of such a run is the buy, which has seen the first bar. -/
theorem entered_oneBuy {first : BarReadings} {entry : Position} {history : List Seen}
    (h : Entered { initialBalance := 10000 } oneBuy [.exits risingBar 1 first] entry history) :
    oneBuy.openPositions = [entry] ∧ history = [seen risingBar first] := by
  rcases h with ⟨hentry, rfl⟩ | ⟨front, order, back, u, hlabels, -⟩
  · have hone : oneBuy.openPositions.length = 1 := by decide +kernel
    obtain ⟨only, honly⟩ := List.length_eq_one_iff.mp hone
    rw [honly, List.mem_singleton] at hentry
    rw [honly, hentry]
    exact ⟨rfl, rfl⟩
  · cases front with
    | nil => cases hlabels
    | cons label rest => cases rest with
      | nil => simp at hlabels
      | cons other rest => simp at hlabels

/-- A stop that closes on the second bar is a level of what the first bar has shown. -/
theorem level_of_stopsOn {V : Type*} {view : Seen → V}
    {levels : List (Settings → Position → List V → ℚ → String → ℚ)} (h : DecidedBy view levels)
    {first readings : BarReadings} {bar : Bar} {stop : ℚ} {reason : ExitReason}
    (hstops : stopsOn first bar readings = some [(stop, reason)]) (hreason : StoppedOut reason) :
    ∃ entry, oneBuy.openPositions = [entry] ∧ ∃ level ∈ levels,
      stop = level { initialBalance := 10000 } entry [view (seen risingBar first)]
        readings.currentAtr readings.currentRegime := by
  obtain ⟨t, hrun, hclosed⟩ := Option.map_eq_some_iff.mp hstops
  have hmem : (stop, reason) ∈ (closings { initialBalance := 10000 } t
      (.exits bar 2 readings)).map fun x => (x.1.stopLoss, x.2.reason) := by
    rw [hclosed]
    exact List.mem_singleton_self _
  obtain ⟨x, hx, hpair⟩ := List.mem_map.mp hmem
  obtain ⟨rfl, rfl⟩ := Prod.mk.inj hpair
  obtain ⟨entry, history, hentered, -, level, hlevel, hstop⟩ :=
    h _ _ _ t bar 2 readings hrun x hx hreason
  obtain ⟨hentry, rfl⟩ := entered_oneBuy hentered
  exact ⟨entry, hentry, level, hlevel, hstop⟩

/-- A bar that falls through every stop. -/
def fallingBar : Bar := ⟨10800, 2003, 2003, 1990, 1992⟩

/-- A bar that falls to 2001 only. -/
def dippingBar : Bar := ⟨10800, 2003, 2003, 2001, 2002⟩

/-- The highs and lows of the earlier bars do not determine the stop, not even up to a choice of
two, and no single level is the one that decides. -/
theorem stops_know_more :
    (∀ levels : List (Settings → Position → List (ℚ × ℚ) → ℚ → String → ℚ), levels.length ≤ 2 →
        ¬DecidedBy extremes levels) ∧
      ∀ level : Settings → Position → List Seen → ℚ → String → ℚ, ¬DecidedBy id [level] := by
  have htight : stopsOn { currentAtr := 4 / 5 } fallingBar { currentAtr := 10 } =
      some [(2002, .rule .stopLoss)] := by decide +kernel
  have hmiddle : stopsOn { currentAtr := 6 / 5 } fallingBar { currentAtr := 10 } =
      some [(2001, .rule .stopLoss)] := by decide +kernel
  have hwide : stopsOn { currentAtr := 10 } fallingBar { currentAtr := 10 } =
      some [(1995, .rule .stopLoss)] := by decide +kernel
  refine ⟨?_, ?_⟩
  · intro levels hlength h
    obtain ⟨entry, hentry, first, hfirst, htwo⟩ := level_of_stopsOn h htight (Or.inl rfl)
    obtain ⟨other, hother, second, hsecond, hone⟩ := level_of_stopsOn h hmiddle (Or.inl rfl)
    obtain ⟨last, hlast, third, hthird, hfive⟩ := level_of_stopsOn h hwide (Or.inl rfl)
    obtain rfl : entry = other := List.singleton_injective (hentry.symm.trans hother)
    obtain rfl : entry = last := List.singleton_injective (hentry.symm.trans hlast)
    -- three stops from the same highs and lows
    have hsubset : [(2002 : ℚ), 2001, 1995] ⊆ levels.map fun level =>
        level { initialBalance := 10000 } entry [(2004, 2000)] 10 "" := by
      intro stop hstop
      simp only [List.mem_cons, List.not_mem_nil, or_false] at hstop
      rcases hstop with rfl | rfl | rfl
      · exact List.mem_map.mpr ⟨first, hfirst, htwo.symm⟩
      · exact List.mem_map.mpr ⟨second, hsecond, hone.symm⟩
      · exact List.mem_map.mpr ⟨third, hthird, hfive.symm⟩
    have hdistinct : [(2002 : ℚ), 2001, 1995].Nodup := by norm_num
    have hcount := (List.subperm_of_subset hdistinct hsubset).length_le
    rw [List.length_map] at hcount
    exact absurd (hcount.trans hlength) (by decide)
  · intro level h
    have hfar : stopsOn { currentAtr := 10 } fallingBar { currentAtr := 4 / 5 } =
        some [(1995, .rule .stopLoss)] := by decide +kernel
    have hnear : stopsOn { currentAtr := 10 } dippingBar { currentAtr := 4 / 5 } =
        some [(2002, .rule .trailingStop)] := by decide +kernel
    obtain ⟨entry, hentry, first, hfirst, hstored⟩ := level_of_stopsOn h hfar (Or.inl rfl)
    obtain ⟨other, hother, second, hsecond, hmoved⟩ := level_of_stopsOn h hnear (Or.inr rfl)
    rw [List.mem_singleton.mp hfirst] at hstored
    rw [List.mem_singleton.mp hsecond, ← List.singleton_injective (hentry.symm.trans hother)]
      at hmoved
    have hsame : (1995 : ℚ) = 2002 := hstored.trans hmoved.symm
    norm_num at hsame

end Examples

end MT5Services.ExitLookahead
