import MT5Services.PositionClosings
import MT5Services.Prefixes

/-!
The prices at which `check_exits` closes, before costs. A gap through the stored stop or
target is filled at the open. A stop without a positive level, the target in units of risk
and the levels that are recomputed on the bar are only compared with the far end of the bar,
so a bar that lies wholly beyond such a level is closed at a price it never traded at.
-/
namespace MT5Services.ExitFills

open PyNumber ExitRules Runs Portfolio Departures PositionClosings

/-- The open and the close lie between low and high. -/
structure WellFormed (bar : Bar) : Prop where
  low_le_open : bar.low ≤ bar.openPrice
  open_le_high : bar.openPrice ≤ bar.high
  low_le_close : bar.low ≤ bar.close
  close_le_high : bar.close ≤ bar.high

/-- The bar traded at the price. -/
def Traded (bar : Bar) (price : ℚ) : Prop := bar.low ≤ price ∧ price ≤ bar.high

instance (bar : Bar) (price : ℚ) : Decidable (Traded bar price) :=
  inferInstanceAs (Decidable (_ ∧ _))

/-- The whole bar is worse than the stop. -/
def BeyondStop (action : Direction) (bar : Bar) (stop : ℚ) : Prop :=
  match action with
  | .buy => bar.high < stop
  | .sell => stop < bar.low

instance (action : Direction) (bar : Bar) (stop : ℚ) : Decidable (BeyondStop action bar stop) :=
  match action with
  | .buy => inferInstanceAs (Decidable (_ < _))
  | .sell => inferInstanceAs (Decidable (_ < _))

/-- The whole bar is better than the target. -/
def BeyondTarget (action : Direction) (bar : Bar) (target : ℚ) : Prop :=
  BeyondStop action.opposite bar target

instance (action : Direction) (bar : Bar) (target : ℚ) :
    Decidable (BeyondTarget action bar target) :=
  inferInstanceAs (Decidable (BeyondStop _ _ _))

/-- The bar reaches the target. -/
def targetReached (action : Direction) (barHigh barLow target : ℚ) : Bool :=
  stopReached action.opposite barHigh barLow target

/-- The target in units of the initial risk. -/
def hardTarget (config : ChandelierConfig) (q : ExitQuery) : ℚ :=
  moved q.action q.entryPrice (config.maxTpR * q.initialRisk)

/-- The chandelier stop and the breakeven stop from the peak at the open of the bar. -/
def trailCandidates (config : ChandelierConfig) (q : ExitQuery) (profile : ExitProfile) : List ℚ :=
  let peak := q.peakPriceAtBarOpen.getD q.peakPrice
  (chandelierAt config q profile peak).toList ++ (breakevenAt config q profile peak).1.toList

/-- The bar jumps over the first chandelier level it meets: the stored stop, then the
target in units of risk, then a stop that one of the trailing rules tightens. -/
def JumpsChandelier (config : ChandelierConfig) (bar : Bar) (q : ExitQuery)
    (profile : ExitProfile) : Prop :=
  if q.stopReachedAt q.currentStopLoss then BeyondStop q.action bar q.currentStopLoss
  else if 0 < q.initialRisk ∧ 0 < config.maxTpR ∧
      targetReached q.action q.barHigh q.barLow (hardTarget config q) then
    BeyondTarget q.action bar (hardTarget config q)
  else
    ∃ stop ∈ trailCandidates config q profile,
      q.action.better q.currentStopLoss stop ∧ BeyondStop q.action bar (round stop 2)

/-- The bar jumps over the barrier stop or over the barrier target. -/
def JumpsBarrier (bar : Bar) (q : ExitQuery) (b : Barriers) : Prop :=
  ¬b.Degenerate ∧
    (BeyondStop q.action bar (moved q.action.opposite q.entryPrice (b.slAtr * b.atr)) ∨
      BeyondTarget q.action bar (moved q.action q.entryPrice (b.tpAtr * b.atr)))

/-- The bar opens on the good side of the stored stop and does not reach the stored target,
so that the position is left to the exit rules. A level that is not positive is no level. -/
def LeftToRules (bar : Bar) (pos : Position) : Prop :=
  ¬(0 < pos.stopLoss ∧
      stopReached pos.direction bar.openPrice bar.openPrice pos.stopLoss = true) ∧
    ¬(0 < pos.takeProfit ∧ targetReached pos.direction bar.high bar.low pos.takeProfit = true)

/-- The position is left to the exit rules, and the bar jumps over a level that they work
with. -/
def JumpsLevel (config : ChandelierConfig) (bar : Bar) (readings : BarReadings)
    (pos : Position) : Prop :=
  let q := exitQuery (evaluated config bar readings pos) (peakAtBarOpen pos) bar readings
  LeftToRules bar pos ∧
    if q.exitSpec.isBarrier then ∃ b ∈ barriersOf q, JumpsBarrier bar q b
    else ∃ profile ∈ exitProfile config q, JumpsChandelier config bar q profile

/-- Everything is closed at the close of the bar, or no position that the loop comes to
meets a level that its bar jumps over. -/
def NoJumps (c : Settings) (s : Tracker) (bar : Bar) (barIndex : ℤ) (readings : BarReadings) :
    Prop :=
  flatReason c s bar ≠ none ∨
    ∀ pos, Comes (visitExits c.chandelierConfig bar barIndex readings) s.openPositions pos →
      ¬JumpsLevel c.chandelierConfig bar readings pos

/-- The fill is a price of the bar, and a stop that the whole bar is worse than is filled
at the open. -/
def Possible (bar : Bar) (x : Position × Closing) : Prop :=
  Traded bar x.2.exitPrice ∧
    (StoppedOut x.2.reason → BeyondStop x.1.direction bar x.1.stopLoss →
      x.2.exitPrice = bar.openPrice)

variable {bar : Bar} {level : ℚ} {action : Direction}

/-- A level that the bar reaches is traded unless the whole bar lies beyond it. -/
theorem traded_iff_of_reached (h : stopReached action bar.high bar.low level = true) :
    Traded bar level ↔ ¬BeyondStop action bar level := by
  cases action with
  | buy =>
    have hlow : bar.low ≤ level := of_decide_eq_true h
    exact (and_iff_right hlow).trans not_lt.symm
  | sell =>
    have hhigh : level ≤ bar.high := of_decide_eq_true h
    exact (and_iff_left hhigh).trans not_lt.symm

theorem reached_of_beyond (hbar : WellFormed bar)
    (h : BeyondStop action bar level) : stopReached action bar.high bar.low level = true := by
  have hspan : bar.low ≤ bar.high := hbar.low_le_open.trans hbar.open_le_high
  cases action with
  | buy =>
    have hlevel : bar.high < level := h
    exact decide_eq_true (hspan.trans hlevel.le)
  | sell =>
    have hlevel : level < bar.low := h
    exact decide_eq_true (hlevel.le.trans hspan)

/-- A level between the low and the open is a price of the bar, and one between the open and the
high. -/
theorem traded_of_low (hbar : WellFormed bar) (hlow : bar.low ≤ level)
    (hbelow : level < bar.openPrice) : Traded bar level :=
  ⟨hlow, hbelow.le.trans hbar.open_le_high⟩

theorem traded_of_high (hbar : WellFormed bar) (hhigh : level ≤ bar.high)
    (habove : bar.openPrice < level) : Traded bar level :=
  ⟨hbar.low_le_open.trans habove.le, hhigh⟩

variable {pos : Position}

/-- The levels the broker holds are filled at prices of the bar. -/
theorem traded_of_hardBoundary {price : ℚ} {reason : CloseReason}
    (hbar : WellFormed bar) (h : resolveHardBoundaryExit bar pos = some (price, reason)) :
    Traded bar price := by
  have hopen : Traded bar bar.openPrice := ⟨hbar.low_le_open, hbar.open_le_high⟩
  unfold resolveHardBoundaryExit at h
  cases hside : pos.direction with
  | buy =>
    simp only [hside, Bool.and_eq_true, decide_eq_true_eq] at h
    split_ifs at h with hstop htarget hboth htouch
    · obtain ⟨rfl, rfl⟩ := Prod.mk.inj (Option.some.inj h)
      exact hopen
    · obtain ⟨rfl, rfl⟩ := Prod.mk.inj (Option.some.inj h)
      exact hopen
    · obtain ⟨rfl, rfl⟩ := Prod.mk.inj (Option.some.inj h)
      obtain ⟨-, hpositive, hlow⟩ := hboth
      exact traded_of_low hbar hlow (not_le.mp fun hle => hstop ⟨hpositive, hle⟩)
    · obtain ⟨rfl, rfl⟩ := Prod.mk.inj (Option.some.inj h)
      obtain ⟨hpositive, hhigh⟩ := htouch
      exact traded_of_high hbar hhigh (not_le.mp fun hle => htarget ⟨hpositive, hle⟩)
  | sell =>
    simp only [hside, Bool.and_eq_true, decide_eq_true_eq] at h
    split_ifs at h with hstop htarget hboth htouch
    · obtain ⟨rfl, rfl⟩ := Prod.mk.inj (Option.some.inj h)
      exact hopen
    · obtain ⟨rfl, rfl⟩ := Prod.mk.inj (Option.some.inj h)
      exact hopen
    · obtain ⟨rfl, rfl⟩ := Prod.mk.inj (Option.some.inj h)
      obtain ⟨-, hpositive, hhigh⟩ := hboth
      exact traded_of_high hbar hhigh (not_le.mp fun hle => hstop ⟨hpositive, hle⟩)
    · obtain ⟨rfl, rfl⟩ := Prod.mk.inj (Option.some.inj h)
      obtain ⟨hpositive, hlow⟩ := htouch
      exact traded_of_low hbar hlow (not_le.mp fun hle => htarget ⟨hpositive, hle⟩)

/-- A stop the broker holds is filled at the open or at its level. -/
theorem stop_of_hardBoundary {price : ℚ} {reason : CloseReason}
    (h : resolveHardBoundaryExit bar pos = some (price, reason)) :
    reason = .takeProfit ∨ price = bar.openPrice ∨ price = pos.stopLoss := by
  simp only [resolveHardBoundaryExit] at h
  split_ifs at h
  · exact Or.inr (Or.inl (congrArg Prod.fst (Option.some.inj h)).symm)
  · exact Or.inl (congrArg Prod.snd (Option.some.inj h)).symm
  · exact Or.inr (Or.inr (congrArg Prod.fst (Option.some.inj h)).symm)
  · exact Or.inl (congrArg Prod.snd (Option.some.inj h)).symm

/-- A target that is reached at the open is reached on the bar. -/
theorem hardBoundary_eq_none_iff (hbar : WellFormed bar) (pos : Position) :
    resolveHardBoundaryExit bar pos = none ↔ LeftToRules bar pos := by
  have hlow := hbar.low_le_open
  have hhigh := hbar.open_le_high
  unfold resolveHardBoundaryExit LeftToRules targetReached stopReached
  cases hside : pos.direction with
  | buy =>
    simp only [Direction.opposite, decide_eq_true_eq, Bool.and_eq_true]
    by_cases hstop : 0 < pos.stopLoss ∧ bar.openPrice ≤ pos.stopLoss
    · simp [hstop]
    · by_cases htarget : 0 < pos.takeProfit ∧ pos.takeProfit ≤ bar.high
      · simp only [htarget, and_self, true_and, if_true, hstop, if_false]
        split_ifs
        · simp
        · simp
        · simp
      · have hopen : ¬(0 < pos.takeProfit ∧ pos.takeProfit ≤ bar.openPrice) :=
          fun hboth => htarget ⟨hboth.1, hboth.2.trans hhigh⟩
        simp [hstop, htarget, hopen]
  | sell =>
    simp only [Direction.opposite, decide_eq_true_eq, Bool.and_eq_true]
    by_cases hstop : 0 < pos.stopLoss ∧ pos.stopLoss ≤ bar.openPrice
    · simp [hstop]
    · by_cases htarget : 0 < pos.takeProfit ∧ bar.low ≤ pos.takeProfit
      · simp only [htarget, and_self, true_and, if_true, hstop, if_false]
        split_ifs
        · simp
        · simp
        · simp
      · have hopen : ¬(0 < pos.takeProfit ∧ bar.openPrice ≤ pos.takeProfit) :=
          fun hboth => htarget ⟨hboth.1, hlow.trans hboth.2⟩
        simp [hstop, htarget, hopen]

theorem not_traded_of_beyond (h : BeyondStop action bar level) : ¬Traded bar level := by
  rintro ⟨hlow, hhigh⟩
  cases action with
  | buy => exact absurd (show bar.high < level from h) (not_lt.mpr hhigh)
  | sell => exact absurd (show level < bar.low from h) (not_lt.mpr hlow)

/-- What is beyond a stop is beyond every tighter one. -/
theorem BeyondStop.mono {a b : ℚ} (hab : action.AtLeast a b)
    (h : BeyondStop action bar a) : BeyondStop action bar b := by
  cases action with
  | buy => exact lt_of_lt_of_le (show bar.high < a from h) hab
  | sell => exact lt_of_le_of_lt hab (show a < bar.low from h)

section Trail

variable (action : Direction) (stop : ℚ) (chandelierSl breakevenSl : Option ℚ)

/-- The tightest stop is the current one or one of the candidates. -/
theorem tightestStop_mem :
    tightestStop action stop chandelierSl breakevenSl = stop ∨
      tightestStop action stop chandelierSl breakevenSl ∈
        chandelierSl.toList ++ breakevenSl.toList := by
  cases action with
  | buy => exact Prefixes.foldl_choice max_choice stop _
  | sell => exact Prefixes.foldl_choice min_choice stop _

theorem atLeast_tightestStop (candidate : ℚ)
    (h : candidate ∈ chandelierSl.toList ++ breakevenSl.toList) :
    action.AtLeast candidate (tightestStop action stop chandelierSl breakevenSl) := by
  have hrefl := Direction.atLeast_refl action
  have htrans : ∀ a b c, action.AtLeast a b → action.AtLeast b c → action.AtLeast a c :=
    fun _ _ _ => Direction.AtLeast.trans
  cases action with
  | buy => exact (Prefixes.foldl_bound hrefl htrans le_max_left le_max_right stop _).2 candidate h
  | sell => exact (Prefixes.foldl_bound hrefl htrans min_le_left min_le_right stop _).2 candidate h

end Trail

section Chandelier

variable (config : ChandelierConfig) (bar : Bar) (q : ExitQuery) (profile : ExitProfile)

/-- The stop in force is jumped over exactly when a rule tightens it to a level that is. -/
theorem beyond_trail_iff (hstop : ¬BeyondStop q.action bar q.currentStopLoss) :
    BeyondStop q.action bar
        ((trailingSl config q profile (q.peakPriceAtBarOpen.getD q.peakPrice)).getD
          q.currentStopLoss) ↔
      ∃ stop ∈ trailCandidates config q profile,
        q.action.better q.currentStopLoss stop ∧ BeyondStop q.action bar (round stop 2) := by
  have htight := tightestStop_mem q.action q.currentStopLoss
    (chandelierAt config q profile (q.peakPriceAtBarOpen.getD q.peakPrice))
    (breakevenAt config q profile (q.peakPriceAtBarOpen.getD q.peakPrice)).1
  have hbest := atLeast_tightestStop q.action q.currentStopLoss
    (chandelierAt config q profile (q.peakPriceAtBarOpen.getD q.peakPrice))
    (breakevenAt config q profile (q.peakPriceAtBarOpen.getD q.peakPrice)).1
  rw [trailingSl_eq]
  constructor
  · intro h
    split_ifs at h with hbetter
    · rw [Option.getD_some] at h
      rcases htight with hsame | hmem
      · unfold trailLevel at hbetter
        rw [hsame] at hbetter
        cases haction : q.action <;> simp [haction, Direction.better] at hbetter
      · exact ⟨_, hmem, hbetter, h⟩
    · exact absurd h hstop
  · rintro ⟨stop, hmem, hbetter, hbeyond⟩
    have hat : q.action.AtLeast stop
        (trailLevel config q profile (q.peakPriceAtBarOpen.getD q.peakPrice)) := hbest stop hmem
    have htightened : q.action.better q.currentStopLoss
        (trailLevel config q profile (q.peakPriceAtBarOpen.getD q.peakPrice)) = true := by
      cases haction : q.action with
      | buy =>
        rw [haction] at hat hbetter
        exact decide_eq_true (lt_of_lt_of_le (of_decide_eq_true hbetter) hat)
      | sell =>
        rw [haction] at hat hbetter
        exact decide_eq_true (lt_of_le_of_lt hat (of_decide_eq_true hbetter))
    rw [if_pos htightened, Option.getD_some]
    exact hbeyond.mono (hat.round 2)

/-- The target in units of risk is met. -/
theorem checkHardTp_isSome :
    (checkHardTp q.action q.entryPrice q.barHigh q.barLow q.initialRisk config.maxTpR).isSome =
        true ↔
      0 < q.initialRisk ∧ 0 < config.maxTpR ∧
        targetReached q.action q.barHigh q.barLow (hardTarget config q) = true := by
  unfold checkHardTp targetReached hardTarget
  by_cases hpositive : q.initialRisk ≤ 0 ∨ config.maxTpR ≤ 0
  · rw [if_pos hpositive]
    refine iff_of_false (by simp) ?_
    rintro ⟨hrisk, hmax, -⟩
    rcases hpositive with hrisk' | hmax'
    · exact absurd hrisk (not_lt.mpr hrisk')
    · exact absurd hmax (not_lt.mpr hmax')
  · rw [if_neg hpositive]
    rw [not_or, not_le, not_le] at hpositive
    simp only [hpositive, true_and]
    cases q.action with
    | buy =>
      by_cases hhit : q.entryPrice + config.maxTpR * q.initialRisk ≤ q.barHigh
      · simp [stopReached, Direction.opposite, moved, hhit]
      · simp [stopReached, Direction.opposite, moved, hhit]
    | sell =>
      by_cases hhit : q.barLow ≤ q.entryPrice - config.maxTpR * q.initialRisk
      · simp [stopReached, Direction.opposite, moved, hhit]
      · simp [stopReached, Direction.opposite, moved, hhit]

end Chandelier

/-- A fill at the stop that the position ends with is possible when the bar does not lie
beyond that stop. -/
theorem possible_at_stop {closing : Closing} (hprice : closing.exitPrice = pos.stopLoss)
    (hreached : stopReached pos.direction bar.high bar.low pos.stopLoss = true) :
    Possible bar (pos, closing) ↔ ¬BeyondStop pos.direction bar pos.stopLoss := by
  unfold Possible
  dsimp only
  rw [hprice, traded_iff_of_reached hreached]
  constructor
  · exact And.left
  · intro hnot
    exact ⟨hnot, fun _ hbeyond => absurd hbeyond hnot⟩

/-- A fill for another reason than a stop is possible when it is a price of the bar. -/
theorem possible_of_no_stop {closing : Closing} (hreason : ¬StoppedOut closing.reason) :
    Possible bar (pos, closing) ↔ Traded bar closing.exitPrice :=
  and_iff_left fun hstop => absurd hstop hreason

section Visit

variable (config : ChandelierConfig) (bar : Bar) (barIndex : ℤ) (readings : BarReadings)

/-- A round fills at possible prices exactly when some condition holds: where it closes, the
condition has to decide the fill, and where it does not, to hold. -/
theorem ruleVisit_iff {pos : Position} {result : ExitCheckResult} {P : Prop}
    (hcloses : ∀ reason, result.shouldClose = true → result.closeReason = some reason →
      (Possible bar (takeResult pos result,
        ⟨ruleExitPrice config bar (takeResult pos result) result, bar.time, barIndex,
          .rule reason⟩) ↔ P))
    (hstays : result.shouldClose = false ∨ result.closeReason = none → P) :
    (∀ x, ruleVisit config bar barIndex pos result = .leaves x → Possible bar x) ↔ P := by
  unfold ruleVisit
  cases hclose : result.shouldClose with
  | false => simpa using hstays (Or.inl hclose)
  | true =>
    cases hreason : result.closeReason with
    | none => simpa using hstays (Or.inr hreason)
    | some reason => simpa using hcloses reason hclose hreason

/-- A verdict that closes is judged by its fill. -/
theorem ruleVisit_closes_iff {pos : Position} {result : ExitCheckResult} {P : Prop}
    {reason : CloseReason} (hclose : result.shouldClose = true)
    (hreason : result.closeReason = some reason)
    (hfill : Possible bar (takeResult pos result,
      ⟨ruleExitPrice config bar (takeResult pos result) result, bar.time, barIndex,
        .rule reason⟩) ↔ P) :
    (∀ x, ruleVisit config bar barIndex pos result = .leaves x → Possible bar x) ↔ P := by
  apply ruleVisit_iff
  · intro other _ hother
    obtain rfl := Option.some.inj (hreason.symm.trans hother)
    exact hfill
  · intro hnever
    rw [hclose, hreason] at hnever
    rcases hnever with h | h
    · cases h
    · cases h

section Query

variable (profile : ExitProfile) (pos : Position) (peakOpen : ℚ) {q : ExitQuery}

theorem stopReachedAt_exitQuery (hq : q = exitQuery pos peakOpen bar readings) (level : ℚ) :
    q.stopReachedAt level = stopReached q.action bar.high bar.low level := by
  rw [hq]
  rfl

theorem targetReached_exitQuery (hq : q = exitQuery pos peakOpen bar readings) (level : ℚ) :
    targetReached q.action q.barHigh q.barLow level =
      stopReached q.action.opposite bar.high bar.low level := by
  rw [hq]
  rfl

/-- A level that the bar does not reach is not jumped over. -/
theorem not_beyond_of_not_reached (hbar : WellFormed bar)
    (hq : q = exitQuery pos peakOpen bar readings) {level : ℚ}
    (hreached : q.stopReachedAt level = false) : ¬BeyondStop q.action bar level := by
  intro hbeyond
  rw [stopReachedAt_exitQuery bar readings pos peakOpen hq, reached_of_beyond hbar hbeyond]
    at hreached
  cases hreached

/-- The trailing rules, the reversal and the timeout: only a trailing stop is no price that
the bar has to have traded at. -/
theorem ruleVisit_trailing (hbar : WellFormed bar)
    (hq : q = exitQuery pos peakOpen bar readings) :
    (∀ x, ruleVisit config bar barIndex pos (evaluateTrailing config q profile) = .leaves x →
      Possible bar x) ↔
      ¬BeyondStop q.action bar
        ((trailingSl config q profile (q.peakPriceAtBarOpen.getD q.peakPrice)).getD
          q.currentStopLoss) := by
  have hside : q.action = pos.direction := by rw [hq]; rfl
  have hstored : q.currentStopLoss = pos.stopLoss := by rw [hq]; rfl
  have hclose : Traded bar bar.close := ⟨hbar.low_le_close, hbar.close_le_high⟩
  unfold evaluateTrailing
  cases htrail : trailingReached config q profile with
  | true =>
    rw [if_pos rfl]
    unfold trailingReached at htrail
    rw [stopReachedAt_exitQuery bar readings pos peakOpen hq, hside, hstored] at htrail
    rw [hside, hstored]
    exact ruleVisit_closes_iff config bar barIndex rfl rfl (possible_at_stop rfl htrail)
  | false =>
    rw [if_neg Bool.false_ne_true]
    have hclear := not_beyond_of_not_reached bar readings pos peakOpen hbar hq htrail
    apply ruleVisit_iff
    · intro reason _ hreason
      refine iff_of_true ?_ hclear
      have hactive : activeExit config q profile = some reason := hreason
      rcases activeExit_cases config q profile with hnone | hsignal | htimeout
      · rw [hnone] at hactive
        cases hactive
      · obtain rfl := Option.some.inj (hsignal.symm.trans hactive)
        rw [possible_of_no_stop (by simp [StoppedOut])]
        simpa only [ruleExitPrice, hsignal] using hclose
      · obtain rfl := Option.some.inj (htimeout.symm.trans hactive)
        rw [possible_of_no_stop (by simp [StoppedOut])]
        simpa only [ruleExitPrice, htimeout] using hclose
    · intro _
      exact hclear

/-- The chandelier rules fill at a possible price exactly when the bar jumps over none of
their levels. -/
theorem ruleVisit_chandelier (hbar : WellFormed bar)
    (hq : q = exitQuery pos peakOpen bar readings) :
    (∀ x, ruleVisit config bar barIndex pos (evaluateChandelier config q profile) = .leaves x →
      Possible bar x) ↔ ¬JumpsChandelier config bar q profile := by
  have hside : q.action = pos.direction := by rw [hq]; rfl
  have hstored : q.currentStopLoss = pos.stopLoss := by rw [hq]; rfl
  unfold JumpsChandelier
  cases hstop : q.stopReachedAt q.currentStopLoss with
  | true =>
    rw [evaluateChandelier_of_stop config q profile hstop, if_pos rfl]
    rw [stopReachedAt_exitQuery bar readings pos peakOpen hq, hside, hstored] at hstop
    rw [hside, hstored]
    exact ruleVisit_closes_iff config bar barIndex rfl rfl (possible_at_stop rfl hstop)
  | false =>
    rw [if_neg Bool.false_ne_true]
    cases htarget : (checkHardTp q.action q.entryPrice q.barHigh q.barLow q.initialRisk
        config.maxTpR).isSome with
    | true =>
      rw [evaluateChandelier_of_target config q profile hstop htarget]
      have hhit := (checkHardTp_isSome config q).mp htarget
      rw [if_pos hhit]
      have hreached := hhit.2.2
      rw [targetReached_exitQuery bar readings pos peakOpen hq] at hreached
      have hprice : ruleExitPrice config bar
          (takeResult pos ⟨true, some .takeProfit, none, config.maxTpR, true⟩)
          ⟨true, some .takeProfit, none, config.maxTpR, true⟩ = hardTarget config q := by
        rw [hq]
        rfl
      refine ruleVisit_closes_iff config bar barIndex rfl rfl ?_
      rw [possible_of_no_stop (by simp [StoppedOut])]
      dsimp only
      rw [hprice]
      exact traded_iff_of_reached hreached
    | false =>
      have hmiss : ¬(0 < q.initialRisk ∧ 0 < config.maxTpR ∧
          targetReached q.action q.barHigh q.barLow (hardTarget config q) = true) := by
        rw [← checkHardTp_isSome, htarget]
        exact Bool.false_ne_true
      have hbelow := not_beyond_of_not_reached bar readings pos peakOpen hbar hq hstop
      rw [evaluateChandelier_of_trail config q profile hstop htarget, if_neg hmiss,
        ← beyond_trail_iff config bar q profile hbelow]
      exact ruleVisit_trailing config bar barIndex readings profile pos peakOpen hbar hq

theorem hitBarrier_eq (b : Barriers) :
    hitBarrier q b =
      if q.stopReachedAt (moved q.action.opposite q.entryPrice (b.slAtr * b.atr)) then
        some (.stopLoss, moved q.action.opposite q.entryPrice (b.slAtr * b.atr))
      else if targetReached q.action q.barHigh q.barLow
          (moved q.action q.entryPrice (b.tpAtr * b.atr)) then
        some (.takeProfit, moved q.action q.entryPrice (b.tpAtr * b.atr))
      else none := by
  unfold hitBarrier ExitQuery.stopReachedAt targetReached stopReached moved
  cases q.action with
  | buy =>
    refine if_congr decide_eq_true_iff.symm rfl ?_
    exact if_congr decide_eq_true_iff.symm rfl rfl
  | sell =>
    refine if_congr decide_eq_true_iff.symm rfl ?_
    exact if_congr decide_eq_true_iff.symm rfl rfl

/-- A bar that touches the barrier stop does not lie beyond the barrier target. -/
theorem not_beyond_target_of_stop {action : Direction} {entry stop target : ℚ}
    (hstop : 0 < stop) (htarget : 0 < target)
    (hreached : stopReached action bar.high bar.low (moved action.opposite entry stop) = true) :
    ¬BeyondTarget action bar (moved action entry target) := by
  intro hbeyond
  cases action with
  | buy =>
    have hlow : bar.low ≤ entry - stop := of_decide_eq_true hreached
    have hover : entry + target < bar.low := hbeyond
    linarith
  | sell =>
    have hhigh : entry + stop ≤ bar.high := of_decide_eq_true hreached
    have hunder : bar.high < entry - target := hbeyond
    linarith

theorem Barriers.pos_of_not_degenerate {b : Barriers} (h : ¬b.Degenerate) :
    0 < b.slAtr * b.atr ∧ 0 < b.tpAtr * b.atr := by
  unfold Barriers.Degenerate at h
  simp only [not_or, not_le] at h
  obtain ⟨hatr, hsl, htp, -⟩ := h
  exact ⟨mul_pos hsl hatr, mul_pos htp hatr⟩

theorem not_beyondTarget_of_not_reached (hbar : WellFormed bar)
    (hq : q = exitQuery pos peakOpen bar readings) {target : ℚ}
    (h : targetReached q.action q.barHigh q.barLow target = false) :
    ¬BeyondTarget q.action bar target := by
  intro hbeyond
  rw [targetReached_exitQuery bar readings pos peakOpen hq, reached_of_beyond hbar hbeyond] at h
  cases h

/-- The barriers fill at a possible price exactly when the bar jumps over neither. -/
theorem ruleVisit_barrier (hbar : WellFormed bar) (hmode : pos.exitSpec.isBarrier = true)
    (hq : q = exitQuery pos peakOpen bar readings) (b : Barriers) :
    (∀ x, ruleVisit config bar barIndex pos (evaluateBarrierExit q b) = .leaves x →
      Possible bar x) ↔ ¬JumpsBarrier bar q b := by
  have hside : q.action = pos.direction := by rw [hq]; rfl
  have hclose : Traded bar bar.close := ⟨hbar.low_le_close, hbar.close_le_high⟩
  unfold JumpsBarrier evaluateBarrierExit
  by_cases hdegenerate : b.Degenerate
  · rw [if_pos hdegenerate]
    refine iff_of_true ?_ (fun hjumps => hjumps.1 hdegenerate)
    intro x hx
    cases hx
  · have hpositive := Barriers.pos_of_not_degenerate hdegenerate
    rw [if_neg hdegenerate, hitBarrier_eq, and_iff_right hdegenerate, not_or]
    cases hstop : q.stopReachedAt (moved q.action.opposite q.entryPrice (b.slAtr * b.atr)) with
    | true =>
      rw [if_pos rfl]
      have hreached := hstop
      rw [stopReachedAt_exitQuery bar readings pos peakOpen hq] at hreached
      have hnear := not_beyond_target_of_stop bar hpositive.1 hpositive.2 hreached
      rw [and_iff_left hnear]
      rw [hside] at hreached ⊢
      exact ruleVisit_closes_iff config bar barIndex rfl rfl (possible_at_stop rfl hreached)
    | false =>
      rw [if_neg Bool.false_ne_true]
      have hnear := not_beyond_of_not_reached bar readings pos peakOpen hbar hq hstop
      rw [and_iff_right hnear]
      cases htarget : targetReached q.action q.barHigh q.barLow
          (moved q.action q.entryPrice (b.tpAtr * b.atr)) with
      | true =>
        rw [if_pos rfl]
        rw [targetReached_exitQuery bar readings pos peakOpen hq] at htarget
        have hprice := traded_iff_of_reached htarget
        refine ruleVisit_closes_iff config bar barIndex rfl rfl ?_
        rw [possible_of_no_stop (by simp [StoppedOut])]
        simpa only [ruleExitPrice, takeResult, hmode, BeyondTarget] using hprice
      | false =>
        rw [if_neg Bool.false_ne_true]
        have hfar := not_beyondTarget_of_not_reached bar readings pos peakOpen hbar hq htarget
        by_cases htime : b.timeBars ≤ q.barsHeld
        · simp only [if_pos htime]
          refine ruleVisit_closes_iff config bar barIndex rfl rfl ?_
          rw [possible_of_no_stop (by simp [StoppedOut])]
          exact iff_of_true hclose hfar
        · simp only [if_neg htime]
          apply ruleVisit_iff
          · intro reason hclosed
            cases hclosed
          · intro _
            exact hfar

end Query

/-- A round of the loop fills at possible prices exactly when the position meets no level
that the bar jumps over. -/
theorem visitExits_iff (hbar : WellFormed bar) (pos : Position) :
    (∀ x, visitExits config bar barIndex readings pos = some (.leaves x) → Possible bar x) ↔
      ¬JumpsLevel config bar readings pos := by
  have hleft := hardBoundary_eq_none_iff hbar pos
  unfold visitExits JumpsLevel
  cases hhit : resolveHardBoundaryExit bar pos with
  | some hit =>
    obtain ⟨exitPrice, reason⟩ := hit
    rw [show resolveHardBoundaryExit bar (noteBar pos bar) = some (exitPrice, reason) from hhit]
    refine iff_of_true ?_ ?_
    · intro x hx
      obtain rfl := Visit.leaves.inj (Option.some.inj hx)
      have htraded : Traded bar exitPrice := traded_of_hardBoundary hbar hhit
      refine ⟨htraded, ?_⟩
      intro hstopped hbeyond
      rcases stop_of_hardBoundary hhit with rfl | hopen | hlevel
      · simp [StoppedOut] at hstopped
      · exact hopen
      · rw [hlevel] at htraded
        exact absurd htraded (not_traded_of_beyond hbeyond)
    · rintro ⟨hrules, -⟩
      rw [hleft.mpr hrules] at hhit
      cases hhit
  | none =>
    rw [show resolveHardBoundaryExit bar (noteBar pos bar) = none from hhit]
    rw [and_iff_right (hleft.mp hhit)]
    have hmode : (exitQuery (evaluated config bar readings pos) (peakAtBarOpen pos) bar
        readings).exitSpec = (evaluated config bar readings pos).exitSpec := rfl
    unfold ruleExit evaluateExit
    rw [hmode]
    cases hbarrier : (evaluated config bar readings pos).exitSpec.isBarrier with
    | true =>
      rw [if_pos rfl, if_pos rfl]
      cases hparsed : barriersOf (exitQuery (evaluated config bar readings pos)
          (peakAtBarOpen pos) bar readings) with
      | none => simp
      | some b =>
        have hround := ruleVisit_barrier config bar barIndex readings
          (evaluated config bar readings pos) (peakAtBarOpen pos) hbar hbarrier rfl b
        simpa using hround
    | false =>
      rw [if_neg Bool.false_ne_true, if_neg Bool.false_ne_true]
      cases hparsed : exitProfile config (exitQuery (evaluated config bar readings pos)
          (peakAtBarOpen pos) bar readings) with
      | none => simp
      | some profile =>
        have hround := ruleVisit_chandelier config bar barIndex readings profile
          (evaluated config bar readings pos) (peakAtBarOpen pos) hbar rfl
        simpa using hround

end Visit

/-- Every close of `check_exits` is filled at a price the bar traded at, and a stop that the
whole bar is worse than at the open, exactly when no position that the loop comes to meets a
level that the bar jumps over. -/
theorem fills_possible_iff (c : Settings) (s : Tracker) (bar : Bar) (barIndex : ℤ)
    (readings : BarReadings) (hbar : WellFormed bar) :
    (∀ x ∈ closings c s (.exits bar barIndex readings), Possible bar x) ↔
      NoJumps c s bar barIndex readings := by
  rw [closings_exits]
  unfold NoJumps
  cases hflat : flatReason c s bar with
  | some reason =>
    refine iff_of_true ?_ (Or.inl (Option.some_ne_none reason))
    intro x hx
    obtain ⟨pos, -, hvisit⟩ := mem_left.mp hx
    obtain rfl := Visit.leaves.inj (Option.some.inj hvisit)
    have hother : ¬StoppedOut reason := by
      rcases flatReason_cases hflat with rfl | rfl
      · simp [StoppedOut]
      · simp [StoppedOut]
    exact (possible_of_no_stop hother).mpr ⟨hbar.low_le_close, hbar.close_le_high⟩
  | none =>
    have hrounds : ∀ pos, (∀ x, visitExits c.chandelierConfig bar barIndex readings pos =
        some (.leaves x) → Possible bar x) ↔ ¬JumpsLevel c.chandelierConfig bar readings pos :=
      visitExits_iff c.chandelierConfig bar barIndex readings hbar
    rw [or_iff_right (fun hsome => hsome rfl)]
    dsimp only
    constructor
    · intro hall pos hcomes
      rw [← hrounds pos]
      intro x hx
      exact hall x (mem_left.mpr ⟨pos, hcomes, hx⟩)
    · intro hnone x hx
      obtain ⟨pos, hcomes, hvisit⟩ := mem_left.mp hx
      exact (hrounds pos).mpr (hnone pos hcomes) x hvisit

/-- A buy that has seen a high of 2004. -/
def heldBuy : List Act :=
  [.openTrade tenthOfLot, .exits ⟨3600, 2000, 2004, 1999, 2003⟩ 1 { currentAtr := 10 }]

/-- A bar below the stop that a smaller ATR puts at 2002.75. -/
def fallenBar : Bar := ⟨7200, 1998, 2001, 1997, 1999⟩

theorem wellFormed_fallenBar : WellFormed fallenBar := by
  constructor
  · norm_num [fallenBar]
  · norm_num [fallenBar]
  · norm_num [fallenBar]
  · norm_num [fallenBar]

theorem fills_possible_iff_fallenBar :
    (∀ x ∈ closings { initialBalance := 10000 }
        (openPosition { initialBalance := 10000 } (start { initialBalance := 10000 }) tenthOfLot)
        (.exits fallenBar 2 { currentAtr := 10 }), Possible fallenBar x) ↔
      NoJumps { initialBalance := 10000 }
        (openPosition { initialBalance := 10000 } (start { initialBalance := 10000 }) tenthOfLot)
        fallenBar 2 { currentAtr := 10 } :=
  fills_possible_iff _ _ fallenBar 2 _ wellFormed_fallenBar

/-- The recomputed stop is filled at a price above the whole bar. -/
theorem trailing_stop_filled_above_bar :
    ¬∀ (c : Settings) (labels : List Act) (s : Tracker) (bar : Bar) (barIndex : ℤ)
        (readings : BarReadings), run (step c) (start c) labels = some s → WellFormed bar →
        ∀ x ∈ closings c s (.exits bar barIndex readings), Possible bar x := by
  intro h
  have hrun : (run (step { initialBalance := 10000 }) (start { initialBalance := 10000 })
      heldBuy).map (fun s => decide (∀ x ∈ closings { initialBalance := 10000 } s
        (.exits fallenBar 2 { currentAtr := 1 / 2 }), Traded fallenBar x.2.exitPrice)) =
      some false := by
    decide +kernel
  obtain ⟨s, hs, himpossible⟩ := Option.map_eq_some_iff.mp hrun
  refine of_decide_eq_false himpossible ?_
  intro x hx
  exact (h _ heldBuy s fallenBar 2 _ hs wellFormed_fallenBar x hx).1

end MT5Services.ExitFills
