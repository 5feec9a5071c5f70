import MT5Services.ExitRules
import Mathlib.Algebra.Order.Group.MinMax
import Mathlib.Tactic.Linarith
import Mathlib.Tactic.Ring

/-!
The exit rules on the two sides. Every rule of `exit_rules.py` is written once for a buy
and once for a sell. Reflecting all prices about the entry and swapping the sides turns one
text into the other, so a single comparison the wrong way round would show here. The only
step that sees absolute prices is the rounding of the new stop, which is why the entry has
to be a whole number of cents.
-/
namespace MT5Services.ExitMirror

open PyNumber ExitRules

/-- A price seen from the other side of the entry. -/
def reflect (entryPrice price : ℚ) : ℚ := 2 * entryPrice - price

/-- The same position held the other way round: the high of the bar is now its low. -/
def mirror (q : ExitQuery) : ExitQuery :=
  { q with
    action := q.action.opposite
    barHigh := reflect q.entryPrice q.barLow
    barLow := reflect q.entryPrice q.barHigh
    barClose := reflect q.entryPrice q.barClose
    currentStopLoss := reflect q.entryPrice q.currentStopLoss
    peakPrice := reflect q.entryPrice q.peakPrice
    recentSignalDirs := q.recentSignalDirs.map Direction.opposite
    peakPriceAtBarOpen := q.peakPriceAtBarOpen.map (reflect q.entryPrice) }

/-- Only the new stop of a result is a price. -/
def mirrorResult (entryPrice : ℚ) (result : ExitCheckResult) : ExitCheckResult :=
  { result with newStopLoss := result.newStopLoss.map (reflect entryPrice) }

/-- A price with two decimals. -/
def IsCents (price : ℚ) : Prop := ∃ cents : ℤ, price * 10 ^ 2 = cents

section Prices

variable (action : Direction) (entryPrice a b : ℚ)

theorem reflect_le_reflect : reflect entryPrice a ≤ reflect entryPrice b ↔ b ≤ a := by
  unfold reflect
  exact sub_le_sub_iff_left _

theorem reflect_entry_add : reflect entryPrice (entryPrice + a) = entryPrice - a := by
  unfold reflect
  ring

theorem reflect_entry_sub : reflect entryPrice (entryPrice - a) = entryPrice + a := by
  unfold reflect
  ring

theorem reflect_max :
    reflect entryPrice (max a b) = min (reflect entryPrice a) (reflect entryPrice b) := by
  unfold reflect
  exact (min_sub_sub_left _ a b).symm

theorem reflect_min :
    reflect entryPrice (min a b) = max (reflect entryPrice a) (reflect entryPrice b) := by
  unfold reflect
  exact (max_sub_sub_left _ a b).symm

theorem better_mirror :
    action.opposite.better (reflect entryPrice a) (reflect entryPrice b) = action.better a b := by
  cases action with
  | buy => simp [Direction.opposite, Direction.better, reflect]
  | sell => simp [Direction.opposite, Direction.better, reflect]

theorem round_reflect_entry (hentry : IsCents entryPrice) :
    round (reflect entryPrice a) 2 = reflect entryPrice (round a 2) := by
  obtain ⟨cents, hcents⟩ := hentry
  exact round_reflect hcents a

theorem profitR_mirror :
    profitR action.opposite entryPrice (reflect entryPrice a) b = profitR action entryPrice a b := by
  cases action with
  | buy =>
    have hdiff : entryPrice - reflect entryPrice a = a - entryPrice := by unfold reflect; ring
    simp [profitR, Direction.opposite, hdiff]
  | sell =>
    have hdiff : reflect entryPrice a - entryPrice = entryPrice - a := by unfold reflect; ring
    simp [profitR, Direction.opposite, hdiff]

end Prices

section Rules

variable (action : Direction) (entryPrice barHigh barLow initialRisk : ℚ)

theorem stopReached_mirror (stop : ℚ) :
    stopReached action.opposite (reflect entryPrice barLow) (reflect entryPrice barHigh)
        (reflect entryPrice stop) = stopReached action barHigh barLow stop := by
  cases action with
  | buy => simp [stopReached, Direction.opposite, reflect_le_reflect]
  | sell => simp [stopReached, Direction.opposite, reflect_le_reflect]

theorem checkInitialSl_mirror (stop rMultiple : ℚ) :
    checkInitialSl action.opposite (reflect entryPrice barLow) (reflect entryPrice barHigh)
        (reflect entryPrice stop) rMultiple =
      (checkInitialSl action barHigh barLow stop rMultiple).map (mirrorResult entryPrice) := by
  unfold checkInitialSl
  rw [stopReached_mirror]
  split_ifs
  · rfl
  · rfl

theorem checkHardTp_mirror (maxTpR : ℚ) :
    checkHardTp action.opposite entryPrice (reflect entryPrice barLow)
        (reflect entryPrice barHigh) initialRisk maxTpR =
      (checkHardTp action entryPrice barHigh barLow initialRisk maxTpR).map
        (mirrorResult entryPrice) := by
  have hbelow : reflect entryPrice barHigh ≤ entryPrice - maxTpR * initialRisk ↔
      entryPrice + maxTpR * initialRisk ≤ barHigh := by
    rw [← reflect_entry_add, reflect_le_reflect]
  have habove : entryPrice + maxTpR * initialRisk ≤ reflect entryPrice barLow ↔
      barLow ≤ entryPrice - maxTpR * initialRisk := by
    rw [← reflect_entry_sub, reflect_le_reflect]
  unfold checkHardTp
  cases action with
  | buy =>
    simp only [Direction.opposite, hbelow]
    split_ifs
    · rfl
    · rfl
    · rfl
  | sell =>
    simp only [Direction.opposite, habove]
    split_ifs
    · rfl
    · rfl
    · rfl

theorem computeChandelierSl_mirror (peakPrice currentAtr multiplier : ℚ) :
    computeChandelierSl action.opposite (reflect entryPrice peakPrice) currentAtr multiplier =
      (computeChandelierSl action peakPrice currentAtr multiplier).map (reflect entryPrice) := by
  unfold computeChandelierSl
  split_ifs
  · rfl
  · cases action with
    | buy =>
      simp only [Direction.opposite, Option.map_some, reflect]
      ring_nf
    | sell =>
      simp only [Direction.opposite, Option.map_some, reflect]
      ring_nf

theorem computeBreakevenSl_mirror
    (peakPrice breakevenR breakevenBufferR minBuffer lockRatio : ℚ) (alreadyActivated : Bool) :
    computeBreakevenSl action.opposite entryPrice (reflect entryPrice peakPrice) initialRisk
        breakevenR breakevenBufferR minBuffer alreadyActivated lockRatio =
      ((computeBreakevenSl action entryPrice peakPrice initialRisk breakevenR breakevenBufferR
          minBuffer alreadyActivated lockRatio).1.map (reflect entryPrice),
        (computeBreakevenSl action entryPrice peakPrice initialRisk breakevenR breakevenBufferR
          minBuffer alreadyActivated lockRatio).2) := by
  unfold computeBreakevenSl
  rw [profitR_mirror]
  by_cases hrisk : initialRisk ≤ 0
  · rw [if_pos hrisk, if_pos hrisk]
    rfl
  · rw [if_neg hrisk, if_neg hrisk]
    dsimp only
    by_cases hactive :
        alreadyActivated = true ∨ breakevenR ≤ profitR action entryPrice peakPrice initialRisk
    · rw [if_pos hactive, if_pos hactive]
      cases action with
      | buy => simp only [Direction.opposite, Option.map_some, reflect_entry_add]
      | sell => simp only [Direction.opposite, Option.map_some, reflect_entry_sub]
    · rw [if_neg hactive, if_neg hactive]
      rfl

theorem tightestStop_mirror (stop : ℚ) (chandelierSl breakevenSl : Option ℚ) :
    tightestStop action.opposite (reflect entryPrice stop)
        (chandelierSl.map (reflect entryPrice)) (breakevenSl.map (reflect entryPrice)) =
      reflect entryPrice (tightestStop action stop chandelierSl breakevenSl) := by
  cases action with
  | buy =>
    cases chandelierSl <;> cases breakevenSl <;>
      simp [tightestStop, Direction.opposite, reflect_max]
  | sell =>
    cases chandelierSl <;> cases breakevenSl <;>
      simp [tightestStop, Direction.opposite, reflect_min]

theorem mergeTrailingSl_mirror (hentry : IsCents entryPrice) (stop : ℚ)
    (chandelierSl breakevenSl : Option ℚ) :
    mergeTrailingSl action.opposite (reflect entryPrice stop)
        (chandelierSl.map (reflect entryPrice)) (breakevenSl.map (reflect entryPrice)) =
      (mergeTrailingSl action stop chandelierSl breakevenSl).map (reflect entryPrice) := by
  unfold mergeTrailingSl
  dsimp only
  rw [tightestStop_mirror, better_mirror, round_reflect_entry entryPrice _ hentry]
  split_ifs
  · rfl
  · rfl

theorem takeLast_map {α β : Type*} (f : α → β) (items : List α) (count : ℤ) :
    takeLast (items.map f) count = (takeLast items count).map f := by
  unfold takeLast
  rw [List.length_map]
  split_ifs
  · exact (List.map_drop).symm
  · exact (List.map_drop).symm

theorem checkSignalReversal_mirror (recentSignalDirs : List Direction) (confirmationBars : ℤ) :
    checkSignalReversal action.opposite (recentSignalDirs.map Direction.opposite)
        confirmationBars = checkSignalReversal action recentSignalDirs confirmationBars := by
  have hside : ∀ side : Direction,
      decide (side.opposite = action.opposite.opposite) = decide (side = action.opposite) := by
    intro side
    cases side <;> cases action <;> rfl
  unfold checkSignalReversal
  rw [takeLast_map, List.length_map, List.all_map]
  simp only [List.map_eq_nil_iff, Function.comp_def, hside]

theorem checkTimeout_mirror (barPrice breakevenR : ℚ) (barsHeld timeoutBars : ℤ) :
    checkTimeout action.opposite entryPrice (reflect entryPrice barPrice) initialRisk barsHeld
        timeoutBars breakevenR =
      checkTimeout action entryPrice barPrice initialRisk barsHeld timeoutBars breakevenR := by
  unfold checkTimeout
  rw [profitR_mirror]

end Rules

section Modes

variable (config : ChandelierConfig) (q : ExitQuery) (profile : ExitProfile) (b : Barriers)

theorem rMultiple_mirror : (mirror q).rMultiple = q.rMultiple := by
  unfold ExitQuery.rMultiple
  simp only [mirror, profitR_mirror]

theorem hitBarrier_mirror :
    hitBarrier (mirror q) b =
      (hitBarrier q b).map fun hit => (hit.1, reflect q.entryPrice hit.2) := by
  have habove : ∀ distance price : ℚ, q.entryPrice + distance ≤ reflect q.entryPrice price ↔
      price ≤ q.entryPrice - distance := by
    intro distance price
    rw [← reflect_entry_sub, reflect_le_reflect]
  have hbelow : ∀ distance price : ℚ, reflect q.entryPrice price ≤ q.entryPrice - distance ↔
      q.entryPrice + distance ≤ price := by
    intro distance price
    rw [← reflect_entry_add, reflect_le_reflect]
  unfold hitBarrier
  cases haction : q.action with
  | buy =>
    simp only [mirror, haction, Direction.opposite, habove, hbelow]
    split_ifs
    · rw [Option.map_some, reflect_entry_sub]
    · rw [Option.map_some, reflect_entry_add]
    · rfl
  | sell =>
    simp only [mirror, haction, Direction.opposite, habove, hbelow]
    split_ifs
    · rw [Option.map_some, reflect_entry_add]
    · rw [Option.map_some, reflect_entry_sub]
    · rfl

theorem evaluateBarrierExit_mirror :
    evaluateBarrierExit (mirror q) b =
      mirrorResult q.entryPrice (evaluateBarrierExit q b) := by
  unfold evaluateBarrierExit
  rw [hitBarrier_mirror, rMultiple_mirror]
  by_cases hdegenerate : b.Degenerate
  · rw [if_pos hdegenerate, if_pos hdegenerate]
    rfl
  · rw [if_neg hdegenerate, if_neg hdegenerate]
    cases hitBarrier q b with
    | some hit => rfl
    | none =>
      change (if b.timeBars ≤ q.barsHeld then _ else _) = _
      split_ifs
      · rfl
      · rfl

theorem exitProfile_mirror : exitProfile config (mirror q) = exitProfile config q := rfl

theorem chandelierAt_mirror (peak : ℚ) :
    chandelierAt config (mirror q) profile (reflect q.entryPrice peak) =
      (chandelierAt config q profile peak).map (reflect q.entryPrice) :=
  computeChandelierSl_mirror q.action q.entryPrice peak q.currentAtr
    (effectiveChandelierMult config q profile)

theorem breakevenAt_mirror (peak : ℚ) :
    breakevenAt config (mirror q) profile (reflect q.entryPrice peak) =
      ((breakevenAt config q profile peak).1.map (reflect q.entryPrice),
        (breakevenAt config q profile peak).2) :=
  computeBreakevenSl_mirror q.action q.entryPrice q.initialRisk peak profile.breakevenR
    config.breakevenBufferR config.minBreakevenBuffer profile.lockRatio
    q.breakevenAlreadyActivated

theorem trailingSl_mirror (hentry : IsCents q.entryPrice) (peak : ℚ) :
    trailingSl config (mirror q) profile (reflect q.entryPrice peak) =
      (trailingSl config q profile peak).map (reflect q.entryPrice) := by
  unfold trailingSl
  rw [chandelierAt_mirror, breakevenAt_mirror]
  exact mergeTrailingSl_mirror q.action q.entryPrice hentry q.currentStopLoss _ _

theorem activeExit_mirror :
    activeExit config (mirror q) profile = activeExit config q profile := by
  unfold activeExit
  rw [rMultiple_mirror]
  simp only [mirror, checkSignalReversal_mirror, checkTimeout_mirror, ne_eq, List.map_eq_nil_iff]

/-- The peak that counts for the exit on this bar. -/
theorem checkPeak_mirror :
    (mirror q).peakPriceAtBarOpen.getD (mirror q).peakPrice =
      reflect q.entryPrice (q.peakPriceAtBarOpen.getD q.peakPrice) := by
  cases hopen : q.peakPriceAtBarOpen with
  | none => simp [mirror, hopen]
  | some peak => simp [mirror, hopen]

theorem trailingReached_mirror (hentry : IsCents q.entryPrice) :
    trailingReached config (mirror q) profile = trailingReached config q profile := by
  unfold trailingReached
  dsimp only
  rw [checkPeak_mirror, trailingSl_mirror config q profile hentry]
  have hstop : ∀ level : Option ℚ,
      (level.map (reflect q.entryPrice)).getD (mirror q).currentStopLoss =
        reflect q.entryPrice (level.getD q.currentStopLoss) := by
    intro level
    cases level with
    | none => rfl
    | some stop => rfl
  rw [hstop]
  exact stopReached_mirror q.action q.entryPrice q.barHigh q.barLow _

theorem evaluateTrailing_mirror (hentry : IsCents q.entryPrice) :
    evaluateTrailing config (mirror q) profile =
      mirrorResult q.entryPrice (evaluateTrailing config q profile) := by
  unfold evaluateTrailing
  dsimp only
  rw [trailingReached_mirror config q profile hentry, checkPeak_mirror, activeExit_mirror,
    rMultiple_mirror, trailingSl_mirror config q profile hentry, breakevenAt_mirror]
  split_ifs
  · rfl
  · have hpeak : (mirror q).peakPrice = reflect q.entryPrice q.peakPrice := rfl
    rw [hpeak, trailingSl_mirror config q profile hentry, breakevenAt_mirror]
    rfl

theorem evaluateChandelier_mirror (hentry : IsCents q.entryPrice) :
    evaluateChandelier config (mirror q) profile =
      mirrorResult q.entryPrice (evaluateChandelier config q profile) := by
  have hstop : checkInitialSl (mirror q).action (mirror q).barHigh (mirror q).barLow
      (mirror q).currentStopLoss (mirror q).rMultiple =
      (checkInitialSl q.action q.barHigh q.barLow q.currentStopLoss q.rMultiple).map
        (mirrorResult q.entryPrice) := by
    rw [rMultiple_mirror]
    exact checkInitialSl_mirror q.action q.entryPrice q.barHigh q.barLow _ _
  have htarget : checkHardTp (mirror q).action (mirror q).entryPrice (mirror q).barHigh
      (mirror q).barLow (mirror q).initialRisk config.maxTpR =
      (checkHardTp q.action q.entryPrice q.barHigh q.barLow q.initialRisk config.maxTpR).map
        (mirrorResult q.entryPrice) :=
    checkHardTp_mirror q.action q.entryPrice q.barHigh q.barLow q.initialRisk config.maxTpR
  unfold evaluateChandelier
  rw [hstop, htarget]
  cases checkInitialSl q.action q.barHigh q.barLow q.currentStopLoss q.rMultiple with
  | some result => rfl
  | none =>
    cases checkHardTp q.action q.entryPrice q.barHigh q.barLow q.initialRisk config.maxTpR with
    | some result => rfl
    | none => exact evaluateTrailing_mirror config q profile hentry

/-- In either mode the mirrored position is closed on the mirrored bar for the same reason,
with the mirrored stop; what raises keeps raising. -/
theorem evaluateExit_mirror (hentry : IsCents q.entryPrice) :
    evaluateExit config (mirror q) =
      (evaluateExit config q).map (mirrorResult q.entryPrice) := by
  have hmode : (mirror q).exitSpec = q.exitSpec := rfl
  have hbarriers : barriersOf (mirror q) = barriersOf q := rfl
  unfold evaluateExit
  rw [hmode, hbarriers, exitProfile_mirror]
  split_ifs
  · rw [Option.map_map]
    apply Option.map_congr
    intro b _
    exact evaluateBarrierExit_mirror q b
  · rw [Option.map_map]
    apply Option.map_congr
    intro profile _
    exact evaluateChandelier_mirror config q profile hentry

end Modes

/-- A buy at 2000 on a bar with a new peak, from which its stop trails at 2009.4875. -/
def trailingBuy : ExitQuery where
  action := .buy
  entryPrice := 2000
  barHigh := 2012
  barLow := 2008
  barClose := 2011
  currentStopLoss := 1995
  initialRisk := 5
  peakPrice := 2012
  currentAtr := 201 / 200
  peakPriceAtBarOpen := some 2010

theorem evaluateExit_mirror_trailingBuy :
    evaluateExit {} (mirror trailingBuy) =
      (evaluateExit {} trailingBuy).map (mirrorResult 2000) :=
  evaluateExit_mirror {} trailingBuy ⟨200000, by norm_num [trailingBuy]⟩

/-- At an entry that is no whole number of cents the two stops are rounded to different
distances from it. -/
example :
    evaluateExit {} (mirror { trailingBuy with entryPrice := 2000 + 1 / 400 }) ≠
      (evaluateExit {} { trailingBuy with entryPrice := 2000 + 1 / 400 }).map
        (mirrorResult (2000 + 1 / 400)) := by
  decide +kernel

end MT5Services.ExitMirror
