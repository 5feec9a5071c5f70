import MT5Services.ExitRules
import Mathlib.Tactic.Linarith

/-!
The switches of the exit rules. The documented rules form a list of which the first one that
fires decides; a rule that is switched off never fires and proposes no stop. The code follows
the list except for one switch: no rule reads `breakeven_enabled`.
-/
namespace MT5Services.ExitSwitches

open PyNumber ExitRules

/-- The configuration with the switch of the breakeven stop. -/
structure RuleConfig extends ChandelierConfig where
  breakevenEnabled : Bool := true

section Rules

variable (config : RuleConfig) (q : ExitQuery) (profile : ExitProfile)

/-- The breakeven and lock stop from a peak, and whether it is active. A rule that is off
proposes nothing and leaves the flag alone. -/
def breakevenRule (peak : ℚ) : Option ℚ × Bool :=
  if config.breakevenEnabled then breakevenAt config.toChandelierConfig q profile peak
  else (none, q.breakevenAlreadyActivated)

/-- The tightest of the current stop and the levels that the rules propose. -/
def trailed (peak : ℚ) : Option ℚ :=
  mergeTrailingSl q.action q.currentStopLoss (chandelierAt config.toChandelierConfig q profile peak)
    (breakevenRule config q profile peak).1

def openingPeak : ℚ := q.peakPriceAtBarOpen.getD q.peakPrice

/-- A close at the end of the bar takes the stop of the next bar along. -/
def closeFor (reason : CloseReason) : ExitCheckResult :=
  ⟨true, some reason, trailed config q profile q.peakPrice, round q.rMultiple 4,
    (breakevenRule config q profile q.peakPrice).2⟩

def initialStop : Option ExitCheckResult :=
  checkInitialSl q.action q.barHigh q.barLow q.currentStopLoss q.rMultiple

def hardTakeProfit : Option ExitCheckResult :=
  checkHardTp q.action q.entryPrice q.barHigh q.barLow q.initialRisk config.maxTpR

/-- The stop in force is the one that the peak at the open of the bar gives. -/
def trailingStop : Option ExitCheckResult :=
  let stop := trailed config q profile (openingPeak q)
  if q.stopReachedAt (stop.getD q.currentStopLoss) then
    some ⟨true, some .trailingStop, stop, round q.rMultiple 4,
      (breakevenRule config q profile (openingPeak q)).2⟩
  else none

def signalReversal : Option ExitCheckResult :=
  if config.signalExitEnabled ∧ q.recentSignalDirs ≠ [] ∧ 0 ≤ q.rMultiple ∧
      checkSignalReversal q.action q.recentSignalDirs config.signalExitConfirmationBars then
    some (closeFor config q profile .signalExit)
  else none

def timedOut : Option ExitCheckResult :=
  if 0 < config.timeoutBars ∧
      checkTimeout q.action q.entryPrice q.barClose q.initialRisk q.barsHeld config.timeoutBars
        profile.breakevenR then
    some (closeFor config q profile .timeout)
  else none

def held : ExitCheckResult :=
  ⟨false, none, trailed config q profile q.peakPrice, round q.rMultiple 4,
    (breakevenRule config q profile q.peakPrice).2⟩

/-- The rules in their order. -/
def rules : List (Option ExitCheckResult) :=
  [initialStop q, hardTakeProfit config q, trailingStop config q profile,
    signalReversal config q profile, timedOut config q profile]

/-- The first rule that fires decides. -/
def applyRules : ExitCheckResult := ((rules config q profile).findSome? id).getD (held config q profile)

end Rules

/-- The documented result in chandelier mode; it raises where the profile does. -/
def documentedExit (config : RuleConfig) (q : ExitQuery) : Option ExitCheckResult :=
  (exitProfile config.toChandelierConfig q).map (applyRules config q)

section Silence

variable (config : RuleConfig) (q : ExitQuery) (profile : ExitProfile)

/-- The level that is added to the current stop and the chandelier stop changes nothing: it is
not tighter, or it is rounded to the same new stop. -/
def AddsNothing (peak level : ℚ) : Prop :=
  let base := tightestStop q.action q.currentStopLoss
    (chandelierAt config.toChandelierConfig q profile peak) none
  q.action.better base level = false ∨
    (q.action.better q.currentStopLoss base = true ∧ round level 2 = round base 2)

/-- From this peak the breakeven rule has nothing to say: it is not active and does not become
so, or it stays active with a level that changes nothing. -/
def Idle (peak : ℚ) : Prop :=
  q.initialRisk ≤ 0 ∨
    (q.breakevenAlreadyActivated = false ∧
      profitR q.action q.entryPrice peak q.initialRisk < profile.breakevenR) ∨
    (q.breakevenAlreadyActivated = true ∧
      ∀ level ∈ (breakevenAt config.toChandelierConfig q profile peak).1,
        AddsNothing config q profile peak level)

/-- Breakeven is on, one of the first two rules fires, or the breakeven rule has nothing to
say at the peak that decides. -/
def BreakevenSilent : Prop :=
  config.breakevenEnabled = true ∨ (initialStop q).isSome = true ∨
    (hardTakeProfit config q).isSome = true ∨
    Idle config q profile
      (if trailingReached config.toChandelierConfig q profile then openingPeak q else q.peakPrice)

end Silence

theorem stopReached_of_atLeast {action : Direction} {barHigh barLow old new : ℚ}
    (h : action.AtLeast old new) (hreached : stopReached action barHigh barLow old = true) :
    stopReached action barHigh barLow new = true := by
  cases action with
  | buy => exact decide_eq_true ((of_decide_eq_true hreached).trans h)
  | sell => exact decide_eq_true (le_trans h (of_decide_eq_true hreached))

section Merge

variable (action : Direction) (stop : ℚ) (chandelierSl : Option ℚ) (level : ℚ)

/-- One more level is taken when it is better than the others. -/
theorem tightestStop_some :
    tightestStop action stop chandelierSl (some level) =
      if action.better (tightestStop action stop chandelierSl none) level then level
      else tightestStop action stop chandelierSl none := by
  cases action with
  | buy =>
    have hmax : tightestStop .buy stop chandelierSl (some level) =
        max (tightestStop .buy stop chandelierSl none) level := by
      simp [tightestStop, List.foldl_append]
    rw [hmax]
    split_ifs with hbetter
    · exact max_eq_right (of_decide_eq_true hbetter).le
    · exact max_eq_left (not_lt.mp fun hlt => hbetter (decide_eq_true hlt))
  | sell =>
    have hmin : tightestStop .sell stop chandelierSl (some level) =
        min (tightestStop .sell stop chandelierSl none) level := by
      simp [tightestStop, List.foldl_append]
    rw [hmin]
    split_ifs with hbetter
    · exact min_eq_right (of_decide_eq_true hbetter).le
    · exact min_eq_left (not_lt.mp fun hlt => hbetter (decide_eq_true hlt))

/-- Without the breakeven level the tightest stop is at least the current one. -/
theorem atLeast_tightestStop_none :
    action.AtLeast stop (tightestStop action stop chandelierSl none) := by
  cases action with
  | buy =>
    cases chandelierSl with
    | none => exact le_refl stop
    | some first => exact le_max_left stop first
  | sell =>
    cases chandelierSl with
    | none => exact le_refl stop
    | some first => exact min_le_left stop first

theorem better_trans {a b c : ℚ} (hab : action.AtLeast a b) (hbc : action.better b c = true) :
    action.better a c = true := by
  cases action with
  | buy => exact decide_eq_true (lt_of_le_of_lt hab (of_decide_eq_true hbc))
  | sell => exact decide_eq_true (lt_of_lt_of_le (of_decide_eq_true hbc) hab)

/-- Adding a level leaves the new stop as it is exactly when the level is not tighter than the
others or is rounded to the same stop. -/
theorem mergeTrailingSl_some_iff :
    mergeTrailingSl action stop chandelierSl (some level) =
        mergeTrailingSl action stop chandelierSl none ↔
      action.better (tightestStop action stop chandelierSl none) level = false ∨
        (action.better stop (tightestStop action stop chandelierSl none) = true ∧
          round level 2 = round (tightestStop action stop chandelierSl none) 2) := by
  have hat := atLeast_tightestStop_none action stop chandelierSl
  unfold mergeTrailingSl
  rw [tightestStop_some]
  cases hbetter : action.better (tightestStop action stop chandelierSl none) level with
  | false => simp
  | true =>
    have hfrom : action.better stop level = true := better_trans action hat hbetter
    by_cases hbase : action.better stop (tightestStop action stop chandelierSl none) = true
    · simp [hfrom, hbase]
    · simp [hfrom, hbase]

end Merge

section Breakeven

variable (config : ChandelierConfig) (q : ExitQuery) (profile : ExitProfile) (peak : ℚ)

theorem breakevenAt_of_no_risk (hrisk : q.initialRisk ≤ 0) :
    breakevenAt config q profile peak = (none, q.breakevenAlreadyActivated) := by
  unfold breakevenAt computeBreakevenSl
  rw [if_pos hrisk]

theorem breakevenAt_of_below (hrisk : ¬q.initialRisk ≤ 0)
    (hactive : ¬(q.breakevenAlreadyActivated = true ∨
      profile.breakevenR ≤ profitR q.action q.entryPrice peak q.initialRisk)) :
    breakevenAt config q profile peak = (none, false) := by
  unfold breakevenAt computeBreakevenSl
  rw [if_neg hrisk]
  dsimp only
  rw [if_neg hactive]

theorem breakevenAt_of_active (hrisk : ¬q.initialRisk ≤ 0)
    (hactive : q.breakevenAlreadyActivated = true ∨
      profile.breakevenR ≤ profitR q.action q.entryPrice peak q.initialRisk) :
    ∃ level, breakevenAt config q profile peak = (some level, true) := by
  unfold breakevenAt computeBreakevenSl
  rw [if_neg hrisk]
  dsimp only
  rw [if_pos hactive]
  cases q.action with
  | buy => exact ⟨_, rfl⟩
  | sell => exact ⟨_, rfl⟩

end Breakeven

section Idle

variable (config : RuleConfig) (q : ExitQuery) (profile : ExitProfile) (peak : ℚ)

/-- The rule has nothing to say exactly when the code that follows it leaves the flag and the
new stop as they are without it. -/
theorem idle_iff :
    Idle config q profile peak ↔
      trailingSl config.toChandelierConfig q profile peak =
          mergeTrailingSl q.action q.currentStopLoss
            (chandelierAt config.toChandelierConfig q profile peak) none ∧
        (breakevenAt config.toChandelierConfig q profile peak).2 = q.breakevenAlreadyActivated := by
  unfold Idle trailingSl
  by_cases hrisk : q.initialRisk ≤ 0
  · simp [hrisk, breakevenAt_of_no_risk config.toChandelierConfig q profile peak hrisk]
  · by_cases hactive : q.breakevenAlreadyActivated = true ∨
        profile.breakevenR ≤ profitR q.action q.entryPrice peak q.initialRisk
    · obtain ⟨level, hlevel⟩ :=
        breakevenAt_of_active config.toChandelierConfig q profile peak hrisk hactive
      rw [hlevel]
      dsimp only
      rw [mergeTrailingSl_some_iff]
      cases halready : q.breakevenAlreadyActivated with
      | true => simp [hrisk, AddsNothing]
      | false =>
        have hpeak : profile.breakevenR ≤ profitR q.action q.entryPrice peak q.initialRisk := by
          simpa [halready] using hactive
        simp [hrisk, not_lt.mpr hpeak]
    · rw [breakevenAt_of_below config.toChandelierConfig q profile peak hrisk hactive]
      rw [not_or, not_le, Bool.not_eq_true] at hactive
      simp [hrisk, hactive.1, hactive.2]

end Idle

section Off

variable (config : RuleConfig) (q : ExitQuery) (profile : ExitProfile) (peak : ℚ)

theorem trailed_off (hoff : config.breakevenEnabled = false) :
    trailed config q profile peak =
      mergeTrailingSl q.action q.currentStopLoss
        (chandelierAt config.toChandelierConfig q profile peak) none := by
  unfold trailed breakevenRule
  rw [hoff]
  rfl

theorem breakevenRule_off (hoff : config.breakevenEnabled = false) :
    (breakevenRule config q profile peak).2 = q.breakevenAlreadyActivated := by
  unfold breakevenRule
  rw [hoff]
  rfl

theorem trailed_on (hon : config.breakevenEnabled = true) :
    trailed config q profile peak = trailingSl config.toChandelierConfig q profile peak := by
  unfold trailed breakevenRule
  rw [if_pos hon]
  rfl

theorem breakevenRule_on (hon : config.breakevenEnabled = true) :
    breakevenRule config q profile peak = breakevenAt config.toChandelierConfig q profile peak :=
  if_pos hon

/-- A stop that is met without the breakeven level is met with it. -/
theorem reached_of_trailed (hoff : config.breakevenEnabled = false)
    (hstop : q.stopReachedAt q.currentStopLoss = false)
    (h : q.stopReachedAt ((trailed config q profile peak).getD q.currentStopLoss) = true) :
    q.stopReachedAt
      ((trailingSl config.toChandelierConfig q profile peak).getD q.currentStopLoss) = true := by
  rw [trailed_off config q profile peak hoff] at h
  simp only [mergeTrailingSl] at h
  split_ifs at h with hbase
  · unfold trailingSl mergeTrailingSl
    cases (breakevenAt config.toChandelierConfig q profile peak).1 with
    | none =>
      rw [if_pos hbase]
      exact h
    | some level =>
      rw [tightestStop_some]
      by_cases hbetter : q.action.better (tightestStop q.action q.currentStopLoss
          (chandelierAt config.toChandelierConfig q profile peak) none) level = true
      · have hfrom : q.action.better q.currentStopLoss level = true :=
          better_trans q.action (Direction.atLeast_of_better hbase) hbetter
        rw [if_pos hbetter, if_pos hfrom]
        exact stopReached_of_atLeast ((Direction.atLeast_of_better hbetter).round 2) h
      · rw [if_neg hbetter, if_pos hbase]
        exact h
  · rw [Option.getD_none, hstop] at h
    cases h

end Off

section Tail

variable (config : RuleConfig) (q : ExitQuery) (profile : ExitProfile)

/-- The rules after the first two. -/
def lastRules : ExitCheckResult :=
  ([trailingStop config q profile, signalReversal config q profile,
    timedOut config q profile].findSome? id).getD (held config q profile)

/-- The last rules in the shape of the code. -/
theorem lastRules_eq :
    lastRules config q profile =
      if q.stopReachedAt ((trailed config q profile (openingPeak q)).getD q.currentStopLoss) then
        ⟨true, some .trailingStop, trailed config q profile (openingPeak q), round q.rMultiple 4,
          (breakevenRule config q profile (openingPeak q)).2⟩
      else
        ⟨(activeExit config.toChandelierConfig q profile).isSome,
          activeExit config.toChandelierConfig q profile, trailed config q profile q.peakPrice,
          round q.rMultiple 4, (breakevenRule config q profile q.peakPrice).2⟩ := by
  unfold lastRules trailingStop signalReversal timedOut activeExit
  dsimp only
  by_cases htrail :
      q.stopReachedAt ((trailed config q profile (openingPeak q)).getD q.currentStopLoss) = true
  · rw [if_pos htrail, if_pos htrail]
    rfl
  · rw [if_neg htrail, if_neg htrail]
    by_cases hsignal : config.signalExitEnabled = true ∧ q.recentSignalDirs ≠ [] ∧
        0 ≤ q.rMultiple ∧
          checkSignalReversal q.action q.recentSignalDirs config.signalExitConfirmationBars = true
    · rw [if_pos hsignal, if_pos hsignal]
      rfl
    · rw [if_neg hsignal, if_neg hsignal]
      split_ifs
      · rfl
      · rfl

/-- With breakeven on the last rules are the code's. -/
theorem lastRules_on (hon : config.breakevenEnabled = true) :
    lastRules config q profile = evaluateTrailing config.toChandelierConfig q profile := by
  rw [lastRules_eq]
  simp only [trailed_on config q profile _ hon, breakevenRule_on config q profile _ hon]
  rfl

/-- With breakeven off the last rules are the code's exactly when the rule has nothing to say
at the peak that decides. -/
theorem lastRules_off_iff (hoff : config.breakevenEnabled = false)
    (hstop : q.stopReachedAt q.currentStopLoss = false) :
    evaluateTrailing config.toChandelierConfig q profile = lastRules config q profile ↔
      Idle config q profile
        (if trailingReached config.toChandelierConfig q profile then openingPeak q
          else q.peakPrice) := by
  rw [lastRules_eq, idle_iff]
  simp only [breakevenRule_off config q profile _ hoff, ← trailed_off config q profile _ hoff]
  unfold evaluateTrailing
  cases hreached : trailingReached config.toChandelierConfig q profile with
  | true =>
    simp only [if_true]
    have hin : q.stopReachedAt ((trailingSl config.toChandelierConfig q profile
        (openingPeak q)).getD q.currentStopLoss) = true := hreached
    by_cases hwithout :
        q.stopReachedAt ((trailed config q profile (openingPeak q)).getD q.currentStopLoss) = true
    · rw [if_pos hwithout, ExitCheckResult.mk.injEq]
      simp [openingPeak]
    · -- only the breakeven level is reached, so the two results differ in their reason
      rw [if_neg hwithout, ExitCheckResult.mk.injEq]
      refine iff_of_false ?_ ?_
      · rintro ⟨-, hreason, -⟩
        rcases activeExit_cases config.toChandelierConfig q profile with h | h | h
        · rw [h] at hreason
          cases hreason
        · rw [h] at hreason
          cases hreason
        · rw [h] at hreason
          cases hreason
      · rintro ⟨hsame, -⟩
        rw [hsame] at hin
        exact hwithout hin
  | false =>
    have hout : ¬q.stopReachedAt
        ((trailed config q profile (openingPeak q)).getD q.currentStopLoss) = true := by
      intro hwithout
      have hin := reached_of_trailed config q profile (openingPeak q) hoff hstop hwithout
      have hnot : q.stopReachedAt ((trailingSl config.toChandelierConfig q profile
          (openingPeak q)).getD q.currentStopLoss) = false := hreached
      rw [hin] at hnot
      cases hnot
    simp only [Bool.false_eq_true, if_false]
    rw [if_neg hout, ExitCheckResult.mk.injEq]
    simp

end Tail

section Decision

variable (config : RuleConfig) (q : ExitQuery) (profile : ExitProfile)

/-- The first two rules decide before the others. -/
theorem applyRules_eq :
    applyRules config q profile =
      match initialStop q with
      | some result => result
      | none =>
        match hardTakeProfit config q with
        | some result => result
        | none => lastRules config q profile := by
  unfold applyRules rules
  cases initialStop q with
  | some result => rfl
  | none =>
    cases hardTakeProfit config q with
    | some result => rfl
    | none => rfl

theorem evaluateChandelier_eq_rules_iff :
    evaluateChandelier config.toChandelierConfig q profile = applyRules config q profile ↔
      BreakevenSilent config q profile := by
  rw [applyRules_eq]
  unfold BreakevenSilent
  have hcode : evaluateChandelier config.toChandelierConfig q profile =
      match initialStop q with
      | some result => result
      | none =>
        match hardTakeProfit config q with
        | some result => result
        | none => evaluateTrailing config.toChandelierConfig q profile := rfl
  rw [hcode]
  cases hinitial : initialStop q with
  | some result => simp
  | none =>
    cases htarget : hardTakeProfit config q with
    | some result => simp
    | none =>
      have hstop : q.stopReachedAt q.currentStopLoss = false := by
        unfold initialStop checkInitialSl at hinitial
        rw [ExitQuery.stopReachedAt]
        simpa using hinitial
      simp only [Option.isSome_none, Bool.false_eq_true, false_or]
      cases hon : config.breakevenEnabled with
      | true => simp [lastRules_on config q profile hon]
      | false => simpa [hon] using lastRules_off_iff config q profile hon hstop

end Decision

/-- In chandelier mode the code does what the list of rules says exactly when breakeven is on
or has nothing to say. -/
theorem evaluateExit_eq_documented_iff (config : RuleConfig) (q : ExitQuery)
    (hmode : q.exitSpec.isBarrier = false) :
    evaluateExit config.toChandelierConfig q = documentedExit config q ↔
      ∀ profile ∈ exitProfile config.toChandelierConfig q, BreakevenSilent config q profile := by
  unfold evaluateExit documentedExit
  rw [hmode, if_neg Bool.false_ne_true]
  cases hprofile : exitProfile config.toChandelierConfig q with
  | none => simp
  | some profile => simpa using evaluateChandelier_eq_rules_iff config q profile

/-- A buy that is two risks in profit, on a bar that stays above its entry. -/
def twoRisksUp : ExitQuery where
  action := .buy
  entryPrice := 2000
  barHigh := 2010
  barLow := 2006
  barClose := 2008
  currentStopLoss := 1995
  initialRisk := 5
  peakPrice := 2010
  currentAtr := 0
  peakPriceAtBarOpen := some 2010

theorem evaluateExit_eq_documented_twoRisksUp :
    evaluateExit {} twoRisksUp = documentedExit {} twoRisksUp ↔
      ∀ profile ∈ exitProfile {} twoRisksUp, BreakevenSilent {} twoRisksUp profile :=
  evaluateExit_eq_documented_iff {} twoRisksUp (by decide +kernel)

/-- With breakeven off the stop is still moved to the locked profit. -/
theorem breakeven_moves_stop_when_off :
    ¬∀ (config : RuleConfig) (q : ExitQuery), q.exitSpec.isBarrier = false →
        evaluateExit config.toChandelierConfig q = documentedExit config q := by
  intro h
  have hdiffers : evaluateExit {} twoRisksUp ≠
      documentedExit { breakevenEnabled := false } twoRisksUp := by decide +kernel
  exact hdiffers (h { breakevenEnabled := false } twoRisksUp (by decide +kernel))

theorem maxTpR_pos_of_checkHardTp {action : Direction}
    {entryPrice barHigh barLow initialRisk maxTpR : ℚ}
    (h : (checkHardTp action entryPrice barHigh barLow initialRisk maxTpR).isSome = true) :
    0 < maxTpR := by
  by_contra hoff
  unfold checkHardTp at h
  dsimp only at h
  rw [if_pos (Or.inr (not_lt.mp hoff))] at h
  cases h

theorem switched_on_of_activeExit {config : ChandelierConfig} {q : ExitQuery}
    {profile : ExitProfile} {reason : CloseReason}
    (h : activeExit config q profile = some reason) :
    (reason = .signalExit ∧ config.signalExitEnabled = true) ∨
      (reason = .timeout ∧ 0 < config.timeoutBars) := by
  unfold activeExit at h
  split_ifs at h with hsignal htimeout
  · exact Or.inl ⟨(Option.some.inj h).symm, hsignal.1⟩
  · exact Or.inr ⟨(Option.some.inj h).symm, htimeout.1⟩

/-- The other switches are honoured: a rule that is off closes nothing. -/
theorem switched_on_of_closes {config : ChandelierConfig} {q : ExitQuery} {profile : ExitProfile}
    {reason : CloseReason} (h : (evaluateChandelier config q profile).closeReason = some reason) :
    (reason = .signalExit → config.signalExitEnabled = true) ∧
      (reason = .timeout → 0 < config.timeoutBars) ∧ (reason = .takeProfit → 0 < config.maxTpR) := by
  cases hstop : q.stopReachedAt q.currentStopLoss with
  | true =>
    rw [evaluateChandelier_of_stop config q profile hstop] at h
    obtain rfl := Option.some.inj h
    simp
  | false =>
    cases htarget : (checkHardTp q.action q.entryPrice q.barHigh q.barLow q.initialRisk
        config.maxTpR).isSome with
    | true =>
      rw [evaluateChandelier_of_target config q profile hstop htarget] at h
      obtain rfl := Option.some.inj h
      simpa using maxTpR_pos_of_checkHardTp htarget
    | false =>
      rw [evaluateChandelier_of_trail config q profile hstop htarget] at h
      unfold evaluateTrailing at h
      split_ifs at h
      · obtain rfl := Option.some.inj h
        simp
      · rcases switched_on_of_activeExit h with ⟨rfl, hon⟩ | ⟨rfl, hon⟩
        · simpa using hon
        · simpa using hon

end MT5Services.ExitSwitches
