import MT5Services.SignalConfidence

/-!
What the runtime does to the confidence after the evaluation. An intrabar decision decays, a
buy or sell decays further near an economic event, and without such an event a positive
confidence is lifted to the floor, whatever the affinity of the strategy to the regime was.
-/
namespace MT5Services.ConfidenceAdjustments

open SignalConfidence SignalStates
open SignalQueues (Scope)

structure SignalRuntime where
  service : SignalModule := {}
  strategyIntrabarDecay : Dict String ℚ := Dict.empty
  intrabarConfidenceFactor : ℚ := 85 / 100
  /-- `decay_factor` of the economic decay service, when there is one. -/
  decayFactor : Option (String → ℚ → ℚ) := none

def applyIntrabarDecay (decision : SignalDecision) (scope : Scope) (decay : ℚ) : SignalDecision :=
  if scope ≠ .intrabar ∨ 1 ≤ decay then decision
  else { decision with confidence := decision.confidence * decay }

section Adjustments

variable (r : SignalRuntime) (decision : SignalDecision) (symbol strategy : String)
  (scope : Scope) (eventTime : ℚ)

def intrabarDecayed : SignalDecision :=
  if scope = .intrabar then
    applyIntrabarDecay decision scope
      ((r.strategyIntrabarDecay.get? strategy).getD r.intrabarConfidenceFactor)
  else decision

def eventDecay : ℚ :=
  match r.decayFactor with
  | some decayFactor => decayFactor symbol eventTime
  | none => 1

/-- True when the decay is applied. -/
def economicDecayed : SignalDecision × Bool :=
  if 0 < decision.confidence ∧ decision.direction.isSome then
    let eventDecay := eventDecay r symbol eventTime
    if eventDecay < 1 then
      let adjusted := decision.confidence * eventDecay
      ({ decision with
          confidence := adjusted
          confidenceTrace := decision.confidenceTrace ++
            [("economic_event_decay", PyNumber.round adjusted 4)] }, true)
    else (decision, false)
  else (decision, false)

def applyConfidenceAdjustments : SignalDecision :=
  let decayed := economicDecayed r (intrabarDecayed r decision strategy scope) symbol eventTime
  if 0 < decayed.1.confidence ∧ decayed.1.direction.isSome ∧ decayed.2 = false ∧
      decayed.1.confidence < r.service.confidenceFloor then
    { decayed.1 with confidence := r.service.confidenceFloor }
  else decayed.1

/-- What an intrabar decay scales by. -/
def intrabarFactor : ℚ :=
  if scope = .intrabar then
    min 1 ((r.strategyIntrabarDecay.get? strategy).getD r.intrabarConfidenceFactor)
  else 1

/-- The floor of the runtime is taken. -/
def Lifts : Prop :=
  decision.direction.isSome = true ∧ 1 ≤ eventDecay r symbol eventTime ∧
    0 < decision.confidence * intrabarFactor r strategy scope ∧
      decision.confidence * intrabarFactor r strategy scope < r.service.confidenceFloor

end Adjustments

section Decays

variable {r : SignalRuntime} {decision : SignalDecision} {symbol strategy : String}
  {scope : Scope} {eventTime : ℚ}

theorem intrabarFactor_le_one : intrabarFactor r strategy scope ≤ 1 := by
  unfold intrabarFactor
  split
  · exact min_le_left _ _
  · exact le_rfl

theorem intrabarDecayed_eq :
    intrabarDecayed r decision strategy scope =
      { decision with
        confidence := decision.confidence * intrabarFactor r strategy scope } := by
  unfold intrabarDecayed intrabarFactor applyIntrabarDecay
  by_cases hscope : scope = .intrabar
  · simp only [hscope, if_true, ne_eq, not_true, false_or]
    split
    · rename_i hdecay
      rw [min_eq_left hdecay, mul_one]
    · rename_i hdecay
      rw [min_eq_right (not_le.mp hdecay).le]
  · simp only [hscope, if_false, mul_one]

/-- The confidence after both decays. -/
theorem economicDecayed_confidence :
    (economicDecayed r decision symbol eventTime).1.confidence =
      if 0 < decision.confidence ∧ decision.direction.isSome = true then
        decision.confidence * min 1 (eventDecay r symbol eventTime)
      else decision.confidence := by
  unfold economicDecayed
  split
  · simp only
    split
    · rename_i hdecay
      rw [min_eq_right hdecay.le]
    · rename_i hdecay
      rw [min_eq_left (not_lt.mp hdecay), mul_one]
  · rfl

theorem economicDecayed_direction :
    (economicDecayed r decision symbol eventTime).1.direction = decision.direction := by
  unfold economicDecayed
  split
  · simp only
    split <;> rfl
  · rfl

theorem economicDecayed_applied_iff :
    (economicDecayed r decision symbol eventTime).2 = true ↔
      (0 < decision.confidence ∧ decision.direction.isSome = true) ∧
        eventDecay r symbol eventTime < 1 := by
  unfold economicDecayed
  split
  · rename_i h
    simp only
    split
    · rename_i hdecay
      simp [h, hdecay]
    · rename_i hdecay
      simp [hdecay]
  · rename_i h
    simp [h]

/-- The branch of the floor in terms of what comes in. -/
theorem lifts_iff :
    Lifts r decision symbol strategy scope eventTime ↔
      let decayed := economicDecayed r (intrabarDecayed r decision strategy scope) symbol eventTime
      0 < decayed.1.confidence ∧ decayed.1.direction.isSome = true ∧ decayed.2 = false ∧
        decayed.1.confidence < r.service.confidenceFloor := by
  simp only [economicDecayed_confidence, economicDecayed_direction, intrabarDecayed_eq,
    ← Bool.not_eq_true, economicDecayed_applied_iff, Lifts]
  constructor
  · rintro ⟨hside, hevent, hpos, hlow⟩
    rw [if_pos ⟨hpos, hside⟩, min_eq_left hevent, mul_one]
    exact ⟨hpos, hside, fun happlied => not_lt.mpr hevent happlied.2, hlow⟩
  · rintro ⟨hpos, hside, hnone, hlow⟩
    by_cases hkept : 0 < decision.confidence * intrabarFactor r strategy scope
    · have hevent : 1 ≤ eventDecay r symbol eventTime :=
        not_lt.mp fun hdecay => hnone ⟨⟨hkept, hside⟩, hdecay⟩
      rw [if_pos ⟨hkept, hside⟩, min_eq_left hevent, mul_one] at hlow
      exact ⟨hside, hevent, hkept, hlow⟩
    · rw [if_neg fun h => hkept h.1] at hpos
      exact absurd hpos hkept

/-- Only the floor of the runtime takes the confidence above what the decays leave. -/
theorem adjusted_le_iff :
    (applyConfidenceAdjustments r decision symbol strategy scope eventTime).confidence ≤
        (economicDecayed r (intrabarDecayed r decision strategy scope) symbol
          eventTime).1.confidence ↔
      ¬Lifts r decision symbol strategy scope eventTime := by
  rw [lifts_iff, applyConfidenceAdjustments]
  simp only
  split
  · rename_i htaken
    simp only [htaken, not_le, and_self, not_true, iff_false]
  · rename_i hnot
    simp only [hnot, not_false_eq_true, le_refl]

theorem adjusted_of_not_lifts (h : ¬Lifts r decision symbol strategy scope eventTime) :
    applyConfidenceAdjustments r decision symbol strategy scope eventTime =
      (economicDecayed r (intrabarDecayed r decision strategy scope) symbol eventTime).1 := by
  rw [lifts_iff] at h
  exact if_neg h

end Decays

section Veto

variable (root : ℚ → ℚ) (r : SignalRuntime) (context : EvaluationContext)
  (decision : SignalDecision) (scope : Scope) (eventTime : ℚ)

/-- The decision after both stages. -/
def finalDecision : SignalDecision :=
  applyConfidenceAdjustments r (evaluate root r.service context decision).1 decision.symbol
    decision.strategy scope eventTime

/-- The final confidence is at most the product of raw confidence, affinity, performance
multiplier and calibration, and no floor has lifted it. -/
def VetoFinal : Prop :=
  (finalDecision root r context decision scope eventTime).confidence ≤
      decision.confidence * share root r.service context decision ∧
    (finalDecision root r context decision scope eventTime).confidence ≤
      (economicDecayed r (intrabarDecayed r (evaluate root r.service context decision).1
        decision.strategy scope) decision.symbol eventTime).1.confidence

/-- What the decays leave of one unit of a positive confidence. -/
def remainder : ℚ :=
  let factor := intrabarFactor r decision.strategy scope
  if 0 < factor then factor * min 1 (eventDecay r decision.symbol eventTime) else factor

/-- The confidence that the runtime is given: the raw one below the threshold, else the answer of
the calibrator. -/
def entering : ℚ :=
  if BelowRaw context decision then decision.confidence
  else
    calibrated r.service context decision (decision.confidence *
      affinity r.service context decision * perfMultiplier root r.service context decision)

/-- The decays take as much as the scaling would have where there was none, and the runtime does
not lift what is left. -/
structure Suppressed : Prop where
  below : BelowRaw context decision →
    remainder r decision scope eventTime ≤ share root r.service context decision
  scaled : ¬BelowRaw context decision → 0 ≤ share root r.service context decision ∨
    (calibration r.service context decision = none ∧ intrabarFactor r decision.strategy scope = 1)
  low : ¬(decision.direction.isSome = true ∧ 1 ≤ eventDecay r decision.symbol eventTime ∧
    0 < entering root r context decision * intrabarFactor r decision.strategy scope ∧
      entering root r context decision * intrabarFactor r decision.strategy scope <
        r.service.confidenceFloor)

variable {root r context decision scope eventTime}

theorem evaluate_direction :
    (evaluate root r.service context decision).1.direction = decision.direction := by
  unfold evaluate
  split <;> rfl

theorem evaluate_of_veto
    (hveto : affinity r.service context decision < r.service.confidenceFloorMinAffinity) :
    (evaluate root r.service context decision).1.confidence =
      entering root r context decision := by
  unfold entering
  split
  · rename_i hbelow
    rw [evaluate_of_below hbelow]
  · rename_i henough
    rw [evaluate_of_enough henough, calibrated_eq, lifted, if_neg]
    intro htaken
    exact not_le.mpr hveto (of_decide_eq_true htaken.2.2)

theorem entering_zero (hraw : decision.confidence = 0) : entering root r context decision = 0 := by
  unfold entering
  split
  · exact hraw
  · rw [calibrated_eq, hraw, scaled_zero]

/-- The decays with the signs told apart. -/
theorem decayed_eq
    (hveto : affinity r.service context decision < r.service.confidenceFloorMinAffinity) :
    (economicDecayed r (intrabarDecayed r (evaluate root r.service context decision).1
        decision.strategy scope) decision.symbol eventTime).1.confidence =
      let faded := entering root r context decision * intrabarFactor r decision.strategy scope
      if 0 < faded ∧ decision.direction.isSome = true then
        faded * min 1 (eventDecay r decision.symbol eventTime)
      else faded := by
  simp only [economicDecayed_confidence, intrabarDecayed_eq, evaluate_of_veto hveto,
    evaluate_direction]

/-- Below the threshold the decays are all that the confidence meets. -/
theorem decayed_below (hbelow : BelowRaw context decision) (hpos : 0 < decision.confidence) :
    (let faded := entering root r context decision * intrabarFactor r decision.strategy scope
      if 0 < faded ∧ decision.direction.isSome = true then
        faded * min 1 (eventDecay r decision.symbol eventTime)
      else faded) = decision.confidence * remainder r decision scope eventTime := by
  simp only [entering, if_pos hbelow, hbelow.1, and_true, mul_pos_iff_of_pos_left hpos, remainder]
  split
  · rw [mul_assoc]
  · rfl

/-- An economic decay never raises a confidence, nor does it take one below zero. -/
theorem economic_le {faded event : ℚ} {actionable : Bool} :
    (if 0 < faded ∧ actionable = true then faded * min 1 event else faded) ≤ faded := by
  split
  · rename_i h
    exact mul_le_of_le_one_right h.1.le (min_le_left _ _)
  · exact le_rfl

theorem economic_nonneg {faded event : ℚ} {actionable : Bool} (hevent : 0 ≤ event)
    (hfaded : 0 ≤ faded) :
    0 ≤ if 0 < faded ∧ actionable = true then faded * min 1 event else faded := by
  split
  · exact mul_nonneg hfaded (le_min zero_le_one hevent)
  · exact hfaded

/-- From the threshold on the product is only exceeded when it is negative: zero, which the
calibrator gives instead, or a decay, lies above it. -/
theorem decayed_enough (henough : ¬BelowRaw context decision) (hpos : 0 < decision.confidence)
    (hevent : 0 ≤ eventDecay r decision.symbol eventTime) :
    (let faded := entering root r context decision * intrabarFactor r decision.strategy scope
      if 0 < faded ∧ decision.direction.isSome = true then
        faded * min 1 (eventDecay r decision.symbol eventTime)
      else faded) ≤ decision.confidence * share root r.service context decision ↔
      0 ≤ share root r.service context decision ∨
        (calibration r.service context decision = none ∧
          intrabarFactor r decision.strategy scope = 1) := by
  have hone : intrabarFactor r decision.strategy scope ≤ 1 := intrabarFactor_le_one
  simp only [entering, if_neg henough, calibrated_eq]
  generalize intrabarFactor r decision.strategy scope = factor at hone ⊢
  generalize eventDecay r decision.symbol eventTime = event at hevent ⊢
  generalize share root r.service context decision = scale
  constructor
  · intro hle
    by_contra hnot
    obtain ⟨hneg, hkept⟩ := not_or.mp hnot
    have hproduct : decision.confidence * scale < 0 :=
      mul_neg_of_pos_of_neg hpos (not_le.mp hneg)
    cases hcalibration : calibration r.service context decision with
    | some answer =>
      have hzero : scaled scale true decision.confidence = 0 := by
        rw [scaled, if_pos rfl]
        exact max_eq_left ((min_le_right _ _).trans hproduct.le)
      simp only [hcalibration, Option.isSome_some, hzero, zero_mul, lt_irrefl, false_and,
        if_false] at hle
      exact not_le.mpr hproduct hle
    | none =>
      have hfactor : factor < 1 := lt_of_le_of_ne hone fun heq => hkept ⟨hcalibration, heq⟩
      simp only [hcalibration, Option.isSome_none, scaled, Bool.false_eq_true, if_false] at hle
      rcases le_or_gt 0 (decision.confidence * scale * factor) with hnonneg | hfaded
      · exact not_le.mpr hproduct ((economic_nonneg hevent hnonneg).trans hle)
      · rw [if_neg fun h => not_lt.mpr hfaded.le h.1] at hle
        nlinarith
  · rintro (hscale | ⟨hcalibration, rfl⟩)
    · refine economic_le.trans ?_
      have hproduct := mul_nonneg hpos.le hscale
      have hscaled : scaled scale (calibration r.service context decision).isSome
          decision.confidence ≤ decision.confidence * scale := by
        unfold scaled
        split
        · exact max_le hproduct (min_le_right _ _)
        · exact le_rfl
      exact (mul_le_of_le_one_right (scaled_nonneg (Or.inr hscale) hpos.le) hone).trans hscaled
    · refine economic_le.trans ?_
      rw [hcalibration, scaled, if_neg (by simp), mul_one]

/-- When the veto of the regime is final: the affinity lies below the one that the floor asks
for. -/
theorem vetoFinal_iff
    (hveto : affinity r.service context decision < r.service.confidenceFloorMinAffinity)
    (hraw : 0 ≤ decision.confidence) (hevent : 0 ≤ eventDecay r decision.symbol eventTime) :
    VetoFinal root r context decision scope eventTime ↔
      decision.confidence = 0 ∨ Suppressed root r context decision scope eventTime := by
  have hlifts : Lifts r (evaluate root r.service context decision).1 decision.symbol
      decision.strategy scope eventTime ↔
        decision.direction.isSome = true ∧ 1 ≤ eventDecay r decision.symbol eventTime ∧
          0 < entering root r context decision * intrabarFactor r decision.strategy scope ∧
            entering root r context decision * intrabarFactor r decision.strategy scope <
              r.service.confidenceFloor := by
    rw [Lifts, evaluate_direction, evaluate_of_veto hveto]
  have hsplit : VetoFinal root r context decision scope eventTime ↔
      ¬Lifts r (evaluate root r.service context decision).1 decision.symbol decision.strategy scope
          eventTime ∧
        (economicDecayed r (intrabarDecayed r (evaluate root r.service context decision).1
          decision.strategy scope) decision.symbol eventTime).1.confidence ≤
            decision.confidence * share root r.service context decision := by
    rw [VetoFinal, finalDecision, adjusted_le_iff, and_comm]
    refine and_congr_right fun hnot => ?_
    rw [adjusted_of_not_lifts hnot]
  rw [hsplit, decayed_eq hveto, hlifts]
  rcases hraw.eq_or_lt with hzero | hpos
  · simp [entering_zero hzero.symm, hzero.symm]
  · constructor
    · rintro ⟨hlow, hle⟩
      refine Or.inr ⟨?_, ?_, hlow⟩
      · intro hbelow
        rw [decayed_below hbelow hpos] at hle
        exact le_of_mul_le_mul_left hle hpos
      · intro henough
        exact (decayed_enough henough hpos hevent).mp hle
    · rintro (hzero | h)
      · exact absurd hzero hpos.ne'
      · refine ⟨h.low, ?_⟩
        by_cases hbelow : BelowRaw context decision
        · rw [decayed_below hbelow hpos]
          exact mul_le_mul_of_nonneg_left (h.below hbelow) hpos.le
        · exact (decayed_enough hbelow hpos hevent).mpr (h.scaled hbelow)

end Veto

/-- A regime in which the strategy has an affinity of a tenth. -/
def opposed : EvaluationContext where
  detected := .ranging
  preComputedAffinity := some (1 / 10)

/-- The floor when none is configured. -/
theorem tenth_nonneg : (0 : ℚ) ≤ 1 / 10 := by norm_num

def nearEvent : SignalRuntime where
  service := { floor_nonneg := tenth_nonneg }
  decayFactor := some fun _ _ => 1 / 2

theorem vetoFinal_iff_nearEvent :
    VetoFinal rootOfTwo nearEvent opposed (buy (6 / 10)) .confirmed 0 := by
  apply (vetoFinal_iff (by decide +kernel) (by decide +kernel) (by decide +kernel)).mpr
  refine Or.inr ⟨?_, ?_, ?_⟩
  · exact fun hbelow => absurd hbelow.2 (by decide +kernel)
  · exact fun _ => Or.inl (by decide +kernel)
  · exact fun h => absurd h.2.1 (by decide +kernel)

/-- Without an event the runtime lifts what the veto has left; and below the raw threshold the
veto is not looked at. -/
theorem not_vetoFinal :
    ¬VetoFinal rootOfTwo {} opposed (buy (6 / 10)) .confirmed 0 ∧
      ¬VetoFinal rootOfTwo {} opposed (buy (4 / 10)) .confirmed 0 := by
  constructor
  · intro h
    exact absurd h.1 (by decide +kernel)
  · intro h
    exact absurd h.1 (by decide +kernel)

end MT5Services.ConfidenceAdjustments
