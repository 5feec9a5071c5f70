import MT5Services.PyNumber
import MT5Services.SessionPerformance
import MT5Services.SignalStates
import MT5Services.TradeSizing

/-!
The confidence of a signal. A decision with too little raw confidence leaves as it came. Of the
others the confidence is scaled by the affinity of the strategy to the regime, the performance
multiplier of the session and the calibration by the win rates, and lifted to a floor unless the
affinity is low.
-/
namespace MT5Services.SignalConfidence

open SessionPerformance SignalStates
open TradeSizing (RegimeType)

structure SignalDecision where
  strategy : String
  symbol : String
  timeframe : String
  direction : Option Side
  confidence : ℚ
  confidenceTrace : List (String × ℚ) := []
  deriving DecidableEq, Repr

structure WinRate where
  winRate : ℚ
  sampleCount : ℕ
  deriving DecidableEq, Repr

abbrev WinRateCache := Dict (String × Side × String) WinRate

/-- The calibrator with the win rates it has loaded. Its constructor refuses other alphas. -/
structure ConfidenceCalibrator where
  alpha : ℚ
  alpha_mem : 0 ≤ alpha ∧ alpha ≤ 1
  baselineWinRate : ℚ := 1 / 2
  maxBoost : ℚ := 13 / 10
  minSamples : ℕ := 100
  warmupAlpha : ℚ := 1 / 10
  fullAlphaMinSamples : ℕ := 200
  recencyHours : ℕ := 8
  recencyHoursByTf : Dict String ℕ := Dict.empty
  cache : WinRateCache := Dict.empty
  recentCaches : Dict ℕ WinRateCache := Dict.empty
  defaultRecentCache : WinRateCache := Dict.empty

namespace ConfidenceCalibrator

/-- The entry of the regime, else the one of all regimes. -/
def entryOf (cache : WinRateCache) (strategy : String) (action : Side) (regime : RegimeType) :
    Option WinRate :=
  cache.get? (strategy, action, regime.value) <|> cache.get? (strategy, action, "_all")

def getCalibrationFactor (c : ConfidenceCalibrator) (strategy : String) (action : Side)
    (regime : RegimeType) (timeframe : String) : Option ℚ × ℕ :=
  let recencyHours := (c.recencyHoursByTf.get? timeframe).getD c.recencyHours
  let recentCache := (c.recentCaches.get? recencyHours).getD c.defaultRecentCache
  match entryOf c.cache strategy action regime with
  | none => (none, 0)
  | some entry =>
    let factor := min (entry.winRate / max c.baselineWinRate (1 / 1000000)) c.maxBoost
    let declining := (entryOf recentCache strategy action regime).any fun recent =>
      recent.winRate < c.baselineWinRate
    (some (if 1 < factor ∧ declining then 1 else factor), entry.sampleCount)

def resolveAlpha (c : ConfidenceCalibrator) (sampleCount : ℕ) : ℚ :=
  if sampleCount < c.minSamples then 0
  else if sampleCount < max c.minSamples c.fullAlphaMinSamples then
    max 0 (min c.alpha c.warmupAlpha)
  else c.alpha

def calibrate (c : ConfidenceCalibrator) (strategy : String) (action : Side)
    (rawConfidence : ℚ) (regime : RegimeType) (timeframe : String) : ℚ :=
  if c.alpha < 1 / 1000000 then rawConfidence
  else
    match c.getCalibrationFactor strategy action regime timeframe with
    | (none, _) => rawConfidence
    | (some factor, sampleCount) =>
      let effectiveAlpha := c.resolveAlpha sampleCount
      if effectiveAlpha < 1 / 1000000 then rawConfidence
      else max 0 (min 1 (rawConfidence * (1 + (factor - 1) * effectiveAlpha)))

/-- What the calibrator scales by; `none` when it gives its input back. -/
def scaling (c : ConfidenceCalibrator) (strategy : String) (action : Side)
    (regime : RegimeType) (timeframe : String) : Option ℚ :=
  let answer := c.getCalibrationFactor strategy action regime timeframe
  let effectiveAlpha := c.resolveAlpha answer.2
  if c.alpha < 1 / 1000000 ∨ effectiveAlpha < 1 / 1000000 then none
  else answer.1.map fun factor => 1 + (factor - 1) * effectiveAlpha

end ConfidenceCalibrator

structure SoftRegimeResult where
  dominantRegime : RegimeType
  probabilities : Dict RegimeType ℚ

def SoftRegimeResult.probability (soft : SoftRegimeResult) (regime : RegimeType) : ℚ :=
  (soft.probabilities.get? regime).getD 0

/-- `_effective_affinity`. -/
def effectiveAffinity (affinityMap : Dict RegimeType ℚ) (regime : RegimeType)
    (soft : Option SoftRegimeResult) : ℚ :=
  match soft with
  | some soft =>
    ([.trending, .ranging, .breakout, .uncertain].map fun item =>
      soft.probability item * (affinityMap.get? item).getD (1 / 2)).sum
  | none => (affinityMap.get? regime).getD (1 / 2)

structure SignalModule where
  performanceTracker : Option StrategyPerformanceTracker := none
  calibrator : Option ConfidenceCalibrator := none
  /-- `regime_affinity` of the registered strategies. -/
  regimeAffinity : Dict String (Dict RegimeType ℚ) := Dict.empty
  confidenceFloor : ℚ := 1 / 10
  confidenceFloorMinAffinity : ℚ := 15 / 100
  floor_nonneg : 0 ≤ confidenceFloor := by norm_num

/-- What `evaluate` reads of the metadata and the indicators. -/
structure EvaluationContext where
  minRawConfidence : ℚ := 45 / 100
  softRegime : Option SoftRegimeResult := none
  /-- The regime the runtime has computed before. -/
  regimeHard : Option RegimeType := none
  /-- What the detector says of the indicators. -/
  detected : RegimeType
  preComputedAffinity : Option ℚ := none

def EvaluationContext.regime (context : EvaluationContext) : RegimeType :=
  match context.softRegime with
  | some soft => soft.dominantRegime
  | none => context.regimeHard.getD context.detected

/-- The metadata that `evaluate` adds. -/
structure ConfidenceMetadata where
  regime : RegimeType
  regimeAffinity : ℚ
  rawConfidence : ℚ
  postAffinityConfidence : ℚ
  postPerformanceConfidence : ℚ
  sessionPerformanceMultiplier : ℚ
  calibrated : Bool
  deriving DecidableEq, Repr

section Evaluate

-- `x ** 0.5` of the performance tracker
variable (root : ℚ → ℚ) (m : SignalModule) (context : EvaluationContext)
  (decision : SignalDecision)

def affinity : ℚ :=
  match context.preComputedAffinity with
  | some affinity => max 0 (min affinity 1)
  | none =>
    effectiveAffinity ((m.regimeAffinity.get? decision.strategy).getD Dict.empty) context.regime
      context.softRegime

def perfMultiplier : ℚ :=
  match m.performanceTracker, decision.direction with
  | some tracker, some _ => getMultiplier root tracker decision.strategy (some context.regime.value)
  | _, _ => 1

def calibrated (postPerformance : ℚ) : ℚ :=
  match m.calibrator, decision.direction with
  | some calibrator, some side =>
    calibrator.calibrate decision.strategy side postPerformance context.regime decision.timeframe
  | _, _ => postPerformance

/-- Buy or sell without enough raw confidence. -/
def BelowRaw : Prop :=
  decision.direction.isSome = true ∧ decision.confidence < context.minRawConfidence

instance : Decidable (BelowRaw context decision) :=
  inferInstanceAs (Decidable (_ ∧ _))

def evaluate : SignalDecision × Option ConfidenceMetadata :=
  if BelowRaw context decision then (decision, none)
  else
    let affinity := affinity m context decision
    let postAffinity := decision.confidence * affinity
    let perfMultiplier := perfMultiplier root m context decision
    let postPerformance := postAffinity * perfMultiplier
    let calibrated := calibrated m context decision postPerformance
    let floored :=
      if 0 < decision.confidence ∧ calibrated < m.confidenceFloor ∧
          m.confidenceFloorMinAffinity ≤ affinity then
        m.confidenceFloor
      else calibrated
    let trace :=
      (if affinity ≠ 1 then [("regime_affinity", PyNumber.round postAffinity 4)] else []) ++
      (if perfMultiplier ≠ 1 then [("performance", PyNumber.round postPerformance 4)] else []) ++
      (if floored ≠ postPerformance then [("calibrator", PyNumber.round floored 4)] else [])
    ({ decision with
        confidence := floored
        confidenceTrace := decision.confidenceTrace ++ trace },
      some {
        regime := context.regime
        regimeAffinity := affinity
        rawConfidence := decision.confidence
        postAffinityConfidence := postAffinity
        postPerformanceConfidence := postPerformance
        sessionPerformanceMultiplier := perfMultiplier
        calibrated := m.calibrator.isSome && decision.direction.isSome })

/-- What the calibrator scales the decision by; `none` when there is no calibration. -/
def calibration : Option ℚ :=
  match m.calibrator, decision.direction with
  | some calibrator, some side =>
    calibrator.scaling decision.strategy side context.regime decision.timeframe
  | _, _ => none

/-- The product of affinity, performance multiplier and calibration. -/
def share : ℚ :=
  affinity m context decision * perfMultiplier root m context decision *
    (calibration m context decision).getD 1

end Evaluate

theorem ConfidenceCalibrator.calibrate_eq (c : ConfidenceCalibrator) (strategy : String)
    (action : Side) (rawConfidence : ℚ) (regime : RegimeType) (timeframe : String) :
    c.calibrate strategy action rawConfidence regime timeframe =
      match c.scaling strategy action regime timeframe with
      | none => rawConfidence
      | some scale => max 0 (min 1 (rawConfidence * scale)) := by
  unfold calibrate scaling
  by_cases halpha : c.alpha < 1 / 1000000
  · simp only [halpha, if_true, true_or]
  · simp only [halpha, if_false, false_or]
    obtain ⟨factor?, sampleCount⟩ := c.getCalibrationFactor strategy action regime timeframe
    cases factor? with
    | none => simp only [Option.map_none, ite_self]
    | some factor =>
      simp only [Option.map_some]
      split_ifs
      · rfl
      · rfl

section Numbers

/-- The raw confidence times the share, cut to the unit interval by a calibration. -/
def scaled (scale : ℚ) (clamped : Bool) (x : ℚ) : ℚ :=
  if clamped then max 0 (min 1 (x * scale)) else x * scale

/-- The floor for a positive raw confidence. -/
def lifted (floor : ℚ) (revives : Bool) (x confidence : ℚ) : ℚ :=
  if 0 < x ∧ confidence < floor ∧ revives then floor else confidence

variable {floor scale a b : ℚ} {clamped revives : Bool}

theorem scaled_zero : scaled scale clamped 0 = 0 := by
  cases clamped <;> simp [scaled]

theorem scaled_nonneg (hscale : clamped = true ∨ 0 ≤ scale) (ha : 0 ≤ a) :
    0 ≤ scaled scale clamped a := by
  unfold scaled
  split
  · exact le_max_left _ _
  · rename_i hclamped
    exact mul_nonneg ha (hscale.resolve_left hclamped)

theorem scaled_le_one_iff : scaled scale clamped b ≤ 1 ↔ clamped = true ∨ b * scale ≤ 1 := by
  unfold scaled
  cases clamped with
  | true => simp
  | false => simp

theorem scaled_mono (hscale : clamped = true ∨ 0 ≤ scale) (ha : 0 ≤ a) (hab : a ≤ b) :
    scaled scale clamped a ≤ scaled scale clamped b := by
  unfold scaled
  split
  · rcases le_total 0 scale with hnonneg | hneg
    · exact max_le_max le_rfl (min_le_min le_rfl (mul_le_mul_of_nonneg_right hab hnonneg))
    · have hzero {x : ℚ} (hx : 0 ≤ x) : max 0 (min 1 (x * scale)) = 0 :=
        max_eq_left ((min_le_right _ _).trans (mul_nonpos_of_nonneg_of_nonpos hx hneg))
      rw [hzero ha, hzero (ha.trans hab)]
  · rename_i hclamped
    exact mul_le_mul_of_nonneg_right hab (hscale.resolve_left hclamped)

/-- The unit interval cuts nothing off that matters for a lower confidence. -/
theorem le_scaled_iff (ha : 0 ≤ a) (hone : a ≤ 1) :
    a ≤ scaled scale clamped b ↔ a ≤ b * scale ∨ (clamped = true ∧ a = 0) := by
  unfold scaled
  cases clamped with
  | false => simp
  | true =>
    simp only [if_true, le_max_iff, le_min_iff, hone, true_and]
    rw [or_comm]
    exact or_congr_right ⟨fun h => le_antisymm h ha, le_of_eq⟩

theorem le_lifted_iff {confidence : ℚ} :
    a ≤ lifted floor revives b confidence ↔
      a ≤ confidence ∨ (revives = true ∧ 0 < b ∧ a ≤ floor) := by
  unfold lifted
  split
  · rename_i h
    constructor
    · intro hle
      exact Or.inr ⟨h.2.2, h.1, hle⟩
    · rintro (hle | ⟨-, -, hle⟩)
      · exact hle.trans h.2.1.le
      · exact hle
  · rename_i h
    refine ⟨Or.inl, ?_⟩
    rintro (hle | ⟨hrevives, hb, hle⟩)
    · exact hle
    · exact hle.trans (not_lt.mp fun hlt => h ⟨hb, hlt, hrevives⟩)

theorem lifted_le_iff {confidence bound : ℚ} :
    lifted floor revives b confidence ≤ bound ↔
      confidence ≤ bound ∧ (revives = true → 0 < b → floor ≤ bound) := by
  unfold lifted
  split
  · rename_i h
    constructor
    · intro hle
      exact ⟨h.2.1.le.trans hle, fun _ _ => hle⟩
    · intro hboth
      exact hboth.2 h.2.2 h.1
  · rename_i h
    refine ⟨fun hle => ⟨hle, fun hrevives hb => ?_⟩, And.left⟩
    exact (not_lt.mp fun hlt => h ⟨hb, hlt, hrevives⟩).trans hle

theorem lifted_mono {low high : ℚ} (hab : a ≤ b) (hle : low ≤ high) :
    lifted floor revives a low ≤ lifted floor revives b high := by
  rw [lifted_le_iff]
  constructor
  · exact le_lifted_iff.mpr (Or.inl hle)
  · intro hrevives hpos
    exact le_lifted_iff.mpr (Or.inr ⟨hrevives, hpos.trans_le hab, le_rfl⟩)

/-- Nothing makes the result negative: the factors are not, or the calibration or the floor
takes care of it. -/
def NonnegAt (scale : ℚ) (clamped revives : Bool) (x : ℚ) : Prop :=
  clamped = true ∨ revives = true ∨ 0 ≤ scale ∨ x = 0

theorem nonnegAt_iff (hfloor : 0 ≤ floor) (hb : 0 ≤ b) :
    0 ≤ lifted floor revives b (scaled scale clamped b) ↔ NonnegAt scale clamped revives b := by
  rw [le_lifted_iff, le_scaled_iff le_rfl zero_le_one]
  rcases hb.eq_or_lt with rfl | hpos
  · simp [NonnegAt]
  · simp only [NonnegAt, hpos.ne', or_false, and_true, mul_nonneg_iff_of_pos_left hpos, hpos,
      hfloor]
    tauto

theorem pipeline_mono (hfloor : 0 ≤ floor) (ha : 0 ≤ a) (hab : a ≤ b)
    (h : NonnegAt scale clamped revives b) :
    lifted floor revives a (scaled scale clamped a) ≤
      lifted floor revives b (scaled scale clamped b) := by
  by_cases hscale : clamped = true ∨ 0 ≤ scale
  · exact lifted_mono hab (scaled_mono hscale ha hab)
  · obtain ⟨hclamped, hneg⟩ := not_or.mp hscale
    have hlow : scaled scale clamped a ≤ 0 := by
      rw [scaled, if_neg hclamped]
      exact mul_nonpos_of_nonneg_of_nonpos ha (not_le.mp hneg).le
    rw [lifted_le_iff]
    constructor
    · exact hlow.trans ((nonnegAt_iff hfloor (ha.trans hab)).mpr h)
    · intro hrevives hpos
      exact le_lifted_iff.mpr (Or.inr ⟨hrevives, hpos.trans_le hab, le_rfl⟩)

end Numbers

section Evaluated

variable {root : ℚ → ℚ} {m : SignalModule} {context : EvaluationContext}
  {decision : SignalDecision}

theorem calibrated_eq :
    calibrated m context decision
        (decision.confidence * affinity m context decision *
          perfMultiplier root m context decision) =
      scaled (share root m context decision) (calibration m context decision).isSome
        decision.confidence := by
  unfold calibrated share calibration scaled
  cases m.calibrator with
  | none => simp [mul_assoc]
  | some calibrator =>
    cases decision.direction with
    | none => simp [mul_assoc]
    | some side =>
      simp only [ConfidenceCalibrator.calibrate_eq]
      cases calibrator.scaling decision.strategy side context.regime decision.timeframe with
      | none => simp [mul_assoc]
      | some scale => simp [mul_assoc]

theorem evaluate_of_below (h : BelowRaw context decision) :
    evaluate root m context decision = (decision, none) := if_pos h

theorem evaluate_of_enough (h : ¬BelowRaw context decision) :
    (evaluate root m context decision).1.confidence =
      lifted m.confidenceFloor
        (m.confidenceFloorMinAffinity ≤ affinity m context decision) decision.confidence
        (scaled (share root m context decision) (calibration m context decision).isSome
          decision.confidence) := by
  rw [evaluate, if_neg h]
  simp only [calibrated_eq, lifted, decide_eq_true_eq]

end Evaluated

section Order

variable (root : ℚ → ℚ) (m : SignalModule) (context : EvaluationContext)
  (decision : SignalDecision)

/-- The decision with another raw confidence. -/
def SignalDecision.withConfidence (decision : SignalDecision) (confidence : ℚ) : SignalDecision :=
  { decision with confidence := confidence }

/-- More raw confidence gives no less confidence, and both lie in the unit interval. -/
def InOrder (a b : ℚ) : Prop :=
  let answer (x : ℚ) := (evaluate root m context (decision.withConfidence x)).1.confidence
  answer a ≤ answer b ∧ (0 ≤ answer a ∧ answer a ≤ 1) ∧ 0 ≤ answer b ∧ answer b ≤ 1

/-- What the higher raw confidence needs when it is enough: where the lower one is not, that one
is no more than what becomes of the higher one; and nothing leaves the unit interval. -/
structure Scales (a b : ℚ) : Prop where
  kept : a < context.minRawConfidence →
    a ≤ b * share root m context decision ∨ ((calibration m context decision).isSome ∧ a = 0) ∨
      (m.confidenceFloorMinAffinity ≤ affinity m context decision ∧ 0 < b ∧ a ≤ m.confidenceFloor)
  capped : (calibration m context decision).isSome ∨ b * share root m context decision ≤ 1
  floored : m.confidenceFloorMinAffinity ≤ affinity m context decision → 0 < b →
    m.confidenceFloor ≤ 1
  nonneg : context.minRawConfidence ≤ a →
    NonnegAt (share root m context decision) (calibration m context decision).isSome
      (m.confidenceFloorMinAffinity ≤ affinity m context decision) b

variable {root m context decision} {a b : ℚ}

theorem answer_of_low (hside : decision.direction.isSome) {x : ℚ}
    (hx : x < context.minRawConfidence) :
    (evaluate root m context (decision.withConfidence x)).1.confidence = x :=
  congrArg (fun answer => answer.1.confidence)
    (evaluate_of_below (show BelowRaw context (decision.withConfidence x) from ⟨hside, hx⟩))

theorem answer_of_enough {x : ℚ} (hx : context.minRawConfidence ≤ x) :
    (evaluate root m context (decision.withConfidence x)).1.confidence =
      lifted m.confidenceFloor (m.confidenceFloorMinAffinity ≤ affinity m context decision) x
        (scaled (share root m context decision) (calibration m context decision).isSome x) :=
  evaluate_of_enough fun h => not_lt.mpr hx h.2

theorem scales_of_inOrder (hside : decision.direction.isSome) (ha : 0 ≤ a) (hab : a ≤ b)
    (hb : b ≤ 1) (henough : context.minRawConfidence ≤ b)
    (h : InOrder root m context decision a b) : Scales root m context decision a b := by
  simp only [InOrder, answer_of_enough henough] at h
  obtain ⟨hle, ⟨hnonneg, -⟩, -, hone⟩ := h
  obtain ⟨hscaled, hfloor⟩ := lifted_le_iff.mp hone
  constructor
  · intro hlow
    rw [answer_of_low hside hlow] at hle
    rcases le_lifted_iff.mp hle with hkept | ⟨hrevives, hpos, hkept⟩
    · rcases (le_scaled_iff ha (hab.trans hb)).mp hkept with hshare | hzero
      · exact Or.inl hshare
      · exact Or.inr (Or.inl hzero)
    · exact Or.inr (Or.inr ⟨of_decide_eq_true hrevives, hpos, hkept⟩)
  · exact scaled_le_one_iff.mp hscaled
  · exact fun hrevives hpos => hfloor (decide_eq_true hrevives) hpos
  · exact fun _ => (nonnegAt_iff m.floor_nonneg (ha.trans hab)).mp (hnonneg.trans hle)

theorem Scales.inOrder (h : Scales root m context decision a b)
    (hside : decision.direction.isSome) (ha : 0 ≤ a) (hab : a ≤ b) (hb : b ≤ 1)
    (henough : context.minRawConfidence ≤ b) : InOrder root m context decision a b := by
  simp only [InOrder, answer_of_enough henough]
  have hone := lifted_le_iff.mpr ⟨scaled_le_one_iff.mpr h.capped,
    fun hrevives hpos => h.floored (of_decide_eq_true hrevives) hpos⟩
  rcases lt_or_ge a context.minRawConfidence with hlow | hlow
  · rw [answer_of_low hside hlow]
    suffices hle : a ≤ _ from ⟨hle, ⟨ha, hle.trans hone⟩, ha.trans hle, hone⟩
    rw [le_lifted_iff]
    rcases h.kept hlow with hshare | hzero | ⟨hrevives, hpos, hkept⟩
    · exact Or.inl ((le_scaled_iff ha (hab.trans hb)).mpr (Or.inl hshare))
    · exact Or.inl ((le_scaled_iff ha (hab.trans hb)).mpr (Or.inr hzero))
    · exact Or.inr ⟨decide_eq_true hrevives, hpos, hkept⟩
  · rw [answer_of_enough hlow]
    have hnonneg := h.nonneg hlow
    have hle := pipeline_mono m.floor_nonneg ha hab hnonneg
    suffices hzero : (0 : ℚ) ≤ _ from ⟨hle, ⟨hzero, hle.trans hone⟩, hzero.trans hle, hone⟩
    apply (nonnegAt_iff m.floor_nonneg ha).mpr
    refine hnonneg.imp_right (Or.imp_right (Or.imp_right fun hzero => ?_))
    exact le_antisymm (hzero ▸ hab) ha

variable (root m context decision) in
/-- Which of two buy or sell decisions with raw confidences from the unit interval are in order. -/
theorem inOrder_iff {a b : ℚ} (hside : decision.direction.isSome) (ha : 0 ≤ a) (hab : a ≤ b)
    (hb : b ≤ 1) :
    InOrder root m context decision a b ↔
      (context.minRawConfidence ≤ b → Scales root m context decision a b) := by
  constructor
  · intro h henough
    exact scales_of_inOrder hside ha hab hb henough h
  · intro h
    rcases lt_or_ge b context.minRawConfidence with hlow | henough
    · simp only [InOrder, answer_of_low hside (hab.trans_lt hlow), answer_of_low hside hlow]
      exact ⟨hab, ⟨ha, hab.trans hb⟩, ha.trans hab, hb⟩
    · exact (h henough).inOrder hside ha hab hb henough

end Order

def buy (confidence : ℚ) : SignalDecision :=
  ⟨"breakout", "XAUUSD", "M15", some .buy, confidence, []⟩

/-- The strategy has won its eight trades of the session. -/
def winning : SignalModule where
  performanceTracker := some {
    stats := Dict.empty.set "breakout" { wins := 8, totalWinPnl := 80, currentStreak := 8 } }

/-- A root that is right at one and, up to rounding, at two. -/
def rootOfTwo (x : ℚ) : ℚ := if x = 2 then 141421 / 100000 else x

theorem inOrder_iff_half : InOrder rootOfTwo {}
    { detected := .trending, preComputedAffinity := some (1 / 2) } (buy 0) (5 / 10) (6 / 10) := by
  apply (inOrder_iff rootOfTwo {} _ (buy 0) rfl (by norm_num) (by norm_num) (by norm_num)).mpr
  intro _
  constructor
  · intro hlow
    exact absurd hlow (by decide +kernel)
  · exact Or.inr (by decide +kernel)
  · intro _ _
    decide +kernel
  · exact fun _ => Or.inr (Or.inl (by decide +kernel))

/-- Just below the raw threshold the confidence is kept whole, just above it is halved; and a
good session takes the confidence over one. -/
theorem not_inOrder :
    ¬InOrder rootOfTwo {} { detected := .trending, preComputedAffinity := some (1 / 2) } (buy 0)
        (44 / 100) (45 / 100) ∧
      ¬InOrder rootOfTwo winning { detected := .trending, preComputedAffinity := some 1 } (buy 0)
        1 1 := by
  constructor
  · intro h
    exact absurd h.1 (by decide +kernel)
  · intro h
    exact absurd h.2.2.2 (by decide +kernel)

end MT5Services.SignalConfidence
