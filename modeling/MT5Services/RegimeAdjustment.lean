import MT5Services.PositionManager
import Mathlib.Logic.Function.Iterate
import Mathlib.Tactic.Linarith
import Mathlib.Tactic.NormNum

/-!
Rounds of `_check_regime_changes` while the detected regime stays the same. A round compares
the regime with the one at the entry of the position, which no round updates, so every round
finds the same change again. A stricter aggression is reached by the first round and kept;
towards a more permissive one every round goes half of the way that is left. Aggressions and
the difference of 0.05 that a change must reach are exact decimals.
-/
namespace MT5Services.RegimeAdjustment

open PyNumber ExitRules PositionManager

/-- What is stored of an adjusted aggression. -/
def stored (adjusted : ℚ) : ℚ := round (max 0 (min 1 adjusted)) 4

section Round

variable (config : ChandelierConfig) (regime : Option String) (pos : TrackedPosition)

/-- The aggression of the regime that is detected. -/
def newAggression : ℚ :=
  resolveAggression pos.strategyCategory (getCurrentRegime pos regime) config.aggressionOverrides

/-- The round goes on to the next position: the regime is unknown or the one at entry, the
category is unknown, or the difference is small. -/
def Ignored (old : ℚ) : Prop :=
  getCurrentRegime pos regime = "" ∨ getCurrentRegime pos regime = pos.regime.getD "" ∨
    pos.strategyCategory = "" ∨ |newAggression config regime pos - old| < 5 / 100

instance (old : ℚ) : Decidable (Ignored config regime pos old) :=
  inferInstanceAs (Decidable (_ ∨ _))

/-- Half of the way from the old aggression to the new one. -/
def halfway (old : ℚ) : ℚ := old + (newAggression config regime pos - old) * (1 / 2)

def nextAggression (old : ℚ) : ℚ :=
  if Ignored config regime pos old then old
  else if newAggression config regime pos < old then stored (newAggression config regime pos)
  else stored (halfway config regime pos old)

theorem ignored_of_near {old : ℚ} (h : |newAggression config regime pos - old| < 5 / 100) :
    Ignored config regime pos old := Or.inr (Or.inr (Or.inr h))

theorem nextAggression_of_ignored {old : ℚ} (h : Ignored config regime pos old) :
    nextAggression config regime pos old = old := if_pos h

theorem nextAggression_of_stricter {old : ℚ} (hchange : ¬Ignored config regime pos old)
    (h : newAggression config regime pos < old) :
    nextAggression config regime pos old = stored (newAggression config regime pos) := by
  unfold nextAggression
  rw [if_neg hchange, if_pos h]

theorem nextAggression_of_permissive {old : ℚ} (hchange : ¬Ignored config regime pos old)
    (h : old ≤ newAggression config regime pos) :
    nextAggression config regime pos old = stored (halfway config regime pos old) := by
  unfold nextAggression
  rw [if_neg hchange, if_neg h.not_gt]

/-- The aggression after a number of rounds. -/
def aggressionAfter (rounds : ℕ) : SpecValue :=
  ((adjustAggression config regime)^[rounds] pos).exitSpec.aggression

theorem adjustAggression_number {old : ℚ} (h : pos.exitSpec.aggression = .number old) :
    (adjustAggression config regime pos).exitSpec.aggression =
      .number (nextAggression config regime pos old) := by
  unfold adjustAggression
  simp only [h]
  split_ifs with hignored hstricter
  · rw [nextAggression_of_ignored config regime pos hignored, h]
  · rw [nextAggression_of_stricter config regime pos hignored hstricter]
    rfl
  · rw [nextAggression_of_permissive config regime pos hignored (not_lt.mp hstricter)]
    rfl

theorem adjustAggression_of_no_number (h : ∀ old, pos.exitSpec.aggression ≠ .number old) :
    adjustAggression config regime pos = pos := by
  unfold adjustAggression
  cases hspec : pos.exitSpec.aggression with
  | number old => exact absurd hspec (h old)
  | missing => rfl
  | malformed => rfl

/-- A round changes nothing that the next one compares with. -/
theorem nextAggression_adjustAggression (old : ℚ) :
    nextAggression config regime (adjustAggression config regime pos) old =
      nextAggression config regime pos old := by
  obtain ⟨spec, noted, hadjusted⟩ := adjustAggression_eq config regime pos
  rw [hadjusted]
  rfl

theorem aggressionAfter_eq {old : ℚ} (h : pos.exitSpec.aggression = .number old) (rounds : ℕ) :
    aggressionAfter config regime pos rounds =
      .number ((nextAggression config regime pos)^[rounds] old) := by
  unfold aggressionAfter
  induction rounds generalizing pos old with
  | zero => exact h
  | succ rounds ih =>
    rw [Function.iterate_succ_apply, Function.iterate_succ_apply,
      ih (adjustAggression config regime pos) (adjustAggression_number config regime pos h)]
    have hsame : nextAggression config regime (adjustAggression config regime pos) =
        nextAggression config regime pos :=
      funext (nextAggression_adjustAggression config regime pos)
    rw [hsame]

end Round

theorem clamp_mem (x : ℚ) : 0 ≤ max 0 (min 1 x) ∧ max 0 (min 1 x) ≤ 1 :=
  ⟨le_max_left _ _, max_le zero_le_one (min_le_left _ _)⟩

theorem round_zero : round 0 4 = 0 := round_eq_self (n := 0) (by norm_num)

theorem round_one : round 1 4 = 1 := round_eq_self (n := 10000) (by norm_num)

theorem stored_mem (x : ℚ) : 0 ≤ stored x ∧ stored x ≤ 1 := by
  obtain ⟨hlow, hhigh⟩ := clamp_mem x
  refine ⟨?_, ?_⟩
  · have h := round_mono hlow 4
    rw [round_zero] at h
    exact h
  · have h := round_mono hhigh 4
    rw [round_one] at h
    exact h

theorem stored_of_one_le {x : ℚ} (h : 1 ≤ x) : stored x = 1 := by
  unfold stored
  rw [min_eq_left h, max_eq_right zero_le_one]
  exact round_one

theorem stored_of_nonpos {x : ℚ} (h : x ≤ 0) : stored x = 0 := by
  unfold stored
  rw [max_eq_left ((min_le_right _ _).trans h)]
  exact round_zero

theorem stored_near {x : ℚ} (hlow : 0 ≤ x) (hhigh : x ≤ 1) : |x - stored x| ≤ 1 / 20000 := by
  unfold stored
  rw [min_eq_right hhigh, max_eq_right hlow]
  have h := abs_sub_round_le x 4
  norm_num at h ⊢
  exact h

/-- From zero on storing adds at most half a unit of the fourth decimal. -/
theorem stored_le {x : ℚ} (h : 0 ≤ x) : stored x ≤ x + 1 / 20000 := by
  by_cases hone : 1 ≤ x
  · rw [stored_of_one_le hone]
    linarith
  · have hnear := abs_le.mp (stored_near h (not_le.mp hone).le)
    linarith [hnear.1]

/-- Going half of a way that is not small changes the stored value unless it is the upper end
of the range. -/
theorem stored_eq_of_halfway_fixed {target reached : ℚ} (hle : reached ≤ target)
    (hfar : 5 / 100 ≤ |target - reached|) (hzero : 0 ≤ reached)
    (hfixed : stored (reached + (target - reached) * (1 / 2)) = reached) :
    reached = stored target := by
  rw [abs_of_nonneg (sub_nonneg.mpr hle)] at hfar
  by_cases hone : reached + (target - reached) * (1 / 2) ≤ 1
  · exfalso
    have hnear := stored_near (by linarith) hone
    rw [hfixed] at hnear
    have hbound := (abs_le.mp hnear).2
    linarith
  · have hbeyond := not_le.mp hone
    rw [← hfixed, stored_of_one_le hbeyond.le, stored_of_one_le (by linarith)]

section Rounds

variable (config : ChandelierConfig) (regime : Option String) (pos : TrackedPosition)

/-- The new aggression, once stored, is kept by every later round: it is next to the one
aimed at, or it is the end of the range that lies on that side. -/
theorem nextAggression_stored :
    nextAggression config regime pos (stored (newAggression config regime pos)) =
      stored (newAggression config regime pos) := by
  by_cases hignored : Ignored config regime pos (stored (newAggression config regime pos))
  · exact nextAggression_of_ignored config regime pos hignored
  · by_cases hstricter : newAggression config regime pos < stored (newAggression config regime pos)
    · exact nextAggression_of_stricter config regime pos hignored hstricter
    · rw [nextAggression_of_permissive config regime pos hignored (not_lt.mp hstricter)]
      have hfar := not_lt.mp (mt (ignored_of_near config regime pos) hignored)
      unfold halfway
      generalize newAggression config regime pos = target at hfar hstricter ⊢
      -- inside the range the stored value is too near, so it is the upper end
      have hone : 1 ≤ target := by
        by_contra hinside
        by_cases hzero : 0 ≤ target
        · have hnear := stored_near hzero (not_le.mp hinside).le
          linarith
        · rw [stored_of_nonpos (not_le.mp hzero).le] at hstricter
          exact hstricter (not_le.mp hzero)
      rw [stored_of_one_le hone, stored_of_one_le (by linarith)]

theorem iterate_of_fixed {f : ℚ → ℚ} {x y : ℚ} (hfirst : f x = y) (hfixed : f y = y) {rounds : ℕ}
    (hrounds : 0 < rounds) : f^[rounds] x = y := by
  obtain ⟨more, rfl⟩ := Nat.exists_eq_succ_of_ne_zero hrounds.ne'
  rw [Function.iterate_succ_apply, hfirst]
  exact Function.iterate_fixed hfixed more

/-- What the rounds do to an aggression, later rounds towards a more permissive one apart. -/
structure Adjusts (old : ℚ) : Prop where
  ignored : Ignored config regime pos old → ∀ rounds,
    aggressionAfter config regime pos rounds = .number old
  stricter : ¬Ignored config regime pos old → newAggression config regime pos < old →
    ∀ rounds, 0 < rounds →
      aggressionAfter config regime pos rounds = .number (stored (newAggression config regime pos))
  permissive : ¬Ignored config regime pos old → old < newAggression config regime pos →
    aggressionAfter config regime pos 1 = .number (stored (halfway config regime pos old))
  raise : 0 ≤ old → old ≤ newAggression config regime pos →
    ∃ new, aggressionAfter config regime pos 1 = .number new ∧
      new - old ≤ (newAggression config regime pos - old) / 2 + 1 / 20000

/-- Without a number for its aggression a position is passed over. -/
def AdjustsPosition : Prop :=
  match pos.exitSpec.aggression with
  | .number old => Adjusts config regime pos old
  | _ => ∀ rounds, (adjustAggression config regime)^[rounds] pos = pos

/-- Rounds under one regime: small differences are left alone, a stricter aggression is stored
at once and stays, and a more permissive one is first approached by half. -/
theorem adjustsPosition : AdjustsPosition config regime pos := by
  unfold AdjustsPosition
  split
  · rename_i old hspec
    constructor
    · intro hignored rounds
      rw [aggressionAfter_eq config regime pos hspec]
      rw [Function.iterate_fixed (nextAggression_of_ignored config regime pos hignored)]
    · intro hchange hstricter rounds hrounds
      rw [aggressionAfter_eq config regime pos hspec]
      have hfirst := nextAggression_of_stricter config regime pos hchange hstricter
      rw [iterate_of_fixed hfirst (nextAggression_stored config regime pos) hrounds]
    · intro hchange hpermissive
      rw [aggressionAfter_eq config regime pos hspec, Function.iterate_one,
        nextAggression_of_permissive config regime pos hchange hpermissive.le]
    · intro hold hpermissive
      refine ⟨_, aggressionAfter_eq config regime pos hspec 1, ?_⟩
      rw [Function.iterate_one]
      by_cases hignored : Ignored config regime pos old
      · rw [nextAggression_of_ignored config regime pos hignored]
        linarith
      · rw [nextAggression_of_permissive config regime pos hignored hpermissive]
        have hhalf : 0 ≤ halfway config regime pos old := by
          unfold halfway
          linarith
        have hstored := stored_le hhalf
        unfold halfway at hstored ⊢
        linarith
  · rename_i hspec
    intro rounds
    exact Function.iterate_fixed (adjustAggression_of_no_number config regime pos hspec) rounds

/-- After a change to a more permissive regime the later rounds leave the aggression alone
exactly when the first one came near the new value or to the end of the range. -/
theorem later_rounds_iff (old : ℚ) (hspec : pos.exitSpec.aggression = .number old)
    (hchange : ¬Ignored config regime pos old)
    (hpermissive : old < newAggression config regime pos) :
    (∀ rounds, 0 < rounds → aggressionAfter config regime pos rounds =
        aggressionAfter config regime pos 1) ↔
      |newAggression config regime pos - stored (halfway config regime pos old)| < 5 / 100 ∨
        stored (halfway config regime pos old) = stored (newAggression config regime pos) := by
  have hfirst := nextAggression_of_permissive config regime pos hchange hpermissive.le
  have hsame : (∀ rounds, 0 < rounds → aggressionAfter config regime pos rounds =
        aggressionAfter config regime pos 1) ↔
      nextAggression config regime pos (stored (halfway config regime pos old)) =
        stored (halfway config regime pos old) := by
    simp only [aggressionAfter_eq config regime pos hspec, SpecValue.number.injEq]
    rw [Function.iterate_one, hfirst]
    constructor
    · intro h
      have htwo := h 2 (by omega)
      rw [Function.iterate_succ_apply, Function.iterate_one, hfirst] at htwo
      exact htwo
    · intro h rounds hrounds
      exact iterate_of_fixed hfirst h hrounds
  rw [hsame]
  constructor
  · intro hfixed
    by_contra hneither
    obtain ⟨hfar, hend⟩ := not_or.mp hneither
    have hchange' : ¬Ignored config regime pos (stored (halfway config regime pos old)) := by
      unfold Ignored at hchange ⊢
      tauto
    by_cases hstricter :
        newAggression config regime pos < stored (halfway config regime pos old)
    · rw [nextAggression_of_stricter config regime pos hchange' hstricter] at hfixed
      exact hend hfixed.symm
    · rw [nextAggression_of_permissive config regime pos hchange' (not_lt.mp hstricter)]
        at hfixed
      exact hend (stored_eq_of_halfway_fixed (not_lt.mp hstricter) (not_lt.mp hfar)
        (stored_mem _).1 hfixed)
  · rintro (hnear | hend)
    · exact nextAggression_of_ignored config regime pos (ignored_of_near config regime pos hnear)
    · rw [hend]
      exact nextAggression_stored config regime pos

end Rounds

/-- The adjustment is applied once for a change of the regime. -/
structure OncePerChange (config : ChandelierConfig) (regime : Option String)
    (pos : TrackedPosition) (old : ℚ) : Prop where
  later : ∀ rounds, 0 < rounds →
    aggressionAfter config regime pos rounds = aggressionAfter config regime pos 1
  permissive : old < newAggression config regime pos → ∀ new,
    aggressionAfter config regime pos 1 = .number new →
      new - old ≤ (newAggression config regime pos - old) / 2
  stricter : newAggression config regime pos < old →
    aggressionAfter config regime pos 1 = .number (newAggression config regime pos)

/-- Opened in a regime with an aggression of its strategy. -/
def openedIn (category regime : String) (aggression : ℚ) : TrackedPosition :=
  trackPosition 1
    { buyAtHundred with
      strategyCategory := category
      regime := some regime
      exitSpec := { aggression := .number aggression } }

/-- A trend position that meets a trend comes nearer to its aggression with every round, and
one that is three hundredths above a stricter aggression stays there. -/
theorem not_oncePerChange :
    ¬OncePerChange {} (some "trending") (openedIn "trend" "ranging" (15 / 100)) (15 / 100) ∧
      ¬OncePerChange {} (some "uncertain") (openedIn "reversion" "ranging" (48 / 100))
        (48 / 100) := by
  refine ⟨?_, ?_⟩
  · intro h
    have hdiffers : aggressionAfter {} (some "trending")
        (openedIn "trend" "ranging" (15 / 100)) 2 ≠
          aggressionAfter {} (some "trending") (openedIn "trend" "ranging" (15 / 100)) 1 := by
      decide +kernel
    exact hdiffers (h.later 2 (by omega))
  · intro h
    have hstays : newAggression {} (some "uncertain")
        (openedIn "reversion" "ranging" (48 / 100)) < 48 / 100 ∧
          aggressionAfter {} (some "uncertain")
            (openedIn "reversion" "ranging" (48 / 100)) 1 ≠
              .number (newAggression {} (some "uncertain")
                (openedIn "reversion" "ranging" (48 / 100))) := by
      decide +kernel
    exact hstays.2 (h.stricter hstays.1)

theorem later_rounds_iff_trending :
    (∀ rounds, 0 < rounds →
        aggressionAfter {} (some "trending") (openedIn "trend" "ranging" (15 / 100)) rounds =
          aggressionAfter {} (some "trending") (openedIn "trend" "ranging" (15 / 100)) 1) ↔
      |newAggression {} (some "trending") (openedIn "trend" "ranging" (15 / 100)) -
          stored (halfway {} (some "trending") (openedIn "trend" "ranging" (15 / 100))
            (15 / 100))| < 5 / 100 ∨
        stored (halfway {} (some "trending") (openedIn "trend" "ranging" (15 / 100)) (15 / 100)) =
          stored (newAggression {} (some "trending") (openedIn "trend" "ranging" (15 / 100))) :=
  later_rounds_iff {} (some "trending") (openedIn "trend" "ranging" (15 / 100)) (15 / 100) rfl
    (by decide +kernel) (by decide +kernel)

end MT5Services.RegimeAdjustment
