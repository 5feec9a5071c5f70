import Mathlib.Data.Rat.Floor

/-!
Numbers as Python computes with them, over exact rationals: `round` with ties to the
even neighbour at a number of decimals, truncation by `int`, and `x or fallback`,
where zero counts as missing. Rounding is monotone and fixes what is already
rounded, so it never crosses a value that has the wanted decimals.
-/
namespace MT5Services.PyNumber

/-- The nearest integer; a tie goes to the even one. -/
def roundHalfEven (x : ℚ) : ℤ :=
  if x - ⌊x⌋ < 1 / 2 then ⌊x⌋
  else if 1 / 2 < x - ⌊x⌋ then ⌊x⌋ + 1
  else if ⌊x⌋ % 2 = 0 then ⌊x⌋
  else ⌊x⌋ + 1

/-- `round(x, digits)`. -/
def round (x : ℚ) (digits : ℕ) : ℚ := roundHalfEven (x * 10 ^ digits) / 10 ^ digits

/-- `int(x)`: the fraction is cut off towards zero. -/
def toInt (x : ℚ) : ℤ := x.num.tdiv x.den

/-- `x or fallback`. -/
def orElse (x : Option ℚ) (fallback : ℚ) : ℚ :=
  match x with
  | some value => if value = 0 then fallback else value
  | none => fallback

theorem floor_le_roundHalfEven (x : ℚ) : ⌊x⌋ ≤ roundHalfEven x := by
  unfold roundHalfEven
  split_ifs <;> omega

theorem roundHalfEven_le_floor (x : ℚ) : roundHalfEven x ≤ ⌊x⌋ + 1 := by
  unfold roundHalfEven
  split_ifs <;> omega

theorem roundHalfEven_mono {x y : ℚ} (h : x ≤ y) : roundHalfEven x ≤ roundHalfEven y := by
  have hfloor : ⌊x⌋ ≤ ⌊y⌋ := Int.floor_le_floor h
  rcases hfloor.lt_or_eq with hlt | heq
  · -- an integer lies between the two arguments
    calc roundHalfEven x ≤ ⌊x⌋ + 1 := roundHalfEven_le_floor x
      _ ≤ ⌊y⌋ := by omega
      _ ≤ roundHalfEven y := floor_le_roundHalfEven y
  · have hfract : x - ⌊x⌋ ≤ y - ⌊y⌋ := by
      rw [heq]
      exact sub_le_sub_right h _
    unfold roundHalfEven
    rw [heq] at hfract ⊢
    split_ifs <;> first | omega | linarith

theorem roundHalfEven_intCast (n : ℤ) : roundHalfEven n = n := by
  have hfract : (n : ℚ) - ⌊(n : ℚ)⌋ < 1 / 2 := by
    rw [Int.floor_intCast, sub_self]
    norm_num
  unfold roundHalfEven
  rw [if_pos hfract, Int.floor_intCast]

/-- Rounding is symmetric about every integer, since twice an integer is even. -/
theorem roundHalfEven_reflect (n : ℤ) (x : ℚ) :
    roundHalfEven (2 * n - x) = 2 * n - roundHalfEven x := by
  rcases (Int.floor_le x).eq_or_lt with hint | hfract
  · have hreflect : 2 * (n : ℚ) - ⌊x⌋ = ((2 * n - ⌊x⌋ : ℤ) : ℚ) := by push_cast; rfl
    rw [← hint, hreflect, roundHalfEven_intCast, roundHalfEven_intCast]
  · -- below the reflected number lies the reflection of the integer above
    have hfloor : ⌊2 * (n : ℚ) - x⌋ = 2 * n - ⌊x⌋ - 1 := by
      rw [Int.floor_eq_iff]
      push_cast
      constructor
      · linarith [Int.lt_floor_add_one x]
      · linarith
    unfold roundHalfEven
    rw [hfloor]
    push_cast
    split_ifs <;> first | omega | (exfalso; linarith)

theorem abs_sub_roundHalfEven_le (x : ℚ) : |x - roundHalfEven x| ≤ 1 / 2 := by
  have hfloor := Int.floor_le x
  have hceil := Int.lt_floor_add_one x
  unfold roundHalfEven
  rw [abs_le]
  split_ifs <;> push_cast <;> constructor <;> linarith

/-- Rounding moves a number by at most half a unit of the last decimal. -/
theorem abs_sub_round_le (x : ℚ) (digits : ℕ) : |x - round x digits| ≤ 1 / 2 / 10 ^ digits := by
  have hscale : (0 : ℚ) < 10 ^ digits := by positivity
  have hdiff : x - round x digits =
      (x * 10 ^ digits - roundHalfEven (x * 10 ^ digits)) / 10 ^ digits := by
    unfold round
    rw [sub_div, mul_div_cancel_right₀ _ hscale.ne']
  rw [hdiff, abs_div, abs_of_pos hscale]
  exact (div_le_div_iff_of_pos_right hscale).mpr (abs_sub_roundHalfEven_le _)

theorem round_mono {x y : ℚ} (h : x ≤ y) (digits : ℕ) : round x digits ≤ round y digits := by
  have hscale : (0 : ℚ) < 10 ^ digits := by positivity
  unfold round
  apply (div_le_div_iff_of_pos_right hscale).mpr
  exact_mod_cast roundHalfEven_mono (mul_le_mul_of_nonneg_right h hscale.le)

@[simp]
theorem round_round (x : ℚ) (digits : ℕ) : round (round x digits) digits = round x digits := by
  have hscale : (10 : ℚ) ^ digits ≠ 0 := by positivity
  have hback : round x digits * 10 ^ digits = (roundHalfEven (x * 10 ^ digits) : ℤ) := by
    unfold round
    exact div_mul_cancel₀ _ hscale
  rw [round, hback, roundHalfEven_intCast, ← round]

/-- About a number that has the wanted decimals rounding is symmetric. -/
theorem round_reflect {centre : ℚ} {digits : ℕ} {n : ℤ} (h : centre * 10 ^ digits = n) (x : ℚ) :
    round (2 * centre - x) digits = 2 * centre - round x digits := by
  have hscale : (10 : ℚ) ^ digits ≠ 0 := by positivity
  have hshift : (2 * centre - x) * 10 ^ digits = 2 * n - x * 10 ^ digits := by
    rw [sub_mul, mul_assoc, h]
  have hcentre : 2 * centre = 2 * n / 10 ^ digits := by
    rw [← h, ← mul_assoc, mul_div_cancel_right₀ _ hscale]
  unfold round
  rw [hshift, roundHalfEven_reflect, hcentre, ← sub_div]
  push_cast
  rfl

/-- What has no more decimals than asked for stays as it is. -/
theorem round_eq_self {x : ℚ} {digits : ℕ} {n : ℤ} (h : x * 10 ^ digits = n) :
    round x digits = x := by
  have hscale : (10 : ℚ) ^ digits ≠ 0 := by positivity
  rw [round, h, roundHalfEven_intCast, ← h, mul_div_cancel_right₀ _ hscale]

end MT5Services.PyNumber
