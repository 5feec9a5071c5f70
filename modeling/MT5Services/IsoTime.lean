import Mathlib.Algebra.Group.Nat.Defs
import Mathlib.Data.Char
import Mathlib.Data.List.Lex
import Mathlib.Data.Nat.Find
import Mathlib.Order.Fin.Basic
import Mathlib.Order.Monotone.Basic

/-!
Moments as texts. A moment of UTC is a number of microseconds from the first of January of year 1,
and `isoformat` writes it as a date and a time of day, with a fraction of the second only if there
is one. The order of these texts, character by character, is the order of the moments: all fields
before the fraction have a fixed width, and what follows a second without a fraction comes before
the point that starts one.
-/
namespace MT5Services.IsoTime

/-- Texts of one length, in the order of the numbers they are written for. -/
structure FixedWidth (bound width : ℕ) (text : ℕ → List Char) : Prop where
  length : ∀ n < bound, (text n).length = width
  lt : ∀ n < bound, ∀ m < n, text m < text n

/-- Texts of one length decide, whatever follows. -/
theorem append_lt_append {front other : List Char} (h : front < other)
    (hlength : front.length = other.length) (back rest : List Char) :
    front ++ back < other ++ rest := by
  induction front generalizing other with
  | nil =>
    cases other with
    | nil => exact absurd h (List.lt_irrefl _)
    | cons _ _ => simp at hlength
  | cons a front ih =>
    cases other with
    | nil => simp at hlength
    | cons b other =>
      rw [List.cons_append, List.cons_append]
      rw [List.cons_lt_cons_iff] at h ⊢
      refine h.imp_right ?_
      rintro ⟨hab, hlt⟩
      exact ⟨hab, ih hlt (Nat.succ.inj hlength)⟩

theorem FixedWidth.mixed {bound width base places : ℕ} {high low : ℕ → List Char}
    (hhigh : FixedWidth bound width high) (hlow : FixedWidth base places low) (hbase : 0 < base)
    (separator : List Char) :
    FixedWidth (bound * base) (width + (separator.length + places)) fun n =>
      high (n / base) ++ (separator ++ low (n % base)) where
  length n hn := by
    have hdiv : n / base < bound := Nat.div_lt_of_lt_mul (by rwa [Nat.mul_comm])
    rw [List.length_append, List.length_append, hhigh.length _ hdiv,
      hlow.length _ (Nat.mod_lt n hbase)]
  lt n hn m hm := by
    have hdiv : n / base < bound := Nat.div_lt_of_lt_mul (by rwa [Nat.mul_comm])
    rcases (Nat.div_le_div_right hm.le : m / base ≤ n / base).lt_or_eq with hlt | heq
    · exact append_lt_append (hhigh.lt _ hdiv _ hlt)
        ((hhigh.length _ (hlt.trans hdiv)).trans (hhigh.length _ hdiv).symm) _ _
    · have hmod : m % base < n % base := by
        have hm' := Nat.div_add_mod m base
        have hn' := Nat.div_add_mod n base
        rw [heq] at hm'
        omega
      rw [heq]
      exact List.append_left_lt (List.append_left_lt (hlow.lt _ (Nat.mod_lt n hbase) _ hmod))

theorem FixedWidth.comp {bound width size : ℕ} {text : ℕ → List Char}
    (h : FixedWidth bound width text) {key : ℕ → ℕ} (hkey : StrictMono key)
    (hsize : ∀ n < size, key n < bound) : FixedWidth size width fun n => text (key n) where
  length n hn := h.length _ (hsize n hn)
  lt n hn _ hm := h.lt _ (hsize n hn) _ (hkey hm)

theorem FixedWidth.mono {bound width size : ℕ} {text : ℕ → List Char}
    (h : FixedWidth bound width text) (hle : size ≤ bound) : FixedWidth size width text where
  length n hn := h.length n (hn.trans_le hle)
  lt n hn := h.lt n (hn.trans_le hle)

/-- A number with leading zeros. -/
def pad : ℕ → ℕ → List Char
  | 0, _ => []
  | places + 1, n => pad places (n / 10) ++ ([] ++ [Char.ofNat (48 + n % 10)])

theorem fixedWidth_digit : FixedWidth 10 1 fun n => [Char.ofNat (48 + n)] where
  length _ _ := rfl
  lt := by decide

theorem fixedWidth_pad (places : ℕ) : FixedWidth (10 ^ places) places (pad places) := by
  induction places with
  | zero => exact ⟨fun _ _ => rfl, fun n hn m hm => by omega⟩
  | succ places ih =>
    rw [Nat.pow_succ]
    exact ih.mixed fixedWidth_digit (by decide) []

section Calendar

/-- The last of the periods up to a bound that have begun by a day. -/
def lastBegun (starts : ℕ → ℕ) (bound day : ℕ) : ℕ :=
  Nat.findGreatest (fun period => starts period ≤ day) bound

theorem lastBegun_le {starts : ℕ → ℕ} {bound day : ℕ} (hzero : starts 0 = 0) :
    starts (lastBegun starts bound day) ≤ day :=
  Nat.findGreatest_spec (P := fun period => starts period ≤ day) (Nat.zero_le bound)
    (hzero.le.trans (Nat.zero_le day))

/-- A later day is in a later period, or later in the same. -/
theorem lastBegun_lt {starts : ℕ → ℕ} {bound more m n : ℕ} (hzero : starts 0 = 0) (h : m < n)
    (hbound : bound ≤ more) :
    lastBegun starts bound m < lastBegun starts more n ∨
      lastBegun starts bound m = lastBegun starts more n ∧
        m - starts (lastBegun starts bound m) < n - starts (lastBegun starts more n) := by
  have hle : lastBegun starts bound m ≤ lastBegun starts more n :=
    Nat.findGreatest_mono (fun _ hstarted => hstarted.trans h.le) hbound
  have hbegun := @lastBegun_le starts bound m hzero
  rcases hle.lt_or_eq with hlt | heq
  · exact Or.inl hlt
  · rw [heq] at hbegun ⊢
    exact Or.inr ⟨rfl, by omega⟩

structure Date where
  year : ℕ
  month : ℕ
  day : ℕ
  deriving DecidableEq, Repr

/-- The days before the first of January of a year. -/
def daysBeforeYear (year : ℕ) : ℕ :=
  (year - 1) * 365 + (year - 1) / 4 + (year - 1) / 400 - (year - 1) / 100

def isLeap (year : ℕ) : Bool := year % 4 = 0 && (year % 100 ≠ 0 || year % 400 = 0)

/-- The days of a year before the first of a month. -/
def daysBeforeMonth (leap : Bool) (month : ℕ) : ℕ :=
  [0, 31, 59, 90, 120, 151, 181, 212, 243, 273, 304, 334].getD (month - 1) 0 +
    if 2 < month ∧ leap then 1 else 0

def yearOf (n : ℕ) : ℕ := lastBegun daysBeforeYear (n / 365 + 1) n

def dayOfYear (n : ℕ) : ℕ := n - daysBeforeYear (yearOf n)

def monthOf (leap : Bool) (day : ℕ) : ℕ := lastBegun (daysBeforeMonth leap) 12 day

/-- The date of the `n`-th day, from the first of January of year 1 on. -/
def dateOf (n : ℕ) : Date where
  year := yearOf n
  month := monthOf (isLeap (yearOf n)) (dayOfYear n)
  day := dayOfYear n -
    daysBeforeMonth (isLeap (yearOf n)) (monthOf (isLeap (yearOf n)) (dayOfYear n)) + 1

theorem dayOfYear_lt (n : ℕ) : dayOfYear n < 366 := by
  have hnext : n < daysBeforeYear (yearOf n + 1) := by
    by_cases hbound : yearOf n + 1 ≤ n / 365 + 1
    · exact not_le.mp (Nat.findGreatest_is_greatest
        (P := fun year => daysBeforeYear year ≤ n) (Nat.lt_succ_self _) hbound)
    · have hlast : yearOf n = n / 365 + 1 :=
        le_antisymm (Nat.findGreatest_le _) (by omega)
      rw [hlast, daysBeforeYear]
      omega
  rw [dayOfYear]
  generalize yearOf n = year at *
  unfold daysBeforeYear at *
  omega

/-- The date as one number. -/
def Date.key (date : Date) : ℕ := (date.year * 100 + date.month) * 100 + date.day

theorem dayOfMonth_lt : ∀ leap : Bool, ∀ day < 366,
    day - daysBeforeMonth leap (monthOf leap day) < 32 := by decide +kernel

theorem dateOf_bounds (n : ℕ) : (dateOf n).month < 100 ∧ (dateOf n).day < 100 := by
  have hday := dayOfMonth_lt (isLeap (yearOf n)) _ (dayOfYear_lt n)
  have hmonth : monthOf (isLeap (yearOf n)) (dayOfYear n) ≤ 12 := Nat.findGreatest_le _
  simp only [dateOf]
  omega

theorem dateOf_key_strictMono : StrictMono fun n => (dateOf n).key := by
  intro m n hmn
  obtain ⟨hmonthm, hdaym⟩ := dateOf_bounds m
  obtain ⟨hmonthn, hdayn⟩ := dateOf_bounds n
  have hyears : daysBeforeYear 0 = 0 := rfl
  have hmonths : daysBeforeMonth (isLeap (yearOf n)) 0 = 0 := rfl
  have hlater : yearOf m < yearOf n ∨ yearOf m = yearOf n ∧ dayOfYear m < dayOfYear n :=
    lastBegun_lt hyears hmn (by omega)
  simp only [Date.key, dateOf] at *
  rcases hlater with hyear | ⟨hyear, hday⟩
  · omega
  · have hmonth := lastBegun_lt hmonths hday (le_refl 12)
    rw [hyear] at hdaym ⊢
    simp only [monthOf] at *
    omega

theorem dateOf_year_lt {n : ℕ} (h : n < 3652059) : (dateOf n).year < 10000 := by
  have hbegun : daysBeforeYear (yearOf n) ≤ n := lastBegun_le rfl
  change yearOf n < 10000
  generalize yearOf n = year at *
  by_contra hlate
  obtain ⟨more, rfl⟩ := Nat.exists_eq_add_of_le (not_lt.mp hlate)
  unfold daysBeforeYear at hbegun
  omega

end Calendar

/-- Microseconds in the years 1 to 9999. -/
def endOfTime : ℕ := 3652059 * 86400 * 1000000

/-- A moment of UTC that a `datetime` can stand for. -/
abbrev Moment := Fin endOfTime

def Date.text (date : Date) : List Char :=
  pad 4 date.year ++ ('-' :: pad 2 date.month) ++ ('-' :: pad 2 date.day)

/-- A time of day, given in seconds. -/
def clockText (seconds : ℕ) : List Char :=
  pad 2 (seconds / 60 / 60) ++ (':' :: pad 2 (seconds / 60 % 60)) ++ (':' :: pad 2 (seconds % 60))

/-- What follows the seconds; a fraction of zero is left out. -/
def fractionText (micros : ℕ) : List Char :=
  (if micros = 0 then [] else '.' :: pad 6 micros) ++ ['+', '0', '0', ':', '0', '0']

/-- `datetime.isoformat` of an aware `datetime` in UTC. -/
def isoformat (moment : Moment) : List Char :=
  let seconds := moment.val / 1000000
  (dateOf (seconds / 86400)).text ++ ('T' :: clockText (seconds % 86400)) ++
    fractionText (moment.val % 1000000)

theorem fixedWidth_date : FixedWidth 3652059 10 fun n => (dateOf n).text := by
  have hbound : ∀ n < 3652059, (dateOf n).key < 10 ^ 4 * 10 ^ 2 * 10 ^ 2 := by
    intro n hn
    have hyear := dateOf_year_lt hn
    obtain ⟨hmonth, hday⟩ := dateOf_bounds n
    rw [Date.key]
    omega
  have hkey := (((fixedWidth_pad 4).mixed (fixedWidth_pad 2) (by decide) ['-']).mixed
    (fixedWidth_pad 2) (by decide) ['-']).comp dateOf_key_strictMono hbound
  have htext : (fun n => (dateOf n).text) = fun n =>
      pad 4 ((dateOf n).key / 10 ^ 2 / 10 ^ 2) ++
        (['-'] ++ pad 2 ((dateOf n).key / 10 ^ 2 % 10 ^ 2)) ++
        (['-'] ++ pad 2 ((dateOf n).key % 10 ^ 2)) := by
    funext n
    obtain ⟨hmonth, hday⟩ := dateOf_bounds n
    have hyear : (dateOf n).key / 10 ^ 2 / 10 ^ 2 = (dateOf n).year := by
      rw [Date.key]
      omega
    have hmid : (dateOf n).key / 10 ^ 2 % 10 ^ 2 = (dateOf n).month := by
      rw [Date.key]
      omega
    have hlow : (dateOf n).key % 10 ^ 2 = (dateOf n).day := by
      rw [Date.key]
      omega
    rw [hyear, hmid, hlow]
    rfl
  rw [htext]
  exact hkey

theorem fixedWidth_clock : FixedWidth 86400 8 clockText := by
  have hhour : FixedWidth 24 2 (pad 2) := (fixedWidth_pad 2).mono (by decide)
  have hsixty : FixedWidth 60 2 (pad 2) := (fixedWidth_pad 2).mono (by decide)
  exact (hhour.mixed hsixty (by decide) [':']).mixed hsixty (by decide) [':']

theorem fractionText_lt {m n : ℕ} (h : m < n) (hn : n < 1000000) :
    fractionText m < fractionText n := by
  have hn0 : n ≠ 0 := by omega
  rw [fractionText, fractionText, if_neg hn0]
  by_cases hm : m = 0
  · rw [if_pos hm]
    -- the plus sign comes before the point
    exact List.Lex.rel (by decide)
  · rw [if_neg hm, List.cons_append, List.cons_append]
    have hpad : FixedWidth (10 ^ 6) 6 (pad 6) := fixedWidth_pad 6
    refine List.Lex.cons (append_lt_append (hpad.lt n hn m h) ?_ _ _)
    rw [hpad.length m (h.trans hn), hpad.length n hn]

theorem isoformat_lt {s t : Moment} (h : s < t) : isoformat s < isoformat t := by
  have hstamp : FixedWidth (3652059 * 86400) 19 fun n =>
      (dateOf (n / 86400)).text ++ ('T' :: clockText (n % 86400)) :=
    fixedWidth_date.mixed fixedWidth_clock (by decide) ['T']
  have ht : t.val / 1000000 < 3652059 * 86400 :=
    Nat.div_lt_of_lt_mul (by rw [Nat.mul_comm]; exact t.isLt)
  rcases (Nat.div_le_div_right (Fin.le_of_lt h) : s.val / 1000000 ≤ t.val / 1000000).lt_or_eq with
    hlt | heq
  · exact append_lt_append (hstamp.lt _ ht _ hlt)
      ((hstamp.length _ (hlt.trans ht)).trans (hstamp.length _ ht).symm) _ _
  · have hmod : s.val % 1000000 < t.val % 1000000 := by
      have hlt : s.val < t.val := h
      omega
    simp only [isoformat, heq]
    exact List.append_left_lt (fractionText_lt hmod (Nat.mod_lt _ (by decide)))

/-- Texts compare as the moments they stand for. -/
theorem isoformat_lt_iff (s t : Moment) : isoformat s < isoformat t ↔ s < t := by
  constructor
  · intro h
    rcases lt_trichotomy s t with hlt | rfl | hgt
    · exact hlt
    · exact absurd h (List.lt_irrefl _)
    · exact absurd (isoformat_lt hgt) (List.lt_asymm h)
  · exact isoformat_lt

theorem isoformat_le_iff (s t : Moment) : isoformat s ≤ isoformat t ↔ s ≤ t := by
  rw [← not_lt, isoformat_lt_iff, not_lt]

example : String.ofList (isoformat ⟨63902350862000500, by decide⟩) =
    "2025-12-26T13:01:02.000500+00:00" := by decide +kernel

end MT5Services.IsoTime
