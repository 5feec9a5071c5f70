import MT5Services.BacktestData
import Mathlib.Algebra.Order.Field.Basic
import Mathlib.Tactic.FieldSimp
import Mathlib.Tactic.Linarith
import Mathlib.Tactic.Positivity
import Mathlib.Tactic.Ring

/-!
The windows of a walk-forward validation. The test windows tile the time from the first test
start to the end of the total range, each starts where its training ends, and neighbours
share an end. The loader gives the bars of a closed range, so a bar that opens exactly at a
test start is trained on and tested on, and tested on twice where two test windows meet.
-/
namespace MT5Services.WalkForward

open BacktestData IntrabarSynthesis

/-- Times and durations in one unit, exact. -/
structure WalkForwardConfig where
  totalStartTime : ℚ
  totalEndTime : ℚ
  trainRatio : ℚ := 7 / 10
  nSplits : ℕ := 5
  anchored : Bool := false

structure Window where
  trainStart : ℚ
  trainEnd : ℚ
  testStart : ℚ
  testEnd : ℚ

namespace WalkForwardConfig

def totalSeconds (c : WalkForwardConfig) : ℚ := c.totalEndTime - c.totalStartTime

/-- The training starts with the total range and grows. -/
def anchoredSplit (c : WalkForwardConfig) (i : ℕ) : Window :=
  let testDuration := c.totalSeconds * (1 - c.trainRatio) / c.nSplits
  let firstTrainDuration := c.totalSeconds * c.trainRatio
  let trainEnd := c.totalStartTime + (firstTrainDuration + i * testDuration)
  ⟨c.totalStartTime, trainEnd, trainEnd, trainEnd + testDuration⟩

/-- Training and test slide on by the length of a test. -/
def rollingSplit (c : WalkForwardConfig) (i : ℕ) : Window :=
  let windowSeconds := c.totalSeconds / (c.nSplits * (1 - c.trainRatio) + c.trainRatio)
  let trainSeconds := windowSeconds * c.trainRatio
  let testSeconds := windowSeconds * (1 - c.trainRatio)
  let trainStart := c.totalStartTime + i * testSeconds
  ⟨trainStart, trainStart + trainSeconds, trainStart + trainSeconds,
    trainStart + trainSeconds + testSeconds⟩

def rawSplit (c : WalkForwardConfig) (i : ℕ) : Window :=
  if c.anchored then c.anchoredSplit i else c.rollingSplit i

/-- One window of the loop, the test cut off at the end of the total range. -/
def split (c : WalkForwardConfig) (i : ℕ) : Window :=
  { c.rawSplit i with
    testEnd :=
      if c.totalEndTime < (c.rawSplit i).testEnd then c.totalEndTime else (c.rawSplit i).testEnd }

/-- `_generate_splits`; the loop ends at the first test that starts too late. -/
def generateSplits (c : WalkForwardConfig) : List Window :=
  ((List.range c.nSplits).map c.split).takeWhile fun window => window.testStart < c.totalEndTime

end WalkForwardConfig

/-- The bars that a backtest over a closed range gets. -/
def windowBars (feed : Feed) (timeframe : String) (startTime endTime : ℚ) : List Ohlc :=
  (feed.rows timeframe).filter fun bar => startTime ≤ bar.time ∧ bar.time ≤ endTime

/-- What a validation rests on: no bar is trained on and tested on in one split or tested on
twice, no bar from the first test on is left out, and no test starts before its training
ends. -/
structure Honest (c : WalkForwardConfig) (feed : Feed) (timeframe : String) : Prop where
  separated : ∀ window ∈ c.generateSplits, ∀ bar,
    bar ∈ windowBars feed timeframe window.trainStart window.trainEnd →
      bar ∉ windowBars feed timeframe window.testStart window.testEnd
  once : c.generateSplits.Pairwise fun a b => ∀ bar,
    bar ∈ windowBars feed timeframe a.testStart a.testEnd →
      bar ∉ windowBars feed timeframe b.testStart b.testEnd
  covered : ∀ first, c.generateSplits.head? = some first → ∀ bar ∈ feed.rows timeframe,
    first.testStart ≤ bar.time → bar.time ≤ c.totalEndTime →
      ∃ window ∈ c.generateSplits, bar ∈ windowBars feed timeframe window.testStart window.testEnd
  ordered : ∀ window ∈ c.generateSplits, window.trainEnd ≤ window.testStart

/-- Where the first test starts. -/
def firstTest (c : WalkForwardConfig) : ℚ :=
  if c.anchored then c.totalStartTime + c.totalSeconds * c.trainRatio
  else c.totalStartTime +
    c.totalSeconds / (c.nSplits * (1 - c.trainRatio) + c.trainRatio) * c.trainRatio

/-- How long a test is. -/
def testStep (c : WalkForwardConfig) : ℚ :=
  if c.anchored then c.totalSeconds * (1 - c.trainRatio) / c.nSplits
  else c.totalSeconds / (c.nSplits * (1 - c.trainRatio) + c.trainRatio) * (1 - c.trainRatio)

theorem mem_windowBars {feed : Feed} {timeframe : String} {startTime endTime : ℚ} {bar : Ohlc} :
    bar ∈ windowBars feed timeframe startTime endTime ↔
      bar ∈ feed.rows timeframe ∧ startTime ≤ bar.time ∧ bar.time ≤ endTime := by
  rw [windowBars, List.mem_filter, decide_eq_true_eq]

section Windows

variable {c : WalkForwardConfig}

/-- The tests follow one another at a constant step. -/
theorem tests_rawSplit (c : WalkForwardConfig) (i : ℕ) :
    (c.rawSplit i).testStart = firstTest c + i * testStep c ∧
      (c.rawSplit i).testEnd = firstTest c + (i + 1) * testStep c := by
  unfold WalkForwardConfig.rawSplit firstTest testStep
  cases c.anchored with
  | true =>
    simp only [if_true, WalkForwardConfig.anchoredSplit]
    constructor
    · ring
    · ring
  | false =>
    simp only [Bool.false_eq_true, if_false, WalkForwardConfig.rollingSplit]
    constructor
    · ring
    · ring

theorem testStart_split (c : WalkForwardConfig) (i : ℕ) :
    (c.split i).testStart = firstTest c + i * testStep c := (tests_rawSplit c i).1

theorem trainEnd_split (c : WalkForwardConfig) (i : ℕ) :
    (c.split i).trainEnd = (c.split i).testStart := by
  show (c.rawSplit i).trainEnd = (c.rawSplit i).testStart
  unfold WalkForwardConfig.rawSplit
  cases c.anchored with
  | true => rfl
  | false => rfl

/-- Together the tests reach from the first test start to the end. -/
theorem firstTest_add (hn : 1 ≤ c.nSplits) (hpos : 0 < c.trainRatio) (hlt : c.trainRatio < 1) :
    firstTest c + c.nSplits * testStep c = c.totalEndTime := by
  have hn' : (0 : ℚ) < c.nSplits := by exact_mod_cast hn
  unfold firstTest testStep
  cases c.anchored with
  | true =>
    simp only [if_true, WalkForwardConfig.totalSeconds]
    field_simp
    ring
  | false =>
    have hrest : 0 < 1 - c.trainRatio := by linarith
    have hdenominator : 0 < c.nSplits * (1 - c.trainRatio) + c.trainRatio := by positivity
    simp only [Bool.false_eq_true, if_false, WalkForwardConfig.totalSeconds]
    field_simp
    ring

theorem testStep_pos (hn : 1 ≤ c.nSplits) (hpos : 0 < c.trainRatio) (hlt : c.trainRatio < 1)
    (hrange : c.totalStartTime < c.totalEndTime) : 0 < testStep c := by
  have hn' : (0 : ℚ) < c.nSplits := by exact_mod_cast hn
  have hrest : 0 < 1 - c.trainRatio := by linarith
  have htotal : 0 < c.totalSeconds := by
    unfold WalkForwardConfig.totalSeconds
    linarith
  unfold testStep
  split
  · positivity
  · positivity

theorem testStep_nonpos (hn : 1 ≤ c.nSplits) (hpos : 0 < c.trainRatio) (hlt : c.trainRatio < 1)
    (hrange : c.totalEndTime ≤ c.totalStartTime) : testStep c ≤ 0 := by
  have hn' : (0 : ℚ) < c.nSplits := by exact_mod_cast hn
  have hrest : 0 < 1 - c.trainRatio := by linarith
  have htotal : c.totalSeconds ≤ 0 := by
    unfold WalkForwardConfig.totalSeconds
    linarith
  unfold testStep
  split
  · exact div_nonpos_of_nonpos_of_nonneg (mul_nonpos_of_nonpos_of_nonneg htotal hrest.le) hn'.le
  · have hdenominator : 0 < c.nSplits * (1 - c.trainRatio) + c.trainRatio := by positivity
    exact mul_nonpos_of_nonpos_of_nonneg (div_nonpos_of_nonpos_of_nonneg htotal hdenominator.le)
      hrest.le

theorem testEnd_split (hn : 1 ≤ c.nSplits) (hpos : 0 < c.trainRatio) (hlt : c.trainRatio < 1)
    (hrange : c.totalStartTime < c.totalEndTime) {i : ℕ} (hi : i < c.nSplits) :
    (c.split i).testEnd = firstTest c + (i + 1) * testStep c := by
  have hstep := testStep_pos hn hpos hlt hrange
  have hlast := firstTest_add hn hpos hlt
  have hi' : (i : ℚ) + 1 ≤ c.nSplits := by exact_mod_cast hi
  have hle : (i + 1) * testStep c ≤ c.nSplits * testStep c :=
    mul_le_mul_of_nonneg_right hi' hstep.le
  have hinside : ¬ c.totalEndTime < (c.rawSplit i).testEnd := by
    rw [(tests_rawSplit c i).2]
    linarith
  show (if c.totalEndTime < (c.rawSplit i).testEnd then c.totalEndTime
    else (c.rawSplit i).testEnd) = _
  rw [if_neg hinside, (tests_rawSplit c i).2]

theorem trainStart_le_split (hn : 1 ≤ c.nSplits) (hpos : 0 < c.trainRatio)
    (hlt : c.trainRatio < 1) (hrange : c.totalStartTime < c.totalEndTime) (i : ℕ) :
    (c.split i).trainStart ≤ (c.split i).testStart := by
  have hn' : (0 : ℚ) < c.nSplits := by exact_mod_cast hn
  have hrest : 0 < 1 - c.trainRatio := by linarith
  have htotal : 0 < c.totalSeconds := by
    unfold WalkForwardConfig.totalSeconds
    linarith
  show (c.rawSplit i).trainStart ≤ (c.rawSplit i).testStart
  unfold WalkForwardConfig.rawSplit
  cases c.anchored with
  | true =>
    simp only [if_true, WalkForwardConfig.anchoredSplit]
    have hgap : 0 ≤ c.totalSeconds * c.trainRatio +
        i * (c.totalSeconds * (1 - c.trainRatio) / c.nSplits) := by positivity
    linarith
  | false =>
    simp only [Bool.false_eq_true, if_false, WalkForwardConfig.rollingSplit]
    have hdenominator : 0 < c.nSplits * (1 - c.trainRatio) + c.trainRatio := by positivity
    have hgap : 0 ≤ c.totalSeconds / (c.nSplits * (1 - c.trainRatio) + c.trainRatio) *
        c.trainRatio := by positivity
    linarith

theorem exists_range_cons {n : ℕ} (hn : 1 ≤ n) : ∃ rest, List.range n = 0 :: rest := by
  obtain ⟨m, hsucc⟩ := Nat.exists_eq_succ_of_ne_zero (Nat.one_le_iff_ne_zero.mp hn)
  rw [hsucc, List.range_succ_eq_map]
  exact ⟨_, rfl⟩

/-- Over a range of some length the loop makes every window. -/
theorem generateSplits_eq (hn : 1 ≤ c.nSplits) (hpos : 0 < c.trainRatio)
    (hlt : c.trainRatio < 1) (hrange : c.totalStartTime < c.totalEndTime) :
    c.generateSplits = (List.range c.nSplits).map c.split := by
  rw [WalkForwardConfig.generateSplits, List.takeWhile_eq_self_iff]
  intro window hwindow
  obtain ⟨i, hi, rfl⟩ := List.mem_map.mp hwindow
  have hstep := testStep_pos hn hpos hlt hrange
  have hlast := firstTest_add hn hpos hlt
  have hi' : (i : ℚ) + 1 ≤ c.nSplits := by exact_mod_cast List.mem_range.mp hi
  have hle : (i + 1) * testStep c ≤ c.nSplits * testStep c :=
    mul_le_mul_of_nonneg_right hi' hstep.le
  rw [decide_eq_true_eq, testStart_split]
  linarith

/-- Over an empty or inverted range it makes none. -/
theorem generateSplits_eq_nil (hn : 1 ≤ c.nSplits) (hpos : 0 < c.trainRatio)
    (hlt : c.trainRatio < 1) (hrange : c.totalEndTime ≤ c.totalStartTime) :
    c.generateSplits = [] := by
  have hstep := testStep_nonpos hn hpos hlt hrange
  have hlast := firstTest_add hn hpos hlt
  have hn' : (0 : ℚ) ≤ c.nSplits := by positivity
  have hle : c.nSplits * testStep c ≤ 0 := mul_nonpos_of_nonneg_of_nonpos hn' hstep
  have hlate : ¬ (c.split 0).testStart < c.totalEndTime := by
    rw [testStart_split]
    push_cast
    linarith
  obtain ⟨rest, hrest⟩ := exists_range_cons hn
  rw [WalkForwardConfig.generateSplits, hrest, List.map_cons, List.takeWhile_cons]
  simp [hlate]

end Windows

/-- Steps of one length, one after the other, leave no gap. -/
theorem exists_step {a step t : ℚ} {n : ℕ} (hn : 1 ≤ n) (hlow : a ≤ t)
    (hhigh : t ≤ a + n * step) :
    ∃ i < n, a + i * step ≤ t ∧ t ≤ a + (i + 1) * step := by
  induction n, hn using Nat.le_induction with
  | base =>
    refine ⟨0, Nat.one_pos, ?_, ?_⟩
    · push_cast
      linarith
    · push_cast at hhigh ⊢
      linarith
  | succ n hn ih =>
    by_cases hearlier : t ≤ a + n * step
    · obtain ⟨i, hi, hstep⟩ := ih hearlier
      exact ⟨i, Nat.lt_succ_of_lt hi, hstep⟩
    · refine ⟨n, Nat.lt_succ_self n, (not_le.mp hearlier).le, ?_⟩
      push_cast at hhigh
      exact hhigh

section Honest

variable {c : WalkForwardConfig} {feed : Feed} {timeframe : String}

/-- No bar opens where a test starts. -/
def Clear (c : WalkForwardConfig) (feed : Feed) (timeframe : String) : Prop :=
  ∀ i < c.nSplits, ∀ bar ∈ feed.rows timeframe, (bar.time : ℚ) ≠ firstTest c + i * testStep c

theorem honest_of_no_splits (h : c.generateSplits = []) : Honest c feed timeframe := by
  constructor
  · intro window hwindow
    rw [h] at hwindow
    cases hwindow
  · rw [h]
    exact List.Pairwise.nil
  · intro first hfirst
    rw [h] at hfirst
    cases hfirst
  · intro window hwindow
    rw [h] at hwindow
    cases hwindow

variable (hn : 1 ≤ c.nSplits) (hpos : 0 < c.trainRatio) (hlt : c.trainRatio < 1)
  (hrange : c.totalStartTime < c.totalEndTime)

include hn hpos hlt hrange

/-- A bar at a test start is in the training of that test as well. -/
theorem Honest.clear (h : Honest c feed timeframe) : Clear c feed timeframe := by
  intro i hi bar hbar hat
  have hstart := testStart_split c i
  have hstep := testStep_pos hn hpos hlt hrange
  have hmem : c.split i ∈ c.generateSplits := by
    rw [generateSplits_eq hn hpos hlt hrange]
    exact List.mem_map_of_mem (List.mem_range.mpr hi)
  have htest : bar ∈ windowBars feed timeframe (c.split i).testStart (c.split i).testEnd := by
    refine mem_windowBars.mpr ⟨hbar, ?_, ?_⟩
    · rw [hstart, hat]
    · rw [testEnd_split hn hpos hlt hrange hi, hat]
      linarith
  have htrain : bar ∈ windowBars feed timeframe (c.split i).trainStart (c.split i).trainEnd := by
    refine mem_windowBars.mpr ⟨hbar, ?_, ?_⟩
    · have hle := trainStart_le_split hn hpos hlt hrange i
      rw [hstart] at hle
      rw [hat]
      exact hle
    · rw [trainEnd_split, hstart, hat]
  exact h.separated _ hmem bar htrain htest

theorem Clear.separated (h : Clear c feed timeframe) : ∀ window ∈ c.generateSplits, ∀ bar,
    bar ∈ windowBars feed timeframe window.trainStart window.trainEnd →
      bar ∉ windowBars feed timeframe window.testStart window.testEnd := by
  intro window hwindow bar htrain htest
  rw [generateSplits_eq hn hpos hlt hrange] at hwindow
  obtain ⟨i, hi, rfl⟩ := List.mem_map.mp hwindow
  obtain ⟨hbar, -, hend⟩ := mem_windowBars.mp htrain
  obtain ⟨-, hstart, -⟩ := mem_windowBars.mp htest
  rw [trainEnd_split, testStart_split] at hend
  rw [testStart_split] at hstart
  exact h i (List.mem_range.mp hi) bar hbar (le_antisymm hend hstart)

/-- Two tests meet at most at the start of the later one. -/
theorem Clear.once (h : Clear c feed timeframe) : c.generateSplits.Pairwise fun a b => ∀ bar,
    bar ∈ windowBars feed timeframe a.testStart a.testEnd →
      bar ∉ windowBars feed timeframe b.testStart b.testEnd := by
  rw [generateSplits_eq hn hpos hlt hrange, List.pairwise_map]
  refine (List.pairwise_lt_range).imp_of_mem fun {i j} hi hj hij bar hfirst hsecond => ?_
  obtain ⟨hbar, -, hend⟩ := mem_windowBars.mp hfirst
  obtain ⟨-, hstart, -⟩ := mem_windowBars.mp hsecond
  rw [testEnd_split hn hpos hlt hrange (List.mem_range.mp hi)] at hend
  rw [testStart_split] at hstart
  have hij' : (i : ℚ) + 1 ≤ j := by exact_mod_cast hij
  have hle := mul_le_mul_of_nonneg_right hij' (testStep_pos hn hpos hlt hrange).le
  exact h j (List.mem_range.mp hj) bar hbar (le_antisymm (by linarith) hstart)

/-- The tests leave no gap up to the end of the range. -/
theorem tests_cover : ∀ first, c.generateSplits.head? = some first →
    ∀ bar ∈ feed.rows timeframe, first.testStart ≤ bar.time → bar.time ≤ c.totalEndTime →
      ∃ window ∈ c.generateSplits,
        bar ∈ windowBars feed timeframe window.testStart window.testEnd := by
  intro first hfirst bar hbar hlow hhigh
  have hsplits := generateSplits_eq hn hpos hlt hrange
  obtain ⟨rest, hrest⟩ := exists_range_cons hn
  rw [hsplits, hrest, List.map_cons, List.head?_cons] at hfirst
  cases hfirst
  rw [testStart_split] at hlow
  rw [← firstTest_add hn hpos hlt] at hhigh
  obtain ⟨i, hi, hstart, hend⟩ := exists_step hn (by push_cast at hlow; linarith) hhigh
  refine ⟨c.split i, ?_, mem_windowBars.mpr ⟨hbar, ?_, ?_⟩⟩
  · rw [hsplits]
    exact List.mem_map_of_mem (List.mem_range.mpr hi)
  · rw [testStart_split]
    exact hstart
  · rw [testEnd_split hn hpos hlt hrange hi]
    exact hend

theorem Clear.honest (h : Clear c feed timeframe) : Honest c feed timeframe where
  separated := h.separated hn hpos hlt hrange
  once := h.once hn hpos hlt hrange
  covered := tests_cover hn hpos hlt hrange
  ordered := by
    intro window hwindow
    rw [generateSplits_eq hn hpos hlt hrange] at hwindow
    obtain ⟨i, -, rfl⟩ := List.mem_map.mp hwindow
    exact (trainEnd_split c i).le

end Honest

/-- A validation is honest exactly when it has no test at all or no bar opens at a test
start. -/
theorem honest_iff (c : WalkForwardConfig) (feed : Feed) (timeframe : String)
    (hn : 1 ≤ c.nSplits) (hpos : 0 < c.trainRatio) (hlt : c.trainRatio < 1) :
    Honest c feed timeframe ↔
      c.totalEndTime ≤ c.totalStartTime ∨ Clear c feed timeframe := by
  by_cases hrange : c.totalEndTime ≤ c.totalStartTime
  · exact ⟨fun _ => Or.inl hrange,
      fun _ => honest_of_no_splits (generateSplits_eq_nil hn hpos hlt hrange)⟩
  · have hrange' := not_le.mp hrange
    constructor
    · intro h
      exact Or.inr (h.clear hn hpos hlt hrange')
    · rintro (hempty | hclear)
      · exact absurd hempty hrange
      · exact hclear.honest hn hpos hlt hrange'

/-! ### Ten days of bars -/

/-- Seven days of training and three of test, in seconds. -/
def tenDays : WalkForwardConfig where
  totalStartTime := 0
  totalEndTime := 864000
  nSplits := 1
  anchored := true

def barAt (time : ℤ) : Ohlc where
  symbol := "XAUUSD"
  timeframe := "H1"
  time := time
  openPrice := 2000
  high := 2001
  low := 1999
  close := 2000
  volume := 1

/-- A history of one bar. -/
def oneBar (time : ℤ) : Feed where
  rows := fun _ => [barAt time]
  sorted := fun _ => List.pairwise_singleton _ _

/-- With bars away from midnight only, the ten days are honest. -/
theorem honest_tenDays : Honest tenDays (oneBar 3600) "H1" := by
  refine (honest_iff tenDays (oneBar 3600) "H1" (by decide) (by norm_num [tenDays])
    (by norm_num [tenDays])).mpr (Or.inr ?_)
  intro i hi bar hbar
  have hzero : i = 0 := Nat.lt_one_iff.mp hi
  subst hzero
  rw [List.mem_singleton.mp hbar]
  norm_num [barAt, firstTest, testStep, tenDays, WalkForwardConfig.totalSeconds]

/-- The bar of the seventh midnight is trained on and tested on. -/
theorem midnight_bar_not_honest :
    ¬ ∀ (c : WalkForwardConfig) (feed : Feed) (timeframe : String), 1 ≤ c.nSplits →
      0 < c.trainRatio → c.trainRatio < 1 → Honest c feed timeframe := by
  intro hclaim
  have hhonest := hclaim tenDays (oneBar 604800) "H1" (by decide) (by norm_num [tenDays])
    (by norm_num [tenDays])
  have hclear := hhonest.clear (by decide) (by norm_num [tenDays]) (by norm_num [tenDays])
    (by norm_num [tenDays])
  refine hclear 0 Nat.one_pos (barAt 604800) (List.mem_singleton_self _) ?_
  norm_num [barAt, firstTest, testStep, tenDays, WalkForwardConfig.totalSeconds]

end MT5Services.WalkForward
