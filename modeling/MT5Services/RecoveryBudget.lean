import MT5Services.Insertions
import MT5Services.PyNumber
import MT5Services.RecoveryRows
import Mathlib.Algebra.Order.BigOperators.Group.List

/-!
`RecoveryRiskBudgetGuard`, the loss budget that admits a new recovery cycle: the losses of
the day, those of a rolling window, and a lockout after a streak of losing cycles. The
streak is read off the rows from the newest on and ends at the first row without a loss,
so it ends at a row without a realised result as well.
-/
namespace MT5Services.RecoveryBudget

open PyText PyNumber RecoveryRows Insertions

structure Settings where
  riskProfile : String
  maxDailyRecoveryLossAmount : ℚ
  maxRollingRecoveryLossAmount : ℚ
  rollingLossWindowMinutes : ℤ
  maxConsecutiveLossCycles : ℤ
  lossLockoutMinutes : ℤ

def Settings.enabled (settings : Settings) : Bool :=
  0 < settings.maxDailyRecoveryLossAmount || 0 < settings.maxRollingRecoveryLossAmount ||
    0 < settings.maxConsecutiveLossCycles

/-- The snapshot repeats the settings. -/
structure Snapshot where
  settings : Settings
  enabled : Bool
  accountKey : String
  dailyRealizedLossAmount : ℚ
  rollingRealizedLossAmount : ℚ
  remainingDailyLossAmount : Option ℚ
  remainingRollingLossAmount : Option ℚ
  consecutiveLossCycles : ℕ
  lossLockoutUntil : Option ℤ
  activeReason : Option String
  error : Option String

structure Decision where
  allowed : Bool
  reason : String
  snapshot : Snapshot

/-- `_remaining`. -/
def remaining (limit used : ℚ) : Option ℚ :=
  if limit ≤ 0 then none else some (round (max 0 (limit - used)) 2)

def baseSnapshot (settings : Settings) (accountKey : String) : Snapshot where
  settings := settings
  enabled := settings.enabled
  accountKey := accountKey
  dailyRealizedLossAmount := 0
  rollingRealizedLossAmount := 0
  remainingDailyLossAmount := remaining settings.maxDailyRecoveryLossAmount 0
  remainingRollingLossAmount := remaining settings.maxRollingRecoveryLossAmount 0
  consecutiveLossCycles := 0
  lossLockoutUntil := none
  activeReason := none
  error := none

/-- What a row adds to the sum of the losses whose time counts. -/
def countedLoss (counts : ℤ → Bool) (row : CycleRow) : ℚ :=
  if realizedLoss row ≤ 0 then 0
  else
    match rowEventTime row with
    | none => 0
    | some time => if counts time then realizedLoss row else 0

/-- The two sums of `_loss_metrics`. -/
def dailyLoss (rows : List CycleRow) (now : ℤ) : ℚ :=
  round (rows.map (countedLoss fun time => utcDate time = utcDate now)).sum 2

def rollingLoss (rows : List CycleRow) (now windowMinutes : ℤ) : ℚ :=
  round (rows.map (countedLoss fun time => now - max 1 windowMinutes * minute ≤ time)).sum 2

/-- `datetime.min` in UTC. -/
def datetimeMin : ℤ := -62135596800000000

/-- The order of `sorted(..., reverse=True)`, which keeps rows of one time in place. -/
def newerFirst (row other : CycleRow) : Prop :=
  (rowEventTime other).getD datetimeMin ≤ (rowEventTime row).getD datetimeMin

instance : DecidableRel newerFirst := fun row other =>
  inferInstanceAs (Decidable ((rowEventTime other).getD datetimeMin ≤
    (rowEventTime row).getD datetimeMin))

/-- The rows with a time, the newest first. -/
def newestFirst (rows : List CycleRow) : List CycleRow :=
  (rows.insertionSort newerFirst).filter fun row => (rowEventTime row).isSome

/-- The losing cycles before the first row without a loss. -/
def lossStreak (rows : List CycleRow) : List CycleRow :=
  (newestFirst rows).takeWhile fun row => 0 < realizedLoss row

structure Lockout where
  blocked : Bool
  consecutiveLossCycles : ℕ
  lossLockoutUntil : Option ℤ

/-- `_consecutive_loss_lockout`. -/
def consecutiveLossLockout (rows : List CycleRow) (now maxConsecutiveLossCycles : ℤ)
    (lossLockoutMinutes : ℤ) : Lockout :=
  if maxConsecutiveLossCycles ≤ 0 then ⟨false, 0, none⟩
  else
    match (lossStreak rows).head?.bind rowEventTime with
    | none => ⟨false, (lossStreak rows).length, none⟩
    | some latestLossAt =>
      if (lossStreak rows).length < maxConsecutiveLossCycles then
        ⟨false, (lossStreak rows).length, none⟩
      else if lossLockoutMinutes ≤ 0 then ⟨true, (lossStreak rows).length, none⟩
      else
        let lockoutUntil := latestLossAt + lossLockoutMinutes * minute
        ⟨now < lockoutUntil, (lossStreak rows).length, some lockoutUntil⟩

/-- `_history_limit`. -/
def historyLimit (settings : Settings) : ℤ :=
  if 0 < settings.maxConsecutiveLossCycles then max 200 (settings.maxConsecutiveLossCycles * 5)
  else 200

/-- `_load_rows`. -/
def loadRows (lister : Lister) (settings : Settings) (accountKey symbol strategy : String)
    (dryRun : Bool) : Except String (List CycleRow) :=
  match lister with
  | none => .error "list_recovery_cycle_states port unavailable"
  | some list =>
    (list symbol strategy (historyLimit settings)).map fun rows =>
      rows.filter (rowMatchesResidentRecovery accountKey symbol strategy dryRun)

/-- The three budgets over the rows of the runner. -/
def assessRows (settings : Settings) (accountKey : String) (rows : List CycleRow) (now : ℤ) :
    Decision :=
  let daily := dailyLoss rows now
  let rolling := rollingLoss rows now settings.rollingLossWindowMinutes
  let snapshot :=
    { baseSnapshot settings accountKey with
      dailyRealizedLossAmount := daily
      rollingRealizedLossAmount := rolling
      remainingDailyLossAmount := remaining settings.maxDailyRecoveryLossAmount daily
      remainingRollingLossAmount := remaining settings.maxRollingRecoveryLossAmount rolling }
  if 0 < settings.maxDailyRecoveryLossAmount ∧ settings.maxDailyRecoveryLossAmount ≤ daily then
    ⟨false, "recovery_daily_loss_budget_reached",
      { snapshot with
        activeReason := some "recovery_daily_loss_budget_reached"
        remainingDailyLossAmount := some 0 }⟩
  else if 0 < settings.maxRollingRecoveryLossAmount ∧
      settings.maxRollingRecoveryLossAmount ≤ rolling then
    ⟨false, "recovery_rolling_loss_budget_reached",
      { snapshot with
        activeReason := some "recovery_rolling_loss_budget_reached"
        remainingRollingLossAmount := some 0 }⟩
  else
    let lockout := consecutiveLossLockout rows now settings.maxConsecutiveLossCycles
      settings.lossLockoutMinutes
    let snapshot :=
      { snapshot with
        consecutiveLossCycles := lockout.consecutiveLossCycles
        lossLockoutUntil := lockout.lossLockoutUntil }
    if lockout.blocked then
      ⟨false, "recovery_consecutive_loss_lockout",
        { snapshot with activeReason := some "recovery_consecutive_loss_lockout" }⟩
    else ⟨true, "recovery_risk_budget_ok", snapshot⟩

def assess (settings : Settings) (lister : Lister) (now : ℤ)
    (accountKey symbol strategy : String) (dryRun : Bool) : Decision :=
  let snapshot := baseSnapshot settings (strip accountKey)
  if !settings.enabled then ⟨true, "recovery_risk_budget_disabled", snapshot⟩
  else
    match loadRows lister settings (strip accountKey) symbol strategy dryRun with
    | .error message =>
      ⟨false, "recovery_budget_state_unavailable",
        { snapshot with
          activeReason := some "recovery_budget_state_unavailable"
          error := some message }⟩
    | .ok rows => assessRows settings (strip accountKey) rows now

instance : IsTrans CycleRow newerFirst := ⟨fun _ _ _ hab hbc => le_trans hbc hab⟩

instance : Std.Total newerFirst :=
  ⟨fun _ other => le_total ((rowEventTime other).getD datetimeMin) _⟩

theorem countedLoss_nonneg (counts : ℤ → Bool) (row : CycleRow) : 0 ≤ countedLoss counts row := by
  unfold countedLoss
  split
  · exact le_rfl
  · split
    · exact le_rfl
    · split
      · exact realizedLoss_nonneg row
      · exact le_rfl

theorem countedLoss_of_none (counts : ℤ → Bool) {row : CycleRow} (h : row.realizedPnl = none) :
    countedLoss counts row = 0 := by
  rw [countedLoss, if_pos (realizedLoss_of_none h).le]

section Sublist

variable {rows longer : List CycleRow} (h : List.Sublist rows longer)

include h

theorem sum_countedLoss_le (counts : ℤ → Bool) :
    (rows.map (countedLoss counts)).sum ≤ (longer.map (countedLoss counts)).sum := by
  refine (h.map _).sum_le_sum ?_
  intro loss hloss
  obtain ⟨row, _, rfl⟩ := List.mem_map.mp hloss
  exact countedLoss_nonneg counts row

theorem dailyLoss_le (now : ℤ) : dailyLoss rows now ≤ dailyLoss longer now :=
  round_mono (sum_countedLoss_le h _) 2

theorem rollingLoss_le (now windowMinutes : ℤ) :
    rollingLoss rows now windowMinutes ≤ rollingLoss longer now windowMinutes :=
  round_mono (sum_countedLoss_le h _) 2

end Sublist

theorem newestFirst_inserts {P : CycleRow → Prop} {rows longer : List CycleRow}
    (h : Inserts P rows longer) : Inserts P (newestFirst rows) (newestFirst longer) :=
  h.insertionSort.filter _

variable {rows : List CycleRow}

/-- The newest row is no older than any other one with a time. -/
theorem le_head_newestFirst {newest row : CycleRow}
    (hnewest : (newestFirst rows).head? = some newest) (hrow : row ∈ newestFirst rows) :
    newerFirst newest row := by
  have hsorted : (newestFirst rows).Pairwise newerFirst :=
    (List.pairwise_insertionSort newerFirst rows).filter _
  cases hlist : newestFirst rows with
  | nil =>
    rw [hlist] at hrow
    cases hrow
  | cons first rest =>
    rw [hlist] at hnewest hrow hsorted
    cases hnewest
    rcases List.mem_cons.mp hrow with rfl | hrest
    · exact le_rfl
    · exact List.rel_of_pairwise_cons hsorted hrest

theorem rowEventTime_of_mem_newestFirst {row : CycleRow}
    (h : row ∈ newestFirst rows) : ∃ time, rowEventTime row = some time :=
  Option.isSome_iff_exists.mp (List.mem_filter.mp h).2

theorem head?_newestFirst {rows rest : List CycleRow} {newest : CycleRow}
    (h : lossStreak rows = newest :: rest) : (newestFirst rows).head? = some newest := by
  obtain ⟨back, hback⟩ : lossStreak rows <+: newestFirst rows := List.takeWhile_prefix _
  rw [← hback, h, List.cons_append, List.head?_cons]

/-- When the lockout holds, over the newest rows. -/
theorem consecutiveLossLockout_blocked_iff {now maxCycles minutes : ℤ} :
    (consecutiveLossLockout rows now maxCycles minutes).blocked = true ↔
      0 < maxCycles ∧ maxCycles ≤ (lossStreak rows).length ∧
        (minutes ≤ 0 ∨ ∃ newest time, (newestFirst rows).head? = some newest ∧
          rowEventTime newest = some time ∧ now < time + minutes * minute) := by
  unfold consecutiveLossLockout
  split
  · rename_i hmax
    simp [hmax.not_gt]
  · rename_i hmax
    rw [not_le] at hmax
    cases hstreak : lossStreak rows with
    | nil =>
      simp only [List.head?_nil, Option.bind_none, List.length_nil, Bool.false_eq_true, false_iff]
      rintro ⟨_, hle, _⟩
      exact absurd hmax (not_lt.mpr hle)
    | cons newest rest =>
      have hhead := head?_newestFirst hstreak
      obtain ⟨time, htime⟩ := rowEventTime_of_mem_newestFirst (List.mem_of_mem_head? hhead)
      generalize (newest :: rest).length = count
      simp only [List.head?_cons, Option.bind_some, htime, hhead]
      split
      · rename_i hshort
        simp [not_le.mpr hshort]
      · rename_i hlong
        rw [not_lt] at hlong
        split
        · rename_i hminutes
          simp [hmax, hlong, hminutes]
        · rename_i hminutes
          simp [hmax, hlong, hminutes, htime]

/-- A further losing cycle lengthens the streak and can only make its end later. -/
theorem consecutiveLossLockout_mono {rows longer : List CycleRow} {now maxCycles minutes : ℤ}
    (h : Inserts (fun row => 0 < realizedLoss row) rows longer)
    (hblocked : (consecutiveLossLockout rows now maxCycles minutes).blocked = true) :
    (consecutiveLossLockout longer now maxCycles minutes).blocked = true := by
  rw [consecutiveLossLockout_blocked_iff] at hblocked ⊢
  obtain ⟨hmax, hlength, hlate⟩ := hblocked
  have hinserts := newestFirst_inserts h
  have hstreak : (lossStreak rows).length ≤ (lossStreak longer).length :=
    hinserts.length_takeWhile_le fun row hrow => decide_eq_true hrow
  refine ⟨hmax, hlength.trans (by exact_mod_cast hstreak), ?_⟩
  rcases hlate with hminutes | ⟨newest, time, hnewest, htime, hnow⟩
  · exact Or.inl hminutes
  · right
    have hmem : newest ∈ newestFirst longer :=
      hinserts.sublist.subset (List.mem_of_mem_head? hnewest)
    obtain ⟨latest, hlatest⟩ : ∃ latest, (newestFirst longer).head? = some latest := by
      cases hlist : newestFirst longer with
      | nil =>
        rw [hlist] at hmem
        cases hmem
      | cons first rest => exact ⟨first, rfl⟩
    obtain ⟨later, hlater⟩ := rowEventTime_of_mem_newestFirst (List.mem_of_mem_head? hlatest)
    have hle := le_head_newestFirst hlatest hmem
    rw [newerFirst, htime, hlater, Option.getD_some, Option.getD_some] at hle
    exact ⟨latest, later, hlatest, hlater, by omega⟩

theorem assessRows_blocked_iff {settings : Settings} {accountKey : String} {now : ℤ} :
    (assessRows settings accountKey rows now).allowed = false ↔
      (0 < settings.maxDailyRecoveryLossAmount ∧
        settings.maxDailyRecoveryLossAmount ≤ dailyLoss rows now) ∨
      (0 < settings.maxRollingRecoveryLossAmount ∧
        settings.maxRollingRecoveryLossAmount ≤
          rollingLoss rows now settings.rollingLossWindowMinutes) ∨
      (consecutiveLossLockout rows now settings.maxConsecutiveLossCycles
        settings.lossLockoutMinutes).blocked = true := by
  unfold assessRows
  dsimp only
  split
  · rename_i hdaily
    simp [hdaily]
  · rename_i hdaily
    split
    · rename_i hrolling
      simp [hrolling]
    · rename_i hrolling
      split
      · rename_i hlockout
        simp [hlockout]
      · rename_i hlockout
        simp [hdaily, hrolling, hlockout]

/-- The lockout is the reason where neither budget is. -/
theorem assessRows_lockout_iff {settings : Settings} {accountKey : String} {now : ℤ} :
    (assessRows settings accountKey rows now).reason = "recovery_consecutive_loss_lockout" ↔
      ¬ (0 < settings.maxDailyRecoveryLossAmount ∧
        settings.maxDailyRecoveryLossAmount ≤ dailyLoss rows now) ∧
      ¬ (0 < settings.maxRollingRecoveryLossAmount ∧
        settings.maxRollingRecoveryLossAmount ≤
          rollingLoss rows now settings.rollingLossWindowMinutes) ∧
      (consecutiveLossLockout rows now settings.maxConsecutiveLossCycles
        settings.lossLockoutMinutes).blocked = true := by
  unfold assessRows
  dsimp only
  split
  · rename_i hdaily
    simp [hdaily]
  · rename_i hdaily
    split
    · rename_i hrolling
      simp [hrolling]
    · rename_i hrolling
      split
      · rename_i hlockout
        simp [hdaily, hrolling, hlockout]
      · rename_i hlockout
        simp [hlockout]

/-- The rows of the runner among those the state store gives. -/
def residentRows (accountKey symbol strategy : String) (dryRun : Bool) (rows : List CycleRow) :
    List CycleRow :=
  rows.filter (rowMatchesResidentRecovery (strip accountKey) symbol strategy dryRun)

theorem assess_givenRows (settings : Settings) (rows : List CycleRow) (now : ℤ)
    (accountKey symbol strategy : String) (dryRun : Bool) :
    assess settings (givenRows rows) now accountKey symbol strategy dryRun =
      if settings.enabled then
        assessRows settings (strip accountKey)
          (residentRows accountKey symbol strategy dryRun rows) now
      else
        ⟨true, "recovery_risk_budget_disabled", baseSnapshot settings (strip accountKey)⟩ := by
  unfold assess
  cases settings.enabled with
  | false => rfl
  | true => rfl

section Claims

variable (settings : Settings) (rows : List CycleRow) (now : ℤ)
  (accountKey symbol strategy : String) (dryRun : Bool)

/-- One more losing cycle, inserted anywhere, never lifts a block. -/
theorem assess_monotone (front back : List CycleRow) (extra : CycleRow) {pnl : ℚ}
    (hpnl : extra.realizedPnl = some pnl) (hloss : pnl < 0)
    (hblocks : (assess settings (givenRows (front ++ back)) now accountKey symbol strategy
      dryRun).allowed = false) :
    (assess settings (givenRows (front ++ extra :: back)) now accountKey symbol strategy
      dryRun).allowed = false := by
  have hinserts : Inserts (fun row => 0 < realizedLoss row)
      (residentRows accountKey symbol strategy dryRun (front ++ back))
      (residentRows accountKey symbol strategy dryRun (front ++ extra :: back)) :=
    (Inserts.single front back (realizedLoss_pos hpnl hloss)).filter _
  rw [assess_givenRows] at hblocks ⊢
  split at hblocks
  · rename_i henabled
    rw [if_pos henabled, assessRows_blocked_iff]
    rcases assessRows_blocked_iff.mp hblocks with hdaily | hrolling | hlockout
    · exact Or.inl ⟨hdaily.1, hdaily.2.trans (dailyLoss_le hinserts.sublist now)⟩
    · exact Or.inr (Or.inl ⟨hrolling.1, hrolling.2.trans (rollingLoss_le hinserts.sublist now _)⟩)
    · exact Or.inr (Or.inr (consecutiveLossLockout_mono hinserts hlockout))
  · cases hblocks

/-- Neither loss budget is used up. -/
def BudgetLeft : Prop :=
  ¬ (0 < settings.maxDailyRecoveryLossAmount ∧
      settings.maxDailyRecoveryLossAmount ≤ dailyLoss rows now) ∧
    ¬ (0 < settings.maxRollingRecoveryLossAmount ∧
      settings.maxRollingRecoveryLossAmount ≤
        rollingLoss rows now settings.rollingLossWindowMinutes)

/-- As many losing cycles as it takes are the newest rows, the last of them recent enough,
and no budget blocks before. -/
structure LockoutDue : Prop where
  budget : BudgetLeft settings rows now
  configured : 0 < settings.maxConsecutiveLossCycles
  enough : settings.maxConsecutiveLossCycles ≤ (newestFirst rows).length
  losses : ∀ row ∈ (newestFirst rows).take settings.maxConsecutiveLossCycles.toNat,
    0 < realizedLoss row
  recent : settings.lossLockoutMinutes ≤ 0 ∨ ∃ newest time,
    (newestFirst rows).head? = some newest ∧ rowEventTime newest = some time ∧
      now < time + settings.lossLockoutMinutes * minute

variable {settings rows now}

theorem le_length_lossStreak_iff {maxCycles : ℤ} (hmax : 0 < maxCycles) :
    maxCycles ≤ (lossStreak rows).length ↔
      maxCycles ≤ (newestFirst rows).length ∧
        ∀ row ∈ (newestFirst rows).take maxCycles.toNat, 0 < realizedLoss row := by
  have htoNat (count : ℕ) : maxCycles ≤ count ↔ maxCycles.toNat ≤ count := by omega
  rw [htoNat, htoNat, lossStreak, le_length_takeWhile_iff]
  simp only [decide_eq_true_eq]

theorem assess_lockout_iff :
    (assess settings (givenRows rows) now accountKey symbol strategy dryRun).reason =
        "recovery_consecutive_loss_lockout" ↔
      LockoutDue settings (residentRows accountKey symbol strategy dryRun rows) now := by
  rw [assess_givenRows]
  split
  · rw [assessRows_lockout_iff, consecutiveLossLockout_blocked_iff]
    constructor
    · rintro ⟨hdaily, hrolling, hmax, hlength, hrecent⟩
      obtain ⟨henough, hlosses⟩ := (le_length_lossStreak_iff hmax).mp hlength
      exact ⟨⟨hdaily, hrolling⟩, hmax, henough, hlosses, hrecent⟩
    · intro hdue
      have hlength := (le_length_lossStreak_iff hdue.configured).mpr ⟨hdue.enough, hdue.losses⟩
      exact ⟨hdue.budget.1, hdue.budget.2, hdue.configured, hlength, hdue.recent⟩
  · rename_i hdisabled
    constructor
    · intro hreason
      simp at hreason
    · intro hdue
      exact absurd (by simp [Settings.enabled, hdue.configured]) hdisabled

section Unfinished

variable {longer : List CycleRow} (h : Inserts (fun row => row.realizedPnl = none) rows longer)

include h

/-- Rows without a result count for nothing in a sum of losses. -/
theorem sum_countedLoss_eq (counts : ℤ → Bool) :
    (longer.map (countedLoss counts)).sum = (rows.map (countedLoss counts)).sum := by
  induction h with
  | nil => rfl
  | keep row _ ih => rw [List.map_cons, List.map_cons, List.sum_cons, List.sum_cons, ih]
  | insert row hrow _ ih =>
    rw [List.map_cons, List.sum_cons, countedLoss_of_none counts hrow, zero_add, ih]

theorem budgetLeft_iff : BudgetLeft settings longer now ↔ BudgetLeft settings rows now := by
  unfold BudgetLeft dailyLoss rollingLoss
  rw [sum_countedLoss_eq h, sum_countedLoss_eq h]

/-- The streak of the longer list is a front part of the streak of the shorter one. -/
theorem lossStreak_front : lossStreak longer <+: lossStreak rows :=
  (newestFirst_inserts h).takeWhile_front fun _ hrow =>
    decide_eq_false (realizedLoss_of_none hrow).not_gt

/-- The lockout of the longer list is the lockout of the shorter one, as long as its newest
rows are the same. -/
theorem lockoutDue_iff :
    LockoutDue settings longer now ↔
      LockoutDue settings rows now ∧
        (newestFirst longer).take settings.maxConsecutiveLossCycles.toNat =
          (newestFirst rows).take settings.maxConsecutiveLossCycles.toNat := by
  have hsublist := (newestFirst_inserts h).sublist
  have hhead {list : List CycleRow} (hmax : 0 < settings.maxConsecutiveLossCycles) :
      (list.take settings.maxConsecutiveLossCycles.toNat).head? = list.head? := by
    rw [List.head?_take, if_neg (by omega)]
  constructor
  · intro hdue
    have hstreak := (le_length_lossStreak_iff hdue.configured).mpr ⟨hdue.enough, hdue.losses⟩
    have hrun : settings.maxConsecutiveLossCycles.toNat ≤ (lossStreak longer).length := by omega
    have hfront := lossStreak_front h
    have hsame : (newestFirst longer).take settings.maxConsecutiveLossCycles.toNat =
        (newestFirst rows).take settings.maxConsecutiveLossCycles.toNat := by
      rw [take_of_front ( List.takeWhile_prefix _) hrun,
        take_of_front (hfront.trans ( List.takeWhile_prefix _)) hrun]
      rfl
    have hlength := hrun.trans (hfront.trans ( List.takeWhile_prefix _)).length_le
    refine ⟨⟨(budgetLeft_iff h).mp hdue.budget, hdue.configured, by omega, ?_, ?_⟩, hsame⟩
    · rw [← hsame]
      exact hdue.losses
    · rw [← hhead hdue.configured, ← hsame, hhead hdue.configured]
      exact hdue.recent
  · intro ⟨hdue, hsame⟩
    have henough := hdue.enough
    have hlength := hsublist.length_le
    refine ⟨(budgetLeft_iff h).mpr hdue.budget, hdue.configured, by omega, ?_, ?_⟩
    · rw [hsame]
      exact hdue.losses
    · rw [← hhead hdue.configured, hsame, hhead hdue.configured]
      exact hdue.recent

end Unfinished

end Claims

/-- Rows without a result leave the lockout as it is exactly when a lockout that is due
has none of them among its newest rows. -/
theorem lockout_kept_iff (settings : Settings) {rows longer : List CycleRow} (now : ℤ)
    (accountKey symbol strategy : String) (dryRun : Bool)
    (hopen : Inserts (fun row => row.realizedPnl = none) rows longer) :
    ((assess settings (givenRows longer) now accountKey symbol strategy dryRun).reason =
          "recovery_consecutive_loss_lockout" ↔
        (assess settings (givenRows rows) now accountKey symbol strategy dryRun).reason =
          "recovery_consecutive_loss_lockout") ↔
      (LockoutDue settings (residentRows accountKey symbol strategy dryRun rows) now →
        (newestFirst (residentRows accountKey symbol strategy dryRun longer)).take
            settings.maxConsecutiveLossCycles.toNat =
          (newestFirst (residentRows accountKey symbol strategy dryRun rows)).take
            settings.maxConsecutiveLossCycles.toNat) := by
  have hresident := hopen.filter (rowMatchesResidentRecovery (strip accountKey) symbol strategy dryRun)
  rw [assess_lockout_iff, assess_lockout_iff]
  exact (iff_congr (lockoutDue_iff hresident) Iff.rfl).trans and_iff_left_iff_imp

/-- A cycle that lost one unit at `time`. -/
def lostCycle (cycleId : String) (time : ℤ) : CycleRow where
  accountKey := "demo:1"
  cycleId := cycleId
  symbol := "XAUUSD"
  strategy := "grid"
  statusReason := some "resident_recovery_closed"
  startedAt := some 0
  closedAt := some time
  updatedAt := some time
  realizedPnl := some (-1)
  initialDryRun := some false

/-- A cycle whose initial trade gave no ticket: it has no result. -/
def ticketMissing (cycleId : String) (time : ℤ) : CycleRow :=
  { lostCycle cycleId time with
    statusReason := some "resident_recovery_initial_ticket_missing"
    realizedPnl := none }

/-- A lockout of an hour after two losses in a row. -/
def twoLosses : Settings := ⟨"recovery_budgeted", 0, 0, 60, 2, 60⟩

theorem assess_monotone_run :
    (lostCycle "c3" 30).realizedPnl = some (-1) ∧ (-1 : ℚ) < 0 ∧
      (assess twoLosses (givenRows ([lostCycle "c1" 10] ++ [lostCycle "c2" 20])) 40 "demo:1"
        "XAUUSD" "grid" false).allowed = false ∧
      (assess twoLosses (givenRows ([lostCycle "c1" 10] ++ lostCycle "c3" 30 ::
        [lostCycle "c2" 20])) 40 "demo:1" "XAUUSD" "grid" false).allowed = false := by
  have hblocks : (assess twoLosses (givenRows ([lostCycle "c1" 10] ++ [lostCycle "c2" 20])) 40
      "demo:1" "XAUUSD" "grid" false).allowed = false := by decide +kernel
  exact ⟨rfl, by norm_num, hblocks, assess_monotone twoLosses 40 "demo:1" "XAUUSD" "grid" false
    [lostCycle "c1" 10] [lostCycle "c2" 20] (lostCycle "c3" 30) rfl (by norm_num) hblocks⟩

theorem lockout_kept_iff_run :
    ((assess twoLosses (givenRows [ticketMissing "c3" 5, lostCycle "c1" 10, lostCycle "c2" 20]) 40
          "demo:1" "XAUUSD" "grid" false).reason = "recovery_consecutive_loss_lockout" ↔
        (assess twoLosses (givenRows [lostCycle "c1" 10, lostCycle "c2" 20]) 40
          "demo:1" "XAUUSD" "grid" false).reason = "recovery_consecutive_loss_lockout") ↔
      (LockoutDue twoLosses
          (residentRows "demo:1" "XAUUSD" "grid" false [lostCycle "c1" 10, lostCycle "c2" 20]) 40 →
        (newestFirst (residentRows "demo:1" "XAUUSD" "grid" false
            [ticketMissing "c3" 5, lostCycle "c1" 10, lostCycle "c2" 20])).take 2 =
          (newestFirst (residentRows "demo:1" "XAUUSD" "grid" false
            [lostCycle "c1" 10, lostCycle "c2" 20])).take 2) :=
  lockout_kept_iff twoLosses 40 "demo:1" "XAUUSD" "grid" false (.insert _ rfl (.refl _))

/-- A newest row without a result lifts the lockout of two losses. -/
theorem unfinished_row_lifts_lockout :
    ¬ ∀ (settings : Settings) (rows longer : List CycleRow) (now : ℤ)
        (accountKey symbol strategy : String) (dryRun : Bool),
      Inserts (fun row => row.realizedPnl = none) rows longer →
        ((assess settings (givenRows longer) now accountKey symbol strategy dryRun).reason =
            "recovery_consecutive_loss_lockout" ↔
          (assess settings (givenRows rows) now accountKey symbol strategy dryRun).reason =
            "recovery_consecutive_loss_lockout") := by
  intro hclaim
  have hinserts : Inserts (fun row => row.realizedPnl = none)
      [lostCycle "c1" 10, lostCycle "c2" 20]
      [ticketMissing "c3" 30, lostCycle "c1" 10, lostCycle "c2" 20] := .insert _ rfl (.refl _)
  have hsame := hclaim twoLosses _ _ 40 "demo:1" "XAUUSD" "grid" false hinserts
  have hlocked : (assess twoLosses (givenRows [lostCycle "c1" 10, lostCycle "c2" 20]) 40 "demo:1"
      "XAUUSD" "grid" false).reason = "recovery_consecutive_loss_lockout" := by decide +kernel
  have hlifted : (assess twoLosses
      (givenRows [ticketMissing "c3" 30, lostCycle "c1" 10, lostCycle "c2" 20]) 40 "demo:1"
      "XAUUSD" "grid" false).reason = "recovery_risk_budget_ok" := by decide +kernel
  have hreason := hsame.mpr hlocked
  rw [hlifted] at hreason
  exact absurd hreason (by decide)

end MT5Services.RecoveryBudget
