import MT5Services.RecoveryController

/-!
Averages and totals of a recovery cycle over a run of evaluations and applied steps. Each
step rounds the new total to eight decimals and the new average to ten, starting from the
rounded ones before. Volumes are rounded to eight decimals themselves, so only the first
step can move the total; and rounding cannot carry an average past prices that have ten
decimals. Prices and volumes are exact decimals.
-/
namespace MT5Services.RecoveryAverages

open PyNumber RecoveryModels RecoveryController Runs

/-- A snapshot, at whose time the step is evaluated and applied, and whether the decision
was carried out. -/
structure Round where
  snapshot : RecoveryMarketSnapshot
  applied : Bool

/-- The cycle with the decisions applied so far. -/
structure Ledger where
  cycle : RecoveryCycleState
  opened : List RecoveryDecision

def ledgerStep (policy : RecoveryPolicy) (ledger : Ledger) (round : Round) : Option Ledger :=
  match evaluateNextStep policy ledger.cycle round.snapshot (some round.snapshot.time) with
  | .error _ => none
  | .ok decision =>
    if decision.action = .openStep ∧ round.applied = true then
      (applyOpenStep ledger.cycle decision round.snapshot.time).toOption.map fun cycle =>
        ⟨cycle, ledger.opened ++ [decision]⟩
    else some ledger

namespace Ledger

def stepPrices (ledger : Ledger) : List ℚ := ledger.opened.filterMap fun d => d.entryPrice

def stepVolumes (ledger : Ledger) : List ℚ := ledger.opened.filterMap fun d => d.volume

end Ledger

/-- A number with at most this many decimals. -/
def HasDecimals (digits : ℕ) (x : ℚ) : Prop := ∃ n : ℤ, x * 10 ^ digits = n

/-- The average lies between the extremes of the initial price and the step prices, and the
total is the initial volume with the step volumes, to eight decimals. -/
structure Tracks (start : RecoveryCycleState) (ledger : Ledger) : Prop where
  low : ∃ low ∈ start.averageEntryPrice :: ledger.stepPrices,
    low ≤ ledger.cycle.averageEntryPrice
  high : ∃ high ∈ start.averageEntryPrice :: ledger.stepPrices,
    ledger.cycle.averageEntryPrice ≤ high
  total : |ledger.cycle.totalVolume - (start.totalVolume + ledger.stepVolumes.sum)| ≤
    1 / 2 / 10 ^ 8

/-- The cycle's last step is not later than this time. -/
def Before (cycle : RecoveryCycleState) (time : ℤ) : Prop :=
  ∀ last, cycle.lastStepAt = some last → last ≤ time

/-- `last_step_at` does not go back from one state to the other. -/
def StepAtLe (cycle next : RecoveryCycleState) : Prop :=
  ∀ last, cycle.lastStepAt = some last → ∃ later, next.lastStepAt = some later ∧ last ≤ later

/-- Along the run `last_step_at` is non-decreasing. -/
def StepAtMonotone (policy : RecoveryPolicy) (start : RecoveryCycleState) (rounds : List Round)
    (final : Ledger) : Prop :=
  ∀ front back between, rounds = front ++ back →
    run (ledgerStep policy) ⟨start, []⟩ front = some between → StepAtLe between.cycle final.cycle

theorem hasDecimals_round (x : ℚ) (digits : ℕ) : HasDecimals digits (round x digits) := by
  have hscale : (10 : ℚ) ^ digits ≠ 0 := by positivity
  exact ⟨roundHalfEven (x * 10 ^ digits), div_mul_cancel₀ _ hscale⟩

theorem HasDecimals.add {digits : ℕ} {x y : ℚ} (hx : HasDecimals digits x)
    (hy : HasDecimals digits y) : HasDecimals digits (x + y) := by
  obtain ⟨m, hm⟩ := hx
  obtain ⟨n, hn⟩ := hy
  exact ⟨m + n, by rw [add_mul, hm, hn, Int.cast_add]⟩

theorem round_of_hasDecimals {digits : ℕ} {x : ℚ} (h : HasDecimals digits x) :
    round x digits = x := by
  obtain ⟨n, hn⟩ := h
  exact round_eq_self hn

theorem hasDecimals_nextVolume (policy : RecoveryPolicy) (cycle : RecoveryCycleState) :
    HasDecimals 8 (nextVolume policy cycle) := by
  unfold nextVolume roundVolume
  split_ifs
  · exact hasDecimals_round _ 8
  · exact hasDecimals_round _ 8

theorem round_nonneg {x : ℚ} (h : 0 ≤ x) (digits : ℕ) : 0 ≤ round x digits := by
  have hzero : round 0 digits = 0 := round_of_hasDecimals ⟨0, by simp⟩
  exact hzero ▸ round_mono h digits

theorem nextVolume_nonneg (policy : RecoveryPolicy) (cycle : RecoveryCycleState) :
    0 ≤ nextVolume policy cycle := by
  have hpolicy := firstFailure_eq_none.mp policy.accepted
  simp only [PolicyFields.checks, List.forall_mem_cons, decide_eq_true_eq] at hpolicy
  have hmultiplier : 1 ≤ policy.multiplier := hpolicy.2.2.1
  have hcycle := firstFailure_eq_none.mp cycle.accepted
  simp only [CycleFields.checks, List.forall_mem_cons, decide_eq_true_eq] at hcycle
  have hbase : 0 < cycle.baseVolume := hcycle.2.2.1
  have hvalue : 0 ≤ cycle.baseVolume * policy.multiplier ^ (cycle.stepCount + 1).toNat := by
    positivity
  unfold nextVolume roundVolume
  split_ifs with hstep
  · exact round_nonneg hvalue 8
  · have hpos : 0 < policy.volumeStep := not_le.mp hstep
    have hsteps : 0 ≤ roundHalfEven
        (cycle.baseVolume * policy.multiplier ^ (cycle.stepCount + 1).toNat /
          policy.volumeStep) := by
      have hmono := roundHalfEven_mono (div_nonneg hvalue hpos.le)
      have hzero := roundHalfEven_intCast 0
      rw [Int.cast_zero] at hzero
      rwa [hzero] at hmono
    refine round_nonneg ?_ 8
    positivity

theorem totalVolume_pos (cycle : RecoveryCycleState) : 0 < cycle.totalVolume := by
  have hcycle := firstFailure_eq_none.mp cycle.accepted
  simp only [CycleFields.checks, List.forall_mem_cons, decide_eq_true_eq] at hcycle
  exact hcycle.2.2.2.1

/-- The weighted mean of two numbers. -/
def mean (average total price volume : ℚ) : ℚ :=
  (average * total + price * volume) / (total + volume)

theorem le_mean {low average total price volume : ℚ} (htotal : 0 < total) (hvolume : 0 ≤ volume)
    (haverage : low ≤ average) (hprice : low ≤ price) : low ≤ mean average total price volume := by
  have hpos : 0 < total + volume := by positivity
  rw [mean, le_div_iff₀ hpos, mul_add]
  exact add_le_add (mul_le_mul_of_nonneg_right haverage htotal.le)
    (mul_le_mul_of_nonneg_right hprice hvolume)

theorem mean_le {high average total price volume : ℚ} (htotal : 0 < total)
    (hvolume : 0 ≤ volume) (haverage : average ≤ high) (hprice : price ≤ high) :
    mean average total price volume ≤ high := by
  have hpos : 0 < total + volume := by positivity
  rw [mean, div_le_iff₀ hpos, mul_add]
  exact add_le_add (mul_le_mul_of_nonneg_right haverage htotal.le)
    (mul_le_mul_of_nonneg_right hprice hvolume)

/-- The fields of the cycle after an applied step. -/
structure AppliedStep (policy : RecoveryPolicy) (cycle : RecoveryCycleState) (now : ℤ)
    (price : ℚ) (next : RecoveryCycleState) : Prop where
  stepCount : next.stepCount = cycle.stepCount + 1
  totalVolume : next.totalVolume = round (cycle.totalVolume + nextVolume policy cycle) 8
  average : next.averageEntryPrice =
    round (mean cycle.averageEntryPrice cycle.totalVolume price (nextVolume policy cycle)) 10
  lastEntryPrice : next.lastEntryPrice = price
  lastStepAt : next.lastStepAt = some now

variable {policy : RecoveryPolicy} {now : ℤ}

theorem appliedStep_of_ok {cycle next : RecoveryCycleState}
    {snapshot : RecoveryMarketSnapshot} {decision : RecoveryDecision}
    (hopens : OpensStep policy cycle snapshot decision)
    (h : applyOpenStep cycle decision now = .ok next) :
    ∃ price, decision.entryPrice = some price ∧ AppliedStep policy cycle now price next := by
  unfold applyOpenStep at h
  split at h
  · cases h
  rw [hopens.volume, hopens.stepIndex] at h
  cases hprice : decision.entryPrice with
  | none =>
    rw [hprice] at h
    cases h
  | some price =>
    rw [hprice] at h
    have hfields := RecoveryCycleState.fields_of_mk? h
    exact ⟨price, rfl,
      { stepCount := congrArg CycleFields.stepCount hfields
        totalVolume := congrArg CycleFields.totalVolume hfields
        average := congrArg CycleFields.averageEntryPrice hfields
        lastEntryPrice := congrArg CycleFields.lastEntryPrice hfields
        lastStepAt := congrArg CycleFields.lastStepAt hfields }⟩

variable {ledger next : Ledger}

/-- A round leaves the ledger as it is or applies one step. -/
theorem ledgerStep_cases {round : Round} (h : ledgerStep policy ledger round = some next) :
    next = ledger ∨ ∃ decision price, next.opened = ledger.opened ++ [decision] ∧
      decision.volume = some (nextVolume policy ledger.cycle) ∧
      decision.entryPrice = some price ∧
      AppliedStep policy ledger.cycle round.snapshot.time price next.cycle := by
  unfold ledgerStep at h
  cases hdecision : evaluateNextStep policy ledger.cycle round.snapshot
      (some round.snapshot.time) with
  | error message =>
    rw [hdecision] at h
    cases h
  | ok decision =>
    rw [hdecision] at h
    dsimp only at h
    split at h
    · rename_i happlied
      have hopens := evaluateNextStep_opens hdecision happlied.1
      cases hcycle : applyOpenStep ledger.cycle decision round.snapshot.time with
      | error message =>
        rw [hcycle] at h
        cases h
      | ok cycle =>
        rw [hcycle] at h
        cases h
        obtain ⟨price, hprice, hstep⟩ := appliedStep_of_ok hopens hcycle
        exact Or.inr ⟨decision, price, rfl, hopens.volume, hprice, hstep⟩
    · cases h
      exact Or.inl rfl

/-- What was added up so far: nothing yet, or volumes of eight decimals. -/
inductive AddedUp (initial : ℚ) : List ℚ → ℚ → Prop
  | nothing : AddedUp initial [] initial
  | volumes {added : List ℚ} {total : ℚ} (hdecimals : HasDecimals 8 total)
      (hclose : |total - (initial + added.sum)| ≤ 1 / 2 / 10 ^ 8) : AddedUp initial added total

theorem AddedUp.close {initial total : ℚ} {added : List ℚ} (h : AddedUp initial added total) :
    |total - (initial + added.sum)| ≤ 1 / 2 / 10 ^ 8 := by
  cases h with
  | nothing =>
    rw [List.sum_nil, add_zero, sub_self, abs_zero]
    positivity
  | volumes hdecimals hclose => exact hclose

/-- Only the first volume meets a total that may have more decimals. -/
theorem AddedUp.add {initial total volume : ℚ} {added : List ℚ}
    (h : AddedUp initial added total) (hvolume : HasDecimals 8 volume) :
    AddedUp initial (added ++ [volume]) (round (total + volume) 8) := by
  refine .volumes (hasDecimals_round _ 8) ?_
  cases h with
  | nothing =>
    rw [abs_sub_comm]
    simpa using abs_sub_round_le (initial + volume) 8
  | volumes hdecimals hclose =>
    rw [round_of_hasDecimals (hdecimals.add hvolume), List.sum_append, List.sum_singleton]
    have hsame : ∀ sum : ℚ, sum + volume - (initial + (added.sum + volume)) =
        sum - (initial + added.sum) := fun sum => by ring
    rwa [hsame]

/-- A new average stays above the lower of the old bound and the new price. -/
theorem AppliedStep.low {cycle next : RecoveryCycleState}
    {low price : ℚ} (h : AppliedStep policy cycle now price next)
    (hlow : low ≤ cycle.averageEntryPrice) (hdecimals : HasDecimals 10 low)
    (hprice : HasDecimals 10 price) : low ≤ next.averageEntryPrice ∨
      price ≤ next.averageEntryPrice := by
  rw [h.average]
  rcases le_total low price with hle | hle
  · have hmean := le_mean (totalVolume_pos cycle) (nextVolume_nonneg policy cycle) hlow hle
    exact Or.inl ((round_of_hasDecimals hdecimals).ge.trans (round_mono hmean 10))
  · have hmean := le_mean (totalVolume_pos cycle) (nextVolume_nonneg policy cycle)
      (hle.trans hlow) le_rfl
    exact Or.inr ((round_of_hasDecimals hprice).ge.trans (round_mono hmean 10))

theorem AppliedStep.high {cycle next : RecoveryCycleState}
    {high price : ℚ} (h : AppliedStep policy cycle now price next)
    (hhigh : cycle.averageEntryPrice ≤ high) (hdecimals : HasDecimals 10 high)
    (hprice : HasDecimals 10 price) : next.averageEntryPrice ≤ high ∨
      next.averageEntryPrice ≤ price := by
  rw [h.average]
  rcases le_total price high with hle | hle
  · have hmean := mean_le (totalVolume_pos cycle) (nextVolume_nonneg policy cycle) hhigh hle
    exact Or.inl ((round_mono hmean 10).trans (round_of_hasDecimals hdecimals).le)
  · have hmean := mean_le (totalVolume_pos cycle) (nextVolume_nonneg policy cycle)
      (hhigh.trans hle) le_rfl
    exact Or.inr ((round_mono hmean 10).trans (round_of_hasDecimals hprice).le)

/-- What a run keeps: the total adds up, and if all prices so far have ten decimals, the
average is between two of them. -/
structure LedgerInvariant (start : RecoveryCycleState) (ledger : Ledger) : Prop where
  total : AddedUp start.totalVolume ledger.stepVolumes ledger.cycle.totalVolume
  low : (∀ price ∈ start.averageEntryPrice :: ledger.stepPrices, HasDecimals 10 price) →
    ∃ low ∈ start.averageEntryPrice :: ledger.stepPrices, low ≤ ledger.cycle.averageEntryPrice
  high : (∀ price ∈ start.averageEntryPrice :: ledger.stepPrices, HasDecimals 10 price) →
    ∃ high ∈ start.averageEntryPrice :: ledger.stepPrices,
      ledger.cycle.averageEntryPrice ≤ high

theorem ledgerStep_invariant {start : RecoveryCycleState} {round : Round}
    (hinv : LedgerInvariant start ledger)
    (h : ledgerStep policy ledger round = some next) : LedgerInvariant start next := by
  rcases ledgerStep_cases h with rfl | ⟨decision, price, hopened, hvolume, hprice, hstep⟩
  · exact hinv
  have hprices : start.averageEntryPrice :: next.stepPrices =
      (start.averageEntryPrice :: ledger.stepPrices) ++ [price] := by
    rw [Ledger.stepPrices, Ledger.stepPrices, hopened, List.filterMap_append,
      List.filterMap_cons_some hprice, List.filterMap_nil, List.cons_append]
  have hvolumes : next.stepVolumes = ledger.stepVolumes ++ [nextVolume policy ledger.cycle] := by
    rw [Ledger.stepVolumes, Ledger.stepVolumes, hopened, List.filterMap_append,
      List.filterMap_cons_some hvolume, List.filterMap_nil]
  constructor
  · rw [hstep.totalVolume, hvolumes]
    exact hinv.total.add (hasDecimals_nextVolume policy ledger.cycle)
  · rw [hprices]
    intro hdecimals
    have hold : ∀ p ∈ start.averageEntryPrice :: ledger.stepPrices, HasDecimals 10 p :=
      fun p hp => hdecimals p (List.mem_append_left _ hp)
    obtain ⟨low, hmem, hle⟩ := hinv.low hold
    have hlast := hdecimals price (List.mem_append_right _ List.mem_cons_self)
    rcases hstep.low hle (hold low hmem) hlast with hlow | hlow
    · exact ⟨low, List.mem_append_left _ hmem, hlow⟩
    · exact ⟨price, List.mem_append_right _ List.mem_cons_self, hlow⟩
  · rw [hprices]
    intro hdecimals
    have hold : ∀ p ∈ start.averageEntryPrice :: ledger.stepPrices, HasDecimals 10 p :=
      fun p hp => hdecimals p (List.mem_append_left _ hp)
    obtain ⟨high, hmem, hle⟩ := hinv.high hold
    have hlast := hdecimals price (List.mem_append_right _ List.mem_cons_self)
    rcases hstep.high hle (hold high hmem) hlast with hhigh | hhigh
    · exact ⟨high, List.mem_append_left _ hmem, hhigh⟩
    · exact ⟨price, List.mem_append_right _ List.mem_cons_self, hhigh⟩

theorem invariant_start (start : RecoveryCycleState) : LedgerInvariant start ⟨start, []⟩ where
  total := .nothing
  low := fun _ => ⟨_, List.mem_cons_self, le_rfl⟩
  high := fun _ => ⟨_, List.mem_cons_self, le_rfl⟩

/-- After a round the last step is the old one or the snapshot's. -/
theorem before_step {round : Round} {time : ℤ}
    (h : ledgerStep policy ledger round = some next) (hbefore : Before ledger.cycle time)
    (hround : round.snapshot.time ≤ time) : Before next.cycle time := by
  rcases ledgerStep_cases h with rfl | ⟨_, _, _, _, _, hstep⟩
  · exact hbefore
  · intro last hlast
    rw [hstep.lastStepAt] at hlast
    cases hlast
    exact hround

theorem before_run {rounds : List Round}
    {time : ℤ} (hrun : run (ledgerStep policy) ledger rounds = some next)
    (hbefore : Before ledger.cycle time) (hrounds : ∀ round ∈ rounds, round.snapshot.time ≤ time) :
    Before next.cycle time := by
  refine run_invariant_along (I := fun state => Before state.cycle time) ?_ hbefore
    (along_of_forall hrounds) hrun
  intro state round after hs hround hstep
  exact before_step hstep hs hround

theorem stepAtLe_refl (cycle : RecoveryCycleState) : StepAtLe cycle cycle :=
  fun last hlast => ⟨last, hlast, le_rfl⟩

theorem StepAtLe.trans {first second third : RecoveryCycleState} (h : StepAtLe first second)
    (h' : StepAtLe second third) : StepAtLe first third := by
  intro last hlast
  obtain ⟨later, hlater, hle⟩ := h last hlast
  obtain ⟨latest, hlatest, hle'⟩ := h' later hlater
  exact ⟨latest, hlatest, hle.trans hle'⟩

/-- Over rounds in the order of time, none of them before the last step. -/
theorem stepAtLe_run {rounds : List Round}
    (hrun : run (ledgerStep policy) ledger rounds = some next)
    (htimes : rounds.Pairwise fun a b => a.snapshot.time ≤ b.snapshot.time)
    (hbefore : ∀ round ∈ rounds, Before ledger.cycle round.snapshot.time) :
    StepAtLe ledger.cycle next.cycle := by
  induction rounds generalizing ledger with
  | nil =>
    cases Option.some.inj hrun
    exact stepAtLe_refl _
  | cons round rest ih =>
    obtain ⟨between, hstep, hrest⟩ := run_cons hrun
    obtain ⟨hfirst, htail⟩ := List.pairwise_cons.mp htimes
    have hround := hbefore round List.mem_cons_self
    refine StepAtLe.trans ?_ (ih hrest htail ?_)
    · rcases ledgerStep_cases hstep with rfl | ⟨_, _, _, _, _, happlied⟩
      · exact stepAtLe_refl _
      · exact fun last hlast => ⟨_, happlied.lastStepAt, hround last hlast⟩
    · intro other hother
      exact before_step hstep (hbefore other (List.mem_cons_of_mem _ hother))
        (hfirst other hother)

/-- In every run whose prices have at most ten decimals the average stays between the
extremes of the prices and the total adds up; and `last_step_at` is non-decreasing when the
times of the snapshots are and none of them is before the cycle's `last_step_at`. -/
theorem run_tracks (policy : RecoveryPolicy) (start : RecoveryCycleState) (rounds : List Round)
    (final : Ledger) (hrun : run (ledgerStep policy) ⟨start, []⟩ rounds = some final)
    (hprices : ∀ price ∈ start.averageEntryPrice :: final.stepPrices,
      0 < price ∧ HasDecimals 10 price) :
    Tracks start final ∧
      (rounds.Pairwise (fun a b => a.snapshot.time ≤ b.snapshot.time) →
        (∀ round ∈ rounds, Before start round.snapshot.time) →
        StepAtMonotone policy start rounds final) := by
  have hinv : LedgerInvariant start final :=
    run_invariant (fun _ _ _ hs hstep => ledgerStep_invariant hs hstep) (invariant_start start) hrun
  have hdecimals : ∀ price ∈ start.averageEntryPrice :: final.stepPrices, HasDecimals 10 price :=
    fun price hprice => (hprices price hprice).2
  refine ⟨⟨hinv.low hdecimals, hinv.high hdecimals, hinv.total.close⟩, ?_⟩
  rintro htimes hbefore front back between rfl hfront
  have hback : run (ledgerStep policy) between back = some final := by
    rw [run_append, hfront, Option.bind_some] at hrun
    exact hrun
  obtain ⟨_, htail, hacross⟩ := List.pairwise_append.mp htimes
  refine stepAtLe_run hback htail ?_
  intro round hround
  exact before_run hfront (hbefore round (List.mem_append_right _ hround))
    fun earlier hearlier => hacross earlier hearlier round hround

def fallenRounds : List Round := [⟨fallenTick.snapshot, true⟩]

theorem fallenRounds_isSome :
    (run (ledgerStep doublingPolicy) ⟨smallCycle, []⟩ fallenRounds).isSome = true := by
  decide +kernel

/-- One step at 1999 after an initial fill at 2000. -/
def fallenLedger : Ledger := Option.get _ fallenRounds_isSome

theorem fallen_prices : ∀ price ∈ smallCycle.averageEntryPrice :: fallenLedger.stepPrices,
    0 < price ∧ HasDecimals 10 price := by
  have hprices : smallCycle.averageEntryPrice :: fallenLedger.stepPrices = [2000, 1999] := by
    decide +kernel
  rw [hprices]
  intro price hprice
  rcases List.mem_pair.mp hprice with rfl | rfl
  · exact ⟨by norm_num, 2000 * 10 ^ 10, by norm_num⟩
  · exact ⟨by norm_num, 1999 * 10 ^ 10, by norm_num⟩

theorem run_tracks_fallen :
    Tracks smallCycle fallenLedger ∧
      (fallenRounds.Pairwise (fun a b => a.snapshot.time ≤ b.snapshot.time) →
        (∀ round ∈ fallenRounds, Before smallCycle round.snapshot.time) →
        StepAtMonotone doublingPolicy smallCycle fallenRounds fallenLedger) :=
  run_tracks doublingPolicy smallCycle fallenRounds fallenLedger
    (Option.some_get fallenRounds_isSome).symm fallen_prices

/-- The same cycle, opened after the snapshot was taken. -/
def lateFields : CycleFields := { smallFields with lastStepAt := some 5 }

theorem late_accepted : firstFailure lateFields.checks = none := small_accepted

def lateCycle : RecoveryCycleState := ⟨lateFields, late_accepted⟩

/-- A single snapshot from before the opening takes `last_step_at` back. -/
theorem step_before_opening :
    ¬ ∀ policy start rounds final, run (ledgerStep policy) ⟨start, []⟩ rounds = some final →
      (∀ price ∈ start.averageEntryPrice :: final.stepPrices, 0 < price ∧ HasDecimals 10 price) →
      Tracks start final ∧
        (rounds.Pairwise (fun a b => a.snapshot.time ≤ b.snapshot.time) →
          StepAtMonotone policy start rounds final) := by
  intro hclaim
  have hrun : (run (ledgerStep doublingPolicy) ⟨lateCycle, []⟩ fallenRounds).map
      (fun ledger => (ledger.cycle.lastStepAt, ledger.stepPrices)) = some (some 0, [1999]) := by
    decide +kernel
  obtain ⟨final, hfinal, hvalues⟩ := Option.map_eq_some_iff.mp hrun
  obtain ⟨hlast, hprices⟩ := Prod.mk.inj hvalues
  have hdecimals : ∀ price ∈ lateCycle.averageEntryPrice :: final.stepPrices,
      0 < price ∧ HasDecimals 10 price := by
    have hfirst : lateCycle.averageEntryPrice = 2000 := rfl
    rw [hfirst, hprices]
    intro price hprice
    rcases List.mem_pair.mp hprice with rfl | rfl
    · exact ⟨by norm_num, 2000 * 10 ^ 10, by norm_num⟩
    · exact ⟨by norm_num, 1999 * 10 ^ 10, by norm_num⟩
  have hmonotone := (hclaim doublingPolicy lateCycle fallenRounds final hfinal hdecimals).2
    (List.pairwise_singleton _ _)
  obtain ⟨later, hlater, hle⟩ := hmonotone [] fallenRounds ⟨lateCycle, []⟩ rfl rfl 5 rfl
  rw [hlast] at hlater
  cases hlater
  omega

end MT5Services.RecoveryAverages
