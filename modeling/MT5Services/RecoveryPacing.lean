import MT5Services.PyNumber
import MT5Services.RecoveryRows
import MT5Services.Runs
import Mathlib.Data.List.Dedup
import Mathlib.Data.List.MinMax

/-!
`DemoBoundedRecoveryRunner._cycle_pacing_snapshot`, the gate that spaces the starts of
cycles, and the runs in which cycles are started only while it is open. The hourly gate
closes until an hour after the earliest start of the last hour, both ends included, so a
start that is exactly one hour old opens it again however many starts came after it.
-/
namespace MT5Services.RecoveryPacing

open PyText PyNumber RecoveryRows Runs

structure Settings extends Identity where
  minCycleIntervalSeconds : ℚ
  cooldownAfterCycleCloseSeconds : ℚ
  maxCyclesPerHour : ℤ
  deriving DecidableEq

/-- The snapshot repeats the settings. -/
structure Snapshot where
  settings : Settings
  enabled : Bool
  latestStartedAt : Option ℤ
  latestClosedAt : Option ℤ
  hourlyCycleCount : ℕ
  nextCycleNotBefore : Option ℤ
  remainingSeconds : ℚ
  activeReason : Option String
  error : Option String

/-- `timedelta(seconds=...)`. -/
def timedelta (seconds : ℚ) : ℤ := roundHalfEven (seconds * 1000000)

/-- `_list_resident_recovery_cycle_rows`. -/
def listResidentRecoveryCycleRows (settings : Settings) (lister : Lister) (limit : ℤ) :
    Except String (List CycleRow) :=
  match lister with
  | none => .ok []
  | some list =>
    (list settings.symbol settings.strategy (max limit 1)).map fun rows =>
      rows.filter settings.isResidentCycle

/-- The starts from `hourStart` on with the cycle each belongs to. -/
def recentStarts (rows : List CycleRow) (hourStart : ℤ) : List (String × ℤ) :=
  rows.filterMap fun row =>
    (row.startedAt.filter fun startedAt => hourStart ≤ startedAt).map fun startedAt =>
      (cycleKey row startedAt, startedAt)

/-- The length of `recent_by_cycle`. -/
def recentCycles (rows : List CycleRow) (hourStart : ℤ) : List String :=
  ((recentStarts rows hourStart).map Prod.fst).dedup

/-- `min(recent_by_cycle.values())`, where a cycle has its earliest start. -/
def earliestRecent (rows : List CycleRow) (hourStart : ℤ) : Option ℤ :=
  ((recentStarts rows hourStart).map Prod.snd).min?

/-- When each configured gate opens, and its reason. -/
def gates (settings : Settings) (rows : List CycleRow) (now : ℤ) : List (ℤ × String) :=
  let latestStarted := (rows.filterMap CycleRow.startedAt).max?
  let latestClosed := (rows.filterMap CycleRow.closedAt).max?
  (if 0 < settings.minCycleIntervalSeconds then
      (latestStarted.map fun startedAt =>
        (startedAt + timedelta settings.minCycleIntervalSeconds,
          "cycle_min_interval_active")).toList
    else []) ++
  (if 0 < settings.cooldownAfterCycleCloseSeconds then
      (latestClosed.map fun closedAt =>
        (closedAt + timedelta settings.cooldownAfterCycleCloseSeconds,
          "cycle_close_cooldown_active")).toList
    else []) ++
  (if 0 < settings.maxCyclesPerHour ∧
        settings.maxCyclesPerHour ≤ (recentCycles rows (now - hour)).length then
      ((earliestRecent rows (now - hour)).map fun earliest =>
        (earliest + hour, "max_cycles_per_hour_reached")).toList
    else [])

def baseSnapshot (settings : Settings) (enabled : Bool) : Snapshot where
  settings := settings
  enabled := enabled
  latestStartedAt := none
  latestClosedAt := none
  hourlyCycleCount := 0
  nextCycleNotBefore := none
  remainingSeconds := 0
  activeReason := none
  error := none

/-- The first of the latest gates. -/
def latestGate (gates : List (ℤ × String)) : Option (ℤ × String) :=
  @List.argmax _ _ Int.instLinearOrder.toPreorder Int.decLt Prod.fst gates

/-- `_cycle_pacing_snapshot`. -/
def cyclePacingSnapshot (settings : Settings) (lister : Lister) (now : ℤ) : Snapshot :=
  if 0 < settings.minCycleIntervalSeconds ∨ 0 < settings.cooldownAfterCycleCloseSeconds ∨
      0 < settings.maxCyclesPerHour then
    match listResidentRecoveryCycleRows settings lister (max (settings.maxCyclesPerHour * 4) 100) with
    | .error message =>
      { baseSnapshot settings true with
        activeReason := some "cycle_pacing_state_unavailable"
        error := some message }
    | .ok rows =>
      let snapshot :=
        { baseSnapshot settings true with
          latestStartedAt := (rows.filterMap CycleRow.startedAt).max?
          latestClosedAt := (rows.filterMap CycleRow.closedAt).max?
          hourlyCycleCount := (recentCycles rows (now - hour)).length }
      match latestGate ((gates settings rows now).filter fun gate => now < gate.1) with
      | none => snapshot
      | some (nextTime, reason) =>
        { snapshot with
          nextCycleNotBefore := some nextTime
          remainingSeconds := round (max 0 ((nextTime - now : ℤ) / 1000000)) 3
          activeReason := some reason }
  else baseSnapshot settings false

/-- A run: the clock, the rows the lister shows, and the starts made, each with its cycle. -/
structure State where
  clock : ℤ
  rows : List CycleRow
  starts : List (String × ℤ)
  deriving DecidableEq

/-- Every started cycle is among the rows with its start. -/
def Visible (settings : Settings) (starts : List (String × ℤ)) (rows : List CycleRow) : Prop :=
  ∀ start ∈ starts, ∃ row ∈ rows, settings.isResidentCycle row = true ∧
    strip row.cycleId = start.1 ∧ row.startedAt = some start.2

instance (settings : Settings) (starts : List (String × ℤ)) (rows : List CycleRow) :
    Decidable (Visible settings starts rows) :=
  inferInstanceAs (Decidable (∀ start ∈ starts, ∃ row ∈ rows,
    settings.isResidentCycle row = true ∧ strip row.cycleId = start.1 ∧
      row.startedAt = some start.2))

/-- Time passes and rows are written, or a new cycle starts. -/
inductive Act
  | observe (now : ℤ) (rows : List CycleRow)
  | start (row : CycleRow)
  deriving DecidableEq

/-- The row is that of a new cycle, started now. -/
def NewCycle (settings : Settings) (s : State) (row : CycleRow) : Prop :=
  settings.isResidentCycle row = true ∧ row.startedAt = some s.clock ∧ strip row.cycleId ≠ "" ∧
    strip row.cycleId ∉ s.starts.map Prod.fst

instance (settings : Settings) (s : State) (row : CycleRow) :
    Decidable (NewCycle settings s row) :=
  inferInstanceAs (Decidable (settings.isResidentCycle row = true ∧
    row.startedAt = some s.clock ∧ strip row.cycleId ≠ "" ∧
    strip row.cycleId ∉ s.starts.map Prod.fst))

/-- A cycle starts only where the pacing gate gives no reason against it. -/
def step (settings : Settings) (s : State) : Act → Option State
  | .observe now rows =>
    if s.clock ≤ now ∧ Visible settings s.starts rows then
      some { s with
        clock := now
        rows := rows }
    else none
  | .start row =>
    if (cyclePacingSnapshot settings (givenRows s.rows) s.clock).activeReason = none ∧
        NewCycle settings s row then
      some { s with
        rows := row :: s.rows
        starts := (strip row.cycleId, s.clock) :: s.starts }
    else none

/-- The starts in the hour that begins after `time`. -/
def startsWithin (starts : List (String × ℤ)) (time : ℤ) : List (String × ℤ) :=
  starts.filter fun start => time < start.2 ∧ start.2 ≤ time + hour

/-- No hour has more starts than the cap allows. -/
def WithinCap (settings : Settings) (starts : List (String × ℤ)) : Prop :=
  ∀ time, ((startsWithin starts time).length : ℤ) ≤ settings.maxCyclesPerHour

/-- The cap is used up, and some cycle started exactly an hour ago. -/
def BoundaryHidesCap (settings : Settings) (s : State) : Prop :=
  settings.maxCyclesPerHour ≤ (startsWithin s.starts (s.clock - hour)).length ∧
    ∃ row ∈ s.rows, settings.isResidentCycle row = true ∧ row.startedAt = some (s.clock - hour)

/-- No cycle starts there. -/
def AvoidsBoundary (settings : Settings) (s : State) (a : Act) : Prop :=
  ∀ row, a = .start row → (step settings s a).isSome = true → ¬ BoundaryHidesCap settings s

/-- What the rows and the clock keep: the starts are over, visible, and of distinct cycles. -/
structure Recorded (settings : Settings) (s : State) : Prop where
  distinct : (s.starts.map Prod.fst).Nodup
  named : ∀ start ∈ s.starts, start.1 ≠ ""
  past : ∀ start ∈ s.starts, start.2 ≤ s.clock
  visible : Visible settings s.starts s.rows

variable {settings : Settings} {s t : State} {a : Act}

theorem step_cases (h : step settings s a = some t) :
    (∃ now rows, a = .observe now rows ∧ s.clock ≤ now ∧ Visible settings s.starts rows ∧
        t = { s with clock := now, rows := rows }) ∨
      ∃ row, a = .start row ∧
        (cyclePacingSnapshot settings (givenRows s.rows) s.clock).activeReason = none ∧
        NewCycle settings s row ∧
        t = { s with rows := row :: s.rows, starts := (strip row.cycleId, s.clock) :: s.starts } := by
  cases a with
  | observe now rows =>
    simp only [step, Option.ite_none_right_eq_some, Option.some.injEq] at h
    obtain ⟨⟨hclock, hvisible⟩, rfl⟩ := h
    exact Or.inl ⟨now, rows, rfl, hclock, hvisible, rfl⟩
  | start row =>
    simp only [step, Option.ite_none_right_eq_some, Option.some.injEq] at h
    obtain ⟨⟨hgate, hnew⟩, rfl⟩ := h
    exact Or.inr ⟨row, rfl, hgate, hnew, rfl⟩

theorem Recorded.step (hs : Recorded settings s)
    (h : step settings s a = some t) : Recorded settings t := by
  rcases step_cases h with ⟨now, rows, _, hclock, hvisible, rfl⟩ | ⟨row, _, _, hnew, rfl⟩
  · exact ⟨hs.distinct, hs.named, fun start hstart => (hs.past start hstart).trans hclock, hvisible⟩
  · obtain ⟨hresident, hstarted, hname, hfresh⟩ := hnew
    refine ⟨?_, ?_, ?_, ?_⟩
    · rw [List.map_cons]
      exact List.nodup_cons.mpr ⟨hfresh, hs.distinct⟩
    · exact List.forall_mem_cons.mpr ⟨hname, hs.named⟩
    · exact List.forall_mem_cons.mpr ⟨le_rfl, hs.past⟩
    · intro start hstart
      rcases List.mem_cons.mp hstart with rfl | hold
      · exact ⟨row, List.mem_cons_self, hresident, rfl, hstarted⟩
      · obtain ⟨other, hother, hmatch⟩ := hs.visible start hold
        exact ⟨other, List.mem_cons_of_mem row hother, hmatch⟩

section Gate

variable {settings : Settings} {rows : List CycleRow} {now : ℤ}

theorem mem_recentStarts {key : String} {startedAt hourStart : ℤ} :
    (key, startedAt) ∈ recentStarts rows hourStart ↔
      ∃ row ∈ rows, row.startedAt = some startedAt ∧ hourStart ≤ startedAt ∧
        cycleKey row startedAt = key := by
  simp only [recentStarts, List.mem_filterMap, Option.map_eq_some_iff, Option.filter_eq_some_iff,
    decide_eq_true_eq, Prod.mk.injEq]
  constructor
  · rintro ⟨row, hrow, time, ⟨hstarted, hrecent⟩, hkey, rfl⟩
    exact ⟨row, hrow, hstarted, hrecent, hkey⟩
  · rintro ⟨row, hrow, hstarted, hrecent, hkey⟩
    exact ⟨row, hrow, startedAt, ⟨hstarted, hrecent⟩, hkey, rfl⟩

/-- The rows the gate looks at. -/
theorem listResidentRecoveryCycleRows_givenRows (limit : ℤ) :
    listResidentRecoveryCycleRows settings (givenRows rows) limit =
      .ok (rows.filter settings.isResidentCycle) := rfl

theorem activeReason_eq_none (hcap : 0 < settings.maxCyclesPerHour)
    (h : (cyclePacingSnapshot settings (givenRows rows) now).activeReason = none) :
    ∀ gate ∈ gates settings (rows.filter settings.isResidentCycle) now, gate.1 ≤ now := by
  unfold cyclePacingSnapshot at h
  rw [if_pos (Or.inr (Or.inr hcap)), listResidentRecoveryCycleRows_givenRows] at h
  dsimp only at h
  split at h
  · rename_i hnone
    intro gate hgate
    by_contra hlate
    rw [not_le] at hlate
    have hactive := List.argmax_eq_none.mp hnone
    rw [List.filter_eq_nil_iff] at hactive
    exact hactive gate hgate (decide_eq_true hlate)
  · cases h

/-- Where the gate is open although the cap is used up, a start is exactly an hour old. -/
theorem start_an_hour_ago (hcap : 0 < settings.maxCyclesPerHour)
    (h : (cyclePacingSnapshot settings (givenRows rows) now).activeReason = none)
    (hfull : settings.maxCyclesPerHour ≤
      (recentCycles (rows.filter settings.isResidentCycle) (now - hour)).length) :
    ∃ row ∈ rows, settings.isResidentCycle row = true ∧ row.startedAt = some (now - hour) := by
  generalize hresident : rows.filter settings.isResidentCycle = resident at hfull
  have hopen := activeReason_eq_none hcap h
  rw [hresident] at hopen
  have hsome : recentStarts resident (now - hour) ≠ [] := by
    intro hnil
    have hnone : (recentCycles resident (now - hour)).length = 0 := by
      rw [recentCycles, hnil]
      rfl
    omega
  obtain ⟨earliest, hearliest⟩ :
      ∃ earliest, earliestRecent resident (now - hour) = some earliest := by
    apply Option.isSome_iff_exists.mp
    rw [earliestRecent, List.isSome_min?_iff]
    simpa using hsome
  have hgate : (earliest + hour, "max_cycles_per_hour_reached") ∈ gates settings resident now := by
    unfold gates
    apply List.mem_append_right
    rw [if_pos ⟨hcap, hfull⟩, hearliest]
    exact List.mem_singleton_self _
  have hle := hopen _ hgate
  obtain ⟨⟨key, time⟩, hmem, htime⟩ := List.mem_map.mp (List.min?_mem hearliest)
  obtain ⟨row, hrow, hstarted, hrecent, _⟩ := mem_recentStarts.mp hmem
  have hexact : time = now - hour := by
    dsimp only at htime hle
    omega
  rw [← hresident] at hrow
  exact ⟨row, (List.mem_filter.mp hrow).1, (List.mem_filter.mp hrow).2, hexact ▸ hstarted⟩

end Gate

/-- The starts of the last hour are among the recent ones of the gate. -/
theorem length_startsWithin_le (hs : Recorded settings s) :
    (startsWithin s.starts (s.clock - hour)).length ≤
      (recentCycles (s.rows.filter settings.isResidentCycle) (s.clock - hour)).length := by
  have hnodup : ((startsWithin s.starts (s.clock - hour)).map Prod.fst).Nodup :=
    hs.distinct.sublist ((List.filter_sublist).map _)
  have hsubset : (startsWithin s.starts (s.clock - hour)).map Prod.fst ⊆
      recentCycles (s.rows.filter settings.isResidentCycle) (s.clock - hour) := by
    intro key hkey
    obtain ⟨start, hstart, rfl⟩ := List.mem_map.mp hkey
    obtain ⟨hmem, hwithin⟩ := List.mem_filter.mp hstart
    have hafter := (of_decide_eq_true hwithin).1
    obtain ⟨row, hrow, hresident, hid, hstarted⟩ := hs.visible start hmem
    have hname : strip row.cycleId ≠ "" := by
      rw [hid]
      exact hs.named start hmem
    apply List.mem_dedup.mpr
    apply List.mem_map.mpr
    refine ⟨(start.1, start.2), mem_recentStarts.mpr ?_, rfl⟩
    refine ⟨row, List.mem_filter.mpr ⟨hrow, hresident⟩, hstarted, hafter.le, ?_⟩
    rw [cycleKey_of_ne hname, hid]
  have hle := (List.subperm_of_subset hnodup hsubset).length_le
  rwa [List.length_map] at hle

/-- A start into a window of the past hour is one of the hour that ends now. -/
theorem length_startsWithin_mono (hs : Recorded settings s)
    {time : ℤ} (htime : s.clock ≤ time + hour) :
    (startsWithin s.starts time).length ≤ (startsWithin s.starts (s.clock - hour)).length := by
  unfold startsWithin
  rw [← List.countP_eq_length_filter, ← List.countP_eq_length_filter]
  apply List.countP_mono_left
  intro start hstart hwithin
  have hpast := hs.past start hstart
  simp only [decide_eq_true_eq] at hwithin ⊢
  omega

theorem length_startsWithin_cons (start : String × ℤ) (starts : List (String × ℤ)) (time : ℤ) :
    (startsWithin (start :: starts) time).length = (startsWithin starts time).length +
      if time < start.2 ∧ start.2 ≤ time + hour then 1 else 0 := by
  unfold startsWithin
  rw [← List.countP_eq_length_filter, ← List.countP_eq_length_filter, List.countP_cons]
  simp only [decide_eq_true_eq]

/-- A start that avoids the boundary leaves every hour within the cap. -/
theorem WithinCap.step (hcap : 0 < settings.maxCyclesPerHour)
    (hs : Recorded settings s) (hwithin : WithinCap settings s.starts)
    (havoids : AvoidsBoundary settings s a) (h : step settings s a = some t) :
    WithinCap settings t.starts := by
  rcases step_cases h with ⟨now, rows, _, _, _, rfl⟩ | ⟨row, rfl, hgate, _, rfl⟩
  · exact hwithin
  · have hroom : ((startsWithin s.starts (s.clock - hour)).length : ℤ) <
        settings.maxCyclesPerHour := by
      by_contra hfull
      rw [not_lt] at hfull
      have hrecent := length_startsWithin_le hs
      have hboundary := start_an_hour_ago hcap hgate (by omega)
      exact havoids row rfl (by rw [h]; rfl) ⟨hfull, hboundary⟩
    intro time
    dsimp only
    rw [length_startsWithin_cons]
    split
    · rename_i hinside
      have hle := length_startsWithin_mono hs hinside.2
      omega
    · have hle := hwithin time
      omega

/-- A start at the boundary gives the hour that ends with it one start too many. -/
theorem avoidsBoundary_of_within
    (h : ∀ t, step settings s a = some t → WithinCap settings t.starts) :
    AvoidsBoundary settings s a := by
  intro row ha hsome hboundary
  subst ha
  obtain ⟨t, ht⟩ := Option.isSome_iff_exists.mp hsome
  rcases step_cases ht with ⟨now, rows, hact, _⟩ | ⟨other, hact, _, _, rfl⟩
  · cases hact
  · have hwithin := h _ ht (s.clock - hour)
    have hfull := hboundary.1
    have hhour : 0 < hour := by decide
    dsimp only at hwithin
    rw [length_startsWithin_cons, if_pos ⟨by omega, by omega⟩] at hwithin
    omega

/-- The hourly cap holds all along a run exactly when no cycle of the run starts while the
cap is used up and some start is exactly an hour old. -/
theorem hourly_cap_kept_iff (settings : Settings) (hcap : 0 < settings.maxCyclesPerHour)
    (clock : ℤ) (rows : List CycleRow) (labels : List Act) :
    (∀ front t, front <+: labels → run (step settings) ⟨clock, rows, []⟩ front = some t →
        WithinCap settings t.starts) ↔
      Along (step settings) (AvoidsBoundary settings) ⟨clock, rows, []⟩ labels := by
  have hinitial : Recorded settings ⟨clock, rows, []⟩ := by
    refine ⟨List.nodup_nil, ?_, ?_, ?_⟩
    all_goals
      intro start hstart
      cases hstart
  constructor
  · intro hwithin
    apply (along_iff_splits _ labels).mpr
    rintro front a back s rfl hrun
    apply avoidsBoundary_of_within
    intro t ht
    apply hwithin (front ++ [a]) t
    · exact ⟨back, (List.append_cons front a back).symm⟩
    · rw [run_append, hrun, Option.bind_some, run, ht, Option.bind_some, run]
  · rintro halong front t ⟨back, rfl⟩ hrun
    have hfront := along_front halong
    have hstart : Recorded settings ⟨clock, rows, []⟩ ∧
        WithinCap settings (⟨clock, rows, []⟩ : State).starts := by
      refine ⟨hinitial, ?_⟩
      intro time
      exact hcap.le
    exact (run_invariant_along (I := fun s => Recorded settings s ∧ WithinCap settings s.starts)
      (fun s a t hs hguard ht => ⟨hs.1.step ht, hs.2.step hcap hs.1 hguard ht⟩) hstart hfront
      hrun).2

/-- One cycle per hour, and no other spacing. -/
def oncePerHour : Settings := ⟨⟨"demo:1", "XAUUSD", "grid", false⟩, 0, 0, 1⟩

def startedCycle (cycleId : String) (time : ℤ) : CycleRow where
  accountKey := "demo:1"
  cycleId := cycleId
  symbol := "XAUUSD"
  strategy := "grid"
  statusReason := some "resident_recovery_initial_submitted"
  startedAt := some time
  closedAt := none
  updatedAt := some time
  realizedPnl := none
  initialDryRun := some false

/-- A start, and two more exactly an hour later. -/
def boundaryStarts : List Act :=
  [.start (startedCycle "c1" 0), .observe hour [startedCycle "c1" 0],
    .start (startedCycle "c2" hour), .start (startedCycle "c3" hour)]

theorem hourly_cap_kept_iff_run :
    0 < oncePerHour.maxCyclesPerHour ∧
      ((∀ front t, front <+: boundaryStarts.take 3 →
          run (step oncePerHour) ⟨0, [], []⟩ front = some t → WithinCap oncePerHour t.starts) ↔
        Along (step oncePerHour) (AvoidsBoundary oncePerHour) ⟨0, [], []⟩
          (boundaryStarts.take 3)) :=
  ⟨by decide, hourly_cap_kept_iff oncePerHour (by decide) 0 [] (boundaryStarts.take 3)⟩

/-- The two starts at one moment are both in the hour after the first start. -/
theorem boundary_starts_exceed_cap :
    ∃ t, run (step oncePerHour) ⟨0, [], []⟩ boundaryStarts = some t ∧
      0 < oncePerHour.maxCyclesPerHour ∧
      oncePerHour.maxCyclesPerHour < (startsWithin t.starts 0).length := by
  obtain ⟨t, ht⟩ := Option.isSome_iff_exists.mp
    (show (run (step oncePerHour) ⟨0, [], []⟩ boundaryStarts).isSome = true by decide +kernel)
  have hcount : (run (step oncePerHour) ⟨0, [], []⟩ boundaryStarts).map
      (fun s => (startsWithin s.starts 0).length) = some 2 := by decide +kernel
  rw [ht, Option.map_some, Option.some.injEq] at hcount
  refine ⟨t, ht, by decide, ?_⟩
  rw [hcount]
  decide

end MT5Services.RecoveryPacing
