import MT5Services.RecoveryBudget
import MT5Services.RecoveryPacing
import MT5Services.RecoverySession

/-!
The gates of `_open_initial_cycle` over the table `recovery_cycle_states`: the daily cap,
the loss budget and the pacing read the rows with the latest `updated_at`, a limited
number of them, and filter these afterwards. Rows that the filters drop take the place of
rows that they would keep, so a cap may be reached in the table and not in what is read.
-/
namespace MT5Services.RecoveryGates

open PyText PyNumber RecoveryRows

structure Settings where
  session : RecoverySession.Settings
  maxCyclesPerDay : ℤ
  minCycleIntervalSeconds : ℚ
  cooldownAfterCycleCloseSeconds : ℚ
  maxCyclesPerHour : ℤ
  budget : RecoveryBudget.Settings

def Settings.pacing (settings : Settings) : RecoveryPacing.Settings where
  toIdentity := settings.session.toIdentity
  minCycleIntervalSeconds := settings.minCycleIntervalSeconds
  cooldownAfterCycleCloseSeconds := settings.cooldownAfterCycleCloseSeconds
  maxCyclesPerHour := settings.maxCyclesPerHour

/-- The cycles that started on the day of `now`. -/
def cyclesToday (session : RecoverySession.Settings) (rows : List CycleRow) (now : ℤ) :
    List String :=
  ((rows.filter session.isResidentCycle).filterMap fun row =>
    (row.startedAt.filter fun startedAt => utcDate startedAt = utcDate now).map
      (cycleKey row)).dedup

/-- `_daily_cycle_count`. -/
def dailyCycleCount (settings : Settings) (lister : Lister) (now : ℤ) : ℤ :=
  if settings.maxCyclesPerDay ≤ 0 then 0
  else
    match lister with
    | none => 0
    | some list =>
      match list settings.session.symbol settings.session.strategy
          (max (settings.maxCyclesPerDay * 4) 20) with
      | .error _ => settings.maxCyclesPerDay
      | .ok rows => (cyclesToday settings.session rows now).length

/-- What the gates read: the state store, the clock at each gate, and the reason of each
later gate that holds, in their order. -/
structure Readings where
  lister : Lister
  capClock : ℤ
  budgetClock : ℤ
  pacingClock : ℤ
  later : List (Option String)

/-- The first gate of `_open_initial_cycle` after the session cap that holds. -/
def openInitialGate (settings : Settings) (readings : Readings) : Option String :=
  if settings.maxCyclesPerDay ≤ dailyCycleCount settings readings.lister readings.capClock ∧
      0 < settings.maxCyclesPerDay then some "max_cycles_per_day_reached"
  else
    let budget := RecoveryBudget.assess settings.budget readings.lister readings.budgetClock
      settings.session.accountKey settings.session.symbol settings.session.strategy
      settings.session.dryRun
    if !budget.allowed then some budget.reason
    else
      match (RecoveryPacing.cyclePacingSnapshot settings.pacing readings.lister
          readings.pacingClock).activeReason with
      | some reason => some reason
      | none => readings.later.findSome? id

/-- `_open_initial_cycle` gets as far as the dispatch of the trade. -/
def dispatchesTrade (settings : Settings) (readings : Readings) (runner : RecoverySession.Runner)
    (attempt : RecoverySession.Attempt) : Bool :=
  RecoverySession.dispatches settings.session runner
    { attempt with gate := openInitialGate settings readings }

/-- The table, in the order `ORDER BY updated_at DESC` gives. -/
structure CycleTable where
  rows : List CycleRow
  latestFirst : rows.Pairwise fun row other =>
    ∀ later ∈ row.updatedAt, ∀ earlier ∈ other.updatedAt, earlier ≤ later
  keyed : (rows.map fun row => (row.accountKey, row.cycleId)).Nodup
  timed : ∀ row ∈ rows, row.startedAt.isSome = true ∧ row.updatedAt.isSome = true

/-- `fetch_recovery_cycle_states` by account, symbol and strategy. -/
def fetchRecoveryCycleStates (table : CycleTable) (accountKey symbol strategy : String)
    (limit : ℤ) : List CycleRow :=
  (table.rows.filter fun row =>
    row.accountKey = accountKey && row.symbol = symbol && row.strategy = strategy).take
      limit.toNat

/-- `TradingStateStore.list_recovery_cycle_states` over the table. -/
def storeLister (accountKey : String) (table : CycleTable) : Lister :=
  some fun symbol strategy limit =>
    if accountKey = "" then .error "account_key is required for recovery_cycle_state"
    else .ok (fetchRecoveryCycleStates table accountKey symbol strategy limit)

section Limits

variable (session : RecoverySession.Settings) (table : CycleTable)

def accountRows : List CycleRow :=
  table.rows.filter fun row => row.accountKey = session.accountKey

/-- The rows a query of the runner gives. -/
def fetched (limit : ℤ) : List CycleRow :=
  fetchRecoveryCycleStates table session.accountKey session.symbol session.strategy limit

/-- The resident cycles of the budget guard among the rows. -/
def guardRows (rows : List CycleRow) : List CycleRow :=
  RecoveryBudget.residentRows session.accountKey session.symbol session.strategy session.dryRun
    rows

/-- What today's resident cycles of the table lost. -/
def lossToday (now : ℤ) : ℚ :=
  ((guardRows session (accountRows session table)).map
    (RecoveryBudget.countedLoss fun time => utcDate time = utcDate now)).sum

/-- Once the table has `cap` cycles of today, no trade is dispatched under that cap,
whatever the other settings and the other gates. -/
def CycleCapStops (cap now : ℤ) : Prop :=
  cap ≤ (cyclesToday session (accountRows session table) now).length →
    ∀ (settings : Settings) (readings : Readings) (runner : RecoverySession.Runner)
      (attempt : RecoverySession.Attempt), settings.session = session →
      settings.maxCyclesPerDay = cap → readings.lister = storeLister session.accountKey table →
      readings.capClock = now → dispatchesTrade settings readings runner attempt = false

/-- The same once today's cycles of the table lost `limit`. -/
def LossBudgetStops (limit : ℚ) (now : ℤ) : Prop :=
  limit ≤ lossToday session table now →
    ∀ (settings : Settings) (readings : Readings) (runner : RecoverySession.Runner)
      (attempt : RecoverySession.Attempt), settings.session = session →
      settings.budget.maxDailyRecoveryLossAmount = limit →
      readings.lister = storeLister session.accountKey table →
      readings.budgetClock = now → dispatchesTrade settings readings runner attempt = false

end Limits

theorem dispatchesTrade_of_gate {settings : Settings} {readings : Readings} {reason : String}
    (h : openInitialGate settings readings = some reason) (runner : RecoverySession.Runner)
    (attempt : RecoverySession.Attempt) :
    dispatchesTrade settings readings runner attempt = false := by
  rw [dispatchesTrade, RecoverySession.dispatches, h]
  exact Bool.and_false _

/-- An attempt of an idle runner below the session cap. -/
def idleRunner (session : RecoverySession.Settings) : RecoverySession.Runner :=
  ⟨true, none, session.maxCyclesPerSession - 1, 0⟩

def plainAttempt : RecoverySession.Attempt where
  gate := none
  cycleId := "c0"
  sourceSignalId := "c0-signal"
  direction := .buy
  entryPrice := 1
  createdAt := 0
  reply := .empty
  firstWrite := true
  secondWrite := true

theorem dispatchesTrade_of_no_gate {settings : Settings} {readings : Readings}
    (h : openInitialGate settings readings = none) :
    dispatchesTrade settings readings (idleRunner settings.session) plainAttempt = true := by
  have hcap : ¬ (0 < settings.session.maxCyclesPerSession ∧ settings.session.maxCyclesPerSession ≤
      (idleRunner settings.session).sessionCycleCount) := by
    dsimp only [idleRunner]
    omega
  rw [dispatchesTrade, RecoverySession.dispatches, h, decide_eq_false hcap]
  rfl

/-- Settings with no other limit than those given. -/
def onlyCaps (session : RecoverySession.Settings) (maxCyclesPerDay : ℤ) (maxDailyLoss : ℚ) :
    Settings where
  session := session
  maxCyclesPerDay := maxCyclesPerDay
  minCycleIntervalSeconds := 0
  cooldownAfterCycleCloseSeconds := 0
  maxCyclesPerHour := 0
  budget := ⟨"recovery_budgeted", maxDailyLoss, 0, 60, 0, 0⟩

def quietReadings (session : RecoverySession.Settings) (table : CycleTable) (now : ℤ) :
    Readings where
  lister := storeLister session.accountKey table
  capClock := now
  budgetClock := now
  pacingClock := now
  later := []

section Limits

variable {session : RecoverySession.Settings} {table : CycleTable}

variable {settings : Settings}

/-- A store without an account key fails the query, and the count gives the cap itself. -/
theorem dailyCycleCount_storeLister (hcap : 0 < settings.maxCyclesPerDay) (now : ℤ) :
    dailyCycleCount settings (storeLister settings.session.accountKey table) now =
      if settings.session.accountKey = "" then settings.maxCyclesPerDay
      else (cyclesToday settings.session
        (fetched settings.session table (max (settings.maxCyclesPerDay * 4) 20)) now).length := by
  unfold dailyCycleCount storeLister
  rw [if_neg hcap.not_ge]
  dsimp only
  split_ifs
  · rfl
  · rfl

variable {readings : Readings}

theorem openInitialGate_cap (hcap : 0 < settings.maxCyclesPerDay)
    (h : settings.maxCyclesPerDay ≤ dailyCycleCount settings readings.lister readings.capClock) :
    openInitialGate settings readings = some "max_cycles_per_day_reached" :=
  if_pos ⟨h, hcap⟩

theorem openInitialGate_budget
    (h : (RecoveryBudget.assess settings.budget readings.lister readings.budgetClock
      settings.session.accountKey settings.session.symbol settings.session.strategy
      settings.session.dryRun).allowed = false) :
    ∃ reason, openInitialGate settings readings = some reason := by
  unfold openInitialGate
  split
  · exact ⟨_, rfl⟩
  · dsimp only
    rw [h]
    exact ⟨_, rfl⟩

theorem openInitialGate_eq_none
    (hcap : ¬ (settings.maxCyclesPerDay ≤
      dailyCycleCount settings readings.lister readings.capClock ∧ 0 < settings.maxCyclesPerDay))
    (hbudget : (RecoveryBudget.assess settings.budget readings.lister readings.budgetClock
      settings.session.accountKey settings.session.symbol settings.session.strategy
      settings.session.dryRun).allowed = true)
    (hpacing : (RecoveryPacing.cyclePacingSnapshot settings.pacing readings.lister
      readings.pacingClock).activeReason = none)
    (hlater : readings.later.findSome? id = none) : openInitialGate settings readings = none := by
  unfold openInitialGate
  rw [if_neg hcap]
  dsimp only
  rw [hbudget, hpacing]
  exact hlater

theorem pacing_onlyCaps (cap : ℤ) (limit : ℚ) (lister : Lister) (now : ℤ) :
    (RecoveryPacing.cyclePacingSnapshot (onlyCaps session cap limit).pacing lister
      now).activeReason = none := by
  rw [RecoveryPacing.cyclePacingSnapshot]
  simp [Settings.pacing, onlyCaps, RecoveryPacing.baseSnapshot]

theorem cycle_cap_iff {cap : ℤ} (hcap : 0 < cap) (now : ℤ) :
    CycleCapStops session table cap now ↔
      session.accountKey = "" ∨
        (cap ≤ (cyclesToday session (accountRows session table) now).length →
          cap ≤ (cyclesToday session (fetched session table (max (cap * 4) 20)) now).length) := by
  have hcount {settings : Settings} (hsession : settings.session = session)
      (hlimit : settings.maxCyclesPerDay = cap) :
      dailyCycleCount settings (storeLister session.accountKey table) now =
        if session.accountKey = "" then cap
        else (cyclesToday session (fetched session table (max (cap * 4) 20)) now).length := by
    subst hsession hlimit
    exact dailyCycleCount_storeLister hcap now
  constructor
  · intro hstops
    by_cases haccount : session.accountKey = ""
    · exact Or.inl haccount
    · refine Or.inr ?_
      intro hwhole
      by_contra hshort
      have hread : ¬ cap ≤ dailyCycleCount (onlyCaps session cap 0)
          (storeLister session.accountKey table) now := by
        rw [hcount rfl rfl, if_neg haccount]
        exact hshort
      have hopen : openInitialGate (onlyCaps session cap 0) (quietReadings session table now) =
          none :=
        openInitialGate_eq_none (fun hreached => hread hreached.1) rfl (pacing_onlyCaps _ _ _ _) rfl
      have hdispatch := hstops hwhole (onlyCaps session cap 0) (quietReadings session table now)
        (idleRunner session) plainAttempt rfl rfl rfl rfl
      exact absurd ((dispatchesTrade_of_no_gate hopen).symm.trans hdispatch) (by decide)
  · intro hcond hwhole settings readings runner attempt hsession hlimit hlister hclock
    apply dispatchesTrade_of_gate
    apply openInitialGate_cap (by omega)
    rw [hlister, hclock, hcount hsession hlimit, hlimit]
    split
    · exact le_rfl
    · rename_i haccount
      exact (hcond.resolve_left haccount) hwhole

variable {budget : RecoveryBudget.Settings}

theorem assess_storeLister (henabled : budget.enabled = true)
    (haccount : session.accountKey ≠ "") (now : ℤ) :
    RecoveryBudget.assess budget (storeLister session.accountKey table) now session.accountKey
        session.symbol session.strategy session.dryRun =
      RecoveryBudget.assessRows budget (strip session.accountKey)
        (guardRows session (fetched session table (RecoveryBudget.historyLimit budget))) now := by
  unfold RecoveryBudget.assess RecoveryBudget.loadRows storeLister
  rw [henabled]
  dsimp only
  rw [if_neg haccount]
  rfl

/-- Without an account key the guard cannot read the table, and blocks. -/
theorem assess_storeLister_of_blank
    (henabled : budget.enabled = true) (haccount : session.accountKey = "") (now : ℤ) :
    (RecoveryBudget.assess budget (storeLister session.accountKey table) now session.accountKey
      session.symbol session.strategy session.dryRun).allowed = false := by
  unfold RecoveryBudget.assess RecoveryBudget.loadRows storeLister
  rw [henabled]
  dsimp only
  rw [if_pos haccount]
  rfl

theorem fetched_sublist {limit longer : ℤ} (h : limit ≤ longer) :
    List.Sublist (fetched session table limit) (fetched session table longer) :=
  (List.take_prefix_take_left (Int.toNat_le_toNat h)).sublist

theorem historyLimit_ge (budget : RecoveryBudget.Settings) :
    200 ≤ RecoveryBudget.historyLimit budget := by
  unfold RecoveryBudget.historyLimit
  split
  · exact le_max_left _ _
  · exact le_rfl

theorem enabled_of_limit (h : 0 < budget.maxDailyRecoveryLossAmount) : budget.enabled = true := by
  simp [RecoveryBudget.Settings.enabled, h]

theorem loss_budget_iff {limit : ℚ} (hlimit : 0 < limit) (now : ℤ) :
    LossBudgetStops session table limit now ↔
      session.accountKey = "" ∨
        (limit ≤ lossToday session table now →
          limit ≤ RecoveryBudget.dailyLoss (guardRows session (fetched session table 200)) now) := by
  constructor
  · intro hstops
    by_cases haccount : session.accountKey = ""
    · exact Or.inl haccount
    · refine Or.inr ?_
      intro hwhole
      by_contra hshort
      have hallowed : (RecoveryBudget.assess (onlyCaps session 0 limit).budget
          (storeLister session.accountKey table) now session.accountKey session.symbol
          session.strategy session.dryRun).allowed = true := by
        apply Bool.eq_true_of_not_eq_false
        rw [assess_storeLister (enabled_of_limit hlimit) haccount,
          RecoveryBudget.assessRows_blocked_iff]
        rintro (hdaily | hrolling | hlockout)
        · exact hshort hdaily.2
        · exact absurd hrolling.1 (lt_irrefl _)
        · rw [RecoveryBudget.consecutiveLossLockout_blocked_iff] at hlockout
          exact absurd hlockout.1 (lt_irrefl 0)
      have hopen : openInitialGate (onlyCaps session 0 limit) (quietReadings session table now) =
          none :=
        openInitialGate_eq_none (fun hreached => absurd hreached.2 (lt_irrefl 0)) hallowed
          (pacing_onlyCaps _ _ _ _) rfl
      have hdispatch := hstops hwhole (onlyCaps session 0 limit) (quietReadings session table now)
        (idleRunner session) plainAttempt rfl rfl rfl rfl
      exact absurd ((dispatchesTrade_of_no_gate hopen).symm.trans hdispatch) (by decide)
  · rintro hcond hwhole settings readings runner attempt rfl rfl hlister rfl
    obtain ⟨reason, hreason⟩ : ∃ reason, openInitialGate settings readings = some reason := by
      apply openInitialGate_budget
      rw [hlister]
      by_cases haccount : settings.session.accountKey = ""
      · exact assess_storeLister_of_blank (enabled_of_limit hlimit) haccount _
      · rw [assess_storeLister (enabled_of_limit hlimit) haccount,
          RecoveryBudget.assessRows_blocked_iff]
        have hread := (hcond.resolve_left haccount) hwhole
        have hlonger : List.Sublist (guardRows settings.session (fetched settings.session table 200))
            (guardRows settings.session (fetched settings.session table
              (RecoveryBudget.historyLimit settings.budget))) :=
          (fetched_sublist (historyLimit_ge settings.budget)).filter _
        exact Or.inl ⟨hlimit, hread.trans (RecoveryBudget.dailyLoss_le hlonger _)⟩
    exact dispatchesTrade_of_gate hreason runner attempt

end Limits

/-- The daily cap and the daily loss budget hold under every other setting exactly when
the rows that are read give what the table gives. -/
theorem daily_limits_iff (session : RecoverySession.Settings) (table : CycleTable) (now cap : ℤ)
    (limit : ℚ) (hcap : 0 < cap) (hlimit : 0 < limit) :
    (CycleCapStops session table cap now ↔
      session.accountKey = "" ∨
        (cap ≤ (cyclesToday session (accountRows session table) now).length →
          cap ≤ (cyclesToday session (fetched session table (max (cap * 4) 20)) now).length)) ∧
    (LossBudgetStops session table limit now ↔
      session.accountKey = "" ∨
        (limit ≤ lossToday session table now →
          limit ≤ RecoveryBudget.dailyLoss (guardRows session (fetched session table 200)) now)) :=
  ⟨cycle_cap_iff hcap now, loss_budget_iff hlimit now⟩

/-- A cycle of the resident runner that started at `time`. -/
def residentCycle (time : ℤ) : CycleRow where
  accountKey := "demo:1"
  cycleId := "c1"
  symbol := "EURUSD"
  strategy := "tick_recovery_probe"
  statusReason := some "resident_recovery_initial_submitted"
  startedAt := some time
  closedAt := none
  updatedAt := some time
  realizedPnl := none
  initialDryRun := some false

/-- Twenty canary cycles, all written after that cycle. -/
def canaryCycles : List CycleRow :=
  (List.range 20).map fun i =>
    { residentCycle (20 - i) with
      cycleId := "canary-" ++ toString i
      statusReason := some "canary_initial_state" }

theorem canary_latestFirst :
    (canaryCycles ++ [residentCycle 0]).Pairwise fun row other =>
      ∀ later ∈ row.updatedAt, ∀ earlier ∈ other.updatedAt, earlier ≤ later := by decide

theorem canary_keyed :
    ((canaryCycles ++ [residentCycle 0]).map fun row => (row.accountKey, row.cycleId)).Nodup := by
  have hids : ((canaryCycles ++ [residentCycle 0]).map CycleRow.cycleId).Nodup := by
    decide
  apply List.Nodup.of_map Prod.snd
  rw [List.map_map]
  exact hids

theorem canary_timed :
    ∀ row ∈ canaryCycles ++ [residentCycle 0],
      row.startedAt.isSome = true ∧ row.updatedAt.isSome = true := by decide

/-- A table in which the canary cycles stand before the only resident one. -/
def canaryTable : CycleTable where
  rows := canaryCycles ++ [residentCycle 0]
  latestFirst := canary_latestFirst
  keyed := canary_keyed
  timed := canary_timed

/-- Whether a cycle is the runner's own depends neither on its id nor on its times. -/
theorem isResidentCycle_times (session : RecoverySession.Settings) (row : CycleRow)
    (cycleId : String) (startedAt updatedAt : Option ℤ) :
    session.isResidentCycle
        { row with
          cycleId := cycleId
          startedAt := startedAt
          updatedAt := updatedAt } =
      session.isResidentCycle row := rfl

/-- None of the canary cycles is the runner's own. -/
theorem filter_canaryCycles :
    canaryCycles.filter RecoverySession.oneCycle.isResidentCycle = [] := by
  rw [List.filter_eq_nil_iff]
  intro row hrow
  obtain ⟨i, _, rfl⟩ := List.mem_map.mp hrow
  have hcanary : RecoverySession.oneCycle.isResidentCycle
      { residentCycle 0 with statusReason := some "canary_initial_state" } = false := by
    decide
  have hrow := isResidentCycle_times RecoverySession.oneCycle
    { residentCycle 0 with statusReason := some "canary_initial_state" }
    ("canary-" ++ toString i) (some (20 - i)) (some (20 - i))
  rw [Bool.not_eq_true]
  exact hrow.trans hcanary

theorem daily_limits_iff_run :
    (CycleCapStops RecoverySession.oneCycle canaryTable 1 30 ↔
      RecoverySession.oneCycle.accountKey = "" ∨
        (1 ≤ (cyclesToday RecoverySession.oneCycle
            (accountRows RecoverySession.oneCycle canaryTable) 30).length →
          1 ≤ (cyclesToday RecoverySession.oneCycle
            (fetched RecoverySession.oneCycle canaryTable 20) 30).length)) ∧
      (LossBudgetStops RecoverySession.oneCycle canaryTable 5 30 ↔
        RecoverySession.oneCycle.accountKey = "" ∨
          (5 ≤ lossToday RecoverySession.oneCycle canaryTable 30 →
            5 ≤ RecoveryBudget.dailyLoss (guardRows RecoverySession.oneCycle
              (fetched RecoverySession.oneCycle canaryTable 200)) 30)) := by
  have h := daily_limits_iff RecoverySession.oneCycle canaryTable 30 1 5 (by decide) (by norm_num)
  exact_mod_cast h

/-- The canary cycles hide the only cycle of the day from the daily cap. -/
theorem canary_rows_lift_cycle_cap :
    ¬ ∀ (session : RecoverySession.Settings) (table : CycleTable) (now cap : ℤ) (limit : ℚ),
      0 < cap → 0 < limit →
        CycleCapStops session table cap now ∧ LossBudgetStops session table limit now := by
  intro hclaim
  have hstops := (hclaim RecoverySession.oneCycle canaryTable 30 1 5 (by decide) (by norm_num)).1
  have hwhole : 1 ≤ (cyclesToday RecoverySession.oneCycle
      (accountRows RecoverySession.oneCycle canaryTable) 30).length := by
    have hrows : accountRows RecoverySession.oneCycle canaryTable =
        canaryCycles ++ [residentCycle 0] := by decide
    rw [hrows, cyclesToday, List.filter_append, filter_canaryCycles]
    decide
  have hread : (cyclesToday RecoverySession.oneCycle
      (fetched RecoverySession.oneCycle canaryTable 20) 30).length = 0 := by
    have hrows : fetched RecoverySession.oneCycle canaryTable 20 = canaryCycles := by
      decide
    rw [hrows, cyclesToday, filter_canaryCycles]
    rfl
  have haccount : RecoverySession.oneCycle.accountKey ≠ "" := by decide
  have hcount := ((cycle_cap_iff (by decide) 30).mp hstops).resolve_left haccount
    (by exact_mod_cast hwhole)
  rw [show max ((1 : ℤ) * 4) 20 = 20 by decide, hread] at hcount
  exact absurd hcount (by decide)

end MT5Services.RecoveryGates
