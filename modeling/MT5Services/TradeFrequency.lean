import MT5Services.PyText
import Mathlib.Data.List.Dedup
import Mathlib.Algebra.Order.Ring.Int

/-!
The trade frequency limits along one `TradingService.execute_trade`: the assessment of
`enforce_trade_allowed`, the reservation of a slot, and the assessment of the later
precheck. Each counts the rows of `trade_command_audits` and of
`trade_frequency_reservations` that fall in the window. A history lists requests; a
request may own a reservation, an audit row, both or none, and nothing in the tables
says which rows belong to one request. Times are microseconds.
-/
namespace MT5Services.TradeFrequency

open PyText

structure AuditRow where
  accountKey : String
  recordedAt : ℤ
  commandType : String
  status : String
  responseDryRun : Option String
  requestDryRun : Option String
  deriving DecidableEq, Repr

/-- `_REAL_TRADE_AUDIT_PREDICATE`. -/
def AuditRow.real (row : AuditRow) : Bool :=
  !(["true", "1", "yes", "on"].contains
    (lower ((row.responseDryRun.or row.requestDryRun).getD "false")))

inductive ReservationStatus
  | active
  | committed
  | released
  | expired
  deriving DecidableEq, Repr

structure Reservation where
  accountKey : String
  reservedAt : ℤ
  expiresAt : ℤ
  status : ReservationStatus
  deriving DecidableEq, Repr

structure Tables where
  audits : List AuditRow
  reservations : List Reservation

def AuditRow.counts (account : String) (since : ℤ) (row : AuditRow) : Bool :=
  row.accountKey = account && decide (since ≤ row.recordedAt) &&
    row.commandType = "execute_trade" && row.status = "success" && row.real

def Reservation.counts (account : String) (since now : ℤ) (row : Reservation) : Bool :=
  row.accountKey = account && decide (since ≤ row.reservedAt) && decide (now < row.expiresAt) &&
    (row.status = .active || row.status = .committed)

/-- `count_trades_since` of the provider, and `_count_frequency_window_locked`. -/
def countTradesSince (tables : Tables) (account : String) (since now : ℤ) : ℕ :=
  tables.audits.countP (AuditRow.counts account since) +
    tables.reservations.countP (Reservation.counts account since now)

inductive Window
  | day
  | hour
  deriving DecidableEq, Repr

/-- Where the window of a moment starts; days start at midnight UTC. -/
def Window.since : Window → ℤ → ℤ
  | day, now => now - now % 86400000000
  | hour, now => now - 3600000000

def Window.ruleName : Window → String
  | day => "max_trades_per_day"
  | hour => "max_trades_per_hour"

def Window.reason : Window → String
  | day => "Daily trade limit reached"
  | hour => "Hourly trade limit reached"

structure RiskSettings where
  economicGuardEnabled : Bool
  enabled : Bool
  tradeGuardMode : String
  maxTradesPerDay : Option ℤ
  maxTradesPerHour : Option ℤ
  preTradeRules : List String

namespace RiskSettings

variable (settings : RiskSettings)

/-- Only a positive limit counts. -/
def limit : Window → Option ℤ
  | .day => settings.maxTradesPerDay.filter (0 < ·)
  | .hour => settings.maxTradesPerHour.filter (0 < ·)

def tradeFrequencyEnabled : Bool := settings.preTradeRules.contains "trade_frequency"

def isEnabled : Bool := settings.economicGuardEnabled || settings.enabled

def effectiveMode : String :=
  let mode :=
    lower (strip (if settings.tradeGuardMode = "" then "warn_only" else settings.tradeGuardMode))
  if ["off", "warn_only", "block"].contains mode then mode else "warn_only"

end RiskSettings

structure RiskCheckResult where
  name : String
  verdict : String := "allow"
  reason : Option String := none
  deriving DecidableEq, Repr

/-- What the other rules say around the frequency rule, none of them with a block. -/
structure AllowingChecks where
  before : List RiskCheckResult
  after : List RiskCheckResult
  allowing : ∀ check ∈ before ++ after, check.verdict ≠ "block"

structure RiskAssessment where
  verdict : String
  reason : Option String
  checks : List RiskCheckResult

/-- The check of one window. -/
def windowCheck (settings : RiskSettings) (account : String) (tables : Tables) (now : ℤ)
    (window : Window) : Option RiskCheckResult :=
  (settings.limit window).bind fun limit =>
    if limit ≤ countTradesSince tables account (window.since now) now then
      some ⟨window.ruleName, "block", some window.reason⟩
    else none

/-- `TradeFrequencyRule.evaluate`, where the provider answers. -/
def tradeFrequencyRule (settings : RiskSettings) (account : String) (tables : Tables) (now : ℤ) :
    List RiskCheckResult :=
  if settings.enabled then
    [Window.day, Window.hour].filterMap (windowCheck settings account tables now)
  else []

/-- The verdict and the reason that the checks amount to. -/
def assessmentOf (checks : List RiskCheckResult) : RiskAssessment :=
  let reasons := (checks.filter fun check => check.verdict = "block").filterMap fun check =>
    check.reason.filter (· ≠ "")
  { verdict :=
      if checks.any fun check => check.verdict = "block" then "block"
      else if checks.any fun check => check.verdict = "warn" then "warn"
      else "allow"
    reason := if reasons = [] then none else some ("; ".intercalate reasons.eraseDups)
    checks := checks }

def assessTrade (settings : RiskSettings) (account : String) (tables : Tables) (now : ℤ)
    (others : AllowingChecks) : RiskAssessment :=
  if !settings.isEnabled || settings.effectiveMode = "off" then ⟨"allow", none, []⟩
  else
    assessmentOf (others.before ++
      (if settings.tradeFrequencyEnabled then tradeFrequencyRule settings account tables now
        else []) ++ others.after)

/-- The active reservations whose time is over are marked first. -/
def expireReservations (account : String) (now : ℤ) (tables : Tables) : Tables :=
  { tables with
    reservations := tables.reservations.map fun row =>
      if row.accountKey = account ∧ row.status = .active ∧ row.expiresAt ≤ now then
        { row with status := .expired }
      else row }

/-- Five minutes. -/
def reservationTtl : ℤ := 300000000

/-- `reserve_trade_frequency_quota`; a full window is an error. -/
def reserveTradeFrequencyQuota (settings : RiskSettings) (account : String) (tables : Tables)
    (now : ℤ) : Except String Tables :=
  let tables := expireReservations account now tables
  match [Window.day, Window.hour].findSome? (windowCheck settings account tables now) with
  | some check => .error (check.reason.getD "")
  | none => .ok
      { tables with
        reservations := tables.reservations ++ [⟨account, now, now + reservationTtl, .active⟩] }

/-- `_reserve_trade_frequency_slot`. -/
def reserveTradeFrequencySlot (settings : RiskSettings) (account : String) (tables : Tables)
    (now : ℤ) : Except String Tables :=
  if !settings.tradeFrequencyEnabled then .ok tables
  else if settings.limit .day = none ∧ settings.limit .hour = none then .ok tables
  else reserveTradeFrequencyQuota settings account tables now

/-- When the call makes its first assessment, its reservation and its precheck. -/
structure Times where
  assessed : ℤ
  reserved : ℤ
  prechecked : ℤ
  assessed_le : assessed ≤ reserved
  reserved_le : reserved ≤ prechecked

/-- `enforce_trade_allowed`; the error is the reason of the block. -/
def enforceTradeAllowed (settings : RiskSettings) (account : String) (tables : Tables)
    (times : Times) (others : AllowingChecks) : Except String Tables :=
  let assessment := assessTrade settings account tables times.assessed others
  if assessment.verdict = "block" then
    .error (assessment.reason.getD "Trade blocked by pre-trade risk policy")
  else reserveTradeFrequencySlot settings account tables times.reserved

/-- How `execute_trade` goes on. -/
inductive Outcome
  | blocked (reason : String)
  | precheckFailed (reason : String)
  | skipped
  | submitted
  deriving DecidableEq, Repr

def Outcome.rejected : Outcome → Bool
  | blocked _ | precheckFailed _ => true
  | skipped | submitted => false

/-- `execute_trade` up to the broker, where the broker constraints and the trade guard
let the precheck pass. -/
def executeTrade (settings : RiskSettings) (account : String) (tables : Tables) (times : Times)
    (first second : AllowingChecks) (dryRun : Bool) : Outcome :=
  match enforceTradeAllowed settings account tables times first with
  | .error reason => .blocked reason
  | .ok tables =>
    let precheck := assessTrade settings account tables times.prechecked second
    if dryRun then .skipped
    else if precheck.verdict = "block" then
      .precheckFailed (precheck.reason.getD "Trade precheck failed")
    else .submitted

/-- What one other request left in the tables. -/
structure Request where
  reservation : Option Reservation
  audit : Option AuditRow

def tablesOf (history : List Request) : Tables :=
  ⟨history.filterMap Request.audit, history.filterMap Request.reservation⟩

def Request.audited (account : String) (window : Window) (now : ℤ) (request : Request) : Bool :=
  request.audit.any (AuditRow.counts account (window.since now))

def Request.reserved (account : String) (window : Window) (now : ℤ) (request : Request) : Bool :=
  request.reservation.any (Reservation.counts account (window.since now) now)

/-- The real trades and open reservations of the window, each request once. -/
def requestsIn (account : String) (history : List Request) (window : Window) (now : ℤ) : ℕ :=
  history.countP fun request =>
    request.audited account window now || request.reserved account window now

/-- The requests of the window with both an audit row and an unexpired reservation. -/
def doubledIn (account : String) (history : List Request) (window : Window) (now : ℤ) : ℕ :=
  history.countP fun request =>
    request.audited account window now && request.reserved account window now

/-- The frequency rule takes part in the assessments. -/
def RiskSettings.assesses (settings : RiskSettings) : Prop :=
  settings.enabled = true ∧ settings.effectiveMode ≠ "off" ∧ settings.tradeFrequencyEnabled = true

/-- A window whose limit is reached. -/
def Full (settings : RiskSettings) (account : String) (tables : Tables) (now : ℤ) : Prop :=
  ∃ window limit, settings.limit window = some limit ∧
    limit ≤ countTradesSince tables account (window.since now) now

variable {account : String} {settings : RiskSettings} {now : ℤ} {tables : Tables}

theorem windowCheck_ne_none {window : Window} :
    windowCheck settings account tables now window ≠ none ↔
      ∃ limit, settings.limit window = some limit ∧
        limit ≤ countTradesSince tables account (window.since now) now := by
  unfold windowCheck
  cases settings.limit window with
  | none => simp
  | some limit =>
    by_cases hfull : limit ≤ countTradesSince tables account (window.since now) now
    · simp [hfull]
    · simp [hfull]

theorem windowCheck_verdict {window : Window} {check : RiskCheckResult}
    (h : windowCheck settings account tables now window = some check) :
    check.verdict = "block" := by
  obtain ⟨limit, _, hcheck⟩ := Option.bind_eq_some_iff.mp h
  split at hcheck
  · cases hcheck
    rfl
  · cases hcheck

theorem mem_windows (window : Window) : window ∈ [Window.day, Window.hour] := by
  cases window with
  | day => exact List.mem_cons_self
  | hour => exact List.mem_cons_of_mem _ List.mem_cons_self

theorem exists_windowCheck : (∃ window ∈ [Window.day, Window.hour],
      windowCheck settings account tables now window ≠ none) ↔
        Full settings account tables now := by
  constructor
  · rintro ⟨window, _, hcheck⟩
    exact ⟨window, windowCheck_ne_none.mp hcheck⟩
  · rintro ⟨window, hfull⟩
    exact ⟨window, mem_windows window, windowCheck_ne_none.mpr hfull⟩

theorem assessmentOf_block (checks : List RiskCheckResult) :
    (assessmentOf checks).verdict = "block" ↔ ∃ check ∈ checks, check.verdict = "block" := by
  simp only [assessmentOf, List.any_eq_true, decide_eq_true_eq]
  split
  · rename_i hblock
    exact iff_of_true rfl hblock
  · rename_i hnone
    refine iff_of_false ?_ hnone
    split
    · decide
    · decide

/-- Among allowing rules only a full window blocks an assessment. -/
theorem assessTrade_block {others : AllowingChecks} :
    (assessTrade settings account tables now others).verdict = "block" ↔
      settings.assesses ∧ Full settings account tables now := by
  have hothers : ∀ check ∈ others.before ++ others.after, check.verdict ≠ "block" :=
    others.allowing
  unfold assessTrade
  split
  · rename_i hoff
    refine iff_of_false (by simp) ?_
    rintro ⟨⟨henabled, hmode, _⟩, _⟩
    simp [RiskSettings.isEnabled, henabled, hmode] at hoff
  · rename_i hon
    have hmode : settings.effectiveMode ≠ "off" := by
      intro hmode
      simp [hmode] at hon
    rw [assessmentOf_block, ← exists_windowCheck]
    constructor
    · rintro ⟨check, hcheck, hblock⟩
      rw [List.append_assoc, List.mem_append, List.mem_append] at hcheck
      rcases hcheck with hbefore | hrule | hafter
      · exact absurd hblock (hothers check (List.mem_append_left _ hbefore))
      · split at hrule
        · rename_i hprofile
          unfold tradeFrequencyRule at hrule
          split at hrule
          · rename_i henabled
            obtain ⟨window, hwindow, hsome⟩ := List.mem_filterMap.mp hrule
            refine ⟨⟨henabled, hmode, hprofile⟩, window, hwindow, ?_⟩
            rw [hsome]
            exact Option.some_ne_none check
          · cases hrule
        · cases hrule
      · exact absurd hblock (hothers check (List.mem_append_right _ hafter))
    · rintro ⟨⟨henabled, _, hprofile⟩, window, hwindow, hsome⟩
      obtain ⟨check, hcheck⟩ := Option.ne_none_iff_exists'.mp hsome
      refine ⟨check, ?_, windowCheck_verdict hcheck⟩
      rw [if_pos hprofile, tradeFrequencyRule, if_pos henabled]
      apply List.mem_append_left
      apply List.mem_append_right
      exact List.mem_filterMap.mpr ⟨window, hwindow, hcheck⟩

/-- The slot that the call takes. -/
def ownSlot (account : String) (now : ℤ) : Reservation :=
  ⟨account, now, now + reservationTtl, .active⟩

/-- Marking what is over changes no later count. -/
theorem counts_expire {since marked now : ℤ} (hle : marked ≤ now) (row : Reservation) :
    Reservation.counts account since now
        (if row.accountKey = account ∧ row.status = .active ∧ row.expiresAt ≤ marked then
          { row with status := .expired } else row) =
      Reservation.counts account since now row := by
  split
  · rename_i hover
    have hexpired : ¬ now < row.expiresAt := by omega
    simp [Reservation.counts, hexpired]
  · rfl

theorem countTradesSince_expire {since marked now : ℤ} (hle : marked ≤ now) :
    countTradesSince (expireReservations account marked tables) account since now =
      countTradesSince tables account since now := by
  simp only [countTradesSince, expireReservations, List.countP_map]
  congr 1
  apply List.countP_congr
  intro row _
  rw [Function.comp_apply, counts_expire hle]

/-- The slot of the call is one more row of the window. -/
theorem countTradesSince_ownSlot {since reserved now : ℤ} : countTradesSince
        { tables with reservations := tables.reservations ++ [ownSlot account reserved] }
        account since now =
      countTradesSince tables account since now +
        if since ≤ reserved ∧ now < reserved + reservationTtl then 1 else 0 := by
  have hslot : Reservation.counts account since now (ownSlot account reserved) =
      decide (since ≤ reserved ∧ now < reserved + reservationTtl) := by
    rw [Bool.eq_iff_iff]
    simp only [Reservation.counts, Bool.and_eq_true, Bool.or_eq_true, decide_eq_true_eq]
    simp [ownSlot]
  simp only [countTradesSince, List.countP_append, List.countP_singleton, hslot,
    decide_eq_true_eq]
  omega

/-- Two counts of one list are the count of either and the count of both. -/
theorem countP_add_countP (p q : Request → Bool) (history : List Request) :
    history.countP p + history.countP q =
      (history.countP fun request => p request || q request) +
        history.countP fun request => p request && q request := by
  induction history with
  | nil => rfl
  | cons request rest ih =>
    simp only [List.countP_cons]
    cases p request with
    | false => cases q request <;> simp <;> omega
    | true => cases q request <;> simp <;> omega

/-- The rows of a history count each request, and the doubled ones once more. -/
theorem countTradesSince_tablesOf (account : String) (history : List Request) (window : Window)
    (now : ℤ) :
    countTradesSince (tablesOf history) account (window.since now) now =
      requestsIn account history window now + doubledIn account history window now := by
  have hany : ∀ {α : Type} (found : Option α) (p : α → Bool),
      (found.map p).getD false = found.any p := by
    intro α found p
    cases found with
    | none => rfl
    | some value => rfl
  simp only [countTradesSince, tablesOf, List.countP_filterMap, hany]
  exact countP_add_countP (Request.audited account window now)
    (Request.reserved account window now) history

/-- What the call's own slot adds to the window of the precheck. -/
def ownIn (times : Times) (window : Window) : ℕ :=
  if window.since times.prechecked ≤ times.reserved ∧
      times.prechecked < times.reserved + reservationTtl then 1 else 0

/-- Room for the call when the doubled requests count twice and a real trade's own slot
once. -/
structure Room (settings : RiskSettings) (account : String) (history : List Request)
    (times : Times) (dryRun : Bool) : Prop where
  assessed : settings.assesses → ∀ window limit, settings.limit window = some limit →
    ((requestsIn account history window times.assessed +
      doubledIn account history window times.assessed : ℕ) : ℤ) < limit
  reserved : settings.tradeFrequencyEnabled = true → ∀ window limit,
    settings.limit window = some limit →
    ((requestsIn account history window times.reserved +
      doubledIn account history window times.reserved : ℕ) : ℤ) < limit
  prechecked : settings.assesses → dryRun = false → ∀ window limit,
    settings.limit window = some limit →
    ((requestsIn account history window times.prechecked +
      doubledIn account history window times.prechecked + ownIn times window : ℕ) : ℤ) < limit

variable {history : List Request}

theorem not_full_tablesOf : ¬ Full settings account (tablesOf history) now ↔ ∀ window limit,
      settings.limit window = some limit →
      ((requestsIn account history window now + doubledIn account history window now : ℕ) : ℤ) <
        limit := by
  simp only [Full, countTradesSince_tablesOf, not_exists, not_and, not_le]

/-- The tables after a reservation that found room. -/
def withOwnSlot (account : String) (tables : Tables) (now : ℤ) : Tables :=
  { expireReservations account now tables with
    reservations := (expireReservations account now tables).reservations ++ [ownSlot account now] }

theorem reserveTradeFrequencyQuota_cases (settings : RiskSettings) (account : String)
    (tables : Tables) (now : ℤ) :
    (Full settings account tables now ∧
        ∃ reason, reserveTradeFrequencyQuota settings account tables now = .error reason) ∨
      (¬ Full settings account tables now ∧
        reserveTradeFrequencyQuota settings account tables now =
          .ok (withOwnSlot account tables now)) := by
  have hfull : Full settings account (expireReservations account now tables) now ↔
      Full settings account tables now := by
    simp only [Full, countTradesSince_expire (le_refl now)]
  rw [← hfull, ← exists_windowCheck]
  simp only [reserveTradeFrequencyQuota]
  cases hfirst : [Window.day, Window.hour].findSome?
      (windowCheck settings account (expireReservations account now tables) now) with
  | none =>
    refine Or.inr ⟨?_, rfl⟩
    rintro ⟨window, hwindow, hsome⟩
    exact hsome (List.findSome?_eq_none_iff.mp hfirst window hwindow)
  | some check =>
    obtain ⟨window, hwindow, hsome⟩ := List.exists_of_findSome?_eq_some hfirst
    refine Or.inl ⟨⟨window, hwindow, ?_⟩, _, rfl⟩
    rw [hsome]
    exact Option.some_ne_none check

variable {times : Times}

theorem full_withOwnSlot :
    ¬ Full settings account (withOwnSlot account (tablesOf history) times.reserved)
        times.prechecked ↔ ∀ window limit, settings.limit window = some limit →
      ((requestsIn account history window times.prechecked +
        doubledIn account history window times.prechecked + ownIn times window : ℕ) : ℤ) <
          limit := by
  simp only [Full, withOwnSlot, countTradesSince_ownSlot,
    countTradesSince_expire times.reserved_le, countTradesSince_tablesOf, not_exists, not_and,
    not_le]
  rfl

/-- Once the slot is taken, only the precheck of a real trade can reject. -/
theorem executeTrade_after {tables taken : Tables} {first second : AllowingChecks} {dryRun : Bool}
    (h : enforceTradeAllowed settings account tables times first = .ok taken) :
    (executeTrade settings account tables times first second dryRun).rejected = false ↔
      (settings.assesses → dryRun = false → ¬ Full settings account taken times.prechecked) := by
  simp only [executeTrade, h]
  cases dryRun with
  | true => simp [Outcome.rejected]
  | false =>
    simp only [Bool.false_eq_true, if_false]
    split
    · rename_i hblock
      rw [assessTrade_block] at hblock
      simp [Outcome.rejected, hblock.1, hblock.2]
    · rename_i hpass
      rw [assessTrade_block] at hpass
      simp only [Outcome.rejected, true_iff]
      exact fun hassesses _ hfull => hpass ⟨hassesses, hfull⟩

/-- What the call takes before the precheck: nothing, or its slot. -/
theorem enforceTradeAllowed_cases (settings : RiskSettings) (account : String) (tables : Tables)
    (times : Times) (others : AllowingChecks) :
    (((settings.assesses ∧ Full settings account tables times.assessed) ∨
        (settings.tradeFrequencyEnabled = true ∧ Full settings account tables times.reserved)) ∧
      ∃ reason, enforceTradeAllowed settings account tables times others = .error reason) ∨
    (¬ (settings.assesses ∧ Full settings account tables times.assessed) ∧
      ((settings.tradeFrequencyEnabled = false ∧
          enforceTradeAllowed settings account tables times others = .ok tables) ∨
        ((∀ window, settings.limit window = none) ∧
          enforceTradeAllowed settings account tables times others = .ok tables) ∨
        (¬ Full settings account tables times.reserved ∧
          enforceTradeAllowed settings account tables times others =
            .ok (withOwnSlot account tables times.reserved)))) := by
  simp only [enforceTradeAllowed]
  split
  · rename_i hblock
    exact Or.inl ⟨Or.inl (assessTrade_block.mp hblock), _, rfl⟩
  · rename_i hpass
    rw [assessTrade_block] at hpass
    unfold reserveTradeFrequencySlot
    cases hprofile : settings.tradeFrequencyEnabled with
    | false => exact Or.inr ⟨hpass, Or.inl ⟨rfl, rfl⟩⟩
    | true =>
      simp only [Bool.not_true, Bool.false_eq_true, if_false, true_and]
      split
      · rename_i hnone
        refine Or.inr ⟨hpass, Or.inr (Or.inl ⟨?_, rfl⟩)⟩
        intro window
        cases window with
        | day => exact hnone.1
        | hour => exact hnone.2
      · rcases reserveTradeFrequencyQuota_cases settings account tables times.reserved with
          ⟨hfull, herror⟩ | ⟨hroom, hok⟩
        · exact Or.inl ⟨Or.inr hfull, herror⟩
        · exact Or.inr ⟨hpass, Or.inr (Or.inr ⟨hroom, hok⟩)⟩

/-- The call is not rejected exactly when there is room at each of its three counts. -/
theorem executeTrade_not_rejected {first second : AllowingChecks} {dryRun : Bool} :
    (executeTrade settings account (tablesOf history) times first second dryRun).rejected =
      false ↔ Room settings account history times dryRun := by
  rcases enforceTradeAllowed_cases settings account (tablesOf history) times first with
    ⟨hfull, reason, herror⟩ | ⟨hpass, hcases⟩
  · have hrejected : (executeTrade settings account (tablesOf history) times first second
        dryRun).rejected = true := by
      simp only [executeTrade, herror, Outcome.rejected]
    rw [hrejected]
    refine iff_of_false (by decide) ?_
    intro hroom
    rcases hfull with ⟨hassesses, hfull⟩ | ⟨hprofile, hfull⟩
    · exact not_full_tablesOf.mpr (hroom.assessed hassesses) hfull
    · exact not_full_tablesOf.mpr (hroom.reserved hprofile) hfull
  · have hfirst : settings.assesses → ∀ window limit, settings.limit window = some limit →
        ((requestsIn account history window times.assessed +
          doubledIn account history window times.assessed : ℕ) : ℤ) < limit :=
      fun hassesses => not_full_tablesOf.mp fun hfull => hpass ⟨hassesses, hfull⟩
    rcases hcases with ⟨hprofile, hok⟩ | ⟨hnone, hok⟩ | ⟨hslot, hok⟩
    · have hnever : ¬ settings.assesses := by
        rintro ⟨_, _, henabled⟩
        rw [hprofile] at henabled
        cases henabled
      rw [executeTrade_after hok]
      refine iff_of_true (fun hassesses => absurd hassesses hnever) ⟨hfirst, ?_, ?_⟩
      · intro henabled
        rw [hprofile] at henabled
        cases henabled
      · exact fun hassesses => absurd hassesses hnever
    · have hlimit : ∀ window limit, settings.limit window ≠ some limit := by
        intro window limit hsome
        rw [hnone window] at hsome
        cases hsome
      rw [executeTrade_after hok]
      refine iff_of_true ?_ ⟨hfirst, ?_, ?_⟩
      · rintro _ _ ⟨window, limit, hsome, _⟩
        exact hlimit window limit hsome
      · exact fun _ window limit hsome => absurd hsome (hlimit window limit)
      · exact fun _ _ window limit hsome => absurd hsome (hlimit window limit)
    · rw [executeTrade_after hok, full_withOwnSlot]
      constructor
      · exact fun hprechecked => ⟨hfirst, fun _ => not_full_tablesOf.mp hslot, hprechecked⟩
      · exact fun hroom => hroom.prechecked

/-- Fewer real trades and reservations of other requests than the limit in each window. -/
def BelowLimits (settings : RiskSettings) (account : String) (history : List Request)
    (now : ℤ) : Prop :=
  ∀ window limit, settings.limit window = some limit →
    (requestsIn account history window now : ℤ) < limit

/-- A call below the limits gets through exactly when there is room for the doubled
requests and its own slot as well. -/
theorem below_limits_allowed_iff (settings : RiskSettings) (account : String)
    (history : List Request) (times : Times) (first second : AllowingChecks) (dryRun : Bool) :
    (BelowLimits settings account history times.assessed →
      (executeTrade settings account (tablesOf history) times first second dryRun).rejected =
        false) ↔
    (BelowLimits settings account history times.assessed →
      Room settings account history times dryRun) := by
  rw [executeTrade_not_rejected]

/-- One trade a day. -/
def dailyLimit (limit : ℤ) : RiskSettings where
  economicGuardEnabled := false
  enabled := true
  tradeGuardMode := "warn_only"
  maxTradesPerDay := some limit
  maxTradesPerHour := none
  preTradeRules := ["trade_frequency"]

def noOtherChecks : AllowingChecks := ⟨[], [], by simp⟩

/-- Noon of day one; the call takes no time. -/
def noon : Times := ⟨43200000000, 43200000000, 43200000000, le_refl _, le_refl _⟩

/-- A trade of ten seconds before noon, recorded, with its reservation committed. -/
def executedTrade : Request where
  reservation := some ⟨"acc", 43190000000, 43220000000, .committed⟩
  audit := some ⟨"acc", 43190000000, "execute_trade", "success", some "false", none⟩

/-- With a limit of one the first trade of the day is rejected for its own slot; with a
limit of three a trade is rejected after a single one, which counts twice. -/
theorem own_slot_and_doubled_trade_reject :
    ¬ (BelowLimits (dailyLimit 1) "acc" [] noon.assessed →
      (executeTrade (dailyLimit 1) "acc" (tablesOf []) noon noOtherChecks noOtherChecks
        false).rejected = false) ∧
    ¬ (BelowLimits (dailyLimit 3) "acc" [executedTrade] noon.assessed →
      (executeTrade (dailyLimit 3) "acc" (tablesOf [executedTrade]) noon noOtherChecks
        noOtherChecks false).rejected = false) := by
  constructor
  · intro hallowed
    have hbelow : BelowLimits (dailyLimit 1) "acc" [] noon.assessed := by
      intro window limit hlimit
      cases window with
      | day =>
        cases hlimit
        decide
      | hour => cases hlimit
    have hrejected := hallowed hbelow
    revert hrejected
    decide +kernel
  · intro hallowed
    have hbelow : BelowLimits (dailyLimit 3) "acc" [executedTrade] noon.assessed := by
      intro window limit hlimit
      cases window with
      | day =>
        cases hlimit
        decide +kernel
      | hour => cases hlimit
    have hrejected := hallowed hbelow
    revert hrejected
    decide +kernel

end MT5Services.TradeFrequency
