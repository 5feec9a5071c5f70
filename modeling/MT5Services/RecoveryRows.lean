import MT5Services.PyText
import Mathlib.Algebra.Order.Ring.Rat

/-!
The rows of `recovery_cycle_states` as the admission gates of a new cycle read them: which
rows belong to the resident runner, when a row happened and what it lost. Times are in
microseconds since the epoch, and a field that does not parse is `none`; amounts are exact
rationals.
-/
namespace MT5Services.RecoveryRows

open PyText

/-- A row as `list_recovery_cycle_states` returns it. `realizedPnl` is what `float` makes
of the column, and `initialDryRun` the entry `dry_run` of `metadata["initial_result"]`. -/
structure CycleRow where
  accountKey : String
  cycleId : String
  symbol : String
  strategy : String
  statusReason : Option String
  startedAt : Option ℤ
  closedAt : Option ℤ
  updatedAt : Option ℤ
  realizedPnl : Option ℚ
  initialDryRun : Option Bool
  deriving DecidableEq, Repr

def minute : ℤ := 60000000

def hour : ℤ := 3600000000

/-- The day of a moment in UTC. -/
def utcDate (time : ℤ) : ℤ := time / 86400000000

def recoveryRowIsDryRunCycle (row : CycleRow) : Bool := row.initialDryRun.getD false

/-- The row filter of both gates; the expected texts are already normalised. -/
def rowMatches (accountKey symbol strategy : String) (dryRun : Bool) (row : CycleRow) : Bool :=
  (accountKey = "" || strip row.accountKey = accountKey) &&
    upper (strip row.symbol) = symbol && strip row.strategy = strategy &&
    "resident_recovery_".toList.isPrefixOf (strip (row.statusReason.getD "")).toList &&
    (dryRun || !recoveryRowIsDryRunCycle row)

/-- What the runner's own cycles have in common. -/
structure Identity where
  accountKey : String
  symbol : String
  strategy : String
  dryRun : Bool
  deriving DecidableEq

/-- The row filter of the runner. -/
def Identity.isResidentCycle (runner : Identity) (row : CycleRow) : Bool :=
  rowMatches (strip runner.accountKey) (upper runner.symbol) runner.strategy runner.dryRun row

/-- `_row_matches_resident_recovery`. -/
def rowMatchesResidentRecovery (accountKey symbol strategy : String) (dryRun : Bool)
    (row : CycleRow) : Bool :=
  rowMatches (strip accountKey) (upper (strip symbol)) (strip strategy) dryRun row

/-- `_realized_loss`. -/
def realizedLoss (row : CycleRow) : ℚ :=
  match row.realizedPnl with
  | none => 0
  | some pnl => max 0 (-pnl)

/-- `_row_event_time`. -/
def rowEventTime (row : CycleRow) : Option ℤ :=
  row.closedAt.or (row.updatedAt.or row.startedAt)

/-- A number with leading zeros, at least `width` digits. -/
def zeroPadded (width : ℕ) (n : ℤ) : String :=
  let digits := toString n
  String.ofList (List.replicate (width - digits.length) '0') ++ digits

/-- Year, month and day of a day counted from the epoch; years start in March here, so a
leap day is the last day of its year. -/
def civilDate (day : ℤ) : ℤ × ℤ × ℤ :=
  let era := (day + 719468) / 146097
  let dayOfEra := (day + 719468) % 146097
  let yearOfEra := (dayOfEra - dayOfEra / 1460 + dayOfEra / 36524 - dayOfEra / 146096) / 365
  let dayOfYear := dayOfEra - (365 * yearOfEra + yearOfEra / 4 - yearOfEra / 100)
  let fromMarch := (5 * dayOfYear + 2) / 153
  let month := if fromMarch < 10 then fromMarch + 3 else fromMarch - 9
  (yearOfEra + era * 400 + (if month ≤ 2 then 1 else 0), month,
    dayOfYear - (153 * fromMarch + 2) / 5 + 1)

/-- `datetime.isoformat()` in UTC. -/
def isoformat (time : ℤ) : String :=
  let date := civilDate (utcDate time)
  let micros := time % 86400000000
  let fraction := micros % 1000000
  zeroPadded 4 date.1 ++ "-" ++ zeroPadded 2 date.2.1 ++ "-" ++ zeroPadded 2 date.2.2 ++ "T" ++
    zeroPadded 2 (micros / hour) ++ ":" ++ zeroPadded 2 (micros / minute % 60) ++ ":" ++
    zeroPadded 2 (micros / 1000000 % 60) ++
    (if fraction = 0 then "" else "." ++ zeroPadded 6 fraction) ++ "+00:00"

/-- What tells two cycles apart: the cycle id, or the start of a row without one. -/
def cycleKey (row : CycleRow) (startedAt : ℤ) : String :=
  if strip row.cycleId = "" then "started_at:" ++ isoformat startedAt else strip row.cycleId

/-- `list_recovery_cycle_states` of a state store, by symbol, strategy and limit; `none`
when the store has no such port. -/
abbrev Lister := Option (String → String → ℤ → Except String (List CycleRow))

/-- A state store that gives the rows whatever the limit. -/
def givenRows (rows : List CycleRow) : Lister := some fun _ _ _ => .ok rows

example : isoformat 1709210096000001 = "2024-02-29T12:34:56.000001+00:00" := by decide +kernel

theorem cycleKey_of_ne {row : CycleRow} (h : strip row.cycleId ≠ "") (startedAt : ℤ) :
    cycleKey row startedAt = strip row.cycleId :=
  if_neg h

theorem realizedLoss_nonneg (row : CycleRow) : 0 ≤ realizedLoss row := by
  unfold realizedLoss
  split
  · exact le_rfl
  · exact le_max_left _ _

theorem realizedLoss_of_none {row : CycleRow} (h : row.realizedPnl = none) :
    realizedLoss row = 0 := by
  rw [realizedLoss, h]

theorem realizedLoss_pos {row : CycleRow} {pnl : ℚ} (h : row.realizedPnl = some pnl)
    (hpnl : pnl < 0) : 0 < realizedLoss row := by
  rw [realizedLoss, h]
  exact lt_max_of_lt_right (neg_pos.mpr hpnl)

end MT5Services.RecoveryRows
