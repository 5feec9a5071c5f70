import MT5Services.Dict
import MT5Services.IsoTime
import MT5Services.PyNumber
import Mathlib.Algebra.Order.Floor.Semiring

/-!
The outbox of notifications: the table `notification_outbox`, and the statements on it. Row ids
come from an `AUTOINCREMENT` key, so they grow and are not used again; `event_id` is unique. The
timestamp columns hold texts, and the statements compare these texts. An `Outbox` carries what the
schema promises, so a table with two rows of one event cannot be built.
-/
namespace MT5Services.NotificationOutbox

open IsoTime

inductive OutboxStatus
  | pending
  | sent
  | failed
  | dlq
  deriving DecidableEq, Repr

/-- A row without its id; the timestamps stand for the texts `isoformat` writes. -/
structure Row where
  eventId : String
  eventType : String
  severity : String
  chatId : String
  renderedText : String
  dedupKey : String
  createdAt : Moment
  attemptCount : ℕ := 0
  lastError : Option String := none
  nextRetryAt : Moment
  status : OutboxStatus := .pending
  deriving DecidableEq

/-- The columns `mark_sent` sets. -/
def Row.sent (row : Row) : Row := { row with status := .sent, lastError := none }

/-- The columns `mark_failed` sets. -/
def Row.failed (error : String) (nextRetryAt : Moment) (row : Row) : Row :=
  { row with
    status := .pending
    attemptCount := row.attemptCount + 1
    lastError := some error
    nextRetryAt := nextRetryAt }

/-- The columns `mark_dlq` sets. -/
def Row.dead (error : String) (row : Row) : Row :=
  { row with
    status := .dlq
    attemptCount := row.attemptCount + 1
    lastError := some error }

structure Outbox where
  rows : Dict ℕ Row
  lastId : ℕ
  ordered : rows.keys.Pairwise (· < ·)
  ids_le : ∀ id ∈ rows.keys, id ≤ lastId
  unique : (rows.values.map Row.eventId).Nodup

/-- `OutboxEntry`: a row as it was read. -/
structure OutboxEntry where
  id : ℕ
  row : Row
  deriving DecidableEq

/-- `now + timedelta(seconds=…)`; `none` where that raises an `OverflowError`. -/
def addSeconds (now : Moment) (seconds : ℚ) : Option Moment :=
  let micros := (now.val : ℤ) + PyNumber.roundHalfEven (seconds * 1000000)
  if h : 0 ≤ micros ∧ micros < endOfTime then some ⟨micros.toNat, by omega⟩ else none

namespace Outbox

theorem ordered_empty : (Dict.empty : Dict ℕ Row).keys.Pairwise (· < ·) := List.Pairwise.nil

def empty : Outbox :=
  ⟨.empty, 0, ordered_empty, by simp [Dict.keys, Dict.empty], List.nodup_nil⟩

variable (outbox : Outbox)

theorem fresh : outbox.rows.contains (outbox.lastId + 1) = false := by
  rw [Dict.contains, Option.isSome_eq_false_iff, Option.isNone_iff_eq_none]
  by_contra hsome
  obtain ⟨row, hrow⟩ := Option.ne_none_iff_exists'.mp hsome
  have hmem := (Dict.mem_items_iff_get? _ _ _).mpr hrow
  have hle := outbox.ids_le _ (List.mem_map.mpr ⟨_, hmem, rfl⟩)
  omega

/-- The `INSERT` of a row whose event is not there yet. -/
def insert (row : Row) (hnew : row.eventId ∉ outbox.rows.values.map Row.eventId) : Outbox where
  rows :=
    ⟨outbox.rows.items ++ [(outbox.lastId + 1, row)],
      Dict.nodup_keys_append _ _ _ outbox.fresh⟩
  lastId := outbox.lastId + 1
  ordered := by
    rw [Dict.keys, List.map_append, List.pairwise_append]
    refine ⟨outbox.ordered, List.pairwise_singleton _ _, ?_⟩
    intro id hid other hother
    have hle := outbox.ids_le id hid
    rw [List.map_singleton, List.mem_singleton] at hother
    omega
  ids_le := by
    intro id hid
    rw [Dict.keys, List.map_append, List.mem_append] at hid
    rcases hid with hid | hid
    · exact Nat.le_succ_of_le (outbox.ids_le id hid)
    · rw [List.map_singleton, List.mem_singleton] at hid
      exact hid.le
  unique := by
    rw [Dict.values, List.map_append, List.map_append, List.nodup_append]
    refine ⟨outbox.unique, List.nodup_singleton _, ?_⟩
    intro eventId hold other hother
    rw [List.map_singleton, List.map_singleton, List.mem_singleton] at hother
    rintro rfl
    exact hnew (hother ▸ hold)

/-- An `UPDATE` of the row of an id, which leaves its event as it is. -/
def update (id : ℕ) (change : Row → Row) (hevent : ∀ row, (change row).eventId = row.eventId) :
    Outbox where
  rows := outbox.rows.updateWhere (fun key _ => key = id) change
  lastId := outbox.lastId
  ordered := by
    rw [Dict.keys, Dict.updateWhere, Dict.mapValues, List.map_map]
    exact outbox.ordered
  ids_le := by
    rw [Dict.keys, Dict.updateWhere, Dict.mapValues, List.map_map]
    exact outbox.ids_le
  unique := by
    have hsame : ((outbox.rows.updateWhere (fun key _ => key = id) change).values.map
        Row.eventId) = outbox.rows.values.map Row.eventId := by
      simp only [Dict.values, Dict.updateWhere, Dict.mapValues, List.map_map]
      apply List.map_congr_left
      intro p _
      by_cases hp : p.1 = id
      · simp [hp, hevent]
      · simp [hp]
    rw [hsame]
    exact outbox.unique

/-- A `DELETE` of the rows that meet a condition. -/
def deleteWhere (cond : Row → Bool) : Outbox where
  rows :=
    ⟨outbox.rows.items.filter fun p => !cond p.2,
      outbox.rows.nodup.sublist (List.filter_sublist.map Prod.fst)⟩
  lastId := outbox.lastId
  ordered := outbox.ordered.sublist (List.filter_sublist.map Prod.fst)
  ids_le id hid := outbox.ids_le id ((List.filter_sublist.map Prod.fst).subset hid)
  unique := outbox.unique.sublist ((List.filter_sublist.map Prod.snd).map Row.eventId)

/-- The new row and the table with it; a known event is an error. -/
def enqueue (eventId eventType severity chatId renderedText dedupKey : String) (now : Moment) :
    Except String (ℕ × Outbox) :=
  let row : Row :=
    { eventId, eventType, severity, chatId, renderedText, dedupKey
      createdAt := now, nextRetryAt := now }
  if hold : row.eventId ∈ outbox.rows.values.map Row.eventId then
    .error s!"event_id already in outbox: {eventId}"
  else .ok (outbox.lastId + 1, outbox.insert row hold)

/-- The condition of `fetch_due`, on the texts of the timestamps. -/
def due (now : Moment) (row : Row) : Bool :=
  row.status = .pending && decide (isoformat row.nextRetryAt ≤ isoformat now)

/-- The table stands in the order of its ids. -/
def fetchDue (now : Moment) (limit : ℤ) : List OutboxEntry :=
  if limit ≤ 0 then []
  else
    ((outbox.rows.items.filter fun p => due now p.2).take limit.toNat).map fun p => ⟨p.1, p.2⟩

def markSent (id : ℕ) : Outbox := outbox.update id Row.sent fun _ => rfl

def markFailed (id : ℕ) (error : String) (nextRetryAt : Moment) : Outbox :=
  outbox.update id (Row.failed error nextRetryAt) fun _ => rfl

def markDlq (id : ℕ) (error : String) : Outbox := outbox.update id (Row.dead error) fun _ => rfl

/-- The number of deleted rows, and the table without them. -/
def purgeSentOlderThan (cutoff : Moment) : ℕ × Outbox :=
  let old := fun row : Row =>
    row.status = .sent && decide (isoformat row.createdAt < isoformat cutoff)
  (outbox.rows.items.countP fun p => old p.2, outbox.deleteWhere old)

variable {outbox}

@[simp]
theorem get?_insert (row : Row) (hnew : row.eventId ∉ outbox.rows.values.map Row.eventId)
    (id : ℕ) : (outbox.insert row hnew).rows.get? id =
      if id = outbox.lastId + 1 then some row else outbox.rows.get? id := by
  have hset : (outbox.insert row hnew).rows = outbox.rows.set (outbox.lastId + 1) row := by
    rw [Dict.set, dif_pos outbox.fresh]
    rfl
  rw [hset, Dict.get?_set]

@[simp]
theorem get?_update (id : ℕ) (change : Row → Row)
    (hevent : ∀ row, (change row).eventId = row.eventId) (other : ℕ) :
    (outbox.update id change hevent).rows.get? other =
      (outbox.rows.get? other).map fun row => if other = id then change row else row := by
  rw [update, Dict.get?_updateWhere]
  simp only [decide_eq_true_eq]

theorem get?_deleteWhere (cond : Row → Bool) (id : ℕ) :
    (outbox.deleteWhere cond).rows.get? id =
      (outbox.rows.get? id).filter fun row => !cond row := by
  apply Option.ext
  intro row
  rw [Option.filter_eq_some_iff, ← Dict.mem_items_iff_get?, ← Dict.mem_items_iff_get?]
  exact List.mem_filter

theorem get?_lt {id : ℕ} {row : Row} (h : outbox.rows.get? id = some row) : id ≤ outbox.lastId :=
  outbox.ids_le id (List.mem_map.mpr ⟨_, (Dict.mem_items_iff_get? _ _ _).mpr h, rfl⟩)

/-- The statement compares texts, and so it compares moments. -/
theorem due_iff {now : Moment} {row : Row} :
    due now row = true ↔ row.status = .pending ∧ row.nextRetryAt ≤ now := by
  simp [due, isoformat_le_iff]

variable (outbox)

/-- Though the statements compare texts, and a text leaves out a fraction of zero, the worker gets
the first of the pending rows whose time has come, in the order of their ids, and the purge deletes
exactly the sent rows from before the cutoff. -/
theorem fetchDue_purge_by_moment (now cutoff : Moment) (limit : ℤ) :
    outbox.fetchDue now limit =
        ((outbox.rows.items.filter fun p => p.2.status = .pending ∧ p.2.nextRetryAt ≤ now).take
          limit.toNat).map (fun p => ⟨p.1, p.2⟩) ∧
      (outbox.purgeSentOlderThan cutoff).1 +
          (outbox.purgeSentOlderThan cutoff).2.rows.items.length = outbox.rows.items.length ∧
      (outbox.purgeSentOlderThan cutoff).2.rows.items =
        outbox.rows.items.filter fun p => ¬(p.2.status = .sent ∧ p.2.createdAt < cutoff) := by
  refine ⟨?_, ?_, ?_⟩
  · have hdue : (fun p : ℕ × Row => due now p.2) =
        fun p => decide (p.2.status = .pending ∧ p.2.nextRetryAt ≤ now) := by
      funext p
      rw [Bool.eq_iff_iff, due_iff, decide_eq_true_eq]
    unfold fetchDue
    rw [hdue]
    split
    · rename_i hlimit
      rw [Int.toNat_of_nonpos hlimit, List.take_zero, List.map_nil]
    · rfl
  · rw [purgeSentOlderThan, deleteWhere]
    dsimp only
    rw [← List.countP_eq_length_filter]
    have hsplit := List.length_eq_countP_add_countP (l := outbox.rows.items) fun p : ℕ × Row =>
      decide (p.2.status = .sent) && decide (isoformat p.2.createdAt < isoformat cutoff)
    rw [hsplit]
    congr 2
    funext p
    rw [decide_not, Bool.decide_eq_true]
  · rw [purgeSentOlderThan, deleteWhere]
    apply List.filter_congr
    intro p _
    simp only [isoformat_lt_iff, Bool.decide_and, decide_not]

end Outbox

/-- The pause before the next attempt; the last one is used again. -/
def computeNextRetryAt (attemptCount : ℕ) (backoffSeconds : List ℚ) (now : Moment) :
    Except String (Option Moment) :=
  match backoffSeconds with
  | [] => .error "backoff_seconds must be non-empty"
  | first :: rest =>
    .ok (addSeconds now ((first :: rest).getD (min attemptCount rest.length) first))

end MT5Services.NotificationOutbox
