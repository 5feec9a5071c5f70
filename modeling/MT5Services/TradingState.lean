import MT5Services.IndexedDict
import MT5Services.PyText
import Mathlib.Data.Rat.Defs

/-!
`TradingStateStore`: the cache of pending orders with its index by signal, the cache of open
positions, and the rows written to `pending_order_states`. Each time a position is tracked or
updated the store looks for a pending order that it filled: among the orders of its signal,
else under its own ticket. The order that is found is marked and leaves the cache, so the next
update finds another one if there is one left.
-/
namespace MT5Services.TradingState

open PyText

inductive PendingStatus
  | placed
  | filled
  | expired
  | cancelled
  | missing
  | orphan
  deriving DecidableEq, Repr

/-- The statuses that a position is matched with. -/
def PendingStatus.isLive (status : PendingStatus) : Bool :=
  status = .placed || status = .missing

def PendingStatus.isCached (status : PendingStatus) : Bool :=
  status = .placed || status = .missing || status = .orphan

/-- A row of `pending_order_states`. -/
structure PendingRow where
  orderTicket : ℤ
  signalId : Option String
  status : PendingStatus
  statusReason : String
  positionTicket : Option ℤ := none
  fillPrice : Option ℚ := none
  updatedAt : Option ℤ
  deriving DecidableEq, Repr

/-- `_str_or_none(row["signal_id"])`. -/
def signalOf (row : PendingRow) : Option String := stripOrNone row.signalId

/-- What the callers say of a pending order. -/
structure PendingInfo where
  ticket : Option ℤ
  signalId : Option String

/-- What they say of the position that filled it. -/
structure FillState where
  ticket : Option ℤ
  fillPrice : Option ℚ
  reason : Option String

structure TrackedPosition where
  ticket : ℤ
  signalId : Option String
  entryPrice : ℚ
  stopLoss : ℚ
  takeProfit : ℚ

/-- A row of `position_runtime_states`. -/
structure PositionRow where
  positionTicket : ℤ
  signalId : Option String
  orderTicket : Option ℤ
  entryPrice : ℚ
  initialStopLoss : ℚ
  initialTakeProfit : ℚ
  currentStopLoss : ℚ
  currentTakeProfit : ℚ
  isOpen : Bool
  reason : String
  updatedAt : ℤ

abbrev PendingCache := IndexedDict ℤ String PendingRow signalOf

structure Store where
  positionCache : Dict ℤ PositionRow
  pendingCache : PendingCache
  /-- The rows written to `pending_order_states`. -/
  written : List PendingRow

namespace Store

def empty : Store := ⟨Dict.empty, IndexedDict.empty, []⟩

/-- `_cache_pending_row`. -/
def cachePendingRow (cache : PendingCache) (row : PendingRow) : PendingCache :=
  if row.orderTicket ≤ 0 then cache
  else if row.status.isCached then cache.insert row.orderTicket row
  else cache.remove row.orderTicket

/-- A row is written to the database and cached. -/
def record (s : Store) (row : PendingRow) : Store :=
  { s with
    pendingCache := cachePendingRow s.pendingCache row
    written := s.written ++ [row] }

/-- `warm_start` on the rows of the two tables. -/
def warmStart (s : Store) (positions : List PositionRow) (pendings : List PendingRow) : Store where
  positionCache :=
    (positions.filter fun row => row.isOpen && 0 < row.positionTicket).foldl
      (fun cache row => cache.set row.positionTicket row) Dict.empty
  pendingCache :=
    (pendings.filter fun row => row.status.isLive).foldl cachePendingRow IndexedDict.empty
  written := s.written

/-- `_pending_state_from_info`. -/
def stateFromInfo (info : PendingInfo) (status : PendingStatus) (reason : String) (now : ℤ) :
    PendingRow where
  orderTicket := info.ticket.getD 0
  signalId := stripOrNone info.signalId
  status := status
  statusReason := reason
  updatedAt := some now

def recordPendingOrderPlaced (s : Store) (info : PendingInfo) (now : ℤ) : Store :=
  s.record (stateFromInfo info .placed "placed_by_executor" now)

/-- `value or fallback`. -/
def orReason (value : Option String) (fallback : String) : String :=
  if value.getD "" = "" then fallback else value.getD ""

/-- The row that `mark_pending_order_filled` writes. -/
def filledRow (info : PendingInfo) (state : FillState) (now : ℤ) : PendingRow :=
  { stateFromInfo info .filled (orReason state.reason "matched_live_position") now with
    positionTicket := state.ticket
    fillPrice := state.fillPrice }

def markPendingOrderFilled (s : Store) (info : PendingInfo) (state : FillState) (now : ℤ) :
    Store :=
  s.record (filledRow info state now)

def markPendingOrderExpired (s : Store) (info : PendingInfo) (reason : String) (now : ℤ) :
    Store :=
  s.record (stateFromInfo info .expired reason now)

def markPendingOrderCancelled (s : Store) (info : PendingInfo) (reason : String) (now : ℤ) :
    Store :=
  s.record (stateFromInfo info .cancelled reason now)

def markPendingOrderMissing (s : Store) (info : PendingInfo) (reason : String) (now : ℤ) :
    Store :=
  s.record (stateFromInfo info .missing reason now)

/-- `mark_pending_order_orphan`, on the ticket of a broker order. -/
def markPendingOrderOrphan (s : Store) (ticket : Option ℤ) (now : ℤ) : Store :=
  match ticket with
  | some ticket =>
    if ticket ≤ 0 then s
    else
      s.record
        ⟨ticket, none, .orphan, "recovered_from_mt5_without_local_state", none, none, some now⟩
  | none => s

/-- The rows that may belong to the position, by signal, by ticket, and by a scan. -/
def candidates (s : Store) (pos : TrackedPosition) : List PendingRow :=
  let signal := stripOrNone pos.signalId
  let bySignal := (signal.map s.pendingCache.rowsOf).getD []
  let byTicket := if bySignal = [] then (s.pendingCache.get? pos.ticket).toList else bySignal
  if byTicket = [] ∧ signal ≠ none then
    s.pendingCache.rows.values.filter fun row => signalOf row = signal
  else byTicket

/-- `datetime.min`, in microseconds. -/
def datetimeMin : ℤ := -62135596800000000

/-- The order by `updated_at` and `order_ticket`. -/
def earlier (a b : PendingRow) : Bool :=
  let key (row : PendingRow) : ℤ := row.updatedAt.getD datetimeMin
  key a < key b ∨ (key a = key b ∧ a.orderTicket ≤ b.orderTicket)

/-- `_match_pending_for_position`. -/
def matchPendingForPosition (s : Store) (pos : TrackedPosition) : Option PendingRow :=
  (((s.candidates pos).filter fun row => row.status.isLive).mergeSort earlier).getLast?

/-- `_pending_info_from_row`. -/
def infoFromRow (row : PendingRow) : PendingInfo := ⟨some row.orderTicket, row.signalId⟩

/-- The matched row, marked on behalf of the position. -/
def markMatched (s : Store) (pos : TrackedPosition) (now : ℤ) : Store :=
  match s.matchPendingForPosition pos with
  | some row =>
    s.markPendingOrderFilled (infoFromRow row)
      ⟨some pos.ticket, some pos.entryPrice, some "matched_tracked_position"⟩ now
  | none => s

/-- `x or y` on ids, where zero counts as missing. -/
def orId (value fallback : Option ℤ) : Option ℤ := if value.getD 0 = 0 then fallback else value

def orPrice (value : Option ℚ) (fallback : ℚ) : ℚ :=
  if value.getD 0 = 0 then fallback else value.getD 0

/-- The row of the position after it was tracked or updated. -/
def positionRow (s : Store) (pos : TrackedPosition) (orderTicket : Option ℤ) (reason : String)
    (now : ℤ) : PositionRow where
  positionTicket := pos.ticket
  signalId := stripOrNone pos.signalId
  orderTicket := orId ((s.positionCache.get? pos.ticket).bind PositionRow.orderTicket) orderTicket
  entryPrice := pos.entryPrice
  initialStopLoss :=
    orPrice ((s.positionCache.get? pos.ticket).map PositionRow.initialStopLoss) pos.stopLoss
  initialTakeProfit :=
    orPrice ((s.positionCache.get? pos.ticket).map PositionRow.initialTakeProfit) pos.takeProfit
  currentStopLoss := pos.stopLoss
  currentTakeProfit := pos.takeProfit
  isOpen := true
  reason := reason
  updatedAt := now

/-- `record_position_tracked`, which is also `record_position_update`. -/
def recordPositionTracked (s : Store) (pos : TrackedPosition) (reason : String) (now : ℤ) :
    Store :=
  let orderTicket := (s.matchPendingForPosition pos).map PendingRow.orderTicket
  { s.markMatched pos now with
    positionCache :=
      s.positionCache.set pos.ticket (s.positionRow pos orderTicket reason now) }

def markPositionClosed (s : Store) (pos : TrackedPosition) : Store :=
  { s with positionCache := s.positionCache.pop pos.ticket }

/-- `mark_position_missing`, on the ticket of a stored row. -/
def markPositionMissing (s : Store) (ticket : Option ℤ) : Store :=
  match ticket with
  | some ticket => if ticket ≤ 0 then s else { s with positionCache := s.positionCache.pop ticket }
  | none => s

end Store

/-- The calls that change the store. -/
inductive Call
  | warmStart (positions : List PositionRow) (pendings : List PendingRow)
  | placed (info : PendingInfo) (now : ℤ)
  | filled (info : PendingInfo) (state : FillState) (now : ℤ)
  | expired (info : PendingInfo) (reason : String) (now : ℤ)
  | cancelled (info : PendingInfo) (reason : String) (now : ℤ)
  | missing (info : PendingInfo) (reason : String) (now : ℤ)
  | orphan (ticket : Option ℤ) (now : ℤ)
  | tracked (pos : TrackedPosition) (reason : String) (now : ℤ)
  | closed (pos : TrackedPosition)
  | positionMissing (ticket : Option ℤ)

def step (s : Store) : Call → Store
  | .warmStart positions pendings => s.warmStart positions pendings
  | .placed info now => s.recordPendingOrderPlaced info now
  | .filled info state now => s.markPendingOrderFilled info state now
  | .expired info reason now => s.markPendingOrderExpired info reason now
  | .cancelled info reason now => s.markPendingOrderCancelled info reason now
  | .missing info reason now => s.markPendingOrderMissing info reason now
  | .orphan ticket now => s.markPendingOrderOrphan ticket now
  | .tracked pos reason now => s.recordPositionTracked pos reason now
  | .closed pos => s.markPositionClosed pos
  | .positionMissing ticket => s.markPositionMissing ticket

inductive Reachable : Store → Prop
  | empty : Reachable .empty
  | step {s : Store} (call : Call) (h : Reachable s) : Reachable (step s call)

/-- What every call keeps: rows stand under their ticket, and only live rows have a signal. -/
structure Kept (cache : PendingCache) : Prop where
  ticket : ∀ {key row}, cache.get? key = some row → row.orderTicket = key
  positive : ∀ {key row}, cache.get? key = some row → 0 < key
  live : ∀ {key row}, cache.get? key = some row → signalOf row ≠ none → row.status.isLive = true

theorem kept_empty : Kept IndexedDict.empty where
  ticket := by
    intro key row h
    cases h
  positive := by
    intro key row h
    cases h
  live := by
    intro key row h
    cases h

variable {row : PendingRow}

theorem get?_cachePendingRow (cache : PendingCache) (key : ℤ) (h : 0 < row.orderTicket) :
    (Store.cachePendingRow cache row).get? key =
      if key = row.orderTicket then if row.status.isCached then some row else none
      else cache.get? key := by
  unfold Store.cachePendingRow
  rw [if_neg (not_le.mpr h)]
  by_cases hcached : row.status.isCached = true
  · rw [if_pos hcached, if_pos hcached, IndexedDict.get?_insert]
  · rw [if_neg hcached, if_neg hcached, IndexedDict.get?_remove]

variable {cache : PendingCache}

theorem kept_cachePendingRow (h : Kept cache)
    (hrow : row.status.isCached = true → signalOf row ≠ none → row.status.isLive = true) :
    Kept (Store.cachePendingRow cache row) := by
  by_cases hticket : 0 < row.orderTicket
  · have hget : ∀ {key row'}, (Store.cachePendingRow cache row).get? key = some row' →
        (row' = row ∧ key = row.orderTicket ∧ row.status.isCached = true) ∨
          cache.get? key = some row' := by
      intro key row' hrow'
      rw [get?_cachePendingRow cache key hticket] at hrow'
      split at hrow'
      · rename_i hkey
        split at hrow'
        · rename_i hcached
          cases hrow'
          exact Or.inl ⟨rfl, hkey, hcached⟩
        · cases hrow'
      · exact Or.inr hrow'
    constructor
    · intro key row' hrow'
      rcases hget hrow' with ⟨rfl, rfl, _⟩ | hold
      · rfl
      · exact h.ticket hold
    · intro key row' hrow'
      rcases hget hrow' with ⟨rfl, rfl, _⟩ | hold
      · exact hticket
      · exact h.positive hold
    · intro key row' hrow' hsignal
      rcases hget hrow' with ⟨rfl, _, hcached⟩ | hold
      · exact hrow hcached hsignal
      · exact h.live hold hsignal
  · unfold Store.cachePendingRow
    rw [if_pos (not_lt.mp hticket)]
    exact h

variable {s : Store}

theorem kept_record (h : Kept s.pendingCache)
    (hrow : row.status.isCached = true → signalOf row ≠ none → row.status.isLive = true) :
    Kept (s.record row).pendingCache :=
  kept_cachePendingRow h hrow

theorem kept_fold {rows : List PendingRow} (h : Kept cache)
    (hrows : ∀ row ∈ rows, row.status.isLive = true) :
    Kept (rows.foldl Store.cachePendingRow cache) := by
  induction rows generalizing cache with
  | nil => exact h
  | cons row rest ih =>
    have hrow := hrows row List.mem_cons_self
    exact ih (kept_cachePendingRow h fun _ _ => hrow)
      fun other hother => hrows other (List.mem_cons_of_mem _ hother)

theorem markMatched_cases (s : Store) (pos : TrackedPosition) (now : ℤ) :
    s.markMatched pos now = s ∨ ∃ row, s.matchPendingForPosition pos = some row ∧
      s.markMatched pos now = s.record (Store.filledRow (Store.infoFromRow row)
        ⟨some pos.ticket, some pos.entryPrice, some "matched_tracked_position"⟩ now) := by
  unfold Store.markMatched
  cases s.matchPendingForPosition pos with
  | none => exact Or.inl rfl
  | some row => exact Or.inr ⟨row, rfl, rfl⟩

theorem kept_orphan (h : Kept s.pendingCache) (ticket : Option ℤ) (now : ℤ) :
    Kept (s.markPendingOrderOrphan ticket now).pendingCache := by
  cases ticket with
  | none => exact h
  | some ticket =>
    by_cases hticket : ticket ≤ 0
    · simpa [Store.markPendingOrderOrphan, hticket] using h
    · have hrecord : (s.markPendingOrderOrphan (some ticket) now).pendingCache =
          (s.record ⟨ticket, none, .orphan, "recovered_from_mt5_without_local_state", none, none,
            some now⟩).pendingCache := by
        simp [Store.markPendingOrderOrphan, hticket]
      have hnone : stripOrNone none = none := by decide +kernel
      rw [hrecord]
      exact kept_record h fun _ hsignal => absurd hnone hsignal

theorem kept_step (h : Kept s.pendingCache) (call : Call) : Kept (step s call).pendingCache := by
  have hgone : ∀ status : PendingStatus, status.isCached = false →
      ∀ {row : PendingRow}, row.status = status → row.status.isCached = true →
        signalOf row ≠ none → row.status.isLive = true := by
    intro status hstatus row hrow hcached
    rw [hrow, hstatus] at hcached
    cases hcached
  cases call with
  | warmStart positions pendings =>
    exact kept_fold kept_empty fun row hrow => (List.mem_filter.mp hrow).2
  | placed info now => exact kept_record h fun _ _ => rfl
  | filled info state now => exact kept_record h (hgone .filled rfl rfl)
  | expired info reason now => exact kept_record h (hgone .expired rfl rfl)
  | cancelled info reason now => exact kept_record h (hgone .cancelled rfl rfl)
  | missing info reason now => exact kept_record h fun _ _ => rfl
  | orphan ticket now => exact kept_orphan h ticket now
  | tracked pos reason now =>
    show Kept (s.markMatched pos now).pendingCache
    rcases markMatched_cases s pos now with hsame | ⟨row, _, hmark⟩
    · rw [hsame]
      exact h
    · rw [hmark]
      exact kept_record h (hgone .filled rfl rfl)
  | closed pos => exact h
  | positionMissing ticket =>
    cases ticket with
    | none => exact h
    | some ticket =>
      show Kept (s.markPositionMissing (some ticket)).pendingCache
      unfold Store.markPositionMissing
      dsimp only
      split
      · exact h
      · exact h

theorem Reachable.kept (h : Reachable s) : Kept s.pendingCache := by
  induction h with
  | empty => exact kept_empty
  | step call _ ih => exact kept_step ih call

/-- A live order of the position's signal, or under its ticket. -/
def Matching (s : Store) (ticket : ℤ) (signalId : Option String) (key : ℤ) : Prop :=
  ∃ row, s.pendingCache.get? key = some row ∧ row.status.isLive = true ∧
    (key = ticket ∨ (stripOrNone signalId ≠ none ∧ signalOf row = stripOrNone signalId))

variable {key ticket : ℤ} {signalId : Option String}

theorem Matching.positive
    (h : Matching s ticket signalId key) (hkept : Kept s.pendingCache) : 0 < key := by
  obtain ⟨_, hget, _⟩ := h
  exact hkept.positive hget

theorem mem_values (h : row ∈ cache.rows.values) : ∃ key, cache.get? key = some row := by
  obtain ⟨⟨key, value⟩, hitem, rfl⟩ := List.mem_map.mp h
  exact ⟨key, (Dict.mem_items_iff_get? _ _ _).mp hitem⟩

variable {pos : TrackedPosition}

/-- A candidate is cached, and has the ticket or the signal. -/
theorem of_mem_candidates (h : row ∈ s.candidates pos) : ∃ key, s.pendingCache.get? key = some row ∧
      (key = pos.ticket ∨
        (stripOrNone pos.signalId ≠ none ∧ signalOf row = stripOrNone pos.signalId)) := by
  unfold Store.candidates at h
  dsimp only at h
  cases hsignal : stripOrNone pos.signalId with
  | none =>
    rw [hsignal, Option.map_none, Option.getD_none, if_pos rfl] at h
    simp only [ne_eq, not_true_eq_false, and_false, if_false, Option.mem_toList] at h
    exact ⟨pos.ticket, h, Or.inl rfl⟩
  | some signal =>
    rw [hsignal, Option.map_some, Option.getD_some] at h
    have hscan : row ∈ s.pendingCache.rows.values.filter (fun row => signalOf row = some signal) →
        ∃ key, s.pendingCache.get? key = some row ∧
          (key = pos.ticket ∨ (some signal ≠ none ∧ signalOf row = some signal)) := by
      intro hrow
      obtain ⟨hvalue, hrowSignal⟩ := List.mem_filter.mp hrow
      obtain ⟨key, hkey⟩ := mem_values hvalue
      exact ⟨key, hkey, Or.inr ⟨Option.some_ne_none signal, of_decide_eq_true hrowSignal⟩⟩
    by_cases hnone : s.pendingCache.rowsOf signal = []
    · rw [if_pos hnone] at h
      by_cases hticket : (s.pendingCache.get? pos.ticket).toList = []
      · rw [if_pos ⟨hticket, Option.some_ne_none signal⟩] at h
        exact hscan h
      · rw [if_neg fun hempty => hticket hempty.1] at h
        exact ⟨pos.ticket, Option.mem_toList.mp h, Or.inl rfl⟩
    · rw [if_neg hnone, if_neg fun hempty => hnone hempty.1] at h
      obtain ⟨hrow, key, hkey⟩ := IndexedDict.mem_rowsOf.mp h
      exact ⟨key, hkey, Or.inr ⟨Option.some_ne_none signal, hrow⟩⟩

/-- If some live order matches, one is among the candidates. -/
theorem exists_live_candidate
    (hkept : Kept s.pendingCache) (h : Matching s pos.ticket pos.signalId key) :
    ∃ row ∈ s.candidates pos, row.status.isLive = true := by
  obtain ⟨row, hrow, hlive, hmatch⟩ := h
  have hticket : ∀ rows : List PendingRow, rows = [] → key = pos.ticket →
      row ∈ if rows = [] then (s.pendingCache.get? pos.ticket).toList else rows := by
    rintro rows rfl rfl
    rw [if_pos rfl, hrow]
    exact List.mem_singleton_self row
  unfold Store.candidates
  dsimp only
  cases hsignal : stripOrNone pos.signalId with
  | none =>
    have hkey : key = pos.ticket := by simpa [hsignal] using hmatch
    refine ⟨row, ?_, hlive⟩
    rw [if_neg (by simp)]
    exact hticket _ rfl hkey
  | some signal =>
    rw [Option.map_some, Option.getD_some]
    by_cases hnone : s.pendingCache.rowsOf signal = []
    · have hkey : key = pos.ticket := by
        rcases hmatch with hkey | ⟨_, hrowSignal⟩
        · exact hkey
        · rw [hsignal] at hrowSignal
          have hmem := IndexedDict.mem_rowsOf.mpr ⟨hrowSignal, key, hrow⟩
          rw [hnone] at hmem
          cases hmem
      have hmem := hticket _ hnone hkey
      refine ⟨row, ?_, hlive⟩
      rw [if_neg fun hempty => absurd (hempty.1 ▸ hmem) List.not_mem_nil]
      exact hmem
    · obtain ⟨other, hother⟩ := List.exists_mem_of_ne_nil _ hnone
      obtain ⟨hotherSignal, otherKey, hotherRow⟩ := IndexedDict.mem_rowsOf.mp hother
      refine ⟨other, ?_, hkept.live hotherRow (by rw [hotherSignal]; exact Option.some_ne_none _)⟩
      rw [if_neg hnone, if_neg fun hempty => hnone hempty.1]
      exact hother

theorem matchPending_some
    (hkept : Kept s.pendingCache) (h : s.matchPendingForPosition pos = some row) :
    Matching s pos.ticket pos.signalId row.orderTicket := by
  have hmem := List.mem_mergeSort.mp (List.mem_of_getLast? h)
  obtain ⟨hcandidate, hlive⟩ := List.mem_filter.mp hmem
  obtain ⟨key, hkey, hmatch⟩ := of_mem_candidates hcandidate
  have hticket := hkept.ticket hkey
  subst hticket
  exact ⟨row, hkey, hlive, hmatch⟩

theorem matchPending_none (hkept : Kept s.pendingCache)
    (h : s.matchPendingForPosition pos = none) (key : ℤ) :
    ¬ Matching s pos.ticket pos.signalId key := by
  intro hmatch
  obtain ⟨row, hrow, hlive⟩ := exists_live_candidate hkept hmatch
  have hfilter : row ∈ (s.candidates pos).filter fun row => row.status.isLive :=
    List.mem_filter.mpr ⟨hrow, hlive⟩
  have hmem : row ∈ ((s.candidates pos).filter fun row => row.status.isLive).mergeSort
      Store.earlier := List.mem_mergeSort.mpr hfilter
  rw [List.getLast?_eq_none_iff.mp h] at hmem
  cases hmem

theorem orderTicket_filledRow (row : PendingRow) (state : FillState) (now : ℤ) :
    (Store.filledRow (Store.infoFromRow row) state now).orderTicket = row.orderTicket := by
  simp only [Store.filledRow, Store.stateFromInfo, Store.infoFromRow, Option.getD_some]

/-- A filled row leaves the cache. -/
theorem get?_record_filled (s : Store) (key : ℤ)
    (hfilled : row.status = .filled) (h : 0 < row.orderTicket) :
    (s.record row).pendingCache.get? key =
      if key = row.orderTicket then none else s.pendingCache.get? key := by
  have hcached : row.status.isCached = false := by
    rw [hfilled]
    rfl
  rw [Store.record]
  dsimp only
  rw [get?_cachePendingRow s.pendingCache key h, hcached, if_neg Bool.false_ne_true]

/-- What tracking a position does to the pending orders. -/
inductive Tracked (s : Store) (pos : TrackedPosition) (next : Store) : Prop
  | unmatched (hnone : ∀ key, ¬ Matching s pos.ticket pos.signalId key)
      (hwritten : next.written = s.written)
      (hcache : ∀ key, next.pendingCache.get? key = s.pendingCache.get? key)
  | marked (filled : PendingRow)
      (hmatch : Matching s pos.ticket pos.signalId filled.orderTicket)
      (hstatus : filled.status = .filled) (hposition : filled.positionTicket = some pos.ticket)
      (hwritten : next.written = s.written ++ [filled])
      (hcache : ∀ key, next.pendingCache.get? key =
        if key = filled.orderTicket then none else s.pendingCache.get? key)

theorem recordPositionTracked_cases (hkept : Kept s.pendingCache)
    (pos : TrackedPosition) (reason : String) (now : ℤ) :
    Tracked s pos (s.recordPositionTracked pos reason now) := by
  have hcache : (s.recordPositionTracked pos reason now).pendingCache =
      (s.markMatched pos now).pendingCache := rfl
  have hwritten : (s.recordPositionTracked pos reason now).written =
      (s.markMatched pos now).written := rfl
  cases hmatch : s.matchPendingForPosition pos with
  | none =>
    have hsame : s.markMatched pos now = s := by rw [Store.markMatched, hmatch]
    refine .unmatched (matchPending_none hkept hmatch) ?_ ?_
    · rw [hwritten, hsame]
    · intro key
      rw [hcache, hsame]
  | some row =>
    have hfound := matchPending_some hkept hmatch
    have hmark : s.markMatched pos now = s.record (Store.filledRow (Store.infoFromRow row)
        ⟨some pos.ticket, some pos.entryPrice, some "matched_tracked_position"⟩ now) := by
      rw [Store.markMatched, hmatch]
      rfl
    have hticket := orderTicket_filledRow row
      ⟨some pos.ticket, some pos.entryPrice, some "matched_tracked_position"⟩ now
    rw [← hticket] at hfound
    have hpositive := hfound.positive hkept
    refine .marked _ hfound rfl rfl ?_ ?_
    · rw [hwritten, hmark, Store.record]
    · intro key
      rw [hcache, hmark]
      exact get?_record_filled s key rfl hpositive

/-- One call of `record_position_tracked` or `record_position_update`. -/
structure Update where
  pos : TrackedPosition
  reason : String
  now : ℤ

def track (s : Store) (update : Update) : Store :=
  s.recordPositionTracked update.pos update.reason update.now

def trackAll (s : Store) (updates : List Update) : Store := updates.foldl track s

/-- The rows that the updates mark as filled by the position. -/
def markedFor (s : Store) (updates : List Update) (ticket : ℤ) : List PendingRow :=
  ((trackAll s updates).written.drop s.written.length).filter fun row =>
    row.status = .filled && row.positionTicket = some ticket

/-- The updates are of one position with one signal. -/
def OfPosition (ticket : ℤ) (signalId : Option String) (updates : List Update) : Prop :=
  ∀ update ∈ updates, update.pos.ticket = ticket ∧ update.pos.signalId = signalId

/-- At most one order is marked for the position, and it is the one under its ticket if that
one is live. -/
def MarksOne (s : Store) (ticket : ℤ) (signalId : Option String) : Prop :=
  ∀ updates, OfPosition ticket signalId updates →
    (markedFor s updates ticket).length ≤ 1 ∧
      ((∃ row, s.pendingCache.get? ticket = some row ∧ row.status.isLive = true) →
        ∀ row ∈ markedFor s updates ticket, row.orderTicket = ticket)

/-- What the updates write, and what is left to match after them. -/
inductive Marks (ticket : ℤ) (signalId : Option String) : Store → List PendingRow → Store → Prop
  | nothing (s : Store) : Marks ticket signalId s [] s
  | unmatched {s next final : Store} {marked : List PendingRow}
      (hnone : ∀ key, ¬ Matching s ticket signalId key)
      (hcache : ∀ key, next.pendingCache.get? key = s.pendingCache.get? key)
      (hrest : Marks ticket signalId next marked final) : Marks ticket signalId s marked final
  | marked {s next final : Store} {row : PendingRow} {marked : List PendingRow}
      (hmatch : Matching s ticket signalId row.orderTicket) (hfilled : row.status = .filled)
      (hposition : row.positionTicket = some ticket)
      (hcache : ∀ key, next.pendingCache.get? key =
        if key = row.orderTicket then none else s.pendingCache.get? key)
      (hrest : Marks ticket signalId next marked final) :
      Marks ticket signalId s (row :: marked) final

theorem marks_trackAll {updates : List Update} (hkept : Kept s.pendingCache)
    (hof : OfPosition ticket signalId updates) :
    ∃ marked, (trackAll s updates).written = s.written ++ marked ∧
      Marks ticket signalId s marked (trackAll s updates) := by
  induction updates generalizing s with
  | nil => exact ⟨[], (List.append_nil _).symm, .nothing s⟩
  | cons update rest ih =>
    obtain ⟨⟨rfl, rfl⟩, hrest⟩ := List.forall_mem_cons.mp hof
    have hkept' : Kept (track s update).pendingCache :=
      kept_step hkept (.tracked update.pos update.reason update.now)
    obtain ⟨marked, hwritten, hmarks⟩ := ih hkept' hrest
    have hfold : trackAll s (update :: rest) = trackAll (track s update) rest := rfl
    rw [hfold, hwritten]
    cases recordPositionTracked_cases hkept update.pos update.reason update.now with
    | unmatched hnone hsame hcache =>
      exact ⟨marked, congrArg (· ++ marked) hsame, .unmatched hnone hcache hmarks⟩
    | marked filled hmatch hstatus hposition hadded hcache =>
      refine ⟨filled :: marked, ?_, .marked hmatch hstatus hposition hcache hmarks⟩
      rw [track, hadded, List.append_assoc, List.singleton_append]

variable {marked : List PendingRow} {final : Store}

theorem Marks.all_filled (h : Marks ticket signalId s marked final) :
    ∀ row ∈ marked, (row.status = .filled && row.positionTicket = some ticket) = true := by
  induction h with
  | nothing s => exact fun row hrow => absurd hrow List.not_mem_nil
  | unmatched _ _ _ ih => exact ih
  | marked _ hfilled hposition _ _ ih =>
    refine List.forall_mem_cons.mpr ⟨?_, ih⟩
    simp [hfilled, hposition]

/-- The marked rows are what was written. -/
theorem markedFor_eq {updates : List Update}
    (hwritten : (trackAll s updates).written = s.written ++ marked)
    (hmarks : Marks ticket signalId s marked (trackAll s updates)) :
    markedFor s updates ticket = marked := by
  rw [markedFor, hwritten, List.drop_left]
  exact List.filter_eq_self.mpr hmarks.all_filled

theorem matching_congr {s next : Store} (h : next.pendingCache.get? key = s.pendingCache.get? key) :
    Matching next ticket signalId key ↔ Matching s ticket signalId key := by
  unfold Matching
  rw [h]

/-- Once nothing matches, nothing is marked any more. -/
theorem Marks.eq_nil (h : Marks ticket signalId s marked final)
    (hnone : ∀ key, ¬ Matching s ticket signalId key) : marked = [] := by
  induction h with
  | nothing s => rfl
  | unmatched _ hcache _ ih =>
    exact ih fun key hkey => hnone key ((matching_congr (hcache key)).mp hkey)
  | marked hmatch _ _ _ _ _ => exact absurd hmatch (hnone _)

/-- If all that matches is one order, at most that one is marked. -/
theorem Marks.of_unique (h : Marks ticket signalId s marked final)
    (hunique : ∀ a b, Matching s ticket signalId a → Matching s ticket signalId b → a = b) :
    marked.length ≤ 1 ∧ ∀ row ∈ marked, Matching s ticket signalId row.orderTicket := by
  cases h with
  | nothing => exact ⟨Nat.zero_le 1, fun row hrow => absurd hrow List.not_mem_nil⟩
  | unmatched hnone hcache hrest =>
    have hempty := hrest.eq_nil fun key hkey => hnone key ((matching_congr (hcache key)).mp hkey)
    rw [hempty]
    exact ⟨by simp, fun row hrow => absurd hrow List.not_mem_nil⟩
  | @marked _ next _ row later hmatch _ _ hcache hrest =>
    have hempty : later = [] := by
      refine hrest.eq_nil fun key hkey => ?_
      obtain ⟨found, hget, hlive, hcase⟩ := hkey
      rw [hcache] at hget
      split at hget
      · cases hget
      · rename_i hne
        exact hne (hunique key row.orderTicket ⟨found, hget, hlive, hcase⟩ hmatch)
    rw [hempty]
    refine ⟨le_rfl, fun other hother => ?_⟩
    rw [List.mem_singleton.mp hother]
    exact hmatch

/-- A second update marks a second order, if there is one. -/
theorem two_marked {update : Update}
    (hkept : Kept s.pendingCache) (hof : OfPosition ticket signalId [update, update])
    (hmore : ∀ key, ∃ other, other ≠ key ∧ Matching s ticket signalId other) :
    2 ≤ (markedFor s [update, update] ticket).length := by
  obtain ⟨⟨rfl, rfl⟩, _⟩ := List.forall_mem_cons.mp hof
  have hkept' : Kept (track s update).pendingCache :=
    kept_step hkept (.tracked update.pos update.reason update.now)
  obtain ⟨marked, hwritten, hmarks⟩ := marks_trackAll hkept hof
  rw [markedFor_eq hwritten hmarks]
  have hlast :
      (trackAll s [update, update]).written = (track (track s update) update).written := rfl
  cases recordPositionTracked_cases hkept update.pos update.reason update.now with
  | unmatched hnone _ _ =>
    obtain ⟨other, _, hother⟩ := hmore 0
    exact absurd hother (hnone other)
  | marked first _ _ _ hfirst hcache =>
    cases recordPositionTracked_cases hkept' update.pos update.reason update.now with
    | unmatched hnone _ _ =>
      obtain ⟨other, hne, hother⟩ := hmore first.orderTicket
      refine absurd ((matching_congr ?_).mpr hother) (hnone other)
      rw [track, hcache, if_neg hne]
    | marked second _ _ _ hsecond _ =>
      have hlength := congrArg List.length hwritten
      rw [hlast, track, hsecond, track, hfirst] at hlength
      simp only [List.length_append, List.length_singleton] at hlength
      omega

/-- However often a position is updated, at most one order is marked for it, the one under
its ticket if that one is live, exactly when at most one live order matches it. -/
theorem marks_one_iff (s : Store) (h : Reachable s) (ticket : ℤ) (signalId : Option String) :
    MarksOne s ticket signalId ↔
      ∀ a b, Matching s ticket signalId a → Matching s ticket signalId b → a = b := by
  constructor
  · intro hone a b ha hb
    by_contra hne
    have hof : OfPosition ticket signalId
        [⟨⟨ticket, signalId, 0, 0, 0⟩, "tracked", 0⟩,
          ⟨⟨ticket, signalId, 0, 0, 0⟩, "tracked", 0⟩] := by
      simp [OfPosition]
    have hmore : ∀ key, ∃ other, other ≠ key ∧ Matching s ticket signalId other := by
      intro key
      by_cases hkey : a = key
      · exact ⟨b, fun hb' => hne (hkey.trans hb'.symm), hb⟩
      · exact ⟨a, hkey, ha⟩
    have htwo := two_marked h.kept hof hmore
    have hle := (hone _ hof).1
    omega
  · intro hunique updates hof
    obtain ⟨marked, hwritten, hmarks⟩ := marks_trackAll h.kept hof
    rw [markedFor_eq hwritten hmarks]
    obtain ⟨hlength, hall⟩ := hmarks.of_unique hunique
    refine ⟨hlength, ?_⟩
    rintro ⟨own, hget, hlive⟩ row hrow
    exact hunique _ _ (hall row hrow) ⟨own, hget, hlive, Or.inl rfl⟩

/-- A limit and a stop order of one signal, placed and not yet filled. -/
def groupCalls : List Call :=
  [.placed ⟨some 11, some "sig-1"⟩ 100, .placed ⟨some 12, some "sig-1"⟩ 200]

def groupStore : Store := groupCalls.foldl step .empty

theorem groupStore_reachable : Reachable groupStore :=
  .step (.placed ⟨some 12, some "sig-1"⟩ 200) (.step (.placed ⟨some 11, some "sig-1"⟩ 100) .empty)

theorem matching_group (key : ℤ) (h : key = 11 ∨ key = 12) :
    Matching groupStore 11 (some "sig-1") key := by
  rcases h with rfl | rfl
  · exact ⟨Store.stateFromInfo ⟨some 11, some "sig-1"⟩ .placed "placed_by_executor" 100,
      by decide +kernel, by decide +kernel, Or.inl rfl⟩
  · exact ⟨Store.stateFromInfo ⟨some 12, some "sig-1"⟩ .placed "placed_by_executor" 200,
      by decide +kernel, by decide +kernel, Or.inr (by decide +kernel)⟩

theorem marks_one_group : ¬ MarksOne groupStore 11 (some "sig-1") := by
  intro hone
  have hsame := (marks_one_iff groupStore groupStore_reachable 11 (some "sig-1")).mp hone 11 12
    (matching_group 11 (Or.inl rfl)) (matching_group 12 (Or.inr rfl))
  omega

def groupUpdate : Update := ⟨⟨11, some "sig-1", 2000, 1990, 2020⟩, "tracked", 300⟩

/-- The second update of the position of order 11 marks the other order of its group. -/
theorem group_position_marks_both :
    ¬ ∀ s, Reachable s → ∀ ticket signalId, MarksOne s ticket signalId := by
  intro hclaim
  have hof : OfPosition 11 (some "sig-1") [groupUpdate, groupUpdate] := by
    simp [OfPosition, groupUpdate]
  have hmore : ∀ key, ∃ other, other ≠ key ∧ Matching groupStore 11 (some "sig-1") other := by
    intro key
    by_cases hkey : 11 = key
    · exact ⟨12, by omega, matching_group 12 (Or.inr rfl)⟩
    · exact ⟨11, hkey, matching_group 11 (Or.inl rfl)⟩
  have htwo := two_marked groupStore_reachable.kept hof hmore
  have hone := (hclaim groupStore groupStore_reachable 11 (some "sig-1") _ hof).1
  omega

end MT5Services.TradingState
