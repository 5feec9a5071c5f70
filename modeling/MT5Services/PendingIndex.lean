import MT5Services.TradingState

/-!
The two dictionaries behind the pending orders of `TradingStateStore`, as the store writes
them: `_pending_cache` by ticket and `_pending_by_signal` with the tickets of each signal.
Nothing but `_cache_pending_row` keeps them together. Every call goes through it, so they are at
each moment the rows and the index of one indexed dictionary, and the index is exact.
-/
namespace MT5Services.PendingIndex

open PyText TradingState

structure Caches where
  positionCache : Dict ℤ PositionRow
  pendingCache : Dict ℤ PendingRow
  pendingBySignal : Dict String (Finset ℤ)

namespace Caches

def empty : Caches := ⟨Dict.empty, Dict.empty, Dict.empty⟩

/-- The ticket leaves the set of the signal of the row that stands under it. -/
def forgetPrevious (c : Caches) (ticket : ℤ) : Dict String (Finset ℤ) :=
  match c.pendingCache.get? ticket with
  | none => c.pendingBySignal
  | some previous =>
    match signalOf previous with
    | none => c.pendingBySignal
    | some previousSignal =>
      match c.pendingBySignal.get? previousSignal with
      | none => c.pendingBySignal
      | some signalTickets =>
        -- `discard`, and the set is dropped once it is empty
        if signalTickets.erase ticket = ∅ then c.pendingBySignal.pop previousSignal
        else c.pendingBySignal.set previousSignal (signalTickets.erase ticket)

/-- `setdefault(signal_id, set()).add(ticket)`, for a row with a signal. -/
def addTicket (bySignal : Dict String (Finset ℤ)) (row : PendingRow) : Dict String (Finset ℤ) :=
  match signalOf row with
  | none => bySignal
  | some signalId =>
    bySignal.set signalId (insert row.orderTicket ((bySignal.get? signalId).getD ∅))

/-- `_cache_pending_row`. -/
def cachePendingRow (c : Caches) (row : PendingRow) : Caches :=
  if row.orderTicket ≤ 0 then c
  else if row.status.isCached then
    { c with
      pendingCache := c.pendingCache.set row.orderTicket row
      pendingBySignal := addTicket (c.forgetPrevious row.orderTicket) row }
  else
    { c with
      pendingCache := c.pendingCache.pop row.orderTicket
      pendingBySignal := c.forgetPrevious row.orderTicket }

/-- `warm_start`: both dictionaries of the pending orders start again. -/
def warmStart (positions : List PositionRow) (pendings : List PendingRow) : Caches :=
  (pendings.filter fun row => row.status.isLive).foldl cachePendingRow
    { empty with
      positionCache :=
        (positions.filter fun row => row.isOpen && 0 < row.positionTicket).foldl
          (fun cache row => cache.set row.positionTicket row) Dict.empty }

/-- The rows behind the tickets that the index has for a signal. -/
def rowsOf (c : Caches) (signalId : String) : List PendingRow :=
  ((c.pendingBySignal.get? signalId).getD ∅).sort.filterMap c.pendingCache.get?

/-- The rows that may belong to the position, by signal, by ticket, and by a scan. -/
def candidates (c : Caches) (pos : TrackedPosition) : List PendingRow :=
  let signal := stripOrNone pos.signalId
  let bySignal := (signal.map c.rowsOf).getD []
  let byTicket := if bySignal = [] then (c.pendingCache.get? pos.ticket).toList else bySignal
  if byTicket = [] ∧ signal ≠ none then
    c.pendingCache.values.filter fun row => signalOf row = signal
  else byTicket

/-- `_match_pending_for_position`. -/
def matchPendingForPosition (c : Caches) (pos : TrackedPosition) : Option PendingRow :=
  (((c.candidates pos).filter fun row => row.status.isLive).mergeSort Store.earlier).getLast?

/-- `mark_pending_order_orphan`, on the ticket of a broker order. -/
def markPendingOrderOrphan (c : Caches) (ticket : Option ℤ) (now : ℤ) : Caches :=
  match ticket with
  | some ticket =>
    if ticket ≤ 0 then c
    else
      c.cachePendingRow
        ⟨ticket, none, .orphan, "recovered_from_mt5_without_local_state", none, none, some now⟩
  | none => c

/-- The row of the position after it was tracked. -/
def positionRow (c : Caches) (pos : TrackedPosition) (orderTicket : Option ℤ) (reason : String)
    (now : ℤ) : PositionRow where
  positionTicket := pos.ticket
  signalId := stripOrNone pos.signalId
  orderTicket :=
    Store.orId ((c.positionCache.get? pos.ticket).bind PositionRow.orderTicket) orderTicket
  entryPrice := pos.entryPrice
  initialStopLoss :=
    Store.orPrice ((c.positionCache.get? pos.ticket).map PositionRow.initialStopLoss) pos.stopLoss
  initialTakeProfit :=
    Store.orPrice ((c.positionCache.get? pos.ticket).map PositionRow.initialTakeProfit)
      pos.takeProfit
  currentStopLoss := pos.stopLoss
  currentTakeProfit := pos.takeProfit
  isOpen := true
  reason := reason
  updatedAt := now

/-- `record_position_tracked`: the order that matches is marked as filled first. -/
def recordPositionTracked (c : Caches) (pos : TrackedPosition) (reason : String) (now : ℤ) :
    Caches :=
  let matched := c.matchPendingForPosition pos
  let marked := match matched with
    | some row =>
      c.cachePendingRow (Store.filledRow (Store.infoFromRow row)
        ⟨some pos.ticket, some pos.entryPrice, some "matched_tracked_position"⟩ now)
    | none => c
  { marked with
    positionCache :=
      c.positionCache.set pos.ticket
        (c.positionRow pos (matched.map PendingRow.orderTicket) reason now) }

end Caches

/-- What a call leaves in the caches. -/
def step (c : Caches) : Call → Caches
  | .warmStart positions pendings => .warmStart positions pendings
  | .placed info now => c.cachePendingRow (Store.stateFromInfo info .placed "placed_by_executor" now)
  | .filled info state now => c.cachePendingRow (Store.filledRow info state now)
  | .expired info reason now => c.cachePendingRow (Store.stateFromInfo info .expired reason now)
  | .cancelled info reason now =>
    c.cachePendingRow (Store.stateFromInfo info .cancelled reason now)
  | .missing info reason now => c.cachePendingRow (Store.stateFromInfo info .missing reason now)
  | .orphan ticket now => c.markPendingOrderOrphan ticket now
  | .tracked pos reason now => c.recordPositionTracked pos reason now
  | .closed pos => { c with positionCache := c.positionCache.pop pos.ticket }
  | .positionMissing ticket =>
    match ticket with
    | some ticket =>
      if ticket ≤ 0 then c else { c with positionCache := c.positionCache.pop ticket }
    | none => c

def run (c : Caches) (calls : List Call) : Caches := calls.foldl step c

/-- The index says of every ticket under which signal its row stands, and nothing else. -/
structure Exact (c : Caches) : Prop where
  indexed : ∀ signalId ticket,
    (∃ tickets, c.pendingBySignal.get? signalId = some tickets ∧ ticket ∈ tickets) ↔
      ∃ row, c.pendingCache.get? ticket = some row ∧ signalOf row = some signalId
  nonempty : ∀ {signalId tickets}, c.pendingBySignal.get? signalId = some tickets → tickets ≠ ∅
  rows : ∀ {ticket row}, c.pendingCache.get? ticket = some row →
    0 < ticket ∧ row.orderTicket = ticket ∧
      (row.status = .placed ∨ row.status = .missing ∨ row.status = .orphan)

/-- The caches that hold what a store with an indexed dictionary holds. -/
def cachesOf (s : Store) : Caches := ⟨s.positionCache, s.pendingCache.rows, s.pendingCache.index⟩

theorem forgetPrevious_cachesOf (s : Store) (ticket : ℤ) :
    (cachesOf s).forgetPrevious ticket = s.pendingCache.forget ticket := by
  show Caches.forgetPrevious ⟨_, s.pendingCache.rows, s.pendingCache.index⟩ ticket = _
  unfold Caches.forgetPrevious IndexedDict.forget
  dsimp only
  cases hprevious : s.pendingCache.rows.get? ticket with
  | none => rfl
  | some previous =>
    dsimp only [Option.bind_some]
    cases signalOf previous with
    | none => rfl
    | some previousSignal =>
      dsimp only [IndexedDict.discard]
      cases s.pendingCache.index.get? previousSignal with
      | none => rfl
      | some signalTickets => rfl

theorem addTicket_forget (s : Store) (row : PendingRow) :
    Caches.addTicket (s.pendingCache.forget row.orderTicket) row =
      s.pendingCache.indexAfter row.orderTicket row := by
  unfold Caches.addTicket IndexedDict.indexAfter
  cases signalOf row with
  | none => rfl
  | some signalId => rfl

/-- `_cache_pending_row` writes or removes a row of the indexed dictionary. -/
theorem cachePendingRow_cachesOf (s : Store) (row : PendingRow) :
    (cachesOf s).cachePendingRow row =
      cachesOf { s with pendingCache := Store.cachePendingRow s.pendingCache row } := by
  unfold Caches.cachePendingRow Store.cachePendingRow
  rw [forgetPrevious_cachesOf]
  by_cases hticket : row.orderTicket ≤ 0
  · rw [if_pos hticket, if_pos hticket]
  · rw [if_neg hticket, if_neg hticket]
    by_cases hcached : row.status.isCached = true
    · rw [if_pos hcached, if_pos hcached, addTicket_forget]
      rfl
    · rw [if_neg hcached, if_neg hcached]
      rfl

theorem foldl_cachesOf (rows : List PendingRow) (s : Store) :
    rows.foldl Caches.cachePendingRow (cachesOf s) =
      cachesOf { s with pendingCache := rows.foldl Store.cachePendingRow s.pendingCache } := by
  induction rows generalizing s with
  | nil => rfl
  | cons row rest ih =>
    rw [List.foldl_cons, List.foldl_cons, cachePendingRow_cachesOf, ih]

theorem matchPending_cachesOf (s : Store) (pos : TrackedPosition) :
    (cachesOf s).matchPendingForPosition pos = s.matchPendingForPosition pos := rfl

theorem tracked_cachesOf (s : Store) (pos : TrackedPosition) (reason : String) (now : ℤ) :
    (cachesOf s).recordPositionTracked pos reason now =
      cachesOf (s.recordPositionTracked pos reason now) := by
  unfold Caches.recordPositionTracked Store.recordPositionTracked Store.markMatched
  rw [matchPending_cachesOf]
  cases s.matchPendingForPosition pos with
  | none => rfl
  | some row =>
    dsimp only
    rw [cachePendingRow_cachesOf]
    rfl

theorem orphan_cachesOf (s : Store) (ticket : Option ℤ) (now : ℤ) :
    (cachesOf s).markPendingOrderOrphan ticket now =
      cachesOf (s.markPendingOrderOrphan ticket now) := by
  unfold Caches.markPendingOrderOrphan Store.markPendingOrderOrphan
  cases ticket with
  | none => rfl
  | some ticket =>
    dsimp only
    split
    · rfl
    · rw [cachePendingRow_cachesOf]
      rfl

/-- A call does to the two dictionaries what it does to the indexed one. -/
theorem step_cachesOf (s : Store) (call : Call) :
    step (cachesOf s) call = cachesOf (TradingState.step s call) := by
  cases call with
  | warmStart positions pendings =>
    let start : Store :=
      { Store.empty with
        positionCache :=
          (positions.filter fun row => row.isOpen && 0 < row.positionTicket).foldl
            (fun cache row => cache.set row.positionTicket row) Dict.empty }
    exact foldl_cachesOf (pendings.filter fun row => row.status.isLive) start
  | placed info now => exact cachePendingRow_cachesOf s _
  | filled info state now => exact cachePendingRow_cachesOf s _
  | expired info reason now => exact cachePendingRow_cachesOf s _
  | cancelled info reason now => exact cachePendingRow_cachesOf s _
  | missing info reason now => exact cachePendingRow_cachesOf s _
  | orphan ticket now => exact orphan_cachesOf s ticket now
  | tracked pos reason now => exact tracked_cachesOf s pos reason now
  | closed pos => rfl
  | positionMissing ticket =>
    unfold step TradingState.step Store.markPositionMissing
    cases ticket with
    | none => rfl
    | some ticket =>
      dsimp only
      split
      · rfl
      · rfl

theorem run_cachesOf (s : Store) (calls : List Call) :
    run (cachesOf s) calls = cachesOf (calls.foldl TradingState.step s) := by
  unfold run
  induction calls generalizing s with
  | nil => rfl
  | cons call rest ih => rw [List.foldl_cons, List.foldl_cons, step_cachesOf, ih]

theorem reachable_foldl {s : Store} (h : Reachable s) (calls : List Call) :
    Reachable (calls.foldl TradingState.step s) := by
  induction calls generalizing s with
  | nil => exact h
  | cons call rest ih => exact ih (.step call h)

/-- Some rows were cached one after the other, over what was there or from nothing. -/
def Cached (before after : PendingCache) : Prop :=
  ∃ (start : PendingCache) (rows : List PendingRow),
    (start = before ∨ start = IndexedDict.empty) ∧
      after = rows.foldl Store.cachePendingRow start

theorem cached_self (cache : PendingCache) : Cached cache cache := ⟨cache, [], Or.inl rfl, rfl⟩

theorem cached_record (s : Store) (row : PendingRow) :
    Cached s.pendingCache (s.record row).pendingCache :=
  ⟨s.pendingCache, [row], Or.inl rfl, rfl⟩

/-- A call changes the pending orders through `_cache_pending_row` only. -/
theorem cached_step (s : Store) (call : Call) :
    Cached s.pendingCache (TradingState.step s call).pendingCache := by
  cases call with
  | warmStart positions pendings =>
    exact ⟨IndexedDict.empty, pendings.filter fun row => row.status.isLive, Or.inr rfl, rfl⟩
  | placed info now => exact cached_record s _
  | filled info state now => exact cached_record s _
  | expired info reason now => exact cached_record s _
  | cancelled info reason now => exact cached_record s _
  | missing info reason now => exact cached_record s _
  | orphan ticket now =>
    show Cached s.pendingCache (s.markPendingOrderOrphan ticket now).pendingCache
    unfold Store.markPendingOrderOrphan
    cases ticket with
    | none => exact cached_self _
    | some ticket =>
      dsimp only
      split
      · exact cached_self _
      · exact cached_record s _
  | tracked pos reason now =>
    show Cached s.pendingCache (s.markMatched pos now).pendingCache
    rcases markMatched_cases s pos now with hsame | ⟨row, _, hmark⟩
    · rw [hsame]
      exact cached_self _
    · rw [hmark]
      exact cached_record s _
  | closed pos => exact cached_self _
  | positionMissing ticket =>
    show Cached s.pendingCache (s.markPositionMissing ticket).pendingCache
    unfold Store.markPositionMissing
    cases ticket with
    | none => exact cached_self _
    | some ticket =>
      dsimp only
      split
      · exact cached_self _
      · exact cached_self _

/-- What `_cache_pending_row` keeps holds after any calls. -/
theorem of_cachePendingRow {P : PendingCache → Prop} (hempty : P IndexedDict.empty)
    (hrow : ∀ cache row, P cache → P (Store.cachePendingRow cache row)) {s : Store}
    (h : Reachable s) : P s.pendingCache := by
  have hrows : ∀ (rows : List PendingRow) (cache : PendingCache), P cache →
      P (rows.foldl Store.cachePendingRow cache) := by
    intro rows
    induction rows with
    | nil => exact fun cache hcache => hcache
    | cons row rest ih => exact fun cache hcache => ih _ (hrow cache row hcache)
  induction h with
  | empty => exact hempty
  | @step s call _ ih =>
    obtain ⟨start, rows, hstart, hstep⟩ := cached_step s call
    rw [hstep]
    rcases hstart with rfl | rfl
    · exact hrows rows _ ih
    · exact hrows rows _ hempty

theorem tight_cachePendingRow (cache : PendingCache) (row : PendingRow) (h : cache.Tight) :
    (Store.cachePendingRow cache row).Tight := by
  unfold Store.cachePendingRow
  split
  · exact h
  · split
    · exact h.insert row.orderTicket row
    · exact h.remove row.orderTicket

/-- The status of what is cached. -/
def AllCached (cache : PendingCache) : Prop :=
  ∀ key row, cache.get? key = some row → row.status.isCached = true

theorem allCached_cachePendingRow (cache : PendingCache) (row : PendingRow)
    (h : AllCached cache) : AllCached (Store.cachePendingRow cache row) := by
  intro key found hfound
  by_cases hticket : row.orderTicket ≤ 0
  · rw [Store.cachePendingRow, if_pos hticket] at hfound
    exact h key found hfound
  · rw [get?_cachePendingRow cache key (not_le.mp hticket)] at hfound
    split at hfound
    · split at hfound
      · rename_i hcached
        rw [← Option.some.inj hfound]
        exact hcached
      · cases hfound
    · exact h key found hfound

theorem exact_cachesOf {s : Store} (h : Reachable s) : Exact (cachesOf s) where
  indexed := by
    intro signalId ticket
    have hindexed := s.pendingCache.indexed signalId ticket
    have htickets : ticket ∈ (s.pendingCache.index.get? signalId).getD ∅ ↔
        ∃ tickets, s.pendingCache.index.get? signalId = some tickets ∧ ticket ∈ tickets := by
      cases s.pendingCache.index.get? signalId with
      | none => simp
      | some tickets => simp
    exact htickets.symm.trans hindexed
  nonempty := by
    intro signalId tickets htickets
    have htight : s.pendingCache.Tight :=
      of_cachePendingRow IndexedDict.tight_empty tight_cachePendingRow h
    exact htight signalId tickets htickets
  rows := by
    intro ticket row hrow
    have hcached : AllCached s.pendingCache := by
      refine of_cachePendingRow ?_ allCached_cachePendingRow h
      intro key row hkey
      cases hkey
    refine ⟨h.kept.positive hrow, h.kept.ticket hrow, ?_⟩
    have hstatus := hcached ticket row hrow
    unfold PendingStatus.isCached at hstatus
    simpa [or_assoc] using hstatus

/-- Whatever calls are made, the index of the pending orders is exact. -/
theorem pending_index_exact (calls : List Call) : Exact (run .empty calls) := by
  have hrun : run .empty calls = cachesOf (calls.foldl TradingState.step .empty) :=
    run_cachesOf .empty calls
  rw [hrun]
  exact exact_cachesOf (reachable_foldl .empty calls)

/-- An order that is reported under another signal leaves the set of its first one. -/
example : (run .empty [.placed ⟨some 7, some "sig-1"⟩ 1, .missing ⟨some 7, some " sig-2 "⟩ "gone" 2,
    .placed ⟨some 8, some "sig-2"⟩ 3]).pendingBySignal.items = [("sig-2", {7, 8})] := by
  decide +kernel

end MT5Services.PendingIndex
