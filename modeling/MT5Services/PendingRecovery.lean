import MT5Services.BrokerOrders

/-!
The startup recovery of broker orders. A desk is the map of tracked orders, the
stored table `pending_order_states` and the log of the tickets sent to
`cancel_orders_by_tickets`; `restore_pending_orders` walks over the placed rows,
then over the live orders without one. The frame relation says what a step can do
to rows and map, and `Settled` what the walk owes to each row it reaches.
-/
namespace MT5Services.PendingRecovery

open PyText Runs BrokerOrders

inductive Status
  | placed
  | filled
  | expired
  | cancelled
  | missing
  | orphan
  deriving DecidableEq, Repr

structure Row where
  info : Order
  status : Status
  deriving DecidableEq, Repr

/-- The rows of one account under their ticket, the latest written last. -/
structure OrderTable where
  rows : Dict ℤ Row
  keyed : ∀ ticket row, rows.get? ticket = some row → row.info.ticket = ticket

namespace OrderTable

def row? (table : OrderTable) (ticket : ℤ) : Option Row := table.rows.get? ticket

/-- The upsert; `updated_at` makes the row the latest. -/
def write (table : OrderTable) (row : Row) : OrderTable where
  rows := (table.rows.pop row.info.ticket).set row.info.ticket row
  keyed := by
    intro ticket old h
    rw [Dict.get?_set, Dict.get?_pop] at h
    split at h
    · rename_i hticket
      cases Option.some.inj h
      exact hticket.symm
    · exact table.keyed ticket old h

@[simp]
theorem row?_write (table : OrderTable) (row : Row) (ticket : ℤ) :
    (table.write row).row? ticket =
      if ticket = row.info.ticket then some row else table.row? ticket := by
  simp only [row?, write, Dict.get?_set, Dict.get?_pop]
  split
  · rfl
  · rfl

def writeAll (table : OrderTable) (rows : List Row) : OrderTable := rows.foldl write table

/-- After several writes a row is an old one that none of them touched, or one of
those written. -/
theorem row?_writeAll (table : OrderTable) (rows : List Row) (ticket : ℤ) :
    ((table.writeAll rows).row? ticket = table.row? ticket ∧
        ∀ row ∈ rows, row.info.ticket ≠ ticket) ∨
      ∃ row ∈ rows, row.info.ticket = ticket ∧
        (table.writeAll rows).row? ticket = some row := by
  induction rows generalizing table with
  | nil => exact Or.inl ⟨rfl, by simp⟩
  | cons first rest ih =>
    rcases ih (table.write first) with ⟨hsame, hrest⟩ | ⟨row, hrow, hticket, hlast⟩
    · by_cases hfirst : first.info.ticket = ticket
      · refine Or.inr ⟨first, List.mem_cons_self, hfirst, ?_⟩
        have hwritten : (table.write first).row? ticket = some first := by
          rw [row?_write, if_pos hfirst.symm]
        exact hsame.trans hwritten
      · refine Or.inl ⟨?_, ?_⟩
        · have hkept : (table.write first).row? ticket = table.row? ticket := by
            rw [row?_write, if_neg (Ne.symm hfirst)]
          exact hsame.trans hkept
        · intro row hrow
          rcases List.mem_cons.mp hrow with rfl | hlater
          · exact hfirst
          · exact hrest row hlater
    · exact Or.inr ⟨row, List.mem_cons_of_mem first hrow, hticket, hlast⟩

end OrderTable

/-- The group of an order; an empty id is no group. -/
def groupOf (info : Order) : Option String := info.groupId.filter (· ≠ "")

structure Desk where
  orders : Orders
  table : OrderTable
  asked : List ℤ

namespace Desk

def mark (desk : Desk) (status : Status) (info : Order) : Desk :=
  { desk with table := desk.table.write ⟨info, status⟩ }

def cancelOrder (desk : Desk) (ticket : ℤ) : Desk :=
  { desk with asked := desk.asked ++ [ticket] }

def restoreOrder (desk : Desk) (info : Order) : Desk :=
  { desk with orders := restoreMt5Order desk.orders info }

def Holds (desk : Desk) (status : Status) (info : Order) : Prop :=
  desk.table.row? info.ticket = some ⟨info, status⟩

def status? (desk : Desk) (ticket : ℤ) : Option Status :=
  (desk.table.row? ticket).map Row.status

def Tracked (desk : Desk) (ticket : ℤ) : Prop :=
  ∃ key info, desk.orders.get? key = some info ∧ info.ticket = ticket

end Desk

inductive MissingAction
  | markMissing
  | ignore
  deriving DecidableEq, Repr

inductive OrphanAction
  | recordOnly
  | cancel
  deriving DecidableEq, Repr

/-- What a restore meets: the clock, the configured actions and the answers of the
broker, `none` for a `get_orders` that raises. -/
structure Restart where
  now : ℤ
  missingAction : MissingAction
  orphanAction : OrphanAction
  live : Option (List Order)
  cancel : ℤ → CancelAnswer
  inspect : ℤ → Inspection

def fetchLimit : ℕ := 5000

def placedRows (table : OrderTable) : List Row :=
  table.rows.values.reverse.filter fun row => row.status = .placed

def listActivePendingOrders (table : OrderTable) : List Row :=
  (placedRows table).take fetchLimit

def rowsOfGroups (table : OrderTable) (groups : List String) : List Row :=
  table.rows.values.reverse.filter fun row => (groupOf row.info).any groups.contains

def listPendingOrdersByGroups (table : OrderTable) (groups : List String) : List Row :=
  (rowsOfGroups table groups).take fetchLimit

def groupIdsWithPlaced (table : OrderTable) : List String :=
  (listActivePendingOrders table).filterMap fun row => groupOf row.info

def groupsWithFilledSibling (table : OrderTable) : List String :=
  ((listPendingOrdersByGroups table (groupIdsWithPlaced table)).filter
    fun row => row.status = .filled).filterMap fun row => groupOf row.info

def liveByTicket (orders : List Order) : Dict ℤ Order :=
  (orders.filter fun order => 0 < order.ticket).foldl
    (fun live order => live.set order.ticket order) Dict.empty

def normalizeTicketSet (items : List TicketItem) : List ℤ :=
  items.filterMap fun item =>
    match item with
    | .number value => some value
    | .record ticket _ _ => ticket
    | .other => none

/-- `_ticket_was_cancelled`; an exception counts as not cancelled. -/
def ticketWasCancelled (answer : CancelAnswer) (ticket : ℤ) : Bool :=
  match answer with
  | .raises => false
  | .falsy => false
  | .lists canceled cancelled failed =>
    if (normalizeTicketSet (if canceled.isEmpty then cancelled else canceled)).contains ticket
    then true
    else if (normalizeTicketSet failed).isEmpty then true
    else !(normalizeTicketSet failed).contains ticket

def inFilledGroup (groups : List String) (row : Row) : Bool :=
  (groupOf row.info).any groups.contains

/-- One placed row at startup; `none` when its inspection raises. -/
def restoreRow (env : Restart) (groups : List String) (live : Dict ℤ Order) (row : Row)
    (desk : Desk) : Option Desk :=
  let ticket := row.info.ticket
  if inFilledGroup groups row then
    some ((if 0 < ticket then desk.cancelOrder ticket else desk).mark .cancelled row.info)
  else if live.contains ticket then
    if row.info.expiresAt ≤ env.now then
      if ticketWasCancelled (env.cancel ticket) ticket then
        some ((desk.cancelOrder ticket).mark .expired row.info)
      else some ((desk.cancelOrder ticket).restoreOrder row.info)
    else some (desk.restoreOrder row.info)
  else
    match env.inspect ticket with
    | .raises => none
    | .filled => some (desk.mark .filled row.info)
    | .pending | .missing =>
      match env.missingAction with
      | .markMissing => some (desk.mark .missing row.info)
      | .ignore => some desk

/-- The loop over the placed rows, and whether it got to its end. -/
def restoreRows (env : Restart) (groups : List String) (live : Dict ℤ Order) :
    List Row → Desk → Desk × Bool
  | [], desk => (desk, true)
  | row :: rest, desk =>
    match restoreRow env groups live row desk with
    | none => (desk, false)
    | some next => restoreRows env groups live rest next

/-- An orphan row keeps nothing but ticket, symbol and direction. -/
def orphanInfo (order : Order) : Order :=
  { order with signalId := "", expiresAt := 0, groupId := none }

def handleOrphanPendingOrder (env : Restart) (desk : Desk) (order : Order) : Desk :=
  let recorded := desk.mark .orphan (orphanInfo order)
  match env.orphanAction with
  | .recordOnly => recorded
  | .cancel =>
    if ticketWasCancelled (env.cancel order.ticket) order.ticket then
      (recorded.cancelOrder order.ticket).mark .cancelled (orphanInfo order)
    else recorded.cancelOrder order.ticket

def orphans (live : Dict ℤ Order) (states : List Row) : List Order :=
  live.values.filter fun order => !states.any fun row => row.info.ticket = order.ticket

def restorePendingOrders (env : Restart) (desk : Desk) : Desk :=
  match env.live with
  | none => desk
  | some orders =>
    let states := listActivePendingOrders desk.table
    let result := restoreRows env (groupsWithFilledSibling desk.table) (liveByTicket orders)
      states desk
    if result.2 then
      (orphans (liveByTicket orders) states).foldl (handleOrphanPendingOrder env) result.1
    else result.1

/-- Between the two desks a cancellation of the ticket was requested. -/
def AskedBetween (s t : Desk) (ticket : ℤ) : Prop :=
  ∃ new, t.asked = s.asked ++ new ∧ ticket ∈ new

def WithinLimits (table : OrderTable) : Prop :=
  (placedRows table).length ≤ fetchLimit ∧
    (rowsOfGroups table (groupIdsWithPlaced table)).length ≤ fetchLimit

/-- Inspection takes the order out of the placed rows as well. -/
def Gone (env : Restart) (live : Dict ℤ Order) (info : Order) : Prop :=
  live.contains info.ticket = false ∧
    (env.inspect info.ticket = .filled ∨ env.missingAction = .markMissing)

/-- The loop reaches every placed row. -/
def Complete (desk : Desk) (env : Restart) (live : Dict ℤ Order) : Prop :=
  WithinLimits desk.table ∧
    ∀ info, desk.Holds .placed info → live.contains info.ticket = false →
      env.inspect info.ticket ≠ .raises

/-- What a step does to rows and map: nothing becomes placed, and only some orders
become filled; `tracks` says whether orders may enter the map. -/
structure Frame (fills : Order → Prop) (tracks : Prop) (s t : Desk) : Prop where
  asked : ∃ new, t.asked = s.asked ++ new
  placed : ∀ info, t.Holds .placed info → s.Holds .placed info
  filled : ∀ info, t.Holds .filled info → s.Holds .filled info ∨ fills info
  tracked : ∀ ticket, t.Tracked ticket → s.Tracked ticket ∨ tracks

namespace Frame

variable {fills : Order → Prop} {tracks : Prop} {s t u : Desk}

theorem refl (s : Desk) : Frame fills tracks s s where
  asked := ⟨[], (List.append_nil _).symm⟩
  placed := fun _ h => h
  filled := fun _ h => Or.inl h
  tracked := fun _ h => Or.inl h

theorem trans (hst : Frame fills tracks s t) (htu : Frame fills tracks t u) :
    Frame fills tracks s u where
  asked := by
    obtain ⟨first, hfirst⟩ := hst.asked
    obtain ⟨second, hsecond⟩ := htu.asked
    exact ⟨first ++ second, by rw [hsecond, hfirst, List.append_assoc]⟩
  placed := fun info h => hst.placed info (htu.placed info h)
  filled := fun info h => (htu.filled info h).elim (hst.filled info) Or.inr
  tracked := fun ticket h => (htu.tracked ticket h).elim (hst.tracked ticket) Or.inr

theorem mem_asked (h : Frame fills tracks s t) {ticket : ℤ} (hmem : ticket ∈ s.asked) :
    ticket ∈ t.asked := by
  obtain ⟨new, hnew⟩ := h.asked
  rw [hnew]
  exact List.mem_append_left new hmem

theorem askedBetween_left (hst : Frame fills tracks s t) {ticket : ℤ}
    (htu : AskedBetween t u ticket) : AskedBetween s u ticket := by
  obtain ⟨first, hfirst⟩ := hst.asked
  obtain ⟨second, hsecond, hmem⟩ := htu
  refine ⟨first ++ second, ?_, List.mem_append_right first hmem⟩
  rw [hsecond, hfirst, List.append_assoc]

theorem askedBetween_right (htu : Frame fills tracks t u) {ticket : ℤ}
    (hst : AskedBetween s t ticket) : AskedBetween s u ticket := by
  obtain ⟨first, hfirst, hmem⟩ := hst
  obtain ⟨second, hsecond⟩ := htu.asked
  refine ⟨first ++ second, ?_, List.mem_append_left second hmem⟩
  rw [hsecond, hfirst, List.append_assoc]

end Frame

theorem frame_mark (desk : Desk) (status : Status) (info : Order) (fills : Order → Prop)
    (tracks : Prop) (hplaced : status ≠ .placed) (hfilled : status = .filled → fills info) :
    Frame fills tracks desk (desk.mark status info) where
  asked := ⟨[], (List.append_nil _).symm⟩
  placed := by
    intro other h
    unfold Desk.Holds Desk.mark at h
    rw [OrderTable.row?_write] at h
    split at h
    · exact absurd (congrArg Row.status (Option.some.inj h)) hplaced
    · exact h
  filled := by
    intro other h
    unfold Desk.Holds Desk.mark at h
    rw [OrderTable.row?_write] at h
    split at h
    · obtain ⟨rfl, hstatus⟩ := Row.mk.inj (Option.some.inj h)
      exact Or.inr (hfilled hstatus)
    · exact Or.inl h
  tracked := fun _ h => Or.inl h

theorem frame_mark_unfilled (desk : Desk) (status : Status) (info : Order)
    (fills : Order → Prop) (tracks : Prop) (hplaced : status ≠ .placed)
    (hfilled : status ≠ .filled) : Frame fills tracks desk (desk.mark status info) :=
  frame_mark desk status info fills tracks hplaced fun h => absurd h hfilled

theorem frame_cancelOrder (desk : Desk) (ticket : ℤ) (fills : Order → Prop)
    (tracks : Prop) : Frame fills tracks desk (desk.cancelOrder ticket) where
  asked := ⟨[ticket], rfl⟩
  placed := fun _ h => h
  filled := fun _ h => Or.inl h
  tracked := fun _ h => Or.inl h

theorem frame_restoreOrder (desk : Desk) (info : Order) (fills : Order → Prop)
    (tracks : Prop) (htracks : tracks) :
    Frame fills tracks desk (desk.restoreOrder info) := by
  have htracked : ∀ ticket, (desk.restoreOrder info).Tracked ticket →
      desk.Tracked ticket ∨ tracks := by
    intro ticket h
    obtain ⟨key, found, hget, hticket⟩ := h
    simp only [Desk.restoreOrder, restoreMt5Order] at hget
    split at hget
    · exact Or.inl ⟨key, found, hget, hticket⟩
    · rw [Dict.get?_set] at hget
      split at hget
      · cases Option.some.inj hget
        exact Or.inr htracks
      · exact Or.inl ⟨key, found, hget, hticket⟩
  unfold Desk.restoreOrder at htracked ⊢
  generalize restoreMt5Order desk.orders info = orders at htracked ⊢
  exact ⟨⟨[], (List.append_nil _).symm⟩, fun _ h => h, fun _ h => Or.inl h, htracked⟩

/-- Inspection of one of these rows found this order filled. -/
def FoundFilled (env : Restart) (groups : List String) (live : Dict ℤ Order)
    (states : List Row) (info : Order) : Prop :=
  ∃ row ∈ states, row.info = info ∧ inFilledGroup groups row = false ∧
    live.contains info.ticket = false ∧ env.inspect info.ticket = .filled

section RestoreLoop

variable (env : Restart) (groups : List String) (live : Dict ℤ Order) (states : List Row)

theorem restoreRow_frame (row : Row) (desk next : Desk) (hrow : row ∈ states)
    (h : restoreRow env groups live row desk = some next) :
    Frame (FoundFilled env groups live states) True desk next := by
  unfold restoreRow at h
  dsimp only at h
  split at h
  · cases Option.some.inj h
    refine Frame.trans ?_ (frame_mark_unfilled _ .cancelled row.info _ _ (by decide) (by decide))
    split
    · exact frame_cancelOrder desk _ _ _
    · exact Frame.refl desk
  · rename_i hgroup
    have hfree : inFilledGroup groups row = false := by simpa using hgroup
    split at h
    · split at h
      · split at h
        · cases Option.some.inj h
          exact (frame_cancelOrder desk _ _ _).trans
            (frame_mark_unfilled _ .expired row.info _ _ (by decide) (by decide))
        · cases Option.some.inj h
          exact (frame_cancelOrder desk _ _ _).trans
            (frame_restoreOrder _ row.info _ _ trivial)
      · cases Option.some.inj h
        exact frame_restoreOrder desk row.info _ _ trivial
    · rename_i hlive
      have hgone : live.contains row.info.ticket = false := by simpa using hlive
      have hmissing : ∀ next', (match env.missingAction with
          | .markMissing => some (desk.mark .missing row.info)
          | .ignore => some desk) = some next' →
          Frame (FoundFilled env groups live states) True desk next' := by
        intro next' h'
        split at h'
        · cases Option.some.inj h'
          exact frame_mark_unfilled desk .missing row.info _ _ (by decide) (by decide)
        · cases Option.some.inj h'
          exact Frame.refl desk
      split at h
      · cases h
      · rename_i hinspect
        cases Option.some.inj h
        exact frame_mark desk .filled row.info _ _ (by decide)
          fun _ => ⟨row, hrow, rfl, hfree, hgone, hinspect⟩
      · exact hmissing next h
      · exact hmissing next h

theorem status?_mark (desk : Desk) (status : Status) (info : Order) :
    (desk.mark status info).status? info.ticket = some status := by
  unfold Desk.status? Desk.mark
  rw [OrderTable.row?_write, if_pos rfl]
  rfl

theorem status?_mark_ne (desk : Desk) (status : Status) (info : Order) (ticket : ℤ)
    (h : ticket ≠ info.ticket) : (desk.mark status info).status? ticket = desk.status? ticket := by
  unfold Desk.status? Desk.mark
  rw [OrderTable.row?_write, if_neg h]

theorem status?_cancelOrder (desk : Desk) (asked ticket : ℤ) :
    (desk.cancelOrder asked).status? ticket = desk.status? ticket := by
  unfold Desk.status? Desk.cancelOrder
  rfl

theorem status?_restoreOrder (desk : Desk) (info : Order) (ticket : ℤ) :
    (desk.restoreOrder info).status? ticket = desk.status? ticket := by
  unfold Desk.status? Desk.restoreOrder
  rfl

/-- A row of a group with a fill is asked for; one that is gone ends filled or missing. -/
def Settled (s t : Desk) (row : Row) : Prop :=
  (inFilledGroup groups row = true → 0 < row.info.ticket → AskedBetween s t row.info.ticket) ∧
    (inFilledGroup groups row = false → Gone env live row.info →
      t.status? row.info.ticket = some .filled ∨ t.status? row.info.ticket = some .missing)

theorem restoreRow_settled (row : Row) (desk next : Desk)
    (h : restoreRow env groups live row desk = some next) :
    Settled env groups live desk next row := by
  constructor
  · intro hgroup hpos
    unfold restoreRow at h
    simp only [hgroup, if_true, if_pos hpos, Option.some.injEq] at h
    subst h
    exact ⟨[row.info.ticket], rfl, List.mem_singleton_self _⟩
  · intro hgroup hgone
    obtain ⟨hlive, hanswer⟩ := hgone
    unfold restoreRow at h
    simp only [hgroup, hlive, Bool.false_eq_true, if_false] at h
    rcases hanswer with hfilled | hmark
    · simp only [hfilled, Option.some.injEq] at h
      subst h
      exact Or.inl (status?_mark desk .filled row.info)
    · simp only [hmark] at h
      split at h
      · cases h
      · cases Option.some.inj h
        exact Or.inl (status?_mark desk .filled row.info)
      all_goals
        cases Option.some.inj h
        exact Or.inr (status?_mark desk .missing row.info)

theorem restoreRow_other (row : Row) (desk next : Desk) (ticket : ℤ)
    (hne : ticket ≠ row.info.ticket) (h : restoreRow env groups live row desk = some next) :
    next.status? ticket = desk.status? ticket := by
  have hmark := fun (d : Desk) status => status?_mark_ne d status row.info ticket hne
  unfold restoreRow at h
  dsimp only at h
  split at h
  · cases Option.some.inj h
    rw [hmark]
    split
    · exact status?_cancelOrder desk row.info.ticket ticket
    · rfl
  · split at h
    · split at h
      · split at h
        · cases Option.some.inj h
          rw [hmark, status?_cancelOrder]
        · cases Option.some.inj h
          rw [status?_restoreOrder, status?_cancelOrder]
      · cases Option.some.inj h
        exact status?_restoreOrder desk row.info ticket
    · split at h
      · cases h
      · cases Option.some.inj h
        exact hmark _ _
      all_goals
        split at h
        · cases Option.some.inj h
          exact hmark _ _
        · cases Option.some.inj h
          rfl

theorem restoreRows_other (rows : List Row) (desk : Desk) (ticket : ℤ)
    (h : ∀ row ∈ rows, ticket ≠ row.info.ticket) :
    (restoreRows env groups live rows desk).1.status? ticket = desk.status? ticket := by
  induction rows generalizing desk with
  | nil => rfl
  | cons row rest ih =>
    unfold restoreRows
    split
    · rfl
    · rename_i next hnext
      rw [ih next fun later hlater => h later (List.mem_cons_of_mem row hlater)]
      exact restoreRow_other env groups live row desk next ticket (h row List.mem_cons_self) hnext

theorem restoreRows_frame (rows : List Row) (desk : Desk) (hrows : ∀ row ∈ rows, row ∈ states) :
    Frame (FoundFilled env groups live states) True desk
      (restoreRows env groups live rows desk).1 := by
  induction rows generalizing desk with
  | nil => exact Frame.refl desk
  | cons row rest ih =>
    unfold restoreRows
    split
    · exact Frame.refl desk
    · rename_i next hnext
      have hfirst := restoreRow_frame env groups live states row desk next
        (hrows row List.mem_cons_self) hnext
      exact hfirst.trans (ih next fun later hlater => hrows later (List.mem_cons_of_mem row hlater))

theorem restoreRows_completes (rows : List Row) (desk : Desk)
    (h : ∀ row ∈ rows, live.contains row.info.ticket = false →
      env.inspect row.info.ticket ≠ .raises) :
    (restoreRows env groups live rows desk).2 = true := by
  induction rows generalizing desk with
  | nil => rfl
  | cons row rest ih =>
    have hrest := fun next => ih next fun later hlater => h later (List.mem_cons_of_mem row hlater)
    unfold restoreRows
    split
    · rename_i hnone
      exfalso
      have hquiet := h row List.mem_cons_self
      unfold restoreRow at hnone
      dsimp only at hnone
      split at hnone
      · cases hnone
      · split at hnone
        · split at hnone
          · split at hnone <;> cases hnone
          · cases hnone
        · rename_i hlive
          have hinspect := hquiet (by simpa using hlive)
          split at hnone
          · exact hinspect (by assumption)
          · cases hnone
          all_goals
            split at hnone <;> cases hnone
    · rename_i next hnext
      exact hrest next

theorem restoreRows_settled (rows : List Row) (desk : Desk)
    (hnodup : (rows.map fun row => row.info.ticket).Nodup)
    (hdone : (restoreRows env groups live rows desk).2 = true) :
    ∀ row ∈ rows, Settled env groups live desk (restoreRows env groups live rows desk).1 row := by
  induction rows generalizing desk with
  | nil => simp
  | cons first rest ih =>
    rw [List.map_cons, List.nodup_cons] at hnodup
    unfold restoreRows at hdone ⊢
    split at hdone
    · cases hdone
    · rename_i next hnext
      have hfirst := restoreRow_frame env groups live (first :: rest) first desk next
        List.mem_cons_self hnext
      have hlater := restoreRows_frame env groups live (first :: rest) rest next
        fun row hrow => List.mem_cons_of_mem first hrow
      intro row hrow
      rcases List.mem_cons.mp hrow with rfl | hrest
      · obtain ⟨hasked, hplaced⟩ := restoreRow_settled env groups live row desk next hnext
        have hsame := restoreRows_other env groups live rest next row.info.ticket
          fun later hlater heq => hnodup.1 (List.mem_map.mpr ⟨later, hlater, heq.symm⟩)
        refine ⟨?_, ?_⟩
        · intro hgroup hpos
          exact hlater.askedBetween_right (hasked hgroup hpos)
        · intro hgroup hgone
          rw [hsame]
          exact hplaced hgroup hgone
      · obtain ⟨hasked, hplaced⟩ := ih next hnodup.2 hdone row hrest
        refine ⟨?_, hplaced⟩
        intro hgroup hpos
        exact hfirst.askedBetween_left (hasked hgroup hpos)

theorem handleOrphan_frame (desk : Desk) (order : Order) (fills : Order → Prop)
    (tracks : Prop) :
    Frame fills tracks desk (handleOrphanPendingOrder env desk order) := by
  have hrecorded : Frame fills tracks desk (desk.mark .orphan (orphanInfo order)) :=
    frame_mark_unfilled desk .orphan _ _ _ (by decide) (by decide)
  unfold handleOrphanPendingOrder
  dsimp only
  split
  · exact hrecorded
  · split
    · exact (hrecorded.trans (frame_cancelOrder _ _ _ _)).trans
        (frame_mark_unfilled _ .cancelled _ _ _ (by decide) (by decide))
    · exact hrecorded.trans (frame_cancelOrder _ _ _ _)

theorem handleOrphans_frame (orders : List Order) (desk : Desk) (fills : Order → Prop)
    (tracks : Prop) :
    Frame fills tracks desk (orders.foldl (handleOrphanPendingOrder env) desk) := by
  induction orders generalizing desk with
  | nil => exact Frame.refl desk
  | cons order rest ih => exact (handleOrphan_frame env desk order _ _).trans (ih _)

theorem handleOrphans_other (orders : List Order) (desk : Desk) (ticket : ℤ)
    (h : ∀ order ∈ orders, ticket ≠ order.ticket) :
    (orders.foldl (handleOrphanPendingOrder env) desk).status? ticket = desk.status? ticket := by
  refine foldl_frame _ (fun d : Desk => d.status? ticket) orders ?_ desk
  intro d order horder
  have hmark := fun (d : Desk) status =>
    status?_mark_ne d status (orphanInfo order) ticket (h order horder)
  unfold handleOrphanPendingOrder
  dsimp only
  split
  · exact hmark _ _
  · split
    · rw [hmark]
      exact hmark _ _
    · exact hmark _ _

end RestoreLoop

theorem liveByTicket_keyed (orders : List Order) (ticket : ℤ) (order : Order)
    (h : (liveByTicket orders).get? ticket = some order) : order.ticket = ticket := by
  unfold liveByTicket at h
  have hfold : ∀ (list : List Order) (live : Dict ℤ Order),
      (∀ key found, live.get? key = some found → found.ticket = key) →
      ∀ key found, (list.foldl (fun live order => live.set order.ticket order) live).get? key =
        some found → found.ticket = key := by
    intro list
    induction list with
    | nil => exact fun live hlive => hlive
    | cons first rest ih =>
      intro live hlive
      apply ih
      intro key found hget
      rw [Dict.get?_set] at hget
      split at hget
      · rename_i hkey
        cases Option.some.inj hget
        exact hkey.symm
      · exact hlive key found hget
  exact hfold _ Dict.empty (by simp) ticket order h

theorem mem_orphans_live (orders : List Order) (states : List Row) (order : Order)
    (h : order ∈ orphans (liveByTicket orders) states) :
    (liveByTicket orders).contains order.ticket = true := by
  obtain ⟨⟨ticket, found⟩, hmem, rfl⟩ := List.mem_map.mp (List.mem_of_mem_filter h)
  have hget := (Dict.mem_items_iff_get? _ _ _).mp hmem
  have hkey : found.ticket = ticket := liveByTicket_keyed orders ticket found hget
  unfold Dict.contains
  dsimp only
  rw [hkey, hget]
  rfl

theorem mem_values_iff (table : OrderTable) (row : Row) :
    row ∈ table.rows.values ↔ table.row? row.info.ticket = some row := by
  constructor
  · intro h
    obtain ⟨⟨ticket, found⟩, hmem, rfl⟩ := List.mem_map.mp h
    have hget := (Dict.mem_items_iff_get? _ _ _).mp hmem
    have hkey : found.info.ticket = ticket := table.keyed ticket found hget
    unfold OrderTable.row?
    dsimp only
    rw [hkey]
    exact hget
  · intro h
    exact List.mem_map.mpr ⟨_, (Dict.mem_items_iff_get? _ _ _).mpr h, rfl⟩

theorem values_ticket_nodup (table : OrderTable) :
    (table.rows.values.map fun row => row.info.ticket).Nodup := by
  have hkeys : (table.rows.values.map fun row => row.info.ticket) =
      table.rows.items.map Prod.fst := by
    unfold Dict.values
    rw [List.map_map]
    apply List.map_congr_left
    intro p hp
    exact table.keyed p.1 p.2 ((Dict.mem_items_iff_get? _ _ _).mp hp)
  rw [hkeys]
  exact table.rows.nodup

theorem mem_placedRows_iff (desk : Desk) (info : Order) :
    (⟨info, .placed⟩ : Row) ∈ placedRows desk.table ↔ desk.Holds .placed info := by
  unfold placedRows
  rw [List.mem_filter, List.mem_reverse, mem_values_iff]
  exact and_iff_left (of_decide_eq_true rfl)

/-- Every row the restore works on is a placed one. -/
theorem holds_of_mem_active (desk : Desk) (row : Row)
    (h : row ∈ listActivePendingOrders desk.table) : desk.Holds .placed row.info := by
  have hmem := List.mem_of_mem_take h
  have hplaced : row = ⟨row.info, .placed⟩ := by
    have hstatus : row.status = .placed := of_decide_eq_true (List.mem_filter.mp hmem).2
    rw [← hstatus]
  rw [← mem_placedRows_iff, ← hplaced]
  exact hmem

theorem active_ticket_nodup (table : OrderTable) :
    ((listActivePendingOrders table).map fun row => row.info.ticket).Nodup := by
  have hreverse : (table.rows.values.reverse.map fun row => row.info.ticket).Nodup := by
    rw [List.map_reverse, List.nodup_reverse]
    exact values_ticket_nodup table
  refine hreverse.sublist (List.Sublist.map _ ?_)
  exact (List.take_sublist _ _).trans List.filter_sublist

theorem mem_active (desk : Desk) (info : Order) (hlimits : WithinLimits desk.table)
    (h : desk.Holds .placed info) :
    (⟨info, .placed⟩ : Row) ∈ listActivePendingOrders desk.table := by
  unfold listActivePendingOrders
  rw [List.take_of_length_le hlimits.1]
  exact (mem_placedRows_iff desk info).mpr h

theorem stored_of_inFilledGroup (desk : Desk) (row : Row)
    (h : inFilledGroup (groupsWithFilledSibling desk.table) row = true) :
    ∃ stored, desk.Holds .filled stored ∧ groupOf stored = groupOf row.info := by
  unfold inFilledGroup at h
  rw [Option.any_eq_true] at h
  obtain ⟨gid, hgid, hcontains⟩ := h
  have hmem : gid ∈ groupsWithFilledSibling desk.table := by simpa using hcontains
  obtain ⟨stored, hstored, hgroup⟩ := List.mem_filterMap.mp hmem
  obtain ⟨hrelated, hfilled⟩ := List.mem_filter.mp hstored
  have hstatus : stored.status = .filled := of_decide_eq_true hfilled
  have hvalue : stored ∈ desk.table.rows.values :=
    List.mem_reverse.mp (List.mem_of_mem_filter (List.mem_of_mem_take hrelated))
  refine ⟨stored.info, ?_, ?_⟩
  · unfold Desk.Holds
    rw [(mem_values_iff _ _).mp hvalue, ← hstatus]
  · rw [hgroup, hgid]

/-- The loop and the orphans after it. -/
theorem restore_frame (env : Restart) (desk : Desk) (orders : List Order)
    (hlive : env.live = some orders) :
    Frame
      (FoundFilled env (groupsWithFilledSibling desk.table) (liveByTicket orders)
        (listActivePendingOrders desk.table))
      True desk (restorePendingOrders env desk) := by
  have hloop := restoreRows_frame env (groupsWithFilledSibling desk.table)
    (liveByTicket orders) (listActivePendingOrders desk.table)
    (listActivePendingOrders desk.table) desk fun row hrow => hrow
  unfold restorePendingOrders
  simp only [hlive]
  split
  · exact hloop.trans (handleOrphans_frame env _ _ _ _)
  · exact hloop

theorem restore_settled (env : Restart) (desk : Desk) (orders : List Order)
    (hlive : env.live = some orders) (hcomplete : Complete desk env (liveByTicket orders))
    (info : Order) (hplaced : desk.Holds .placed info) :
    Settled env (groupsWithFilledSibling desk.table) (liveByTicket orders) desk
      (restorePendingOrders env desk) ⟨info, .placed⟩ := by
  obtain ⟨hlimits, hquiet⟩ := hcomplete
  have hdone : (restoreRows env (groupsWithFilledSibling desk.table) (liveByTicket orders)
      (listActivePendingOrders desk.table) desk).2 = true := by
    apply restoreRows_completes
    intro row hrow hgone
    exact hquiet row.info (holds_of_mem_active desk row hrow) hgone
  obtain ⟨hasked, hstatus⟩ := restoreRows_settled env (groupsWithFilledSibling desk.table)
    (liveByTicket orders) (listActivePendingOrders desk.table) desk
    (active_ticket_nodup desk.table) hdone _ (mem_active desk info hlimits hplaced)
  unfold restorePendingOrders
  simp only [hlive, hdone, if_true]
  refine ⟨?_, ?_⟩
  · intro hgroup hpos
    have htail := handleOrphans_frame env
      (orphans (liveByTicket orders) (listActivePendingOrders desk.table))
      (restoreRows env (groupsWithFilledSibling desk.table) (liveByTicket orders)
        (listActivePendingOrders desk.table) desk).1 (fun _ => True) True
    exact htail.askedBetween_right (hasked hgroup hpos)
  · intro hgroup hgone
    rw [handleOrphans_other]
    · exact hstatus hgroup hgone
    · intro order horder heq
      have hlisted := mem_orphans_live orders _ order horder
      rw [← heq, hgone.1] at hlisted
      cases hlisted

end MT5Services.PendingRecovery
