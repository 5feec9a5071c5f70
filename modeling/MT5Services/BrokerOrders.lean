import MT5Services.Dict
import MT5Services.PyText
import MT5Services.Runs

/-!
Broker orders tracked by `PendingOrderLifecycleManager`: the map `_mt5_orders`
from signal id to order, the two monitor passes and the cancellation of a
symbol's orders. A pass works on a snapshot of the map and asks the broker once
per order; the answers are functions of the signal id. `Book` adds to the map
what it still owes: which ticket was stored under which id and has not been
reported gone.
-/
namespace MT5Services.BrokerOrders

open PyText Runs

structure Order where
  ticket : ℤ
  signalId : String
  symbol : String
  direction : String
  expiresAt : ℤ
  groupId : Option String
  deriving DecidableEq, Repr

abbrev Orders := Dict String Order

/-- An answer of `inspect_mt5_order`, by its normalised status. -/
inductive Inspection
  | raises
  | pending
  | filled
  | missing
  deriving DecidableEq, Repr

def Inspection.reports : Inspection → Bool
  | filled | missing => true
  | raises | pending => false

/-- An element of a `canceled` or `failed` list: something `int` accepts, a
mapping with its three ticket fields, or neither. -/
inductive TicketItem
  | number (value : ℤ)
  | record (ticket order orderId : Option ℤ)
  | other
  deriving DecidableEq, Repr

/-- Python's `a or b` on optional integers. -/
def orElse (first second : Option ℤ) : Option ℤ :=
  if first = none ∨ first = some 0 then second else first

def TicketItem.candidate : TicketItem → Option ℤ
  | number value => some value
  | record ticket order orderId => orElse ticket (orElse order orderId)
  | other => none

def extractTickets (items : List TicketItem) : List ℤ :=
  (items.filterMap TicketItem.candidate).filter (0 < ·)

/-- How `cancel_orders_by_tickets` ends: an exception, a falsy result, or the
mapping with its lists. -/
inductive CancelAnswer
  | raises
  | falsy
  | lists (canceled cancelled failed : List TicketItem)
  deriving DecidableEq, Repr

/-- The answer lists the ticket as canceled. -/
def CancelAnswer.listsCanceled (answer : CancelAnswer) (ticket : ℤ) : Bool :=
  match answer with
  | lists canceled cancelled _ =>
    (extractTickets canceled).contains ticket || (extractTickets cancelled).contains ticket
  | _ => false

def CancelAnswer.listsFailed (answer : CancelAnswer) (ticket : ℤ) : Bool :=
  match answer with
  | lists _ _ failed => (extractTickets failed).contains ticket
  | _ => false

/-- `_ticket_in_result`; an exception counts as not confirmed. -/
def ticketInResult (answer : CancelAnswer) (ticket : ℤ) : Bool :=
  match answer with
  | .raises => false
  | .falsy => false
  | .lists _ _ failed =>
    if answer.listsCanceled ticket then true
    else if (extractTickets failed).isEmpty then true
    else !(extractTickets failed).contains ticket

/-- The lifecycle hooks a pass calls. -/
inductive Report
  | filled (info : Order)
  | missing (info : Order)
  | expired (info : Order)
  | cancelled (info : Order)
  deriving DecidableEq, Repr

def restoreMt5Order (orders : Orders) (info : Order) : Orders :=
  if strip info.signalId = "" then orders else orders.set (strip info.signalId) info

/-- A second order for a tracked signal id is ignored. -/
def trackMt5Order (orders : Orders) (info : Order) : Orders :=
  if orders.contains info.signalId then orders else orders.set info.signalId info

/-- Drop the order unless another ticket has taken its place since. -/
def popSameTicket (orders : Orders) (sid : String) (ticket : ℤ) : Orders :=
  match orders.get? sid with
  | some current => if current.ticket = ticket then orders.pop sid else orders
  | none => orders

def inspectEntry (inspect : String → Inspection) (state : Orders × List Report)
    (entry : String × Order) : Orders × List Report :=
  let gone := (state.1.get? entry.1).any fun current => current.ticket = entry.2.ticket
  match inspect entry.1 with
  | .filled =>
    if gone then (state.1.pop entry.1, state.2 ++ [.filled entry.2]) else state
  | .missing =>
    if gone then (state.1.pop entry.1, state.2 ++ [.missing entry.2]) else state
  | .raises | .pending => state

def checkMt5OrderState (inspect : String → Inspection) (orders : Orders) :
    Orders × List Report :=
  orders.items.foldl (inspectEntry inspect) (orders, [])

/-- Ask the broker to cancel one order of the snapshot. -/
def cancelEntry (cancel : String → CancelAnswer) (report : Order → Report)
    (state : Orders × List Report) (entry : String × Order) : Orders × List Report :=
  if ticketInResult (cancel entry.1) entry.2.ticket then
    (popSameTicket state.1 entry.1 entry.2.ticket, state.2 ++ [report entry.2])
  else state

def expiredEntries (now : ℤ) (orders : Orders) : List (String × Order) :=
  orders.items.filter fun p => p.2.expiresAt ≤ now

def checkMt5OrderExpiry (now : ℤ) (cancel : String → CancelAnswer) (orders : Orders) :
    Orders × List Report :=
  (expiredEntries now orders).foldl (cancelEntry cancel .expired) (orders, [])

def symbolEntries (symbol : String) (excludeDirection : Option String) (orders : Orders) :
    List (String × Order) :=
  orders.items.filter fun p => p.2.symbol = symbol ∧ some p.2.direction ≠ excludeDirection

def cancelMt5OrdersBySymbol (symbol : String) (excludeDirection : Option String)
    (cancel : String → CancelAnswer) (orders : Orders) : Orders × List Report :=
  (symbolEntries symbol excludeDirection orders).foldl (cancelEntry cancel .cancelled)
    (orders, [])

/-- The map with the pairs of signal id and ticket it was given and not told to
be gone. -/
structure Book where
  orders : Orders
  owed : List (String × ℤ)

inductive Act
  | track (info : Order)
  | restore (info : Order)
  | inspectPass (inspect : String → Inspection)
  | expiryPass (now : ℤ) (cancel : String → CancelAnswer)
  | cancelBySymbol (symbol : String) (excludeDirection : Option String)
      (cancel : String → CancelAnswer)

/-- Tickets that inspection reports filled or missing are no longer owed. -/
def owedAfterInspection (inspect : String → Inspection) (book : Book) : List (String × ℤ) :=
  book.owed.filter fun p =>
    !book.orders.items.any fun entry => (inspect entry.1).reports && entry.2.ticket = p.2

/-- Tickets that an answer lists as canceled are no longer owed. -/
def owedAfterCancel (cancel : String → CancelAnswer) (asked : List (String × Order))
    (owed : List (String × ℤ)) : List (String × ℤ) :=
  owed.filter fun p => !asked.any fun entry => (cancel entry.1).listsCanceled p.2

/-- A tracked order is owed when its id was free; a restored order replaces what
was stored under its id. -/
def step (book : Book) : Act → Option Book
  | .track info =>
    some
      { orders := trackMt5Order book.orders info
        owed := if book.orders.contains info.signalId then book.owed
          else book.owed ++ [(info.signalId, info.ticket)] }
  | .restore info =>
    some
      { orders := restoreMt5Order book.orders info
        owed := if strip info.signalId = "" then book.owed
          else book.owed.filter (fun p => p.1 ≠ strip info.signalId) ++
            [(strip info.signalId, info.ticket)] }
  | .inspectPass inspect =>
    some ⟨(checkMt5OrderState inspect book.orders).1, owedAfterInspection inspect book⟩
  | .expiryPass now cancel =>
    some ⟨(checkMt5OrderExpiry now cancel book.orders).1,
      owedAfterCancel cancel (expiredEntries now book.orders) book.owed⟩
  | .cancelBySymbol symbol excludeDirection cancel =>
    some ⟨(cancelMt5OrdersBySymbol symbol excludeDirection cancel book.orders).1,
      owedAfterCancel cancel (symbolEntries symbol excludeDirection book.orders) book.owed⟩

/-- The answer says something about the ticket it was asked for. -/
def Explicit (answer : CancelAnswer) (ticket : ℤ) : Prop :=
  match answer with
  | .raises | .falsy => True
  | .lists _ _ _ => answer.listsCanceled ticket = true ∨ answer.listsFailed ticket = true

/-- Every order a pass asks the broker to cancel gets an explicit answer. -/
def ExplicitAnswers (book : Book) : Act → Prop
  | .expiryPass now cancel =>
    ∀ entry ∈ expiredEntries now book.orders, Explicit (cancel entry.1) entry.2.ticket
  | .cancelBySymbol symbol excludeDirection cancel =>
    ∀ entry ∈ symbolEntries symbol excludeDirection book.orders,
      Explicit (cancel entry.1) entry.2.ticket
  | _ => True

/-- Nothing owed is lost. -/
def Kept (book : Book) : Prop :=
  ∀ sid ticket, (sid, ticket) ∈ book.owed →
    ∃ info, book.orders.get? sid = some info ∧ info.ticket = ticket

theorem listed_of_confirmed (answer : CancelAnswer) (ticket : ℤ) (h : Explicit answer ticket)
    (hconfirmed : ticketInResult answer ticket = true) :
    answer.listsCanceled ticket = true := by
  cases answer with
  | raises => cases hconfirmed
  | falsy => cases hconfirmed
  | lists canceled cancelled failed =>
    rcases h with hlisted | hfailed
    · exact hlisted
    · by_contra hnot
      have hmem : (extractTickets failed).contains ticket = true := hfailed
      have hne : (extractTickets failed).isEmpty = false := by
        cases hempty : extractTickets failed with
        | nil => simp [hempty] at hmem
        | cons first rest => rfl
      simp only [ticketInResult, hnot, hne, hmem, Bool.not_true, Bool.false_eq_true,
        if_false] at hconfirmed

theorem inspectEntry_get? (inspect : String → Inspection) (state : Orders × List Report)
    (entry : String × Order) (sid : String)
    (h : entry.1 = sid → (inspect sid).reports = false) :
    (inspectEntry inspect state entry).1.get? sid = state.1.get? sid := by
  by_cases hsid : entry.1 = sid
  · have hquiet := h hsid
    subst hsid
    unfold inspectEntry
    cases hanswer : inspect entry.1 with
    | raises => rfl
    | pending => rfl
    | filled => simp [hanswer, Inspection.reports] at hquiet
    | missing => simp [hanswer, Inspection.reports] at hquiet
  · have hpop : (state.1.pop entry.1).get? sid = state.1.get? sid := by
      rw [Dict.get?_pop, if_neg (Ne.symm hsid)]
    unfold inspectEntry
    cases inspect entry.1 with
    | raises => rfl
    | pending => rfl
    | filled =>
      dsimp only
      split
      · exact hpop
      · rfl
    | missing =>
      dsimp only
      split
      · exact hpop
      · rfl

theorem cancelEntry_get? (cancel : String → CancelAnswer) (report : Order → Report)
    (state : Orders × List Report) (entry : String × Order) (sid : String)
    (h : entry.1 = sid → ticketInResult (cancel sid) entry.2.ticket = false) :
    (cancelEntry cancel report state entry).1.get? sid = state.1.get? sid := by
  unfold cancelEntry
  split
  · rename_i hconfirmed
    have hsid : entry.1 ≠ sid := by
      intro heq
      have hfalse := h heq
      rw [heq, hfalse] at hconfirmed
      cases hconfirmed
    unfold popSameTicket
    cases state.1.get? entry.1 with
    | none => rfl
    | some current =>
      dsimp only
      split
      · rw [Dict.get?_pop, if_neg (Ne.symm hsid)]
      · rfl
  · rfl

theorem kept_inspectPass (book : Book) (inspect : String → Inspection) (h : Kept book) :
    Kept ⟨(checkMt5OrderState inspect book.orders).1, owedAfterInspection inspect book⟩ := by
  intro sid ticket howed
  obtain ⟨hold, hunreported⟩ := List.mem_filter.mp howed
  obtain ⟨info, hinfo, rfl⟩ := h sid ticket hold
  refine ⟨info, ?_, rfl⟩
  have hquiet : (inspect sid).reports = false := by
    have hmem : (sid, info) ∈ book.orders.items := (Dict.mem_items_iff_get? _ _ _).mpr hinfo
    simp only [Bool.not_eq_true', List.any_eq_false] at hunreported
    have hthis := hunreported (sid, info) hmem
    simpa using hthis
  rw [← hinfo]
  exact foldl_frame _ (fun state : Orders × List Report => state.1.get? sid) book.orders.items
    (fun state entry _ => inspectEntry_get? inspect state entry sid fun _ => hquiet) _

/-- One argument for both cancelling passes. -/
theorem kept_cancelPass (book : Book) (cancel : String → CancelAnswer)
    (report : Order → Report) (asked : List (String × Order)) (h : Kept book)
    (hasked : ∀ entry ∈ asked, entry ∈ book.orders.items)
    (hexplicit : ∀ entry ∈ asked, Explicit (cancel entry.1) entry.2.ticket) :
    Kept ⟨(asked.foldl (cancelEntry cancel report) (book.orders, [])).1,
      owedAfterCancel cancel asked book.owed⟩ := by
  intro sid ticket howed
  obtain ⟨hold, hunlisted⟩ := List.mem_filter.mp howed
  obtain ⟨info, hinfo, rfl⟩ := h sid ticket hold
  refine ⟨info, ?_, rfl⟩
  rw [← hinfo]
  refine foldl_frame _ (fun state : Orders × List Report => state.1.get? sid) asked ?_ _
  intro state entry hentry
  refine cancelEntry_get? cancel report state entry sid ?_
  rintro rfl
  have hget := (Dict.mem_items_iff_get? _ _ _).mp (hasked entry hentry)
  obtain rfl : info = entry.2 := Option.some.inj (hinfo.symm.trans hget)
  by_contra hconfirmed
  have hlisted := listed_of_confirmed _ _ (hexplicit entry hentry)
    (by simpa using hconfirmed)
  simp only [Bool.not_eq_true', List.any_eq_false] at hunlisted
  exact hunlisted entry hentry hlisted

theorem kept_track (book : Book) (info : Order) (h : Kept book) :
    Kept
      { orders := trackMt5Order book.orders info
        owed := if book.orders.contains info.signalId then book.owed
          else book.owed ++ [(info.signalId, info.ticket)] } := by
  unfold trackMt5Order
  split
  · exact h
  · rename_i hfree
    intro sid ticket howed
    rw [List.mem_append, List.mem_singleton] at howed
    simp only [Dict.get?_set]
    rcases howed with hold | hnew
    · obtain ⟨old, hget, hticket⟩ := h sid ticket hold
      have hne : sid ≠ info.signalId := by
        rintro rfl
        simp [Dict.contains, hget] at hfree
      exact ⟨old, by rw [if_neg hne]; exact hget, hticket⟩
    · obtain ⟨rfl, rfl⟩ := Prod.mk.inj hnew
      exact ⟨info, if_pos rfl, rfl⟩

theorem kept_restore (book : Book) (info : Order) (h : Kept book) :
    Kept
      { orders := restoreMt5Order book.orders info
        owed := if strip info.signalId = "" then book.owed
          else book.owed.filter (fun p => p.1 ≠ strip info.signalId) ++
            [(strip info.signalId, info.ticket)] } := by
  unfold restoreMt5Order
  split
  · exact h
  · intro sid ticket howed
    rw [List.mem_append, List.mem_filter, List.mem_singleton] at howed
    simp only [Dict.get?_set]
    rcases howed with ⟨hold, hne⟩ | hnew
    · obtain ⟨old, hget, hticket⟩ := h sid ticket hold
      have hother : sid ≠ strip info.signalId := by simpa using hne
      exact ⟨old, by rw [if_neg hother]; exact hget, hticket⟩
    · obtain ⟨rfl, rfl⟩ := Prod.mk.inj hnew
      exact ⟨info, if_pos rfl, rfl⟩

theorem step_kept (book : Book) (a : Act) (next : Book) (h : Kept book)
    (ha : ExplicitAnswers book a) (hstep : step book a = some next) : Kept next := by
  cases a with
  | track info =>
    cases Option.some.inj hstep
    exact kept_track book info h
  | restore info =>
    cases Option.some.inj hstep
    exact kept_restore book info h
  | inspectPass inspect =>
    cases Option.some.inj hstep
    exact kept_inspectPass book inspect h
  | expiryPass now cancel =>
    cases Option.some.inj hstep
    exact kept_cancelPass book cancel .expired _ h
      (fun entry hentry => List.mem_of_mem_filter hentry) ha
  | cancelBySymbol symbol excludeDirection cancel =>
    cases Option.some.inj hstep
    exact kept_cancelPass book cancel .cancelled _ h
      (fun entry hentry => List.mem_of_mem_filter hentry) ha

end MT5Services.BrokerOrders
