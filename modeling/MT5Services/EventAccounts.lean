import MT5Services.SignalQueues
import Mathlib.Algebra.Order.Group.Multiset
import Mathlib.Tactic.Abel

/-!
The books of the signal runtime: which item was dropped, processed or is still on its
way, and the counters that `enqueue_event` and `process_next_event` keep about it.
Calls of producers and the loop of the consumer alternate at every access to a queue.
-/
namespace MT5Services.EventAccounts

open Runs SignalQueues

/-- Where a call of `enqueue_event` stands that has met a full queue. -/
inductive Phase
  /-- A confirmed item waits for room. -/
  | backpressure
  /-- With a trade coordinator a droppable item waits for room too. -/
  | overflow
  /-- The wait was in vain, the oldest item is to leave the queue. -/
  | evicting
  | replacing
  deriving DecidableEq, Repr

structure Call (P : Type*) where
  item : Event P
  phase : Phase
  deriving DecidableEq, Repr

/-- How `process_next_event` leaves an item. -/
inductive Verdict
  | stale
  | blocked
  | evaluated
  deriving DecidableEq, Repr

structure Counters where
  droppedEvents : ℕ := 0
  processedEvents : ℕ := 0
  runCount : ℕ := 0
  droppedConfirmed : ℕ := 0
  droppedIntrabar : ℕ := 0
  droppedTickDerived : ℕ := 0
  intrabarStaleDrops : ℕ := 0
  tickDerivedProcessed : ℕ := 0
  intrabarOverflowWaitSuccess : ℕ := 0
  intrabarOverflowReplaceSuccess : ℕ := 0
  intrabarOverflowFailures : ℕ := 0
  confirmedBackpressureWaits : ℕ := 0
  confirmedBackpressureFailures : ℕ := 0
  deriving DecidableEq, Repr

namespace Counters

def resetObservability (k : Counters) : Counters :=
  { droppedTickDerived := k.droppedTickDerived, tickDerivedProcessed := k.tickDerivedProcessed }

def drop (k : Counters) : Scope → Counters
  | .confirmed =>
    { k with droppedEvents := k.droppedEvents + 1, droppedConfirmed := k.droppedConfirmed + 1 }
  | .intrabar =>
    { k with droppedEvents := k.droppedEvents + 1, droppedIntrabar := k.droppedIntrabar + 1 }
  | .tickDerived =>
    { k with droppedEvents := k.droppedEvents + 1, droppedTickDerived := k.droppedTickDerived + 1 }

def dropStale (k : Counters) : Counters :=
  { k with
    droppedEvents := k.droppedEvents + 1
    intrabarStaleDrops := k.intrabarStaleDrops + 1
    processedEvents := k.processedEvents + 1 }

def block (k : Counters) : Counters :=
  { k with processedEvents := k.processedEvents + 1, runCount := k.runCount + 1 }

def evaluate (k : Counters) (scope : Scope) : Counters :=
  { k with
    processedEvents := k.processedEvents + 1
    runCount := k.runCount + 1
    tickDerivedProcessed := k.tickDerivedProcessed + if scope = .tickDerived then 1 else 0 }

/-- The four counters that are said to make up the dropped events. -/
def parts (k : Counters) : ℕ :=
  k.droppedConfirmed + k.droppedIntrabar + k.droppedTickDerived + k.intrabarStaleDrops

theorem drop_droppedEvents (k : Counters) (scope : Scope) :
    (k.drop scope).droppedEvents = k.droppedEvents + 1 := by
  cases scope <;> rfl

theorem drop_parts (k : Counters) (scope : Scope) : (k.drop scope).parts = k.parts + 1 := by
  cases scope <;> simp only [drop, parts] <;> omega

theorem dropStale_parts (k : Counters) : k.dropStale.parts = k.parts + 1 := by
  simp only [dropStale, parts]
  omega

end Counters

variable {P : Type*}

/-- The queues, the calls under way and the counters, with every item since the start in
the class it has reached. -/
structure Accounts (P : Type*) where
  queues : Runtime P
  calls : List (Call P) := []
  counters : Counters := {}
  enqueued : Multiset (Event P) := 0
  /-- Evaluated, or blocked by the filter. -/
  completed : Multiset (Event P) := 0
  /-- Counted in `_dropped_events`. -/
  discarded : Multiset (Event P) := 0
  /-- Gone without a count. -/
  lost : Multiset (Event P) := 0

def putNowait (q : Runtime P) (item : Event P) : Option (Runtime P) :=
  match item.scope with
  | .confirmed =>
    (q.confirmed.putNowait item).map fun queue =>
      { q with confirmed := queue, accepted := q.accepted ++ [item] }
  | .intrabar =>
    if q.intrabar.length < droppableMaxsize then
      some { q with intrabar := q.intrabar ++ [item] }
    else none
  | .tickDerived =>
    if q.tickDerived.length < droppableMaxsize then
      some { q with tickDerived := q.tickDerived ++ [item] }
    else none

def getNowait (q : Runtime P) : Scope → Option (Event P × Runtime P)
  | .confirmed =>
    q.confirmed.getNowait.map fun taken => (taken.1, { q with confirmed := taken.2 })
  | .intrabar => takeIntrabar q
  | .tickDerived => takeTickDerived q

def drop (s : Accounts P) (item : Event P) : Accounts P :=
  { s with counters := s.counters.drop item.scope, discarded := {item} + s.discarded }

def await (s : Accounts P) (item : Event P) (phase : Phase) : Accounts P :=
  { s with calls := s.calls ++ [⟨item, phase⟩] }

/-- `enqueue_event` up to its first wait. -/
def enqueueEvent (c : Settings) (s : Accounts P) (item : Event P) : Accounts P :=
  let s := { s with enqueued := {item} + s.enqueued }
  match putNowait s.queues item with
  | some queues => { s with queues := queues }
  | none =>
    if item.scope = .confirmed then
      let k := s.counters
      let waits := k.confirmedBackpressureWaits + 1
      await { s with counters := { k with confirmedBackpressureWaits := waits } } item
        .backpressure
    else if c.coordinator then await s item .overflow
    else drop s item

/-- A call goes on from its wait; `s` is the state without the call. -/
def goOn (s : Accounts P) (call : Call P) : Accounts P :=
  let k := s.counters
  let item := call.item
  match call.phase with
  | .backpressure =>
    match putNowait s.queues item with
    | some queues => { s with queues := queues }
    | none =>
      let failures := k.confirmedBackpressureFailures + 1
      drop { s with counters := { k with confirmedBackpressureFailures := failures } } item
  | .overflow =>
    match putNowait s.queues item with
    | some queues =>
      let successes := k.intrabarOverflowWaitSuccess + 1
      { s with queues := queues, counters := { k with intrabarOverflowWaitSuccess := successes } }
    | none => await s item .evicting
  | .evicting =>
    match getNowait s.queues item.scope with
    | some (oldest, queues) =>
      -- no counter knows of the oldest item
      await { s with queues := queues, lost := {oldest} + s.lost } item .replacing
    | none =>
      let failures := k.intrabarOverflowFailures + 1
      drop { s with counters := { k with intrabarOverflowFailures := failures } } item
  | .replacing =>
    match putNowait s.queues item with
    | some queues =>
      let successes := k.intrabarOverflowReplaceSuccess + 1
      { s with queues := queues, counters := { k with intrabarOverflowReplaceSuccess := successes } }
    | none =>
      let failures := k.intrabarOverflowFailures + 1
      drop { s with counters := { k with intrabarOverflowFailures := failures } } item

/-- The event that is out of the confirmed queue and finds no room there any more. -/
def lostAtPutBack (q : Runtime P) : Multiset (Event P) :=
  match q.hand with
  | .yielding event _ => if q.confirmed.full then {event} else 0
  | _ => 0

/-- The rest of `process_next_event`, which returns normally; only intrabar items go
stale. -/
def finish (s : Accounts P) (item : Event P) (verdict : Verdict) : Option (Accounts P) :=
  let s := { s with queues := { s.queues with hand := .idle } }
  let k := s.counters
  match verdict with
  | .stale =>
    if item.scope = .intrabar then
      some { s with counters := k.dropStale, discarded := {item} + s.discarded }
    else none
  | .blocked => some { s with counters := k.block, completed := {item} + s.completed }
  | .evaluated =>
    some { s with counters := k.evaluate item.scope, completed := {item} + s.completed }

inductive Act (P : Type*)
  | enqueue (item : Event P)
  | goOn (index : ℕ)
  | dequeue
  | consult
  | putBack
  | wait
  | finish (verdict : Verdict)
  deriving DecidableEq, Repr

def step (c : Settings) (s : Accounts P) : Act P → Option (Accounts P)
  | .enqueue item => some (enqueueEvent c s item)
  | .goOn index =>
    match s.calls[index]? with
    | some call => some (goOn { s with calls := s.calls.eraseIdx index } call)
    | none => none
  | .dequeue =>
    (SignalQueues.step c s.queues .dequeue).map fun queues => { s with queues := queues }
  | .consult =>
    (SignalQueues.step c s.queues .consult).map fun queues => { s with queues := queues }
  | .putBack =>
    (SignalQueues.step c s.queues .putBack).map fun queues =>
      { s with queues := queues, lost := lostAtPutBack s.queues + s.lost }
  | .wait =>
    (SignalQueues.step c s.queues .wait).map fun queues => { s with queues := queues }
  | .finish verdict =>
    match s.queues.hand with
    | .processing item => finish s item verdict
    | _ => none

/-- The items in the three queues. -/
def queued (q : Runtime P) : Multiset (Event P) :=
  ↑(q.confirmed.contents ++ (q.intrabar ++ q.tickDerived))

/-- `start()` over the queues and counters that an earlier session has left. What it
finds in the queues counts as enqueued. -/
def start (left : Runtime P) (k : Counters) : Accounts P :=
  { queues := { left with hand := .idle }
    counters := k.resetObservability
    enqueued := queued left }

/-- No call is under way and the consumer has nothing in hand. -/
structure AtRest (s : Accounts P) : Prop where
  calls : s.calls = []
  hand : s.queues.hand = .idle

/-- Every item is in one class, and the counters of the dropped ones agree. -/
structure Accounted (s : Accounts P) : Prop where
  classes : s.enqueued = queued s.queues + s.completed + s.discarded
  dropped : s.counters.droppedEvents = s.discarded.card
  parts : s.counters.droppedEvents = s.counters.parts

/-- The step takes no item out of a droppable queue to make room, and puts a confirmed
item back only while there is room. -/
def Counted (s : Accounts P) : Act P → Prop
  | .goOn index =>
    ∀ call ∈ s.calls[index]?, call.phase = .evicting →
      getNowait s.queues call.item.scope = none
  | .putBack => s.queues.confirmed.full = false
  | _ => True

instance (s : Accounts P) : DecidablePred (Counted s)
  | .goOn index => inferInstanceAs (Decidable (∀ call ∈ s.calls[index]?,
      call.phase = .evicting → getNowait s.queues call.item.scope = none))
  | .putBack => inferInstanceAs (Decidable (s.queues.confirmed.full = false))
  | .enqueue _ | .dequeue | .consult | .wait | .finish _ => isTrue trivial

variable {q r : Runtime P} {item : Event P}

theorem putNowait_queued (h : putNowait q item = some r) :
    queued r = {item} + queued q ∧ r.hand = q.hand := by
  unfold putNowait at h
  cases hscope : item.scope with
  | confirmed =>
    rw [hscope] at h
    obtain ⟨queue, hput, rfl⟩ := Option.map_eq_some_iff.mp h
    have hroom : q.confirmed.full = false := by
      by_contra hfull
      rw [ConfirmedQueue.putNowait_of_full item (by simpa using hfull)] at hput
      cases hput
    obtain ⟨rest, hrest, hcontents⟩ := ConfirmedQueue.putNowait_of_room item hroom
    cases Option.some.inj (hput.symm.trans hrest)
    refine ⟨?_, rfl⟩
    simp only [queued, hcontents, ← Multiset.coe_add, Multiset.coe_singleton]
    abel
  | intrabar =>
    simp only [hscope] at h
    split_ifs at h
    cases Option.some.inj h
    refine ⟨?_, rfl⟩
    simp only [queued, ← Multiset.coe_add, Multiset.coe_singleton]
    abel
  | tickDerived =>
    simp only [hscope] at h
    split_ifs at h
    cases Option.some.inj h
    refine ⟨?_, rfl⟩
    simp only [queued, ← Multiset.coe_add, Multiset.coe_singleton]
    abel

variable {event : Event P}

theorem queued_of_confirmed {rest : ConfirmedQueue P}
    (h : q.confirmed.contents = event :: rest.contents) :
    queued q = {event} + queued { q with confirmed := rest } := by
  simp only [queued, h, List.cons_append, ← Multiset.cons_coe, Multiset.singleton_add]

theorem queued_of_intrabar {rest : List (Event P)} (h : q.intrabar = event :: rest) :
    queued q = {event} + queued { q with intrabar := rest } := by
  simp only [queued, h, List.cons_append, ← Multiset.coe_add, ← Multiset.cons_coe,
    ← Multiset.singleton_add]
  abel

theorem queued_of_tickDerived {rest : List (Event P)} (h : q.tickDerived = event :: rest) :
    queued q = {event} + queued { q with tickDerived := rest } := by
  simp only [queued, h, ← Multiset.coe_add, ← Multiset.cons_coe, ← Multiset.singleton_add]
  abel

theorem getNowait_queued {scope : Scope} (h : getNowait q scope = some (event, r)) :
    queued q = {event} + queued r ∧ r.hand = q.hand := by
  cases scope with
  | confirmed =>
    obtain ⟨taken, hget, heq⟩ := Option.map_eq_some_iff.mp h
    cases heq
    rcases q.confirmed.getNowait_spec with ⟨hnone, _⟩ | ⟨first, rest, hsome, hcontents⟩
    · cases hget.symm.trans hnone
    · cases hget.symm.trans hsome
      exact ⟨queued_of_confirmed hcontents, rfl⟩
  | intrabar =>
    obtain ⟨first, hfirst, heq⟩ := Option.map_eq_some_iff.mp h
    cases heq
    obtain ⟨rest, hqueue⟩ := List.head?_eq_some_iff.mp hfirst
    refine ⟨?_, rfl⟩
    rw [hqueue, List.tail_cons]
    exact queued_of_intrabar hqueue
  | tickDerived =>
    obtain ⟨first, hfirst, heq⟩ := Option.map_eq_some_iff.mp h
    cases heq
    obtain ⟨rest, hqueue⟩ := List.head?_eq_some_iff.mp hfirst
    refine ⟨?_, rfl⟩
    rw [hqueue, List.tail_cons]
    exact queued_of_tickDerived hqueue

/-- The items queued or in the consumer's hand. -/
def carried (q : Runtime P) : Multiset (Event P) := queued q + ↑q.hand.events

/-- What the droppable queues hand out is no longer queued. -/
theorem dequeueNonConfirmedNowait_queued {q rest : Runtime P} {found : Option (Event P)}
    (h : dequeueNonConfirmedNowait q = (found, rest)) :
    queued q = ↑found.toList + queued rest ∧ rest.hand = q.hand := by
  rcases dequeueNonConfirmedNowait_cases q with ⟨event, items, hqueue, heq⟩ |
    ⟨event, items, hqueue, heq⟩ | heq
  · cases h.symm.trans heq
    exact ⟨queued_of_intrabar hqueue, rfl⟩
  · cases h.symm.trans heq
    exact ⟨queued_of_tickDerived hqueue, rfl⟩
  · cases h.symm.trans heq
    refine ⟨?_, rfl⟩
    show queued q = 0 + queued q
    rw [zero_add]

theorem carried_goOn {q rest : Runtime P} {found : Option (Event P)} {hand : Hand P}
    (h : dequeueNonConfirmedNowait q = (found, rest))
    (hhand : hand.events = q.hand.events ++ found.toList) :
    carried { rest with hand := hand } = carried q := by
  obtain ⟨hqueued, _⟩ := dequeueNonConfirmedNowait_queued h
  show queued rest + ↑hand.events = queued q + ↑q.hand.events
  rw [hqueued, hhand, ← Multiset.coe_add]
  abel

theorem dequeue_carried (c : Settings) (hidle : q.hand = .idle) :
    carried (SignalQueues.dequeue c q) = carried q := by
  have hhand : q.hand.events = [] := by rw [hidle]; rfl
  unfold SignalQueues.dequeue
  rcases q.confirmed.getNowait_spec with ⟨hget, _⟩ | ⟨event, rest, hget, hcontents⟩
  · rw [hget]
    dsimp only
    split
    · next other left hfound =>
      exact carried_goOn (q := { q with confirmedBurstCount := 0 }) hfound (by rw [hhand]; rfl)
    · next left hfound =>
      exact carried_goOn (q := { q with confirmedBurstCount := 0 }) hfound (by rw [hhand]; rfl)
  · rw [hget]
    have hqueued := queued_of_confirmed hcontents
    have hcarried : queued { q with confirmed := rest } + {event} = carried q := by
      rw [carried, hqueued, hhand, Multiset.coe_nil, add_zero, add_comm]
    dsimp only
    split_ifs
    · exact hcarried
    · exact hcarried

theorem consult_carried (hdeciding : q.hand = .deciding event) :
    carried (SignalQueues.consult q event) = carried q := by
  have hhand : q.hand.events = [event] := by rw [hdeciding]; rfl
  unfold SignalQueues.consult
  split
  · next other rest hfound => exact carried_goOn hfound (by rw [hhand]; rfl)
  · next rest hfound => exact carried_goOn hfound (by rw [hhand]; rfl)

theorem wait_carried (hwaiting : q.hand = .waiting) :
    carried (SignalQueues.wait q) = carried q := by
  have hhand : q.hand.events = [] := by rw [hwaiting]; rfl
  unfold SignalQueues.wait
  split
  · next other rest hfound => exact carried_goOn hfound (by rw [hhand]; rfl)
  · next rest hfound => exact carried_goOn hfound (by rw [hhand]; rfl)

/-- Only the event that finds no room any more is not carried on. -/
theorem putBack_carried {event other : Event P} (hyielding : q.hand = .yielding event other) :
    carried q = carried (SignalQueues.putBack q event other) + lostAtPutBack q := by
  have hhand : q.hand.events = [event, other] := by rw [hyielding]; rfl
  have hboth : (↑[event, other] : Multiset (Event P)) = {event} + {other} := rfl
  unfold SignalQueues.putBack lostAtPutBack
  rw [hyielding]
  dsimp only
  cases hfull : q.confirmed.full with
  | true =>
    rw [ConfirmedQueue.putNowait_of_full event hfull, if_pos rfl]
    show queued q + ↑q.hand.events = queued q + {other} + {event}
    rw [hhand, hboth]
    abel
  | false =>
    obtain ⟨queue, hput, hcontents⟩ := ConfirmedQueue.putNowait_of_room event hfull
    rw [hput, if_neg Bool.false_ne_true]
    have hqueued : queued { q with confirmed := queue } = {event} + queued q := by
      simp only [queued, hcontents, ← Multiset.coe_add, Multiset.coe_singleton]
      abel
    show queued q + ↑q.hand.events = queued { q with confirmed := queue } + {other} + 0
    rw [hhand, hboth, hqueued]
    abel

def inCalls (calls : List (Call P)) : Multiset (Event P) := ↑(calls.map Call.item)

theorem inCalls_append (calls : List (Call P)) (call : Call P) :
    inCalls (calls ++ [call]) = inCalls calls + {call.item} := by
  rw [inCalls, List.map_append, ← Multiset.coe_add]
  rfl

variable {call : Call P}

theorem inCalls_eraseIdx {calls : List (Call P)} {index : ℕ} (h : calls[index]? = some call) :
    inCalls calls = {call.item} + inCalls (calls.eraseIdx index) := by
  obtain ⟨hlt, hcall⟩ := List.getElem?_eq_some_iff.mp h
  have hperm : (call :: calls.eraseIdx index).Perm calls := by
    rw [← hcall]
    exact List.getElem_cons_eraseIdx_perm hlt
  have hmap := (hperm.map Call.item).symm
  rw [inCalls, Multiset.coe_eq_coe.mpr hmap, List.map_cons, ← Multiset.cons_coe]
  rfl

/-- The books with an item in passing: it has left one class and not reached the next.
The parts may be ahead by what an earlier session has left. -/
structure Balanced (ahead : ℕ) (passing : Multiset (Event P)) (s : Accounts P) : Prop where
  items : s.enqueued =
    carried s.queues + inCalls s.calls + s.completed + s.discarded + s.lost + passing
  dropped : s.counters.droppedEvents = s.discarded.card
  parts : s.counters.droppedEvents + ahead = s.counters.parts

variable {ahead : ℕ} {s : Accounts P}

theorem Balanced.drop (h : Balanced ahead {item} s) : Balanced ahead 0 (drop s item) where
  items := by
    show s.enqueued = carried s.queues + inCalls s.calls + s.completed +
      ({item} + s.discarded) + s.lost + 0
    rw [h.items]
    abel
  dropped := by
    show (s.counters.drop item.scope).droppedEvents = ({item} + s.discarded).card
    rw [Counters.drop_droppedEvents, h.dropped, Multiset.card_add, Multiset.card_singleton,
      add_comm]
  parts := by
    show (s.counters.drop item.scope).droppedEvents + ahead = (s.counters.drop item.scope).parts
    have hparts := h.parts
    rw [Counters.drop_droppedEvents, Counters.drop_parts]
    omega

theorem Balanced.await
    (h : Balanced ahead {item} s) (phase : Phase) : Balanced ahead 0 (await s item phase) where
  items := by
    show s.enqueued = carried s.queues + inCalls (s.calls ++ [⟨item, phase⟩]) + s.completed +
      s.discarded + s.lost + 0
    rw [h.items, inCalls_append]
    abel
  dropped := h.dropped
  parts := h.parts

theorem Balanced.put {queues : Runtime P}
    (h : Balanced ahead {item} s) (hput : putNowait s.queues item = some queues) :
    Balanced ahead 0 { s with queues := queues } where
  items := by
    obtain ⟨hqueued, hhand⟩ := putNowait_queued hput
    have hcarried : carried queues = {item} + carried s.queues := by
      rw [carried, hqueued, hhand, carried, add_assoc]
    show s.enqueued = carried queues + inCalls s.calls + s.completed + s.discarded + s.lost + 0
    rw [h.items, hcarried]
    abel
  dropped := h.dropped
  parts := h.parts

/-- Counters that play no part in the books may change. -/
theorem Balanced.withCounters {passing : Multiset (Event P)}
    (h : Balanced ahead passing s) (k : Counters)
    (hdropped : k.droppedEvents = s.counters.droppedEvents)
    (hparts : k.parts = s.counters.parts) : Balanced ahead passing { s with counters := k } where
  items := h.items
  dropped := hdropped.trans h.dropped
  parts := by
    show k.droppedEvents + ahead = k.parts
    rw [hdropped, hparts]
    exact h.parts

theorem enqueueEvent_balanced (c : Settings)
    (h : Balanced ahead 0 s) (item : Event P) : Balanced ahead 0 (enqueueEvent c s item) := by
  have hpassing : Balanced ahead {item} { s with enqueued := {item} + s.enqueued } := by
    refine ⟨?_, h.dropped, h.parts⟩
    show {item} + s.enqueued = _
    rw [h.items]
    abel
  unfold enqueueEvent
  dsimp only
  split
  · next queues hput => exact hpassing.put hput
  · split_ifs
    · apply Balanced.await
      exact hpassing.withCounters _ rfl rfl
    · exact hpassing.await .overflow
    · exact hpassing.drop

theorem goOn_balanced (h : Balanced ahead {call.item} s) : Balanced ahead 0 (goOn s call) := by
  unfold goOn
  cases call.phase with
  | backpressure =>
    dsimp only
    split
    · next queues hput => exact h.put hput
    · apply Balanced.drop
      exact h.withCounters _ rfl rfl
  | overflow =>
    dsimp only
    split
    · next queues hput => exact (h.put hput).withCounters _ rfl rfl
    · exact h.await .evicting
  | evicting =>
    dsimp only
    split
    · next oldest queues hget =>
      obtain ⟨hqueued, hhand⟩ := getNowait_queued hget
      have hcarried : carried s.queues = {oldest} + carried queues := by
        rw [carried, hqueued, ← hhand, carried, add_assoc]
      have hevicted : Balanced ahead {call.item}
          { s with queues := queues, lost := {oldest} + s.lost } := by
        refine ⟨?_, h.dropped, h.parts⟩
        show s.enqueued = carried queues + inCalls s.calls + s.completed + s.discarded +
          ({oldest} + s.lost) + {call.item}
        rw [h.items, hcarried]
        abel
      exact hevicted.await .replacing
    · apply Balanced.drop
      exact h.withCounters _ rfl rfl
  | replacing =>
    dsimp only
    split
    · next queues hput => exact (h.put hput).withCounters _ rfl rfl
    · apply Balanced.drop
      exact h.withCounters _ rfl rfl

theorem Balanced.withQueues (h : Balanced ahead 0 s)
    {queues : Runtime P} {gone : Multiset (Event P)}
    (hcarried : carried s.queues = carried queues + gone) :
    Balanced ahead 0 { s with queues := queues, lost := gone + s.lost } where
  items := by
    show s.enqueued = carried queues + inCalls s.calls + s.completed + s.discarded +
      (gone + s.lost) + 0
    rw [h.items, hcarried]
    abel
  dropped := h.dropped
  parts := h.parts

theorem finish_balanced {s t : Accounts P} {verdict : Verdict}
    (h : Balanced ahead 0 s) (hhand : s.queues.hand = .processing item)
    (hfinish : finish s item verdict = some t) : Balanced ahead 0 t := by
  have hcarried : carried s.queues = {item} + carried { s.queues with hand := .idle } := by
    rw [carried, hhand]
    show queued s.queues + {item} = {item} + (queued s.queues + 0)
    rw [add_zero, add_comm]
  have hparts := h.parts
  cases verdict with
  | stale =>
    simp only [finish] at hfinish
    split_ifs at hfinish
    cases Option.some.inj hfinish
    refine ⟨?_, ?_, ?_⟩
    · show s.enqueued = carried { s.queues with hand := .idle } + inCalls s.calls + s.completed +
        ({item} + s.discarded) + s.lost + 0
      rw [h.items, hcarried]
      abel
    · show s.counters.droppedEvents + 1 = ({item} + s.discarded).card
      rw [h.dropped, Multiset.card_add, Multiset.card_singleton, add_comm]
    · show s.counters.droppedEvents + 1 + ahead = s.counters.dropStale.parts
      rw [Counters.dropStale_parts]
      omega
  | blocked =>
    cases Option.some.inj hfinish
    refine ⟨?_, h.dropped, h.parts⟩
    show s.enqueued = carried { s.queues with hand := .idle } + inCalls s.calls +
      ({item} + s.completed) + s.discarded + s.lost + 0
    rw [h.items, hcarried]
    abel
  | evaluated =>
    cases Option.some.inj hfinish
    refine ⟨?_, h.dropped, h.parts⟩
    show s.enqueued = carried { s.queues with hand := .idle } + inCalls s.calls +
      ({item} + s.completed) + s.discarded + s.lost + 0
    rw [h.items, hcarried]
    abel

/-- Whatever happens next, the books stay balanced. -/
theorem step_balanced (c : Settings) (s : Accounts P) (act : Act P) (t : Accounts P)
    (h : Balanced ahead 0 s) (hstep : step c s act = some t) : Balanced ahead 0 t := by
  have hread : ∀ queues, carried queues = carried s.queues →
      Balanced ahead 0 { s with queues := queues } := by
    intro queues hcarried
    have hnothing : carried s.queues = carried queues + 0 := by rw [hcarried, add_zero]
    have hnone := h.withQueues hnothing
    rw [zero_add] at hnone
    exact hnone
  cases act with
  | enqueue item =>
    cases Option.some.inj hstep
    exact enqueueEvent_balanced c h item
  | goOn index =>
    unfold step at hstep
    dsimp only at hstep
    split at hstep
    · next call hcall =>
      cases Option.some.inj hstep
      apply goOn_balanced
      refine ⟨?_, h.dropped, h.parts⟩
      show s.enqueued = carried s.queues + inCalls (s.calls.eraseIdx index) + s.completed +
        s.discarded + s.lost + {call.item}
      rw [h.items, inCalls_eraseIdx hcall]
      abel
    · cases hstep
  | dequeue =>
    obtain ⟨queues, hqueues, rfl⟩ := Option.map_eq_some_iff.mp hstep
    obtain ⟨hidle, rfl⟩ := SignalQueues.step_dequeue hqueues
    exact hread _ (dequeue_carried c hidle)
  | consult =>
    obtain ⟨queues, hqueues, rfl⟩ := Option.map_eq_some_iff.mp hstep
    obtain ⟨event, hdeciding, rfl⟩ := SignalQueues.step_consult hqueues
    exact hread _ (consult_carried hdeciding)
  | putBack =>
    obtain ⟨queues, hqueues, rfl⟩ := Option.map_eq_some_iff.mp hstep
    obtain ⟨event, other, hyielding, rfl⟩ := SignalQueues.step_putBack hqueues
    exact h.withQueues (putBack_carried hyielding)
  | wait =>
    obtain ⟨queues, hqueues, rfl⟩ := Option.map_eq_some_iff.mp hstep
    obtain ⟨hwaiting, rfl⟩ := SignalQueues.step_wait hqueues
    exact hread _ (wait_carried hwaiting)
  | finish verdict =>
    unfold step at hstep
    dsimp only at hstep
    split at hstep
    · next item hitem => exact finish_balanced h hitem hstep
    · cases hstep

theorem start_balanced (left : Runtime P) (k : Counters) :
    Balanced k.droppedTickDerived 0 (start left k) where
  items := by
    show queued left = queued left + 0 + 0 + 0 + 0 + 0 + 0
    simp only [add_zero]
  dropped := rfl
  parts := by
    show 0 + k.droppedTickDerived = 0 + 0 + k.droppedTickDerived + 0
    omega

theorem enqueueEvent_lost (c : Settings) (s : Accounts P) (item : Event P) :
    (enqueueEvent c s item).lost = s.lost := by
  unfold enqueueEvent
  dsimp only
  split
  · rfl
  · split_ifs <;> rfl

theorem finish_lost {s t : Accounts P} {verdict : Verdict}
    (h : finish s item verdict = some t) : t.lost = s.lost := by
  cases verdict with
  | stale =>
    simp only [finish] at h
    split_ifs at h
    cases Option.some.inj h
    rfl
  | blocked =>
    cases Option.some.inj h
    rfl
  | evaluated =>
    cases Option.some.inj h
    rfl

theorem goOn_kept (s : Accounts P) (h : call.phase ≠ .evicting) : (goOn s call).lost = s.lost := by
  unfold goOn
  cases hphase : call.phase with
  | evicting => exact absurd hphase h
  | backpressure =>
    dsimp only
    split <;> rfl
  | overflow =>
    dsimp only
    split <;> rfl
  | replacing =>
    dsimp only
    split <;> rfl

/-- Of the phases of a call only the eviction loses an item. -/
theorem goOn_lost (s : Accounts P) (call : Call P) :
    s.lost.card ≤ (goOn s call).lost.card ∧ ((goOn s call).lost.card = s.lost.card ↔
      (call.phase = .evicting → getNowait s.queues call.item.scope = none)) := by
  by_cases hphase : call.phase = .evicting
  · unfold goOn
    rw [hphase]
    dsimp only
    split
    · next oldest queues hget =>
      have hcard : ({oldest} + s.lost).card = s.lost.card + 1 := by
        rw [Multiset.card_add, Multiset.card_singleton, add_comm]
      show s.lost.card ≤ ({oldest} + s.lost).card ∧ (({oldest} + s.lost).card = s.lost.card ↔ _)
      rw [hcard, hget]
      refine ⟨by omega, fun hsame => by omega, ?_⟩
      intro hempty
      cases hempty rfl
    · next hget => exact ⟨le_refl _, fun _ _ => hget, fun _ => rfl⟩
  · rw [goOn_kept s hphase]
    exact ⟨le_refl _, fun _ hevicting => absurd hevicting hphase, fun _ => rfl⟩

theorem lostAtPutBack_card {event other : Event P} (h : q.hand = .yielding event other) :
    (lostAtPutBack q).card = 0 ↔ q.confirmed.full = false := by
  unfold lostAtPutBack
  rw [h]
  cases q.confirmed.full <;> simp

variable {c : Settings}

theorem step_lost (s : Accounts P) (act : Act P) (t : Accounts P) (h : step c s act = some t) :
    s.lost.card ≤ t.lost.card ∧ (t.lost.card = s.lost.card ↔ Counted s act) := by
  have hkept : t.lost = s.lost → Counted s act →
      s.lost.card ≤ t.lost.card ∧ (t.lost.card = s.lost.card ↔ Counted s act) := by
    intro hlost hcounted
    rw [hlost]
    exact ⟨le_refl _, fun _ => hcounted, fun _ => rfl⟩
  cases act with
  | enqueue item =>
    cases Option.some.inj h
    exact hkept (enqueueEvent_lost c s item) trivial
  | goOn index =>
    unfold step at h
    dsimp only at h
    split at h
    · next call hcall =>
      cases Option.some.inj h
      have hlost := goOn_lost { s with calls := s.calls.eraseIdx index } call
      simpa only [Counted, hcall, Option.mem_some_iff, forall_eq'] using hlost
    · cases h
  | dequeue =>
    obtain ⟨queues, _, rfl⟩ := Option.map_eq_some_iff.mp h
    exact hkept rfl trivial
  | consult =>
    obtain ⟨queues, _, rfl⟩ := Option.map_eq_some_iff.mp h
    exact hkept rfl trivial
  | putBack =>
    obtain ⟨queues, hqueues, rfl⟩ := Option.map_eq_some_iff.mp h
    obtain ⟨event, other, hyielding, _⟩ := SignalQueues.step_putBack hqueues
    have hnone := lostAtPutBack_card hyielding
    show s.lost.card ≤ (lostAtPutBack s.queues + s.lost).card ∧
      ((lostAtPutBack s.queues + s.lost).card = s.lost.card ↔ s.queues.confirmed.full = false)
    rw [Multiset.card_add, ← hnone]
    omega
  | wait =>
    obtain ⟨queues, _, rfl⟩ := Option.map_eq_some_iff.mp h
    exact hkept rfl trivial
  | finish verdict =>
    unfold step at h
    dsimp only at h
    split at h
    · exact hkept (finish_lost h) trivial
    · cases h

/-- At rest the accounts are in order when nothing was lost and nothing is left of an
earlier session. -/
theorem Balanced.accounted_iff (h : Balanced ahead 0 s)
    (hrest : AtRest s) : Accounted s ↔ ahead = 0 ∧ s.lost.card = 0 := by
  have hcarried : carried s.queues = queued s.queues := by
    rw [carried, hrest.hand]
    exact add_zero _
  have hitems := h.items
  rw [hcarried, hrest.calls] at hitems
  have hparts := h.parts
  constructor
  · intro hall
    have hnone := hall.parts
    refine ⟨by omega, ?_⟩
    have hcard := congrArg Multiset.card (hall.classes.symm.trans hitems)
    simp only [Multiset.card_add] at hcard
    omega
  · rintro ⟨hahead, hlost⟩
    refine ⟨?_, h.dropped, by omega⟩
    rw [hitems, Multiset.card_eq_zero.mp hlost]
    show _ + 0 + _ + _ + 0 + 0 = _
    simp only [add_zero]

/-- Whatever the calls and however they alternate: when all of them are over, the
accounts of the session are in order if and only if `_dropped_tick_derived`, which no
start sets back, was zero, and no item was taken out to make room or found none when it
was put back. -/
theorem accounted_iff_counted (c : Settings) (left : Runtime P) (k : Counters)
    (acts : List (Act P)) (s : Accounts P) (hrun : run (step c) (start left k) acts = some s)
    (hrest : AtRest s) :
    Accounted s ↔ k.droppedTickDerived = 0 ∧ Along (step c) Counted (start left k) acts := by
  have hbalanced := run_invariant (step_balanced c) (start_balanced left k) hrun
  obtain ⟨_, halong⟩ := unchanged_iff_along (fun t : Accounts P => t.lost.card) step_lost hrun
  rw [hbalanced.accounted_iff hrest, ← halong]
  rfl

/-- An intrabar snapshot that is stale when it comes out and a bar that is evaluated. -/
theorem accounted_iff_counted_staleTick :
    Accounted
      { queues :=
          { confirmed := .memory []
            confirmedBurstCount := 0
            nonConfirmedTurn := 1
            accepted := [goldBar 1]
            handed := [goldBar 1] }
        counters :=
          { droppedEvents := 1
            processedEvents := 2
            runCount := 1
            intrabarStaleDrops := 1 }
        enqueued := {goldBar 1} + {goldTick}
        completed := {goldBar 1}
        discarded := {goldTick} } :=
  (accounted_iff_counted {} { confirmed := .memory [] } {}
    [.enqueue goldTick, .enqueue (goldBar 1), .dequeue, .finish .evaluated, .dequeue,
      .finish .stale]
    _ rfl ⟨rfl, rfl⟩).mpr
    ⟨rfl, by decide +kernel⟩

/-- The acts of a call that nothing interrupts. -/
def undisturbed (c : Settings) (s : Accounts P) (item : Event P) : List (Act P) :=
  match putNowait s.queues item with
  | some _ => [.enqueue item]
  | none =>
    if item.scope = .confirmed then [.enqueue item, .goOn s.calls.length]
    else if c.coordinator then
      [.enqueue item, .goOn s.calls.length, .goOn s.calls.length, .goOn s.calls.length]
    else [.enqueue item]

theorem enqueueEvent_of_put (c : Settings)
    (h : putNowait q item = some r) : SignalQueues.enqueueEvent c q item = r := by
  unfold putNowait at h
  unfold SignalQueues.enqueueEvent
  cases hscope : item.scope with
  | confirmed =>
    rw [hscope] at h
    obtain ⟨queue, hput, rfl⟩ := Option.map_eq_some_iff.mp h
    dsimp only
    rw [hput]
  | intrabar =>
    simp only [hscope] at h
    split_ifs at h with hroom
    cases Option.some.inj h
    simp only [putDroppable, if_pos hroom]
  | tickDerived =>
    simp only [hscope] at h
    split_ifs at h with hroom
    cases Option.some.inj h
    simp only [putDroppable, if_pos hroom]

theorem enqueueEvent_of_full
    (h : putNowait q item = none) (hstays : item.scope = .confirmed ∨ c.coordinator = false) :
    SignalQueues.enqueueEvent c q item = q := by
  unfold putNowait at h
  unfold SignalQueues.enqueueEvent
  cases hscope : item.scope with
  | confirmed =>
    rw [hscope] at h
    dsimp only
    rw [Option.map_eq_none_iff.mp h]
  | intrabar =>
    simp only [hscope] at h
    split_ifs at h with hroom
    have hcoordinator : c.coordinator = false := by simpa [hscope] using hstays
    simp [putDroppable, if_neg hroom, hcoordinator]
  | tickDerived =>
    simp only [hscope] at h
    split_ifs at h with hroom
    have hcoordinator : c.coordinator = false := by simpa [hscope] using hstays
    simp [putDroppable, if_neg hroom, hcoordinator]

/-- Without its oldest item a full droppable queue has room for one. -/
theorem putDroppable_of_full {items : List (Event P)} (item : Event P)
    (hfull : items.length = droppableMaxsize) (hcoordinator : c.coordinator = true) :
    ∃ oldest rest, items = oldest :: rest ∧ rest.length < droppableMaxsize ∧
      putDroppable c items item = rest ++ [item] := by
  have hmax : 0 < droppableMaxsize := by decide
  have hroom : ¬ items.length < droppableMaxsize := by omega
  cases items with
  | nil =>
    rw [List.length_nil] at hfull
    omega
  | cons oldest rest =>
    refine ⟨oldest, rest, rfl, ?_, ?_⟩
    · rw [List.length_cons] at hfull
      omega
    · rw [putDroppable, if_neg hroom, if_pos hcoordinator, List.drop_one, List.tail_cons]

/-- The droppable queues hold no more than they may. -/
structure Fits (q : Runtime P) : Prop where
  intrabar : q.intrabar.length ≤ droppableMaxsize
  tickDerived : q.tickDerived.length ≤ droppableMaxsize

theorem enqueueEvent_of_evicted (hfits : Fits q)
    (h : putNowait q item = none) (hscope : item.scope ≠ .confirmed)
    (hcoordinator : c.coordinator = true) :
    ∃ oldest rest, getNowait q item.scope = some (oldest, rest) ∧
      putNowait rest item = some (SignalQueues.enqueueEvent c q item) := by
  unfold putNowait at h ⊢
  unfold SignalQueues.enqueueEvent
  cases hitem : item.scope with
  | confirmed => exact absurd hitem hscope
  | intrabar =>
    simp only [hitem] at h
    split_ifs at h with hroom
    obtain ⟨oldest, rest, hqueue, hless, hput⟩ :=
      putDroppable_of_full item (Nat.le_antisymm hfits.intrabar (not_lt.mp hroom)) hcoordinator
    refine ⟨oldest, { q with intrabar := rest }, ?_, ?_⟩
    · simp only [getNowait, takeIntrabar, hqueue, List.head?_cons, Option.map_some, List.tail_cons]
    · simp only [if_pos hless, hput]
  | tickDerived =>
    simp only [hitem] at h
    split_ifs at h with hroom
    obtain ⟨oldest, rest, hqueue, hless, hput⟩ :=
      putDroppable_of_full item (Nat.le_antisymm hfits.tickDerived (not_lt.mp hroom)) hcoordinator
    refine ⟨oldest, { q with tickDerived := rest }, ?_, ?_⟩
    · simp only [getNowait, takeTickDerived, hqueue, List.head?_cons, Option.map_some,
        List.tail_cons]
    · simp only [if_pos hless, hput]

/-- Such a call does to the queues what the atomic `SignalQueues.enqueueEvent` does. A full
droppable queue loses its oldest item when a coordinator is set. -/
theorem undisturbed_spec (c : Settings) (s : Accounts P) (item : Event P) (hfits : Fits s.queues) :
    ∃ t, run (step c) s (undisturbed c s item) = some t ∧
      t.queues = SignalQueues.enqueueEvent c s.queues item ∧ t.calls = s.calls ∧
      t.lost.card = s.lost.card +
        if putNowait s.queues item = none ∧ item.scope ≠ .confirmed ∧ c.coordinator = true
        then 1 else 0 := by
  have hlast : ∀ call : Call P, (s.calls ++ [call])[s.calls.length]? = some call :=
    fun call => List.getElem?_concat_length
  have herase : ∀ call : Call P, (s.calls ++ [call]).eraseIdx s.calls.length = s.calls := by
    intro call
    rw [List.eraseIdx_append_of_length_le (le_refl _), Nat.sub_self]
    exact List.append_nil s.calls
  unfold undisturbed
  cases hput : putNowait s.queues item with
  | some queues =>
    refine ⟨_, rfl, ?_, ?_, ?_⟩
    · simp only [enqueueEvent, hput, enqueueEvent_of_put c hput]
    · simp only [enqueueEvent, hput]
    · simp [enqueueEvent_lost]
  | none =>
    by_cases hscope : item.scope = .confirmed
    · simp only [hscope, if_true, run, step, enqueueEvent, hput, await, Option.bind_some, hlast,
        herase, goOn]
      refine ⟨_, rfl, ?_, ?_, ?_⟩
      · exact (enqueueEvent_of_full hput (.inl hscope)).symm
      · rfl
      · simp [drop]
    · by_cases hcoordinator : c.coordinator = true
      · obtain ⟨oldest, rest, hget, hagain⟩ := enqueueEvent_of_evicted hfits hput hscope hcoordinator
        simp only [hscope, if_false, hcoordinator, if_true, run, step, enqueueEvent, hput, await,
          Option.bind_some, hlast, herase, goOn, hget, hagain]
        refine ⟨_, rfl, rfl, rfl, ?_⟩
        simp [hscope, add_comm]
      · have hnone : c.coordinator = false := by simpa using hcoordinator
        have hdropped : enqueueEvent c s item =
            drop { s with enqueued := {item} + s.enqueued } item := by
          simp only [enqueueEvent, hput, hscope, if_false, if_neg hcoordinator]
        simp only [hscope, if_false, hcoordinator]
        refine ⟨enqueueEvent c s item, rfl, ?_, ?_, ?_⟩
        · rw [hdropped]
          exact (enqueueEvent_of_full hput (.inr hnone)).symm
        · rw [hdropped]
          rfl
        · rw [enqueueEvent_lost]
          simp

/-- A droppable queue with room takes every snapshot. -/
theorem run_enqueue_room (c : Settings) (item : Event P) (hitem : item.scope = .intrabar)
    (count : ℕ) (s : Accounts P) (hroom : s.queues.intrabar.length + count ≤ droppableMaxsize) :
    ∃ t, run (step c) s (List.replicate count (.enqueue item)) = some t ∧
      t.queues = { s.queues with
        intrabar := s.queues.intrabar ++ List.replicate count item } ∧ t.calls = s.calls := by
  induction count generalizing s with
  | zero =>
    refine ⟨s, rfl, ?_, rfl⟩
    rw [List.replicate_zero, List.append_nil]
  | succ count ih =>
    have hless : s.queues.intrabar.length < droppableMaxsize := by omega
    have hput : putNowait s.queues item =
        some { s.queues with intrabar := s.queues.intrabar ++ [item] } := by
      simp only [putNowait, hitem, if_pos hless]
    have hnext : enqueueEvent c s item = { s with
        enqueued := {item} + s.enqueued
        queues := { s.queues with intrabar := s.queues.intrabar ++ [item] } } := by
      simp only [enqueueEvent, hput]
    obtain ⟨t, hrun, hqueues, hcalls⟩ := ih (enqueueEvent c s item) (by
      rw [hnext]
      show (s.queues.intrabar ++ [item]).length + count ≤ droppableMaxsize
      rw [List.length_append, List.length_singleton]
      omega)
    refine ⟨t, ?_, ?_, ?_⟩
    · rw [List.replicate_succ, run, step, Option.bind_some]
      exact hrun
    · rw [hqueues, hnext, List.replicate_succ]
      simp only [List.append_assoc, List.singleton_append]
    · rw [hcalls, hnext]

/-- The snapshot that comes when the queue is full takes the place of the oldest one, which
no counter knows of. -/
theorem not_accounted :
    ¬ ∀ (c : Settings) (left : Runtime ℕ) (k : Counters) (acts : List (Act ℕ)) (s : Accounts ℕ),
      run (step c) (start left k) acts = some s → AtRest s → Accounted s := by
  intro hall
  let c : Settings := { coordinator := true }
  let fresh : Accounts ℕ := start { confirmed := .memory [] } {}
  obtain ⟨full, hfill, hqueues, hcalls⟩ :=
    run_enqueue_room c goldTick rfl droppableMaxsize fresh (le_of_eq (Nat.zero_add _))
  have hlength : full.queues.intrabar.length = droppableMaxsize := by
    rw [hqueues]
    show ([] ++ List.replicate droppableMaxsize goldTick).length = droppableMaxsize
    rw [List.nil_append, List.length_replicate]
  have hfits : Fits full.queues := by
    refine ⟨le_of_eq hlength, ?_⟩
    rw [hqueues]
    exact Nat.zero_le _
  have hput : putNowait full.queues goldTick = none := by
    simp only [putNowait, goldTick, hlength, lt_irrefl, if_false]
  obtain ⟨last, hcall, hlast, hnone, hlost⟩ := undisturbed_spec c full goldTick hfits
  have hrun : run (step c) fresh
      (List.replicate droppableMaxsize (.enqueue goldTick) ++ undisturbed c full goldTick) =
        some last := by
    rw [run_append, hfill, Option.bind_some]
    exact hcall
  have hidle : last.queues.hand = .idle := by
    obtain ⟨oldest, rest, hget, hagain⟩ := enqueueEvent_of_evicted hfits hput (by decide)
      (c := c) rfl
    rw [hlast, (putNowait_queued hagain).2, (getNowait_queued hget).2, hqueues]
    rfl
  have hrest : AtRest last := ⟨hnone.trans hcalls, hidle⟩
  have hbalanced := run_invariant (step_balanced c) (start_balanced _ _) hrun
  have hzero := ((hbalanced.accounted_iff hrest).mp (hall c _ _ _ last hrun hrest)).2
  rw [hlost, if_pos ⟨hput, by decide, rfl⟩] at hzero
  omega

end MT5Services.EventAccounts
