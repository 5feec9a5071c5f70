import MT5Services.Runs
import MT5Services.WalQueue
import Mathlib.Data.List.Basic

/-!
The three event queues of the signal runtime: confirmed bars, in memory or durable, and
the droppable queues of intrabar and tick-derived snapshots. `dequeue_event` takes
confirmed events first, but after a burst of them it lets one other event pass and puts
the confirmed event back. Producers may run between any two accesses to a queue, so the
consumer is a small state machine.
-/
namespace MT5Services.SignalQueues

open Runs WalQueue

inductive Scope
  | confirmed
  | intrabar
  | tickDerived
  deriving DecidableEq, Repr

structure Event (P : Type*) where
  scope : Scope
  symbol : String
  timeframe : String
  payload : P
  deriving DecidableEq, Repr

variable {P : Type*}

/-- The queue of confirmed events, without or with a path for the WAL. -/
inductive ConfirmedQueue (P : Type*)
  | memory (items : List (Event P))
  | wal (table : WalSignalQueue (Event P))
  deriving DecidableEq

def confirmedMaxsize : ℕ := 4096

def droppableMaxsize : ℕ := 8192

namespace ConfirmedQueue

def contents : ConfirmedQueue P → List (Event P)
  | .memory items => items
  | .wal table => table.pending.map Prod.snd

/-- The durable queue is unbounded. -/
def full : ConfirmedQueue P → Bool
  | .memory items => confirmedMaxsize ≤ items.length
  | .wal _ => false

/-- `none` for `queue.Full`. -/
def putNowait (q : ConfirmedQueue P) (event : Event P) : Option (ConfirmedQueue P) :=
  if q.full then none
  else
    match q with
    | .memory items => some (.memory (items ++ [event]))
    | .wal table => some (.wal (table.putNowait event))

/-- `none` for `queue.Empty`. -/
def getNowait : ConfirmedQueue P → Option (Event P × ConfirmedQueue P)
  | .memory [] => none
  | .memory (event :: rest) => some (event, .memory rest)
  | .wal table => table.getNowait.map fun taken => (taken.1.2, .wal taken.2)

/-- Both queues hand out their contents from the front. -/
theorem getNowait_spec (q : ConfirmedQueue P) :
    (q.getNowait = none ∧ q.contents = []) ∨
      ∃ event rest, q.getNowait = some (event, rest) ∧ q.contents = event :: rest.contents := by
  cases q with
  | memory items =>
    cases items with
    | nil => exact .inl ⟨rfl, rfl⟩
    | cons event rest => exact .inr ⟨event, .memory rest, rfl, rfl⟩
  | wal table =>
    rcases table.getNowait_spec with ⟨hget, hnil⟩ | ⟨entry, rest, hget, hcons⟩
    · refine .inl ⟨?_, ?_⟩
      · rw [getNowait, hget, Option.map_none]
      · rw [contents, hnil, List.map_nil]
    · refine .inr ⟨entry.2, .wal rest, ?_, ?_⟩
      · rw [getNowait, hget, Option.map_some]
      · rw [contents, hcons, List.map_cons, contents]

/-- All that the queue keeps, rows in flight included. -/
def stored : ConfirmedQueue P → List (Event P)
  | .memory items => items
  | .wal table => table.entries.map Prod.snd

theorem getNowait_stored {q rest : ConfirmedQueue P} {event : Event P}
    (h : q.getNowait = some (event, rest)) : event ∈ q.stored ∧ rest.stored ⊆ q.stored := by
  cases q with
  | memory items =>
    cases items with
    | nil => cases h
    | cons first others =>
      cases Option.some.inj h
      exact ⟨List.mem_cons_self, List.subset_cons_self event others⟩
  | wal table =>
    obtain ⟨⟨entry, left⟩, hget, hmap⟩ := Option.map_eq_some_iff.mp h
    cases hmap
    obtain ⟨hmem, hsub⟩ := WalSignalQueue.getNowait_entries hget
    exact ⟨List.mem_map_of_mem hmem, List.map_subset Prod.snd hsub⟩

theorem putNowait_stored {q rest : ConfirmedQueue P} {event : Event P}
    (h : q.putNowait event = some rest) : rest.stored = q.stored ++ [event] := by
  unfold putNowait at h
  split_ifs at h
  cases q with
  | memory items =>
    cases Option.some.inj h
    rfl
  | wal table =>
    cases Option.some.inj h
    rw [stored, WalSignalQueue.entries_putNowait, List.map_append, stored]
    rfl

theorem putNowait_of_full {q : ConfirmedQueue P} (event : Event P) (h : q.full = true) :
    q.putNowait event = none := if_pos h

theorem putNowait_of_room {q : ConfirmedQueue P} (event : Event P) (h : q.full = false) :
    ∃ rest, q.putNowait event = some rest ∧ rest.contents = q.contents ++ [event] := by
  have hroom : ¬ q.full = true := by rw [h]; exact Bool.false_ne_true
  cases q with
  | memory items => exact ⟨.memory (items ++ [event]), if_neg hroom, rfl⟩
  | wal table =>
    refine ⟨.wal (table.putNowait event), if_neg hroom, ?_⟩
    rw [contents, WalSignalQueue.pending_putNowait, List.map_append, contents]
    rfl

end ConfirmedQueue

/-- Where the consumer stands between two accesses to a queue. -/
inductive Hand (P : Type*)
  | idle
  /-- The burst limit is reached with this confirmed event taken out. -/
  | deciding (event : Event P)
  /-- Another event passes; the confirmed one is still to be put back. -/
  | yielding (event other : Event P)
  /-- Nothing was queued: a blocking read of the droppable queues. -/
  | waiting
  /-- `dequeue_event` has returned and `process_next_event` works on the event. -/
  | processing (event : Event P)
  deriving DecidableEq, Repr

structure Settings where
  burstLimit : ℕ := 5
  /-- An intrabar coordinator is set: a full droppable queue loses its oldest event. -/
  coordinator : Bool := false
  deriving DecidableEq, Repr

/-- The queues and counters, with the confirmed events accepted and handed out so far. -/
structure Runtime (P : Type*) where
  confirmed : ConfirmedQueue P
  intrabar : List (Event P) := []
  tickDerived : List (Event P) := []
  confirmedBurstCount : ℕ := 0
  nonConfirmedTurn : ℕ := 0
  hand : Hand P := .idle
  accepted : List (Event P) := []
  handed : List (Event P) := []
  deriving DecidableEq

/-- A start over any queue, which may hold events of an earlier session, and with any
burst counter. -/
def start (queue : ConfirmedQueue P) (burst turn : ℕ) : Runtime P :=
  { confirmed := queue
    confirmedBurstCount := burst
    nonConfirmedTurn := turn
    accepted := queue.contents }

def putDroppable (c : Settings) (items : List (Event P)) (event : Event P) : List (Event P) :=
  if items.length < droppableMaxsize then items ++ [event]
  else if c.coordinator then items.drop 1 ++ [event]
  else items

/-- The moment a producer's put succeeds or is given up. -/
def enqueueEvent (c : Settings) (s : Runtime P) (event : Event P) : Runtime P :=
  match event.scope with
  | .confirmed =>
    match s.confirmed.putNowait event with
    | some queue => { s with confirmed := queue, accepted := s.accepted ++ [event] }
    | none => s
  | .intrabar => { s with intrabar := putDroppable c s.intrabar event }
  | .tickDerived => { s with tickDerived := putDroppable c s.tickDerived event }

def takeIntrabar (s : Runtime P) : Option (Event P × Runtime P) :=
  s.intrabar.head?.map fun event => (event, { s with intrabar := s.intrabar.tail })

def takeTickDerived (s : Runtime P) : Option (Event P × Runtime P) :=
  s.tickDerived.head?.map fun event => (event, { s with tickDerived := s.tickDerived.tail })

/-- The droppable queues take turns in being asked first. -/
def dequeueNonConfirmedNowait (s : Runtime P) : Option (Event P) × Runtime P :=
  let asked := { s with nonConfirmedTurn := s.nonConfirmedTurn + 1 }
  let found := if s.nonConfirmedTurn % 2 = 0 then takeIntrabar asked <|> takeTickDerived asked
    else takeTickDerived asked <|> takeIntrabar asked
  match found with
  | some (event, rest) => (some event, rest)
  | none => (none, asked)

/-- `dequeue_event` returns a confirmed event. -/
def handOut (s : Runtime P) (event : Event P) : Runtime P :=
  { s with hand := .processing event, handed := s.handed ++ [event] }

inductive Act (P : Type*)
  | enqueue (event : Event P)
  /-- The read of the confirmed queue, and of the others when it is empty. -/
  | dequeue
  /-- At the burst limit: is there another event? -/
  | consult
  | putBack
  /-- The blocking read ends. -/
  | wait
  | finish
  deriving DecidableEq, Repr

def dequeue (c : Settings) (s : Runtime P) : Runtime P :=
  match s.confirmed.getNowait with
  | some (event, queue) =>
    let burst := s.confirmedBurstCount + 1
    if c.burstLimit ≤ burst then
      { s with confirmed := queue, confirmedBurstCount := 0, hand := .deciding event }
    else handOut { s with confirmed := queue, confirmedBurstCount := burst } event
  | none =>
    match dequeueNonConfirmedNowait { s with confirmedBurstCount := 0 } with
    | (some other, rest) => { rest with hand := .processing other }
    | (none, rest) => { rest with hand := .waiting }

def consult (s : Runtime P) (event : Event P) : Runtime P :=
  match dequeueNonConfirmedNowait s with
  | (some other, rest) => { rest with hand := .yielding event other }
  | (none, rest) => handOut rest event

/-- A full queue drops the event with a warning only. -/
def putBack (s : Runtime P) (event other : Event P) : Runtime P :=
  match s.confirmed.putNowait event with
  | some queue => { s with confirmed := queue, hand := .processing other }
  | none => { s with hand := .processing other }

def wait (s : Runtime P) : Runtime P :=
  match dequeueNonConfirmedNowait s with
  | (some other, rest) => { rest with hand := .processing other }
  | (none, rest) => { rest with hand := .idle }

def step (c : Settings) (s : Runtime P) : Act P → Option (Runtime P)
  | .enqueue event => some (enqueueEvent c s event)
  | .dequeue =>
    match s.hand with
    | .idle => some (dequeue c s)
    | _ => none
  | .consult =>
    match s.hand with
    | .deciding event => some (consult s event)
    | _ => none
  | .putBack =>
    match s.hand with
    | .yielding event other => some (putBack s event other)
    | _ => none
  | .wait =>
    match s.hand with
    | .waiting => some (wait s)
    | _ => none
  | .finish =>
    match s.hand with
    | .processing _ => some { s with hand := .idle }
    | _ => none

/-- The confirmed event that is out of the queue and not handed out. -/
def Hand.held : Hand P → List (Event P)
  | .deciding event => [event]
  | .yielding event _ => [event]
  | .idle | .waiting | .processing _ => []

def ofTarget (symbol timeframe : String) (events : List (Event P)) : List (Event P) :=
  events.filter fun event => event.symbol = symbol ∧ event.timeframe = timeframe

/-- Confirmed events reach the evaluation in the order of their acceptance, each at most
once, and none is lost. -/
structure Orderly [DecidableEq P] (s : Runtime P) : Prop where
  in_order : ∀ symbol timeframe,
    ofTarget symbol timeframe s.handed <+: ofTarget symbol timeframe s.accepted
  none_lost : ∀ event, s.accepted.count event =
    s.handed.count event + s.hand.held.count event + s.confirmed.contents.count event

/-- An event is put back only when it goes to the end of its own line anyway, and while
there is room. -/
def PutsBackInPlace (s : Runtime P) (act : Act P) : Prop :=
  act = .putBack → s.confirmed.full = false ∧
    ∀ held ∈ s.hand.held, ∀ queued ∈ s.confirmed.contents,
      ¬ (queued.symbol = held.symbol ∧ queued.timeframe = held.timeframe)

/-- For every target the events handed out, held and queued are the accepted ones. -/
def InLine (s : Runtime P) : Prop :=
  ∀ symbol timeframe,
    ofTarget symbol timeframe (s.handed ++ s.hand.held ++ s.confirmed.contents) =
      ofTarget symbol timeframe s.accepted

instance (s : Runtime P) (act : Act P) [DecidableEq P] : Decidable (PutsBackInPlace s act) :=
  inferInstanceAs (Decidable (act = .putBack → s.confirmed.full = false ∧
    ∀ held ∈ s.hand.held, ∀ queued ∈ s.confirmed.contents,
      ¬ (queued.symbol = held.symbol ∧ queued.timeframe = held.timeframe)))

theorem ofTarget_append (symbol timeframe : String) (front back : List (Event P)) :
    ofTarget symbol timeframe (front ++ back) =
      ofTarget symbol timeframe front ++ ofTarget symbol timeframe back :=
  List.filter_append front back

theorem count_ofTarget [DecidableEq P] (event : Event P) (events : List (Event P)) :
    (ofTarget event.symbol event.timeframe events).count event = events.count event := by
  apply List.count_filter
  simp

variable {s : Runtime P}

theorem InLine.orderly [DecidableEq P] (h : InLine s) : Orderly s where
  in_order := by
    intro symbol timeframe
    rw [← h symbol timeframe, List.append_assoc, ofTarget_append]
    exact List.prefix_append _ _
  none_lost := by
    intro event
    rw [← count_ofTarget event s.accepted, ← h event.symbol event.timeframe, count_ofTarget,
      List.count_append, List.count_append]

/-- Only these parts of the state matter for the line of a target. -/
theorem InLine.of_same (h : InLine s) (t : Runtime P)
    (hline : t.handed ++ t.hand.held ++ t.confirmed.contents =
      s.handed ++ s.hand.held ++ s.confirmed.contents)
    (haccepted : t.accepted = s.accepted) : InLine t := by
  intro symbol timeframe
  rw [hline, haccepted]
  exact h symbol timeframe

/-- The two states agree on the confirmed events. -/
structure SameConfirmed (s t : Runtime P) : Prop where
  confirmed : t.confirmed = s.confirmed
  accepted : t.accepted = s.accepted
  handed : t.handed = s.handed

/-- One of the droppable queues gives its first event, or neither has one. -/
theorem dequeueNonConfirmedNowait_cases (s : Runtime P) :
    (∃ event items, s.intrabar = event :: items ∧ dequeueNonConfirmedNowait s =
      (some event, { s with intrabar := items, nonConfirmedTurn := s.nonConfirmedTurn + 1 })) ∨
    (∃ event items, s.tickDerived = event :: items ∧ dequeueNonConfirmedNowait s =
      (some event, { s with tickDerived := items, nonConfirmedTurn := s.nonConfirmedTurn + 1 })) ∨
    dequeueNonConfirmedNowait s =
      (none, { s with nonConfirmedTurn := s.nonConfirmedTurn + 1 }) := by
  unfold dequeueNonConfirmedNowait takeIntrabar takeTickDerived
  dsimp only
  cases hintrabar : s.intrabar with
  | nil =>
    cases hticks : s.tickDerived with
    | nil => exact .inr (.inr (by simp))
    | cons event items => exact .inr (.inl ⟨event, items, rfl, by simp⟩)
  | cons event items =>
    cases hticks : s.tickDerived with
    | nil => exact .inl ⟨event, items, rfl, by simp⟩
    | cons tick ticks =>
      split_ifs
      · exact .inl ⟨event, items, rfl, by simp⟩
      · exact .inr (.inl ⟨tick, ticks, rfl, by simp⟩)

variable {rest : Runtime P} {found : Option (Event P)}

theorem dequeueNonConfirmedNowait_same
    (h : dequeueNonConfirmedNowait s = (found, rest)) : SameConfirmed s rest := by
  rcases dequeueNonConfirmedNowait_cases s with ⟨_, _, _, heq⟩ | ⟨_, _, _, heq⟩ | heq
  all_goals
    cases h.symm.trans heq
    exact ⟨rfl, rfl, rfl⟩

/-- The consumer goes on with the same confirmed event in hand, or with none. -/
theorem InLine.goOn (h : InLine s) (hsame : SameConfirmed s rest)
    (hand : Hand P) (hheld : hand.held = s.hand.held) : InLine { rest with hand := hand } := by
  apply h.of_same
  · show rest.handed ++ hand.held ++ rest.confirmed.contents = _
    rw [hsame.handed, hsame.confirmed, hheld]
  · exact hsame.accepted

/-- The event handed out was the next one in line. -/
theorem InLine.handOut (h : InLine s) (t : Runtime P) (event : Event P)
    (hline : t.handed ++ event :: t.confirmed.contents =
      s.handed ++ s.hand.held ++ s.confirmed.contents)
    (haccepted : t.accepted = s.accepted) : InLine (SignalQueues.handOut t event) := by
  refine h.of_same _ ?_ haccepted
  show t.handed ++ [event] ++ [] ++ t.confirmed.contents = _
  rw [← hline, List.append_nil, List.append_assoc, List.singleton_append]

theorem enqueueEvent_inLine (c : Settings) (h : InLine s) (event : Event P) :
    InLine (enqueueEvent c s event) := by
  unfold enqueueEvent
  cases event.scope with
  | confirmed =>
    cases hfull : s.confirmed.full with
    | true =>
      rw [ConfirmedQueue.putNowait_of_full event hfull]
      exact h
    | false =>
      obtain ⟨queue, hput, hcontents⟩ := ConfirmedQueue.putNowait_of_room event hfull
      rw [hput]
      intro symbol timeframe
      show ofTarget symbol timeframe (s.handed ++ s.hand.held ++ queue.contents) =
        ofTarget symbol timeframe (s.accepted ++ [event])
      rw [hcontents, ← List.append_assoc, ofTarget_append, h symbol timeframe, ofTarget_append]
  | intrabar => exact h.of_same _ rfl rfl
  | tickDerived => exact h.of_same _ rfl rfl

theorem dequeue_inLine (c : Settings) (h : InLine s) (hidle : s.hand = .idle) :
    InLine (dequeue c s) := by
  have hheld : s.hand.held = [] := by rw [hidle]; rfl
  unfold dequeue
  rcases s.confirmed.getNowait_spec with ⟨hget, _⟩ | ⟨event, queue, hget, hcons⟩
  · rw [hget]
    have hreset : InLine { s with confirmedBurstCount := 0 } := h.of_same _ rfl rfl
    dsimp only
    split
    · next other rest hfound =>
      exact hreset.goOn (dequeueNonConfirmedNowait_same hfound) (.processing other) hheld.symm
    · next rest hfound =>
      exact hreset.goOn (dequeueNonConfirmedNowait_same hfound) .waiting hheld.symm
  · rw [hget]
    dsimp only
    split_ifs
    · refine h.of_same _ ?_ rfl
      show s.handed ++ [event] ++ queue.contents = _
      rw [hheld, hcons, List.append_nil, List.append_assoc, List.singleton_append]
    · refine h.handOut _ event ?_ rfl
      rw [hheld, hcons, List.append_nil]

theorem consult_inLine (h : InLine s) {event : Event P}
    (hdeciding : s.hand = .deciding event) : InLine (consult s event) := by
  have hheld : s.hand.held = [event] := by rw [hdeciding]; rfl
  unfold consult
  split
  · next other rest hfound =>
    exact h.goOn (dequeueNonConfirmedNowait_same hfound) (.yielding event other) hheld.symm
  · next rest hfound =>
    have hsame := dequeueNonConfirmedNowait_same hfound
    refine h.handOut _ event ?_ hsame.accepted
    rw [hsame.handed, hsame.confirmed, hheld, List.append_assoc, List.singleton_append]

/-- At the end of the queue the event keeps its place among its own target's only when
none of them is queued. -/
theorem putBack_inLine (h : InLine s) {event other : Event P}
    (hyielding : s.hand = .yielding event other) (hroom : s.confirmed.full = false)
    (halone : ∀ queued ∈ s.confirmed.contents,
      ¬ (queued.symbol = event.symbol ∧ queued.timeframe = event.timeframe)) :
    InLine (putBack s event other) := by
  have hheld : s.hand.held = [event] := by rw [hyielding]; rfl
  obtain ⟨queue, hput, hcontents⟩ := ConfirmedQueue.putNowait_of_room event hroom
  unfold putBack
  rw [hput]
  intro symbol timeframe
  show ofTarget symbol timeframe (s.handed ++ [] ++ queue.contents) = _
  have hline := h symbol timeframe
  rw [hheld] at hline
  rw [← hline, hcontents, List.append_nil, List.append_assoc]
  simp only [ofTarget_append]
  congr 1
  by_cases hown : event.symbol = symbol ∧ event.timeframe = timeframe
  · have hnone : ofTarget symbol timeframe s.confirmed.contents = [] := by
      apply List.filter_eq_nil_iff.mpr
      intro queued hqueued hsame
      have hsame := of_decide_eq_true hsame
      exact halone queued hqueued ⟨hsame.1.trans hown.1.symm, hsame.2.trans hown.2.symm⟩
    rw [hnone, List.nil_append, List.append_nil]
  · have hskip : ofTarget symbol timeframe [event] = [] := by
      simp [ofTarget, hown]
    rw [hskip, List.append_nil, List.nil_append]

theorem wait_inLine (h : InLine s) (hwaiting : s.hand = .waiting) : InLine (wait s) := by
  have hheld : s.hand.held = [] := by rw [hwaiting]; rfl
  unfold wait
  split
  · next other rest hfound =>
    exact h.goOn (dequeueNonConfirmedNowait_same hfound) (.processing other) hheld.symm
  · next rest hfound =>
    exact h.goOn (dequeueNonConfirmedNowait_same hfound) .idle hheld.symm

variable {c : Settings} {t : Runtime P}

theorem step_dequeue (h : step c s .dequeue = some t) : s.hand = .idle ∧ t = dequeue c s := by
  unfold step at h
  dsimp only at h
  split at h
  · next hidle => exact ⟨hidle, (Option.some.inj h).symm⟩
  · cases h

theorem step_consult (h : step c s .consult = some t) :
    ∃ event, s.hand = .deciding event ∧ t = consult s event := by
  unfold step at h
  dsimp only at h
  split at h
  · next event hdeciding => exact ⟨event, hdeciding, (Option.some.inj h).symm⟩
  · cases h

theorem step_putBack (h : step c s .putBack = some t) :
    ∃ event other, s.hand = .yielding event other ∧ t = putBack s event other := by
  unfold step at h
  dsimp only at h
  split at h
  · next event other hyielding => exact ⟨event, other, hyielding, (Option.some.inj h).symm⟩
  · cases h

theorem step_wait (h : step c s .wait = some t) : s.hand = .waiting ∧ t = wait s := by
  unfold step at h
  dsimp only at h
  split at h
  · next hwaiting => exact ⟨hwaiting, (Option.some.inj h).symm⟩
  · cases h

theorem step_finish (h : step c s .finish = some t) :
    ∃ event, s.hand = .processing event ∧ t = { s with hand := .idle } := by
  unfold step at h
  dsimp only at h
  split at h
  · next event hprocessing => exact ⟨event, hprocessing, (Option.some.inj h).symm⟩
  · cases h

theorem step_inLine (c : Settings) (s : Runtime P) (act : Act P) (t : Runtime P) (h : InLine s)
    (hguard : PutsBackInPlace s act) (hstep : step c s act = some t) : InLine t := by
  cases act with
  | enqueue event =>
    cases Option.some.inj hstep
    exact enqueueEvent_inLine c h event
  | dequeue =>
    obtain ⟨hidle, rfl⟩ := step_dequeue hstep
    exact dequeue_inLine c h hidle
  | consult =>
    obtain ⟨event, hdeciding, rfl⟩ := step_consult hstep
    exact consult_inLine h hdeciding
  | putBack =>
    obtain ⟨event, other, hyielding, rfl⟩ := step_putBack hstep
    obtain ⟨hroom, halone⟩ := hguard rfl
    apply putBack_inLine h hyielding hroom
    apply halone event
    rw [hyielding]
    exact List.mem_singleton_self event
  | wait =>
    obtain ⟨hwaiting, rfl⟩ := step_wait hstep
    exact wait_inLine h hwaiting
  | finish =>
    obtain ⟨event, hprocessing, rfl⟩ := step_finish hstep
    refine h.of_same _ ?_ rfl
    rw [hprocessing]
    rfl

theorem start_inLine (queue : ConfirmedQueue P) (burst turn : ℕ) :
    InLine (start queue burst turn) := by
  intro symbol timeframe
  rfl

/-- As long as events are put back in place, confirmed events reach the evaluation in
order, once, and none is lost, whatever the burst counter and the producers do. -/
theorem confirmed_orderly [DecidableEq P] (c : Settings) (queue : ConfirmedQueue P)
    (burst turn : ℕ) (acts front back : List (Act P))
    (hinPlace : Along (step c) PutsBackInPlace (start queue burst turn) acts)
    (hacts : acts = front ++ back) (s : Runtime P)
    (hrun : run (step c) (start queue burst turn) front = some s) : Orderly s := by
  rw [hacts] at hinPlace
  have hinvariant := run_invariant_along (step_inLine c) (start_inLine queue burst turn)
    (along_front hinPlace) hrun
  exact hinvariant.orderly

def goldBar (payload : ℕ) : Event ℕ := ⟨.confirmed, "XAUUSD", "M5", payload⟩

def euroBar : Event ℕ := ⟨.confirmed, "EURUSD", "M5", 0⟩

def goldTick : Event ℕ := ⟨.intrabar, "XAUUSD", "M5", 0⟩

/-- Two targets over the durable queue: the bar put back has no other of its own behind
it. -/
def twoTargets : List (Act ℕ) :=
  [.enqueue (goldBar 1), .enqueue (goldBar 2), .enqueue euroBar, .enqueue goldTick, .dequeue,
    .finish, .dequeue, .consult, .putBack, .finish, .dequeue, .finish, .dequeue, .consult]

theorem confirmed_orderly_twoTargets :
    Orderly
      { confirmed := .wal ⟨[], 4, by decide, by decide⟩
        nonConfirmedTurn := 2
        hand := .processing (goldBar 2)
        accepted := [goldBar 1, goldBar 2, euroBar]
        handed := [goldBar 1, euroBar, goldBar 2] } :=
  confirmed_orderly { burstLimit := 2 } (.wal .empty) 0 0 twoTargets twoTargets []
    (by decide +kernel) (List.append_nil _).symm _ (by decide +kernel)

/-- Six bars of one target and one intrabar snapshot: the fifth bar is put back behind
the sixth. -/
def burst : List (Act ℕ) :=
  [.enqueue (goldBar 1), .enqueue (goldBar 2), .enqueue (goldBar 3), .enqueue (goldBar 4),
    .enqueue (goldBar 5), .enqueue (goldBar 6), .enqueue goldTick, .dequeue, .finish, .dequeue,
    .finish, .dequeue, .finish, .dequeue, .finish, .dequeue, .consult, .putBack, .finish, .dequeue]

theorem burst_overtakes :
    ¬ ∀ (c : Settings) (queue : ConfirmedQueue ℕ) (count turn : ℕ) (acts front back : List (Act ℕ))
        (s : Runtime ℕ), acts = front ++ back →
        run (step c) (start queue count turn) front = some s → Orderly s := by
  intro hall
  have horderly := hall {} (.memory []) 0 0 burst burst []
    { confirmed := .memory [goldBar 5]
      confirmedBurstCount := 1
      nonConfirmedTurn := 1
      hand := .processing (goldBar 6)
      accepted := [goldBar 1, goldBar 2, goldBar 3, goldBar 4, goldBar 5, goldBar 6]
      handed := [goldBar 1, goldBar 2, goldBar 3, goldBar 4, goldBar 6] }
    (List.append_nil _).symm (by decide +kernel)
  exact absurd (horderly.in_order "XAUUSD" "M5") (by decide +kernel)

/-- The events that the consumer has in hand. -/
def Hand.events : Hand P → List (Event P)
  | .deciding event => [event]
  | .yielding event other => [event, other]
  | .processing event => [event]
  | .idle | .waiting => []

/-- Every event between its put and the end of its processing. -/
def aboard (s : Runtime P) : List (Event P) :=
  s.confirmed.stored ++ (s.intrabar ++ (s.tickDerived ++ s.hand.events))

theorem stored_aboard (s : Runtime P) : s.confirmed.stored ⊆ aboard s :=
  List.subset_append_left _ _

theorem intrabar_aboard (s : Runtime P) : s.intrabar ⊆ aboard s :=
  List.Subset.trans (List.subset_append_left _ _) (List.subset_append_right _ _)

theorem tickDerived_aboard (s : Runtime P) : s.tickDerived ⊆ aboard s :=
  List.Subset.trans
    (List.Subset.trans (List.subset_append_left _ _) (List.subset_append_right _ _))
    (List.subset_append_right _ _)

theorem events_aboard (s : Runtime P) : s.hand.events ⊆ aboard s :=
  List.Subset.trans
    (List.Subset.trans (List.subset_append_right _ _) (List.subset_append_right _ _))
    (List.subset_append_right _ _)

theorem aboard_subset {events : List (Event P)}
    (hstored : s.confirmed.stored ⊆ events) (hintrabar : s.intrabar ⊆ events)
    (hticks : s.tickDerived ⊆ events) (hhand : s.hand.events ⊆ events) : aboard s ⊆ events :=
  List.append_subset.mpr ⟨hstored, List.append_subset.mpr
    ⟨hintrabar, List.append_subset.mpr ⟨hticks, hhand⟩⟩⟩

theorem putDroppable_subset (c : Settings) (items : List (Event P)) (event : Event P) :
    putDroppable c items event ⊆ items ++ [event] := by
  unfold putDroppable
  split_ifs
  · exact List.Subset.refl _
  · exact List.append_subset.mpr
      ⟨List.Subset.trans (List.drop_subset 1 items) (List.subset_append_left _ _),
        List.subset_append_right _ _⟩
  · exact List.subset_append_left _ _

theorem enqueueEvent_aboard (c : Settings) (s : Runtime P) (event : Event P) :
    aboard (enqueueEvent c s event) ⊆ aboard s ++ [event] := by
  have hold : aboard s ⊆ aboard s ++ [event] := List.subset_append_left _ _
  have hgrown : ∀ items ⊆ aboard s, items ++ [event] ⊆ aboard s ++ [event] := by
    intro items hitems
    exact List.append_subset.mpr ⟨List.Subset.trans hitems hold, List.subset_append_right _ _⟩
  unfold enqueueEvent
  cases event.scope with
  | confirmed =>
    dsimp only
    split
    · next queue hput =>
      apply aboard_subset
      · rw [ConfirmedQueue.putNowait_stored hput]
        exact hgrown _ (stored_aboard s)
      · exact List.Subset.trans (intrabar_aboard s) hold
      · exact List.Subset.trans (tickDerived_aboard s) hold
      · exact List.Subset.trans (events_aboard s) hold
    · exact hold
  | intrabar =>
    apply aboard_subset
    · exact List.Subset.trans (stored_aboard s) hold
    · exact List.Subset.trans (putDroppable_subset c s.intrabar event)
        (hgrown _ (intrabar_aboard s))
    · exact List.Subset.trans (tickDerived_aboard s) hold
    · exact List.Subset.trans (events_aboard s) hold
  | tickDerived =>
    apply aboard_subset
    · exact List.Subset.trans (stored_aboard s) hold
    · exact List.Subset.trans (intrabar_aboard s) hold
    · exact List.Subset.trans (putDroppable_subset c s.tickDerived event)
        (hgrown _ (tickDerived_aboard s))
    · exact List.Subset.trans (events_aboard s) hold

/-- What the droppable queues hand out was in them, and the rest stays in its place. -/
theorem dequeueNonConfirmedNowait_aboard (h : dequeueNonConfirmedNowait s = (found, rest)) :
    (∀ event ∈ found, event ∈ aboard s) ∧ rest.confirmed.stored ⊆ aboard s ∧
      rest.intrabar ⊆ aboard s ∧ rest.tickDerived ⊆ aboard s := by
  have hintrabar := intrabar_aboard s
  have hticks := tickDerived_aboard s
  rcases dequeueNonConfirmedNowait_cases s with ⟨first, items, hqueue, heq⟩ |
    ⟨first, items, hqueue, heq⟩ | heq
  · cases h.symm.trans heq
    rw [hqueue, List.cons_subset] at hintrabar
    refine ⟨?_, stored_aboard s, hintrabar.2, hticks⟩
    intro event hevent
    cases Option.some.inj hevent
    exact hintrabar.1
  · cases h.symm.trans heq
    rw [hqueue, List.cons_subset] at hticks
    refine ⟨?_, stored_aboard s, hintrabar, hticks.2⟩
    intro event hevent
    cases Option.some.inj hevent
    exact hticks.1
  · cases h.symm.trans heq
    exact ⟨by simp, stored_aboard s, hintrabar, hticks⟩

/-- After the droppable queues were asked the consumer has nothing in hand but what was
aboard. -/
theorem aboard_goOn (h : dequeueNonConfirmedNowait s = (found, rest)) (hand : Hand P)
    (hhand : hand.events ⊆ aboard s) : aboard { rest with hand := hand } ⊆ aboard s := by
  obtain ⟨_, hstored, hintrabar, hticks⟩ := dequeueNonConfirmedNowait_aboard h
  exact aboard_subset hstored hintrabar hticks hhand

theorem dequeue_aboard (c : Settings) (s : Runtime P) : aboard (dequeue c s) ⊆ aboard s := by
  unfold dequeue
  split
  · next event queue hget =>
    obtain ⟨hevent, hqueue⟩ := ConfirmedQueue.getNowait_stored hget
    have hhand : [event] ⊆ aboard s := by
      rw [List.cons_subset]
      exact ⟨stored_aboard s hevent, List.nil_subset _⟩
    dsimp only
    split_ifs
    · exact aboard_subset (List.Subset.trans hqueue (stored_aboard s)) (intrabar_aboard s)
        (tickDerived_aboard s) hhand
    · exact aboard_subset (List.Subset.trans hqueue (stored_aboard s)) (intrabar_aboard s)
        (tickDerived_aboard s) hhand
  · next hget =>
    split
    · next other rest hfound =>
      have hother := (dequeueNonConfirmedNowait_aboard hfound).1 other rfl
      exact aboard_goOn hfound (.processing other) (List.cons_subset.mpr ⟨hother, List.nil_subset _⟩)
    · next rest hfound => exact aboard_goOn hfound .waiting (List.nil_subset _)

theorem consult_aboard {event : Event P} (hdeciding : s.hand = .deciding event) :
    aboard (consult s event) ⊆ aboard s := by
  have hevent : event ∈ aboard s := by
    apply events_aboard s
    rw [hdeciding]
    exact List.mem_singleton_self event
  unfold consult
  split
  · next other rest hfound =>
    have hother := (dequeueNonConfirmedNowait_aboard hfound).1 other rfl
    apply aboard_goOn hfound (.yielding event other)
    exact List.cons_subset.mpr ⟨hevent, List.cons_subset.mpr ⟨hother, List.nil_subset _⟩⟩
  · next rest hfound =>
    exact aboard_goOn hfound (.processing event) (List.cons_subset.mpr ⟨hevent, List.nil_subset _⟩)

theorem putBack_aboard {event other : Event P}
    (hyielding : s.hand = .yielding event other) : aboard (putBack s event other) ⊆ aboard s := by
  have hhand : event ∈ aboard s ∧ other ∈ aboard s := by
    have hevents := events_aboard s
    rw [hyielding] at hevents
    obtain ⟨hevent, hrest⟩ := List.cons_subset.mp hevents
    exact ⟨hevent, (List.cons_subset.mp hrest).1⟩
  have hother : [other] ⊆ aboard s := List.cons_subset.mpr ⟨hhand.2, List.nil_subset _⟩
  unfold putBack
  split
  · next queue hput =>
    refine aboard_subset ?_ (intrabar_aboard s) (tickDerived_aboard s) hother
    rw [ConfirmedQueue.putNowait_stored hput]
    exact List.append_subset.mpr
      ⟨stored_aboard s, List.cons_subset.mpr ⟨hhand.1, List.nil_subset _⟩⟩
  · exact aboard_subset (stored_aboard s) (intrabar_aboard s) (tickDerived_aboard s) hother

theorem wait_aboard (s : Runtime P) : aboard (wait s) ⊆ aboard s := by
  unfold wait
  split
  · next other rest hfound =>
    have hother := (dequeueNonConfirmedNowait_aboard hfound).1 other rfl
    exact aboard_goOn hfound (.processing other) (List.cons_subset.mpr ⟨hother, List.nil_subset _⟩)
  · next rest hfound => exact aboard_goOn hfound .idle (List.nil_subset _)

/-- The event that a step brings in. -/
def Act.brings : Act P → List (Event P)
  | .enqueue event => [event]
  | .dequeue | .consult | .putBack | .wait | .finish => []

/-- Nothing comes aboard but by an enqueue. -/
theorem step_aboard {act : Act P} (h : step c s act = some t) :
    aboard t ⊆ aboard s ++ act.brings := by
  cases act with
  | enqueue event =>
    cases Option.some.inj h
    exact enqueueEvent_aboard c s event
  | dequeue =>
    rw [Act.brings, List.append_nil]
    obtain ⟨_, rfl⟩ := step_dequeue h
    exact dequeue_aboard c s
  | consult =>
    rw [Act.brings, List.append_nil]
    obtain ⟨event, hdeciding, rfl⟩ := step_consult h
    exact consult_aboard hdeciding
  | putBack =>
    rw [Act.brings, List.append_nil]
    obtain ⟨event, other, hyielding, rfl⟩ := step_putBack h
    exact putBack_aboard hyielding
  | wait =>
    rw [Act.brings, List.append_nil]
    obtain ⟨_, rfl⟩ := step_wait h
    exact wait_aboard s
  | finish =>
    rw [Act.brings, List.append_nil]
    obtain ⟨event, _, rfl⟩ := step_finish h
    exact aboard_subset (stored_aboard s) (intrabar_aboard s) (tickDerived_aboard s)
      (List.nil_subset _)

end MT5Services.SignalQueues
