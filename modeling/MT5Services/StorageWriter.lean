import MT5Services.Dict
import MT5Services.PyText
import MT5Services.Runs
import MT5Services.Windows
import Mathlib.Algebra.Order.Field.Rat
import Mathlib.Data.Rat.Floor

/-!
The write channels of `StorageWriter`: bounded queues that producers fill, buffers that
the writer thread drains them into, and flushes that hand the buffer to `write_fn` or, when
every attempt fails, to a dead letter file named by a millisecond clock. A call of
`enqueue` is a sequence of steps, since producers and the writer run side by side. A row
carries its identity: producers that pass equal tuples pass different rows.
-/
namespace MT5Services.StorageWriter

open Runs PyText

structure Config where
  channelType : String
  maxsize : ℕ
  pendingMaxsize : Option ℕ := none
  flushInterval : ℚ := 1
  batchSize : ℕ
  overflowPolicy : Option String := none
  /-- `settings.queue_overflow_policy`. -/
  queueOverflowPolicy : String := "auto"
  /-- `settings.flush_retry_attempts`. -/
  flushRetryAttempts : ℕ := 3
  deriving DecidableEq, Repr

namespace Config

/-- `pending_maxsize or maxsize * 2`, the `maxlen` of the buffer. -/
def pendingMaxlen (config : Config) : ℕ :=
  match config.pendingMaxsize with
  | none | some 0 => config.maxsize * 2
  | some size => size

/-- `overflow_policy or settings.queue_overflow_policy or "auto"`, as `register_channel`
stores it. -/
def registeredPolicy (config : Config) : String :=
  lower (strip
    (if config.overflowPolicy.getD "" ≠ "" then config.overflowPolicy.getD ""
    else if config.queueOverflowPolicy ≠ "" then config.queueOverflowPolicy
    else "auto"))

def resolveOverflowPolicy (config : Config) : String :=
  let policy := lower (strip config.registeredPolicy)
  if policy ≠ "auto" then policy
  else if lower (strip config.channelType) ∈
      ["ohlc", "ohlc_indicators", "economic_calendar", "economic_calendar_updates"] then "block"
  else "drop_oldest"

end Config

/-- `_flush_circuit_threshold`. -/
def flushCircuitThreshold : ℕ := 3

/-- `_flush_circuit_cooldown`. -/
def flushCircuitCooldown : ℚ := 30

inductive Counter
  | oldest
  | newest
  deriving DecidableEq, Repr

/-- Where a call of `enqueue` stands. -/
inductive Phase (Row : Type*)
  /-- Before `put_nowait`. -/
  | offered
  /-- In `_handle_queue_full`, before the policy is looked at. -/
  | full
  /-- Before the check of `_stop` in the loop of the blocking policy. -/
  | waiting
  /-- In the `put` with a timeout of that loop. -/
  | putting
  /-- The oldest row has been taken from the queue, the new one is not yet in it. -/
  | evicted (oldest : Row)
  /-- Before `+= 1`, or between its read and its write. -/
  | counting (counter : Counter) (lost : Row) (seen : Option ℕ)
  deriving DecidableEq, Repr

variable {Row : Type*}

/-- The rows that only the call has. -/
def Phase.held (row : Row) : Phase Row → List Row
  | .offered | .full | .waiting | .putting => [row]
  | .evicted oldest => [row, oldest]
  | .counting _ lost _ => [lost]

/-- `_drain_queue` under way: the list `drained` and the rounds left. -/
structure Drain (Row : Type*) where
  drained : List Row := []
  rounds : ℕ
  deriving DecidableEq, Repr

/-- One entry of `_channels` with its statistics and its dead letter files by their stamp.
`offered`, `written`, `lostOldest` and `lostNewest` record what happened: the rows passed to
`enqueue`, the rows of `write_fn` calls that returned, and the rows behind the counters. -/
structure Channel (Row : Type*) where
  config : Config
  queue : List Row := []
  pending : List Row := []
  draining : Option (Drain Row) := none
  calls : Dict Row (Phase Row) := Dict.empty
  droppedOldest : ℕ := 0
  droppedNewest : ℕ := 0
  lastFlush : ℚ
  flushConsecutiveFailures : ℕ := 0
  flushCircuitOpenUntil : ℚ := 0
  dlq : Dict ℤ (List Row) := Dict.empty
  offered : List Row := []
  written : List Row := []
  lostOldest : List Row := []
  lostNewest : List Row := []

/-- What a call of `_flush_if_due` meets. `writes` says of each call of `write_fn` whether it
returns; `dumped` is the number of rows that reach the dead letter file, if it opens. -/
structure Flush where
  force : Bool := false
  enabled : Bool := true
  now : ℚ
  writes : List Bool := []
  dumpedAt : ℚ := 0
  dumped : Option ℕ := none
  deriving DecidableEq, Repr

/-- `int(time.time() * 1000)`. -/
def Flush.stamp (f : Flush) : ℤ := ⌊f.dumpedAt * 1000⌋

/-- The retry loop: whether one of the calls of `write_fn` returns. -/
def retry : ℕ → List Bool → Bool
  | 0, _ => false
  | _ + 1, [] => false
  | attempts + 1, returns :: rest => returns || retry attempts rest

inductive ChannelAct (Row : Type*)
  /-- A producer calls `enqueue`. -/
  | enqueue (row : Row)
  /-- The call with this row takes its next step. -/
  | advance (row : Row)
  | beginDrain
  | drainOne
  | endDrain
  | flushIfDue (f : Flush)
  deriving DecidableEq, Repr

namespace Channel

def register (config : Config) (now : ℚ) : Channel Row where
  config := config
  lastFlush := now

/-- `put_nowait` finds a slot; a queue of size zero is unbounded. -/
def HasRoom (c : Channel Row) : Prop := c.config.maxsize = 0 ∨ c.queue.length < c.config.maxsize

instance (c : Channel Row) : Decidable c.HasRoom := inferInstanceAs (Decidable (_ ∨ _))

def dropped (c : Channel Row) : Counter → ℕ
  | .oldest => c.droppedOldest
  | .newest => c.droppedNewest

/-- The write of `+= 1` on a counter whose old value was read before. -/
def count (c : Channel Row) (lost : Row) (seen : ℕ) : Counter → Channel Row
  | .oldest => { c with
      droppedOldest := seen + 1
      lostOldest := c.lostOldest ++ [lost] }
  | .newest => { c with
      droppedNewest := seen + 1
      lostNewest := c.lostNewest ++ [lost] }

theorem calls_count (c : Channel Row) (lost : Row) (seen : ℕ) (counter : Counter) :
    (c.count lost seen counter).calls = c.calls := by
  cases counter <;> rfl

def put (c : Channel Row) (row : Row) : Channel Row := { c with queue := c.queue ++ [row] }

section Calls

variable [DecidableEq Row]

def moveTo (c : Channel Row) (row : Row) (phase : Phase Row) : Channel Row :=
  { c with calls := c.calls.set row phase }

def finish (c : Channel Row) (row : Row) : Channel Row := { c with calls := c.calls.pop row }

/-- One step of `_enqueue` and `_handle_queue_full`. -/
def advance (c : Channel Row) (stopped alive : Bool) (row : Row) : Phase Row → Channel Row
  | .offered => if c.HasRoom then (c.put row).finish row else c.moveTo row .full
  | .full =>
    if c.config.resolveOverflowPolicy = "block" then
      if alive then c.moveTo row .waiting else c.moveTo row (.counting .newest row none)
    else if c.config.resolveOverflowPolicy = "drop_oldest" then
      match c.queue with
      | [] => c.moveTo row (.counting .newest row none)
      | oldest :: rest => { c with queue := rest }.moveTo row (.evicted oldest)
    else c.moveTo row (.counting .newest row none)
  | .waiting =>
    if stopped then c.moveTo row (.counting .newest row none) else c.moveTo row .putting
  | .putting => if c.HasRoom then (c.put row).finish row else c.moveTo row .waiting
  | .evicted oldest =>
    if c.HasRoom then (c.put row).moveTo row (.counting .oldest oldest none)
    -- `except queue.Full: pass`, with the evicted row out of the queue
    else c.moveTo row (.counting .newest row none)
  | .counting counter lost none => c.moveTo row (.counting counter lost (some (c.dropped counter)))
  | .counting counter lost (some seen) => (c.count lost seen counter).finish row

/-- A step of a call leaves the buffer, the drain and the list of offered rows alone. -/
theorem advance_frame (c : Channel Row) (stopped alive : Bool) (row : Row) (phase : Phase Row) :
    (c.advance stopped alive row phase).config = c.config ∧
      (c.advance stopped alive row phase).pending = c.pending ∧
      (c.advance stopped alive row phase).draining = c.draining ∧
      (c.advance stopped alive row phase).offered = c.offered := by
  cases phase with
  | offered | putting | evicted | waiting =>
    rw [advance]
    split <;> exact ⟨rfl, rfl, rfl, rfl⟩
  | full =>
    rw [advance]
    split
    · split <;> exact ⟨rfl, rfl, rfl, rfl⟩
    · split
      · split <;> exact ⟨rfl, rfl, rfl, rfl⟩
      · exact ⟨rfl, rfl, rfl, rfl⟩
  | counting counter lost seen =>
    cases seen with
    | none => exact ⟨rfl, rfl, rfl, rfl⟩
    | some seen => cases counter <;> exact ⟨rfl, rfl, rfl, rfl⟩

end Calls

/-- The computation of `take` in `_drain_queue`; `none` for its early return. -/
def take (c : Channel Row) : Option ℕ :=
  if c.config.pendingMaxlen ≠ 0 then
    let available := c.config.pendingMaxlen - c.pending.length
    if available = 0 then none else some (min c.config.batchSize available)
  else some c.config.batchSize

/-- `_drain_queue` takes at most what the buffer has room for. -/
theorem take_fits {c : Channel Row} {rounds : ℕ} (h : c.take = some rounds)
    (hmaxlen : c.config.pendingMaxlen ≠ 0) :
    c.pending.length + rounds ≤ c.config.pendingMaxlen := by
  rw [take, if_pos hmaxlen] at h
  dsimp only at h
  split at h
  · cases h
  · cases h
    omega

def beginDrain (c : Channel Row) : Channel Row :=
  match c.take with
  | none => c
  | some rounds => { c with draining := some { rounds := rounds } }

/-- One round of the loop; an empty queue ends it. -/
def drainOne (c : Channel Row) (drain : Drain Row) : Channel Row :=
  match c.queue with
  | [] => { c with draining := some { drain with rounds := 0 } }
  | row :: rest => { c with
      queue := rest
      draining := some { drained := drain.drained ++ [row], rounds := drain.rounds - 1 } }

/-- `pending.extend(drained)` on a deque with a `maxlen`. -/
def endDrain (c : Channel Row) (drain : Drain Row) : Channel Row := { c with
  pending := (c.pending ++ drain.drained).rtake c.config.pendingMaxlen
  draining := none }

/-- `_flush_if_due` comes to its retry loop. -/
def Due (c : Channel Row) (f : Flush) : Prop :=
  c.pending ≠ [] ∧ f.enabled = true ∧ (c.flushCircuitOpenUntil ≤ f.now ∨ f.force = true) ∧
    (f.force = true ∨ c.config.flushInterval ≤ f.now - c.lastFlush ∨
      c.config.batchSize ≤ c.pending.length)

instance [DecidableEq Row] (c : Channel Row) (f : Flush) : Decidable (c.Due f) :=
  inferInstanceAs (Decidable (_ ∧ _ ∧ _ ∧ _))

/-- `open(path, "w")` empties a file of that name before the rows are written. -/
def dumpToDlq (c : Channel Row) (f : Flush) : Channel Row :=
  match f.dumped with
  | none => c
  | some rows => { c with dlq := c.dlq.set f.stamp (c.pending.take rows) }

/-- The end of a flush whose attempts all failed. -/
def giveUp (c : Channel Row) (f : Flush) : Channel Row :=
  let failures := c.flushConsecutiveFailures + 1
  { c.dumpToDlq f with
    pending := []
    lastFlush := f.now
    flushConsecutiveFailures := failures
    flushCircuitOpenUntil :=
      if flushCircuitThreshold ≤ failures then f.now + flushCircuitCooldown
      else c.flushCircuitOpenUntil }

def flushIfDue [DecidableEq Row] (c : Channel Row) (f : Flush) : Channel Row :=
  if ¬ c.Due f then c
  else if c.config.flushRetryAttempts = 0 then c
  else if retry c.config.flushRetryAttempts f.writes then
    { c with
      written := c.written ++ c.pending
      pending := []
      lastFlush := f.now
      flushConsecutiveFailures := 0 }
  else c.giveUp f

variable [DecidableEq Row]

/-- One step of a producer or of the writer; `none` when the step is not there to take. -/
def step (c : Channel Row) (stopped alive : Bool) : ChannelAct Row → Option (Channel Row)
  | .enqueue row =>
    if row ∈ c.offered ∨ c.calls.contains row then none
    else some ({ c with offered := c.offered ++ [row] }.moveTo row .offered)
  | .advance row => (c.calls.get? row).map fun phase => c.advance stopped alive row phase
  | .beginDrain => if alive && c.draining.isNone then some c.beginDrain else none
  | .drainOne =>
    c.draining.bind fun drain => if drain.rounds = 0 then none else some (c.drainOne drain)
  | .endDrain =>
    c.draining.bind fun drain => if drain.rounds = 0 then some (c.endDrain drain) else none
  | .flushIfDue f => if c.draining.isNone then some (c.flushIfDue f) else none

end Channel

/-- The service: its channels share the stop event, the thread and the lock. -/
structure Writer (Row : Type*) where
  stopped : Bool := false
  /-- `_thread.is_alive()`. -/
  alive : Bool
  channels : Dict String (Channel Row)

/-- `flush()` and `stop()` flush channel after channel; with the thread's own flushes they
are the `flushIfDue` steps. -/
inductive Act (Row : Type*)
  | on (name : String) (act : ChannelAct Row)
  /-- `stop` sets its event. -/
  | stop
  /-- The loop of `_run` ends. -/
  | exit
  deriving DecidableEq, Repr

section Balance

variable [DecidableEq Row]

namespace Channel

/-- The rows of the dead letter files. -/
def dlqRows (c : Channel Row) : List Row := c.dlq.gather fun _ rows => rows

/-- The rows that a drain or an unfinished call has taken and not yet put anywhere. -/
def inHand (c : Channel Row) : List Row :=
  (c.draining.elim [] Drain.drained) ++ c.calls.gather Phase.held

/-- The rows class by class, each as often as it is in a class. -/
def places (c : Channel Row) : List Row :=
  c.queue ++ c.pending ++ c.written ++ c.dlqRows ++ c.lostOldest ++ c.lostNewest ++ c.inHand

/-- The balance of the classes, and that no row is in two of them. -/
structure Accounts (c : Channel Row) : Prop where
  balance : c.offered.length = c.queue.length + c.pending.length + c.written.length +
    c.dlqRows.length + c.droppedOldest + c.droppedNewest + c.inHand.length
  disjoint : c.places.Nodup
  /-- Between calls and drains nothing is in hand. -/
  settled : c.calls.items = [] → c.draining = none →
    c.offered.length = c.queue.length + c.pending.length + c.written.length +
      c.dlqRows.length + c.droppedOldest + c.droppedNewest

/-- The next step of a call loses no row and no increment. -/
def SafePhase (c : Channel Row) : Phase Row → Prop
  | .evicted _ => c.HasRoom
  | .counting counter _ (some seen) => seen = c.dropped counter
  | _ => True

instance (c : Channel Row) : DecidablePred c.SafePhase
  | .offered | .full | .waiting | .putting => isTrue trivial
  | .evicted _ => inferInstanceAs (Decidable c.HasRoom)
  | .counting _ _ none => isTrue trivial
  | .counting counter _ (some seen) => inferInstanceAs (Decidable (seen = c.dropped counter))

/-- The slot that the eviction freed is still free, a counter still has the value that was
read, a buffer that keeps nothing gets nothing, and a dump that is needed is complete and
has a name of its own. -/
def Accounted (c : Channel Row) : ChannelAct Row → Prop
  | .advance row => ∀ phase ∈ c.calls.get? row, c.SafePhase phase
  | .endDrain => c.config.pendingMaxlen = 0 → c.draining.elim [] Drain.drained = []
  | .flushIfDue f =>
    c.Due f → retry c.config.flushRetryAttempts f.writes = false →
      c.config.flushRetryAttempts = 0 ∨
        (c.dlq.get? f.stamp = none ∧ ∃ rows ∈ f.dumped, c.pending.length ≤ rows)
  | _ => True

instance (c : Channel Row) : DecidablePred c.Accounted
  | .enqueue _ | .beginDrain | .drainOne => isTrue trivial
  | .advance row => inferInstanceAs (Decidable (∀ phase ∈ c.calls.get? row, c.SafePhase phase))
  | .endDrain => inferInstanceAs (Decidable (_ = 0 → _ = []))
  | .flushIfDue f => inferInstanceAs (Decidable (c.Due f → _ = false → _ = 0 ∨ _))

/-- Between two steps every offered row is in one class, each counter counts its rows, and
a drain under way fits into the buffer. -/
structure Balanced (c : Channel Row) : Prop where
  once : c.offered.Nodup
  rows : ∀ r, c.offered.count r = c.places.count r
  oldestCounted : c.droppedOldest = c.lostOldest.length
  newestCounted : c.droppedNewest = c.lostNewest.length
  pendingFits : c.pending.length ≤ c.config.pendingMaxlen
  drainFits : ∀ drain ∈ c.draining, c.config.pendingMaxlen ≠ 0 →
    c.pending.length + drain.drained.length + drain.rounds ≤ c.config.pendingMaxlen

variable {c t : Channel Row} {stopped alive : Bool} {row : Row} {phase : Phase Row}

theorem count_places (c : Channel Row) (r : Row) :
    c.places.count r = c.queue.count r + c.pending.count r + c.written.count r +
      c.dlqRows.count r + c.lostOldest.count r + c.lostNewest.count r +
      ((c.draining.elim [] Drain.drained).count r + (c.calls.gather Phase.held).count r) := by
  simp only [places, inHand, List.count_append]

theorem accounts_of_balanced (hb : c.Balanced) : c.Accounts := by
  have hperm : c.offered.Perm c.places := List.perm_iff_count.mpr hb.rows
  have hbalance : c.offered.length = c.queue.length + c.pending.length + c.written.length +
      c.dlqRows.length + c.droppedOldest + c.droppedNewest + c.inHand.length := by
    rw [hperm.length_eq, hb.oldestCounted, hb.newestCounted]
    simp only [places, List.length_append]
  refine ⟨hbalance, hperm.nodup hb.once, ?_⟩
  intro hcalls hdraining
  have hinHand : c.inHand = [] := by
    simp only [inHand, Dict.gather, hcalls, hdraining, List.flatMap_nil, List.append_nil,
      Option.elim_none]
  rw [hbalance, hinHand, List.length_nil, Nat.add_zero]

/-- A call that moves on keeps the rows of the other calls. -/
theorem count_held (h : c.calls.get? row = some phase) (r : Row) :
    (c.calls.gather Phase.held).count r =
      (phase.held row).count r + ((c.calls.pop row).gather Phase.held).count r :=
  Dict.count_gather Phase.held h r

theorem count_held_moveTo (next : Phase Row) (r : Row) :
    ((c.calls.set row next).gather Phase.held).count r =
      (next.held row).count r + ((c.calls.pop row).gather Phase.held).count r :=
  Dict.count_gather_set Phase.held c.calls row next r

theorem count_cons_eq (head : Row) (tail : List Row) (r : Row) :
    (head :: tail).count r = [head].count r + tail.count r := by
  rw [← List.singleton_append, List.count_append]

theorem count_places_moveTo (h : c.calls.get? row = some phase) (next : Phase Row) (r : Row) :
    (c.moveTo row next).places.count r + (phase.held row).count r =
      c.places.count r + (next.held row).count r := by
  have hheld := count_held h r
  simp only [count_places, moveTo, dlqRows, count_held_moveTo]
  omega

theorem count_places_finish (h : c.calls.get? row = some phase) (r : Row) :
    (c.finish row).places.count r + (phase.held row).count r = c.places.count r := by
  have hheld := count_held h r
  simp only [count_places, finish, dlqRows]
  omega

theorem count_places_put (c : Channel Row) (row r : Row) :
    (c.put row).places.count r = c.places.count r + [row].count r := by
  simp only [count_places, put, dlqRows, List.count_append]
  omega

theorem count_places_count (c : Channel Row) (lost : Row) (seen : ℕ) (counter : Counter)
    (r : Row) : (c.count lost seen counter).places.count r = c.places.count r + [lost].count r := by
  cases counter <;>
  · simp only [count_places, count, dlqRows, List.count_append]
    omega

theorem count_places_dequeue {oldest : Row} {rest : List Row} (h : c.queue = oldest :: rest)
    (r : Row) : { c with queue := rest }.places.count r + [oldest].count r =
      c.places.count r := by
  simp only [count_places, dlqRows, h, count_cons_eq oldest rest]
  omega

theorem count_places_hold (h : c.calls.get? row = some phase) (next : Phase Row)
    (hphase : phase.held row = [row]) (hnext : next.held row = [row]) (r : Row) :
    (c.moveTo row next).places.count r = c.places.count r := by
  have hmove := count_places_moveTo h next r
  rw [hphase, hnext] at hmove
  omega

theorem count_places_full (h : c.calls.get? row = some .full) (r : Row) :
    (c.advance stopped alive row .full).places.count r = c.places.count r := by
  rw [advance]
  split
  · split
    · exact count_places_hold h .waiting rfl rfl r
    · exact count_places_hold h _ rfl rfl r
  · split
    · split
      · exact count_places_hold h _ rfl rfl r
      · rename_i oldest rest hqueue
        have hdequeue := count_places_dequeue hqueue r
        have hmove := count_places_moveTo (c := { c with queue := rest }) h (.evicted oldest) r
        simp only [Phase.held, count_cons_eq row [oldest]] at hmove
        omega
    · exact count_places_hold h _ rfl rfl r

/-- The row that was lost is counted when its call is done with it. -/
theorem count_places_counting {counter : Counter} {lost : Row} {seen : Option ℕ}
    (h : c.calls.get? row = some (.counting counter lost seen)) (r : Row) :
    (c.advance stopped alive row (.counting counter lost seen)).places.count r =
      c.places.count r := by
  cases seen with
  | none =>
    rw [advance]
    have hmove := count_places_moveTo h (.counting counter lost (some (c.dropped counter))) r
    simp only [Phase.held] at hmove
    omega
  | some seen =>
    rw [advance]
    have hcount := count_places_count c lost seen counter r
    have hcalls := h
    rw [← calls_count c lost seen counter] at hcalls
    have hlost := count_places_finish hcalls r
    rw [Phase.held] at hlost
    omega

/-- A step of a call moves rows between classes and loses none of them. -/
theorem count_places_advance (h : c.calls.get? row = some phase) (hsafe : c.SafePhase phase)
    (r : Row) : (c.advance stopped alive row phase).places.count r = c.places.count r := by
  have hput := count_places_put c row r
  have hfinish := count_places_finish (c := c.put row) h r
  cases phase with
  | offered =>
    rw [advance]
    split
    · rw [Phase.held] at hfinish
      omega
    · exact count_places_hold h .full rfl rfl r
  | full => exact count_places_full h r
  | waiting =>
    rw [advance]
    split
    · exact count_places_hold h _ rfl rfl r
    · exact count_places_hold h .putting rfl rfl r
  | putting =>
    rw [advance]
    split
    · rw [Phase.held] at hfinish
      omega
    · exact count_places_hold h .waiting rfl rfl r
  | evicted oldest =>
    have hroom : c.HasRoom := hsafe
    rw [advance, if_pos hroom]
    have hmove := count_places_moveTo (c := c.put row) h (.counting .oldest oldest none) r
    simp only [Phase.held, count_cons_eq row [oldest]] at hmove
    omega
  | counting counter lost seen => exact count_places_counting h r

/-- Only the write of an increment touches a counter, and it counts one more row. -/
theorem advance_counted (stopped alive : Bool) (row : Row) (hb : c.Balanced)
    (hsafe : c.SafePhase phase) :
    (c.advance stopped alive row phase).droppedOldest =
        (c.advance stopped alive row phase).lostOldest.length ∧
      (c.advance stopped alive row phase).droppedNewest =
        (c.advance stopped alive row phase).lostNewest.length := by
  have hsame := And.intro hb.oldestCounted hb.newestCounted
  cases phase with
  | offered | putting | evicted | waiting =>
    rw [advance]
    split <;> exact hsame
  | full =>
    rw [advance]
    split
    · split <;> exact hsame
    · split
      · split <;> exact hsame
      · exact hsame
  | counting counter lost seen =>
    cases seen with
    | none => exact hsame
    | some seen =>
      have hseen : seen = c.dropped counter := hsafe
      cases counter with
      | oldest =>
        refine ⟨?_, hb.newestCounted⟩
        change seen + 1 = (c.lostOldest ++ [lost]).length
        rw [List.length_append, ← hb.oldestCounted, hseen]
        rfl
      | newest =>
        refine ⟨hb.oldestCounted, ?_⟩
        change seen + 1 = (c.lostNewest ++ [lost]).length
        rw [List.length_append, ← hb.newestCounted, hseen]
        rfl

theorem advance_balanced (hb : c.Balanced) (h : c.calls.get? row = some phase)
    (hsafe : c.SafePhase phase) : (c.advance stopped alive row phase).Balanced := by
  obtain ⟨hconfig, hpending, hdraining, hoffered⟩ := advance_frame c stopped alive row phase
  obtain ⟨holdest, hnewest⟩ := advance_counted stopped alive row hb hsafe
  refine ⟨?_, ?_, holdest, hnewest, ?_, ?_⟩
  · rw [hoffered]
    exact hb.once
  · intro r
    rw [hoffered, count_places_advance h hsafe r]
    exact hb.rows r
  · rw [hpending, hconfig]
    exact hb.pendingFits
  · rw [hpending, hconfig, hdraining]
    exact hb.drainFits

theorem register_balanced (config : Config) (now : ℚ) :
    (register config now : Channel Row).Balanced where
  once := List.nodup_nil
  rows := fun _ => rfl
  oldestCounted := rfl
  newestCounted := rfl
  pendingFits := Nat.zero_le _
  drainFits := by
    intro drain hdrain
    cases hdrain

theorem enqueue_balanced (hb : c.Balanced) (hrow : row ∉ c.offered)
    (hcall : c.calls.get? row = none) :
    ({ c with offered := c.offered ++ [row] }.moveTo row .offered).Balanced where
  once := by
    change (c.offered ++ [row]).Nodup
    rw [← List.concat_eq_append]
    exact hb.once.concat hrow
  rows := by
    intro r
    have hrows := hb.rows r
    have hothers := congrArg (List.count r) (Dict.gather_pop_of_get?_none Phase.held hcall)
    simp only [count_places, moveTo, dlqRows, count_held_moveTo, Phase.held,
      List.count_append] at hrows ⊢
    omega
  oldestCounted := hb.oldestCounted
  newestCounted := hb.newestCounted
  pendingFits := hb.pendingFits
  drainFits := hb.drainFits

theorem beginDrain_balanced (hb : c.Balanced) (hfree : c.draining = none) :
    c.beginDrain.Balanced := by
  rw [beginDrain]
  split
  · exact hb
  · rename_i rounds htake
    refine ⟨hb.once, ?_, hb.oldestCounted, hb.newestCounted, hb.pendingFits, ?_⟩
    · intro r
      have hrows := hb.rows r
      simp only [count_places, hfree, dlqRows] at hrows ⊢
      exact hrows
    · intro drain hdrain hmaxlen
      cases hdrain
      exact take_fits htake hmaxlen

theorem drainOne_balanced {drain : Drain Row} (hb : c.Balanced) (hdrain : c.draining = some drain)
    (hrounds : drain.rounds ≠ 0) : (c.drainOne drain).Balanced := by
  have hfits := hb.drainFits drain hdrain
  rw [drainOne]
  split
  · refine ⟨hb.once, ?_, hb.oldestCounted, hb.newestCounted, hb.pendingFits, ?_⟩
    · intro r
      have hrows := hb.rows r
      simp only [count_places, hdrain, dlqRows, Option.elim_some] at hrows ⊢
      exact hrows
    · intro next hnext hmaxlen
      cases hnext
      have hsum := hfits hmaxlen
      dsimp only
      omega
  · rename_i row rest hqueue
    refine ⟨hb.once, ?_, hb.oldestCounted, hb.newestCounted, hb.pendingFits, ?_⟩
    · intro r
      have hrows := hb.rows r
      simp only [count_places, hdrain, hqueue, count_cons_eq row rest, dlqRows, Option.elim_some,
        List.count_append] at hrows ⊢
      omega
    · intro next hnext hmaxlen
      cases hnext
      have hsum := hfits hmaxlen
      simp only [List.length_append, List.length_singleton]
      omega

/-- The buffer takes the drained rows whole: they fit, or there are none. -/
theorem endDrain_pending {drain : Drain Row} (hb : c.Balanced) (hdrain : c.draining = some drain)
    (hnone : c.config.pendingMaxlen = 0 → drain.drained = []) :
    (c.endDrain drain).pending = c.pending ++ drain.drained := by
  have hpending := hb.pendingFits
  have hfits := hb.drainFits drain hdrain
  apply Windows.rtake_of_length_le
  rw [List.length_append]
  by_cases hmaxlen : c.config.pendingMaxlen = 0
  · rw [hnone hmaxlen, List.length_nil]
    omega
  · have hsum := hfits hmaxlen
    omega

theorem endDrain_balanced {drain : Drain Row} (hb : c.Balanced) (hdrain : c.draining = some drain)
    (hnone : c.config.pendingMaxlen = 0 → drain.drained = []) : (c.endDrain drain).Balanced := by
  have hpending := endDrain_pending hb hdrain hnone
  refine ⟨hb.once, ?_, hb.oldestCounted, hb.newestCounted, ?_, ?_⟩
  · intro r
    have hrows := hb.rows r
    rw [count_places] at hrows ⊢
    rw [hpending]
    simp only [endDrain, dlqRows, hdrain, Option.elim_some, Option.elim_none, List.count_append,
      List.count_nil] at hrows ⊢
    omega
  · change ((c.pending ++ drain.drained).rtake c.config.pendingMaxlen).length ≤
      c.config.pendingMaxlen
    rw [Windows.length_rtake]
    exact Nat.min_le_left ..
  · intro next hnext
    cases hnext

/-- A complete dump under a new name adds the rows of the buffer to the dead letters. -/
theorem count_dlqRows_dumpToDlq {f : Flush} (hfresh : c.dlq.get? f.stamp = none)
    (hwhole : ∃ rows ∈ f.dumped, c.pending.length ≤ rows) (r : Row) :
    (c.dumpToDlq f).dlqRows.count r = c.pending.count r + c.dlqRows.count r := by
  obtain ⟨rows, hrows, hlength⟩ := hwhole
  have hdumped : f.dumped = some rows := hrows
  simp only [dumpToDlq, hdumped, dlqRows, Dict.count_gather_set,
    Dict.gather_pop_of_get?_none (fun _ rows => rows) hfresh, List.take_of_length_le hlength]

theorem giveUp_balanced {f : Flush} (hb : c.Balanced) (hfree : c.draining = none)
    (hfresh : c.dlq.get? f.stamp = none)
    (hwhole : ∃ rows ∈ f.dumped, c.pending.length ≤ rows) : (c.giveUp f).Balanced := by
  have hdump := count_dlqRows_dumpToDlq hfresh hwhole
  obtain ⟨rows, hrows, -⟩ := hwhole
  have hdumped : f.dumped = some rows := hrows
  simp only [dumpToDlq, hdumped] at hdump
  refine ⟨?_, ?_, ?_, ?_, ?_, ?_⟩
  all_goals simp only [giveUp, dumpToDlq, hdumped]
  · exact hb.once
  · intro r
    have hrows := hb.rows r
    have hdlq := hdump r
    simp only [count_places, hfree, Option.elim_none, List.count_nil, dlqRows] at hrows hdlq ⊢
    omega
  · exact hb.oldestCounted
  · exact hb.newestCounted
  · exact Nat.zero_le _
  · intro drain hdrain
    rw [hfree] at hdrain
    cases hdrain

theorem flushIfDue_balanced {f : Flush} (hb : c.Balanced) (hfree : c.draining = none)
    (hguard : c.Accounted (.flushIfDue f)) : (c.flushIfDue f).Balanced := by
  rw [flushIfDue]
  split
  · exact hb
  · rename_i hdue
    split
    · exact hb
    · rename_i hattempts
      split
      · refine ⟨hb.once, ?_, hb.oldestCounted, hb.newestCounted, Nat.zero_le _, ?_⟩
        · intro r
          have hrows := hb.rows r
          simp only [count_places, hfree, Option.elim_none, List.count_nil, List.count_append,
            dlqRows] at hrows ⊢
          omega
        · intro drain hdrain
          rw [hfree] at hdrain
          cases hdrain
      · rename_i hretry
        have hfailed := eq_false_of_ne_true hretry
        obtain ⟨hfresh, hwhole⟩ := (hguard (not_not.mp hdue) hfailed).resolve_left hattempts
        exact giveUp_balanced hb hfree hfresh hwhole

theorem step_balanced {act : ChannelAct Row} (hb : c.Balanced) (hguard : c.Accounted act)
    (h : c.step stopped alive act = some t) : t.Balanced := by
  cases act with
  | enqueue row =>
    rw [step] at h
    split at h
    · cases h
    · rename_i hnew
      obtain ⟨hoffered, hcalls⟩ := not_or.mp hnew
      cases h
      refine enqueue_balanced hb hoffered ?_
      simpa [Dict.contains] using hcalls
  | advance row =>
    obtain ⟨phase, hphase, rfl⟩ := Option.map_eq_some_iff.mp h
    exact advance_balanced hb hphase (hguard phase hphase)
  | beginDrain =>
    rw [step] at h
    split at h
    · rename_i hstart
      cases h
      refine beginDrain_balanced hb ?_
      simpa using (Bool.and_eq_true_iff.mp hstart).2
    · cases h
  | drainOne =>
    obtain ⟨drain, hdrain, hstep⟩ := Option.bind_eq_some_iff.mp h
    split at hstep
    · cases hstep
    · rename_i hrounds
      cases hstep
      exact drainOne_balanced hb hdrain hrounds
  | endDrain =>
    obtain ⟨drain, hdrain, hstep⟩ := Option.bind_eq_some_iff.mp h
    split at hstep
    · cases hstep
      refine endDrain_balanced hb hdrain ?_
      intro hmaxlen
      have hnone := hguard hmaxlen
      rw [hdrain] at hnone
      exact hnone
    · cases hstep
  | flushIfDue f =>
    rw [step] at h
    split at h
    · rename_i hfree
      cases h
      exact flushIfDue_balanced hb (by simpa using hfree) hguard
    · cases h

end Channel

end Balance

namespace Writer

/-- No drain holds the lock. -/
def lockFree (w : Writer Row) : Bool := w.channels.values.all fun c => c.draining.isNone

def hasPending (w : Writer Row) : Bool :=
  w.channels.values.any fun c => !c.queue.isEmpty || !c.pending.isEmpty

/-- The service with these channels registered, each at its time. -/
def start (registered : Dict String (Config × ℚ)) (alive : Bool) : Writer Row where
  alive := alive
  channels := registered.mapValues fun _ entry => Channel.register entry.1 entry.2

def needsLock : ChannelAct Row → Bool
  | .beginDrain | .flushIfDue _ => true
  | _ => false

variable [DecidableEq Row]

def step (w : Writer Row) : Act Row → Option (Writer Row)
  | .on name act =>
    if needsLock act && !w.lockFree then none
    else (w.channels.get? name).bind fun c =>
      (c.step w.stopped w.alive act).map fun t => { w with channels := w.channels.set name t }
  | .stop => some { w with stopped := true }
  | .exit =>
    if w.alive && w.stopped && w.lockFree && !w.hasPending then some { w with alive := false }
    else none

/-- The step is safe on the channel it is about. -/
def Accounted (w : Writer Row) : Act Row → Prop
  | .on name act => ∀ c ∈ w.channels.get? name, c.Accounted act
  | .stop | .exit => True

instance (w : Writer Row) : DecidablePred w.Accounted
  | .on name act => inferInstanceAs (Decidable (∀ c ∈ w.channels.get? name, c.Accounted act))
  | .stop | .exit => isTrue trivial

/-- Every channel of the service is balanced. -/
def Balanced (w : Writer Row) : Prop :=
  ∀ name c, w.channels.get? name = some c → c.Balanced

theorem start_balanced (registered : Dict String (Config × ℚ)) (alive : Bool) :
    (start registered alive : Writer Row).Balanced := by
  intro name c hc
  rw [start, Dict.get?_mapValues] at hc
  obtain ⟨entry, -, rfl⟩ := Option.map_eq_some_iff.mp hc
  exact Channel.register_balanced entry.1 entry.2

theorem step_balanced {w u : Writer Row} {act : Act Row} (hb : w.Balanced)
    (hguard : w.Accounted act) (h : w.step act = some u) : u.Balanced := by
  cases act with
  | on name act =>
    rw [step] at h
    split at h
    · cases h
    · obtain ⟨c, hc, hstep⟩ := Option.bind_eq_some_iff.mp h
      obtain ⟨t, ht, rfl⟩ := Option.map_eq_some_iff.mp hstep
      have hnext : t.Balanced := Channel.step_balanced (hb name c hc) (hguard c hc) ht
      intro other d hd
      rw [Dict.get?_set] at hd
      split at hd
      · cases hd
        exact hnext
      · exact hb other d hd
  | stop =>
    cases h
    exact hb
  | exit =>
    rw [step] at h
    split at h
    · cases h
      exact hb
    · cases h

/-- In a run whose steps are all accounted for, no row of any channel vanishes. -/
theorem rows_accounted (registered : Dict String (Config × ℚ)) (alive : Bool)
    {labels : List (Act Row)} {w : Writer Row}
    (halong : Along step Accounted (start registered alive) labels)
    (hrun : run step (start registered alive) labels = some w) :
    ∀ name c, w.channels.get? name = some c → c.Accounts := by
  have hbalanced : w.Balanced :=
    run_invariant_along (fun _ _ _ hb hguard hstep => step_balanced hb hguard hstep)
      (start_balanced registered alive) halong hrun
  intro name c hc
  exact Channel.accounts_of_balanced (hbalanced name c hc)

section Runs

/-- A channel of this size and policy with a buffer of twice the size. -/
def ticks (maxsize : ℕ) (policy : String) : Dict String (Config × ℚ) :=
  Dict.empty.set "ticks"
    ({ channelType := "ticks", maxsize := maxsize, batchSize := 2, overflowPolicy := policy }, 0)

/-- A call of `enqueue` and its next steps. -/
def callOf (row steps : ℕ) : List (ChannelAct ℕ) :=
  .enqueue row :: List.replicate steps (.advance row)

def drainOf (rounds : ℕ) : List (ChannelAct ℕ) :=
  .beginDrain :: List.replicate rounds .drainOne ++ [.endDrain]

/-- A forced flush at this time in ms. -/
def flushAt (time : ℚ) (writes : List Bool) (dumped : Option ℕ) : ChannelAct ℕ :=
  .flushIfDue {
    force := true
    now := time / 1000
    writes := writes
    dumpedAt := time / 1000
    dumped := dumped }

def onTicks (acts : List (ChannelAct ℕ)) : List (Act ℕ) := acts.map (Act.on "ticks")

/-- An eviction that is counted, a batch that fails into a file, and a batch that the second
attempt writes while the next row waits in the queue. -/
def accountedActs : List (Act ℕ) :=
  onTicks (callOf 1 1 ++ callOf 2 5 ++ drainOf 2 ++ [flushAt 5 [] (some 1)] ++ callOf 3 1 ++
    drainOf 2 ++ callOf 4 1 ++ [flushAt 5 [false, true] none]) ++ [.stop]

theorem accountedActs_accounted :
    ∃ w, run step (start (ticks 1 "auto") true) accountedActs = some w ∧
      ∀ name c, w.channels.get? name = some c → c.Accounts :=
  ⟨_, (Option.some_get (by decide +kernel)).symm,
    rows_accounted (ticks 1 "auto") true (by decide +kernel) (Option.some_get _).symm⟩

/-- Two producers find the queue full; the slot that one of them frees goes to the other. -/
def racingActs : List (Act ℕ) :=
  onTicks (callOf 1 1 ++ callOf 2 2 ++ callOf 3 1 ++ [.advance 2, .advance 2, .advance 2])

/-- Two producers drop their rows, and both read the counter before either writes it. -/
def countingActs : List (Act ℕ) :=
  onTicks (callOf 1 1 ++ callOf 2 3 ++ callOf 3 3 ++ [.advance 2, .advance 3])

/-- Two batches fail within a millisecond. -/
def sameNameActs : List (Act ℕ) :=
  onTicks (callOf 1 1 ++ drainOf 2 ++ [flushAt 5 [] (some 1)] ++
    callOf 2 1 ++ drainOf 2 ++ [flushAt 5 [] (some 1)])

/-- A batch fails and its file cannot be opened. -/
def noFileActs : List (Act ℕ) := onTicks (callOf 1 1 ++ drainOf 2 ++ [flushAt 5 [] none])

/-- The rows missing in a channel after a run, when no call and no drain is under way. -/
def missing (registered : Dict String (Config × ℚ)) (acts : List (Act ℕ)) : Option ℤ := do
  let w ← run step (start registered true) acts
  let c ← w.channels.get? "ticks"
  guard (c.calls.items.isEmpty && c.draining.isNone)
  return c.offered.length - (c.queue.length + c.pending.length + c.written.length +
    c.dlqRows.length + c.droppedOldest + c.droppedNewest : ℕ)

theorem missing_eq_zero {registered : Dict String (Config × ℚ)} {acts : List (Act ℕ)} {n : ℤ}
    (h : ∀ w, run step (start registered true) acts = some w →
      ∀ name c, w.channels.get? name = some c → c.Accounts)
    (hmissing : missing registered acts = some n) : n = 0 := by
  obtain ⟨w, hw, hrest⟩ := Option.bind_eq_some_iff.mp hmissing
  obtain ⟨c, hc, hrest⟩ := Option.bind_eq_some_iff.mp hrest
  obtain ⟨_, hidle, hn⟩ := Option.bind_eq_some_iff.mp hrest
  simp only [Option.guard_eq_some', Bool.and_eq_true, List.isEmpty_iff, Option.isNone_iff_eq_none]
    at hidle
  cases hn
  rw [(h w hw "ticks" c hc).settled hidle.1 hidle.2]
  exact Int.sub_self _

/-- The last run drains an unbounded queue into a buffer of twice its size, which is nothing. -/
theorem rows_vanish :
    missing (ticks 1 "auto") racingActs = some 1 ∧
      missing (ticks 1 "drop_newest") countingActs = some 1 ∧
      missing (ticks 1 "auto") sameNameActs = some 1 ∧
      missing (ticks 1 "auto") noFileActs = some 1 ∧
      missing (ticks 0 "auto") (onTicks (callOf 1 1 ++ drainOf 2)) = some 1 ∧
      ¬ ∀ registered acts w, run step (start registered true) acts = some w →
        ∀ name (c : Channel ℕ), w.channels.get? name = some c → c.Accounts := by
  have hracing : missing (ticks 1 "auto") racingActs = some 1 := by decide +kernel
  refine ⟨hracing, by decide +kernel, by decide +kernel, by decide +kernel,
    by decide +kernel, ?_⟩
  intro h
  cases missing_eq_zero (h (ticks 1 "auto") racingActs) hracing

end Runs

end Writer

end MT5Services.StorageWriter
