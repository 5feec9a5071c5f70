import MT5Services.StorageWriter
import Mathlib.Algebra.Order.Archimedean.Basic
import Mathlib.Order.Filter.AtTopBot.Basic
import Mathlib.Order.Filter.Finite

/-!
The end of the writer thread. The loop of `_run` goes on until every queue and every buffer is
empty. A channel with rows gets there when its drains take something and its buffer is flushed:
the channel is enabled and a flush makes an attempt at least. Whether the attempts succeed and
how long a circuit stays open does not matter, as long as the clock advances. The same gates
decide whether a queue that is full gets room again for a producer that blocks on it.
-/
namespace MT5Services.StorageShutdown

open Runs StorageWriter Filter

variable {Row : Type*}

/-! ### The loop -/

/-- `_drain_queue` with no producer in between. -/
def drainQueue (c : Channel Row) : Channel Row :=
  match c.take with
  | none => c
  | some rounds => { c with
      queue := c.queue.drop rounds
      pending := (c.pending ++ c.queue.take rounds).rtake c.config.pendingMaxlen }

/-- Rows that producers put into the queue. -/
def arrive (c : Channel Row) (extra : List Row) : Channel Row :=
  { c with queue := c.queue ++ extra }

variable [DecidableEq Row]

/-- One channel in one round of the loop, after what producers have put. -/
def iteration (c : Channel Row) (extra : List Row) (f : Flush) : Channel Row :=
  (drainQueue (arrive c extra)).flushIfDue f

def after (c : Channel Row) (extra : ℕ → List Row) (flush : ℕ → Flush) : ℕ → Channel Row
  | 0 => c
  | n + 1 => iteration (after c extra flush n) (extra n) (flush n)

/-- What the flushes of a channel meet, round by round: the loop forces none, the channel is
enabled or not, and the clock advances beyond every bound. -/
structure Schedule (enabled : Bool) where
  flush : ℕ → Flush
  unforced : ∀ n, (flush n).force = false
  enabled_eq : ∀ n, (flush n).enabled = enabled
  advances : ∀ bound, ∃ n, ∀ k, n ≤ k → bound ≤ (flush k).now

/-- The rounds of `_run` over all channels. -/
def loop (w : Writer Row) (extra : ℕ → String → List Row) (flush : ℕ → String → Flush) :
    ℕ → Writer Row
  | 0 => w
  | n + 1 =>
    let before := loop w extra flush n
    { before with
      channels := before.channels.mapValues fun name c =>
        iteration c (extra n name) (flush n name) }

/-- The bounds that `queue.Queue` and `deque` keep. -/
structure Bounded (c : Channel Row) : Prop where
  queue : c.config.maxsize = 0 ∨ c.queue.length ≤ c.config.maxsize
  pending : c.pending.length ≤ c.config.pendingMaxlen

/-- A service with any contents. -/
structure Service (Row : Type*) extends Writer Row where
  bounded : ∀ name c, channels.get? name = some c → Bounded c

/-- Producers put no more than fits. -/
def Fits (w : Writer Row) (extra : ℕ → String → List Row) (flush : ℕ → String → Flush) : Prop :=
  ∀ n name c, (loop w extra flush n).channels.get? name = some c →
    c.config.maxsize = 0 ∨ c.queue.length + (extra n name).length ≤ c.config.maxsize

/-- With the stop event set and no producer left the loop ends, and every queue that a producer
may block on has room again, whatever the other producers put into it. -/
structure ShutsDown (w : Writer Row) (flush : ℕ → String → Flush) : Prop where
  ends : ∃ n, (loop w (fun _ _ => []) flush n).hasPending = false
  serves : ∀ extra, Fits w extra flush → ∀ name c, w.channels.get? name = some c →
    c.config.resolveOverflowPolicy = "block" →
      ∃ n t, (loop w extra flush n).channels.get? name = some t ∧ t.HasRoom

def Clear (c : Channel Row) : Prop := c.queue = [] ∧ c.pending = []

/-- Nothing is left, or drains take something and flushes make an attempt. A buffer that keeps
nothing needs no flush. -/
def Empties (c : Channel Row) (enabled : Bool) : Prop :=
  Clear c ∨
    ((c.queue = [] ∨ 1 ≤ c.config.batchSize) ∧
      (c.config.pendingMaxlen = 0 ∨ (enabled = true ∧ 1 ≤ c.config.flushRetryAttempts)))

/-- The queue has room, or a drain takes something now or after a flush. -/
def Serves (c : Channel Row) (enabled : Bool) : Prop :=
  c.config.resolveOverflowPolicy ≠ "block" ∨ c.HasRoom ∨
    (1 ≤ c.config.batchSize ∧
      (c.config.pendingMaxlen = 0 ∨ c.pending.length < c.config.pendingMaxlen ∨
        (enabled = true ∧ 1 ≤ c.config.flushRetryAttempts)))

/-! ### Drains and flushes -/

section Steps

variable {c : Channel Row} {f : Flush}

omit [DecidableEq Row] in
@[simp] theorem config_drainQueue (c : Channel Row) : (drainQueue c).config = c.config := by
  unfold drainQueue
  split
  · rfl
  · rfl

omit [DecidableEq Row] in
@[simp] theorem lastFlush_drainQueue (c : Channel Row) :
    (drainQueue c).lastFlush = c.lastFlush := by
  unfold drainQueue
  split
  · rfl
  · rfl

omit [DecidableEq Row] in
@[simp] theorem circuit_drainQueue (c : Channel Row) :
    (drainQueue c).flushCircuitOpenUntil = c.flushCircuitOpenUntil := by
  unfold drainQueue
  split
  · rfl
  · rfl

omit [DecidableEq Row] in
theorem queue_drainQueue (c : Channel Row) :
    (drainQueue c).queue = c.queue.drop (c.take.getD 0) := by
  unfold drainQueue
  cases c.take with
  | none => rfl
  | some rounds => rfl

omit [DecidableEq Row] in
/-- A drain moves rows, it loses none. -/
theorem pending_drainQueue (hmaxlen : c.config.pendingMaxlen ≠ 0) :
    (drainQueue c).pending = c.pending ++ c.queue.take (c.take.getD 0) := by
  unfold drainQueue
  cases htake : c.take with
  | none => rw [Option.getD_none, List.take_zero, List.append_nil]
  | some rounds =>
    have hfits := Channel.take_fits htake hmaxlen
    refine Windows.rtake_of_length_le ?_
    rw [List.length_append, List.length_take]
    omega

omit [DecidableEq Row] in
theorem pending_drainQueue_le (hpending : c.pending.length ≤ c.config.pendingMaxlen) :
    (drainQueue c).pending.length ≤ c.config.pendingMaxlen := by
  unfold drainQueue
  split
  · exact hpending
  · rw [Windows.length_rtake]
    exact Nat.min_le_left ..

omit [DecidableEq Row] in
theorem take_pos (hbatch : 1 ≤ c.config.batchSize)
    (hroom : c.config.pendingMaxlen = 0 ∨ c.pending.length < c.config.pendingMaxlen) :
    1 ≤ c.take.getD 0 := by
  unfold Channel.take
  dsimp only
  split_ifs with hmaxlen hfull
  · omega
  · rw [Option.getD_some]
    omega
  · exact hbatch

omit [DecidableEq Row] in
theorem take_eq_zero (hblocked : c.config.batchSize = 0 ∨
    (c.config.pendingMaxlen ≠ 0 ∧ c.config.pendingMaxlen ≤ c.pending.length)) :
    c.take.getD 0 = 0 := by
  unfold Channel.take
  dsimp only
  split_ifs with hmaxlen hfull
  · rfl
  · rw [Option.getD_some]
    omega
  · rw [Option.getD_some]
    omega

/-- A flush clears the buffer or changes nothing. -/
theorem flushIfDue_cases (c : Channel Row) (f : Flush) : c.flushIfDue f = c ∨
    ((c.flushIfDue f).pending = [] ∧ (c.flushIfDue f).queue = c.queue ∧
      (c.flushIfDue f).config = c.config ∧ c.Due f ∧ c.config.flushRetryAttempts ≠ 0) := by
  rw [Channel.flushIfDue]
  split
  · exact Or.inl rfl
  · rename_i hdue
    split
    · exact Or.inl rfl
    · rename_i hattempts
      split
      · exact Or.inr ⟨rfl, rfl, rfl, not_not.mp hdue, hattempts⟩
      · refine Or.inr ⟨rfl, ?_, ?_, not_not.mp hdue, hattempts⟩
        · unfold Channel.giveUp Channel.dumpToDlq
          split <;> rfl
        · unfold Channel.giveUp Channel.dumpToDlq
          split <;> rfl

theorem pending_flushIfDue_of_due (hdue : c.Due f) (hattempts : c.config.flushRetryAttempts ≠ 0) :
    (c.flushIfDue f).pending = [] := by
  rw [Channel.flushIfDue, if_neg (not_not.mpr hdue), if_neg hattempts]
  split
  · rfl
  · rfl

@[simp] theorem queue_flushIfDue (c : Channel Row) (f : Flush) :
    (c.flushIfDue f).queue = c.queue := by
  rcases flushIfDue_cases c f with hsame | ⟨-, hqueue, -⟩
  · rw [hsame]
  · exact hqueue

@[simp] theorem config_flushIfDue (c : Channel Row) (f : Flush) :
    (c.flushIfDue f).config = c.config := by
  rcases flushIfDue_cases c f with hsame | ⟨-, -, hconfig, -⟩
  · rw [hsame]
  · exact hconfig

theorem pending_flushIfDue_of_nil (hnil : c.pending = []) : (c.flushIfDue f).pending = [] := by
  rcases flushIfDue_cases c f with hsame | ⟨hcleared, -⟩
  · rw [hsame]
    exact hnil
  · exact hcleared

/-- Without an attempt nothing is flushed. -/
theorem flushIfDue_of_closed (h : f.enabled = false ∨ c.config.flushRetryAttempts = 0) :
    c.flushIfDue f = c := by
  rcases flushIfDue_cases c f with hsame | ⟨-, -, -, hdue, hattempts⟩
  · exact hsame
  · rcases h with hdisabled | hnone
    · rw [hdue.2.1] at hdisabled
      cases hdisabled
    · exact absurd hnone hattempts

/-- The rounds of a drain one by one, and its end. -/
theorem exists_run_endDrain (stopped alive : Bool) {drain : Drain Row}
    (hdrain : c.draining = some drain) :
    ∃ acts, run (fun c act => c.step stopped alive act) c acts = some { c with
      queue := c.queue.drop drain.rounds
      pending := (c.pending ++ (drain.drained ++ c.queue.take drain.rounds)).rtake
        c.config.pendingMaxlen
      draining := none } := by
  induction hrounds : drain.rounds using Nat.strong_induction_on generalizing c drain with
  | _ rounds ih =>
    by_cases hzero : rounds = 0
    · refine ⟨[.endDrain], ?_⟩
      simp [run, Channel.step, hdrain, hrounds, hzero, Channel.endDrain]
    · have hstep : c.step stopped alive .drainOne = some (c.drainOne drain) := by
        simp [Channel.step, hdrain, hrounds, hzero]
      cases hqueue : c.queue with
      | nil =>
        have hnext : (c.drainOne drain).draining = some { drain with rounds := 0 } := by
          rw [Channel.drainOne, hqueue]
        obtain ⟨acts, hacts⟩ := ih 0 (Nat.pos_of_ne_zero hzero) hnext rfl
        refine ⟨.drainOne :: acts, ?_⟩
        rw [run, hstep, Option.bind_some, hacts, Channel.drainOne, hqueue]
        simp
      | cons row rest =>
        have hnext : (c.drainOne drain).draining =
            some { drained := drain.drained ++ [row], rounds := drain.rounds - 1 } := by
          rw [Channel.drainOne, hqueue]
        obtain ⟨acts, hacts⟩ := ih (rounds - 1) (by omega) hnext (by rw [hrounds])
        refine ⟨.drainOne :: acts, ?_⟩
        rw [run, hstep, Option.bind_some, hacts, Channel.drainOne, hqueue]
        obtain ⟨less, rfl⟩ := Nat.exists_eq_succ_of_ne_zero hzero
        simp

/-- A round without producers is a run of the writer's steps on the channel. -/
theorem exists_run_iteration (stopped : Bool) (hfree : c.draining = none) (f : Flush) :
    ∃ acts, run (fun c act => c.step stopped true act) c acts = some (iteration c [] f) := by
  have hdrains : ∃ acts, run (fun c act => c.step stopped true act) c acts =
      some (drainQueue c) ∧ (drainQueue c).draining = none := by
    have hbegin : c.step stopped true .beginDrain = some c.beginDrain := by
      simp [Channel.step, hfree]
    unfold drainQueue
    cases htake : c.take with
    | none => exact ⟨[], rfl, hfree⟩
    | some rounds =>
      have hstarted : c.beginDrain.draining = some { rounds := rounds } := by
        rw [Channel.beginDrain, htake]
      obtain ⟨acts, hacts⟩ := exists_run_endDrain stopped true hstarted
      refine ⟨.beginDrain :: acts, ?_, hfree⟩
      rw [run, hbegin, Option.bind_some, hacts, Channel.beginDrain, htake, hfree]
      rfl
  obtain ⟨acts, hacts, hidle⟩ := hdrains
  refine ⟨acts ++ [.flushIfDue f], ?_⟩
  have harrive : arrive c [] = c := by rw [arrive, List.append_nil]
  rw [run_append, hacts, Option.bind_some, run, iteration, harrive]
  simp [Channel.step, hidle, run]

end Steps

/-! ### Rounds of one channel -/

section Rounds

variable {c : Channel Row} {extra : ℕ → List Row} {flush : ℕ → Flush}

@[simp] theorem config_iteration (c : Channel Row) (rows : List Row) (f : Flush) :
    (iteration c rows f).config = c.config := by
  rw [iteration, config_flushIfDue, config_drainQueue]
  rfl

theorem queue_iteration (c : Channel Row) (rows : List Row) (f : Flush) :
    (iteration c rows f).queue = (c.queue ++ rows).drop (c.take.getD 0) := by
  rw [iteration, queue_flushIfDue, queue_drainQueue]
  rfl

theorem pending_iteration_le (rows : List Row) (f : Flush)
    (hpending : c.pending.length ≤ c.config.pendingMaxlen) :
    (iteration c rows f).pending.length ≤ c.config.pendingMaxlen := by
  have hdrained : (drainQueue (arrive c rows)).pending.length ≤ c.config.pendingMaxlen :=
    pending_drainQueue_le (c := arrive c rows) hpending
  rcases flushIfDue_cases (drainQueue (arrive c rows)) f with hsame | ⟨hcleared, -⟩
  · rw [iteration, hsame]
    exact hdrained
  · rw [iteration, hcleared]
    exact Nat.zero_le _

@[simp] theorem config_after (c : Channel Row) (extra : ℕ → List Row) (flush : ℕ → Flush)
    (n : ℕ) : (after c extra flush n).config = c.config := by
  induction n with
  | zero => rfl
  | succ n ih => rw [after, config_iteration, ih]

theorem pending_after_le (hpending : c.pending.length ≤ c.config.pendingMaxlen)
    (extra : ℕ → List Row) (flush : ℕ → Flush) (n : ℕ) :
    (after c extra flush n).pending.length ≤ c.config.pendingMaxlen := by
  induction n with
  | zero => exact hpending
  | succ n ih =>
    rw [after]
    have hnext := pending_iteration_le (c := after c extra flush n) (extra n) (flush n)
    rw [config_after] at hnext
    exact hnext ih

/-- A round in which the buffer stays as it is before its flush leaves the times alone. -/
theorem times_iteration {rows : List Row} {f : Flush}
    (hpending : (iteration c rows f).pending ≠ []) :
    (iteration c rows f).lastFlush = c.lastFlush ∧
      (iteration c rows f).flushCircuitOpenUntil = c.flushCircuitOpenUntil := by
  rcases flushIfDue_cases (drainQueue (arrive c rows)) f with hsame | ⟨hcleared, -⟩
  · rw [iteration, hsame, lastFlush_drainQueue, circuit_drainQueue]
    exact ⟨rfl, rfl⟩
  · exact absurd hcleared hpending

/-- While the buffer stays filled no flush changes the times. -/
theorem times_after {start : ℕ}
    (hfilled : ∀ n, start ≤ n → (after c extra flush n).pending ≠ []) (n : ℕ) (hn : start ≤ n) :
    (after c extra flush n).lastFlush = (after c extra flush start).lastFlush ∧
      (after c extra flush n).flushCircuitOpenUntil =
        (after c extra flush start).flushCircuitOpenUntil := by
  induction n, hn using Nat.le_induction with
  | base => exact ⟨rfl, rfl⟩
  | succ n hn ih =>
    obtain ⟨hlast, hcircuit⟩ := times_iteration (hfilled (n + 1) (Nat.le_succ_of_le hn))
    exact ⟨hlast.trans ih.1, hcircuit.trans ih.2⟩

/-- A round that is late enough and makes attempts empties the buffer. -/
theorem pending_iteration_of_late {rows : List Row} {f : Flush} (henabled : f.enabled = true)
    (hattempts : 1 ≤ c.config.flushRetryAttempts)
    (hlate : max c.flushCircuitOpenUntil (c.lastFlush + c.config.flushInterval) ≤ f.now) :
    (iteration c rows f).pending = [] := by
  rw [iteration]
  by_cases hnil : (drainQueue (arrive c rows)).pending = []
  · exact pending_flushIfDue_of_nil hnil
  · refine pending_flushIfDue_of_due ⟨hnil, henabled, Or.inl ?_, Or.inr (Or.inl ?_)⟩ ?_
    · rw [circuit_drainQueue]
      exact (le_max_left ..).trans hlate
    · rw [lastFlush_drainQueue, config_drainQueue]
      have hpassed : c.lastFlush + c.config.flushInterval ≤ f.now :=
        (le_max_right ..).trans hlate
      exact le_sub_iff_add_le'.mpr hpassed
    · rw [config_drainQueue]
      exact Nat.one_le_iff_ne_zero.mp hattempts

/-- While flushes make attempts the buffer is empty again and again: if it stayed filled, no
flush would change the times, and the clock passes both. -/
theorem frequently_pending_nil {enabled : Bool} (schedule : Schedule enabled)
    (extra : ℕ → List Row) (henabled : enabled = true)
    (hattempts : 1 ≤ c.config.flushRetryAttempts) :
    ∃ᶠ n in atTop, (after c extra schedule.flush n).pending = [] := by
  by_contra hnever
  rw [not_frequently, eventually_atTop] at hnever
  obtain ⟨start, hfilled⟩ := hnever
  let first := after c extra schedule.flush start
  obtain ⟨late, hlate⟩ := schedule.advances
    (max first.flushCircuitOpenUntil (first.lastFlush + c.config.flushInterval))
  let n := max start late
  have hn : start ≤ n := le_max_left ..
  obtain ⟨hlast, hcircuit⟩ := times_after hfilled n hn
  refine hfilled (n + 1) (Nat.le_succ_of_le hn) (pending_iteration_of_late ?_ ?_ ?_)
  · exact (schedule.enabled_eq n).trans henabled
  · rwa [config_after]
  · rw [config_after, hlast, hcircuit]
    exact hlate n (le_max_right ..)

/-- The same for a buffer that keeps nothing. -/
theorem frequently_pending_nil_of_empties {enabled : Bool} (schedule : Schedule enabled)
    (extra : ℕ → List Row) (hc : Bounded c) (h : c.config.pendingMaxlen = 0 ∨
      (enabled = true ∧ 1 ≤ c.config.flushRetryAttempts)) :
    ∃ᶠ n in atTop, (after c extra schedule.flush n).pending = [] := by
  rcases h with hmaxlen | ⟨henabled, hattempts⟩
  · refine (Eventually.of_forall ?_).frequently
    intro n
    have hle := pending_after_le hc.pending extra schedule.flush n
    rw [hmaxlen, Nat.le_zero] at hle
    exact List.eq_nil_of_length_eq_zero hle
  · exact frequently_pending_nil schedule extra henabled hattempts

/-- A round that can take a row shortens what is in the queue. -/
theorem length_queue_after_succ {n : ℕ} (hbatch : 1 ≤ c.config.batchSize)
    (hroom : c.config.pendingMaxlen = 0 ∨
      (after c extra flush n).pending.length < c.config.pendingMaxlen) :
    (after c extra flush (n + 1)).queue.length ≤
      (after c extra flush n).queue.length + (extra n).length - 1 := by
  have htake : 1 ≤ (after c extra flush n).take.getD 0 := by
    apply take_pos
    · rwa [config_after]
    · rwa [config_after]
  rw [after, queue_iteration, List.length_drop, List.length_append]
  omega

end Rounds

/-! ### Draining without producers -/

section Draining

variable {c : Channel Row} {enabled : Bool} {f : Flush} {flush : ℕ → Flush}

/-- A round takes what is in front of the queue. -/
theorem queue_iteration_nil (c : Channel Row) (f : Flush) :
    (iteration c [] f).queue = c.queue.drop (c.take.getD 0) := by
  rw [queue_iteration, List.append_nil]

theorem antitone_length_queue (c : Channel Row) (flush : ℕ → Flush) :
    Antitone fun n => (after c (fun _ => []) flush n).queue.length := by
  refine antitone_nat_of_succ_le ?_
  intro n
  rw [after, queue_iteration_nil, List.length_drop]
  exact Nat.sub_le ..

theorem clear_iteration (h : Clear c) : Clear (iteration c [] f) := by
  refine ⟨?_, pending_flushIfDue_of_nil ?_⟩
  · rw [queue_iteration_nil, h.1, List.drop_nil]
  · have harrive : arrive c [] = c := by rw [arrive, List.append_nil]
    rw [harrive]
    unfold drainQueue
    split
    · exact h.2
    · dsimp only
      rw [h.1, h.2, List.take_nil, List.append_nil]
      exact List.drop_nil

theorem clear_after {start : ℕ} (h : Clear (after c (fun _ => []) flush start)) (n : ℕ)
    (hn : start ≤ n) : Clear (after c (fun _ => []) flush n) := by
  induction n, hn using Nat.le_induction with
  | base => exact h
  | succ n hn ih => exact clear_iteration ih

/-- Between two rounds that find the buffer empty the queue gets shorter. -/
theorem exists_queue_nil (hbatch : 1 ≤ c.config.batchSize)
    (hfrequently : ∃ᶠ n in atTop, (after c (fun _ => []) flush n).pending = []) :
    ∃ n, (after c (fun _ => []) flush n).queue = [] := by
  have hshorter : ∀ gone, ∃ n,
      (after c (fun _ => []) flush n).queue.length ≤ c.queue.length - gone := by
    intro gone
    induction gone with
    | zero => exact ⟨0, le_rfl⟩
    | succ gone ih =>
      obtain ⟨n, hn⟩ := ih
      obtain ⟨k, hk, hnil⟩ := frequently_atTop.mp hfrequently n
      have hmono := antitone_length_queue c flush hk
      have hroom : c.config.pendingMaxlen = 0 ∨
          (after c (fun _ => []) flush k).pending.length < c.config.pendingMaxlen := by
        rw [hnil, List.length_nil]
        omega
      have hnext := length_queue_after_succ hbatch hroom
      refine ⟨k + 1, hnext.trans ?_⟩
      dsimp only at hmono
      rw [List.length_nil]
      omega
  obtain ⟨n, hn⟩ := hshorter c.queue.length
  refine ⟨n, List.eq_nil_of_length_eq_zero ?_⟩
  omega

theorem eventually_clear (schedule : Schedule enabled) (hc : Bounded c) (h : Empties c enabled) :
    ∀ᶠ n in atTop, Clear (after c (fun _ => []) schedule.flush n) := by
  rw [eventually_atTop]
  rcases h with hclear | ⟨hqueue, hflushes⟩
  · have hstart : Clear (after c (fun _ => []) schedule.flush 0) := hclear
    exact ⟨0, clear_after hstart⟩
  · have hfrequently :=
      frequently_pending_nil_of_empties schedule (fun _ => []) hc hflushes
    have hempty : ∃ n, (after c (fun _ => []) schedule.flush n).queue = [] := by
      rcases hqueue with hnil | hbatch
      · exact ⟨0, hnil⟩
      · exact exists_queue_nil hbatch hfrequently
    obtain ⟨n, hn⟩ := hempty
    obtain ⟨k, hk, hnil⟩ := frequently_atTop.mp hfrequently n
    have hmono := antitone_length_queue c schedule.flush hk
    dsimp only at hmono
    rw [hn, List.length_nil, Nat.le_zero] at hmono
    exact ⟨k, clear_after ⟨List.eq_nil_of_length_eq_zero hmono, hnil⟩⟩

/-- Where drains take nothing the queue stays. -/
theorem queue_iteration_of_blocked (hblocked : c.config.batchSize = 0 ∨
    (c.config.pendingMaxlen ≠ 0 ∧ c.config.pendingMaxlen ≤ c.pending.length)) :
    (iteration c [] f).queue = c.queue := by
  rw [queue_iteration_nil, take_eq_zero hblocked, List.drop_zero]

/-- Where no flush makes an attempt a round only moves rows. -/
theorem pending_iteration_of_closed (hmaxlen : c.config.pendingMaxlen ≠ 0)
    (hclosed : ¬ (f.enabled = true ∧ 1 ≤ c.config.flushRetryAttempts)) :
    (iteration c [] f).pending = c.pending ++ c.queue.take (c.take.getD 0) := by
  have harrive : arrive c [] = c := by rw [arrive, List.append_nil]
  have hnone : f.enabled = false ∨ (drainQueue c).config.flushRetryAttempts = 0 := by
    rw [config_drainQueue]
    rcases Bool.eq_false_or_eq_true f.enabled with hon | hoff
    · exact Or.inr (by
        by_contra hsome
        exact hclosed ⟨hon, Nat.one_le_iff_ne_zero.mpr hsome⟩)
    · exact Or.inl hoff
  rw [iteration, harrive, flushIfDue_of_closed hnone, pending_drainQueue hmaxlen]

/-- A channel that a round leaves able to empty was able to empty before it. -/
theorem empties_of_iteration (henabled : f.enabled = enabled)
    (h : Empties (iteration c [] f) enabled) : Empties c enabled := by
  have hqueue : (iteration c [] f).queue = [] → c.queue = [] ∨ 1 ≤ c.config.batchSize := by
    intro hnil
    by_cases hbatch : c.config.batchSize = 0
    · rw [queue_iteration_of_blocked (Or.inl hbatch)] at hnil
      exact Or.inl hnil
    · exact Or.inr (Nat.one_le_iff_ne_zero.mpr hbatch)
  rcases h with ⟨hnil, hpending⟩ | ⟨hdrains, hflushes⟩
  · by_cases hflushes : c.config.pendingMaxlen = 0 ∨
        (enabled = true ∧ 1 ≤ c.config.flushRetryAttempts)
    · exact Or.inr ⟨hqueue hnil, hflushes⟩
    · obtain ⟨hmaxlen, hclosed⟩ := not_or.mp hflushes
      rw [← henabled] at hclosed
      rw [pending_iteration_of_closed hmaxlen hclosed] at hpending
      obtain ⟨hkept, htaken⟩ := List.append_eq_nil_iff.mp hpending
      rw [queue_iteration_nil] at hnil
      refine Or.inl ⟨?_, hkept⟩
      rw [← List.take_append_drop (c.take.getD 0) c.queue, htaken, hnil, List.append_nil]
  · rw [config_iteration] at hdrains hflushes
    exact Or.inr ⟨hdrains.elim hqueue Or.inr, hflushes⟩

theorem empties_of_after (schedule : Schedule enabled) (n : ℕ)
    (h : Empties (after c (fun _ => []) schedule.flush n) enabled) : Empties c enabled := by
  induction n with
  | zero => exact h
  | succ n ih => exact ih (empties_of_iteration (schedule.enabled_eq n) h)

/-- The same for the room in the queue. -/
theorem serves_of_iteration (henabled : f.enabled = enabled)
    (h : Serves (iteration c [] f) enabled) : Serves c enabled := by
  by_cases hgates : 1 ≤ c.config.batchSize ∧ (c.config.pendingMaxlen = 0 ∨
      c.pending.length < c.config.pendingMaxlen ∨
        (enabled = true ∧ 1 ≤ c.config.flushRetryAttempts))
  · exact Or.inr (Or.inr hgates)
  · have hblocked : c.config.batchSize = 0 ∨
        (c.config.pendingMaxlen ≠ 0 ∧ c.config.pendingMaxlen ≤ c.pending.length) := by
      by_cases hbatch : c.config.batchSize = 0
      · exact Or.inl hbatch
      · obtain ⟨hmaxlen, hrest⟩ :=
          not_or.mp (not_and.mp hgates (Nat.one_le_iff_ne_zero.mpr hbatch))
        exact Or.inr ⟨hmaxlen, not_lt.mp (not_or.mp hrest).1⟩
    have hqueue := queue_iteration_of_blocked (f := f) hblocked
    rcases h with hpolicy | hroom | ⟨hbatch, hflushes⟩
    · rw [config_iteration] at hpolicy
      exact Or.inl hpolicy
    · rw [Channel.HasRoom, config_iteration, hqueue] at hroom
      exact Or.inr (Or.inl hroom)
    · rw [config_iteration] at hbatch hflushes
      obtain ⟨hmaxlen, hrest⟩ := not_or.mp (not_and.mp hgates hbatch)
      obtain ⟨hfull, hclosed⟩ := not_or.mp hrest
      have hkept : c.pending.length ≤ (iteration c [] f).pending.length := by
        rw [← henabled] at hclosed
        rw [pending_iteration_of_closed hmaxlen hclosed, List.length_append]
        exact Nat.le_add_right ..
      rcases hflushes with hzero | hless | hopen
      · exact absurd hzero hmaxlen
      · exact absurd (hkept.trans_lt hless) hfull
      · exact absurd hopen hclosed

theorem serves_of_after (schedule : Schedule enabled) (n : ℕ)
    (h : Serves (after c (fun _ => []) schedule.flush n) enabled) : Serves c enabled := by
  induction n with
  | zero => exact h
  | succ n ih => exact ih (serves_of_iteration (schedule.enabled_eq n) h)

end Draining

/-! ### Room for a producer -/

section Room

variable {c : Channel Row} {enabled : Bool} {extra : ℕ → List Row}

/-- After a round that takes a row the queue is below its size, whatever fitted into it. -/
theorem hasRoom_after_succ {flush : ℕ → Flush} {n : ℕ} (hbatch : 1 ≤ c.config.batchSize)
    (hroom : c.config.pendingMaxlen = 0 ∨
      (after c extra flush n).pending.length < c.config.pendingMaxlen)
    (hfits : c.config.maxsize = 0 ∨
      (after c extra flush n).queue.length + (extra n).length ≤ c.config.maxsize) :
    (after c extra flush (n + 1)).HasRoom := by
  have hlength := length_queue_after_succ hbatch hroom
  rw [Channel.HasRoom, config_after]
  omega

theorem exists_hasRoom (schedule : Schedule enabled)
    (hblock : c.config.resolveOverflowPolicy = "block") (h : Serves c enabled)
    (hfits : ∀ n, c.config.maxsize = 0 ∨
      (after c extra schedule.flush n).queue.length + (extra n).length ≤ c.config.maxsize) :
    ∃ n, (after c extra schedule.flush n).HasRoom := by
  rcases h with hpolicy | hroom | ⟨hbatch, hgates⟩
  · exact absurd hblock hpolicy
  · exact ⟨0, hroom⟩
  · have hbuffer : ∃ n, c.config.pendingMaxlen = 0 ∨
        (after c extra schedule.flush n).pending.length < c.config.pendingMaxlen := by
      rcases hgates with hmaxlen | hless | ⟨henabled, hattempts⟩
      · exact ⟨0, Or.inl hmaxlen⟩
      · exact ⟨0, Or.inr hless⟩
      · obtain ⟨n, hnil⟩ := (frequently_pending_nil schedule extra henabled hattempts).exists
        refine ⟨n, ?_⟩
        rw [hnil, List.length_nil]
        omega
    obtain ⟨n, hn⟩ := hbuffer
    exact ⟨n + 1, hasRoom_after_succ hbatch hn (hfits n)⟩

end Room

/-! ### All channels -/

theorem get?_loop (w : Writer Row) (extra : ℕ → String → List Row) (flush : ℕ → String → Flush)
    (n : ℕ) (name : String) : (loop w extra flush n).channels.get? name =
      (w.channels.get? name).map fun c =>
        after c (fun k => extra k name) (fun k => flush k name) n := by
  induction n with
  | zero => exact (Option.map_id' ..).symm
  | succ n ih =>
    rw [loop]
    dsimp only
    rw [Dict.get?_mapValues, ih, Option.map_map]
    rfl

omit [DecidableEq Row] in
theorem hasPending_eq_false_iff (w : Writer Row) : w.hasPending = false ↔
    ∀ name c, w.channels.get? name = some c → Clear c := by
  simp only [Writer.hasPending, List.any_eq_false, Dict.values, List.mem_map, Prod.exists,
    exists_eq_right, ← Dict.mem_items_iff_get?, Clear, Bool.or_eq_true, Bool.not_eq_true',
    List.isEmpty_eq_false_iff, not_or, not_not]
  exact ⟨fun h name c hc => h c ⟨name, hc⟩, fun h c hc => h hc.choose c hc.choose_spec⟩

theorem get?_loop_of_get? {w : Writer Row} {name : String} {c : Channel Row}
    (hc : w.channels.get? name = some c) (extra : ℕ → String → List Row)
    (flush : ℕ → String → Flush) (n : ℕ) : (loop w extra flush n).channels.get? name =
      some (after c (fun k => extra k name) (fun k => flush k name) n) := by
  rw [get?_loop, hc]
  rfl

/-- With no producer what is in the queue stays within its size. -/
theorem fits_nothing (s : Service Row) (flush : ℕ → String → Flush) :
    Fits s.toWriter (fun _ _ => []) flush := by
  intro n name t ht
  rw [get?_loop] at ht
  obtain ⟨c, hc, rfl⟩ := Option.map_eq_some_iff.mp ht
  have hmono := antitone_length_queue c (fun k => flush k name) (Nat.zero_le n)
  rw [config_after, List.length_nil, Nat.add_zero]
  exact (s.bounded name c hc).queue.imp_right hmono.trans

/-- Channels that can empty are all empty from some round on. -/
theorem exists_done (s : Service Row) (enabled : String → Bool)
    (schedule : (name : String) → Schedule (enabled name))
    (h : ∀ name c, s.channels.get? name = some c → Empties c (enabled name)) :
    ∃ n, (loop s.toWriter (fun _ _ => []) (fun n name => (schedule name).flush n) n).hasPending =
      false := by
  have heach : ∀ item ∈ {item | item ∈ s.channels.items}, ∀ᶠ n in atTop,
      Clear (after item.2 (fun _ => []) (schedule item.1).flush n) := by
    intro item hitem
    have hget := (Dict.mem_items_iff_get? s.channels item.1 item.2).mp hitem
    exact eventually_clear (schedule item.1) (s.bounded _ _ hget) (h _ _ hget)
  have hall := (eventually_all_finite (List.finite_toSet s.channels.items)).mpr heach
  obtain ⟨n, hn⟩ := hall.exists
  refine ⟨n, (hasPending_eq_false_iff _).mpr ?_⟩
  intro name t ht
  rw [get?_loop] at ht
  obtain ⟨c, hc, rfl⟩ := Option.map_eq_some_iff.mp ht
  exact hn (name, c) ((Dict.mem_items_iff_get? ..).mpr hc)

/-- The loop of the writer thread ends with everything empty, and no producer blocks for ever,
exactly when every channel has its gates open for what it holds. -/
theorem shuts_down_iff (s : Service Row) (enabled : String → Bool)
    (schedule : (name : String) → Schedule (enabled name)) :
    ShutsDown s.toWriter (fun n name => (schedule name).flush n) ↔
      ∀ name c, s.channels.get? name = some c →
        Empties c (enabled name) ∧ Serves c (enabled name) := by
  constructor
  · rintro ⟨⟨n, hends⟩, hserves⟩ name c hc
    constructor
    · have hclear := (hasPending_eq_false_iff _).mp hends name _ (get?_loop_of_get? hc _ _ n)
      exact empties_of_after (schedule name) n (Or.inl hclear)
    · by_cases hblock : c.config.resolveOverflowPolicy = "block"
      · obtain ⟨k, t, ht, hroom⟩ :=
          hserves (fun _ _ => []) (fits_nothing s _) name c hc hblock
        rw [get?_loop_of_get? hc] at ht
        cases ht
        exact serves_of_after (schedule name) k (Or.inr (Or.inl hroom))
      · exact Or.inl hblock
  · intro h
    constructor
    · exact exists_done s enabled schedule fun name c hc => (h name c hc).1
    · intro extra hfits name c hc hblock
      have hfitsHere : ∀ k, c.config.maxsize = 0 ∨
          (after c (fun k => extra k name) (schedule name).flush k).queue.length +
            (extra k name).length ≤ c.config.maxsize := by
        intro k
        have hk := hfits k name _ (get?_loop_of_get? hc _ _ k)
        rwa [config_after] at hk
      obtain ⟨n, hroom⟩ :=
        exists_hasRoom (schedule name) hblock (h name c hc).2 hfitsHere
      exact ⟨n, _, get?_loop_of_get? hc _ _ n, hroom⟩

section Stuck

/-- A full `ohlc` channel. -/
def fullChannel : Channel ℕ where
  config := { channelType := "ohlc", maxsize := 1, batchSize := 2 }
  queue := [3]
  pending := [1, 2]
  lastFlush := 0

def fullService : Service ℕ where
  stopped := true
  alive := true
  channels := Dict.empty.set "ohlc" fullChannel
  bounded := by
    intro name c hc
    rw [Dict.get?_set] at hc
    split at hc
    · cases hc
      exact ⟨by decide, by decide⟩
    · cases hc

/-- The clock advances and the channel is disabled. -/
def disabledSchedule : Schedule false where
  flush n := { enabled := false, now := n }
  unforced _ := rfl
  enabled_eq _ := rfl
  advances bound := by
    obtain ⟨n, hn⟩ := exists_nat_ge bound
    refine ⟨n, ?_⟩
    intro k hk
    exact hn.trans (Nat.cast_le.mpr hk)

/-- A disabled channel keeps the loop going for ever, and its producer in `put`. -/
theorem disabled_channel_hangs :
    (∀ n, (loop fullService.toWriter (fun _ _ => []) (fun n _ => disabledSchedule.flush n)
      n).hasPending = true) ∧
    (∀ n t, (loop fullService.toWriter (fun _ _ => []) (fun n _ => disabledSchedule.flush n)
      n).channels.get? "ohlc" = some t → ¬ t.HasRoom) ∧
    ¬ ∀ (s : Service ℕ) (enabled : String → Bool)
        (schedule : (name : String) → Schedule (enabled name)),
      ShutsDown s.toWriter fun n name => (schedule name).flush n := by
  have hloop : ∀ n, (loop fullService.toWriter (fun _ _ => [])
      (fun n _ => disabledSchedule.flush n) n).channels.get? "ohlc" =
        some (after fullChannel (fun _ => []) disabledSchedule.flush n) :=
    get?_loop_of_get? rfl _ _
  have hempties : ¬ Empties fullChannel false := by
    unfold Empties Clear
    decide
  have hserves : ¬ Serves fullChannel false := by
    unfold Serves
    decide
  have hpending : ∀ n, (loop fullService.toWriter (fun _ _ => [])
      (fun n _ => disabledSchedule.flush n) n).hasPending = true := by
    intro n
    by_contra hdone
    have hclear := (hasPending_eq_false_iff _).mp (eq_false_of_ne_true hdone) "ohlc" _ (hloop n)
    exact hempties (empties_of_after disabledSchedule n (Or.inl hclear))
  refine ⟨hpending, ?_, ?_⟩
  · intro n t ht hroom
    rw [hloop n] at ht
    cases ht
    exact hserves (serves_of_after disabledSchedule n (Or.inr (Or.inl hroom)))
  · intro h
    obtain ⟨n, hn⟩ := (h fullService (fun _ => false) (fun _ => disabledSchedule)).ends
    have hstill := hpending n
    rw [hn] at hstill
    cases hstill

end Stuck

end MT5Services.StorageShutdown
