import MT5Services.Histories
import MT5Services.Runs
import Mathlib.Data.List.Pairwise

/-!
The durable queue of confirmed signal events, `WalSignalQueue`, and its single consumer.
A delivery is a claim, a decode and a delete, each committed on its own, and only then the
evaluation, so a crash can fall between any two of them. The log says which events were
inserted and which are done with; an event is its row, so an event that the burst rule
puts back lives on under a new row.
-/
namespace MT5Services.WalQueue

open Runs

structure Row (E : Type*) where
  id : ℕ
  event : E
  /-- The column `processed`: claimed and not yet deleted. -/
  inFlight : Bool := false
  deriving DecidableEq, Repr

/-- The table `signal_queue` in key order, with the last key handed out. -/
structure WalSignalQueue (E : Type*) where
  rows : List (Row E)
  lastId : ℕ
  ordered : (rows.map Row.id).Pairwise (· < ·)
  bounded : ∀ row ∈ rows, row.id ≤ lastId
  deriving DecidableEq

variable {E : Type*}

namespace WalSignalQueue

def empty : WalSignalQueue E := ⟨[], 0, List.Pairwise.nil, by simp⟩

def putNowait (q : WalSignalQueue E) (event : E) : WalSignalQueue E where
  rows := q.rows ++ [{ id := q.lastId + 1, event := event }]
  lastId := q.lastId + 1
  ordered := by
    rw [List.map_append, List.pairwise_append]
    refine ⟨q.ordered, List.pairwise_singleton _ _, ?_⟩
    intro a ha b hb
    obtain ⟨row, hrow, rfl⟩ := List.mem_map.mp ha
    rw [List.mem_singleton.mp hb]
    exact Nat.lt_succ_of_le (q.bounded row hrow)
  bounded := by
    intro row hrow
    rcases List.mem_append.mp hrow with hrow | hrow
    · exact Nat.le_succ_of_le (q.bounded row hrow)
    · cases List.mem_singleton.mp hrow
      exact Nat.le_refl (q.lastId + 1)

/-- The flags of the rows set anew; nothing else changes. -/
def setInFlight (q : WalSignalQueue E) (flag : Row E → Bool) : WalSignalQueue E where
  rows := q.rows.map fun row => { row with inFlight := flag row }
  lastId := q.lastId
  ordered := by
    rw [List.map_map]
    exact q.ordered
  bounded := by
    intro row hrow
    obtain ⟨old, hold, rfl⟩ := List.mem_map.mp hrow
    exact q.bounded old hold

/-- The pending row with the smallest key. -/
def nextRow (q : WalSignalQueue E) : Option (Row E) := q.rows.find? fun row => !row.inFlight

/-- `_CLAIM_SQL` for the row it selects. -/
def claim (q : WalSignalQueue E) (id : ℕ) : WalSignalQueue E :=
  q.setInFlight fun row => row.inFlight || row.id == id

/-- `_COMPLETE_SQL`. -/
def complete (q : WalSignalQueue E) (id : ℕ) : WalSignalQueue E where
  rows := q.rows.filter fun row => row.id ≠ id
  lastId := q.lastId
  ordered := q.ordered.sublist (List.filter_sublist.map Row.id)
  bounded := fun row hrow => q.bounded row (List.mem_of_mem_filter hrow)

/-- `_init_db`, also behind `reopen`: rows in flight are pending again. -/
def initDb (q : WalSignalQueue E) : WalSignalQueue E := q.setInFlight fun _ => false

/-- A call that is not interrupted: the row with its key, or nothing for `queue.Empty`. -/
def getNowait (q : WalSignalQueue E) : Option ((ℕ × E) × WalSignalQueue E) :=
  q.nextRow.map fun row => ((row.id, row.event), (q.claim row.id).complete row.id)

/-- What the next calls of `get_nowait` return. -/
def deliveries (q : WalSignalQueue E) : ℕ → List (ℕ × E)
  | 0 => []
  | calls + 1 =>
    match q.getNowait with
    | none => []
    | some (row, rest) => row :: deliveries rest calls

def entries (q : WalSignalQueue E) : List (ℕ × E) := q.rows.map fun row => (row.id, row.event)

def pending (q : WalSignalQueue E) : List (ℕ × E) :=
  (q.rows.filter fun row => !row.inFlight).map fun row => (row.id, row.event)

theorem entries_putNowait (q : WalSignalQueue E) (event : E) :
    (q.putNowait event).entries = q.entries ++ [(q.lastId + 1, event)] := by
  simp only [entries, putNowait, List.map_append, List.map_cons, List.map_nil]

theorem pending_putNowait (q : WalSignalQueue E) (event : E) :
    (q.putNowait event).pending = q.pending ++ [(q.lastId + 1, event)] := by
  simp [pending, putNowait, List.filter_append]

theorem entries_setInFlight (q : WalSignalQueue E) (flag : Row E → Bool) :
    (q.setInFlight flag).entries = q.entries := by
  simp only [entries, setInFlight, List.map_map]
  rfl

theorem entries_complete (q : WalSignalQueue E) (id : ℕ) :
    (q.complete id).entries = q.entries.filter fun entry => entry.1 ≠ id := by
  simp only [entries, complete, List.filter_map]
  rfl

theorem pending_complete (q : WalSignalQueue E) (id : ℕ) :
    (q.complete id).pending = q.pending.filter fun entry => entry.1 ≠ id := by
  simp only [pending, complete, List.filter_map, List.filter_filter, Bool.and_comm]
  rfl

theorem pending_initDb (q : WalSignalQueue E) : q.initDb.pending = q.entries := by
  rw [← entries_setInFlight q fun _ => false]
  unfold pending entries
  congr 1
  apply List.filter_eq_self.mpr
  intro row hrow
  obtain ⟨old, _, rfl⟩ := List.mem_map.mp hrow
  rfl

/-- The claim changes a flag only of the row that the delete then removes. -/
theorem claim_complete_rows (q : WalSignalQueue E) (id : ℕ) :
    ((q.claim id).complete id).rows = (q.complete id).rows := by
  simp only [complete, claim, setInFlight, List.filter_map]
  calc
    _ = (q.rows.filter fun row => row.id ≠ id).map fun row =>
        { row with inFlight := row.inFlight || row.id == id } := rfl
    _ = (q.rows.filter fun row => row.id ≠ id).map fun row => row := by
      apply List.map_congr_left
      intro row hrow
      have hid : row.id ≠ id := of_decide_eq_true (List.mem_filter.mp hrow).2
      rw [beq_false_of_ne hid, Bool.or_false]
    _ = _ := List.map_id _

theorem pending_ids_ordered (q : WalSignalQueue E) :
    (q.pending.map Prod.fst).Pairwise (· < ·) := by
  have hsub : (q.pending.map Prod.fst).Sublist (q.rows.map Row.id) := by
    unfold pending
    rw [List.map_map]
    exact List.filter_sublist.map Row.id
  exact q.ordered.sublist hsub

theorem nextRow_map (q : WalSignalQueue E) :
    (q.nextRow.map fun row => (row.id, row.event)) = q.pending.head? := by
  unfold nextRow pending
  rw [List.head?_map, List.head?_filter]

/-- A call takes the head of the pending events and leaves the rest. -/
theorem getNowait_spec (q : WalSignalQueue E) :
    (q.getNowait = none ∧ q.pending = []) ∨
      ∃ entry rest, q.getNowait = some (entry, rest) ∧ q.pending = entry :: rest.pending := by
  have hhead := q.nextRow_map
  cases hnext : q.nextRow with
  | none =>
    rw [hnext, Option.map_none] at hhead
    exact .inl ⟨by rw [getNowait, hnext, Option.map_none], List.head?_eq_none_iff.mp hhead.symm⟩
  | some row =>
    rw [hnext, Option.map_some] at hhead
    obtain ⟨tail, htail⟩ := List.head?_eq_some_iff.mp hhead.symm
    refine .inr ⟨(row.id, row.event), (q.claim row.id).complete row.id, ?_, ?_⟩
    · rw [getNowait, hnext, Option.map_some]
    · have hlater : ∀ entry ∈ tail, decide (entry.1 ≠ row.id) = true := by
        intro entry hentry
        have hordered := q.pending_ids_ordered
        rw [htail, List.map_cons, List.pairwise_cons] at hordered
        have hlt := hordered.1 entry.1 (List.mem_map_of_mem hentry)
        exact decide_eq_true (Nat.ne_of_gt hlt)
      have hpending : ((q.claim row.id).complete row.id).pending = (q.complete row.id).pending := by
        unfold pending
        rw [claim_complete_rows]
      rw [hpending, pending_complete, htail, List.filter_cons_of_neg (by simp),
        List.filter_eq_self.mpr hlater]

theorem getNowait_entries {q rest : WalSignalQueue E} {entry : ℕ × E}
    (h : q.getNowait = some (entry, rest)) : entry ∈ q.entries ∧ rest.entries ⊆ q.entries := by
  obtain ⟨row, hnext, htaken⟩ := Option.map_eq_some_iff.mp h
  cases htaken
  refine ⟨List.mem_map_of_mem (List.mem_of_find?_eq_some hnext), ?_⟩
  have hentries : ((q.claim row.id).complete row.id).entries = (q.complete row.id).entries := by
    unfold entries
    rw [claim_complete_rows]
  rw [hentries, entries_complete]
  exact List.filter_subset_self _

theorem deliveries_eq_take (q : WalSignalQueue E) (calls : ℕ) :
    q.deliveries calls = q.pending.take calls := by
  induction calls generalizing q with
  | zero => rw [deliveries, List.take_zero]
  | succ calls ih =>
    rcases q.getNowait_spec with ⟨hget, hnil⟩ | ⟨entry, rest, hget, hcons⟩
    · rw [deliveries, hget, hnil, List.take_nil]
    · rw [deliveries, hget, hcons, List.take_succ_cons]
      dsimp only
      rw [ih rest]

end WalSignalQueue

/-- Where the consumer stands between two commits. -/
inductive Hand (E : Type*)
  | idle
  /-- The claim is committed, the row still there. -/
  | claimed (id : ℕ) (event : E)
  /-- The row is deleted and the event lives in memory only. -/
  | holding (id : ℕ) (event : E)
  deriving DecidableEq, Repr

inductive Note (E : Type*)
  | inserted (id : ℕ) (event : E)
  | done (id : ℕ)
  deriving DecidableEq, Repr

structure Runtime (E : Type*) where
  queue : WalSignalQueue E
  hand : Hand E := .idle
  log : List (Note E) := []
  deriving DecidableEq

def start : Runtime E := { queue := .empty }

inductive Act (E : Type*)
  | put (event : E)
  | claim
  | delete
  /-- The delete raises and leaves the row in flight. -/
  | getRaises
  /-- `dequeue_event` yields to another queue and puts the event back. -/
  | putBack
  /-- `process_next_event` returns or raises. -/
  | finish
  /-- A stop or a crash, and `reopen`. -/
  | restart
  deriving DecidableEq, Repr

/-- An insert of a producer or of `dequeue_event`. -/
def Runtime.insert (s : Runtime E) (event : E) : Runtime E :=
  { s with
    queue := s.queue.putNowait event
    log := s.log ++ [.inserted (s.queue.lastId + 1) event] }

/-- The event in memory is done with. -/
def Runtime.release (s : Runtime E) (id : ℕ) : Runtime E :=
  { s with hand := .idle, log := s.log ++ [.done id] }

def step (s : Runtime E) : Act E → Option (Runtime E)
  | .put event => some (s.insert event)
  | .claim =>
    match s.hand with
    | .idle =>
      match s.queue.nextRow with
      | none => some s
      | some row => some { s with queue := s.queue.claim row.id, hand := .claimed row.id row.event }
    | _ => none
  | .delete =>
    match s.hand with
    | .claimed id event => some { s with queue := s.queue.complete id, hand := .holding id event }
    | _ => none
  | .getRaises =>
    match s.hand with
    | .claimed _ _ => some { s with hand := .idle }
    | _ => none
  | .putBack =>
    match s.hand with
    | .holding id event => some ((s.insert event).release id)
    | _ => none
  | .finish =>
    match s.hand with
    | .holding id _ => some (s.release id)
    | _ => none
  | .restart => some { s with queue := s.queue.initDb, hand := .idle }

/-- The rows inserted and not done with, in the order of their insertion. -/
def unfinished (log : List (Note E)) : List (ℕ × E) :=
  log.foldl (fun left note =>
    match note with
    | .inserted id event => left ++ [(id, event)]
    | .done id => left.filter fun entry => entry.1 ≠ id) []

def Hand.id? : Hand E → Option ℕ
  | .idle => none
  | .claimed id _ => some id
  | .holding id _ => some id

/-- The table has what is unfinished, less the event that lives in memory only. -/
structure Accounted (s : Runtime E) : Prop where
  known : ∀ id ∈ s.hand.id?, id ≤ s.queue.lastId
  holding : ∀ id event, s.hand = .holding id event →
    s.queue.entries = (unfinished s.log).filter fun entry => entry.1 ≠ id
  others : (∀ id event, s.hand ≠ .holding id event) → s.queue.entries = unfinished s.log

/-- No stop and no crash while an event lives in memory only. -/
def RestartsBetween (s : Runtime E) (act : Act E) : Prop :=
  act = .restart → ∀ id event, s.hand ≠ .holding id event

instance (s : Runtime E) : DecidablePred (RestartsBetween s)
  | .restart =>
    match h : s.hand with
    | .idle => isTrue (by simp [RestartsBetween, h])
    | .claimed _ _ => isTrue (by simp [RestartsBetween, h])
    | .holding id event => isFalse fun hall => hall rfl id event h
  | .put _ | .claim | .delete | .getRaises | .putBack | .finish => isTrue (by simp [RestartsBetween])

theorem unfinished_inserted (log : List (Note E)) (id : ℕ) (event : E) :
    unfinished (log ++ [.inserted id event]) = unfinished log ++ [(id, event)] := by
  simp only [unfinished, List.foldl_append, List.foldl_cons, List.foldl_nil]

theorem unfinished_done (log : List (Note E)) (id : ℕ) :
    unfinished (log ++ [.done id]) = (unfinished log).filter fun entry => entry.1 ≠ id := by
  simp only [unfinished, List.foldl_append, List.foldl_cons, List.foldl_nil]

theorem nextRow_mem {q : WalSignalQueue E} {row : Row E} (h : q.nextRow = some row) :
    row ∈ q.rows := List.mem_of_find?_eq_some h

variable {s : Runtime E}

theorem Accounted.insert (h : Accounted s) (event : E) : Accounted (s.insert event) where
  known := fun id hid => Nat.le_succ_of_le (h.known id hid)
  holding := by
    intro id held hhand
    have hhand' : s.hand = .holding id held := hhand
    have hknown : id ≤ s.queue.lastId := h.known id (by rw [hhand']; exact rfl)
    have hnew : s.queue.lastId + 1 ≠ id := by omega
    show (s.queue.putNowait event).entries = _
    rw [Runtime.insert, unfinished_inserted, List.filter_append, ← h.holding id held hhand',
      WalSignalQueue.entries_putNowait]
    simp [hnew]
  others := by
    intro hhand
    show (s.queue.putNowait event).entries = _
    rw [Runtime.insert, unfinished_inserted, ← h.others hhand, WalSignalQueue.entries_putNowait]

/-- Whoever is done with the event in memory, nothing is missing from the table. -/
theorem Accounted.release (h : Accounted s) {id : ℕ} {event : E}
    (hhand : s.hand = .holding id event) : Accounted (s.release id) where
  known := by
    intro other hother
    cases hother
  holding := by
    intro other held hother
    cases hother
  others := by
    intro _
    show s.queue.entries = _
    rw [Runtime.release, unfinished_done]
    exact h.holding id event hhand

variable {t : Runtime E}

theorem step_claim (h : step s .claim = some t) :
    s.hand = .idle ∧ ((s.queue.nextRow = none ∧ t = s) ∨
      ∃ row, s.queue.nextRow = some row ∧
        t = { s with queue := s.queue.claim row.id, hand := .claimed row.id row.event }) := by
  unfold step at h
  dsimp only at h
  split at h
  · next hhand =>
    refine ⟨hhand, ?_⟩
    split at h
    · next hnext => exact .inl ⟨hnext, (Option.some.inj h).symm⟩
    · next row hnext => exact .inr ⟨row, hnext, (Option.some.inj h).symm⟩
  · cases h

theorem step_delete (h : step s .delete = some t) : ∃ id event, s.hand = .claimed id event ∧
      t = { s with queue := s.queue.complete id, hand := .holding id event } := by
  unfold step at h
  dsimp only at h
  split at h
  · next id event hhand => exact ⟨id, event, hhand, (Option.some.inj h).symm⟩
  · cases h

theorem step_getRaises (h : step s .getRaises = some t) :
    ∃ id event, s.hand = .claimed id event ∧ t = { s with hand := .idle } := by
  unfold step at h
  dsimp only at h
  split at h
  · next id event hhand => exact ⟨id, event, hhand, (Option.some.inj h).symm⟩
  · cases h

theorem step_putBack (h : step s .putBack = some t) :
    ∃ id event, s.hand = .holding id event ∧ t = (s.insert event).release id := by
  unfold step at h
  dsimp only at h
  split at h
  · next id event hhand => exact ⟨id, event, hhand, (Option.some.inj h).symm⟩
  · cases h

theorem step_finish (h : step s .finish = some t) :
    ∃ id event, s.hand = .holding id event ∧ t = s.release id := by
  unfold step at h
  dsimp only at h
  split at h
  · next id event hhand => exact ⟨id, event, hhand, (Option.some.inj h).symm⟩
  · cases h

theorem not_holding_of_eq {hand other : Hand E} (h : hand = other)
    (hother : ∀ id event, other ≠ .holding id event) : ∀ id event, hand ≠ .holding id event := by
  rw [h]
  exact hother

/-- With an empty hand the table alone has to account for what is unfinished. -/
theorem accounted_idle (hhand : s.hand = .idle)
    (hentries : s.queue.entries = unfinished s.log) : Accounted s where
  known := by
    intro id hid
    rw [hhand] at hid
    cases hid
  holding := by
    intro id event hholding
    rw [hhand] at hholding
    cases hholding
  others := fun _ => hentries

theorem step_accounted (s : Runtime E) (act : Act E) (t : Runtime E) (h : Accounted s)
    (hguard : RestartsBetween s act) (hstep : step s act = some t) : Accounted t := by
  cases act with
  | put event =>
    cases Option.some.inj hstep
    exact h.insert event
  | claim =>
    obtain ⟨hhand, ⟨_, rfl⟩ | ⟨row, hnext, rfl⟩⟩ := step_claim hstep
    · exact h
    · refine ⟨?_, by simp, ?_⟩
      · intro id hid
        cases Option.some.inj hid
        exact s.queue.bounded row (nextRow_mem hnext)
      · intro _
        exact (WalSignalQueue.entries_setInFlight s.queue _).trans
          (h.others (not_holding_of_eq hhand (by simp)))
  | delete =>
    obtain ⟨id, event, hhand, rfl⟩ := step_delete hstep
    have hentries := h.others (not_holding_of_eq hhand (by simp))
    refine ⟨?_, ?_, ?_⟩
    · intro other hother
      apply h.known other
      rw [hhand]
      exact hother
    · intro other held hholding
      cases hholding
      rw [← hentries]
      exact WalSignalQueue.entries_complete s.queue id
    · intro hnone
      exact absurd rfl (hnone id event)
  | getRaises =>
    obtain ⟨id, event, hhand, rfl⟩ := step_getRaises hstep
    exact accounted_idle rfl (h.others (not_holding_of_eq hhand (by simp)))
  | putBack =>
    obtain ⟨id, event, hhand, rfl⟩ := step_putBack hstep
    have hstill : (s.insert event).hand = .holding id event := hhand
    exact (h.insert event).release hstill
  | finish =>
    obtain ⟨id, event, hhand, rfl⟩ := step_finish hstep
    exact h.release hhand
  | restart =>
    cases Option.some.inj hstep
    apply accounted_idle rfl
    exact (WalSignalQueue.entries_setInFlight s.queue _).trans (h.others (hguard rfl))

theorem start_accounted : Accounted (start : Runtime E) := accounted_idle rfl rfl

/-- When no stop or crash falls while an event lives in memory only, the calls of
`get_nowait` after every restart return all that is unfinished, in insertion order. -/
theorem redelivered_after_restart (acts front back : List (Act E))
    (hbetween : Along step RestartsBetween start acts) (hacts : acts = front ++ .restart :: back)
    (s : Runtime E) (hrun : run step start (front ++ [.restart]) = some s) (calls : ℕ) :
    s.queue.deliveries calls = (unfinished s.log).take calls := by
  have hfront : acts = (front ++ [.restart]) ++ back := by
    rw [hacts, List.append_assoc, List.singleton_append]
  rw [hfront] at hbetween
  have haccounted := run_invariant_along step_accounted start_accounted (along_front hbetween) hrun
  rw [run_append, Option.bind_eq_some_iff] at hrun
  obtain ⟨before, _, hlast⟩ := hrun
  cases Option.some.inj hlast
  have hentries := haccounted.others (by simp)
  rw [WalSignalQueue.deliveries_eq_take, WalSignalQueue.pending_initDb, ← hentries]
  exact congrArg (List.take calls) (WalSignalQueue.entries_setInFlight before.queue _).symm

theorem redelivered_after_restart_claimed :
    (WalSignalQueue.mk [⟨2, "b", false⟩, ⟨3, "c", false⟩] 3 (by decide)
      (by decide)).deliveries 4 = [(2, "b"), (3, "c")] :=
  redelivered_after_restart
    [.put "a", .put "b", .claim, .delete, .put "c", .finish, .claim, .restart]
    [.put "a", .put "b", .claim, .delete, .put "c", .finish, .claim] [] (by decide) rfl
    { queue := ⟨[⟨2, "b", false⟩, ⟨3, "c", false⟩], 3, by decide, by decide⟩
      log := [.inserted 1 "a", .inserted 2 "b", .inserted 3 "c", .done 1] } (by decide) 4

/-- A crash during the evaluation: the row is gone and the event never comes again. -/
theorem crash_loses_event :
    ¬ ∀ (acts front back : List (Act String)) (s : Runtime String) (calls : ℕ),
      acts = front ++ .restart :: back → run step start (front ++ [.restart]) = some s →
      s.queue.deliveries calls = (unfinished s.log).take calls := by
  intro hall
  have hlost := hall [.put "a", .claim, .delete, .restart] [.put "a", .claim, .delete] []
    { queue := ⟨[], 1, by decide, by decide⟩, log := [.inserted 1 "a"] } 1 rfl
    (by decide)
  exact absurd hlost (by decide)

end MT5Services.WalQueue
