import MT5Services.EventStore

/-!
Reviving failed events. A row becomes permanently failed with its third failure, and
nothing lowers the failure counter. `reset_failed_events` takes back to pending the
permanently failed rows with fewer failures than its argument, which is three unless the
caller says otherwise.
-/
namespace MT5Services.EventStore

open Runs

/-- The rows of one call of `reset_failed_events`. -/
def revivable (maxRetries : ℤ) (row : EventRow) : Bool :=
  row.processed = .failed ∧ (row.retryCount : ℤ) < maxRetries

/-- The number is `cursor.rowcount`. -/
def resetFailedEvents (s : Store) (maxRetries : ℤ := 3) : Store × ℕ :=
  ({ s with
      rows := s.rows.map fun row =>
        if revivable maxRetries row then { row with processed := .pending } else row },
    s.rows.countP (revivable maxRetries))

/-- A call on the store, this reset among them. -/
inductive RevivingCall
  | store (call : Call)
  | resetFailed (maxRetries : ℤ)
  deriving DecidableEq, Repr

def revivingStep (s : Store) : RevivingCall → Option Store
  | .store call => step s call
  | .resetFailed maxRetries => some (resetFailedEvents s maxRetries).1

def ReachableStore (s : Store) : Prop :=
  ∃ calls : List RevivingCall, run revivingStep start calls = some s

/-- What a reset with its default argument owes every permanently failed event: it is
pending, it is counted, and it is claimed before it is permanently failed again. -/
structure Revives (s : Store) : Prop where
  counted : (resetFailedEvents s).2 = s.rows.countP fun row => row.processed = .failed
  claimable : ∀ row ∈ s.rows, row.processed = .failed →
    ∀ after ∈ (resetFailedEvents s).1.rows, after.id = row.id → after.processed = .pending
  attempted : ∀ row ∈ s.rows, row.processed = .failed → ∀ (later : List RevivingCall) (t : Store),
    run revivingStep (resetFailedEvents s).1 later = some t →
    ∀ again ∈ t.rows, again.id = row.id → again.processed = .failed →
      .claimed row.id ∈ t.log.drop (resetFailedEvents s).1.log.length

/-- A row is given up with three failures at the least. -/
def GivenUp (s : Store) : Prop :=
  ∀ row ∈ s.rows, row.processed = .failed → 3 ≤ row.retryCount

variable {s : Store}

theorem GivenUp.insertOrIgnore (h : GivenUp s) (key : EventKey) :
    GivenUp (EventStore.insertOrIgnore s key) := by
  unfold EventStore.insertOrIgnore
  split_ifs
  · exact h
  · intro row hrow hfailed
    rcases List.mem_append.mp hrow with hold | hnew
    · exact h row hold hfailed
    · rw [List.mem_singleton.mp hnew] at hfailed
      cases hfailed

theorem GivenUp.updateRow (h : GivenUp s) (id : ℕ) (cond : EventRow → Bool)
    (change : EventRow → EventRow) (note : Note)
    (hchange : ∀ row, (change row).processed = .failed → 3 ≤ (change row).retryCount) :
    GivenUp (EventStore.updateRow s id cond change note) := by
  unfold EventStore.updateRow
  split_ifs
  · intro row hrow hfailed
    obtain ⟨old, hold, rfl⟩ := List.mem_map.mp hrow
    split_ifs at hfailed ⊢
    · exact hchange old hfailed
    · exact h old hold hfailed
  · exact h

theorem givenUp_foldl {α : Type*} {f : Store → α → Store}
    (hf : ∀ s a, GivenUp s → GivenUp (f s a)) (list : List α) (h : GivenUp s) :
    GivenUp (list.foldl f s) := by
  induction list generalizing s with
  | nil => exact h
  | cons a rest ih => exact ih (hf s a h)

theorem GivenUp.claimEvent (h : GivenUp s) (id : ℕ) : GivenUp (EventStore.claimEvent s id) := by
  apply h.updateRow
  intro row hfailed
  cases hfailed

theorem GivenUp.markEventCompletedById (h : GivenUp s) (id : ℕ) :
    GivenUp (EventStore.markEventCompletedById s id) := by
  apply h.updateRow
  intro row hfailed
  cases hfailed

/-- The only place where a row is given up. -/
theorem GivenUp.markEventFailedById (h : GivenUp s) (id : ℕ) :
    GivenUp (EventStore.markEventFailedById s id) := by
  apply h.updateRow
  intro row hfailed
  dsimp only at hfailed ⊢
  split_ifs at hfailed with hthree
  exact hthree

/-- A row that some of the changes leave failed was failed before. -/
theorem GivenUp.map {s t : Store} (h : GivenUp s) (change : EventRow → EventRow)
    (hrows : t.rows = s.rows.map change)
    (hchange : ∀ row, (change row).processed = .failed → change row = row) : GivenUp t := by
  intro row hrow hfailed
  rw [hrows] at hrow
  obtain ⟨old, hold, rfl⟩ := List.mem_map.mp hrow
  have hsame := hchange old hfailed
  rw [hsame] at hfailed ⊢
  exact h old hold hfailed

theorem GivenUp.resetProcessingEvents (h : GivenUp s) :
    GivenUp (EventStore.resetProcessingEvents s) := by
  refine h.map _ rfl ?_
  intro row hfailed
  split_ifs at hfailed ⊢
  rfl

theorem GivenUp.resetFailedEvents (h : GivenUp s) (maxRetries : ℤ) :
    GivenUp (EventStore.resetFailedEvents s maxRetries).1 := by
  refine h.map _ rfl ?_
  intro row hfailed
  split_ifs at hfailed ⊢
  rfl

theorem GivenUp.cleanupOldEvents (h : GivenUp s) (cutoff : ℤ) :
    GivenUp (EventStore.cleanupOldEvents s cutoff) := by
  intro row hrow hfailed
  exact h row (List.mem_of_mem_filter hrow) hfailed

theorem GivenUp.step (h : GivenUp s) (call : Call) : GivenUp (apply s call) := by
  cases call with
  | publish key => exact h.insertOrIgnore key
  | publishBatch keys => exact givenUp_foldl (fun _ key hs => hs.insertOrIgnore key) _ h
  | claim limit => exact givenUp_foldl (fun _ id hs => hs.claimEvent id) _ h
  | complete id => exact h.markEventCompletedById id
  | skip id => exact h.markEventCompletedById id
  | fail id => exact h.markEventFailedById id
  | resetProcessing => exact h.resetProcessingEvents
  | cleanup cutoff => exact h.cleanupOldEvents cutoff

theorem revivingStep_givenUp (s : Store) (call : RevivingCall) (t : Store) (h : GivenUp s)
    (hstep : revivingStep s call = some t) : GivenUp t := by
  cases call with
  | store call =>
    cases Option.some.inj hstep
    exact h.step call
  | resetFailed maxRetries =>
    cases Option.some.inj hstep
    exact h.resetFailedEvents maxRetries

theorem ReachableStore.givenUp (h : ReachableStore s) : GivenUp s := by
  obtain ⟨calls, hrun⟩ := h
  refine run_invariant revivingStep_givenUp ?_ hrun
  intro row hrow
  exact absurd hrow List.not_mem_nil

variable {maxRetries : ℤ}

/-- Up to three the argument finds no row at all. -/
theorem revivable_eq_false (h : GivenUp s) (hmax : maxRetries ≤ 3) :
    ∀ row ∈ s.rows, revivable maxRetries row = false := by
  intro row hrow
  apply decide_eq_false
  rintro ⟨hfailed, hless⟩
  have hthree := h row hrow hfailed
  omega

/-- A reset with an argument of at most three changes nothing. -/
theorem resetFailedEvents_eq_self (h : GivenUp s)
    (hmax : maxRetries ≤ 3) : resetFailedEvents s maxRetries = (s, 0) := by
  have hnone := revivable_eq_false h hmax
  have hrows : (s.rows.map fun row =>
      if revivable maxRetries row then { row with processed := .pending } else row) = s.rows := by
    calc s.rows.map _ = s.rows.map id := by
          apply List.map_congr_left
          intro row hrow
          rw [hnone row hrow, if_neg Bool.false_ne_true, id]
      _ = s.rows := List.map_id s.rows
  have hcount : s.rows.countP (revivable maxRetries) = 0 := by
    rw [List.countP_eq_zero]
    intro row hrow
    rw [hnone row hrow]
    exact Bool.false_ne_true
  unfold resetFailedEvents
  rw [hrows, hcount]

/-- With an argument above the failures of a row the row is pending again. -/
theorem pending_of_revivable (hids : (s.rows.map EventRow.id).Nodup)
    {row : EventRow} (hrow : row ∈ s.rows) (hrevivable : revivable maxRetries row = true) :
    ∀ after ∈ (resetFailedEvents s maxRetries).1.rows, after.id = row.id →
      after.processed = .pending := by
  intro after hafter hid
  obtain ⟨old, hold, rfl⟩ := List.mem_map.mp hafter
  have hsame : old = row := by
    apply List.inj_on_of_nodup_map hids hold hrow
    split_ifs at hid
    · exact hid
    · exact hid
  rw [hsame, hrevivable, if_pos rfl]

/-- The default argument is the very number of failures with which a row is given up. -/
theorem revives_iff {s : Store} (hreachable : ReachableStore s) :
    Revives s ↔ ∀ row ∈ s.rows, row.processed ≠ .failed := by
  have hself := resetFailedEvents_eq_self hreachable.givenUp (le_refl (3 : ℤ))
  constructor
  · intro h row hrow hfailed
    have hcount := h.counted
    rw [hself] at hcount
    have hpos : 0 < s.rows.countP fun row => row.processed = .failed :=
      List.countP_pos_iff.mpr ⟨row, hrow, decide_eq_true hfailed⟩
    omega
  · intro hnone
    refine ⟨?_, ?_, ?_⟩
    · rw [hself]
      symm
      apply List.countP_eq_zero.mpr
      intro row hrow hfailed
      exact hnone row hrow (of_decide_eq_true hfailed)
    · intro row hrow hfailed
      exact absurd hfailed (hnone row hrow)
    · intro row hrow hfailed
      exact absurd hfailed (hnone row hrow)

/-- One event that has failed once and waits for its second attempt. -/
def onceFailed : Store where
  rows := [⟨1, firstBar, .pending, 1⟩]
  lastId := 1
  log := [.claimed 1, .failed 1]

theorem revives_iff_onceFailed :
    Revives onceFailed ↔ ∀ row ∈ onceFailed.rows, row.processed ≠ .failed :=
  revives_iff
    ⟨[.store (.publish firstBar), .store (.claim 1), .store (.fail 1)], by decide +kernel⟩

/-- Three attempts, three failures. -/
def failedCalls : List RevivingCall :=
  [.store (.publish firstBar), .store (.claim 1), .store (.fail 1), .store (.claim 1),
    .store (.fail 1), .store (.claim 1), .store (.fail 1)]

theorem failed_event_stays_failed : ¬ ∀ s, ReachableStore s → Revives s := by
  intro hall
  have hrevives := hall
    { rows := [⟨1, firstBar, .failed, 3⟩]
      lastId := 1
      log := [.claimed 1, .failed 1, .claimed 1, .failed 1, .claimed 1, .failed 1] }
    ⟨failedCalls, by decide +kernel⟩
  have hpending := hrevives.claimable ⟨1, firstBar, .failed, 3⟩ (by decide) rfl
    ⟨1, firstBar, .failed, 3⟩ (by decide) rfl
  cases hpending

end MT5Services.EventStore
