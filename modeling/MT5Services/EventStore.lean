import MT5Services.Dict
import MT5Services.Histories
import MT5Services.Runs
import Mathlib.Data.List.Induction
import Mathlib.Data.List.Sort

/-!
The durable store of closed-bar events, `LocalEventStore`, and the batch handler that
drives it. A row is pending, in processing, completed (also when skipped) or failed for
good; every call is one transaction on the table. The handler decides by itself which
calls it makes, so a batch under any pattern of exceptions is a list of store calls. A log
of what the calls did carries the life of every event.
-/
namespace MT5Services.EventStore

open Histories Runs

structure EventKey where
  symbol : String
  timeframe : String
  barTime : ℤ
  deriving DecidableEq, Repr

/-- The column `processed`, 0 to 3. -/
inductive Processed
  | pending
  | processing
  | completed
  | failed
  deriving DecidableEq, Repr

structure EventRow where
  id : ℕ
  key : EventKey
  processed : Processed := .pending
  retryCount : ℕ := 0
  deriving DecidableEq, Repr

/-- What a call did to an event; a restart touches whatever is in processing. -/
inductive Note
  | claimed (id : ℕ)
  | finished (id : ℕ)
  | failed (id : ℕ)
  | restarted
  deriving DecidableEq, Repr

/-- The table with its last row identifier, which is never used again, and the log. -/
structure Store where
  rows : List EventRow := []
  lastId : ℕ := 0
  log : List Note := []
  deriving DecidableEq, Repr

def start : Store := {}

/-- `INSERT OR IGNORE` under the unique index on symbol, timeframe and bar time. -/
def insertOrIgnore (s : Store) (key : EventKey) : Store :=
  if s.rows.any fun row => row.key = key then s
  else { s with rows := s.rows ++ [{ id := s.lastId + 1, key := key }], lastId := s.lastId + 1 }

def publishEventsBatch (s : Store) (keys : List EventKey) : Store :=
  keys.eraseDups.foldl insertOrIgnore s

/-- An `UPDATE` of one row under a condition, logged when it changed the row. -/
def updateRow (s : Store) (id : ℕ) (cond : EventRow → Bool) (change : EventRow → EventRow)
    (note : Note) : Store :=
  if s.rows.any fun row => row.id = id ∧ cond row then
    { s with
      rows := s.rows.map fun row => if row.id = id ∧ cond row then change row else row
      log := s.log ++ [note] }
  else s

/-- Fewest failures first, then the oldest bar. -/
def claimBefore (a b : EventRow) : Prop :=
  a.retryCount < b.retryCount ∨ (a.retryCount = b.retryCount ∧ a.key.barTime ≤ b.key.barTime)

instance : DecidableRel claimBefore := fun a b =>
  inferInstanceAs (Decidable
    (a.retryCount < b.retryCount ∨ (a.retryCount = b.retryCount ∧ a.key.barTime ≤ b.key.barTime)))

/-- The identifiers the claim selects. -/
def claimable (s : Store) (limit : ℤ) : List ℕ :=
  (((s.rows.filter fun row => row.processed = .pending).insertionSort claimBefore).take
    (max 1 limit).toNat).map EventRow.id

def claimEvent (s : Store) (id : ℕ) : Store :=
  updateRow s id (fun row => row.processed = .pending)
    (fun row => { row with processed := .processing }) (.claimed id)

def claimNextEvents (s : Store) (limit : ℤ) : Store := (claimable s limit).foldl claimEvent s

/-- Also behind `mark_event_skipped_by_id`; only a row in processing is completed. -/
def markEventCompletedById (s : Store) (id : ℕ) : Store :=
  updateRow s id (fun row => row.processed = .processing)
    (fun row => { row with processed := .completed }) (.finished id)

/-- The update does not look at the state of the row. -/
def markEventFailedById (s : Store) (id : ℕ) : Store :=
  updateRow s id (fun _ => true)
    (fun row =>
      { row with
        processed := if 3 ≤ row.retryCount + 1 then .failed else .pending
        retryCount := row.retryCount + 1 }) (.failed id)

def resetProcessingEvents (s : Store) : Store :=
  { s with
    rows := s.rows.map fun row =>
      if row.processed = .processing then { row with processed := .pending } else row
    log := s.log ++ [.restarted] }

def cleanupOldEvents (s : Store) (cutoff : ℤ) : Store :=
  { s with
    rows := s.rows.filter fun row =>
      !(row.key.barTime < cutoff && (row.processed = .completed || row.processed = .failed)) }

/-- One call on the store. -/
inductive Call
  | publish (key : EventKey)
  | publishBatch (keys : List EventKey)
  | claim (limit : ℤ)
  | complete (id : ℕ)
  | skip (id : ℕ)
  | fail (id : ℕ)
  | resetProcessing
  | cleanup (cutoff : ℤ)
  deriving DecidableEq, Repr

def apply (s : Store) : Call → Store
  | .publish key => insertOrIgnore s key
  | .publishBatch keys => publishEventsBatch s keys
  | .claim limit => claimNextEvents s limit
  | .complete id => markEventCompletedById s id
  | .skip id => markEventCompletedById s id
  | .fail id => markEventFailedById s id
  | .resetProcessing => resetProcessingEvents s
  | .cleanup cutoff => cleanupOldEvents s cutoff

def step (s : Store) (call : Call) : Option Store := some (apply s call)

structure ClaimedEvent where
  eventId : ℕ
  key : EventKey
  deriving DecidableEq, Repr

/-- How a store call of the handler ends: it returns, or it raises without or with its
effect (a commit that fails leaves the change to the next one). -/
inductive CallEnd
  | returns
  | raisesBefore
  | raisesAfter
  deriving DecidableEq, Repr

/-- How the work on one event ends before its row is marked. -/
inductive Work
  | computed
  | skipped
  | raises
  deriving DecidableEq, Repr

/-- A pattern of exceptions: reading the window of a group, the work on an event and the
three kinds of marks. -/
structure Faults where
  windowRead : String → String → Bool := fun _ _ => true
  work : ℕ → Work := fun _ => .computed
  mark : ℕ → CallEnd := fun _ => .returns
  fail : ℕ → CallEnd := fun _ => .returns
  groupFail : ℕ → CallEnd := fun _ => .returns

/-- The calls made and whether an exception leaves. -/
abbrev Outcome := List Call × Bool

/-- The first part, and the second unless the first raised. -/
def andThen (first second : Outcome) : Outcome :=
  if first.2 then first else (first.1 ++ second.1, second.2)

/-- The first part, and the handler of its exception if it raised. -/
def orHandle (first handler : Outcome) : Outcome :=
  if first.2 then (first.1 ++ handler.1, handler.2) else first

def storeCall (call : Call) : CallEnd → Outcome
  | .returns => ([call], false)
  | .raisesBefore => ([], true)
  | .raisesAfter => ([call], true)

/-- One round of the loop of `process_symbol_timeframe_batch`. -/
def processEvent (faults : Faults) (event : ClaimedEvent) : Outcome :=
  let id := event.eventId
  let tried : Outcome :=
    match faults.work id with
    | .computed => storeCall (.complete id) (faults.mark id)
    | .skipped => storeCall (.skip id) (faults.mark id)
    | .raises => ([], true)
  orHandle tried (storeCall (.fail id) (faults.fail id))

/-- A loop that ends with the first exception. -/
def loop (body : ClaimedEvent → Outcome) (events : List ClaimedEvent) : Outcome :=
  events.foldr (fun event rest => andThen (body event) rest) ([], false)

def processSymbolTimeframeBatch (faults : Faults) (symbol timeframe : String)
    (events : List ClaimedEvent) : Outcome :=
  if faults.windowRead symbol timeframe then loop (processEvent faults) events else ([], true)

/-- The group of one symbol and timeframe: an exception that leaves it marks every event
of the group failed. -/
def processGroup (faults : Faults) (group : (String × String) × List ClaimedEvent) : Outcome :=
  let ordered := group.2.insertionSort fun a b => a.key.barTime ≤ b.key.barTime
  orHandle (processSymbolTimeframeBatch faults group.1.1 group.1.2 ordered)
    (loop (fun event => storeCall (.fail event.eventId) (faults.groupFail event.eventId)) ordered)

def groupEvents (events : List ClaimedEvent) : Dict (String × String) (List ClaimedEvent) :=
  events.foldl (fun groups event =>
    let key := (event.key.symbol, event.key.timeframe)
    groups.set key ((groups.get? key).getD [] ++ [event])) Dict.empty

/-- The store calls of one batch of durable events. -/
def processClosedBarEventsBatch (faults : Faults) (events : List ClaimedEvent) : List Call :=
  ((groupEvents events).items.foldr
    (fun group rest => andThen (processGroup faults group) rest) ([], false)).1

inductive Act
  | call (call : Call)
  | batch (events : List ClaimedEvent) (faults : Faults)

/-- Everything comes down to calls on the store. -/
def calls : List Act → List Call :=
  List.flatMap fun act =>
    match act with
    | .call call => [call]
    | .batch events faults => processClosedBarEventsBatch faults events

/-- The event was claimed and has since neither failed nor seen a restart. -/
def outstanding (id : ℕ) (log : List Note) : Bool :=
  log.foldl (fun held note =>
    match note with
    | .claimed other => if other = id then true else held
    | .failed other => if other = id then false else held
    | .restarted => false
    | .finished _ => held) false

/-- A claim is in order after the log: the event is not finished, is not outstanding and
has not failed three times. -/
def ClaimInOrder (earlier : List Note) (note : Note) : Prop :=
  ∀ id, note = .claimed id →
    .finished id ∉ earlier ∧ outstanding id earlier = false ∧ earlier.count (.failed id) < 3

/-- The life of the events: one row for a bar, no claim after the event is finished, a
failure or a restart between two claims, and no claim after the third failure. -/
structure Lifecycle (s : Store) : Prop where
  one_row : (s.rows.map EventRow.key).Nodup
  finished : ∀ id earlier later, s.log = earlier ++ .claimed id :: later → .finished id ∉ earlier
  claimed_once : ∀ id earlier between later,
    s.log = earlier ++ .claimed id :: between ++ .claimed id :: later →
    .failed id ∈ between ∨ .restarted ∈ between
  gives_up : ∀ id earlier later, s.log = earlier ++ .claimed id :: later →
    earlier.count (.failed id) < 3

/-- A row agrees with what the log says of its event. -/
structure RowSound (log : List Note) (row : EventRow) : Prop where
  finished : .finished row.id ∈ log → row.processed = .completed
  failures : log.count (.failed row.id) = row.retryCount
  given_up : 3 ≤ row.retryCount → row.processed = .failed
  claims : row.processed = .pending → outstanding row.id log = false

/-- The event that a note is about. -/
def Note.about : Note → Option ℕ
  | .claimed id => some id
  | .finished id => some id
  | .failed id => some id
  | .restarted => none

structure Sound (s : Store) : Prop where
  keys : (s.rows.map EventRow.key).Nodup
  ids : (s.rows.map EventRow.id).Nodup
  bounded : ∀ row ∈ s.rows, row.id ≤ s.lastId
  noted : ∀ note ∈ s.log, ∀ id ∈ note.about, id ≤ s.lastId
  rows : ∀ row ∈ s.rows, RowSound s.log row
  log : AtEach ClaimInOrder s.log

/-- A failure is marked on events only that are not completed or skipped. -/
def FailsUnfinished (s : Store) : Call → Prop
  | .fail id => ∀ row ∈ s.rows, row.id = id → row.processed ≠ .completed
  | _ => True

instance (s : Store) : DecidablePred (FailsUnfinished s)
  | .fail id =>
    inferInstanceAs (Decidable (∀ row ∈ s.rows, row.id = id → row.processed ≠ .completed))
  | .publish _ | .publishBatch _ | .claim _ | .complete _ | .skip _ | .resetProcessing
  | .cleanup _ => inferInstanceAs (Decidable True)

theorem outstanding_concat (id : ℕ) (log : List Note) (note : Note) :
    outstanding id (log ++ [note]) =
      match note with
      | .claimed other => if other = id then true else outstanding id log
      | .failed other => if other = id then false else outstanding id log
      | .restarted => false
      | .finished _ => outstanding id log := by
  simp only [outstanding, List.foldl_append, List.foldl_cons, List.foldl_nil]

variable {log : List Note}

theorem count_failed_concat_of_ne {id : ℕ} {note : Note}
    (h : note ≠ .failed id) : (log ++ [note]).count (.failed id) = log.count (.failed id) := by
  rw [List.count_append, List.count_singleton]
  simp [h]

/-- A claim stays outstanding until a failure or a restart. -/
theorem outstanding_after_claim (id : ℕ) (earlier between : List Note)
    (hfailed : .failed id ∉ between) (hrestarted : .restarted ∉ between) :
    outstanding id (earlier ++ .claimed id :: between) = true := by
  induction between using List.reverseRecOn with
  | nil =>
    rw [outstanding_concat]
    exact if_pos rfl
  | append_singleton front note ih =>
    rw [List.mem_append, not_or, List.mem_singleton] at hfailed hrestarted
    have hfront := ih hfailed.1 hrestarted.1
    rw [← List.cons_append, ← List.append_assoc, outstanding_concat]
    cases note with
    | claimed other =>
      dsimp only
      split_ifs
      · rfl
      · exact hfront
    | finished other => exact hfront
    | failed other =>
      have hother : other ≠ id := by
        rintro rfl
        exact hfailed.2 rfl
      dsimp only
      rw [if_neg hother]
      exact hfront
    | restarted => exact absurd rfl hrestarted.2

theorem outstanding_of_not_about {id : ℕ}
    (h : ∀ note ∈ log, note.about ≠ some id) : outstanding id log = false := by
  induction log using List.reverseRecOn with
  | nil => rfl
  | append_singleton front note ih =>
    have hfront := ih fun other hother => h other (List.mem_append_left [note] hother)
    have hnote := h note (List.mem_append_right front (List.mem_singleton_self note))
    rw [outstanding_concat]
    cases note with
    | claimed other =>
      have hother : other ≠ id := fun heq => hnote (congrArg some heq)
      exact (if_neg hother).trans hfront
    | finished other => exact hfront
    | failed other =>
      have hother : other ≠ id := fun heq => hnote (congrArg some heq)
      exact (if_neg hother).trans hfront
    | restarted => rfl

variable {s : Store}

theorem Sound.lifecycle (h : Sound s) : Lifecycle s where
  one_row := h.keys
  finished := fun id earlier later hlog => (h.log earlier _ later hlog id rfl).1
  claimed_once := by
    intro id earlier between later hlog
    have horder := h.log (earlier ++ .claimed id :: between) _ later hlog id rfl
    by_contra hnone
    rw [not_or] at hnone
    rw [outstanding_after_claim id earlier between hnone.1 hnone.2] at horder
    exact absurd horder.2.1 (by simp)
  gives_up := fun id earlier later hlog => (h.log earlier _ later hlog id rfl).2.2

variable {row : EventRow}

/-- A note about another event leaves a row as sound as it was. -/
theorem RowSound.concat_other (h : RowSound log row)
    (note : Note) (id : ℕ) (hnote : note.about = some id) (hother : row.id ≠ id) :
    RowSound (log ++ [note]) row where
  finished := by
    intro hmem
    rcases List.mem_append.mp hmem with hmem | hmem
    · exact h.finished hmem
    · rw [← List.mem_singleton.mp hmem] at hnote
      exact absurd (Option.some.inj hnote) hother
  failures := by
    have hne : note ≠ .failed row.id := by
      rintro rfl
      exact hother (Option.some.inj hnote)
    exact (count_failed_concat_of_ne hne).trans h.failures
  given_up := h.given_up
  claims := by
    intro hpending
    rw [outstanding_concat]
    cases note with
    | claimed other =>
      cases Option.some.inj hnote
      dsimp only
      rw [if_neg (Ne.symm hother)]
      exact h.claims hpending
    | finished other => exact h.claims hpending
    | failed other =>
      cases Option.some.inj hnote
      dsimp only
      rw [if_neg (Ne.symm hother)]
      exact h.claims hpending
    | restarted => cases hnote

theorem RowSound.restarted (h : RowSound log row) : RowSound (log ++ [.restarted])
      (if row.processed = .processing then { row with processed := .pending } else row) := by
  have hlog : ∀ note, note ∈ log ++ [Note.restarted] → note = .restarted ∨ note ∈ log := by
    intro note hmem
    rcases List.mem_append.mp hmem with hmem | hmem
    · exact .inr hmem
    · exact .inl (List.mem_singleton.mp hmem)
  split_ifs with hprocessing
  · refine ⟨?_, ?_, ?_, ?_⟩
    · intro hmem
      have hcompleted := h.finished ((hlog _ hmem).resolve_left (by simp))
      rw [hprocessing] at hcompleted
      cases hcompleted
    · exact (count_failed_concat_of_ne (by simp)).trans h.failures
    · intro hthree
      have hfailed := h.given_up hthree
      rw [hprocessing] at hfailed
      cases hfailed
    · intro _
      rw [outstanding_concat]
  · refine ⟨?_, ?_, h.given_up, ?_⟩
    · intro hmem
      exact h.finished ((hlog _ hmem).resolve_left (by simp))
    · exact (count_failed_concat_of_ne (by simp)).trans h.failures
    · intro _
      rw [outstanding_concat]

theorem nodup_map_of_same {β : Type*} (f : EventRow → β) (g : EventRow → EventRow)
    (rows : List EventRow) (hsame : ∀ row, f (g row) = f row) :
    (rows.map g).map f = rows.map f := by
  rw [List.map_map]
  apply List.map_congr_left
  intro row _
  exact hsame row

/-- One changed row: it must agree with the note, and a claim must be in order. -/
theorem Sound.updateRow (h : Sound s) (id : ℕ) (cond : EventRow → Bool)
    (change : EventRow → EventRow) (note : Note) (hid : ∀ row, (change row).id = row.id)
    (hkey : ∀ row, (change row).key = row.key) (hnote : note.about = some id)
    (hchange : ∀ row ∈ s.rows, row.id = id → cond row = true →
      RowSound (s.log ++ [note]) (change row) ∧ ClaimInOrder s.log note) :
    Sound (EventStore.updateRow s id cond change note) := by
  unfold EventStore.updateRow
  split_ifs with hany
  · obtain ⟨found, hfound, hcond⟩ := List.any_eq_true.mp hany
    obtain ⟨hfoundId, hfoundCond⟩ := of_decide_eq_true hcond
    have hsame : ∀ row ∈ s.rows, row.id = id → row = found := by
      intro row hrow hrowId
      exact List.inj_on_of_nodup_map h.ids hrow hfound (hrowId.trans hfoundId.symm)
    refine ⟨?_, ?_, ?_, ?_, ?_, ?_⟩
    · rw [nodup_map_of_same]
      · exact h.keys
      · intro row
        split_ifs
        · exact hkey row
        · rfl
    · rw [nodup_map_of_same]
      · exact h.ids
      · intro row
        split_ifs
        · exact hid row
        · rfl
    · intro row hrow
      obtain ⟨old, hold, rfl⟩ := List.mem_map.mp hrow
      split_ifs
      · rw [hid]
        exact h.bounded old hold
      · exact h.bounded old hold
    · intro other hother otherId hotherId
      rcases List.mem_append.mp hother with hmem | hmem
      · exact h.noted other hmem otherId hotherId
      · rw [List.mem_singleton.mp hmem, hnote] at hotherId
        rw [← Option.some.inj hotherId, ← hfoundId]
        exact h.bounded found hfound
    · intro row hrow
      obtain ⟨old, hold, rfl⟩ := List.mem_map.mp hrow
      split_ifs with hold'
      · exact (hchange old hold hold'.1 hold'.2).1
      · apply (h.rows old hold).concat_other note id hnote
        intro hsameId
        rw [hsame old hold hsameId] at hold'
        exact hold' ⟨hfoundId, hfoundCond⟩
    · show AtEach ClaimInOrder (s.log ++ [note])
      exact atEach_concat.mpr ⟨h.log, (hchange found hfound hfoundId hfoundCond).2⟩
  · exact h

/-- Notes that are not claims are always in order. -/
theorem claimInOrder_of_ne {earlier : List Note} {note : Note}
    (h : ∀ id, note ≠ .claimed id) : ClaimInOrder earlier note := by
  intro id hnote
  exact absurd hnote (h id)

theorem Sound.insertOrIgnore (h : Sound s) (key : EventKey) :
    Sound (EventStore.insertOrIgnore s key) := by
  unfold EventStore.insertOrIgnore
  split_ifs with hany
  · exact h
  · have hfreshKey : ∀ row ∈ s.rows, row.key ≠ key := by
      intro row hrow hkey
      exact hany (List.any_eq_true.mpr ⟨row, hrow, decide_eq_true hkey⟩)
    have hfreshNote : ∀ note ∈ s.log, note.about ≠ some (s.lastId + 1) := by
      intro note hnote habout
      have hle := h.noted note hnote (s.lastId + 1) habout
      omega
    refine ⟨?_, ?_, ?_, ?_, ?_, h.log⟩
    · rw [List.map_append, List.map_singleton]
      refine List.Nodup.append h.keys (List.nodup_singleton _) ?_
      rw [List.disjoint_singleton]
      intro hmem
      obtain ⟨row, hrow, hkey⟩ := List.mem_map.mp hmem
      exact hfreshKey row hrow hkey
    · rw [List.map_append, List.map_singleton]
      refine List.Nodup.append h.ids (List.nodup_singleton _) ?_
      rw [List.disjoint_singleton]
      intro hmem
      obtain ⟨row, hrow, hid⟩ := List.mem_map.mp hmem
      have hle := h.bounded row hrow
      dsimp only at hid
      omega
    · intro row hrow
      rcases List.mem_append.mp hrow with hrow | hrow
      · exact (h.bounded row hrow).trans (Nat.le_succ s.lastId)
      · rw [List.mem_singleton.mp hrow]
    · intro note hnote id hid
      exact (h.noted note hnote id hid).trans (Nat.le_succ s.lastId)
    · intro row hrow
      rcases List.mem_append.mp hrow with hrow | hrow
      · exact h.rows row hrow
      · rw [List.mem_singleton.mp hrow]
        refine ⟨?_, ?_, ?_, ?_⟩
        · intro hmem
          exact absurd rfl (hfreshNote _ hmem)
        · apply List.count_eq_zero.mpr
          intro hmem
          exact hfreshNote _ hmem rfl
        · intro hthree
          exact absurd hthree (by simp)
        · intro _
          exact outstanding_of_not_about hfreshNote

theorem sound_foldl {α : Type*} {f : Store → α → Store}
    (hf : ∀ s a, Sound s → Sound (f s a)) (list : List α) (h : Sound s) :
    Sound (list.foldl f s) := by
  induction list generalizing s with
  | nil => exact h
  | cons a rest ih => exact ih (hf s a h)

/-- A pending row may be claimed. -/
theorem RowSound.claimInOrder (h : RowSound log row)
    (hpending : row.processed = .pending) : ClaimInOrder log (.claimed row.id) := by
  intro id hid
  cases hid
  refine ⟨?_, h.claims hpending, ?_⟩
  · intro hmem
    have hcompleted := h.finished hmem
    rw [hpending] at hcompleted
    cases hcompleted
  · rw [h.failures]
    by_contra hthree
    have hfailed := h.given_up (Nat.not_lt.mp hthree)
    rw [hpending] at hfailed
    cases hfailed

theorem Sound.claimEvent (h : Sound s) (id : ℕ) : Sound (EventStore.claimEvent s id) := by
  unfold EventStore.claimEvent
  refine h.updateRow id _ _ _ ?_ ?_ rfl ?_
  · exact fun _ => rfl
  · exact fun _ => rfl
  rintro row hrow rfl hcond
  have hpending : row.processed = .pending := of_decide_eq_true hcond
  have hsound := h.rows row hrow
  have horder := hsound.claimInOrder hpending
  refine ⟨⟨?_, ?_, ?_, ?_⟩, horder⟩
  · intro hmem
    rcases List.mem_append.mp hmem with hmem | hmem
    · exact absurd hmem (horder row.id rfl).1
    · cases List.mem_singleton.mp hmem
  · exact (count_failed_concat_of_ne (by simp)).trans hsound.failures
  · intro hthree
    have hfailed := hsound.given_up hthree
    rw [hpending] at hfailed
    cases hfailed
  · intro hagain
    cases hagain

theorem Sound.markEventCompletedById (h : Sound s) (id : ℕ) :
    Sound (EventStore.markEventCompletedById s id) := by
  unfold EventStore.markEventCompletedById
  refine h.updateRow id _ _ _ ?_ ?_ rfl ?_
  · exact fun _ => rfl
  · exact fun _ => rfl
  rintro row hrow rfl hcond
  have hprocessing : row.processed = .processing := of_decide_eq_true hcond
  have hsound := h.rows row hrow
  refine ⟨⟨fun _ => rfl, ?_, ?_, ?_⟩, claimInOrder_of_ne (by simp)⟩
  · exact (count_failed_concat_of_ne (by simp)).trans hsound.failures
  · intro hthree
    have hfailed := hsound.given_up hthree
    rw [hprocessing] at hfailed
    cases hfailed
  · intro hpending
    cases hpending

/-- A failure keeps the invariant only when the row is not completed: the update would
take a completed row back to pending. -/
theorem Sound.markEventFailedById (h : Sound s) (id : ℕ)
    (hunfinished : ∀ row ∈ s.rows, row.id = id → row.processed ≠ .completed) :
    Sound (EventStore.markEventFailedById s id) := by
  unfold EventStore.markEventFailedById
  refine h.updateRow id _ _ _ ?_ ?_ rfl ?_
  · exact fun _ => rfl
  · exact fun _ => rfl
  rintro row hrow rfl -
  have hsound := h.rows row hrow
  refine ⟨⟨?_, ?_, ?_, ?_⟩, claimInOrder_of_ne (by simp)⟩
  · intro hmem
    rcases List.mem_append.mp hmem with hmem | hmem
    · exact absurd (hsound.finished hmem) (hunfinished row hrow rfl)
    · cases List.mem_singleton.mp hmem
  · rw [List.count_append, List.count_singleton_self, hsound.failures]
  · intro hthree
    exact if_pos hthree
  · intro _
    rw [outstanding_concat]
    exact if_pos rfl

theorem Sound.resetProcessingEvents (h : Sound s) : Sound (EventStore.resetProcessingEvents s) := by
  refine ⟨?_, ?_, ?_, ?_, ?_, ?_⟩
  · show ((s.rows.map _).map EventRow.key).Nodup
    rw [nodup_map_of_same]
    · exact h.keys
    · intro row
      split_ifs <;> rfl
  · show ((s.rows.map _).map EventRow.id).Nodup
    rw [nodup_map_of_same]
    · exact h.ids
    · intro row
      split_ifs <;> rfl
  · intro row hrow
    obtain ⟨old, hold, rfl⟩ := List.mem_map.mp hrow
    split_ifs
    · exact h.bounded old hold
    · exact h.bounded old hold
  · intro note hnote id hid
    rcases List.mem_append.mp hnote with hmem | hmem
    · exact h.noted note hmem id hid
    · rw [List.mem_singleton.mp hmem] at hid
      cases hid
  · intro row hrow
    obtain ⟨old, hold, rfl⟩ := List.mem_map.mp hrow
    exact (h.rows old hold).restarted
  · show AtEach ClaimInOrder (s.log ++ [.restarted])
    exact atEach_concat.mpr ⟨h.log, claimInOrder_of_ne (by simp)⟩

theorem Sound.cleanupOldEvents (h : Sound s) (cutoff : ℤ) :
    Sound (EventStore.cleanupOldEvents s cutoff) where
  keys := h.keys.sublist (List.filter_sublist.map EventRow.key)
  ids := h.ids.sublist (List.filter_sublist.map EventRow.id)
  bounded := fun row hrow => h.bounded row (List.mem_of_mem_filter hrow)
  noted := h.noted
  rows := fun row hrow => h.rows row (List.mem_of_mem_filter hrow)
  log := h.log

theorem start_sound : Sound start where
  keys := List.nodup_nil
  ids := List.nodup_nil
  bounded := by
    intro row hrow
    cases hrow
  noted := by
    intro note hnote
    cases hnote
  rows := by
    intro row hrow
    cases hrow
  log := atEach_nil ClaimInOrder

theorem step_sound (s : Store) (call : Call) (t : Store) (h : Sound s)
    (hguard : FailsUnfinished s call) (hstep : step s call = some t) : Sound t := by
  cases Option.some.inj hstep
  cases call with
  | publish key => exact h.insertOrIgnore key
  | publishBatch keys => exact sound_foldl (fun _ key hs => hs.insertOrIgnore key) _ h
  | claim limit => exact sound_foldl (fun _ id hs => hs.claimEvent id) _ h
  | complete id => exact h.markEventCompletedById id
  | skip id => exact h.markEventCompletedById id
  | fail id => exact h.markEventFailedById id hguard
  | resetProcessing => exact h.resetProcessingEvents
  | cleanup cutoff => exact h.cleanupOldEvents cutoff

/-- As long as no failure is marked on a completed or skipped event, every event lives as
it should, whatever is raised in the batches. -/
theorem lifecycle_throughout (acts : List Act)
    (hfails : Along step FailsUnfinished start (calls acts)) (front back : List Call)
    (hcalls : calls acts = front ++ back) (s : Store) (hrun : run step start front = some s) :
    Lifecycle s := by
  rw [hcalls] at hfails
  exact (run_invariant_along step_sound start_sound (along_front hfails) hrun).lifecycle

def firstBar : EventKey := ⟨"XAUUSD", "M5", 300⟩

def secondBar : EventKey := ⟨"XAUUSD", "M5", 600⟩

def twoBars : List ClaimedEvent := [⟨1, firstBar⟩, ⟨2, secondBar⟩]

/-- The work on the second bar raises and its failure is recorded. -/
def retriedActs : List Act :=
  [.call (.publishBatch [firstBar, secondBar, firstBar]), .call (.claim 10),
    .batch twoBars { work := fun id => if id = 2 then .raises else .computed },
    .call .resetProcessing, .call (.claim 10)]

theorem lifecycle_throughout_retried :
    Lifecycle
      { rows := [⟨1, firstBar, .completed, 0⟩, ⟨2, secondBar, .processing, 1⟩]
        lastId := 2
        log := [.claimed 1, .claimed 2, .finished 1, .failed 2, .restarted, .claimed 2] } :=
  lifecycle_throughout retriedActs (by decide) (calls retriedActs) []
    (List.append_nil _).symm _ (by decide)

/-- Here the store also raises when the failure is recorded: the handler of the group
marks the first bar failed, which was completed, and it is claimed again. -/
def revivedActs : List Act :=
  [.call (.publishBatch [firstBar, secondBar]), .call (.claim 10),
    .batch twoBars
      { work := fun id => if id = 2 then .raises else .computed
        fail := fun _ => .raisesBefore },
    .call (.claim 10)]

theorem completed_event_is_claimed_again :
    ¬ ∀ (acts : List Act) (front back : List Call) (s : Store),
      calls acts = front ++ back → run step start front = some s → Lifecycle s := by
  intro hall
  have hlife := hall revivedActs (calls revivedActs) []
    { rows := [⟨1, firstBar, .processing, 1⟩, ⟨2, secondBar, .processing, 1⟩]
      lastId := 2
      log := [.claimed 1, .claimed 2, .finished 1, .failed 1, .failed 2, .claimed 1,
        .claimed 2] }
    (List.append_nil _).symm (by decide)
  have hnever := hlife.finished 1
    [.claimed 1, .claimed 2, .finished 1, .failed 1, .failed 2] [.claimed 2] rfl
  exact hnever (by decide)

end MT5Services.EventStore
