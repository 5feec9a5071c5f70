import MT5Services.Dict
import MT5Services.Runs
import Mathlib.Algebra.Order.Field.Rat
import Mathlib.Data.List.Perm.Basic

/-!
Locally monitored entries of `PendingEntryManager`. Three parties share the map
`_pending` and the index `_groups`: callers, the monitor pass and the fill worker.
A step is one region under the lock, or one queue operation, or one answer from
outside, so every interleaving of the threads is a run. The pass keeps working on
its snapshot while the map changes under it, and a fill leaves the map long before
the worker cancels its siblings.
-/
namespace MT5Services.PendingEntries

open Runs

/-- `oid` is the identity of the object, which the snapshot and the map share. -/
structure PendingEntry where
  oid : ℕ
  signalId : String
  symbol : String
  direction : String
  entryLow : ℚ
  entryHigh : ℚ
  referencePrice : ℚ
  atrValue : ℚ
  expiresAt : ℤ
  entryKey : String
  groupId : String
  deriving DecidableEq

def PendingEntry.key (entry : PendingEntry) : String :=
  if entry.entryKey = "" then entry.signalId else entry.entryKey

structure FillResult where
  entry : PendingEntry
  fillPrice : ℚ
  deriving DecidableEq

structure Quote where
  bid : ℚ
  ask : ℚ
  point : Option ℚ

structure Config where
  timeoutFillToleranceAtr : ℚ
  maxSpreadPoints : ℚ

/-- Where the monitor thread is: between passes, before the next entry of its
snapshot, between the price check and the fill of an entry, or holding a fill that
is not in the queue yet. -/
inductive Monitor
  | idle
  | scanning (now : ℤ) (rest : List PendingEntry)
  | checked (entry : PendingEntry) (price : ℚ) (now : ℤ) (rest : List PendingEntry)
  | filled (result : FillResult) (now : ℤ) (rest : List PendingEntry)

/-- Where the fill worker is; the last two are `_on_member_filled_handler`, before
and after it has read the members of the group. -/
inductive Worker
  | idle
  | executing (result : FillResult)
  | notifying (attempt : ℕ) (groupId key : String)
  | cancelling (attempt : ℕ) (groupId key : String) (rest : List String)

abbrev Groups := Dict String (List String)

def membersOf (groups : Groups) (groupId : String) : List String :=
  (groups.get? groupId).getD []

def addMember (groups : Groups) (groupId key : String) : Groups :=
  groups.set groupId
    (if key ∈ membersOf groups groupId then membersOf groups groupId
      else membersOf groups groupId ++ [key])

/-- An emptied group leaves the index. -/
def discardMember (groups : Groups) (groupId key : String) : Groups :=
  match groups.get? groupId with
  | none => groups
  | some members =>
    if members.filter (· ≠ key) = [] then groups.pop groupId
    else groups.set groupId (members.filter (· ≠ key))

/-- `closed` holds the objects whose status is no longer pending, `executed` the
results for which `execute_fn` returned normally. -/
structure Manager where
  pending : Dict String PendingEntry
  groups : Groups
  closed : List ℕ
  queue : List FillResult
  monitor : Monitor
  worker : Worker
  executed : List FillResult

def start : Manager := ⟨Dict.empty, Dict.empty, [], [], .idle, .idle, []⟩

/-- The entries `submit_oco_group` submits one by one; `none` when it raises. -/
def ocoMembers (members : List PendingEntry) (groupId : String) : Option (List PendingEntry) :=
  if members = [] ∨ ¬ (members.map PendingEntry.key).Nodup then none
  else some (members.map fun entry =>
    { entry with
      entryKey := entry.key
      groupId := if entry.groupId = "" then groupId else entry.groupId })

/-- The region of `submit` that stores the entry, its key filled in. -/
def submit (m : Manager) (entry : PendingEntry) : Manager :=
  { m with
    pending := m.pending.set entry.key { entry with entryKey := entry.key }
    groups := if entry.groupId = "" then m.groups
      else addMember m.groups entry.groupId entry.key }

/-- Pop the key, close the entry and take it out of the index. -/
def removeEntry (m : Manager) (key indexKey : String) (entry : PendingEntry) : Manager :=
  { m with
    pending := m.pending.pop key
    groups := if entry.groupId = "" then m.groups
      else discardMember m.groups entry.groupId indexKey
    closed := entry.oid :: m.closed }

/-- A key that is not pending is tried as a signal id. -/
def cancel (m : Manager) (key : String) : Manager :=
  match m.pending.get? key with
  | some entry => removeEntry m key entry.key entry
  | none =>
    match m.pending.items.find? fun p => p.2.signalId = key with
    | some p => removeEntry m p.1 p.2.key p.2
    | none => m

def removeKey (m : Manager) (key : String) : Manager :=
  match m.pending.get? key with
  | some entry => removeEntry m key key entry
  | none => m

def primaryEntries (m : Manager) (symbol : String) (excludeDirection : Option String) :
    List (String × PendingEntry) :=
  m.pending.items.filter fun p =>
    p.2.symbol = symbol ∧ p.2.oid ∉ m.closed ∧ some p.2.direction ≠ excludeDirection

/-- Every match takes its whole group with it. -/
def keysToCancel (m : Manager) (symbol : String) (excludeDirection : Option String) :
    List String :=
  (primaryEntries m symbol excludeDirection).flatMap fun p =>
    p.1 :: if p.2.groupId = "" then [] else membersOf m.groups p.2.groupId

def cancelBySymbol (m : Manager) (symbol : String) (excludeDirection : Option String) :
    Manager :=
  (keysToCancel m symbol excludeDirection).foldl removeKey m

def checkPrice (entry : PendingEntry) (quote : Quote) : ℚ :=
  if entry.direction = "buy" then quote.ask else quote.bid

def spreadTooWide (config : Config) (quote : Quote) : Bool :=
  match quote.point with
  | none => false
  | some point =>
    0 < config.maxSpreadPoints ∧ 0 < point ∧
      config.maxSpreadPoints < |quote.ask - quote.bid| / point

def inZone (config : Config) (entry : PendingEntry) (quote : Quote) : Bool :=
  entry.entryLow ≤ checkPrice entry quote ∧ checkPrice entry quote ≤ entry.entryHigh ∧
    spreadTooWide config quote = false

/-- An expired entry close enough to its reference price is filled all the same. -/
def withinTolerance (config : Config) (entry : PendingEntry) (quote : Quote) : Bool :=
  0 < config.timeoutFillToleranceAtr ∧ 0 < entry.atrValue ∧
    |checkPrice entry quote - entry.referencePrice| ≤
      entry.atrValue * config.timeoutFillToleranceAtr

/-- The region of `fill_entry`: whatever is under the key is popped, and the entry of
the snapshot is the one that is filled. -/
def fillEntry (m : Manager) (entry : PendingEntry) (price : ℚ) (now : ℤ)
    (rest : List PendingEntry) : Manager :=
  if m.pending.contains entry.key then
    { removeEntry m entry.key entry.key entry with monitor := .filled ⟨entry, price⟩ now rest }
  else { m with monitor := .scanning now rest }

/-- Expiry pops the signal id, not the entry key. -/
def expirePop (m : Manager) (entry : PendingEntry) : Manager :=
  if m.pending.contains entry.signalId then
    { m with pending := m.pending.pop entry.signalId, closed := entry.oid :: m.closed }
  else m

/-- The next entry of the snapshot, with the quote the market service gives for it. -/
def checkEntry (config : Config) (m : Manager) (entry : PendingEntry) (quote : Option Quote)
    (now : ℤ) (rest : List PendingEntry) : Manager :=
  if entry.expiresAt ≤ now then
    match quote with
    | none => { expirePop m entry with monitor := .scanning now rest }
    | some quote =>
      if withinTolerance config entry quote then
        fillEntry m entry (checkPrice entry quote) now rest
      else { expirePop m entry with monitor := .scanning now rest }
  else
    match quote with
    | none => { m with monitor := .scanning now rest }
    | some quote =>
      if m.pending.contains entry.signalId ∧ entry.oid ∉ m.closed ∧ inZone config entry quote
      then { m with monitor := .checked entry (checkPrice entry quote) now rest }
      else { m with monitor := .scanning now rest }

def queueSize : ℕ := 128

def maxAttempts : ℕ := 3

/-- A `submit` that replaces an entry is a `cancel` step and a `submit` step, and
`cancel_by_group` from outside is a sequence of `cancel` steps. -/
inductive Act
  | submit (entry : PendingEntry)
  | cancel (key : String)
  | cancelBySymbol (symbol : String) (excludeDirection : Option String)
  | shutdown
  | startPass (now : ℤ)
  | checkNext (quote : Option Quote)
  | fill
  | abortPass
  | enqueue
  | overflow
  | takeResult
  | executed (returned : Bool)
  | readMembers (members : List String)
  | cancelMember
  | portAnswers (returned : Bool)

def step (config : Config) (m : Manager) : Act → Option Manager
  | .submit entry => some (submit m entry)
  | .cancel key => some (cancel m key)
  | .cancelBySymbol symbol excludeDirection => some (cancelBySymbol m symbol excludeDirection)
  | .shutdown =>
    some
      { m with
        pending := Dict.empty
        closed := m.pending.values.map PendingEntry.oid ++ m.closed
        queue := [] }
  | .startPass now =>
    match m.monitor with
    | .idle =>
      some { m with
        monitor := .scanning now (m.pending.values.filter fun entry => entry.oid ∉ m.closed) }
    | _ => none
  | .checkNext quote =>
    match m.monitor with
    | .scanning _ [] => some { m with monitor := .idle }
    | .scanning now (entry :: rest) => some (checkEntry config m entry quote now rest)
    | _ => none
  | .fill =>
    match m.monitor with
    | .checked entry price now rest => some (fillEntry m entry price now rest)
    | _ => none
  | .abortPass =>
    match m.monitor with
    | .scanning _ _ => some { m with monitor := .idle }
    | _ => none
  | .enqueue =>
    match m.monitor with
    | .filled result now rest =>
      if m.queue.length < queueSize then
        some { m with queue := m.queue ++ [result], monitor := .scanning now rest }
      else none
    | _ => none
  | .overflow =>
    match m.monitor with
    | .filled result now rest =>
      if queueSize ≤ m.queue.length then
        some
          { m with
            pending := m.pending.pop result.entry.signalId
            closed := result.entry.oid :: m.closed
            monitor := .scanning now rest }
      else none
    | _ => none
  | .takeResult =>
    match m.worker, m.queue with
    | .idle, result :: rest => some { m with queue := rest, worker := .executing result }
    | _, _ => none
  | .executed returned =>
    match m.worker with
    | .executing result =>
      if returned then
        some
          { m with
            executed := m.executed ++ [result]
            worker := if result.entry.groupId = "" then .idle
              else .notifying 0 result.entry.groupId result.entry.key }
      else some { m with worker := .idle }
    | _ => none
  | .readMembers members =>
    match m.worker with
    | .notifying attempt groupId key =>
      if members.Perm (membersOf m.groups groupId) then
        some { m with worker := .cancelling attempt groupId key members }
      else none
    | _ => none
  | .cancelMember =>
    match m.worker with
    | .cancelling attempt groupId key (member :: rest) =>
      some { (if member = key then m else cancel m member) with
        worker := .cancelling attempt groupId key rest }
    | _ => none
  | .portAnswers returned =>
    match m.worker with
    | .cancelling attempt groupId key [] =>
      some { m with
        worker := if returned then .idle
          else if attempt + 1 < maxAttempts then .notifying (attempt + 1) groupId key
          else .idle }
    | _ => none

/-- What each step needs and does; the turn of a pass and the answer of `execute_fn` have two
cases each. -/
inductive Step (config : Config) (m : Manager) : Act → Manager → Prop
  | submit (entry : PendingEntry) : Step config m (.submit entry) (submit m entry)
  | cancel (key : String) : Step config m (.cancel key) (cancel m key)
  | cancelBySymbol (symbol : String) (excludeDirection : Option String) :
      Step config m (.cancelBySymbol symbol excludeDirection)
        (cancelBySymbol m symbol excludeDirection)
  | shutdown :
      Step config m .shutdown
        { m with
          pending := Dict.empty
          closed := m.pending.values.map PendingEntry.oid ++ m.closed
          queue := [] }
  | startPass (now : ℤ) (hmonitor : m.monitor = .idle) :
      Step config m (.startPass now)
        { m with
          monitor := .scanning now (m.pending.values.filter fun entry => entry.oid ∉ m.closed) }
  | endPass (quote : Option Quote) {now : ℤ} (hmonitor : m.monitor = .scanning now []) :
      Step config m (.checkNext quote) { m with monitor := .idle }
  | checkNext (quote : Option Quote) {now : ℤ} {entry : PendingEntry} {rest : List PendingEntry}
      (hmonitor : m.monitor = .scanning now (entry :: rest)) :
      Step config m (.checkNext quote) (checkEntry config m entry quote now rest)
  | fill {entry : PendingEntry} {price : ℚ} {now : ℤ} {rest : List PendingEntry}
      (hmonitor : m.monitor = .checked entry price now rest) :
      Step config m .fill (fillEntry m entry price now rest)
  | abortPass {now : ℤ} {rest : List PendingEntry} (hmonitor : m.monitor = .scanning now rest) :
      Step config m .abortPass { m with monitor := .idle }
  | enqueue {result : FillResult} {now : ℤ} {rest : List PendingEntry}
      (hmonitor : m.monitor = .filled result now rest) (hroom : m.queue.length < queueSize) :
      Step config m .enqueue
        { m with queue := m.queue ++ [result], monitor := .scanning now rest }
  | overflow {result : FillResult} {now : ℤ} {rest : List PendingEntry}
      (hmonitor : m.monitor = .filled result now rest) (hfull : queueSize ≤ m.queue.length) :
      Step config m .overflow
        { m with
          pending := m.pending.pop result.entry.signalId
          closed := result.entry.oid :: m.closed
          monitor := .scanning now rest }
  | takeResult {result : FillResult} {rest : List FillResult} (hworker : m.worker = .idle)
      (hqueue : m.queue = result :: rest) :
      Step config m .takeResult { m with queue := rest, worker := .executing result }
  | executed {result : FillResult} (hworker : m.worker = .executing result) :
      Step config m (.executed true)
        { m with
          executed := m.executed ++ [result]
          worker := if result.entry.groupId = "" then .idle
            else .notifying 0 result.entry.groupId result.entry.key }
  | failed {result : FillResult} (hworker : m.worker = .executing result) :
      Step config m (.executed false) { m with worker := .idle }
  | readMembers {members : List String} {attempt : ℕ} {groupId filled : String}
      (hworker : m.worker = .notifying attempt groupId filled)
      (hperm : members.Perm (membersOf m.groups groupId)) :
      Step config m (.readMembers members)
        { m with worker := .cancelling attempt groupId filled members }
  | cancelMember {attempt : ℕ} {groupId filled member : String} {rest : List String}
      (hworker : m.worker = .cancelling attempt groupId filled (member :: rest)) :
      Step config m .cancelMember
        { (if member = filled then m else cancel m member) with
          worker := .cancelling attempt groupId filled rest }
  | portAnswers (returned : Bool) {attempt : ℕ} {groupId filled : String}
      (hworker : m.worker = .cancelling attempt groupId filled []) :
      Step config m (.portAnswers returned)
        { m with
          worker := if returned then .idle
            else if attempt + 1 < maxAttempts then .notifying (attempt + 1) groupId filled
            else .idle }

theorem step_of_enabled {config : Config} {m next : Manager} {a : Act}
    (h : Step config m a next) : step config m a = some next := by
  cases h with
  | submit entry => rfl
  | cancel key => rfl
  | cancelBySymbol symbol excludeDirection => rfl
  | shutdown => rfl
  | startPass now hmonitor => simp only [step, hmonitor]
  | endPass quote hmonitor => simp only [step, hmonitor]
  | checkNext quote hmonitor => simp only [step, hmonitor]
  | fill hmonitor => simp only [step, hmonitor]
  | abortPass hmonitor => simp only [step, hmonitor]
  | enqueue hmonitor hroom => simp only [step, hmonitor, if_pos hroom]
  | overflow hmonitor hfull => simp only [step, hmonitor, if_pos hfull]
  | takeResult hworker hqueue => simp only [step, hworker, hqueue]
  | executed hworker => simp only [step, hworker, if_true]
  | failed hworker => simp only [step, hworker, Bool.false_eq_true, if_false]
  | readMembers hworker hperm => simp only [step, hworker, if_pos hperm]
  | cancelMember hworker => simp only [step, hworker]
  | portAnswers returned hworker => simp only [step, hworker]

def Monitor.flight : Monitor → List FillResult
  | .filled result _ _ => [result]
  | _ => []

def Worker.flight : Worker → List FillResult
  | .executing result => [result]
  | _ => []

/-- The results taken out of the map and not executed yet. -/
def Manager.flights (m : Manager) : List FillResult :=
  m.worker.flight ++ (m.queue ++ m.monitor.flight)

/-- The worker is cancelling the siblings of a member of this group. -/
def Worker.cancels (worker : Worker) (groupId : String) : Prop :=
  match worker with
  | .notifying _ current _ => current = groupId
  | .cancelling _ current _ _ => current = groupId
  | _ => False

instance (worker : Worker) (groupId : String) : Decidable (worker.cancels groupId) :=
  match worker with
  | .notifying _ current _ => inferInstanceAs (Decidable (current = groupId))
  | .cancelling _ current _ _ => inferInstanceAs (Decidable (current = groupId))
  | .idle | .executing _ => inferInstanceAs (Decidable False)

/-- The worker will still come to cancel this key of this group. -/
def Worker.Dooms (worker : Worker) (groupId key : String) : Prop :=
  match worker with
  | .notifying _ current filled => current = groupId ∧ key ≠ filled
  | .cancelling _ current filled rest => current = groupId ∧ key ≠ filled ∧ key ∈ rest
  | _ => False

/-- If anything is popped for it, the entry of the snapshot is the stored one and no
other member of its group is on its way. -/
def TakesAlone (m : Manager) (entry : PendingEntry) : Prop :=
  entry.groupId ≠ "" → ∀ stored ∈ m.pending.get? entry.key,
    stored = entry ∧ (∀ result ∈ m.flights, result.entry.groupId ≠ entry.groupId) ∧
      ¬ m.worker.cancels entry.groupId

instance (m : Manager) (entry : PendingEntry) : Decidable (TakesAlone m entry) :=
  inferInstanceAs (Decidable (_ → _))

/-- No member of the group was executed, and none is on its way under this key. -/
def SubmitsEarly (m : Manager) (entry : PendingEntry) : Prop :=
  entry.groupId ≠ "" →
    (∀ result ∈ m.executed, result.entry.groupId ≠ entry.groupId) ∧
    ∀ result ∈ m.flights, result.entry.groupId = entry.groupId → result.entry.key ≠ entry.key

instance (m : Manager) (entry : PendingEntry) : Decidable (SubmitsEarly m entry) :=
  inferInstanceAs (Decidable (_ → _))

/-- The entry that the step calls `fill_entry` for. -/
def attempted (config : Config) (m : Manager) : Act → Option PendingEntry
  | .checkNext (some quote) =>
    match m.monitor with
    | .scanning now (entry :: _) =>
      if entry.expiresAt ≤ now ∧ withinTolerance config entry quote then some entry else none
    | _ => none
  | .fill =>
    match m.monitor with
    | .checked entry _ _ _ => some entry
    | _ => none
  | _ => none

def submitted : Act → Option PendingEntry
  | .submit entry => some entry
  | _ => none

/-- The condition on one step. -/
def Isolated (config : Config) (m : Manager) (a : Act) : Prop :=
  (∀ entry ∈ attempted config m a, TakesAlone m entry) ∧
    ∀ entry ∈ submitted a, SubmitsEarly m entry

instance (config : Config) (m : Manager) (a : Act) : Decidable (Isolated config m a) :=
  inferInstanceAs (Decidable (_ ∧ _))

/-- Two results of one group are the same one. -/
def Apart (a b : FillResult) : Prop := a.entry.groupId ≠ "" → a.entry.groupId ≠ b.entry.groupId

/-- Every stored entry is indexed; at most one result of a group is on its way or has
been executed; after an execution only keys the worker will cancel are left. -/
structure Exclusive (m : Manager) : Prop where
  indexed : ∀ key entry, m.pending.get? key = some entry →
    entry.key = key ∧ (entry.groupId ≠ "" → key ∈ membersOf m.groups entry.groupId)
  apart : m.flights.Pairwise Apart
  left : ∀ result ∈ m.flights, result.entry.groupId ≠ "" → ∀ entry,
    m.pending.get? result.entry.key = some entry → entry.groupId ≠ result.entry.groupId
  once : m.executed.Pairwise Apart
  settled : ∀ result ∈ m.executed, result.entry.groupId ≠ "" →
    (∀ other ∈ m.flights, other.entry.groupId ≠ result.entry.groupId) ∧
    ∀ key entry, m.pending.get? key = some entry → entry.groupId = result.entry.groupId →
      m.worker.Dooms result.entry.groupId key

theorem mem_membersOf_addMember (groups : Groups) (groupId key g k : String) :
    k ∈ membersOf (addMember groups groupId key) g ↔
      k ∈ membersOf groups g ∨ (g = groupId ∧ k = key) := by
  unfold addMember
  rw [membersOf, Dict.get?_set]
  by_cases hg : g = groupId
  · subst hg
    rw [if_pos rfl, Option.getD_some]
    split
    · rename_i hmem
      constructor
      · exact Or.inl
      · intro h
        rcases h with hold | ⟨-, rfl⟩
        · exact hold
        · exact hmem
    · simp
  · rw [if_neg hg]
    simp [membersOf, hg]

/-- Discarding loses the one key, of the one group. -/
theorem mem_membersOf_discardMember (groups : Groups) (groupId key g k : String)
    (h : k ∈ membersOf groups g) (hne : ¬ (g = groupId ∧ k = key)) :
    k ∈ membersOf (discardMember groups groupId key) g := by
  unfold discardMember
  split
  · exact h
  · rename_i members hmembers
    have hkept : g = groupId → k ∈ members.filter (· ≠ key) := by
      intro hg
      subst hg
      rw [membersOf, hmembers, Option.getD_some] at h
      have hk : k ≠ key := fun heq => hne ⟨rfl, heq⟩
      simp [h, hk]
    split
    · rename_i hempty
      have hg : g ≠ groupId := by
        intro heq
        have hmem := hkept heq
        rw [hempty] at hmem
        cases hmem
      rw [membersOf, Dict.get?_pop, if_neg hg]
      exact h
    · rw [membersOf, Dict.get?_set]
      by_cases hg : g = groupId
      · rw [if_pos hg]
        exact hkept hg
      · rw [if_neg hg]
        exact h

/-- The step only takes out of map, index and flights. -/
structure Shrinks (m t : Manager) : Prop where
  pending : ∀ key entry, t.pending.get? key = some entry → m.pending.get? key = some entry
  groups : ∀ groupId key entry, t.pending.get? key = some entry →
    key ∈ membersOf m.groups groupId → key ∈ membersOf t.groups groupId
  flights : t.flights.Sublist m.flights
  executed : t.executed = m.executed
  dooms : ∀ groupId key entry, t.pending.get? key = some entry → entry.groupId = groupId →
    entry.groupId ≠ "" → m.worker.Dooms groupId key → t.worker.Dooms groupId key

theorem exclusive_of_shrinks (m t : Manager) (h : Exclusive m) (hshrinks : Shrinks m t) :
    Exclusive t where
  indexed := by
    intro key entry hget
    obtain ⟨hkey, hindex⟩ := h.indexed key entry (hshrinks.pending key entry hget)
    exact ⟨hkey, fun hgroup => hshrinks.groups _ key entry hget (hindex hgroup)⟩
  apart := h.apart.sublist hshrinks.flights
  left := by
    intro result hresult hgroup entry hget
    exact h.left result (hshrinks.flights.subset hresult) hgroup entry
      (hshrinks.pending _ entry hget)
  once := by
    rw [hshrinks.executed]
    exact h.once
  settled := by
    intro result hresult hgroup
    rw [hshrinks.executed] at hresult
    obtain ⟨hflights, hdoomed⟩ := h.settled result hresult hgroup
    refine ⟨fun other hother => hflights other (hshrinks.flights.subset hother), ?_⟩
    intro key entry hget hsame
    exact hshrinks.dooms _ key entry hget hsame (hsame ▸ hgroup)
      (hdoomed key entry (hshrinks.pending key entry hget) hsame)

theorem Shrinks.refl (m : Manager) : Shrinks m m :=
  ⟨fun _ _ h => h, fun _ _ _ _ h => h, List.Sublist.refl _, rfl, fun _ _ _ _ _ _ h => h⟩

theorem Shrinks.trans (m t u : Manager) (hmt : Shrinks m t) (htu : Shrinks t u) :
    Shrinks m u where
  pending := fun key entry h => hmt.pending key entry (htu.pending key entry h)
  groups := fun groupId key entry h hmem => htu.groups groupId key entry h
    (hmt.groups groupId key entry (htu.pending key entry h) hmem)
  flights := htu.flights.trans hmt.flights
  executed := htu.executed.trans hmt.executed
  dooms := fun groupId key entry h hgroup hne hdoomed => htu.dooms groupId key entry h hgroup hne
    (hmt.dooms groupId key entry (htu.pending key entry h) hgroup hne hdoomed)

theorem shrinks_pop (m : Manager) (gone : String) (closed : List ℕ) :
    Shrinks m { m with pending := m.pending.pop gone, closed := closed } := by
  refine ⟨?_, fun _ _ _ _ h => h, List.Sublist.refl _, rfl, fun _ _ _ _ _ _ h => h⟩
  intro key entry h
  rw [Dict.get?_pop] at h
  split at h
  · cases h
  · exact h

/-- Popping a key and discarding the same key leaves the other entries indexed. -/
theorem shrinks_removeEntry (m : Manager) (key : String) (entry : PendingEntry) :
    Shrinks m (removeEntry m key key entry) where
  pending := (shrinks_pop m key m.closed).pending
  groups := by
    intro groupId other stored hget hmem
    have hother : other ≠ key := by
      intro heq
      subst heq
      simp [removeEntry] at hget
    unfold removeEntry
    dsimp only
    split
    · exact hmem
    · exact mem_membersOf_discardMember _ _ _ _ _ hmem fun hsame => hother hsame.2
  flights := List.Sublist.refl _
  executed := rfl
  dooms := fun _ _ _ _ _ _ h => h

theorem shrinks_removeKey (m : Manager) (key : String) : Shrinks m (removeKey m key) := by
  unfold removeKey
  split
  · exact shrinks_removeEntry m key _
  · exact Shrinks.refl m

theorem shrinks_cancelBySymbol (m : Manager) (symbol : String)
    (excludeDirection : Option String) :
    Shrinks m (cancelBySymbol m symbol excludeDirection) := by
  unfold cancelBySymbol
  generalize keysToCancel m symbol excludeDirection = keys
  induction keys generalizing m with
  | nil => exact Shrinks.refl m
  | cons key rest ih => exact (shrinks_removeKey m key).trans _ _ _ (ih (removeKey m key))

theorem shrinks_cancel (m : Manager) (key : String) (h : Exclusive m) :
    Shrinks m (cancel m key) := by
  unfold cancel
  split
  · rename_i entry hget
    rw [(h.indexed key entry hget).1]
    exact shrinks_removeEntry m key entry
  · split
    · rename_i p hfound
      have hget : m.pending.get? p.1 = some p.2 :=
        (Dict.mem_items_iff_get? _ _ _).mp (List.mem_of_find?_eq_some hfound)
      rw [(h.indexed p.1 p.2 hget).1]
      exact shrinks_removeEntry m p.1 p.2
    · exact Shrinks.refl m

theorem cancel_get?_self (m : Manager) (key : String) : (cancel m key).pending.get? key = none := by
  unfold cancel
  split
  · simp [removeEntry]
  · rename_i hnone
    split
    · simp only [removeEntry, Dict.get?_pop, hnone, ite_self]
    · exact hnone

theorem cancel_worker (m : Manager) (key : String) : (cancel m key).worker = m.worker := by
  unfold cancel
  split
  · rfl
  · split <;> rfl

theorem shrinks_monitor (m : Manager) (monitor : Monitor) (h : monitor.flight = []) :
    Shrinks m { m with monitor := monitor } := by
  refine ⟨fun _ _ h => h, fun _ _ _ _ h => h, ?_, rfl, fun _ _ _ _ _ _ h => h⟩
  unfold Manager.flights
  dsimp only
  rw [h, List.append_nil]
  exact (List.sublist_append_left m.queue m.monitor.flight).append_left m.worker.flight

theorem shrinks_expirePop (m : Manager) (entry : PendingEntry) : Shrinks m (expirePop m entry) := by
  unfold expirePop
  split
  · exact shrinks_pop m _ _
  · exact Shrinks.refl m

theorem shrinks_worker (m : Manager) (worker : Worker)
    (hflight : worker.flight.Sublist m.worker.flight)
    (hdooms : ∀ groupId key entry, m.pending.get? key = some entry → entry.groupId = groupId →
      entry.groupId ≠ "" → m.worker.Dooms groupId key → worker.Dooms groupId key) :
    Shrinks m { m with worker := worker } :=
  ⟨fun _ _ h => h, fun _ _ _ _ h => h, hflight.append_right _, rfl, hdooms⟩

theorem key_normalized (entry : PendingEntry) :
    ({ entry with entryKey := entry.key } : PendingEntry).key = entry.key := by
  have hkey : entry.key = "" → entry.signalId = "" := by
    intro h
    unfold PendingEntry.key at h
    split at h
    · exact h
    · rename_i hne
      exact absurd h hne
  by_cases hempty : entry.key = ""
  · rw [PendingEntry.key]
    dsimp only
    rw [if_pos hempty, hkey hempty, hempty]
  · rw [PendingEntry.key]
    dsimp only
    rw [if_neg hempty]

theorem submit_exclusive (m : Manager) (entry : PendingEntry) (h : Exclusive m)
    (hearly : SubmitsEarly m entry) :
    Exclusive (submit m entry) where
  indexed := by
    intro key stored hget
    have hgroups : ∀ g k, k ∈ membersOf m.groups g →
        k ∈ membersOf (submit m entry).groups g := by
      intro g k hmem
      unfold submit
      dsimp only
      split
      · exact hmem
      · exact (mem_membersOf_addMember _ _ _ _ _).mpr (Or.inl hmem)
    simp only [submit, Dict.get?_set] at hget
    split at hget
    · rename_i hkey
      cases Option.some.inj hget
      refine ⟨(key_normalized entry).trans hkey.symm, ?_⟩
      intro hgroup
      unfold submit
      dsimp only at hgroup ⊢
      rw [if_neg hgroup]
      exact (mem_membersOf_addMember _ _ _ _ _).mpr (Or.inr ⟨rfl, hkey⟩)
    · obtain ⟨hkey, hindex⟩ := h.indexed key stored hget
      exact ⟨hkey, fun hgroup => hgroups _ _ (hindex hgroup)⟩
  apart := h.apart
  left := by
    intro result hresult hgroup stored hget hsame
    simp only [submit, Dict.get?_set] at hget
    split at hget
    · rename_i hkey
      cases Option.some.inj hget
      have hentry : entry.groupId ≠ "" := fun hempty => hgroup (hsame.symm.trans hempty)
      exact (hearly hentry).2 result hresult hsame.symm hkey
    · exact h.left result hresult hgroup stored hget hsame
  once := h.once
  settled := by
    intro result hresult hgroup
    obtain ⟨hflights, hdoomed⟩ := h.settled result hresult hgroup
    refine ⟨hflights, ?_⟩
    intro key stored hget hsame
    simp only [submit, Dict.get?_set] at hget
    split at hget
    · cases Option.some.inj hget
      have hentry : entry.groupId ≠ "" := fun hempty => hgroup (hsame.symm.trans hempty)
      exact absurd hsame.symm ((hearly hentry).1 result hresult)
    · exact hdoomed key stored hget hsame

theorem Worker.cancels_of_dooms (worker : Worker) (groupId key : String)
    (h : worker.Dooms groupId key) : worker.cancels groupId := by
  cases worker with
  | idle => exact h
  | executing result => exact h
  | notifying attempt current filled => exact h.1
  | cancelling attempt current filled rest => exact h.1

theorem fillEntry_exclusive (m : Manager) (entry : PendingEntry) (price : ℚ) (now : ℤ)
    (rest : List PendingEntry) (h : Exclusive m) (hmonitor : m.monitor.flight = [])
    (htake : TakesAlone m entry) : Exclusive (fillEntry m entry price now rest) := by
  unfold fillEntry
  split
  · rename_i hcontains
    obtain ⟨stored, hstored⟩ := Option.isSome_iff_exists.mp hcontains
    have hremoved := exclusive_of_shrinks m _ h (shrinks_removeEntry m entry.key entry)
    have hflights : Manager.flights { removeEntry m entry.key entry.key entry with
        monitor := .filled ⟨entry, price⟩ now rest } = m.flights ++ [⟨entry, price⟩] := by
      have hbefore : m.flights = m.worker.flight ++ m.queue := by
        rw [Manager.flights, hmonitor, List.append_nil]
      rw [hbefore, List.append_assoc]
      rfl
    have halone : ∀ result ∈ m.flights, entry.groupId ≠ "" →
        result.entry.groupId ≠ entry.groupId :=
      fun result hresult hgroup => (htake hgroup stored hstored).2.1 result hresult
    refine ⟨hremoved.indexed, ?_, ?_, hremoved.once, ?_⟩
    · rw [hflights, List.pairwise_append]
      refine ⟨h.apart, List.pairwise_singleton _ _, ?_⟩
      intro result hresult other hother hgroup hsame
      rw [List.mem_singleton] at hother
      subst hother
      exact halone result hresult (fun hempty => hgroup (hsame.trans hempty)) hsame
    · intro result hresult hgroup other hget
      rw [hflights, List.mem_append, List.mem_singleton] at hresult
      rcases hresult with hold | rfl
      · exact hremoved.left result hold hgroup other hget
      · simp [removeEntry] at hget
    · intro result hresult hgroup
      obtain ⟨hothers, hdoomed⟩ := hremoved.settled result hresult hgroup
      refine ⟨?_, hdoomed⟩
      intro other hother hsame
      rw [hflights, List.mem_append, List.mem_singleton] at hother
      rcases hother with hold | rfl
      · exact hothers other hold hsame
      · have hentry : entry.groupId ≠ "" := fun hempty => hgroup (hsame.symm.trans hempty)
        obtain ⟨rfl, -, hworker⟩ := htake hentry stored hstored
        have hdooms := (h.settled result hresult hgroup).2 _ _ hstored hsame
        rw [hsame] at hworker
        exact hworker (Worker.cancels_of_dooms _ _ _ hdooms)
  · exact exclusive_of_shrinks m _ h (shrinks_monitor m _ rfl)

theorem flights_of_executing {m : Manager} {result : FillResult}
    (hworker : m.worker = .executing result) :
    m.flights = result :: (m.queue ++ m.monitor.flight) := by
  simp [Manager.flights, hworker, Worker.flight]

/-- Neither state after an execution holds a result any more. -/
theorem flight_executed (result : FillResult) :
    Worker.flight (if result.entry.groupId = "" then .idle
      else .notifying 0 result.entry.groupId result.entry.key) = [] := by
  split
  · rfl
  · rfl

theorem executed_exclusive (m : Manager) (result : FillResult) (h : Exclusive m)
    (hworker : m.worker = .executing result) :
    Exclusive
      { m with
        executed := m.executed ++ [result]
        worker := if result.entry.groupId = "" then .idle
          else .notifying 0 result.entry.groupId result.entry.key } := by
  have hflights := flights_of_executing hworker
  have hrest : Manager.flights
      { m with
        executed := m.executed ++ [result]
        worker := if result.entry.groupId = "" then .idle
          else .notifying 0 result.entry.groupId result.entry.key } =
      m.queue ++ m.monitor.flight := by
    unfold Manager.flights
    rw [flight_executed, List.nil_append]
  have hmem : result ∈ m.flights := by
    rw [hflights]
    exact List.mem_cons_self
  have hsub : ∀ other ∈ m.queue ++ m.monitor.flight, other ∈ m.flights := by
    intro other hother
    rw [hflights]
    exact List.mem_cons_of_mem _ hother
  have hapart := h.apart
  rw [hflights, List.pairwise_cons] at hapart
  refine ⟨h.indexed, ?_, ?_, ?_, ?_⟩
  · rw [hrest]
    exact hapart.2
  · intro other hother
    rw [hrest] at hother
    exact h.left other (hsub other hother)
  · rw [List.pairwise_append]
    refine ⟨h.once, List.pairwise_singleton _ _, ?_⟩
    intro earlier hearlier other hother hgroup hsame
    rw [List.mem_singleton] at hother
    subst hother
    exact (h.settled earlier hearlier hgroup).1 other hmem hsame.symm
  · intro earlier hearlier hgroup
    rw [hrest]
    rw [List.mem_append, List.mem_singleton] at hearlier
    rcases hearlier with hold | rfl
    · obtain ⟨hothers, hdoomed⟩ := h.settled earlier hold hgroup
      refine ⟨fun other hother => hothers other (hsub other hother), ?_⟩
      intro key entry hget hsame
      have hdooms := hdoomed key entry hget hsame
      rw [hworker] at hdooms
      exact hdooms.elim
    · refine ⟨fun other hother hsame => hapart.1 other hother hgroup hsame.symm, ?_⟩
      intro key entry hget hsame
      dsimp only
      rw [if_neg hgroup]
      refine ⟨rfl, ?_⟩
      intro hkey
      rw [hkey] at hget
      exact h.left earlier hmem hgroup entry hget hsame

theorem checkEntry_exclusive (config : Config) (m : Manager) (entry : PendingEntry)
    (quote : Option Quote) (now : ℤ) (rest : List PendingEntry) (h : Exclusive m)
    (hmonitor : m.monitor = .scanning now (entry :: rest))
    (hisolated : Isolated config m (.checkNext quote)) :
    Exclusive (checkEntry config m entry quote now rest) := by
  have hexpired : Exclusive { expirePop m entry with monitor := .scanning now rest } :=
    exclusive_of_shrinks m _ h
      ((shrinks_expirePop m entry).trans _ _ _ (shrinks_monitor _ (.scanning now rest) rfl))
  have hskipped : Exclusive { m with monitor := .scanning now rest } :=
    exclusive_of_shrinks m _ h (shrinks_monitor m _ rfl)
  unfold checkEntry
  split
  · rename_i htime
    cases quote with
    | none => exact hexpired
    | some quote =>
      dsimp only
      split
      · rename_i hnear
        have hattempted : entry ∈ attempted config m (.checkNext (some quote)) := by
          simp only [attempted, hmonitor, if_pos (And.intro htime hnear)]
          rfl
        have hflight : m.monitor.flight = [] := by rw [hmonitor]; rfl
        exact fillEntry_exclusive m entry _ now rest h hflight (hisolated.1 entry hattempted)
      · exact hexpired
  · cases quote with
    | none => exact hskipped
    | some quote =>
      dsimp only
      split
      · exact exclusive_of_shrinks m _ h (shrinks_monitor m _ rfl)
      · exact hskipped

theorem cancelMember_shrinks (m : Manager) (h : Exclusive m) (attempt : ℕ)
    (groupId filled member : String) (rest : List String)
    (hworker : m.worker = .cancelling attempt groupId filled (member :: rest)) :
    Shrinks m { (if member = filled then m else cancel m member) with
      worker := .cancelling attempt groupId filled rest } := by
  have hcancel : Shrinks m (if member = filled then m else cancel m member) := by
    split
    · exact Shrinks.refl m
    · exact shrinks_cancel m member h
  have hsame : (if member = filled then m else cancel m member).worker = m.worker := by
    split
    · rfl
    · exact cancel_worker m member
  refine hcancel.trans _ _ _ (shrinks_worker _ _ ?_ ?_)
  · exact List.nil_sublist _
  · intro group key entry hget hgroup hne hdooms
    rw [hsame, hworker] at hdooms
    obtain ⟨hcurrent, hkey, hmem⟩ := hdooms
    refine ⟨hcurrent, hkey, ?_⟩
    rcases List.mem_cons.mp hmem with rfl | hlater
    · rw [if_neg hkey, cancel_get?_self] at hget
      cases hget
    · exact hlater

/-- A worker that is not cancelling may go anywhere it holds no new result. -/
theorem shrinks_worker_of_not_dooms (m : Manager) (worker : Worker)
    (hflight : worker.flight.Sublist m.worker.flight)
    (hnot : ∀ groupId key, ¬m.worker.Dooms groupId key) :
    Shrinks m { m with worker := worker } :=
  shrinks_worker m worker hflight fun groupId key _ _ _ _ hdooms => (hnot groupId key hdooms).elim

theorem shutdown_shrinks (m : Manager) :
    Shrinks m
      { m with
        pending := Dict.empty
        closed := m.pending.values.map PendingEntry.oid ++ m.closed
        queue := [] } := by
  refine ⟨by simp, by simp, ?_, rfl, by simp⟩
  exact (List.sublist_append_right m.queue m.monitor.flight).append_left m.worker.flight

theorem enqueue_shrinks (m : Manager) (result : FillResult) (now : ℤ) (rest : List PendingEntry)
    (hmonitor : m.monitor = .filled result now rest) :
    Shrinks m { m with queue := m.queue ++ [result], monitor := .scanning now rest } := by
  refine ⟨fun _ _ h => h, fun _ _ _ _ h => h, ?_, rfl, fun _ _ _ _ _ _ h => h⟩
  simp only [Manager.flights, hmonitor, Monitor.flight, List.append_nil]
  exact List.Sublist.refl _

theorem takeResult_shrinks (m : Manager) (result : FillResult) (rest : List FillResult)
    (hworker : m.worker = .idle) (hqueue : m.queue = result :: rest) :
    Shrinks m { m with queue := rest, worker := .executing result } := by
  refine ⟨fun _ _ h => h, fun _ _ _ _ h => h, ?_, rfl, ?_⟩
  · simp only [Manager.flights, hworker, hqueue, Worker.flight]
    exact List.Sublist.refl _
  · intro _ _ _ _ _ _ hdooms
    rw [hworker] at hdooms
    exact hdooms.elim

/-- The worker reads every member, so what it was to cancel it still is. -/
theorem readMembers_shrinks (m : Manager) (h : Exclusive m) (attempt : ℕ)
    (groupId filled : String) (members : List String)
    (hworker : m.worker = .notifying attempt groupId filled)
    (hperm : members.Perm (membersOf m.groups groupId)) :
    Shrinks m { m with worker := .cancelling attempt groupId filled members } := by
  refine shrinks_worker m _ (List.nil_sublist _) ?_
  intro group key entry hget hgroup hne hdooms
  rw [hworker] at hdooms
  obtain ⟨rfl, hkey⟩ := hdooms
  refine ⟨rfl, hkey, hperm.mem_iff.mpr ?_⟩
  rw [← hgroup]
  exact (h.indexed key entry hget).2 hne

theorem portAnswers_shrinks (m : Manager) (attempt : ℕ) (groupId filled : String)
    (returned : Bool) (hworker : m.worker = .cancelling attempt groupId filled []) :
    Shrinks m { m with
      worker := if returned then .idle
        else if attempt + 1 < maxAttempts then .notifying (attempt + 1) groupId filled
        else .idle } := by
  apply shrinks_worker_of_not_dooms
  · split
    · exact List.nil_sublist _
    · split <;> exact List.nil_sublist _
  · intro group key hdooms
    rw [hworker] at hdooms
    cases hdooms.2.2

section Enabled

variable {config : Config} {m next : Manager}

theorem startPass_enabled {now : ℤ} (h : step config m (.startPass now) = some next) :
    Step config m (.startPass now) next := by
  simp only [step] at h
  split at h
  · rename_i hmonitor
    exact Option.some.inj h ▸ .startPass now hmonitor
  · cases h

theorem checkNext_enabled {quote : Option Quote}
    (h : step config m (.checkNext quote) = some next) :
    Step config m (.checkNext quote) next := by
  simp only [step] at h
  split at h
  · rename_i hmonitor
    exact Option.some.inj h ▸ .endPass quote hmonitor
  · rename_i hmonitor
    exact Option.some.inj h ▸ .checkNext quote hmonitor
  · cases h

theorem fill_enabled (h : step config m .fill = some next) : Step config m .fill next := by
  simp only [step] at h
  split at h
  · rename_i hmonitor
    exact Option.some.inj h ▸ .fill hmonitor
  · cases h

theorem abortPass_enabled (h : step config m .abortPass = some next) :
    Step config m .abortPass next := by
  simp only [step] at h
  split at h
  · rename_i hmonitor
    exact Option.some.inj h ▸ .abortPass hmonitor
  · cases h

theorem enqueue_enabled (h : step config m .enqueue = some next) :
    Step config m .enqueue next := by
  simp only [step] at h
  split at h
  · rename_i hmonitor
    split_ifs at h with hroom
    exact Option.some.inj h ▸ .enqueue hmonitor hroom
  · cases h

theorem overflow_enabled (h : step config m .overflow = some next) :
    Step config m .overflow next := by
  simp only [step] at h
  split at h
  · rename_i hmonitor
    split_ifs at h with hfull
    exact Option.some.inj h ▸ .overflow hmonitor hfull
  · cases h

theorem takeResult_enabled (h : step config m .takeResult = some next) :
    Step config m .takeResult next := by
  simp only [step] at h
  split at h
  · rename_i hworker hqueue
    exact Option.some.inj h ▸ .takeResult hworker hqueue
  · cases h

theorem executed_enabled {returned : Bool} (h : step config m (.executed returned) = some next) :
    Step config m (.executed returned) next := by
  simp only [step] at h
  split at h
  · rename_i hworker
    cases returned with
    | true => exact Option.some.inj h ▸ .executed hworker
    | false => exact Option.some.inj h ▸ .failed hworker
  · cases h

theorem readMembers_enabled {members : List String}
    (h : step config m (.readMembers members) = some next) :
    Step config m (.readMembers members) next := by
  simp only [step] at h
  split at h
  · rename_i hworker
    split_ifs at h with hperm
    exact Option.some.inj h ▸ .readMembers hworker hperm
  · cases h

theorem cancelMember_enabled (h : step config m .cancelMember = some next) :
    Step config m .cancelMember next := by
  simp only [step] at h
  split at h
  · rename_i hworker
    exact Option.some.inj h ▸ .cancelMember hworker
  · cases h

theorem portAnswers_enabled {returned : Bool}
    (h : step config m (.portAnswers returned) = some next) :
    Step config m (.portAnswers returned) next := by
  simp only [step] at h
  split at h
  · rename_i hworker
    exact Option.some.inj h ▸ .portAnswers returned hworker
  · cases h

theorem step_eq_some_iff {a : Act} : step config m a = some next ↔ Step config m a next := by
  refine ⟨fun h => ?_, step_of_enabled⟩
  cases a with
  | submit entry => exact Option.some.inj h ▸ .submit entry
  | cancel key => exact Option.some.inj h ▸ .cancel key
  | cancelBySymbol symbol excludeDirection =>
    exact Option.some.inj h ▸ .cancelBySymbol symbol excludeDirection
  | shutdown => exact Option.some.inj h ▸ .shutdown
  | startPass now => exact startPass_enabled h
  | checkNext quote => exact checkNext_enabled h
  | fill => exact fill_enabled h
  | abortPass => exact abortPass_enabled h
  | enqueue => exact enqueue_enabled h
  | overflow => exact overflow_enabled h
  | takeResult => exact takeResult_enabled h
  | executed returned => exact executed_enabled h
  | readMembers members => exact readMembers_enabled h
  | cancelMember => exact cancelMember_enabled h
  | portAnswers returned => exact portAnswers_enabled h

end Enabled

theorem step_exclusive (config : Config) (m : Manager) (a : Act) (next : Manager)
    (h : Exclusive m) (hisolated : Isolated config m a)
    (hstep : step config m a = some next) : Exclusive next := by
  have hshrinks : ∀ t, Shrinks m t → Exclusive t := fun t => exclusive_of_shrinks m t h
  cases step_eq_some_iff.mp hstep with
  | submit entry => exact submit_exclusive m entry h (hisolated.2 entry rfl)
  | cancel key => exact hshrinks _ (shrinks_cancel m key h)
  | cancelBySymbol symbol excludeDirection =>
    exact hshrinks _ (shrinks_cancelBySymbol m symbol excludeDirection)
  | shutdown => exact hshrinks _ (shutdown_shrinks m)
  | startPass now hmonitor => exact hshrinks _ (shrinks_monitor m _ rfl)
  | endPass quote hmonitor => exact hshrinks _ (shrinks_monitor m _ rfl)
  | checkNext quote hmonitor =>
    exact checkEntry_exclusive config m _ quote _ _ h hmonitor hisolated
  | @fill entry price now rest hmonitor =>
    have hattempted : entry ∈ attempted config m .fill := by
      simp only [attempted, hmonitor]
      rfl
    have hflight : m.monitor.flight = [] := by rw [hmonitor]; rfl
    exact fillEntry_exclusive m entry price now rest h hflight (hisolated.1 entry hattempted)
  | abortPass hmonitor => exact hshrinks _ (shrinks_monitor m _ rfl)
  | enqueue hmonitor hroom => exact hshrinks _ (enqueue_shrinks m _ _ _ hmonitor)
  | overflow hmonitor hfull =>
    exact hshrinks _ ((shrinks_pop m _ _).trans _ _ _ (shrinks_monitor _ _ rfl))
  | takeResult hworker hqueue => exact hshrinks _ (takeResult_shrinks m _ _ hworker hqueue)
  | executed hworker => exact executed_exclusive m _ h hworker
  | failed hworker =>
    refine hshrinks _ (shrinks_worker_of_not_dooms m _ (List.nil_sublist _) ?_)
    intro groupId key hdooms
    rw [hworker] at hdooms
    exact hdooms
  | readMembers hworker hperm =>
    exact hshrinks _ (readMembers_shrinks m h _ _ _ _ hworker hperm)
  | cancelMember hworker => exact hshrinks _ (cancelMember_shrinks m h _ _ _ _ _ hworker)
  | portAnswers returned hworker =>
    exact hshrinks _ (portAnswers_shrinks m _ _ _ returned hworker)

theorem start_exclusive : Exclusive start :=
  ⟨by simp [start], List.Pairwise.nil, by simp [start, Manager.flights, Worker.flight, Monitor.flight],
    List.Pairwise.nil, by simp [start]⟩

/-- In every run whose fills and submissions meet the condition, `execute_fn` returns
normally for at most one member of each group. -/
theorem one_member_executed (config : Config) (labels : List Act) (m : Manager)
    (halong : Along (step config) (Isolated config) start labels)
    (hrun : run (step config) start labels = some m) (groupId : String)
    (hgroup : groupId ≠ "") :
    (m.executed.filter fun result => result.entry.groupId = groupId).length ≤ 1 := by
  have honce := (run_invariant_along (step_exclusive config) start_exclusive halong hrun).once
  by_contra hmany
  obtain ⟨first, second, rest, hfiltered⟩ : ∃ first second rest,
      (m.executed.filter fun result => result.entry.groupId = groupId) =
        first :: second :: rest := by
    cases hfilter : m.executed.filter fun result => result.entry.groupId = groupId with
    | nil => simp [hfilter] at hmany
    | cons first others =>
      cases others with
      | nil => simp [hfilter] at hmany
      | cons second rest => exact ⟨first, second, rest, rfl⟩
  have hpair := honce.sublist (List.filter_sublist (p := fun result =>
    decide (result.entry.groupId = groupId)))
  have hmem : ∀ result ∈ first :: second :: rest, result.entry.groupId = groupId := by
    intro result hresult
    rw [← hfiltered] at hresult
    exact of_decide_eq_true (List.mem_filter.mp hresult).2
  rw [hfiltered, List.pairwise_cons] at hpair
  have hfirst := hmem first List.mem_cons_self
  have hsecond := hmem second (List.mem_cons_of_mem _ List.mem_cons_self)
  apply hpair.1 second List.mem_cons_self
  · rw [hfirst]
    exact hgroup
  · rw [hfirst, hsecond]

def sampleConfig : Config := ⟨1 / 2, 0⟩

def sampleEntry (oid : ℕ) (memberId : String) : PendingEntry where
  oid := oid
  signalId := "sig"
  symbol := "XAUUSD"
  direction := "buy"
  entryLow := 4498
  entryHigh := 4502
  referencePrice := 4500
  atrValue := 10
  expiresAt := 10
  entryKey := "sig#" ++ memberId
  groupId := ""

/-- `submit_oco_group` of two members. -/
def sampleSubmits : List Act :=
  ((ocoMembers [sampleEntry 0 "limit", sampleEntry 1 "stop"] "grp").getD []).map .submit

def sampleQuote : Option Quote := some ⟨4499, 4500, none⟩

/-- The first member times out within tolerance and is executed before the pass goes
on; the worker then cancels the second. -/
def oneFill : List Act :=
  sampleSubmits ++
    [.startPass 20, .checkNext sampleQuote, .enqueue, .takeResult, .executed true,
      .readMembers ["sig#stop"], .cancelMember, .portAnswers true, .checkNext sampleQuote]

theorem one_member_executed_cancels :
    ∃ m, run (step sampleConfig) start oneFill = some m ∧
      m.executed.map (fun result => result.entry.key) = ["sig#limit"] ∧
      (m.executed.filter fun result => result.entry.groupId = "grp").length ≤ 1 := by
  have hrun : (run (step sampleConfig) start oneFill).map (fun m =>
      m.executed.map fun result => result.entry.key) = some ["sig#limit"] := by
    decide +kernel
  obtain ⟨m, hm, hkeys⟩ := Option.map_eq_some_iff.mp hrun
  have halong : Along (step sampleConfig) (Isolated sampleConfig) start oneFill := by
    decide +kernel
  exact ⟨m, hm, hkeys, one_member_executed sampleConfig oneFill m halong hm "grp" (by decide)⟩

/-- Both members time out within tolerance in one pass: both are taken before the
worker has executed the first. -/
def twoFills : List Act :=
  sampleSubmits ++
    [.startPass 20, .checkNext sampleQuote, .enqueue, .checkNext sampleQuote, .enqueue,
      .takeResult, .executed true, .readMembers [], .portAnswers true,
      .takeResult, .executed true]

theorem two_members_executed :
    ∃ config labels m, run (step config) start labels = some m ∧
      ¬ (m.executed.filter fun result => result.entry.groupId = "grp").length ≤ 1 := by
  have hrun : (run (step sampleConfig) start twoFills).map (fun m =>
      (m.executed.filter fun result => result.entry.groupId = "grp").length) = some 2 := by
    decide +kernel
  obtain ⟨m, hm, hlength⟩ := Option.map_eq_some_iff.mp hrun
  exact ⟨sampleConfig, twoFills, m, hm, by rw [hlength]; decide⟩

end MT5Services.PendingEntries
