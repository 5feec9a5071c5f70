import MT5Services.Dict
import Mathlib.Data.List.Sort

/-!
The `execution_intents` table and the statements of `ExecutionIntentRepository`.
Rows are kept under their `intent_id`. The connection of the repository is in
autocommit mode, so `claim_execution_intents` is four statements that other
workers can run between; each statement is atomic. Times are integers, and
columns that are only written or only returned are left out.
-/
namespace MT5Services.ExecutionIntents

inductive Status
  | pending
  | claimed
  | dispatched
  | completed
  | failed
  | skipped
  | deadLettered
  deriving DecidableEq, Repr

namespace Status

def terminal : Status → Bool
  | completed | failed | skipped | deadLettered => true
  | pending | claimed | dispatched => false

/-- The order the table promises: a dispatched row stays dispatched until it is
terminal, and a terminal status never changes. -/
def Follows (before after : Status) : Prop :=
  (before = dispatched → after = dispatched ∨ after.terminal = true) ∧
    (before.terminal = true → after = before)

/-- The row has passed the compare-and-set of `mark_intent_dispatched`. -/
def Settled (status : Status) : Prop := status = dispatched ∨ status.terminal = true

theorem follows_refl (status : Status) : Follows status status := by
  refine ⟨?_, fun _ => rfl⟩
  intro h
  exact Or.inl h

theorem follows_trans (a b c : Status) (hab : Follows a b) (hbc : Follows b c) :
    Follows a c := by
  constructor
  · intro ha
    rcases hab.1 ha with hb | hb
    · exact hbc.1 hb
    · exact Or.inr (by rw [hbc.2 hb]; exact hb)
  · intro ha
    have hb := hab.2 ha
    rw [← hb] at ha
    rw [hbc.2 ha, hb]

theorem Settled.follows {before after : Status} (h : Settled before)
    (hf : Follows before after) : Settled after := by
  rcases h with h | h
  · exact hf.1 h
  · exact Or.inr (by rw [hf.2 h]; exact h)

/-- Rows not yet dispatched may move anywhere. -/
theorem follows_of_not_settled {before after : Status} (h : ¬ Settled before) :
    Follows before after := by
  constructor
  · intro hd
    exact absurd (Or.inl hd) h
  · intro ht
    exact absurd (Or.inr ht) h

end Status

structure Row where
  createdAt : ℤ
  targetAccountKey : String
  status : Status
  attemptCount : ℕ
  claimedByInstanceId : Option String
  claimedByRunId : Option String
  claimedAt : Option ℤ
  leaseExpiresAt : Option ℤ
  lastHeartbeatAt : Option ℤ
  completedAt : Option ℤ
  deadLetteredAt : Option ℤ
  lastErrorCode : Option String
  deriving DecidableEq, Repr

abbrev Table := Dict String Row

/-- The pair that owns a lease. -/
structure Owner where
  instanceId : String
  runId : String
  deriving DecidableEq, Repr

namespace Row

/-- `lease_expires_at IS NOT NULL AND lease_expires_at < now`. -/
def leaseExpired (r : Row) (now : ℤ) : Bool :=
  match r.leaseExpiresAt with
  | some expiry => expiry < now
  | none => false

def ownedBy (r : Row) (owner : Owner) : Bool :=
  r.claimedByInstanceId = some owner.instanceId ∧ r.claimedByRunId = some owner.runId

def clearLease (r : Row) : Row :=
  { r with
    claimedByInstanceId := none
    claimedByRunId := none
    claimedAt := none
    leaseExpiresAt := none
    lastHeartbeatAt := none }

/-- The row the publisher inserts. -/
def published (createdAt : ℤ) (targetAccountKey : String) : Row where
  createdAt := createdAt
  targetAccountKey := targetAccountKey
  status := .pending
  attemptCount := 0
  claimedByInstanceId := none
  claimedByRunId := none
  claimedAt := none
  leaseExpiresAt := none
  lastHeartbeatAt := none
  completedAt := none
  deadLetteredAt := none
  lastErrorCode := none

end Row

/-- First statement of the claim: expired claims go back to pending. -/
def resetExpiredClaims (db : Table) (account : String) (now : ℤ) : Table :=
  db.updateWhere
    (fun _ r => r.targetAccountKey = account ∧ r.status = .claimed ∧ r.leaseExpired now)
    fun r => { r.clearLease with status := .pending }

/-- Second statement: an expired dispatched row is never replayed. -/
def deadLetterExpiredDispatches (db : Table) (account : String) (now : ℤ) : Table :=
  db.updateWhere
    (fun _ r => r.targetAccountKey = account ∧ r.status = .dispatched ∧ r.leaseExpired now)
    fun r =>
      { r.clearLease with
        status := .deadLettered
        deadLetteredAt := some now
        lastErrorCode := some (r.lastErrorCode.getD "dispatched_lease_expired") }

/-- Third statement: pending rows out of attempts. -/
def deadLetterExhausted (db : Table) (account : String) (maxAttempts : ℤ) (now : ℤ) : Table :=
  db.updateWhere
    (fun _ r => r.targetAccountKey = account ∧ r.status = .pending ∧
      max 1 maxAttempts ≤ (r.attemptCount : ℤ) ∧ r.deadLetteredAt = none)
    fun r => { r.clearLease with status := .deadLettered, deadLetteredAt := some now }

def claimable (account : String) (maxAttempts : ℤ) (r : Row) : Bool :=
  r.targetAccountKey = account ∧ r.status = .pending ∧ r.deadLetteredAt = none ∧
    (r.attemptCount : ℤ) < max 1 maxAttempts

/-- The identifiers the `locked` subquery returns, in creation order; the rows
in `skip` are locked by other transactions at that moment. -/
def lockPending (db : Table) (account : String) (maxAttempts limit : ℤ)
    (skip : List String) : List String :=
  let free := db.items.filter fun p => claimable account maxAttempts p.2 && !skip.contains p.1
  let ordered := free.insertionSort fun p q => p.2.createdAt ≤ q.2.createdAt
  (ordered.take (max 1 limit).toNat).map Prod.fst

/-- Fourth statement: the locked rows become claimed by the caller. -/
def claimLocked (db : Table) (locked : List String) (owner : Owner) (leaseSeconds now : ℤ) :
    Table :=
  db.updateWhere (fun id _ => locked.contains id) fun r =>
    { r with
      status := .claimed
      attemptCount := r.attemptCount + 1
      claimedByInstanceId := some owner.instanceId
      claimedByRunId := some owner.runId
      claimedAt := some now
      leaseExpiresAt := some (now + max 5 leaseSeconds)
      lastHeartbeatAt := some now }

def dispatchable (id : String) (owner : Owner) (key : String) (r : Row) : Bool :=
  key = id ∧ r.ownedBy owner ∧ r.status = .claimed

/-- The compare-and-set before a broker dispatch, with its `rowcount > 0`. -/
def markIntentDispatched (db : Table) (id : String) (owner : Owner) : Table × Bool :=
  (db.updateWhere (dispatchable id owner) fun r => { r with status := .dispatched },
    0 < db.rowcount (dispatchable id owner))

def heartbeatExecutionIntent (db : Table) (id : String) (owner : Owner)
    (leaseSeconds now : ℤ) : Table :=
  db.updateWhere (fun key r => key = id ∧ r.ownedBy owner) fun r =>
    { r with lastHeartbeatAt := some now, leaseExpiresAt := some (now + max 5 leaseSeconds) }

def completable (id : String) (owner : Owner) (key : String) (r : Row) : Bool :=
  key = id ∧ r.ownedBy owner ∧ (r.status = .claimed ∨ r.status = .dispatched)

def completeExecutionIntent (db : Table) (id : String) (status : Status) (owner : Owner)
    (lastErrorCode : Option String) (now : ℤ) : Table × Bool :=
  (db.updateWhere (completable id owner) fun r =>
    { r.clearLease with
      status := status
      completedAt := if status.terminal then some now else r.completedAt
      deadLetteredAt := if status = .deadLettered then some now else none
      lastErrorCode := lastErrorCode },
    0 < db.rowcount (completable id owner))

/-- Every row of the first table is still there, with a status that follows. -/
def TableFollows (before after : Table) : Prop :=
  ∀ id r, before.get? id = some r →
    ∃ r', after.get? id = some r' ∧ Status.Follows r.status r'.status

theorem tableFollows_refl (db : Table) : TableFollows db db := by
  intro id r hr
  exact ⟨r, hr, Status.follows_refl _⟩

theorem tableFollows_trans (a b c : Table) (hab : TableFollows a b) (hbc : TableFollows b c) :
    TableFollows a c := by
  intro id r hr
  obtain ⟨s, hs, hrs⟩ := hab id r hr
  obtain ⟨t, ht, hst⟩ := hbc id s hs
  exact ⟨t, ht, Status.follows_trans _ _ _ hrs hst⟩

/-- One `UPDATE` follows as soon as each row it selects does. -/
theorem tableFollows_updateWhere (db : Table) (cond : String → Row → Bool) (change : Row → Row)
    (h : ∀ id r, db.get? id = some r → cond id r = true →
      Status.Follows r.status (change r).status) :
    TableFollows db (db.updateWhere cond change) := by
  intro id r hr
  rw [Dict.get?_updateWhere, hr, Option.map_some]
  refine ⟨_, rfl, ?_⟩
  by_cases hc : cond id r = true
  · rw [if_pos hc]
    exact h id r hr hc
  · rw [if_neg hc]
    exact Status.follows_refl _

theorem resetExpiredClaims_follows (db : Table) (account : String) (now : ℤ) :
    TableFollows db (resetExpiredClaims db account now) := by
  refine tableFollows_updateWhere db _ _ ?_
  intro id r _ hc
  have hclaimed : r.status = .claimed := (of_decide_eq_true hc).2.1
  exact Status.follows_of_not_settled (by simp [hclaimed, Status.Settled, Status.terminal])

theorem deadLetterExpiredDispatches_follows (db : Table) (account : String) (now : ℤ) :
    TableFollows db (deadLetterExpiredDispatches db account now) := by
  refine tableFollows_updateWhere db _ _ ?_
  intro id r _ hc
  have hdispatched : r.status = .dispatched := (of_decide_eq_true hc).2.1
  simp [Status.Follows, hdispatched, Status.terminal]

theorem deadLetterExhausted_follows (db : Table) (account : String) (maxAttempts now : ℤ) :
    TableFollows db (deadLetterExhausted db account maxAttempts now) := by
  refine tableFollows_updateWhere db _ _ ?_
  intro id r _ hc
  have hpending : r.status = .pending := (of_decide_eq_true hc).2.1
  exact Status.follows_of_not_settled (by simp [hpending, Status.Settled, Status.terminal])

/-- Only pending rows are locked. -/
theorem pending_of_mem_lockPending (db : Table) (account : String) (maxAttempts limit : ℤ)
    (skip : List String) (id : String) (r : Row)
    (hid : id ∈ lockPending db account maxAttempts limit skip) (hr : db.get? id = some r) :
    r.status = .pending := by
  obtain ⟨⟨key, row⟩, htaken, rfl⟩ := List.mem_map.mp hid
  have hfree := (List.perm_insertionSort _ _).mem_iff.mp (List.mem_of_mem_take htaken)
  obtain ⟨hmem, hcond⟩ := List.mem_filter.mp hfree
  rw [Dict.mem_items_iff_get?] at hmem
  cases Option.some.inj (hr.symm.trans hmem)
  have hclaimable : claimable account maxAttempts r = true := by
    simp only [Bool.and_eq_true] at hcond
    exact hcond.1
  exact (of_decide_eq_true hclaimable).2.1

theorem claimLocked_follows (db : Table) (locked : List String) (owner : Owner)
    (leaseSeconds now : ℤ)
    (hlocked : ∀ id r, id ∈ locked → db.get? id = some r → r.status = .pending) :
    TableFollows db (claimLocked db locked owner leaseSeconds now) := by
  refine tableFollows_updateWhere db _ _ ?_
  intro id r hr hc
  have hpending := hlocked id r (by simpa using hc) hr
  exact Status.follows_of_not_settled (by simp [hpending, Status.Settled, Status.terminal])

theorem markIntentDispatched_follows (db : Table) (id : String) (owner : Owner) :
    TableFollows db (markIntentDispatched db id owner).1 := by
  refine tableFollows_updateWhere db _ _ ?_
  intro key r _ hc
  have hclaimed : r.status = .claimed := (of_decide_eq_true hc).2.2
  exact Status.follows_of_not_settled (by simp [hclaimed, Status.Settled, Status.terminal])

/-- A winning compare-and-set found the row claimed and leaves it dispatched. -/
theorem markIntentDispatched_won (db : Table) (id : String) (owner : Owner)
    (h : (markIntentDispatched db id owner).2 = true) :
    ∃ r r', db.get? id = some r ∧ r.status = .claimed ∧
      (markIntentDispatched db id owner).1.get? id = some r' ∧ r'.status = .dispatched := by
  obtain ⟨key, r, hr, hc⟩ := (Dict.rowcount_pos_iff db _).mp (of_decide_eq_true h)
  obtain ⟨rfl, howned, hclaimed⟩ := of_decide_eq_true hc
  refine ⟨r, { r with status := .dispatched }, hr, hclaimed, ?_, rfl⟩
  simp only [markIntentDispatched, Dict.get?_updateWhere, hr, Option.map_some, hc, if_true]

theorem heartbeatExecutionIntent_follows (db : Table) (id : String) (owner : Owner)
    (leaseSeconds now : ℤ) :
    TableFollows db (heartbeatExecutionIntent db id owner leaseSeconds now) := by
  refine tableFollows_updateWhere db _ _ ?_
  intro key r _ _
  exact Status.follows_refl _

theorem completeExecutionIntent_follows (db : Table) (id : String) (status : Status)
    (owner : Owner) (lastErrorCode : Option String) (now : ℤ) (hstatus : status.terminal = true) :
    TableFollows db (completeExecutionIntent db id status owner lastErrorCode now).1 := by
  refine tableFollows_updateWhere db _ _ ?_
  intro key r _ hc
  constructor
  · intro _
    exact Or.inr hstatus
  · intro hterminal
    rcases (of_decide_eq_true hc).2.2 with h | h
    · simp [h, Status.terminal] at hterminal
    · simp [h, Status.terminal] at hterminal

/-- A row that has passed the compare-and-set. -/
def SettledIn (db : Table) (id : String) : Prop :=
  ∃ r, db.get? id = some r ∧ r.status.Settled

theorem SettledIn.follows {before after : Table} {id : String} (h : SettledIn before id)
    (hf : TableFollows before after) : SettledIn after id := by
  obtain ⟨r, hr, hsettled⟩ := h
  obtain ⟨r', hr', hrr'⟩ := hf id r hr
  exact ⟨r', hr', hsettled.follows hrr'⟩

end MT5Services.ExecutionIntents
