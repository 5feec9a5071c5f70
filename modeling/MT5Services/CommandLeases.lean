import MT5Services.ExecutionIntents

/-!
The lease columns of `operator_commands` and the statements of
`OperatorCommandRepository` on them. The columns are those of `execution_intents`,
and so are three of the statements; the others differ in their predicates and in the
columns they clear. `claim_operator_commands` is four statements in autocommit mode,
each with its own clock. `response_payload` and `audit_id` are only written.
-/
namespace MT5Services.CommandLeases

open ExecutionIntents

/-- The row an `enqueue` inserts. -/
def enqueued (createdAt : ℤ) (targetAccountKey : String) : Row :=
  Row.published createdAt targetAccountKey

/-- First statement of the claim, the one of the intents. -/
def resetExpiredClaims (db : Table) (account : String) (now : ℤ) : Table :=
  ExecutionIntents.resetExpiredClaims db account now

/-- Second statement: an expired dispatched command is never replayed. -/
def deadLetterExpiredDispatches (db : Table) (account : String) (now : ℤ) : Table :=
  db.updateWhere
    (fun _ r => r.targetAccountKey = account ∧ r.status = .dispatched ∧ r.leaseExpired now)
    fun r =>
      { r.clearLease with
        status := .deadLettered
        deadLetteredAt := some now
        completedAt := some now
        lastErrorCode := some (r.lastErrorCode.getD "dispatched_lease_expired") }

/-- The rows of the third statement: out of attempts and not held by a live lease. -/
def exhausted (account : String) (maxAttempts now : ℤ) (r : Row) : Bool :=
  r.targetAccountKey = account ∧ (r.status = .pending ∨ r.status = .claimed) ∧
    max 1 maxAttempts ≤ (r.attemptCount : ℤ) ∧ (r.status = .pending ∨ r.leaseExpired now)

/-- Third statement; the columns of the lease are not among those it sets. -/
def deadLetterExhausted (db : Table) (account : String) (maxAttempts now : ℤ) : Table :=
  db.updateWhere (fun _ r => exhausted account maxAttempts now r) fun r =>
    { r with
      status := .deadLettered
      deadLetteredAt := some now
      completedAt := some now
      lastErrorCode := some (r.lastErrorCode.getD "command_attempts_exhausted") }

def claimable (account : String) (maxAttempts : ℤ) (r : Row) : Bool :=
  r.targetAccountKey = account ∧ r.status = .pending ∧ (r.attemptCount : ℤ) < max 1 maxAttempts

/-- The identifiers the `locked` subquery returns, in creation order; the rows
in `skip` are locked by other transactions at that moment. -/
def lockPending (db : Table) (account : String) (maxAttempts limit : ℤ)
    (skip : List String) : List String :=
  let free := db.items.filter fun p => claimable account maxAttempts p.2 && !skip.contains p.1
  let ordered := free.insertionSort fun p q => p.2.createdAt ≤ q.2.createdAt
  (ordered.take (max 1 limit).toNat).map Prod.fst

/-- Fourth statement, the one of the intents. -/
def claimLocked (db : Table) (locked : List String) (owner : Owner) (leaseSeconds now : ℤ) :
    Table :=
  ExecutionIntents.claimLocked db locked owner leaseSeconds now

/-- The compare-and-set before the command is executed, the one of the intents. -/
def markCommandDispatched (db : Table) (id : String) (owner : Owner) : Table × Bool :=
  markIntentDispatched db id owner

/-- The predicate of the heartbeat and of the completion. -/
def held (id : String) (owner : Owner) (key : String) (r : Row) : Bool :=
  completable id owner key r

def heartbeatOperatorCommand (db : Table) (id : String) (owner : Owner)
    (leaseSeconds now : ℤ) : Table :=
  db.updateWhere (held id owner) fun r =>
    { r with lastHeartbeatAt := some now, leaseExpiresAt := some (now + max 5 leaseSeconds) }

def completeOperatorCommand (db : Table) (id : String) (status : Status) (owner : Owner)
    (lastErrorCode : Option String) (now : ℤ) : Table × Bool :=
  (db.updateWhere (held id owner) fun r =>
    { r.clearLease with
      status := status
      lastErrorCode := lastErrorCode
      completedAt := some now
      lastHeartbeatAt := some now },
    0 < db.rowcount (held id owner))

/-- The statuses in which a worker holds the row. -/
def active (status : Status) : Bool := status = .claimed ∨ status = .dispatched

/-- The row has an owner exactly in an active status. -/
def OwnerMatches (r : Row) : Prop :=
  r.claimedByInstanceId.isSome = active r.status ∧ r.claimedByRunId.isSome = active r.status

instance (r : Row) : Decidable (OwnerMatches r) :=
  inferInstanceAs (Decidable (_ ∧ _))

/-- What one statement does to a row; `clean` is what it needs to keep the owner in
step with the status, and `limit` bounds the attempts it counts. -/
structure RowKept (clean : Prop) (limit : ℤ) (before after : Row) : Prop where
  follows : Status.Follows before.status after.status
  attempts : after.attemptCount = before.attemptCount ∨ (after.attemptCount : ℤ) ≤ limit
  owner : clean → OwnerMatches before → OwnerMatches after

theorem rowKept_refl (clean : Prop) (limit : ℤ) (r : Row) : RowKept clean limit r r :=
  ⟨Status.follows_refl _, Or.inl rfl, fun _ h => h⟩

/-- A row that is not settled may get any status; a status that holds no worker comes
with empty owner columns. -/
theorem rowKept_of_not_settled {clean : Prop} {limit : ℤ} {before after : Row}
    (hbefore : ¬ Status.Settled before.status)
    (hattempts : after.attemptCount = before.attemptCount ∨ (after.attemptCount : ℤ) ≤ limit)
    (howner : clean → OwnerMatches before → OwnerMatches after) :
    RowKept clean limit before after :=
  ⟨Status.follows_of_not_settled hbefore, hattempts, howner⟩

theorem not_settled_pending {r : Row} (h : r.status = .pending) : ¬ Status.Settled r.status := by
  simp [h, Status.Settled, Status.terminal]

theorem not_settled_claimed {r : Row} (h : r.status = .claimed) : ¬ Status.Settled r.status := by
  simp [h, Status.Settled, Status.terminal]

variable (clean : Prop) (limit : ℤ) (db : Table)

theorem resetExpiredClaims_kept (account : String) (now : ℤ) :
    db.Related (RowKept clean limit) (resetExpiredClaims db account now) := by
  refine Dict.related_updateWhere (rowKept_refl clean limit) ?_
  intro id r _ hc
  have hclaimed : r.status = .claimed := (of_decide_eq_true hc).2.1
  exact rowKept_of_not_settled (not_settled_claimed hclaimed) (Or.inl rfl) fun _ _ => ⟨rfl, rfl⟩

theorem deadLetterExpiredDispatches_kept (account : String) (now : ℤ) :
    db.Related (RowKept clean limit) (deadLetterExpiredDispatches db account now) := by
  refine Dict.related_updateWhere (rowKept_refl clean limit) ?_
  intro id r _ hc
  have hdispatched : r.status = .dispatched := (of_decide_eq_true hc).2.1
  refine ⟨?_, Or.inl rfl, fun _ _ => ⟨rfl, rfl⟩⟩
  simp [Status.Follows, hdispatched, Status.terminal]

/-- The third statement keeps the owners in step when it meets no claimed row. -/
theorem deadLetterExhausted_kept (account : String) (maxAttempts now : ℤ)
    (hclean : clean → ∀ id r, db.get? id = some r → exhausted account maxAttempts now r = true →
      r.status ≠ .claimed) :
    db.Related (RowKept clean limit) (deadLetterExhausted db account maxAttempts now) := by
  refine Dict.related_updateWhere (rowKept_refl clean limit) ?_
  intro id r hr hc
  have hstatus : r.status = .pending ∨ r.status = .claimed := (of_decide_eq_true hc).2.1
  have hfree : ¬ Status.Settled r.status := by
    rcases hstatus with h | h
    · exact not_settled_pending h
    · exact not_settled_claimed h
  refine rowKept_of_not_settled hfree (Or.inl rfl) ?_
  intro hguard howner
  have hpending : r.status = .pending :=
    hstatus.resolve_right (hclean hguard id r hr hc)
  rw [OwnerMatches, hpending] at howner
  exact howner

theorem claimable_of_mem_lockPending {account : String} {maxAttempts rows : ℤ}
    {skip : List String} {id : String} {r : Row}
    (hid : id ∈ lockPending db account maxAttempts rows skip) (hr : db.get? id = some r) :
    claimable account maxAttempts r = true := by
  obtain ⟨⟨key, row⟩, htaken, rfl⟩ := List.mem_map.mp hid
  have hfree := (List.perm_insertionSort _ _).mem_iff.mp (List.mem_of_mem_take htaken)
  obtain ⟨hmem, hcond⟩ := List.mem_filter.mp hfree
  rw [Dict.mem_items_iff_get?] at hmem
  cases Option.some.inj (hr.symm.trans hmem)
  simp only [Bool.and_eq_true] at hcond
  exact hcond.1

theorem claimLocked_kept (account : String) {maxAttempts : ℤ} {locked : List String}
    (owner : Owner) (leaseSeconds now : ℤ) (hlimit : max 1 maxAttempts ≤ limit)
    (hlocked : ∀ id r, id ∈ locked → db.get? id = some r →
      claimable account maxAttempts r = true) :
    db.Related (RowKept clean limit) (claimLocked db locked owner leaseSeconds now) := by
  refine Dict.related_updateWhere (rowKept_refl clean limit) ?_
  intro id r hr hc
  obtain ⟨_, hpending, hattempts⟩ := of_decide_eq_true (hlocked id r (by simpa using hc) hr)
  refine rowKept_of_not_settled (not_settled_pending hpending) (Or.inr ?_)
    fun _ _ => ⟨rfl, rfl⟩
  simp only
  omega

theorem markCommandDispatched_kept (id : String) (owner : Owner) :
    db.Related (RowKept clean limit) (markCommandDispatched db id owner).1 := by
  refine Dict.related_updateWhere (rowKept_refl clean limit) ?_
  intro key r _ hc
  have hclaimed : r.status = .claimed := (of_decide_eq_true hc).2.2
  refine rowKept_of_not_settled (not_settled_claimed hclaimed) (Or.inl rfl) ?_
  intro _ howner
  rw [OwnerMatches, hclaimed] at howner
  exact howner

theorem heartbeatOperatorCommand_kept (id : String) (owner : Owner) (leaseSeconds now : ℤ) :
    db.Related (RowKept clean limit) (heartbeatOperatorCommand db id owner leaseSeconds now) := by
  refine Dict.related_updateWhere (rowKept_refl clean limit) ?_
  intro key r _ _
  exact ⟨Status.follows_refl _, Or.inl rfl, fun _ h => h⟩

theorem completeOperatorCommand_kept (id : String) {status : Status} (owner : Owner)
    (lastErrorCode : Option String) (now : ℤ) (hstatus : status.terminal = true) :
    db.Related (RowKept clean limit)
      (completeOperatorCommand db id status owner lastErrorCode now).1 := by
  refine Dict.related_updateWhere (rowKept_refl clean limit) ?_
  intro key r _ hc
  refine ⟨⟨fun _ => Or.inr hstatus, ?_⟩, Or.inl rfl, fun _ _ => ?_⟩
  · intro hterminal
    rcases (of_decide_eq_true hc).2.2 with h | h
    · simp [h, Status.terminal] at hterminal
    · simp [h, Status.terminal] at hterminal
  · have hinactive : active status = false := by
      cases status with
      | pending => cases hstatus
      | claimed => cases hstatus
      | dispatched => cases hstatus
      | completed => rfl
      | failed => rfl
      | skipped => rfl
      | deadLettered => rfl
    exact ⟨hinactive.symm, hinactive.symm⟩

/-- A completion by another owner finds no row and changes nothing. -/
theorem completeOperatorCommand_late {id : String} {owner : Owner}
    (h : ∀ r, db.get? id = some r → r.ownedBy owner = false) (status : Status)
    (lastErrorCode : Option String) (now : ℤ) :
    completeOperatorCommand db id status owner lastErrorCode now = (db, false) := by
  have hnone : ∀ key r, db.get? key = some r → held id owner key r = false := by
    intro key r hr
    refine decide_eq_false ?_
    rintro ⟨rfl, howned, _⟩
    rw [h r hr] at howned
    cases howned
  have hcount : db.rowcount (held id owner) = 0 := by
    by_contra hpos
    obtain ⟨key, r, hr, hc⟩ := (Dict.rowcount_pos_iff db _).mp (Nat.pos_of_ne_zero hpos)
    rw [hnone key r hr] at hc
    cases hc
  rw [completeOperatorCommand, Dict.updateWhere_eq_self hnone, hcount]
  rfl

end MT5Services.CommandLeases
