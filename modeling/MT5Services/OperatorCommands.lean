import MT5Services.PyText
import MT5Services.Runs
import Mathlib.Data.List.Sort

/-!
`OperatorCommandService.enqueue` over the `operator_commands` table and its
idempotency ledger. A call looks its key up, then reserves the key and inserts
its row in one transaction, and looks up again when the reservation is lost; two
calls interleave at these steps. JSON objects are an arbitrary type with an empty
object, and a stored object is read back as it was written. The columns that only
the command consumer writes are left out.
-/
namespace MT5Services.OperatorCommands

open PyText Runs

/-- The part of a request that two uses of one key must share. -/
structure Contract (J : Type*) where
  payload : J
  actor : String
  reason : Option String
  requestContext : J
  deriving DecidableEq

structure Row (J : Type*) where
  createdAt : ℤ
  commandId : String
  commandType : String
  targetAccountKey : String
  actionId : String
  actor : String
  reason : Option String
  idempotencyKey : Option String
  requestContext : J
  payload : J

/-- The table and the primary keys of `operator_command_idempotency`. -/
structure Database (J : Type*) where
  commands : List (Row J)
  ledger : List (String × String × String)

/-- Where a command goes. Account keys are built from three non-empty parts and
the callers' command types are constants. -/
structure Target where
  accountKey : String
  commandType : String
  accountKey_ne : accountKey ≠ ""
  commandType_ne : strip commandType ≠ ""

/-- The arguments of one call, with the identifiers and the clock it draws. -/
structure Request (J : Type*) where
  payload : Option J
  actor : Option String
  reason : Option String
  actionId : Option String
  requestContext : Option J
  commandId : String
  newActionId : String
  createdAt : ℤ

structure ReplayConflictError (J : Type*) where
  message : String
  commandType : String
  idempotencyKey : Option String
  existingRecord : Option (Row J)

inductive Answer (J : Type*)
  | accepted (row : Row J)
  | replayed (row : Row J)
  | conflict (error : ReplayConflictError J)

def Answer.commandId? {J : Type*} : Answer J → Option String
  | accepted row => some row.commandId
  | replayed row => some row.commandId
  | conflict _ => none

inductive Phase (J : Type*)
  | lookup
  | reserve
  | recheck
  | done (answer : Answer J)

section Service

variable {J : Type*}

/-- The rows of one account, command type and key. -/
def slotRows (db : Database J) (target : Target) (key : Option String) : List (Row J) :=
  db.commands.filter fun r => r.commandType = strip target.commandType ∧
    r.targetAccountKey = target.accountKey ∧ r.idempotencyKey = key

/-- A filter of `fetch_operator_commands` is left out when its value is empty. -/
def fetchOperatorCommands (db : Database J) (commandType accountKey key : String)
    (limit : ℕ) : List (Row J) :=
  ((db.commands.filter fun r => (commandType = "" ∨ r.commandType = commandType) ∧
      (accountKey = "" ∨ r.targetAccountKey = accountKey) ∧
      (key = "" ∨ r.idempotencyKey = some key)).insertionSort
    fun r r' => r'.createdAt ≤ r.createdAt).take (max 1 limit)

def findExisting (db : Database J) (target : Target) : Option String → Option (Row J)
  | none => none
  | some key =>
    (fetchOperatorCommands db (strip target.commandType) target.accountKey key 1).head?

/-- `command_id` is a new uuid, so the insert never meets an existing row. -/
def writeCommandWithIdempotency (db : Database J) (target : Target) (key : Option String)
    (row : Row J) : Database J × Bool :=
  match key with
  | none => ({ db with commands := db.commands ++ [row] }, true)
  | some key =>
    if (target.accountKey, strip target.commandType, key) ∈ db.ledger then (db, false)
    else
      (⟨db.commands ++ [row], db.ledger ++ [(target.accountKey, strip target.commandType, key)]⟩,
        true)

variable [EmptyCollection J]

def Request.contract (req : Request J) : Contract J where
  payload := req.payload.getD ∅
  actor := stripOr req.actor "operator"
  reason := stripOrNone req.reason
  requestContext := req.requestContext.getD ∅

/-- The contract read back from a stored row. -/
def Row.contract (row : Row J) : Contract J where
  payload := row.payload
  actor := stripOr (some row.actor) "operator"
  reason := stripOrNone row.reason
  requestContext := row.requestContext

def Request.row (req : Request J) (target : Target) (key : Option String) : Row J where
  createdAt := req.createdAt
  commandId := req.commandId
  commandType := strip target.commandType
  targetAccountKey := target.accountKey
  actionId := stripOr req.actionId req.newActionId
  actor := stripOr req.actor "operator"
  reason := stripOrNone req.reason
  idempotencyKey := key
  requestContext := req.requestContext.getD ∅
  payload := req.payload.getD ∅

def differentRequestError (target : Target) (key : Option String) (row : Row J) :
    ReplayConflictError J where
  message := "idempotency_key '" ++ key.getD "None" ++ "' already used for a different " ++
    strip target.commandType ++ " request"
  commandType := strip target.commandType
  idempotencyKey := key
  existingRecord := some row

def reservationRaceError (target : Target) (key : Option String) : ReplayConflictError J where
  message := "idempotency_key '" ++ key.getD "None" ++
    "' concurrent reservation race; please retry"
  commandType := strip target.commandType
  idempotencyKey := key
  existingRecord := none

variable [DecidableEq J]

/-- The first lookup compares the contracts. -/
def answerExisting (target : Target) (key : Option String) (req : Request J) (row : Row J) :
    Answer J :=
  if row.contract = req.contract then .replayed row
  else .conflict (differentRequestError target key row)

/-- The next step of one call, with its key already normalised. -/
def enqueueStep (target : Target) (key : Option String) (req : Request J) (db : Database J) :
    Phase J → Option (Database J × Phase J)
  | .lookup =>
    match findExisting db target key with
    | some row => some (db, .done (answerExisting target key req row))
    | none => some (db, .reserve)
  | .reserve =>
    let (after, committed) := writeCommandWithIdempotency db target key (req.row target key)
    if !committed && key.isSome then some (after, .recheck)
    else some (after, .done (.accepted (req.row target key)))
  | .recheck =>
    match findExisting db target key with
    | some row => some (db, .done (.replayed row))
    | none => some (db, .done (.conflict (reservationRaceError target key)))
  | .done _ => none

/-- Two calls in flight. -/
structure Pair (J : Type*) where
  db : Database J
  phases : Bool → Phase J

def Pair.start (db : Database J) : Pair J := ⟨db, fun _ => .lookup⟩

def step (target : Target) (idempotencyKey : Option String) (reqs : Bool → Request J)
    (s : Pair J) (side : Bool) : Option (Pair J) :=
  (enqueueStep target (stripOrNone idempotencyKey) (reqs side) s.db (s.phases side)).map
    fun done => ⟨done.1, Function.update s.phases side done.2⟩

/-- A database the service can build: a reserved key has exactly one row. -/
def Consistent (db : Database J) : Prop :=
  ∀ (target : Target) (key : String), (slotRows db target (some key)).length =
    if (target.accountKey, strip target.commandType, key) ∈ db.ledger then 1 else 0

/-- A call is answered according to the row of its key. -/
def Answered (req : Request J) (row : Row J) (answer : Answer J) : Prop :=
  (req.contract = row.contract → answer.commandId? = some row.commandId) ∧
    (req.contract ≠ row.contract → ∃ error, answer = .conflict error)

/-- Exactly one row for the key, and both calls answered according to it. -/
def EnqueueCorrect (target : Target) (idempotencyKey : Option String)
    (reqs : Bool → Request J) (s : Pair J) : Prop :=
  ∃ row, slotRows s.db target (stripOrNone idempotencyKey) = [row] ∧
    ∀ side, ∃ answer, s.phases side = .done answer ∧ Answered (reqs side) row answer

omit [EmptyCollection J] [DecidableEq J] in
theorem consistent_empty : Consistent (⟨[], []⟩ : Database J) := by
  intro target key
  simp [slotRows]

/-- Every step of every call keeps the table and the ledger consistent. -/
theorem enqueueStep_consistent (target : Target) (key : Option String) (req : Request J)
    (db db' : Database J) (phase phase' : Phase J) (hdb : Consistent db)
    (h : enqueueStep target key req db phase = some (db', phase')) : Consistent db' := by
  cases phase with
  | lookup =>
    simp only [enqueueStep] at h
    split at h
    · cases Option.some.inj h
      exact hdb
    · cases Option.some.inj h
      exact hdb
  | recheck =>
    simp only [enqueueStep] at h
    split at h
    · cases Option.some.inj h
      exact hdb
    · cases Option.some.inj h
      exact hdb
  | done answer => cases h
  | reserve =>
    cases key with
    | none =>
      cases Option.some.inj h
      intro other text
      simpa [slotRows, List.filter_append, Request.row] using hdb other text
    | some key =>
      by_cases hledger : (target.accountKey, strip target.commandType, key) ∈ db.ledger
      · simp only [enqueueStep, writeCommandWithIdempotency, hledger, if_true] at h
        cases Option.some.inj h
        exact hdb
      · simp only [enqueueStep, writeCommandWithIdempotency, hledger, if_false] at h
        cases Option.some.inj h
        intro other text
        have hold := hdb other text
        by_cases hsame : (other.accountKey, strip other.commandType, text) =
            (target.accountKey, strip target.commandType, key)
        · rw [hsame, if_neg hledger] at hold
          simp only [Prod.mk.injEq] at hsame
          simp only [slotRows, hsame, List.filter_append, List.length_append] at hold ⊢
          rw [hold]
          simp [Request.row]
        · have hrow : ¬ (strip target.commandType = strip other.commandType ∧
              target.accountKey = other.accountKey ∧ key = text) := by
            rintro ⟨htype, haccount, hkey⟩
            exact hsame (by rw [htype, haccount, hkey])
          simp only [slotRows, List.filter_append, List.length_append, List.mem_append,
            List.mem_singleton, hsame, or_false] at hold ⊢
          simpa [Request.row, hrow] using hold

section Lookup

omit [EmptyCollection J] [DecidableEq J]

theorem findExisting_eq (db : Database J) (target : Target) (key : String) (hkey : key ≠ "") :
    findExisting db target (some key) = ((slotRows db target (some key)).insertionSort
      fun r r' => r'.createdAt ≤ r.createdAt).head? := by
  have htype := target.commandType_ne
  have haccount := target.accountKey_ne
  simp only [findExisting, fetchOperatorCommands, slotRows, htype, haccount, hkey, false_or,
    Nat.max_self, List.head?_take]
  simp

theorem findExisting_single (db : Database J) (target : Target) (key : String) (row : Row J)
    (hkey : key ≠ "") (hrows : slotRows db target (some key) = [row]) :
    findExisting db target (some key) = some row := by
  rw [findExisting_eq db target key hkey, hrows]
  rfl

theorem findExisting_nil (db : Database J) (target : Target) (key : String)
    (hkey : key ≠ "") (hrows : slotRows db target (some key) = []) :
    findExisting db target (some key) = none := by
  rw [findExisting_eq db target key hkey, hrows]
  rfl

end Lookup

omit [DecidableEq J] in
theorem contract_row (req : Request J) (target : Target) (key : Option String) :
    (req.row target key).contract = req.contract := by
  have hoperator : strip "operator" = "operator" := by decide
  simp only [Row.contract, Request.row, Request.contract,
    stripOr_stripOr req.actor "operator" hoperator, stripOrNone_stripOrNone]

omit [DecidableEq J] in
theorem slotRows_append_row (db : Database J) (ledger : List (String × String × String))
    (target : Target) (key : Option String) (req : Request J) :
    slotRows ⟨db.commands ++ [req.row target key], ledger⟩ target key =
      slotRows db target key ++ [req.row target key] := by
  simp [slotRows, List.filter_append, Request.row]

theorem step_eq (target : Target) (idempotencyKey : Option String) (reqs : Bool → Request J)
    (s t : Pair J) (side : Bool) (h : step target idempotencyKey reqs s side = some t) :
    ∃ db phase, enqueueStep target (stripOrNone idempotencyKey) (reqs side) s.db
        (s.phases side) = some (db, phase) ∧
      t = ⟨db, Function.update s.phases side phase⟩ := by
  obtain ⟨⟨db, phase⟩, hdone, rfl⟩ := Option.map_eq_some_iff.mp h
  exact ⟨db, phase, hdone, rfl⟩

/-- So the databases of any number of calls, pair after pair, are consistent. -/
theorem run_consistent (target : Target) (idempotencyKey : Option String)
    (reqs : Bool → Request J) (s t : Pair J) (schedule : List Bool) (hs : Consistent s.db)
    (hrun : run (step target idempotencyKey reqs) s schedule = some t) : Consistent t.db := by
  have hstep : ∀ (u : Pair J) side v, Consistent u.db →
      step target idempotencyKey reqs u side = some v → Consistent v.db := by
    intro u side v hu hv
    obtain ⟨db, phase, henqueue, rfl⟩ := step_eq target idempotencyKey reqs u v side hv
    exact enqueueStep_consistent target _ (reqs side) u.db db _ phase hu henqueue
  exact run_invariant (I := fun u : Pair J => Consistent u.db) hstep hs hrun

/-- How a call relates to the row of its key once that row is there. -/
inductive Origin
  | won
  | seen
  | raced

/-- The phases a call can still be in. -/
def Origin.Allows (origin : Origin) (target : Target) (key : Option String) (req : Request J)
    (row : Row J) (phase : Phase J) : Prop :=
  match origin with
  | won => phase = .done (.accepted row)
  | seen => phase = .lookup ∨ phase = .done (answerExisting target key req row)
  | raced => phase = .reserve ∨ phase = .recheck ∨ phase = .done (.replayed row)

def Origin.answer (origin : Origin) (target : Target) (key : Option String) (req : Request J)
    (row : Row J) : Answer J :=
  match origin with
  | won => .accepted row
  | seen => answerExisting target key req row
  | raced => .replayed row

theorem Origin.allows_done {origin : Origin} {target : Target} {key : Option String}
    {req : Request J} {row : Row J} {answer : Answer J}
    (h : origin.Allows target key req row (.done answer)) :
    answer = origin.answer target key req row := by
  cases origin with
  | won => exact Phase.done.inj h
  | seen =>
    rcases h with h | h
    · cases h
    · exact Phase.done.inj h
  | raced =>
    rcases h with h | h | h
    · cases h
    · cases h
    · exact Phase.done.inj h

/-- With the key reserved and its row stored, no step changes the database. -/
theorem enqueueStep_settled (target : Target) (key : String) (req : Request J)
    (db db' : Database J) (row : Row J) (phase phase' : Phase J) (origin : Origin)
    (hkey : key ≠ "") (hrows : slotRows db target (some key) = [row])
    (hledger : (target.accountKey, strip target.commandType, key) ∈ db.ledger)
    (hphase : origin.Allows target (some key) req row phase)
    (h : enqueueStep target (some key) req db phase = some (db', phase')) :
    db' = db ∧ origin.Allows target (some key) req row phase' := by
  have hfind := findExisting_single db target key row hkey hrows
  cases origin with
  | won =>
    cases hphase
    cases h
  | seen =>
    rcases hphase with rfl | rfl
    · simp only [enqueueStep, hfind, Option.some.injEq, Prod.mk.injEq] at h
      obtain ⟨rfl, rfl⟩ := h
      exact ⟨rfl, Or.inr rfl⟩
    · cases h
  | raced =>
    rcases hphase with rfl | rfl | rfl
    · simp only [enqueueStep, writeCommandWithIdempotency, hledger, if_true, Bool.not_false,
        Option.isSome_some, Bool.and_self, Option.some.injEq, Prod.mk.injEq] at h
      obtain ⟨rfl, rfl⟩ := h
      exact ⟨rfl, Or.inr (Or.inl rfl)⟩
    · simp only [enqueueStep, hfind, Option.some.injEq, Prod.mk.injEq] at h
      obtain ⟨rfl, rfl⟩ := h
      exact ⟨rfl, Or.inr (Or.inr rfl)⟩
    · cases h

/-- Both calls are past the point where the row of the key was stored. -/
def Settled (target : Target) (key : String) (reqs : Bool → Request J)
    (origins : Bool → Origin) (db : Database J) (row : Row J) (s : Pair J) : Prop :=
  s.db = db ∧
    ∀ side, (origins side).Allows target (some key) (reqs side) row (s.phases side)

def Finished (s : Pair J) : Prop := ∀ side, ∃ answer, s.phases side = .done answer

theorem settled_step (target : Target) (idempotencyKey : Option String) (key : String)
    (reqs : Bool → Request J) (origins : Bool → Origin) (db : Database J) (row : Row J)
    (hnormal : stripOrNone idempotencyKey = some key) (hkey : key ≠ "")
    (hrows : slotRows db target (some key) = [row])
    (hledger : (target.accountKey, strip target.commandType, key) ∈ db.ledger)
    (s : Pair J) (side : Bool) (t : Pair J) (hs : Settled target key reqs origins db row s)
    (h : step target idempotencyKey reqs s side = some t) :
    Settled target key reqs origins db row t := by
  obtain ⟨db', phase', henqueue, rfl⟩ := step_eq target idempotencyKey reqs s t side h
  obtain ⟨hdb, hphases⟩ := hs
  rw [hnormal, hdb] at henqueue
  obtain ⟨rfl, hallowed⟩ := enqueueStep_settled target key (reqs side) db db' row
    (s.phases side) phase' (origins side) hkey hrows hledger (hphases side) henqueue
  refine ⟨rfl, ?_⟩
  intro other
  by_cases hother : other = side
  · subst hother
    simpa using hallowed
  · simpa [Function.update_of_ne hother] using hphases other

/-- From a settled state the outcome depends on the two origins only. -/
theorem settled_correct_iff (target : Target) (idempotencyKey : Option String) (key : String)
    (reqs : Bool → Request J) (origins : Bool → Origin) (db : Database J) (row : Row J)
    (hnormal : stripOrNone idempotencyKey = some key) (hkey : key ≠ "")
    (hrows : slotRows db target (some key) = [row])
    (hledger : (target.accountKey, strip target.commandType, key) ∈ db.ledger)
    (s t : Pair J) (schedule : List Bool) (hs : Settled target key reqs origins db row s)
    (hrun : run (step target idempotencyKey reqs) s schedule = some t) (hdone : Finished t) :
    EnqueueCorrect target idempotencyKey reqs t ↔
      ∀ side, Answered (reqs side) row
        ((origins side).answer target (some key) (reqs side) row) := by
  obtain ⟨hdb, hphases⟩ : Settled target key reqs origins db row t :=
    run_invariant (settled_step target idempotencyKey key reqs origins db row hnormal hkey
      hrows hledger) hs hrun
  have hanswer : ∀ side, t.phases side =
      .done ((origins side).answer target (some key) (reqs side) row) := by
    intro side
    obtain ⟨answer, hside⟩ := hdone side
    have hallowed := hphases side
    rw [hside] at hallowed
    rw [hside, Origin.allows_done hallowed]
  unfold EnqueueCorrect
  rw [hnormal, hdb, hrows]
  constructor
  · rintro ⟨row', hrow', hall⟩ side
    obtain ⟨answer, hside, hok⟩ := hall side
    rw [hanswer side] at hside
    obtain rfl : row = row' := by simpa using hrow'
    rw [← Phase.done.inj hside] at hok
    exact hok
  · intro hall
    exact ⟨row, rfl, fun side => ⟨_, hanswer side, hall side⟩⟩

omit [DecidableEq J] in
theorem answered_won (req : Request J) (row : Row J) (hrow : row.contract = req.contract) :
    Answered req row (.accepted row) := by
  refine ⟨fun _ => rfl, ?_⟩
  intro hne
  exact absurd hrow.symm hne

theorem answered_seen (target : Target) (key : Option String) (req : Request J) (row : Row J) :
    Answered req row (answerExisting target key req row) := by
  unfold answerExisting
  split
  · rename_i heq
    exact ⟨fun _ => rfl, fun hne => absurd heq.symm hne⟩
  · rename_i hne
    exact ⟨fun heq => absurd heq.symm hne, fun _ => ⟨_, rfl⟩⟩

omit [DecidableEq J] in
theorem answered_raced_iff (req : Request J) (row : Row J) :
    Answered req row (.replayed row) ↔ req.contract = row.contract := by
  constructor
  · intro h
    by_contra hne
    obtain ⟨error, herror⟩ := h.2 hne
    cases herror
  · intro heq
    exact ⟨fun _ => rfl, fun hne => absurd heq hne⟩

section Fresh

variable (target : Target) (key : String) (req : Request J) (db : Database J)

theorem enqueueStep_lookup_fresh (hkey : key ≠ "")
    (hrows : slotRows db target (some key) = []) :
    enqueueStep target (some key) req db .lookup = some (db, .reserve) := by
  simp only [enqueueStep, findExisting_nil db target key hkey hrows]

/-- The database after the winning reservation. -/
def reserved : Database J :=
  ⟨db.commands ++ [req.row target (some key)],
    db.ledger ++ [(target.accountKey, strip target.commandType, key)]⟩

theorem enqueueStep_reserve_fresh
    (hledger : (target.accountKey, strip target.commandType, key) ∉ db.ledger) :
    enqueueStep target (some key) req db .reserve =
      some (reserved target key req db, .done (.accepted (req.row target (some key)))) := by
  simp only [enqueueStep, writeCommandWithIdempotency, hledger, if_false, Bool.not_true,
    Bool.false_and, Bool.false_eq_true]
  rfl

omit [DecidableEq J] in
theorem slotRows_reserved (hrows : slotRows db target (some key) = []) :
    slotRows (reserved target key req db) target (some key) = [req.row target (some key)] := by
  have happend := slotRows_append_row db
    (db.ledger ++ [(target.accountKey, strip target.commandType, key)]) target (some key) req
  rw [hrows, List.nil_append] at happend
  exact happend

omit [DecidableEq J] in
theorem mem_ledger_reserved :
    (target.accountKey, strip target.commandType, key) ∈ (reserved target key req db).ledger :=
  List.mem_append_right _ (List.mem_singleton_self _)

end Fresh

/-- The winner of the reservation settles the pair; where the other call stands
at that moment decides how it will be answered. -/
theorem win_settled (target : Target) (idempotencyKey : Option String) (key : String)
    (reqs : Bool → Request J) (origin : Origin) (s t : Pair J) (side : Bool)
    (hnormal : stripOrNone idempotencyKey = some key)
    (hledger : (target.accountKey, strip target.commandType, key) ∉ s.db.ledger)
    (hside : s.phases side = .reserve)
    (hother : origin.Allows target (some key) (reqs !side)
      ((reqs side).row target (some key)) (s.phases !side))
    (h : step target idempotencyKey reqs s side = some t) :
    Settled target key reqs (fun other => if other = side then .won else origin)
      (reserved target key (reqs side) s.db) ((reqs side).row target (some key)) t := by
  obtain ⟨db', phase', henqueue, rfl⟩ := step_eq target idempotencyKey reqs s t side h
  rw [hnormal, hside, enqueueStep_reserve_fresh target key (reqs side) s.db hledger] at henqueue
  obtain ⟨rfl, rfl⟩ := Prod.mk.inj (Option.some.inj henqueue)
  refine ⟨rfl, ?_⟩
  intro other
  by_cases heq : other = side
  · subst heq
    simp [Origin.Allows]
  · obtain rfl : other = !side := by
      cases other <;> cases side <;> simp_all
    simpa [heq] using hother

theorem step_lookup_fresh (target : Target) (idempotencyKey : Option String) (key : String)
    (reqs : Bool → Request J) (db : Database J) (phases : Bool → Phase J) (side : Bool)
    (hnormal : stripOrNone idempotencyKey = some key) (hkey : key ≠ "")
    (hrows : slotRows db target (some key) = []) (hside : phases side = .lookup) :
    step target idempotencyKey reqs ⟨db, phases⟩ side =
      some ⟨db, Function.update phases side .reserve⟩ := by
  simp only [step, hnormal, hside,
    enqueueStep_lookup_fresh target key (reqs side) db hkey hrows, Option.map_some]

/-- One call looks up and reserves before the other one looks up. -/
theorem sequential_correct (target : Target) (idempotencyKey : Option String) (key : String)
    (reqs : Bool → Request J) (db : Database J) (s : Pair J) (first : Bool) (rest : List Bool)
    (hnormal : stripOrNone idempotencyKey = some key) (hkey : key ≠ "")
    (hrows : slotRows db target (some key) = [])
    (hledger : (target.accountKey, strip target.commandType, key) ∉ db.ledger)
    (hrun : run (step target idempotencyKey reqs)
      ⟨db, Function.update (fun _ => .lookup) first .reserve⟩ (first :: rest) = some s)
    (hdone : Finished s) : EnqueueCorrect target idempotencyKey reqs s := by
  obtain ⟨won, hwon, hrest⟩ := run_cons hrun
  have hother : (Function.update (fun _ => Phase.lookup) first Phase.reserve !first :
      Phase J) = .lookup := by cases first <;> rfl
  have hsettled := win_settled target idempotencyKey key reqs .seen _ won first hnormal hledger
    (by simp) (Or.inl hother) hwon
  rw [settled_correct_iff target idempotencyKey key reqs _ _ _ hnormal hkey
    (slotRows_reserved target key _ db hrows) (mem_ledger_reserved target key _ db)
    won s rest hsettled hrest hdone]
  intro side
  split
  · rename_i heq
    subst heq
    exact answered_won _ _ (contract_row _ _ _)
  · exact answered_seen _ _ _ _

/-- Both calls have looked the key up and found nothing: the loser of the
reservation is answered with the winner's row, whatever its own request is. -/
theorem raced_correct_iff (target : Target) (idempotencyKey : Option String) (key : String)
    (reqs : Bool → Request J) (db : Database J) (s : Pair J) (schedule : List Bool)
    (hnormal : stripOrNone idempotencyKey = some key) (hkey : key ≠ "")
    (hrows : slotRows db target (some key) = [])
    (hledger : (target.accountKey, strip target.commandType, key) ∉ db.ledger)
    (hrun : run (step target idempotencyKey reqs) ⟨db, fun _ => .reserve⟩ schedule = some s)
    (hdone : Finished s) :
    EnqueueCorrect target idempotencyKey reqs s ↔
      (reqs false).contract = (reqs true).contract := by
  cases schedule with
  | nil =>
    cases Option.some.inj hrun
    obtain ⟨answer, hfalse⟩ := hdone false
    cases hfalse
  | cons winner rest =>
    obtain ⟨won, hwon, hrest⟩ := run_cons hrun
    have hsettled := win_settled target idempotencyKey key reqs .raced _ won winner hnormal
      hledger rfl (Or.inl rfl) hwon
    rw [settled_correct_iff target idempotencyKey key reqs _ _ _ hnormal hkey
      (slotRows_reserved target key _ db hrows) (mem_ledger_reserved target key _ db)
      won s rest hsettled hrest hdone]
    have hwinner : Answered (reqs winner) ((reqs winner).row target (some key))
        (.accepted ((reqs winner).row target (some key))) :=
      answered_won _ _ (contract_row _ _ _)
    have hloser : Answered (reqs !winner) ((reqs winner).row target (some key))
        (.replayed ((reqs winner).row target (some key))) ↔
          (reqs !winner).contract = (reqs winner).contract := by
      rw [answered_raced_iff, contract_row]
    rw [Bool.forall_bool]
    cases winner with
    | false => simpa [Origin.answer, hwinner, eq_comm] using hloser
    | true => simpa [Origin.answer, hwinner] using hloser

/-- The calls of an unused key: both are answered by the rule unless both first
lookups come before the first reservation and the requests differ. -/
theorem fresh_correct_iff (target : Target) (idempotencyKey : Option String) (key : String)
    (reqs : Bool → Request J) (db : Database J) (s : Pair J) (schedule : List Bool)
    (hnormal : stripOrNone idempotencyKey = some key) (hkey : key ≠ "")
    (hrows : slotRows db target (some key) = [])
    (hledger : (target.accountKey, strip target.commandType, key) ∉ db.ledger)
    (hrun : run (step target idempotencyKey reqs) (Pair.start db) schedule = some s)
    (hdone : Finished s) :
    EnqueueCorrect target idempotencyKey reqs s ↔
      (reqs false).contract = (reqs true).contract ∨ schedule[0]? = schedule[1]? := by
  cases schedule with
  | nil =>
    cases Option.some.inj hrun
    obtain ⟨answer, hfalse⟩ := hdone false
    cases hfalse
  | cons first rest =>
    obtain ⟨one, hone, hrest⟩ := run_cons hrun
    rw [Pair.start, step_lookup_fresh target idempotencyKey key reqs db _ first hnormal hkey
      hrows rfl] at hone
    cases Option.some.inj hone
    cases rest with
    | nil =>
      cases Option.some.inj hrest
      obtain ⟨answer, hfalse⟩ := hdone first
      simp at hfalse
    | cons second tail =>
      by_cases hsame : second = first
      · subst hsame
        have hcorrect := sequential_correct target idempotencyKey key reqs db s second tail
          hnormal hkey hrows hledger hrest hdone
        exact iff_of_true hcorrect (Or.inr rfl)
      · obtain ⟨two, htwo, htail⟩ := run_cons hrest
        rw [step_lookup_fresh target idempotencyKey key reqs db _ second hnormal hkey hrows
          (Function.update_of_ne hsame _ _)] at htwo
        cases Option.some.inj htwo
        have hboth : Function.update (Function.update (fun _ => Phase.lookup) first Phase.reserve)
            second (Phase.reserve : Phase J) = fun _ => .reserve := by
          funext side
          cases side <;> cases first <;> cases second <;> simp_all
        rw [hboth] at htail
        rw [raced_correct_iff target idempotencyKey key reqs db s tail hnormal hkey hrows hledger
          htail hdone]
        simp [Ne.symm hsame]

section Blank

def Phase.inserted : Phase J → ℕ
  | .done _ => 1
  | _ => 0

/-- Without a key every finished call has inserted a row of its own. -/
def Unkeyed (target : Target) (s : Pair J) : Prop :=
  (∀ side, s.phases side ≠ .recheck) ∧
    (s.phases false).inserted + (s.phases true).inserted ≤ (slotRows s.db target none).length

theorem enqueueStep_unkeyed (target : Target) (req : Request J) (db db' : Database J)
    (phase phase' : Phase J) (hphase : phase ≠ .recheck)
    (h : enqueueStep target none req db phase = some (db', phase')) :
    phase' ≠ .recheck ∧ phase'.inserted + (slotRows db target none).length ≤
      phase.inserted + (slotRows db' target none).length := by
  cases phase with
  | lookup =>
    obtain ⟨rfl, rfl⟩ := Prod.mk.inj (Option.some.inj h)
    exact ⟨by simp, le_rfl⟩
  | reserve =>
    obtain ⟨rfl, rfl⟩ := Prod.mk.inj (Option.some.inj h)
    refine ⟨by simp, ?_⟩
    have happend := slotRows_append_row db db.ledger target none req
    simp only [happend, List.length_append, List.length_singleton,
      Phase.inserted]
    omega
  | recheck => exact absurd rfl hphase
  | done answer => cases h

theorem unkeyed_step (target : Target) (idempotencyKey : Option String)
    (reqs : Bool → Request J) (hnormal : stripOrNone idempotencyKey = none) (s : Pair J)
    (side : Bool) (t : Pair J) (hs : Unkeyed target s)
    (h : step target idempotencyKey reqs s side = some t) : Unkeyed target t := by
  obtain ⟨db', phase', henqueue, rfl⟩ := step_eq target idempotencyKey reqs s t side h
  obtain ⟨hrecheck, hcount⟩ := hs
  rw [hnormal] at henqueue
  obtain ⟨hphase', hgrow⟩ :=
    enqueueStep_unkeyed target (reqs side) s.db db' _ phase' (hrecheck side) henqueue
  constructor
  · intro other
    by_cases hother : other = side
    · subst hother
      simpa using hphase'
    · simpa [Function.update_of_ne hother] using hrecheck other
  · cases side with
    | false =>
      simp only [Function.update_self, Function.update_of_ne (Bool.false_ne_true).symm]
      omega
    | true =>
      simp only [Function.update_self, Function.update_of_ne Bool.false_ne_true]
      omega

theorem blank_not_correct (target : Target) (idempotencyKey : Option String)
    (reqs : Bool → Request J) (db : Database J) (s : Pair J) (schedule : List Bool)
    (hnormal : stripOrNone idempotencyKey = none)
    (hrun : run (step target idempotencyKey reqs) (Pair.start db) schedule = some s)
    (hdone : Finished s) : ¬ EnqueueCorrect target idempotencyKey reqs s := by
  have hstart : Unkeyed target (Pair.start db) :=
    ⟨by simp [Pair.start], Nat.zero_le _⟩
  obtain ⟨_, hcount⟩ := run_invariant (unkeyed_step target idempotencyKey reqs hnormal) hstart hrun
  obtain ⟨first, hfirst⟩ := hdone false
  obtain ⟨second, hsecond⟩ := hdone true
  rintro ⟨row, hrows, _⟩
  rw [hnormal] at hrows
  simp [hfirst, hsecond, hrows, Phase.inserted] at hcount

end Blank

/-- A key that is already reserved: both calls are compared with its row. -/
theorem reserved_correct (target : Target) (idempotencyKey : Option String) (key : String)
    (reqs : Bool → Request J) (db : Database J) (s : Pair J) (row : Row J) (schedule : List Bool)
    (hnormal : stripOrNone idempotencyKey = some key) (hkey : key ≠ "")
    (hrows : slotRows db target (some key) = [row])
    (hledger : (target.accountKey, strip target.commandType, key) ∈ db.ledger)
    (hrun : run (step target idempotencyKey reqs) (Pair.start db) schedule = some s)
    (hdone : Finished s) : EnqueueCorrect target idempotencyKey reqs s := by
  have hstart : Settled target key reqs (fun _ => .seen) db row (Pair.start db) :=
    ⟨rfl, fun _ => Or.inl rfl⟩
  rw [settled_correct_iff target idempotencyKey key reqs _ db row hnormal hkey hrows hledger
    _ s schedule hstart hrun hdone]
  intro side
  exact answered_seen _ _ _ _

theorem stripOrNone_ne_empty (text : Option String) (clean : String)
    (h : stripOrNone text = some clean) : clean ≠ "" := by
  simp only [stripOrNone, Option.ite_none_left_eq_some, Option.some.injEq] at h
  rw [← h.2]
  exact h.1

/-- For every schedule of the two calls over every database the service can
build, the idempotency rule is met exactly when the key is not blank and one of
three things holds: the key was already reserved, the normalised requests agree,
or one call looks up and reserves before the other one looks up. -/
theorem enqueue_pair_correct_iff (target : Target) (idempotencyKey : Option String)
    (reqs : Bool → Request J) (db : Database J) (hdb : Consistent db) (schedule : List Bool)
    (s : Pair J)
    (hrun : run (step target idempotencyKey reqs) (Pair.start db) schedule = some s)
    (hdone : Finished s) :
    EnqueueCorrect target idempotencyKey reqs s ↔
      ∃ key, stripOrNone idempotencyKey = some key ∧
        ((target.accountKey, strip target.commandType, key) ∈ db.ledger ∨
          (reqs false).contract = (reqs true).contract ∨ schedule[0]? = schedule[1]?) := by
  cases hnormal : stripOrNone idempotencyKey with
  | none =>
    have hwrong := blank_not_correct target idempotencyKey reqs db s schedule hnormal hrun hdone
    simp [hwrong]
  | some key =>
    have hkey := stripOrNone_ne_empty idempotencyKey key hnormal
    have hlength := hdb target key
    simp only [Option.some.injEq, exists_eq_left']
    by_cases hledger : (target.accountKey, strip target.commandType, key) ∈ db.ledger
    · rw [if_pos hledger, List.length_eq_one_iff] at hlength
      obtain ⟨row, hrows⟩ := hlength
      have hcorrect := reserved_correct target idempotencyKey key reqs db s row schedule hnormal
        hkey hrows hledger hrun hdone
      exact iff_of_true hcorrect (Or.inl hledger)
    · rw [if_neg hledger, List.length_eq_zero_iff] at hlength
      rw [fresh_correct_iff target idempotencyKey key reqs db s schedule hnormal hkey hlength
        hledger hrun hdone]
      simp [hledger]

end Service

def closeTarget : Target := ⟨"demo:server:1", "close_position", by decide, by decide⟩

/-- Two operators close different tickets under one key. -/
def closeRequest (second : Bool) : Request (List String) where
  payload := some [if second then "ticket=2" else "ticket=1"]
  actor := none
  reason := none
  actionId := none
  requestContext := none
  commandId := if second then "c2" else "c1"
  newActionId := if second then "a2" else "a1"
  createdAt := if second then 2 else 1

/-- Run one after the other, the second request is refused. -/
theorem enqueue_pair_correct_sequential :
    ∃ s, run (step closeTarget (some "k") closeRequest) (Pair.start ⟨[], []⟩)
        [false, false, true] = some s ∧
      Finished s ∧ EnqueueCorrect closeTarget (some "k") closeRequest s := by
  have hdone : ∀ s, run (step closeTarget (some "k") closeRequest) (Pair.start ⟨[], []⟩)
      [false, false, true] = some s → Finished s := by
    rintro s hs
    cases Option.some.inj hs
    intro side
    cases side with
    | false => exact ⟨_, rfl⟩
    | true => exact ⟨_, rfl⟩
  obtain ⟨s, hs⟩ : ∃ s, run (step closeTarget (some "k") closeRequest) (Pair.start ⟨[], []⟩)
      [false, false, true] = some s := ⟨_, rfl⟩
  refine ⟨s, hs, hdone s hs, ?_⟩
  rw [enqueue_pair_correct_iff closeTarget (some "k") closeRequest ⟨[], []⟩ consistent_empty
    [false, false, true] s hs (hdone s hs)]
  exact ⟨"k", by decide, Or.inr (Or.inr rfl)⟩

/-- When both look up first, the loser is answered with the other ticket's
command. -/
theorem enqueue_pair_race_accepts_other_request :
    ∃ s, run (step closeTarget (some "k") closeRequest) (Pair.start ⟨[], []⟩)
        [false, true, false, true, true] = some s ∧
      Finished s ∧ ¬ EnqueueCorrect closeTarget (some "k") closeRequest s := by
  refine ⟨_, rfl, ?_, ?_⟩
  · intro side
    cases side with
    | false => exact ⟨_, rfl⟩
    | true => exact ⟨_, rfl⟩
  · rintro ⟨row, hrows, hall⟩
    have hrow : row = (closeRequest false).row closeTarget (some "k") :=
      (List.cons.inj hrows).1.symm
    obtain ⟨answer, hanswer, _, hdiffers⟩ := hall true
    have hne : (closeRequest true).contract ≠ row.contract := by
      rw [hrow]
      decide
    obtain ⟨error, rfl⟩ := hdiffers hne
    cases hanswer

theorem run_consistent_race :
    ∃ s, run (step closeTarget (some "k") closeRequest) (Pair.start ⟨[], []⟩)
        [false, true, false, true, true] = some s ∧ Consistent s.db :=
  ⟨_, rfl, run_consistent closeTarget (some "k") closeRequest (Pair.start ⟨[], []⟩) _
    [false, true, false, true, true] consistent_empty rfl⟩

end MT5Services.OperatorCommands
