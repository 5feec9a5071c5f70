import MT5Services.PositionManager

/-!
`modify_sl` and `modify_tp`: the broker is asked for the rounded level, its answer is read off
two lists of tickets or records, and the level kept locally follows when no failure is found in
it. Every call leaves one row of history. A sequence of calls is compared with the calls whose
answer lists the ticket as modified.
-/
namespace MT5Services.SlTpOps

open PyNumber

/-- An entry of `modified`. A record without a ticket and what is no number raise with a text. -/
inductive Item
  | null
  | number (ticket : ℤ)
  | record (named : Except String ℤ) (retcode : Option ℤ) (comment : String)
  | malformed (error : String)

def Item.error : Item → Option String
  | .record (.error text) _ _ => some text
  | .malformed text => some text
  | _ => none

def Item.named : Item → Option ℤ
  | .number ticket => some ticket
  | .record (.ok ticket) _ _ => some ticket
  | _ => none

/-- An entry of `failed`, with its `str` when it is no record. -/
inductive FailedItem
  | record (retcode : Option ℤ) (error : String)
  | other (text : String)
  deriving DecidableEq, Repr

def FailedItem.retcode : FailedItem → Option ℤ
  | .record retcode _ => retcode
  | .other _ => none

def FailedItem.text : FailedItem → String
  | .record _ error => error
  | .other text => text

/-- What `modify_positions` answers; a list that is absent is empty. -/
inductive Answer
  | raises (text : String)
  | other
  | report (modified : List Item) (failed : List FailedItem)

/-- The tickets that are listed as modified. -/
def namedTickets (modified : List Item) : List ℤ := modified.filterMap Item.named

/-- The comprehension over the list raises at its first malformed entry. -/
def firstError (modified : List Item) : Option String := modified.findSome? Item.error

def Answer.lists (ticket : ℤ) : Answer → Bool
  | .report modified _ => ticket ∈ namedTickets modified
  | _ => false

structure Outcome where
  success : Bool
  retcode : Option ℤ := none
  brokerComment : String := ""
  deriving DecidableEq, Repr

/-- The return code and the comment of the first entry, if it is a record. -/
def headRecord : List Item → Option ℤ × String
  | .record _ retcode comment :: _ => (retcode, comment)
  | _ => (none, "")

/-- An exception's text is kept when there is no comment yet. -/
def failure (retcode : Option ℤ) (comment text : String) : Outcome where
  success := false
  retcode := retcode
  brokerComment := if comment = "" then text else comment

def taken (head : Option ℤ × String) : Outcome where
  success := true
  retcode := head.1
  brokerComment := head.2

/-- The body of the two functions, its handler included. -/
def readAnswer (ticket : ℤ) : Answer → Outcome
  | .raises text => failure none "" text
  | .other => { success := true }
  | .report modified failed =>
    match firstError modified with
    | some text => failure none "" text
    | none =>
      let head := headRecord modified
      if namedTickets modified ≠ [] ∧ ticket ∉ namedTickets modified then
        failure head.1 head.2 s!"ticket {ticket} not modified"
      else
        match failed with
        | first :: _ =>
          if ticket ∉ namedTickets modified then failure first.retcode first.text first.text
          else taken head
        | [] => taken head

inductive Level
  | stopLoss
  | takeProfit
  deriving DecidableEq, Repr

/-- A row of the history; the fields of the other level are empty. -/
structure Row where
  ticket : ℤ
  level : Level
  reason : String
  old : ℚ
  new : ℚ
  success : Bool
  retcode : Option ℤ
  brokerComment : Option String
  deriving DecidableEq, Repr

/-- Of a comment the first two hundred characters are recorded. -/
def recordedComment (comment : String) : Option String :=
  if comment = "" then none else some (String.ofList (comment.toList.take 200))

/-- The levels of a tracked position and the rows handed to the history so far. -/
structure Stops where
  ticket : ℤ
  stopLoss : ℚ
  takeProfit : ℚ
  history : List Row := []
  deriving DecidableEq, Repr

def Stops.level (pos : Stops) : Level → ℚ
  | .stopLoss => pos.stopLoss
  | .takeProfit => pos.takeProfit

def Stops.setLevel (pos : Stops) (level : Level) (value : ℚ) : Stops :=
  match level with
  | .stopLoss => { pos with stopLoss := value }
  | .takeProfit => { pos with takeProfit := value }

/-- The level follows a success; the row is recorded in any case. -/
def modify (level : Level) (pos : Stops) (new : ℚ) (reason : String) (answer : Answer) :
    Stops × Bool :=
  let target := round new 2
  let outcome := readAnswer pos.ticket answer
  let row : Row :=
    { ticket := pos.ticket
      level := level
      reason := reason
      old := pos.level level
      new := target
      success := outcome.success
      retcode := outcome.retcode
      brokerComment := recordedComment outcome.brokerComment }
  let moved := if outcome.success then pos.setLevel level target else pos
  ({ moved with history := moved.history ++ [row] }, outcome.success)

def modifySl (pos : Stops) (newSl : ℚ) (answer : Answer) (reason : String := "trailing_sl") :
    Stops × Bool := modify .stopLoss pos newSl reason answer

def modifyTp (pos : Stops) (newTp : ℚ) (answer : Answer) (reason : String := "trailing_tp") :
    Stops × Bool := modify .takeProfit pos newTp reason answer

/-- A call of `modify_sl` or of `modify_tp`. -/
structure Call where
  level : Level
  new : ℚ
  reason : String
  answer : Answer

def Call.run (call : Call) (pos : Stops) : Stops × Bool :=
  match call.level with
  | .stopLoss => modifySl pos call.new call.answer call.reason
  | .takeProfit => modifyTp pos call.new call.answer call.reason

/-- The position after the calls and what they returned. -/
def runCalls (pos : Stops) : List Call → Stops × List Bool
  | [] => (pos, [])
  | call :: rest =>
    ((runCalls (call.run pos).1 rest).1, (call.run pos).2 :: (runCalls (call.run pos).1 rest).2)

/-- The level that the answers leave: the rounded target of the last call for it whose answer
lists the ticket, else the initial one. -/
def lastListed (ticket : ℤ) (level : Level) (initial : ℚ) (calls : List Call) : ℚ :=
  calls.foldl
    (fun value call =>
      if call.level = level ∧ call.answer.lists ticket then round call.new 2 else value)
    initial

def listings (ticket : ℤ) (calls : List Call) : List Bool :=
  calls.map fun call => call.answer.lists ticket

/-- The levels mirror the broker: they are what the answers leave, a call returns true exactly
when its answer lists the ticket, and every call has a row that says so. -/
structure Mirrored (pos : Stops) (calls : List Call) : Prop where
  levels : ∀ level, (runCalls pos calls).1.level level =
    lastListed pos.ticket level (pos.level level) calls
  returned : (runCalls pos calls).2 = listings pos.ticket calls
  rows : (runCalls pos calls).1.history.map Row.success =
    pos.history.map Row.success ++ listings pos.ticket calls

/-- The answer says what became of the ticket: it is an exception, or a report that does not
list the ticket next to a malformed entry and does not leave both lists empty. -/
def Answer.Conclusive (ticket : ℤ) : Answer → Prop
  | .raises _ => True
  | .other => False
  | .report modified failed =>
    if firstError modified = none then namedTickets modified = [] → failed ≠ []
    else ticket ∉ namedTickets modified

/-- One answer is read as it lists the ticket exactly when it is conclusive. -/
theorem readAnswer_success_iff (ticket : ℤ) (answer : Answer) :
    (readAnswer ticket answer).success = answer.lists ticket ↔
      answer.Conclusive ticket := by
  cases answer with
  | raises text => simp [readAnswer, failure, Answer.lists, Answer.Conclusive]
  | other => simp [readAnswer, Answer.lists, Answer.Conclusive]
  | report modified failed =>
    simp only [readAnswer, Answer.lists, Answer.Conclusive]
    cases herror : firstError modified with
    | some text => simp [failure]
    | none =>
      by_cases hlisted : ticket ∈ namedTickets modified
      · have hnamed : namedTickets modified ≠ [] := List.ne_nil_of_mem hlisted
        cases failed with
        | nil => simp [hlisted, hnamed, taken]
        | cons first rest => simp [hlisted, taken]
      · by_cases hnamed : namedTickets modified = []
        · cases failed with
          | nil => simp [hnamed, taken]
          | cons first rest => simp [hnamed, failure]
        · simp [hlisted, hnamed, failure]

theorem run_eq (call : Call) (pos : Stops) :
    call.run pos = modify call.level pos call.new call.reason call.answer := by
  unfold Call.run
  cases call.level with
  | stopLoss => rfl
  | takeProfit => rfl

theorem run_returned (call : Call) (pos : Stops) :
    (call.run pos).2 = (readAnswer pos.ticket call.answer).success := by
  rw [run_eq]
  rfl

theorem run_rows (call : Call) (pos : Stops) :
    (call.run pos).1.history.map Row.success =
      pos.history.map Row.success ++ [(call.run pos).2] := by
  rw [run_eq]
  unfold modify Stops.setLevel
  dsimp only
  split_ifs
  · cases call.level with
    | stopLoss => simp
    | takeProfit => simp
  · simp

theorem run_ticket (call : Call) (pos : Stops) : (call.run pos).1.ticket = pos.ticket := by
  rw [run_eq]
  unfold modify Stops.setLevel
  dsimp only
  split_ifs
  · cases call.level with
    | stopLoss => rfl
    | takeProfit => rfl
  · rfl

/-- Only the level of the call moves, and only with a success. -/
theorem run_level (call : Call) (pos : Stops) (level : Level) :
    (call.run pos).1.level level =
      if call.level = level ∧ (call.run pos).2 = true then round call.new 2
      else pos.level level := by
  rw [run_returned, run_eq]
  unfold modify
  dsimp only
  cases (readAnswer pos.ticket call.answer).success with
  | false => simp [Stops.level]
  | true =>
    cases call.level with
    | stopLoss => cases level with
      | stopLoss => simp [Stops.level, Stops.setLevel]
      | takeProfit => simp [Stops.level, Stops.setLevel]
    | takeProfit => cases level with
      | stopLoss => simp [Stops.level, Stops.setLevel]
      | takeProfit => simp [Stops.level, Stops.setLevel]

/-- The calls mirror the broker exactly when every answer is conclusive. -/
theorem mirrored_iff (pos : Stops) (calls : List Call) :
    Mirrored pos calls ↔ ∀ call ∈ calls, call.answer.Conclusive pos.ticket := by
  constructor
  · intro h
    have hreturned := h.returned
    clear h
    induction calls generalizing pos with
    | nil => simp
    | cons call rest ih =>
      simp only [runCalls, listings, List.map_cons, List.cons.injEq] at hreturned
      rw [run_returned, readAnswer_success_iff] at hreturned
      have hrest := ih (call.run pos).1 (by rw [run_ticket]; exact hreturned.2)
      rw [run_ticket] at hrest
      exact List.forall_mem_cons.mpr ⟨hreturned.1, hrest⟩
  · intro h
    induction calls generalizing pos with
    | nil => exact ⟨fun _ => rfl, rfl, by simp [runCalls, listings]⟩
    | cons call rest ih =>
      have hcall : (call.run pos).2 = call.answer.lists pos.ticket := by
        rw [run_returned]
        exact (readAnswer_success_iff pos.ticket call.answer).mpr (h call List.mem_cons_self)
      have hrest := ih (call.run pos).1 (by
        rw [run_ticket]
        exact fun other hother => h other (List.mem_cons_of_mem call hother))
      constructor
      · intro level
        rw [runCalls, hrest.levels level, run_ticket, run_level, hcall]
        simp [lastListed]
      · rw [runCalls, hrest.returned, run_ticket, hcall]
        rfl
      · rw [runCalls, hrest.rows, run_rows, run_ticket, hcall]
        simp [listings]

/-- The two lists of the manager's own view of an answer. -/
def answerOf : PositionManager.ModifyAnswer → Answer
  | .raises => .raises ""
  | .unreported => .other
  | .report modified failed => .report (modified.map Item.number) (failed.map FailedItem.other)

/-- The manager takes an answer for a success as it is read here. -/
theorem accepts_eq (answer : PositionManager.ModifyAnswer) (ticket : ℤ) :
    answer.accepts ticket = (readAnswer ticket (answerOf answer)).success := by
  cases answer with
  | raises => rfl
  | unreported => rfl
  | report modified failed =>
    have hnone : firstError (modified.map Item.number) = none := by
      simp [firstError, Item.error]
    have hnamed : namedTickets (modified.map Item.number) = modified := by
      simp [namedTickets, Item.named, List.filterMap_map, Function.comp_def]
    simp only [answerOf, readAnswer, hnone, hnamed, PositionManager.ModifyAnswer.accepts]
    by_cases hlisted : ticket ∈ modified
    · cases failed with
      | nil => simp [hlisted, taken]
      | cons first rest => simp [hlisted, taken]
    · by_cases hempty : modified = []
      · cases failed with
        | nil => simp [hempty, taken]
        | cons first rest => simp [hempty, failure]
      · simp [hlisted, hempty, failure]

/-- An answer with two empty lists moves the stop and is recorded as a success. -/
theorem not_mirrored :
    ¬Mirrored { ticket := 303, stopLoss := 2990, takeProfit := 3020 }
      [{ level := .stopLoss, new := 3001, reason := "trailing_sl", answer := .report [] [] }] := by
  intro h
  have hreturned := h.returned
  revert hreturned
  decide +kernel

end MT5Services.SlTpOps
