import MT5Services.PyText
import MT5Services.PyNumber
import Mathlib.Data.List.Basic

/-!
`RecoveryEntrySignalConfirmer`: an entry direction is confirmed once it has persisted over
enough snapshots in a row. The confirmer keeps a counter, a direction and the time of the
last snapshot only; the counter is shown to be the length of the streak of linked snapshots
at the end of what was assessed since the last reset.
-/
namespace MT5Services.EntryConfirmation

open PyText PyNumber

/-- A `datetime` by the microseconds on its clock and, unless it is naive, its UTC offset. -/
structure DateTime where
  wall : ℤ
  utcOffset : Option ℤ := none
  deriving DecidableEq, Repr

/-- A naive time takes over the zone of the other one. -/
def DateTime.alignTo (time other : DateTime) : DateTime :=
  if time.utcOffset = none then { time with utcOffset := other.utcOffset } else time

/-- `current - previous` in microseconds, once both are naive or both are not. -/
def DateTime.since (current previous : DateTime) : ℤ :=
  (current.wall - current.utcOffset.getD 0) - (previous.wall - previous.utcOffset.getD 0)

/-- `_elapsed_seconds`. -/
def elapsedSeconds (previous : Option DateTime) (current : DateTime) : Option ℚ :=
  previous.map fun previous =>
    round (max 0 (((current.alignTo previous).since (previous.alignTo current) : ℤ) / 10 ^ 6)) 10

/-- `_normalize_direction`. -/
def normalizeDirection (value : String) : Option String :=
  let direction := lower (strip value)
  if direction = "buy" ∨ direction = "sell" then some direction else none

structure ConfirmationMetadata where
  direction : Option String
  requiredSnapshots : ℤ
  maxGapSeconds : ℚ
  previousDirection : Option String
  previousCount : ℕ
  confirmationCount : ℕ := 0
  gapSeconds : Option ℚ := none
  gapOk : Option Bool := none
  deriving DecidableEq, Repr

structure RecoveryEntryConfirmationDecision where
  allowed : Bool
  reason : String
  metadata : ConfirmationMetadata
  deriving DecidableEq, Repr

/-- The state of `RecoveryEntrySignalConfirmer`. -/
structure Confirmer where
  direction : Option String := none
  count : ℕ := 0
  lastObservedAt : Option DateTime := none
  deriving DecidableEq, Repr

/-- What `reset` leaves, which is also the state of a new confirmer. -/
def initial : Confirmer := {}

/-- `assess`: the decision and the state it leaves. -/
def assess (confirmer : Confirmer) (direction : String) (observedAt : DateTime)
    (requiredSnapshots : ℤ) (maxGapSeconds : ℚ) :
    RecoveryEntryConfirmationDecision × Confirmer :=
  let required := max 1 requiredSnapshots
  let maxGap := max 0 maxGapSeconds
  let metadata : ConfirmationMetadata :=
    { direction := normalizeDirection direction
      requiredSnapshots := required
      maxGapSeconds := maxGap
      previousDirection := confirmer.direction
      previousCount := confirmer.count }
  match normalizeDirection direction with
  | none => (⟨false, "entry_confirmation_direction_invalid", metadata⟩, initial)
  | some normalized =>
    if required ≤ 1 then
      (⟨true, "entry_confirmation_not_required", { metadata with confirmationCount := 1 }⟩,
        ⟨some normalized, 1, some observedAt⟩)
    else
      let gapSeconds := elapsedSeconds confirmer.lastObservedAt observedAt
      let gapOk := gapSeconds.all fun gap => maxGap ≤ 0 ∨ gap ≤ maxGap
      let count :=
        if confirmer.direction = some normalized ∧ gapOk = true then confirmer.count + 1 else 1
      let metadata :=
        { metadata with
          confirmationCount := count, gapSeconds := gapSeconds, gapOk := some gapOk }
      let next : Confirmer := ⟨some normalized, count, some observedAt⟩
      if required ≤ count then (⟨true, "entry_confirmation_confirmed", metadata⟩, next)
      else (⟨false, "entry_confirmation_pending", metadata⟩, next)

inductive Operation
  | reset
  | assess (direction : String) (observedAt : DateTime)
  deriving DecidableEq, Repr

section Sequences

variable (required : ℤ) (maxGap : ℚ)

def step (confirmer : Confirmer) : Operation → Confirmer
  | .reset => initial
  | .assess direction observedAt => (assess confirmer direction observedAt required maxGap).2

/-- The confirmer after a sequence of operations. -/
def after (operations : List Operation) : Confirmer :=
  operations.foldl (step required maxGap) initial

end Sequences

/-- A call of `assess` with a valid direction: the normalised direction and the time. -/
abbrev Call := String × DateTime

/-- One more operation on the calls since the last reset, the newest first. -/
def record (calls : List Call) : Operation → List Call
  | .reset => []
  | .assess direction observedAt =>
    match normalizeDirection direction with
    | none => []
    | some normalized => (normalized, observedAt) :: calls

/-- The calls since the most recent reset or invalid direction, the newest first. -/
def callsSince (operations : List Operation) : List Call := operations.foldl record []

/-- `max(0, later - earlier)` in seconds. -/
def gapSeconds (earlier later : DateTime) : ℚ :=
  max 0 (((later.alignTo earlier).since (earlier.alignTo later) : ℤ) / 10 ^ 6)

/-- The last `n` calls have one direction and no gap between them exceeds `maxGap`. -/
structure Persisted (n : ℕ) (maxGap : ℚ) (calls : List Call) : Prop where
  enough : n ≤ calls.length
  sameDirection : ∀ call ∈ calls.take n, ∀ other ∈ calls.take n, call.1 = other.1
  gaps : (calls.take n).IsChain fun later earlier => gapSeconds earlier.2 later.2 ≤ maxGap

def Confirms (decision : RecoveryEntryConfirmationDecision) : Prop :=
  decision.allowed = true ∧ decision.reason = "entry_confirmation_confirmed"

/-- The later call goes on with what the earlier one began. -/
def Linked (maxGap : ℚ) (later earlier : Call) : Prop :=
  later.1 = earlier.1 ∧ gapSeconds earlier.2 later.2 ≤ maxGap

instance (maxGap : ℚ) (later earlier : Call) : Decidable (Linked maxGap later earlier) :=
  inferInstanceAs (Decidable (_ ∧ _))

/-- How many of the newest calls are linked one to the next. -/
def streak (maxGap : ℚ) : List Call → ℕ
  | [] => 0
  | [_] => 1
  | later :: earlier :: rest =>
    if Linked maxGap later earlier then streak maxGap (earlier :: rest) + 1 else 1

/-- Times have microseconds, so rounding the seconds to ten decimals does nothing. -/
theorem elapsedSeconds_some (previous current : DateTime) :
    elapsedSeconds (some previous) current = some (gapSeconds previous current) := by
  have hexact : ∀ micros : ℤ, round (max 0 ((micros : ℚ) / 10 ^ 6)) 10 =
      max 0 ((micros : ℚ) / 10 ^ 6) := by
    intro micros
    refine round_eq_self (n := max 0 (micros * 10 ^ 4)) ?_
    rw [max_mul_of_nonneg _ _ (by positivity), zero_mul]
    push_cast
    congr 1
    ring
  rw [elapsedSeconds, Option.map_some, hexact, gapSeconds]

theorem le_streak_iff (maxGap : ℚ) (n : ℕ) (calls : List Call) :
    n ≤ streak maxGap calls ↔
      n ≤ calls.length ∧ (calls.take n).IsChain (Linked maxGap) := by
  induction calls generalizing n with
  | nil =>
    rw [streak, List.length_nil, List.take_nil]
    exact ⟨fun h => ⟨h, .nil⟩, fun h => h.1⟩
  | cons later rest ih =>
    cases n with
    | zero => exact ⟨fun _ => ⟨Nat.zero_le _, .nil⟩, fun _ => Nat.zero_le _⟩
    | succ n =>
      cases rest with
      | nil =>
        rw [streak, List.length_singleton, List.take_succ_cons, List.take_nil]
        exact ⟨fun h => ⟨h, .singleton _⟩, fun h => h.1⟩
      | cons earlier rest =>
        rw [streak]
        split_ifs with hlinked
        · rw [Nat.succ_le_succ_iff, ih n, List.length_cons (a := later), Nat.succ_le_succ_iff,
            List.take_succ_cons]
          cases n with
          | zero => simp
          | succ n => simp [List.isChain_cons_cons, hlinked]
        · cases n with
          | zero => simp
          | succ n => simp [List.isChain_cons_cons, hlinked]

/-- A chain of linked calls is a chain of small gaps in one direction. -/
theorem isChain_linked_iff (maxGap : ℚ) (calls : List Call) :
    calls.IsChain (Linked maxGap) ↔
      (∀ call ∈ calls, ∀ other ∈ calls, call.1 = other.1) ∧
        calls.IsChain fun later earlier => gapSeconds earlier.2 later.2 ≤ maxGap := by
  induction calls with
  | nil => simp
  | cons later rest ih =>
    cases rest with
    | nil => simp
    | cons earlier rest =>
      rw [List.isChain_cons_cons, List.isChain_cons_cons, ih]
      constructor
      · rintro ⟨⟨hsame, hgap⟩, hall, hchain⟩
        refine ⟨?_, hgap, hchain⟩
        have hearlier : ∀ call ∈ later :: earlier :: rest, call.1 = earlier.1 := by
          intro call hcall
          rcases List.mem_cons.mp hcall with rfl | hcall
          · exact hsame
          · exact hall call hcall earlier List.mem_cons_self
        intro call hcall other hother
        rw [hearlier call hcall, hearlier other hother]
      · rintro ⟨hall, hgap, hchain⟩
        refine ⟨⟨hall _ List.mem_cons_self _ (by simp), hgap⟩, ?_, hchain⟩
        intro call hcall other hother
        exact hall call (List.mem_cons_of_mem _ hcall) other (List.mem_cons_of_mem _ hother)

theorem persisted_iff_le_streak (n : ℕ) (maxGap : ℚ) (calls : List Call) :
    Persisted n maxGap calls ↔ n ≤ streak maxGap calls := by
  rw [le_streak_iff, isChain_linked_iff]
  exact ⟨fun h => ⟨h.enough, h.sameDirection, h.gaps⟩, fun h => ⟨h.1, h.2.1, h.2.2⟩⟩

/-- The state is the summary of the calls since the last reset. -/
structure Summarizes (maxGap : ℚ) (confirmer : Confirmer) (calls : List Call) : Prop where
  direction : confirmer.direction = calls.head?.map Prod.fst
  lastObservedAt : confirmer.lastObservedAt = calls.head?.map Prod.snd
  count : confirmer.count = streak maxGap calls

theorem summarizes_nil (maxGap : ℚ) : Summarizes maxGap initial [] := ⟨rfl, rfl, rfl⟩

variable {maxGap : ℚ} {confirmer : Confirmer} {calls : List Call}

/-- The counter goes on exactly when the call is linked to the one before it. -/
theorem count_eq_streak (hgap : 0 < maxGap) (h : Summarizes maxGap confirmer calls) (call : Call) :
    (if confirmer.direction = some call.1 ∧
        ((elapsedSeconds confirmer.lastObservedAt call.2).all fun gap =>
          max 0 maxGap ≤ 0 ∨ gap ≤ max 0 maxGap) = true then
      confirmer.count + 1 else 1) = streak maxGap (call :: calls) := by
  have hmax : max 0 maxGap = maxGap := max_eq_right hgap.le
  rw [h.direction, h.lastObservedAt, h.count, hmax]
  cases calls with
  | nil => rfl
  | cons earlier rest =>
    have hnot : ¬ maxGap ≤ 0 := not_le.mpr hgap
    have hlinked : (some earlier.1 = some call.1 ∧
        (some (gapSeconds earlier.2 call.2)).all (fun gap =>
          decide (maxGap ≤ 0 ∨ gap ≤ maxGap)) = true) ↔ Linked maxGap call earlier := by
      rw [Option.all_some, decide_eq_true_eq, or_iff_right hnot, Option.some_inj, Linked]
      exact and_congr_left fun _ => eq_comm
    rw [List.head?_cons, Option.map_some, Option.map_some, elapsedSeconds_some, streak]
    exact if_congr hlinked rfl rfl

variable {required : ℤ}

/-- A call with a valid direction, where more than one snapshot is required. -/
theorem assess_valid (hrequired : 2 ≤ required) (hgap : 0 < maxGap)
    (h : Summarizes maxGap confirmer calls)
    {direction normalized : String} (hvalid : normalizeDirection direction = some normalized)
    (observedAt : DateTime) : (Confirms (assess confirmer direction observedAt required maxGap).1 ↔
        required ≤ streak maxGap ((normalized, observedAt) :: calls)) ∧
      Summarizes maxGap (assess confirmer direction observedAt required maxGap).2
        ((normalized, observedAt) :: calls) := by
  have hmax : max 1 required = required := max_eq_right (by omega)
  have hmany : ¬ required ≤ 1 := by omega
  have hcount := count_eq_streak hgap h (normalized, observedAt)
  unfold assess
  dsimp only
  rw [hvalid, hmax]
  dsimp only
  rw [if_neg hmany]
  dsimp only at hcount
  rw [hcount]
  split_ifs with hreached
  · exact ⟨⟨fun _ => hreached, fun _ => ⟨rfl, rfl⟩⟩, rfl, rfl, rfl⟩
  · refine ⟨⟨fun hconfirms => ?_, fun hle => absurd hle hreached⟩, rfl, rfl, rfl⟩
    exact absurd hconfirms.1 Bool.false_ne_true

theorem assess_invalid (required : ℤ) (maxGap : ℚ) (confirmer : Confirmer) {direction : String}
    (hinvalid : normalizeDirection direction = none) (observedAt : DateTime) :
    ¬ Confirms (assess confirmer direction observedAt required maxGap).1 ∧
      (assess confirmer direction observedAt required maxGap).2 = initial := by
  unfold assess
  dsimp only
  rw [hinvalid]
  exact ⟨fun hconfirms => absurd hconfirms.1 Bool.false_ne_true, rfl⟩

theorem step_summarizes (hrequired : 2 ≤ required) (hgap : 0 < maxGap)
    (h : Summarizes maxGap confirmer calls) (operation : Operation) :
    Summarizes maxGap (step required maxGap confirmer operation) (record calls operation) := by
  cases operation with
  | reset => exact summarizes_nil maxGap
  | assess direction observedAt =>
    dsimp only [step, record]
    cases hdirection : normalizeDirection direction with
    | none =>
      rw [(assess_invalid required maxGap confirmer hdirection observedAt).2]
      exact summarizes_nil maxGap
    | some normalized => exact (assess_valid hrequired hgap h hdirection observedAt).2

theorem after_summarizes (hrequired : 2 ≤ required)
    (hgap : 0 < maxGap) (operations : List Operation) :
    Summarizes maxGap (after required maxGap operations) (callsSince operations) := by
  induction operations using List.reverseRecOn with
  | nil => exact summarizes_nil maxGap
  | append_singleton front operation ih =>
    rw [after, callsSince, List.foldl_append, List.foldl_append, List.foldl_cons, List.foldl_nil,
      List.foldl_cons, List.foldl_nil]
    exact step_summarizes hrequired hgap ih operation

/-- After any operations, a call confirms exactly when the last `n` calls since the most
recent reset or invalid direction, this one included, agree and follow closely enough. -/
theorem assess_confirms_iff (n : ℕ) (maxGap : ℚ) (hn : 2 ≤ n) (hgap : 0 < maxGap)
    (operations : List Operation) (direction : String) (observedAt : DateTime) :
    Confirms (assess (after n maxGap operations) direction observedAt n maxGap).1 ↔
      Persisted n maxGap (callsSince (operations ++ [.assess direction observedAt])) := by
  have hrequired : (2 : ℤ) ≤ n := by exact_mod_cast hn
  have hcalls : callsSince (operations ++ [.assess direction observedAt]) =
      record (callsSince operations) (.assess direction observedAt) := by
    rw [callsSince, List.foldl_append, List.foldl_cons, List.foldl_nil, callsSince]
  rw [hcalls, persisted_iff_le_streak]
  dsimp only [record]
  cases hdirection : normalizeDirection direction with
  | none =>
    refine ⟨fun hconfirms => ?_, fun hle => ?_⟩
    · exact absurd hconfirms (assess_invalid _ _ _ hdirection observedAt).1
    · have hzero : n ≤ 0 := hle
      omega
  | some normalized =>
    rw [(assess_valid hrequired hgap (after_summarizes hrequired hgap operations) hdirection
      observedAt).1]
    exact Nat.cast_le

/-- Two equal directions one second apart. -/
theorem assess_confirms_second :
    Confirms (assess (after 2 1 [.assess " Buy" ⟨0, none⟩]) "buy" ⟨1000000, none⟩ 2 1).1 ↔
      Persisted 2 1 (callsSince [.assess " Buy" ⟨0, none⟩, .assess "buy" ⟨1000000, none⟩]) :=
  assess_confirms_iff 2 1 (by decide) (by decide) [.assess " Buy" ⟨0, none⟩] "buy"
    ⟨1000000, none⟩

end MT5Services.EntryConfirmation
