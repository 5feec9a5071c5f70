import MT5Services.PositionManager

/-!
`_flush_dirty_positions` between the calls of `update_price`. A price is one locked step. The
flush takes the lock for its snapshot and again to mark a position, and calls the hook in
between without it, so that prices fall between the hook and the mark. Every hook call reads
the position as it is then; a tracked position was given to the hook of its registration.
-/
namespace MT5Services.DirtyFlush

open ExitRules PositionManager Runs

/-- The fields of a position that the flush is there for. -/
structure Durable where
  highestPrice : Option ℚ
  lowestPrice : Option ℚ
  breakevenActivated : Bool
  deriving DecidableEq, Repr

def durable (pos : TrackedPosition) : Durable where
  highestPrice := pos.highestPrice
  lowestPrice := pos.lowestPrice
  breakevenActivated := pos.breakevenActivated

/-- A position with the state that was last passed to a hook. -/
structure Row where
  pos : TrackedPosition
  flushedVersion : ℕ := 0
  passed : Durable

/-- Where the flush stands: before the hook of a ticket or before its mark. -/
inductive Flush
  | idle
  | calling (ticket : ℤ) (rest : List ℤ)
  | marking (ticket : ℤ) (rest : List ℤ)
  deriving DecidableEq, Repr

def Flush.next : List ℤ → Flush
  | [] => .idle
  | ticket :: rest => .calling ticket rest

structure Manager where
  rows : Dict ℤ Row
  flush : Flush := .idle

inductive Act
  | price (ticket : ℤ) (tick : Tick)
  | notify (ticket : ℤ)
  | snapshot
  | hook (raises : Bool)
  | mark

def changeRow (rows : Dict ℤ Row) (ticket : ℤ) (change : Row → Row) : Dict ℤ Row :=
  rows.mapValues fun key row => if key = ticket then change row else row

def Row.pass (row : Row) : Row := { row with passed := durable row.pos }

/-- The version that is copied is the current one, not the one the hook was given. -/
def Row.mark (row : Row) : Row :=
  { row with
    pos := { row.pos with dirty := false }
    flushedVersion := row.pos.version }

def dirtySnapshot (rows : Dict ℤ Row) : List ℤ :=
  (rows.items.filter fun e => e.2.pos.dirty && e.2.flushedVersion < e.2.pos.version).map Prod.fst

/-- A raised exception leaves the position dirty. Outside the flush the hook is called after a
moved stop and a partial close. -/
def step (config : ChandelierConfig) (m : Manager) : Act → Option Manager
  | .price ticket tick =>
    some { m with
      rows := changeRow m.rows ticket fun row =>
        { row with pos := updatePrice config row.pos tick } }
  | .notify ticket => some { m with rows := changeRow m.rows ticket Row.pass }
  | .snapshot =>
    match m.flush with
    | .idle => some { m with flush := Flush.next (dirtySnapshot m.rows) }
    | _ => none
  | .hook raises =>
    match m.flush with
    | .calling ticket rest =>
      some {
        rows := changeRow m.rows ticket Row.pass
        flush := if raises then Flush.next rest else .marking ticket rest }
    | _ => none
  | .mark =>
    match m.flush with
    | .marking ticket rest =>
      some {
        rows := changeRow m.rows ticket Row.mark
        flush := Flush.next rest }
    | _ => none

/-- Positions as they are registered; what is passed first is their state then. -/
def start (positions : Positions) : Manager where
  rows := positions.mapValues fun _ pos =>
    { pos := pos
      passed := durable pos }

def Row.Persisted (row : Row) : Prop := row.pos.dirty = false → row.passed = durable row.pos

instance (row : Row) : Decidable row.Persisted := inferInstanceAs (Decidable (_ → _))

/-- Every clean position was last passed on as it is. -/
def Persisted (m : Manager) : Prop := ∀ ticket, ∀ row ∈ m.rows.get? ticket, row.Persisted

/-- No flush is lost: clean positions are persisted in every state of the run. -/
def NoLostFlush (config : ChandelierConfig) (positions : Positions) (labels : List Act) : Prop :=
  ∀ front back t, labels = front ++ back → run (step config) (start positions) front = some t →
    Persisted t

/-- The price is better than every one before. -/
def NewBest (pos : TrackedPosition) (price : ℚ) : Prop :=
  match pos.action with
  | .buy => ∀ highest ∈ pos.highestPrice, highest < price
  | .sell => ∀ lowest ∈ pos.lowestPrice, price < lowest

instance (pos : TrackedPosition) (price : ℚ) : Decidable (NewBest pos price) := by
  unfold NewBest
  cases pos.action with
  | buy => exact inferInstance
  | sell => exact inferInstance

/-- The flag that the exit rules answer at this price. -/
def breakevenAfter (config : ChandelierConfig) (pos : TrackedPosition) (tick : Tick) : Bool :=
  ((exitResult config (notePrice pos tick.price) tick).map
    ExitCheckResult.breakevenActivated).getD pos.breakevenActivated

/-- A clean position does not lose its flag at a price that is no new best, and what the
marked position is at the second lock is what the hook was given. -/
def KeepsFlushed (config : ChandelierConfig) (m : Manager) : Act → Prop
  | .price ticket tick => ∀ row ∈ m.rows.get? ticket,
    row.pos.dirty = true ∨ NewBest row.pos tick.price ∨
      (row.pos.breakevenActivated = true → breakevenAfter config row.pos tick = true)
  | .mark =>
    match m.flush with
    | .marking ticket _ => ∀ row ∈ m.rows.get? ticket, durable row.pos = row.passed
    | _ => True
  | _ => True

theorem get?_changeRow (rows : Dict ℤ Row) (ticket key : ℤ) (change : Row → Row) :
    (changeRow rows ticket change).get? key =
      (rows.get? key).map fun row => if key = ticket then change row else row :=
  Dict.get?_mapValues _ rows key

/-- Changing one row keeps the manager persisted exactly when the changed row is persisted. -/
theorem persisted_changeRow_iff (m : Manager) (flush : Flush) (ticket : ℤ) (change : Row → Row)
    (h : Persisted m) :
    Persisted ⟨changeRow m.rows ticket change, flush⟩ ↔
      ∀ row ∈ m.rows.get? ticket, (change row).Persisted := by
  constructor
  · intro hchanged row hrow
    refine hchanged ticket (change row) ?_
    simp only [get?_changeRow, Option.mem_def.mp hrow, Option.map_some, if_true, Option.mem_some]
  · intro hrow key row hmem
    simp only [get?_changeRow, Option.mem_def, Option.map_eq_some_iff] at hmem
    obtain ⟨old, hold, rfl⟩ := hmem
    by_cases hkey : key = ticket
    · subst hkey
      rw [if_pos rfl]
      exact hrow old hold
    · rw [if_neg hkey]
      exact h key old hold

theorem pass_persisted (row : Row) : row.pass.Persisted := fun _ => rfl

theorem mark_persisted_iff (row : Row) : row.mark.Persisted ↔ durable row.pos = row.passed :=
  ⟨fun h => (h rfl).symm, fun h _ => h.symm⟩

theorem notePrice_of_newBest (pos : TrackedPosition) (price : ℚ) (h : NewBest pos price) :
    (notePrice pos price).dirty = true := by
  unfold NewBest at h
  unfold notePrice
  split
  · rename_i haction
    rw [haction] at h
    rw [if_pos h]
  · rename_i haction
    rw [haction] at h
    rw [if_pos h]

theorem notePrice_of_not_newBest (pos : TrackedPosition) (price : ℚ) (h : ¬NewBest pos price) :
    notePrice pos price = { pos with currentPrice := some price } := by
  unfold NewBest at h
  unfold notePrice
  split
  · rename_i haction
    rw [haction] at h
    rw [if_neg h]
  · rename_i haction
    rw [haction] at h
    rw [if_neg h]

theorem evaluateChandelierExit_flush (config : ChandelierConfig) (pos : TrackedPosition)
    (tick : Tick) :
    (evaluateChandelierExit config pos tick).1.highestPrice = pos.highestPrice ∧
      (evaluateChandelierExit config pos tick).1.lowestPrice = pos.lowestPrice ∧
      (evaluateChandelierExit config pos tick).1.dirty =
        (pos.dirty || (((exitResult config pos tick).map
          ExitCheckResult.breakevenActivated).getD pos.breakevenActivated &&
            !pos.breakevenActivated)) := by
  unfold evaluateChandelierExit exitResult
  split_ifs with hzero
  · simp
  · cases tick.readings with
    | none => simp
    | some readings =>
      simp only [Option.bind_some]
      cases evaluateExit config (exitQuery pos tick readings) with
      | none => simp
      | some result => simp [recordResult]

theorem updatePrice_flush (config : ChandelierConfig) (pos : TrackedPosition) (tick : Tick) :
    (updatePrice config pos tick).highestPrice = (notePrice pos tick.price).highestPrice ∧
      (updatePrice config pos tick).lowestPrice = (notePrice pos tick.price).lowestPrice ∧
      (updatePrice config pos tick).breakevenActivated = breakevenAfter config pos tick ∧
      (updatePrice config pos tick).dirty = ((notePrice pos tick.price).dirty ||
        (breakevenAfter config pos tick && !pos.breakevenActivated)) := by
  obtain ⟨hhigh, hlow, hdirty⟩ :=
    evaluateChandelierExit_flush config (notePrice pos tick.price) tick
  have hflag := (updatePrice_spec config pos tick).2.2.1
  have hactive := (notePrice_frame pos tick.price).2.2.2.2
  unfold updatePrice at hflag ⊢
  rw [applyChandelierAction_eq] at hflag ⊢
  rw [hactive] at hdirty
  exact ⟨hhigh, hlow, hflag, hdirty⟩

/-- A price that is no new best changes the flag at most. -/
theorem updatePrice_durable (config : ChandelierConfig) (pos : TrackedPosition) (tick : Tick)
    (h : ¬NewBest pos tick.price) :
    durable (updatePrice config pos tick) =
      { durable pos with breakevenActivated := breakevenAfter config pos tick } := by
  obtain ⟨hhigh, hlow, hflag, _⟩ := updatePrice_flush config pos tick
  unfold durable
  rw [hhigh, hlow, hflag, notePrice_of_not_newBest pos tick.price h]

theorem durable_withFlag_iff (pos : TrackedPosition) (flag : Bool) :
    durable pos = { durable pos with breakevenActivated := flag } ↔
      pos.breakevenActivated = flag := by
  simp [durable]

/-- The price leaves a persisted row persisted unless it takes the flag from a clean position
without being a new best. -/
theorem price_persisted_iff (config : ChandelierConfig) (row : Row) (tick : Tick)
    (h : row.Persisted) :
    Row.Persisted { row with pos := updatePrice config row.pos tick } ↔
      row.pos.dirty = true ∨ NewBest row.pos tick.price ∨
        (row.pos.breakevenActivated = true → breakevenAfter config row.pos tick = true) := by
  obtain ⟨_, _, _, hdirty⟩ := updatePrice_flush config row.pos tick
  unfold Row.Persisted at h ⊢
  by_cases hbest : NewBest row.pos tick.price
  · rw [hdirty, notePrice_of_newBest _ _ hbest]
    simp [hbest]
  · rw [hdirty, updatePrice_durable config row.pos tick hbest,
      notePrice_of_not_newBest _ _ hbest]
    cases hclean : row.pos.dirty with
    | true => simp
    | false =>
      rw [h hclean, durable_withFlag_iff]
      cases hflag : row.pos.breakevenActivated with
      | true => simp [hbest]
      | false => simp [hbest]

/-- What is to be passed on stays the same exactly when the price is no new best and the exit
rules answer the flag that is set. -/
theorem durable_updatePrice_iff (config : ChandelierConfig) (pos : TrackedPosition)
    (tick : Tick) :
    durable (updatePrice config pos tick) = durable pos ↔
      ¬NewBest pos tick.price ∧ breakevenAfter config pos tick = pos.breakevenActivated := by
  by_cases hbest : NewBest pos tick.price
  · refine iff_of_false ?_ fun h => h.1 hbest
    intro hsame
    obtain ⟨hhigh, hlow, _, _⟩ := updatePrice_flush config pos tick
    have hhighest := congrArg Durable.highestPrice hsame
    have hlowest := congrArg Durable.lowestPrice hsame
    simp only [durable] at hhighest hlowest
    rw [hhigh] at hhighest
    rw [hlow] at hlowest
    unfold NewBest at hbest
    unfold notePrice at hhighest hlowest
    split at hhighest
    · rename_i haction
      simp only [haction] at hbest
      rw [if_pos hbest] at hhighest
      exact lt_irrefl _ (hbest tick.price hhighest.symm)
    · rename_i haction
      split at hlowest
      · rename_i hbuy
        rw [haction] at hbuy
        cases hbuy
      · simp only [haction] at hbest
        rw [if_pos hbest] at hlowest
        exact lt_irrefl _ (hbest tick.price hlowest.symm)
  · rw [updatePrice_durable config pos tick hbest]
    simp [hbest, durable]

/-- A step from a persisted state leads to one exactly under the condition on the step. -/
theorem step_persisted_iff (config : ChandelierConfig) (m : Manager) (a : Act) (t : Manager)
    (h : Persisted m) (hstep : step config m a = some t) :
    Persisted t ↔ KeepsFlushed config m a := by
  cases a with
  | price ticket tick =>
    cases Option.some.inj hstep
    rw [persisted_changeRow_iff m m.flush ticket _ h]
    unfold KeepsFlushed
    refine forall₂_congr ?_
    intro row hrow
    exact price_persisted_iff config row tick (h ticket row hrow)
  | notify ticket =>
    cases Option.some.inj hstep
    rw [persisted_changeRow_iff m m.flush ticket _ h]
    exact iff_of_true (fun row _ => pass_persisted row) trivial
  | snapshot =>
    unfold step at hstep
    dsimp only at hstep
    split at hstep
    · cases Option.some.inj hstep
      exact iff_of_true h trivial
    · cases hstep
  | hook raises =>
    unfold step at hstep
    dsimp only at hstep
    split at hstep
    · cases Option.some.inj hstep
      rw [persisted_changeRow_iff m _ _ _ h]
      exact iff_of_true (fun row _ => pass_persisted row) trivial
    · cases hstep
  | mark =>
    unfold step at hstep
    dsimp only at hstep
    split at hstep
    · rename_i ticket rest hmarking
      cases Option.some.inj hstep
      rw [persisted_changeRow_iff m _ _ _ h]
      simp only [KeepsFlushed, hmarking]
      exact forall₂_congr fun row _ => mark_persisted_iff row
    · cases hstep

theorem keepsFlushed_of_stuck (config : ChandelierConfig) (m : Manager) (a : Act)
    (hstep : step config m a = none) : KeepsFlushed config m a := by
  cases a with
  | price ticket tick => cases hstep
  | notify ticket => trivial
  | snapshot => trivial
  | hook raises => trivial
  | mark =>
    unfold step at hstep
    dsimp only at hstep
    split at hstep
    · cases hstep
    · rename_i hother
      simp only [KeepsFlushed]

theorem start_persisted (positions : Positions) : Persisted (start positions) := by
  intro ticket row hrow
  simp only [start, Dict.get?_mapValues, Option.mem_def, Option.map_eq_some_iff] at hrow
  obtain ⟨pos, _, rfl⟩ := hrow
  exact fun _ => rfl

/-- Clean positions are persisted in every state of a run exactly when no price takes the flag
from a clean position and no change falls between a hook and its mark. -/
theorem noLostFlush_iff (config : ChandelierConfig) (positions : Positions)
    (labels : List Act) :
    NoLostFlush config positions labels ↔
      Along (step config) (KeepsFlushed config) (start positions) labels := by
  apply forall_reached_iff_along (J := fun _ => True)
  · intro m a t hm _ hstep
    exact ⟨step_persisted_iff config m a t hm hstep, trivial⟩
  · exact keepsFlushed_of_stuck config
  · exact start_persisted positions
  · trivial

/-- A buy from a hundred, as it is registered. -/
def oneBuy : Positions := PositionManager.start.set 1 (trackPosition 1 buyAtHundred)

def priceAt (price : ℚ) : Act :=
  .price 1
    { price := price
      now := 60
      answer := .unreported }

/-- The second of two new peaks falls between the hook and the mark: the position is clean
and the peak has been passed to no hook. -/
theorem flush_lost :
    ¬NoLostFlush {} oneBuy [priceAt 101, .snapshot, .hook false, priceAt 102, .mark] := by
  intro h
  have hlost : ((run (step {}) (start oneBuy)
      [priceAt 101, .snapshot, .hook false, priceAt 102, .mark]).bind fun m =>
        m.rows.get? 1).any (fun row => !decide row.Persisted) = true := by
    decide +kernel
  obtain ⟨row, hrow, hnot⟩ := (Option.any_eq_true _ _).mp hlost
  obtain ⟨m, hrun, hget⟩ := Option.bind_eq_some_iff.mp hrow
  have hpersisted : row.Persisted := h _ [] m (List.append_nil _).symm hrun 1 row hget
  simp [hpersisted] at hnot

end MT5Services.DirtyFlush
