import MT5Services.Dict
import Mathlib.Algebra.Order.Group.Abs
import Mathlib.Data.Rat.Defs
import Mathlib.Algebra.Order.Ring.Rat

/-!
One pass of `reconcile_with_mt5`: the positions that the broker still lists get its volume and
price, the ones it no longer lists are dropped and announced as closed. A position is dropped
before its closed hook is called, and an exception of that hook ends the pass, so neither the
position nor those that come after it are seen to.
-/
namespace MT5Services.Reconciliation

/-- What a hook raises: the two types that the partial close catches, or another one. -/
inductive Raised
  | typeOrValue
  | other
  deriving DecidableEq, Repr

/-- A value that `float` is asked for. -/
inductive Reading
  | missing
  | number (value : ℚ)
  | malformed
  deriving DecidableEq, Repr

inductive CloseSource
  | mt5Missing
  | historyDeals
  deriving DecidableEq, Repr

inductive ExitReason
  | stopLoss
  | takeProfit
  | brokerClose
  | rule (text : String)
  deriving DecidableEq, Repr

/-- A tracked position, as far as the pass reads it. -/
structure Tracked where
  symbol : String
  volume : ℚ
  atrAtEntry : ℚ := 0
  lastExitReason : Option ExitReason := none
  closeSource : Option CloseSource := none
  deriving DecidableEq, Repr

/-- A row of `get_positions`. -/
structure BrokerRow where
  ticket : Option ℤ
  volume : Reading
  priceCurrent : Reading
  deriving DecidableEq, Repr

/-- What `get_position_close_details` gives. -/
inductive CloseDetails
  | raised
  | noDict
  | closePrice (reading : Reading)
  deriving DecidableEq, Repr

/-- The broker during the pass. `positionsOf` gives the rows of a symbol that are read, and
whether the reading then raises; the set of symbols is walked in any order. -/
structure Broker where
  positionsOf : String → List BrokerRow × Bool
  closeDetails : ℤ → CloseDetails
  walk : List String → List String
  walk_perm : ∀ symbols, (walk symbols).Perm symbols

/-- The hooks with what each raises for a ticket; a hook may be absent. -/
structure Hooks where
  closeCallbacks : List (ℤ → Option Raised) := []
  onPositionClosed : Option (ℤ → Option Raised) := none
  onPositionUpdated : Option (ℤ → Option Raised) := none
  updatePrice : ℤ → Option Raised := fun _ => none

/-- What `sync_open_positions` does with a row of the broker. -/
inductive Recovery
  | skipped
  | raises
  | tracked (ticket : ℤ) (pos : Tracked) (onPositionTracked : Option Raised)
  deriving DecidableEq, Repr

inductive Call
  | closeCallback (index : ℕ) (ticket : ℤ) (closePrice : Option ℚ) (raised : Option Raised)
  | positionClosed (ticket : ℤ) (pos : Tracked) (closePrice : Option ℚ) (raised : Option Raised)
  | positionUpdated (ticket : ℤ) (volume : ℚ) (raised : Option Raised)
  | updatePrice (ticket : ℤ) (price : ℚ) (raised : Option Raised)
  deriving DecidableEq, Repr

/-- The tracked positions and the calls of the pass so far. -/
structure Pass where
  positions : Dict ℤ Tracked
  calls : List Call := []

/-- Positions are added; an exception ends the loop and is caught by the pass. -/
def syncOpenPositions (positions : Dict ℤ Tracked) : List Recovery → Dict ℤ Tracked
  | [] => positions
  | .skipped :: rest => syncOpenPositions positions rest
  | .raises :: _ => positions
  | .tracked ticket pos raised :: rest =>
    if positions.contains ticket then syncOpenPositions positions rest
    else if raised.isSome then positions.set ticket pos
    else syncOpenPositions (positions.set ticket pos) rest

def symbols (positions : Dict ℤ Tracked) : List String :=
  (positions.values.map Tracked.symbol).dedup

def noteRow (listed : Dict ℤ BrokerRow) (row : BrokerRow) : Dict ℤ BrokerRow :=
  match row.ticket with
  | some ticket => listed.set ticket row
  | none => listed

/-- The rows of every symbol by ticket. -/
def readPositions (broker : Broker) (positions : Dict ℤ Tracked) : Dict ℤ BrokerRow :=
  (broker.walk (symbols positions)).foldl
    (fun listed symbol => (broker.positionsOf symbol).1.foldl noteRow listed) Dict.empty

/-- The symbol is one of `failed_symbols`. -/
def failed (broker : Broker) (symbol : String) : Bool := (broker.positionsOf symbol).2

def closeReading : CloseDetails → Option ℚ × CloseSource
  | .closePrice (.number price) => (some price, .historyDeals)
  | _ => (none, .mt5Missing)

/-- The stop and the target are read from attributes that a tracked position does not have,
so both are none. -/
def inferExitReasonFromPrice (pos : Tracked) (currentStopLoss currentTakeProfit : Option ℚ)
    (closePrice : Option ℚ) : ExitReason :=
  let tolerance := max (pos.atrAtEntry * (1 / 5)) (3 / 2)
  match closePrice with
  | none => .brokerClose
  | some price =>
    if currentStopLoss.any fun sl => |price - sl| ≤ tolerance then .stopLoss
    else if currentTakeProfit.any fun tp => |price - tp| ≤ tolerance then .takeProfit
    else .brokerClose

/-- The position as it is handed to the hooks of a close. -/
def closedPosition (details : CloseDetails) (pos : Tracked) : Tracked :=
  { pos with
    closeSource := some (closeReading details).2
    lastExitReason :=
      some (pos.lastExitReason.getD
        (inferExitReasonFromPrice pos none none (closeReading details).1)) }

section Visit

variable (hooks : Hooks) (broker : Broker) (listed : Dict ℤ BrokerRow)

/-- The position is dropped, then the callbacks run, each guarded, and last the hook. -/
def dropPosition (pass : Pass) (ticket : ℤ) (pos : Tracked) : Pass × Bool :=
  let details := broker.closeDetails ticket
  let closePrice := (closeReading details).1
  let dropped : Pass :=
    { positions := pass.positions.pop ticket
      calls := pass.calls ++ hooks.closeCallbacks.mapIdx fun index callback =>
        .closeCallback index ticket closePrice (callback ticket) }
  match hooks.onPositionClosed with
  | none => (dropped, true)
  | some hook =>
    ({ dropped with
        calls := dropped.calls ++
          [.positionClosed ticket (closedPosition details pos) closePrice (hook ticket)] },
      (hook ticket).isNone)

/-- The broker's volume of a position that has been closed in part. -/
def partialVolume (pos : Tracked) (row : BrokerRow) : Option ℚ :=
  match row.volume with
  | .number volume =>
    if 0 < volume ∧ 1 / 1000000 < |volume - pos.volume| then some volume else none
  | _ => none

/-- Of the exceptions of the updated hook two types are caught. -/
def notePartialClose (pass : Pass) (ticket : ℤ) (pos : Tracked) (row : BrokerRow) : Pass × Bool :=
  match partialVolume pos row with
  | none => (pass, true)
  | some volume =>
    let changed : Pass := { pass with positions := pass.positions.set ticket { pos with volume } }
    match hooks.onPositionUpdated with
    | none => (changed, true)
    | some hook =>
      ({ changed with calls := changed.calls ++ [.positionUpdated ticket volume (hook ticket)] },
        hook ticket ≠ some .other)

/-- `update_price` is guarded. -/
def notePrice (pass : Pass) (ticket : ℤ) (row : BrokerRow) : Pass :=
  match row.priceCurrent with
  | .number price =>
    { pass with calls := pass.calls ++ [.updatePrice ticket price (hooks.updatePrice ticket)] }
  | _ => pass

/-- One round of the loop, and whether it comes to its end. -/
def visit (pass : Pass) (ticket : ℤ) (pos : Tracked) : Pass × Bool :=
  if failed broker pos.symbol then (pass, true)
  else
    match listed.get? ticket with
    | none => dropPosition hooks broker pass ticket pos
    | some row =>
      match notePartialClose hooks pass ticket pos row with
      | (noted, true) => (notePrice hooks noted ticket row, true)
      | (noted, false) => (noted, false)

/-- An exception ends the loop and leaves the pass. -/
def reconcileEach (pass : Pass) : List (ℤ × Tracked) → Pass × Bool
  | [] => (pass, true)
  | (ticket, pos) :: rest =>
    match visit hooks broker listed pass ticket pos with
    | (next, true) => reconcileEach next rest
    | (next, false) => (next, false)

end Visit

/-- The pass over the positions that are tracked after the recovery. -/
def reconcileWithMt5 (hooks : Hooks) (broker : Broker) (recovered : List Recovery)
    (positions : Dict ℤ Tracked) : Pass × Bool :=
  let tracked := syncOpenPositions positions recovered
  reconcileEach hooks broker (readPositions broker tracked) { positions := tracked } tracked.items

section Claims

variable (hooks : Hooks) (broker : Broker) (listed : Dict ℤ BrokerRow)

/-- The symbol was read and the ticket is not among the rows. -/
def Absent (e : ℤ × Tracked) : Prop :=
  failed broker e.2.symbol = false ∧ listed.get? e.1 = none

def Listed (e : ℤ × Tracked) : Prop :=
  failed broker e.2.symbol = false ∧ listed.get? e.1 ≠ none

/-- The closed hook raises for an absent ticket, or the updated hook raises an exception that is
not caught for a ticket that has been closed in part. -/
def Breaks (e : ℤ × Tracked) : Prop :=
  failed broker e.2.symbol = false ∧
    ((listed.get? e.1 = none ∧ ∃ hook ∈ hooks.onPositionClosed, hook e.1 ≠ none) ∨
      ∃ row ∈ listed.get? e.1, partialVolume e.2 row ≠ none ∧
        ∃ hook ∈ hooks.onPositionUpdated, hook e.1 = some .other)

/-- A listed ticket has a price. -/
def Quoted (e : ℤ × Tracked) : Prop :=
  ∀ row ∈ listed.get? e.1, ∃ price, row.priceCurrent = .number price

/-- Absent tickets are dropped and announced, the others get their price, and no ticket is
dropped without a closed hook that has returned. -/
structure Reconciled (others : ℤ × Tracked → Prop) (tracked : List (ℤ × Tracked)) (pass : Pass) :
    Prop where
  closed : ∀ e ∈ tracked, Absent broker listed e → pass.positions.get? e.1 = none ∧
    (hooks.onPositionClosed ≠ none →
      ∃ pos closePrice raised, .positionClosed e.1 pos closePrice raised ∈ pass.calls)
  priced : ∀ e ∈ tracked, others e → ∃ price raised, .updatePrice e.1 price raised ∈ pass.calls
  kept : ∀ e ∈ tracked, pass.positions.get? e.1 = none → hooks.onPositionClosed ≠ none →
    ∃ pos closePrice, .positionClosed e.1 pos closePrice none ∈ pass.calls

end Claims

section Round

variable (hooks : Hooks) (broker : Broker) (listed : Dict ℤ BrokerRow) (pass : Pass) (ticket : ℤ)
  (pos : Tracked) (row : BrokerRow)

def closedCalls : List Call :=
  let details := broker.closeDetails ticket
  let closePrice := (closeReading details).1
  (hooks.closeCallbacks.mapIdx fun index callback =>
      .closeCallback index ticket closePrice (callback ticket)) ++
    (hooks.onPositionClosed.toList.map fun hook =>
      .positionClosed ticket (closedPosition details pos) closePrice (hook ticket))

theorem dropPosition_eq :
    dropPosition hooks broker pass ticket pos =
      (⟨pass.positions.pop ticket, pass.calls ++ closedCalls hooks broker ticket pos⟩,
        !hooks.onPositionClosed.any fun hook => (hook ticket).isSome) := by
  unfold dropPosition closedCalls
  cases hooks.onPositionClosed with
  | none => simp
  | some hook =>
    cases hraised : hook ticket with
    | none => simp [hraised]
    | some raised => simp [hraised]

def updatedCalls : List Call :=
  match partialVolume pos row with
  | none => []
  | some volume =>
    hooks.onPositionUpdated.toList.map fun hook => .positionUpdated ticket volume (hook ticket)

/-- An exception of the updated hook leaves the pass. -/
def interrupted : Bool :=
  (partialVolume pos row).isSome && hooks.onPositionUpdated.any fun hook => hook ticket = some .other

theorem notePartialClose_eq :
    (notePartialClose hooks pass ticket pos row).1.calls =
        pass.calls ++ updatedCalls hooks ticket pos row ∧
      (notePartialClose hooks pass ticket pos row).2 = !interrupted hooks ticket pos row ∧
      ((notePartialClose hooks pass ticket pos row).1.positions = pass.positions ∨
        ∃ changed, (notePartialClose hooks pass ticket pos row).1.positions =
          pass.positions.set ticket changed) := by
  unfold notePartialClose updatedCalls interrupted
  cases partialVolume pos row with
  | none => simp
  | some volume =>
    cases hooks.onPositionUpdated with
    | none => exact ⟨by simp, rfl, Or.inr ⟨_, rfl⟩⟩
    | some hook => exact ⟨by simp, by simp, Or.inr ⟨_, rfl⟩⟩

def priceCalls : List Call :=
  match row.priceCurrent with
  | .number price => [.updatePrice ticket price (hooks.updatePrice ticket)]
  | _ => []

theorem notePrice_eq :
    notePrice hooks pass ticket row =
      { pass with calls := pass.calls ++ priceCalls hooks ticket row } := by
  unfold notePrice priceCalls
  cases row.priceCurrent with
  | missing => simp
  | number price => rfl
  | malformed => simp

/-- The calls of a round. -/
def callsOf (e : ℤ × Tracked) : List Call :=
  if failed broker e.2.symbol then []
  else
    match listed.get? e.1 with
    | none => closedCalls hooks broker e.1 e.2
    | some row =>
      updatedCalls hooks e.1 e.2 row ++
        if interrupted hooks e.1 e.2 row then [] else priceCalls hooks e.1 row

theorem visit_failed (hfailed : failed broker pos.symbol = true) :
    visit hooks broker listed pass ticket pos = (pass, true) := if_pos hfailed

theorem visit_absent (hfailed : failed broker pos.symbol = false)
    (habsent : listed.get? ticket = none) :
    visit hooks broker listed pass ticket pos = dropPosition hooks broker pass ticket pos := by
  unfold visit
  rw [hfailed, if_neg Bool.false_ne_true, habsent]

theorem visit_listed {row : BrokerRow} (hfailed : failed broker pos.symbol = false)
    (hrow : listed.get? ticket = some row) :
    visit hooks broker listed pass ticket pos =
      (if interrupted hooks ticket pos row then (notePartialClose hooks pass ticket pos row).1
        else notePrice hooks (notePartialClose hooks pass ticket pos row).1 ticket row,
        !interrupted hooks ticket pos row) := by
  have hflag := (notePartialClose_eq hooks pass ticket pos row).2.1
  unfold visit
  rw [hfailed, if_neg Bool.false_ne_true, hrow]
  dsimp only
  cases hnoted : notePartialClose hooks pass ticket pos row with
  | mk noted goesOn =>
    rw [hnoted] at hflag
    cases hinterrupted : interrupted hooks ticket pos row with
    | true =>
      have hbroken : goesOn = false := by rw [← Bool.not_true, ← hinterrupted]; exact hflag
      subst hbroken
      rfl
    | false =>
      have hgoes : goesOn = true := by rw [← Bool.not_false, ← hinterrupted]; exact hflag
      subst hgoes
      rfl

theorem visit_calls :
    (visit hooks broker listed pass ticket pos).1.calls =
      pass.calls ++ callsOf hooks broker listed (ticket, pos) := by
  unfold callsOf
  dsimp only
  cases hfailed : failed broker pos.symbol with
  | true => simp [visit_failed hooks broker listed pass ticket pos hfailed]
  | false =>
    rw [if_neg Bool.false_ne_true]
    cases hrow : listed.get? ticket with
    | none => rw [visit_absent hooks broker listed pass ticket pos hfailed hrow, dropPosition_eq]
    | some row =>
      have hcalls := (notePartialClose_eq hooks pass ticket pos row).1
      rw [visit_listed hooks broker listed pass ticket pos hfailed hrow]
      dsimp only
      split_ifs
      · rw [hcalls, List.append_nil]
      · rw [notePrice_eq]
        dsimp only
        rw [hcalls, List.append_assoc]

/-- The round comes to its end exactly when no hook breaks it off. -/
theorem visit_goes_on :
    (visit hooks broker listed pass ticket pos).2 = true ↔
      ¬Breaks hooks broker listed (ticket, pos) := by
  unfold Breaks
  dsimp only
  cases hfailed : failed broker pos.symbol with
  | true => simp [visit_failed hooks broker listed pass ticket pos hfailed]
  | false =>
    cases hrow : listed.get? ticket with
    | none =>
      rw [visit_absent hooks broker listed pass ticket pos hfailed hrow, dropPosition_eq]
      cases hooks.onPositionClosed with
      | none => simp
      | some hook => simp
    | some row =>
      rw [visit_listed hooks broker listed pass ticket pos hfailed hrow]
      unfold interrupted
      cases hvolume : partialVolume pos row with
      | none => simp [hvolume]
      | some volume =>
        cases hooks.onPositionUpdated with
        | none => simp
        | some hook => simp [hvolume]

/-- A round drops an absent position and no other. -/
theorem visit_positions (htracked : pass.positions.get? ticket ≠ none) (key : ℤ) :
    (visit hooks broker listed pass ticket pos).1.positions.get? key = none ↔
      pass.positions.get? key = none ∨ (key = ticket ∧ Absent broker listed (ticket, pos)) := by
  unfold Absent
  dsimp only
  cases hfailed : failed broker pos.symbol with
  | true => simp [visit_failed hooks broker listed pass ticket pos hfailed]
  | false =>
    cases hrow : listed.get? ticket with
    | none =>
      rw [visit_absent hooks broker listed pass ticket pos hfailed hrow, dropPosition_eq]
      by_cases hkey : key = ticket
      · simp [hkey]
      · simp [hkey]
    | some row =>
      have hsame : (visit hooks broker listed pass ticket pos).1.positions =
          (notePartialClose hooks pass ticket pos row).1.positions := by
        rw [visit_listed hooks broker listed pass ticket pos hfailed hrow]
        dsimp only
        split_ifs
        · rfl
        · rw [notePrice_eq]
      rw [hsame]
      rcases (notePartialClose_eq hooks pass ticket pos row).2.2 with hold | ⟨changed, hset⟩
      · rw [hold]
        simp
      · rw [hset, Dict.get?_set]
        split_ifs with hkey
        · rw [hkey]
          simp [htracked]
        · simp

end Round

section Calls

variable {hooks : Hooks} {broker : Broker} {listed : Dict ℤ BrokerRow} {e : ℤ × Tracked}
  {ticket : ℤ}

variable {call : Call}

theorem eq_of_mem_closedCalls {pos : Tracked} (hcall : call ∈ closedCalls hooks broker ticket pos) :
    (∃ index closePrice raised, call = .closeCallback index ticket closePrice raised) ∨
      ∃ hook ∈ hooks.onPositionClosed, ∃ entered closePrice,
        call = .positionClosed ticket entered closePrice (hook ticket) := by
  unfold closedCalls at hcall
  rcases List.mem_append.mp hcall with hcallback | hclosed
  · obtain ⟨index, hindex, hcall⟩ := List.mem_mapIdx.mp hcallback
    exact Or.inl ⟨index, _, _, hcall.symm⟩
  · obtain ⟨hook, hhook, hcall⟩ := List.mem_map.mp hclosed
    exact Or.inr ⟨hook, Option.mem_toList.mp hhook, _, _, hcall.symm⟩

theorem positionClosed_mem_closedCalls (broker : Broker) (e : ℤ × Tracked)
    {hook : ℤ → Option Raised} (hhook : hook ∈ hooks.onPositionClosed) :
    ∃ entered closePrice, .positionClosed e.1 entered closePrice (hook e.1) ∈
      closedCalls hooks broker e.1 e.2 :=
  ⟨_, _, List.mem_append_right _
    (List.mem_map.mpr ⟨hook, Option.mem_toList.mpr hhook, rfl⟩)⟩

variable {row : BrokerRow}

theorem eq_of_mem_updatedCalls {pos : Tracked} (hcall : call ∈ updatedCalls hooks ticket pos row) :
    ∃ volume raised, call = .positionUpdated ticket volume raised := by
  unfold updatedCalls at hcall
  cases hvolume : partialVolume pos row with
  | none => simp [hvolume] at hcall
  | some volume =>
    rw [hvolume, List.mem_map] at hcall
    obtain ⟨hook, -, hhook⟩ := hcall
    exact ⟨volume, _, hhook.symm⟩

theorem mem_priceCalls : call ∈ priceCalls hooks ticket row ↔
      ∃ price, row.priceCurrent = .number price ∧
        call = .updatePrice ticket price (hooks.updatePrice ticket) := by
  unfold priceCalls
  cases row.priceCurrent with
  | missing => simp
  | number price => simp
  | malformed => simp

theorem callsOf_absent (habsent : Absent broker listed e) :
    callsOf hooks broker listed e = closedCalls hooks broker e.1 e.2 := by
  unfold callsOf
  rw [habsent.1, if_neg Bool.false_ne_true, habsent.2]

theorem callsOf_listed (hfailed : failed broker e.2.symbol = false)
    (hrow : listed.get? e.1 = some row) :
    callsOf hooks broker listed e = updatedCalls hooks e.1 e.2 row ++
      if interrupted hooks e.1 e.2 row then [] else priceCalls hooks e.1 row := by
  unfold callsOf
  rw [hfailed, if_neg Bool.false_ne_true, hrow]

/-- A call of a round is one of a close, or one about a row of the broker. -/
theorem mem_callsOf (hcall : call ∈ callsOf hooks broker listed e) :
    (Absent broker listed e ∧ call ∈ closedCalls hooks broker e.1 e.2) ∨
      ∃ row, failed broker e.2.symbol = false ∧ listed.get? e.1 = some row ∧
        (call ∈ updatedCalls hooks e.1 e.2 row ∨
          (interrupted hooks e.1 e.2 row = false ∧ call ∈ priceCalls hooks e.1 row)) := by
  cases hfailed : failed broker e.2.symbol with
  | true => simp [callsOf, hfailed] at hcall
  | false =>
    cases hrow : listed.get? e.1 with
    | none =>
      rw [callsOf_absent ⟨hfailed, hrow⟩] at hcall
      exact Or.inl ⟨⟨hfailed, hrow⟩, hcall⟩
    | some row =>
      rw [callsOf_listed hfailed hrow, List.mem_append] at hcall
      refine Or.inr ⟨row, rfl, rfl, hcall.imp_right ?_⟩
      intro hprice
      split_ifs at hprice with hinterrupted
      · simp at hprice
      · exact ⟨Bool.eq_false_iff.mpr hinterrupted, hprice⟩

/-- The closed hook is called for an absent ticket, with what it raises. -/
theorem closed_of_mem_callsOf {entered : Tracked} {closePrice : Option ℚ}
    {raised : Option Raised}
    (hcall : .positionClosed ticket entered closePrice raised ∈ callsOf hooks broker listed e) :
    ticket = e.1 ∧ ∃ hook ∈ hooks.onPositionClosed, hook e.1 = raised := by
  rcases mem_callsOf hcall with ⟨-, hclosed⟩ | ⟨row, -, -, hupdated | ⟨-, hpriced⟩⟩
  · rcases eq_of_mem_closedCalls hclosed with ⟨_, _, _, hcall⟩ | ⟨hook, hhook, _, _, hcall⟩
    · cases hcall
    · cases hcall
      exact ⟨rfl, hook, hhook, rfl⟩
  · obtain ⟨volume, _, hcall⟩ := eq_of_mem_updatedCalls hupdated
    cases hcall
  · obtain ⟨price, -, hcall⟩ := mem_priceCalls.mp hpriced
    cases hcall

/-- A price is handed on for a listed ticket whose round is not interrupted. -/
theorem priced_of_mem_callsOf {price : ℚ} {raised : Option Raised}
    (hcall : .updatePrice ticket price raised ∈ callsOf hooks broker listed e) :
    ticket = e.1 ∧ ∃ row, failed broker e.2.symbol = false ∧ listed.get? e.1 = some row ∧
      interrupted hooks e.1 e.2 row = false ∧ row.priceCurrent = .number price := by
  rcases mem_callsOf hcall with ⟨-, hclosed⟩ | ⟨row, hfailed, hrow, hupdated | ⟨hgoes, hpriced⟩⟩
  · rcases eq_of_mem_closedCalls hclosed with ⟨_, _, _, hcall⟩ | ⟨hook, -, _, _, hcall⟩
    · cases hcall
    · cases hcall
  · obtain ⟨volume, _, hcall⟩ := eq_of_mem_updatedCalls hupdated
    cases hcall
  · obtain ⟨given, hprice, hcall⟩ := mem_priceCalls.mp hpriced
    cases hcall
    exact ⟨rfl, row, hfailed, hrow, hgoes, hprice⟩

/-- The updated hook interrupts the round of a listed ticket. -/
theorem breaks_iff_interrupted (hfailed : failed broker e.2.symbol = false)
    (hrow : listed.get? e.1 = some row) :
    Breaks hooks broker listed e ↔ interrupted hooks e.1 e.2 row = true := by
  unfold Breaks interrupted
  cases hvolume : partialVolume e.2 row with
  | none => simp [hfailed, hrow, hvolume]
  | some volume =>
    cases hooks.onPositionUpdated with
    | none => simp [hfailed, hrow]
    | some hook => simp [hfailed, hrow, hvolume]

end Calls

section Loop

variable (hooks : Hooks) (broker : Broker) (listed : Dict ℤ BrokerRow)

/-- The rounds that take place, the one that is broken off included. -/
structure Visited (pass last : Pass) (visited : List (ℤ × Tracked)) : Prop where
  calls : last.calls = pass.calls ++ visited.flatMap (callsOf hooks broker listed)
  dropped : ∀ key, last.positions.get? key = none ↔
    pass.positions.get? key = none ∨ ∃ e ∈ visited, e.1 = key ∧ Absent broker listed e

theorem Visited.nil (pass : Pass) : Visited hooks broker listed pass pass [] :=
  ⟨by simp, by simp⟩

theorem Visited.cons {pass next last : Pass} {e : ℤ × Tracked} {visited : List (ℤ × Tracked)}
    (hfirst : Visited hooks broker listed pass next [e])
    (hrest : Visited hooks broker listed next last visited) :
    Visited hooks broker listed pass last (e :: visited) where
  calls := by
    rw [hrest.calls, hfirst.calls, List.append_assoc, ← List.flatMap_append]
    rfl
  dropped := by
    intro key
    rw [hrest.dropped, hfirst.dropped]
    simp only [List.mem_cons, List.not_mem_nil, or_false, exists_eq_or_imp, exists_eq_left,
      or_assoc]

theorem visit_visited {pass : Pass} {e : ℤ × Tracked}
    (htracked : pass.positions.get? e.1 ≠ none) :
    Visited hooks broker listed pass (visit hooks broker listed pass e.1 e.2).1 [e] where
  calls := by
    rw [visit_calls, List.flatMap_singleton]
  dropped := by
    intro key
    rw [visit_positions hooks broker listed pass e.1 e.2 htracked]
    simp only [List.mem_singleton, exists_eq_left, eq_comm (a := key)]

/-- The loop goes over all entries, or up to one that breaks it off. -/
theorem reconcileEach_visited (pass : Pass) {entries : List (ℤ × Tracked)}
    (hnodup : (entries.map Prod.fst).Nodup)
    (htracked : ∀ e ∈ entries, pass.positions.get? e.1 ≠ none) :
    ∃ visited rest, entries = visited ++ rest ∧
      Visited hooks broker listed pass (reconcileEach hooks broker listed pass entries).1 visited ∧
      ((rest = [] ∧ ∀ e ∈ entries, ¬Breaks hooks broker listed e) ∨
        ∃ e ∈ visited, Breaks hooks broker listed e) := by
  induction entries generalizing pass with
  | nil => exact ⟨[], [], rfl, Visited.nil hooks broker listed pass, Or.inl ⟨rfl, by simp⟩⟩
  | cons e entries ih =>
    rw [List.map_cons, List.nodup_cons] at hnodup
    have hfirst := visit_visited hooks broker listed (htracked e List.mem_cons_self)
    have hgoes := visit_goes_on hooks broker listed pass e.1 e.2
    cases hvisit : visit hooks broker listed pass e.1 e.2 with
    | mk next goesOn =>
      rw [hvisit] at hfirst hgoes
      cases goesOn with
      | false =>
        have hloop : reconcileEach hooks broker listed pass (e :: entries) = (next, false) := by
          simp only [reconcileEach, hvisit]
        rw [hloop]
        refine ⟨[e], entries, rfl, hfirst, Or.inr ⟨e, List.mem_singleton_self e, ?_⟩⟩
        exact not_not.mp fun hfine => Bool.false_ne_true (hgoes.mpr hfine)
      | true =>
        have hloop : reconcileEach hooks broker listed pass (e :: entries) =
            reconcileEach hooks broker listed next entries := by
          simp only [reconcileEach, hvisit]
        have hstill : ∀ other ∈ entries, next.positions.get? other.1 ≠ none := by
          intro other hother hgone
          rcases (hfirst.dropped other.1).mp hgone with hbefore | ⟨_, hmem, hkey, -⟩
          · exact htracked other (List.mem_cons_of_mem e hother) hbefore
          · rw [List.mem_singleton.mp hmem] at hkey
            exact hnodup.1 (hkey ▸ List.mem_map_of_mem hother)
        obtain ⟨visited, rest, hsplit, hvisited, hend⟩ := ih next hnodup.2 hstill
        rw [hloop]
        refine ⟨e :: visited, rest, by rw [hsplit, List.cons_append],
          hfirst.cons hooks broker listed hvisited, hend.imp ?_ ?_⟩
        · intro ⟨hrest, hfine⟩
          refine ⟨hrest, ?_⟩
          intro other hother
          rcases List.mem_cons.mp hother with rfl | hother
          · exact hgoes.mp rfl
          · exact hfine other hother
        · intro ⟨other, hother, hbreaks⟩
          exact ⟨other, List.mem_cons_of_mem e hother, hbreaks⟩

end Loop

section Main

variable {hooks : Hooks} {broker : Broker} {listed : Dict ℤ BrokerRow}
  {others : ℤ × Tracked → Prop} {tracked : List (ℤ × Tracked)} {pass last : Pass}
  {visited : List (ℤ × Tracked)}

/-- A round that is broken off leaves a dropped position without a hook that has returned, or a
listed ticket without its price. -/
theorem not_breaks_of_reconciled (hnodup : (tracked.map Prod.fst).Nodup)
    (hsub : ∀ e ∈ visited, e ∈ tracked) (hcalls : pass.calls = [])
    (hvisited : Visited hooks broker listed pass last visited)
    (hothers : ∀ e, Listed broker listed e → others e)
    (h : Reconciled hooks broker listed others tracked last) :
    ∀ e ∈ visited, ¬Breaks hooks broker listed e := by
  intro e he hbreaks
  have hlog : last.calls = visited.flatMap (callsOf hooks broker listed) := by
    rw [hvisited.calls, hcalls, List.nil_append]
  obtain ⟨hfailed, ⟨hrow, hook, hhook, hraised⟩ | ⟨row, hrow, hvolume, hook, hhook, hother⟩⟩ :=
    hbreaks
  · have hgone : last.positions.get? e.1 = none :=
      (hvisited.dropped e.1).mpr (Or.inr ⟨e, he, rfl, hfailed, hrow⟩)
    have hset : hooks.onPositionClosed ≠ none := by
      rw [Option.mem_def.mp hhook]
      exact Option.some_ne_none hook
    obtain ⟨pos, closePrice, hcall⟩ := h.kept e (hsub e he) hgone hset
    rw [hlog, List.mem_flatMap] at hcall
    obtain ⟨other, hother, hcall⟩ := hcall
    obtain ⟨hkey, called, hcalled, hfine⟩ := closed_of_mem_callsOf hcall
    have hsame : called = hook := Option.mem_unique hcalled hhook
    rw [hsame, ← hkey] at hfine
    exact hraised hfine
  · have hlisted : Listed broker listed e := ⟨hfailed, by simp [Option.mem_def.mp hrow]⟩
    obtain ⟨price, raised, hcall⟩ := h.priced e (hsub e he) (hothers e hlisted)
    rw [hlog, List.mem_flatMap] at hcall
    obtain ⟨other, hmem, hcall⟩ := hcall
    obtain ⟨hkey, found, -, hfound, hgoes, -⟩ := priced_of_mem_callsOf hcall
    have hsame : e = other := List.inj_on_of_nodup_map hnodup (hsub e he) (hsub other hmem) hkey
    subst hsame
    have hinterrupted := (breaks_iff_interrupted hfailed hfound).mp
      ⟨hfailed, Or.inr ⟨row, hrow, hvolume, hook, hhook, hother⟩⟩
    rw [hinterrupted] at hgoes
    exact Bool.noConfusion hgoes

/-- Without a break every entry is seen to. -/
theorem reconciled_of_visited (hpass : ∀ e ∈ tracked, pass.positions.get? e.1 ≠ none)
    (hvisited : Visited hooks broker listed pass last tracked)
    (hfine : ∀ e ∈ tracked, ¬Breaks hooks broker listed e)
    (hread : ∀ e ∈ tracked, others e → Listed broker listed e)
    (hquoted : ∀ e ∈ tracked, others e → Quoted listed e) :
    Reconciled hooks broker listed others tracked last := by
  have hmem : ∀ e ∈ tracked, ∀ call ∈ callsOf hooks broker listed e, call ∈ last.calls := by
    intro e he call hcall
    rw [hvisited.calls]
    exact List.mem_append_right _ (List.mem_flatMap.mpr ⟨e, he, hcall⟩)
  refine ⟨?_, ?_, ?_⟩
  · intro e he habsent
    refine ⟨(hvisited.dropped e.1).mpr (Or.inr ⟨e, he, rfl, habsent⟩), ?_⟩
    intro hset
    obtain ⟨hook, hhook⟩ := Option.ne_none_iff_exists'.mp hset
    obtain ⟨pos, closePrice, hcall⟩ :=
      positionClosed_mem_closedCalls broker e hhook
    rw [← callsOf_absent habsent] at hcall
    exact ⟨pos, closePrice, _, hmem e he _ hcall⟩
  · intro e he hother
    obtain ⟨hfailed, hlisted⟩ := hread e he hother
    obtain ⟨row, hrow⟩ := Option.ne_none_iff_exists'.mp hlisted
    obtain ⟨price, hprice⟩ := hquoted e he hother row hrow
    have hgoes : interrupted hooks e.1 e.2 row = false :=
      Bool.eq_false_iff.mpr fun h => hfine e he ((breaks_iff_interrupted hfailed hrow).mpr h)
    refine ⟨price, hooks.updatePrice e.1, hmem e he _ ?_⟩
    rw [callsOf_listed hfailed hrow, hgoes, if_neg Bool.false_ne_true]
    exact List.mem_append_right _ (mem_priceCalls.mpr ⟨price, hprice, rfl⟩)
  · intro e he hgone hset
    obtain ⟨hook, hhook⟩ := Option.ne_none_iff_exists'.mp hset
    rcases (hvisited.dropped e.1).mp hgone with hbefore | ⟨other, hother, hkey, habsent⟩
    · exact absurd hbefore (hpass e he)
    · obtain ⟨pos, closePrice, hcall⟩ :=
        positionClosed_mem_closedCalls broker other hhook
      have hreturned : hook other.1 = none := by
        by_contra hraised
        exact hfine other hother ⟨habsent.1, Or.inl ⟨habsent.2, hook, hhook, hraised⟩⟩
      rw [← callsOf_absent habsent, hreturned] at hcall
      exact ⟨pos, closePrice, hkey ▸ hmem other hother _ hcall⟩

end Main

/-- One reading of the pass for both meanings of the other tickets. -/
theorem reconciled_iff_of_others (hooks : Hooks) (broker : Broker) (recovered : List Recovery)
    (positions : Dict ℤ Tracked) (others : Dict ℤ BrokerRow → ℤ × Tracked → Prop)
    (hlisted : ∀ listed e, Listed broker listed e → others listed e) :
    let tracked := syncOpenPositions positions recovered
    let listed := readPositions broker tracked
    Reconciled hooks broker listed (others listed) tracked.items
        (reconcileWithMt5 hooks broker recovered positions).1 ↔
      (∀ e ∈ tracked.items, ¬Breaks hooks broker listed e) ∧
        ∀ e ∈ tracked.items, others listed e → Listed broker listed e ∧ Quoted listed e := by
  intro tracked listed
  have hpresent : ∀ e ∈ tracked.items, tracked.get? e.1 ≠ none := by
    intro e he
    rw [(Dict.mem_items_iff_get? tracked e.1 e.2).mp he]
    exact Option.some_ne_none e.2
  obtain ⟨visited, rest, hsplit, hvisited, hend⟩ :=
    reconcileEach_visited hooks broker listed { positions := tracked } tracked.nodup hpresent
  have hsub : ∀ e ∈ visited, e ∈ tracked.items := by
    intro e he
    rw [hsplit]
    exact List.mem_append_left rest he
  constructor
  · intro h
    have hgoes := not_breaks_of_reconciled tracked.nodup hsub rfl hvisited (hlisted listed) h
    rcases hend with ⟨-, hfine⟩ | ⟨e, he, hbreaks⟩
    · refine ⟨hfine, ?_⟩
      intro e he hother
      obtain ⟨price, raised, hcall⟩ := h.priced e he hother
      have hlog : .updatePrice e.1 price raised ∈
          visited.flatMap (callsOf hooks broker listed) := by
        have hcalls := hvisited.calls
        rw [List.nil_append] at hcalls
        exact hcalls ▸ hcall
      obtain ⟨found, hmem, hcall⟩ := List.mem_flatMap.mp hlog
      obtain ⟨hkey, row, hfailed, hrow, -, hprice⟩ := priced_of_mem_callsOf hcall
      have hsame : e = found := List.inj_on_of_nodup_map tracked.nodup he (hsub found hmem) hkey
      subst hsame
      refine ⟨⟨hfailed, by rw [hrow]; exact Option.some_ne_none row⟩, ?_⟩
      intro other hother
      have hrows : other = row := Option.some.inj (hother.symm.trans hrow)
      exact ⟨price, hrows ▸ hprice⟩
    · exact absurd hbreaks (hgoes e he)
  · intro ⟨hfine, hquoted⟩
    have hall : visited = tracked.items := by
      rcases hend with ⟨hrest, -⟩ | ⟨e, he, hbreaks⟩
      · rw [hsplit, hrest, List.append_nil]
      · exact absurd hbreaks (hfine e (hsub e he))
    rw [hall] at hvisited
    exact reconciled_of_visited hpresent hvisited hfine (fun e he h => (hquoted e he h).1)
      fun e he h => (hquoted e he h).2

/-- The pass does its work exactly when no hook breaks it off and every listed ticket has a
price; were the tickets of unread symbols to have their price too, every symbol would have to be
read. -/
theorem reconciled_iff (hooks : Hooks) (broker : Broker) (recovered : List Recovery)
    (positions : Dict ℤ Tracked) :
    let tracked := syncOpenPositions positions recovered
    let listed := readPositions broker tracked
    let pass := (reconcileWithMt5 hooks broker recovered positions).1
    (Reconciled hooks broker listed (Listed broker listed) tracked.items pass ↔
      (∀ e ∈ tracked.items, ¬Breaks hooks broker listed e) ∧
        ∀ e ∈ tracked.items, Listed broker listed e → Quoted listed e) ∧
      (Reconciled hooks broker listed (fun e => ¬Absent broker listed e) tracked.items pass ↔
        (∀ e ∈ tracked.items, ¬Breaks hooks broker listed e) ∧
          (∀ e ∈ tracked.items, Listed broker listed e → Quoted listed e) ∧
          ∀ e ∈ tracked.items, failed broker e.2.symbol = false) := by
  intro tracked listed pass
  constructor
  · refine (reconciled_iff_of_others hooks broker recovered positions
      (fun listed => Listed broker listed) fun _ _ h => h).trans (and_congr_right fun _ => ?_)
    exact forall₂_congr fun e _ => forall_congr' fun h => and_iff_right h
  · refine (reconciled_iff_of_others hooks broker recovered positions
      (fun listed e => ¬Absent broker listed e)
      fun _ _ h habsent => h.2 habsent.2).trans (and_congr_right fun _ => ⟨?_, ?_⟩)
    · intro h
      refine ⟨fun e he hlisted => (h e he fun habsent => hlisted.2 habsent.2).2, ?_⟩
      intro e he
      by_cases habsent : Absent broker listed e
      · exact habsent.1
      · exact (h e he habsent).1.1
    · intro ⟨hquoted, hread⟩ e he hother
      have hlisted : Listed broker listed e := ⟨hread e he, fun hrow => hother ⟨hread e he, hrow⟩⟩
      exact ⟨hlisted, hquoted e he hlisted⟩

/-- Two tickets are gone at the broker and the closed hook raises for the first: it is dropped
and the second is not seen to. -/
theorem closed_hook_cuts_off_the_pass :
    ¬∀ (hooks : Hooks) (broker : Broker) (recovered : List Recovery)
      (positions : Dict ℤ Tracked),
      let tracked := syncOpenPositions positions recovered
      let listed := readPositions broker tracked
      Reconciled hooks broker listed (Listed broker listed) tracked.items
        (reconcileWithMt5 hooks broker recovered positions).1 := by
  intro h
  let broker : Broker := ⟨fun _ => ([], false), fun _ => .noDict, id, fun _ => List.Perm.refl _⟩
  let hooks : Hooks :=
    { onPositionClosed := some fun ticket => if ticket = 7 then some .other else none }
  let positions : Dict ℤ Tracked :=
    (Dict.empty.set 7 { symbol := "XAUUSD", volume := 1 }).set 8 { symbol := "XAUUSD", volume := 1 }
  have hgone := (h hooks broker [] positions).closed (8, { symbol := "XAUUSD", volume := 1 })
    (by decide) ⟨rfl, rfl⟩
  have hkept : (reconcileWithMt5 hooks broker [] positions).1.positions.get? 8 =
      some { symbol := "XAUUSD", volume := 1 } := rfl
  rw [hkept] at hgone
  exact Option.some_ne_none _ hgone.1

end MT5Services.Reconciliation
