import MT5Services.NewestFirst
import MT5Services.PyText
import MT5Services.SignalStates

/-!
The confirmed states of the targets after a start: `restore_state` walks through the
newest rows of both signal tables together and takes for every target the first readable
row out of the table of confirmed signals, whatever its state.
-/
namespace MT5Services.SignalRecovery

open NewestFirst
open SignalStates (Target Side SignalState RuntimeSignalState markEmitted)

inductive Table
  | confirmed
  | preview
  deriving DecidableEq, Repr

/-- A persisted signal. Of the metadata: the scope and the state as `str` gives them, with
the default when they are missing, and the bar time unless it is missing or falsy. -/
structure Record where
  generatedAt : ℚ
  target : Target
  scope : String := "confirmed"
  signalState : String := ""
  barTime : Option String := none
  deriving DecidableEq, Repr

def normalized (text : String) : String := PyText.lower (PyText.strip text)

def startsWith (text start : String) : Bool := start.toList.isPrefixOf text.toList

/-- The table that `append` writes the record to. -/
def resolveScope (r : Record) : Table :=
  let scope := normalized r.scope
  let signalState := normalized r.signalState
  if startsWith signalState "confirmed_" then .confirmed
  else if startsWith signalState "preview_" || startsWith signalState "armed_" ||
      signalState = "cancelled" then .preview
  else if scope = "intrabar" || scope = "preview" then .preview
  else .confirmed

/-- The persisted signals in the order of `ORDER BY generated_at DESC`, in whatever order
the database gives those of one time. -/
structure Store where
  records : List Record
  newestFirst : Descending Record.generatedAt records

/-- A row with the table it was read from as its scope. -/
structure Row where
  record : Record
  scope : Table
  deriving DecidableEq, Repr

def Row.time (row : Row) : ℚ := row.record.generatedAt

def Store.rows (store : Store) (table : Table) : List Row :=
  (store.records.filter fun r => resolveScope r = table).map fun r => ⟨r, table⟩

def fetch (store : Store) (table : Table) (limit : ℕ) : List Row :=
  (store.rows table).take (max 1 limit)

/-- `recent` with the scope `all`. -/
def recent (store : Store) (limit : ℕ) : List Row :=
  (sort Row.time (fetch store .confirmed limit ++ fetch store .preview limit)).take limit

def restoreConfirmedState (state : RuntimeSignalState) (signalState : String)
    (generatedAt barTime : ℚ) : RuntimeSignalState :=
  if signalState = "confirmed_cancelled" then
    markEmitted { state with confirmedState := none, confirmedBarTime := some barTime }
      .confirmedCancelled generatedAt barTime
  else if signalState = "confirmed_buy" then
    markEmitted { state with confirmedState := some .buy, confirmedBarTime := some barTime }
      (.confirmed .buy) generatedAt barTime
  else if signalState = "confirmed_sell" then
    markEmitted { state with confirmedState := some .sell, confirmedBarTime := some barTime }
      (.confirmed .sell) generatedAt barTime
  else state

/-- `parse` is `parse_event_time` on a text, `none` when it raises. It reads the row's own
time, which stands in for a missing bar time, back as it was written. -/
def barTimeOf (parse : String → Option ℚ) (r : Record) : Option ℚ :=
  match r.barTime with
  | some text => parse text
  | none => some r.generatedAt

def restoreRows (parse : String → Option ℚ) (restored : List Target)
    (states : Dict Target RuntimeSignalState) : List Row → Dict Target RuntimeSignalState
  | [] => states
  | row :: rest =>
    let key := row.record.target
    match barTimeOf parse row.record with
    -- a bad row is skipped
    | none => restoreRows parse restored states rest
    | some barTime =>
      let state := (states.get? key).getD {}
      if row.scope = .confirmed ∧ key ∉ restored then
        restoreRows parse (key :: restored)
          (states.set key (restoreConfirmedState state (normalized row.record.signalState)
            row.record.generatedAt barTime)) rest
      else restoreRows parse restored (states.set key state) rest

def rowLimit (targets : ℕ) : ℕ := max (targets * 6) 200

/-- `targets` is the number of configured targets. -/
def restoreState (parse : String → Option ℚ) (targets : ℕ) (store : Store)
    (states : Dict Target RuntimeSignalState) : Dict Target RuntimeSignalState :=
  restoreRows parse [] states (recent store (rowLimit targets))

def stateOf (states : Dict Target RuntimeSignalState) (target : Target) : RuntimeSignalState :=
  (states.get? target).getD {}

/-- The confirmed signal that a record tells of. -/
def confirmedSignal (r : Record) : Option SignalState :=
  if normalized r.signalState = "confirmed_cancelled" then some .confirmedCancelled
  else if normalized r.signalState = "confirmed_buy" then some (.confirmed .buy)
  else if normalized r.signalState = "confirmed_sell" then some (.confirmed .sell)
  else none

def sideOf : SignalState → Option Side
  | .confirmed side => some side
  | .confirmedCancelled | .tickDerived _ | .intrabarArmed _ => none

/-- A readable record of the target. -/
def Readable (parse : String → Option ℚ) (target : Target) (r : Record) : Prop :=
  r.target = target ∧ (barTimeOf parse r).isSome = true

instance (parse : String → Option ℚ) (target : Target) : DecidablePred (Readable parse target) :=
  fun r => inferInstanceAs (Decidable (r.target = target ∧ (barTimeOf parse r).isSome = true))

/-- A readable record of the target with a confirmed signal. -/
structure Usable (parse : String → Option ℚ) (target : Target) (r : Record) : Prop where
  readable : Readable parse target r
  signal : (confirmedSignal r).isSome = true

structure Newest (parse : String → Option ℚ) (target : Target) (store : Store) (r : Record) :
    Prop where
  stored : r ∈ store.records
  usable : Usable parse target r
  newest : ∀ other ∈ store.records, Usable parse target other →
    other.generatedAt ≤ r.generatedAt

/-- The three fields are those of the record. -/
structure Holds (parse : String → Option ℚ) (r : Record) (state : RuntimeSignalState) : Prop where
  confirmedState : state.confirmedState = (confirmedSignal r).bind sideOf
  lastEmittedState : state.lastEmittedState = confirmedSignal r
  lastEmittedBarTime : state.lastEmittedBarTime = barTimeOf parse r

/-- The target has the state of its newest usable record. -/
def Recovered (parse : String → Option ℚ) (target : Target) (store : Store)
    (state : RuntimeSignalState) : Prop :=
  ∃ r, Newest parse target store r ∧ Holds parse r state

/-- The newest readable record of the target in the table of confirmed signals has a
confirmed signal, and fewer rows than the limit are ahead of it: earlier ones of the same
table and newer ones of the other. -/
def Unobstructed (parse : String → Option ℚ) (targets : ℕ) (target : Target) (store : Store) :
    Prop :=
  ∃ front r back, store.rows .confirmed = front ++ ⟨r, .confirmed⟩ :: back ∧
    (∀ row ∈ front, ¬ Readable parse target row.record) ∧ Usable parse target r ∧
    front.length + (store.rows .preview).countP (fun row => r.generatedAt < row.time) <
      rowLimit targets

variable {r : Record}

theorem restoreConfirmedState_of_signal {signal : SignalState}
    (h : confirmedSignal r = some signal) (state : RuntimeSignalState) (generatedAt barTime : ℚ) :
    restoreConfirmedState state (normalized r.signalState) generatedAt barTime =
      markEmitted { state with
        confirmedState := sideOf signal
        confirmedBarTime := some barTime } signal generatedAt barTime := by
  unfold confirmedSignal at h
  unfold restoreConfirmedState
  split_ifs at h ⊢ <;> cases h <;> rfl

theorem restoreConfirmedState_of_none (h : confirmedSignal r = none)
    (state : RuntimeSignalState) (generatedAt barTime : ℚ) :
    restoreConfirmedState state (normalized r.signalState) generatedAt barTime = state := by
  unfold confirmedSignal at h
  unfold restoreConfirmedState
  split_ifs at h ⊢
  rfl

/-- A confirmed signal is in the table of confirmed signals. -/
theorem resolveScope_of_signal (h : (confirmedSignal r).isSome = true) :
    resolveScope r = .confirmed := by
  have hstarts : startsWith (normalized r.signalState) "confirmed_" = true := by
    unfold confirmedSignal at h
    split_ifs at h with hcancelled hbuy hsell
    · rw [hcancelled]
      decide
    · rw [hbuy]
      decide
    · rw [hsell]
      decide
    · cases h
  simp only [resolveScope, hstarts, if_true]

/-- The row that decides about the target. -/
def decides (parse : String → Option ℚ) (target : Target) (row : Row) : Bool :=
  row.scope = .confirmed ∧ Readable parse target row.record

theorem stateOf_set (states : Dict Target RuntimeSignalState) (key target : Target)
    (state : RuntimeSignalState) :
    stateOf (states.set key state) target =
      if target = key then state else stateOf states target := by
  unfold stateOf
  rw [Dict.get?_set]
  split_ifs
  · rfl
  · rfl

theorem stateOf_set_self (states : Dict Target RuntimeSignalState) (key target : Target) :
    stateOf (states.set key (stateOf states key)) target = stateOf states target := by
  rw [stateOf_set]
  split_ifs with hkey
  · rw [hkey]
  · rfl

variable {parse : String → Option ℚ} {target : Target}

/-- Once a target is restored no row changes its state. -/
theorem stateOf_restoreRows_of_mem {restored : List Target}
    (hmem : target ∈ restored) (states : Dict Target RuntimeSignalState) (rows : List Row) :
    stateOf (restoreRows parse restored states rows) target = stateOf states target := by
  induction rows generalizing restored states with
  | nil => rfl
  | cons row rest ih =>
    unfold restoreRows
    dsimp only
    split
    · exact ih hmem states
    · next barTime hparse =>
      split_ifs with huse
      · rw [ih (List.mem_cons_of_mem _ hmem), stateOf_set, if_neg]
        intro heq
        rw [heq] at hmem
        exact huse.2 hmem
      · rw [ih hmem]
        exact stateOf_set_self states _ target

def applyRow (parse : String → Option ℚ) (state : RuntimeSignalState) (row : Row) :
    RuntimeSignalState :=
  match barTimeOf parse row.record with
  | none => state
  | some barTime =>
    restoreConfirmedState state (normalized row.record.signalState) row.record.generatedAt barTime

/-- A target has the state that the deciding row gives it. -/
theorem stateOf_restoreRows {restored : List Target}
    (hmem : target ∉ restored) (states : Dict Target RuntimeSignalState) (rows : List Row) :
    stateOf (restoreRows parse restored states rows) target =
      (rows.find? (decides parse target)).elim (stateOf states target)
        (applyRow parse (stateOf states target)) := by
  induction rows generalizing restored states with
  | nil => rfl
  | cons row rest ih =>
    unfold restoreRows
    dsimp only
    rw [List.find?_cons]
    cases hparse : barTimeOf parse row.record with
    | none =>
      have hskip : decides parse target row = false := by
        simp [decides, Readable, hparse]
      rw [hskip]
      exact ih hmem states
    | some barTime =>
      dsimp only
      by_cases htarget : row.record.target = target
      · by_cases hscope : row.scope = .confirmed
        · have huse : decides parse target row = true := by
            simp [decides, Readable, hparse, htarget, hscope]
          have hfresh : row.record.target ∉ restored := by rw [htarget]; exact hmem
          rw [huse, if_pos ⟨hscope, hfresh⟩, htarget,
            stateOf_restoreRows_of_mem List.mem_cons_self, stateOf_set, if_pos rfl]
          rw [Option.elim_some, applyRow, hparse]
          rfl
        · have hskip : decides parse target row = false := by
            simp [decides, hscope]
          rw [hskip, if_neg (fun hboth => hscope hboth.1), ih hmem]
          have hself := stateOf_set_self states row.record.target target
          unfold stateOf at hself ⊢
          rw [hself]
      · have hskip : decides parse target row = false := by
          simp [decides, Readable, htarget]
        rw [hskip]
        split_ifs
        · have hother : target ∉ row.record.target :: restored := by
            rw [List.mem_cons, not_or]
            exact ⟨Ne.symm htarget, hmem⟩
          rw [ih hother, stateOf_set, if_neg (Ne.symm htarget)]
        · rw [ih hmem]
          have hself := stateOf_set_self states row.record.target target
          unfold stateOf at hself ⊢
          rw [hself]

theorem rows_descending (store : Store) (table : Table) :
    Descending Row.time (store.rows table) := by
  apply List.Pairwise.map
  · intro a b h
    exact h
  · exact store.newestFirst.sublist List.filter_sublist

theorem rowLimit_pos (targets : ℕ) : max 1 (rowLimit targets) = rowLimit targets := by
  unfold rowLimit
  omega

variable {row : Row} {store : Store}

theorem mem_rows {table : Table} :
    row ∈ store.rows table ↔ row.record ∈ store.records ∧ resolveScope row.record = table ∧
      row.scope = table := by
  obtain ⟨r, scope⟩ := row
  simp [Store.rows, and_assoc, eq_comm]

/-- The deciding row of a target is reached before the limit. -/
theorem find?_recent (parse : String → Option ℚ) (targets : ℕ) (target : Target) (store : Store)
    (row : Row) :
    (recent store (rowLimit targets)).find? (decides parse target) = some row ↔
      Reached Row.time (decides parse target) (store.rows .confirmed) (store.rows .preview)
        (rowLimit targets) row := by
  have hpreview : ∀ other ∈ (store.rows .preview).take (rowLimit targets),
      decides parse target other = false := by
    intro other hother
    have hscope := (mem_rows.mp (List.mem_of_mem_take hother)).2.2
    simp [decides, hscope]
  unfold recent fetch
  rw [rowLimit_pos, find?_take_sort Row.time row hpreview
    ((rows_descending store .confirmed).sublist (List.take_sublist _ _))
    ((rows_descending store .preview).sublist (List.take_sublist _ _)),
    reached_take Row.time (rows_descending store .preview)]

/-- A usable row that is reached is a newest one. -/
theorem newest_of_reached {targets : ℕ}
    (h : Reached Row.time (decides parse target) (store.rows .confirmed) (store.rows .preview)
      (rowLimit targets) row) (husable : Usable parse target row.record) :
    Newest parse target store row.record := by
  obtain ⟨front, back, hsplit, hskipped, _, _⟩ := h
  have hmem : row ∈ store.rows .confirmed := by rw [hsplit]; simp
  refine ⟨(mem_rows.mp hmem).1, husable, ?_⟩
  intro other hother hothers
  have hrow : (⟨other, .confirmed⟩ : Row) ∈ store.rows .confirmed :=
    mem_rows.mpr ⟨hother, resolveScope_of_signal hothers.signal, rfl⟩
  rw [hsplit, List.mem_append, List.mem_cons] at hrow
  rcases hrow with hfront | heq | hback
  · have hnot := hskipped _ hfront
    simp [decides, hothers.readable] at hnot
  · rw [← heq]
  · have hsorted := rows_descending store .confirmed
    rw [hsplit] at hsorted
    exact (List.pairwise_cons.mp (List.pairwise_append.mp hsorted).2.1).1 _ hback

theorem unobstructed_iff {targets : ℕ} : Unobstructed parse targets target store ↔
      ∃ row, Reached Row.time (decides parse target) (store.rows .confirmed)
        (store.rows .preview) (rowLimit targets) row ∧ Usable parse target row.record := by
  have hdecides : ∀ row ∈ store.rows .confirmed,
      decides parse target row = true ↔ Readable parse target row.record := by
    intro row hrow
    simp [decides, (mem_rows.mp hrow).2.2]
  constructor
  · rintro ⟨front, r, back, hsplit, hskipped, husable, hlt⟩
    refine ⟨⟨r, .confirmed⟩, ⟨front, back, hsplit, ?_, ?_, hlt⟩, husable⟩
    · intro row hrow
      have hmem : row ∈ store.rows .confirmed := by rw [hsplit]; simp [hrow]
      rw [← Bool.not_eq_true, hdecides row hmem]
      exact hskipped row hrow
    · simp [decides, husable.readable]
  · rintro ⟨row, ⟨front, back, hsplit, hskipped, _, hlt⟩, husable⟩
    have hscope : row.scope = .confirmed := by
      have hmem : row ∈ store.rows .confirmed := by rw [hsplit]; simp
      exact (mem_rows.mp hmem).2.2
    refine ⟨front, row.record, back, ?_, ?_, husable, hlt⟩
    · rw [hsplit, ← hscope]
    · intro other hother
      have hmem : other ∈ store.rows .confirmed := by rw [hsplit]; simp [hother]
      rw [← hdecides other hmem, Bool.not_eq_true]
      exact hskipped other hother

theorem applyRow_holds (h : Usable parse target row.record) (state : RuntimeSignalState) :
    Holds parse row.record (applyRow parse state row) := by
  obtain ⟨barTime, hparse⟩ := Option.isSome_iff_exists.mp h.readable.2
  obtain ⟨signal, hsignal⟩ := Option.isSome_iff_exists.mp h.signal
  unfold applyRow
  rw [hparse]
  dsimp only
  rw [restoreConfirmedState_of_signal hsignal]
  refine ⟨?_, ?_, ?_⟩
  · rw [hsignal]
    rfl
  · rw [hsignal]
    rfl
  · rw [hparse]
    rfl

/-- A row without a confirmed signal leaves the state as it is. -/
theorem applyRow_of_none (h : confirmedSignal row.record = none) (state : RuntimeSignalState) :
    applyRow parse state row = state := by
  unfold applyRow
  split
  · rfl
  · exact restoreConfirmedState_of_none h _ _ _

/-- Either a usable row decides about the target, or the target keeps its state. -/
theorem stateOf_restoreState (parse : String → Option ℚ) (targets : ℕ) (target : Target)
    (store : Store) (states : Dict Target RuntimeSignalState) :
    (Unobstructed parse targets target store ∧ ∃ row, Newest parse target store row.record ∧
        stateOf (restoreState parse targets store states) target =
          applyRow parse (stateOf states target) row) ∨
      (¬ Unobstructed parse targets target store ∧
        stateOf (restoreState parse targets store states) target = stateOf states target) := by
  unfold restoreState
  rw [stateOf_restoreRows List.not_mem_nil, unobstructed_iff]
  cases hfound : (recent store (rowLimit targets)).find? (decides parse target) with
  | none =>
    refine .inr ⟨?_, rfl⟩
    rintro ⟨row, hreached, _⟩
    cases hfound.symm.trans ((find?_recent parse targets target store row).mpr hreached)
  | some row =>
    have hreached := (find?_recent parse targets target store row).mp hfound
    have hreadable : Readable parse target row.record := by
      obtain ⟨_, _, _, _, hdecides, _⟩ := hreached
      simp only [decides, decide_eq_true_eq] at hdecides
      exact hdecides.2
    cases hsignal : confirmedSignal row.record with
    | none =>
      refine .inr ⟨?_, applyRow_of_none hsignal _⟩
      rintro ⟨other, hother, husable⟩
      have hsame := hfound.symm.trans ((find?_recent parse targets target store other).mpr hother)
      have hnone := husable.signal
      rw [← Option.some.inj hsame, hsignal] at hnone
      cases hnone
    | some signal =>
      have husable : Usable parse target row.record := ⟨hreadable, by rw [hsignal]; rfl⟩
      exact .inl ⟨⟨row, hreached, husable⟩, row, newest_of_reached hreached husable, rfl⟩

/-- Whatever the rows of both tables, of all targets, and the states before: after
`restore_state` the target has the state of its newest usable record if and only if that
one is unobstructed, or the target had this state already. -/
theorem recovered_iff (parse : String → Option ℚ) (targets : ℕ) (target : Target) (store : Store)
    (states : Dict Target RuntimeSignalState) :
    Recovered parse target store (stateOf (restoreState parse targets store states) target) ↔
      Unobstructed parse targets target store ∨
        Recovered parse target store (stateOf states target) := by
  rcases stateOf_restoreState parse targets target store states with
    ⟨hun, row, hnewest, hstate⟩ | ⟨hnot, hstate⟩
  · have hrecovered : Recovered parse target store (applyRow parse (stateOf states target) row) :=
      ⟨row.record, hnewest, applyRow_holds hnewest.usable _⟩
    rw [hstate]
    exact ⟨fun _ => .inl hun, fun _ => hrecovered⟩
  · rw [hstate]
    exact ⟨fun hbefore => .inr hbefore, fun h => h.resolve_left hnot⟩

def goldRsi : Target := ⟨"XAUUSD", "M5", "rsi_reversion"⟩

/-- The buy of the last bar, and after it a signal of the same target that was derived from
ticks. -/
def tickAfterBuy : Store :=
  { records :=
      [{ generatedAt := 2
         target := goldRsi
         scope := "tick_derived"
         signalState := "tick_derived_buy" },
       { generatedAt := 1
         target := goldRsi
         signalState := "confirmed_buy" }]
    newestFirst := List.pairwise_pair.mpr (by decide) }

theorem not_recovered :
    ¬ ∀ (parse : String → Option ℚ) (targets : ℕ) (target : Target) (store : Store)
        (states : Dict Target RuntimeSignalState),
        (∃ r ∈ store.records, Usable parse target r) →
        Recovered parse target store (stateOf (restoreState parse targets store states) target) := by
  intro hall
  have hbuy : Usable (fun _ => none) goldRsi
      { generatedAt := 1, target := goldRsi, signalState := "confirmed_buy" } := by
    refine ⟨⟨rfl, rfl⟩, ?_⟩
    decide
  obtain ⟨r, hnewest, hholds⟩ := hall (fun _ => none) 1 goldRsi tickAfterBuy Dict.empty
    ⟨_, List.mem_cons_of_mem _ List.mem_cons_self, hbuy⟩
  have hidle : (stateOf (restoreState (fun _ => none) 1 tickAfterBuy Dict.empty)
      goldRsi).lastEmittedState = none := by decide
  have hsignal := hnewest.usable.signal
  rw [← hholds.lastEmittedState, hidle] at hsignal
  cases hsignal

end MT5Services.SignalRecovery
