import MT5Services.Dict
import MT5Services.PyNumber
import MT5Services.Runs
import Mathlib.Data.NNRat.Defs
import Mathlib.Order.Bounds.Basic
import Mathlib.Tactic.Linarith
import Mathlib.Tactic.NormNum

/-!
Backoff in the loop that polls the market data of each symbol, and what the health snapshot
says of it. The loop writes a deadline of the wall clock, the snapshot reads it against the
monotonic clock. Both clocks run at the same rate from origins of their own, so the snapshot
is right while the clocks agree or no deadline lies ahead on either, and at no other time.
-/
namespace MT5Services.IngestBackoff

open Runs

structure IngestSettings where
  ingestSymbols : List String
  maxConcurrentSymbols : ℤ
  symbolErrorThreshold : ℤ := 5
  symbolCooldownSeconds : ℚ := 60
  symbolMaxCooldownSeconds : ℚ := 300

/-- The fields of `BackgroundIngestor` that the backoff uses. -/
structure Ingestor where
  symbolErrorCounts : Dict String ℕ := Dict.empty
  symbolBackoffUntil : Dict String ℚ := Dict.empty
  symbolBackoffCount : Dict String ℕ := Dict.empty
  symbolCursor : ℕ := 0

/-- How the poll of a symbol ends. -/
inductive Outcome
  | success
  | marketError
  | unexpected
  deriving DecidableEq

namespace Ingestor

/-- `_symbol_backoff_until.get(symbol, 0.0)`. -/
def backoffUntil (self : Ingestor) (symbol : String) : ℚ :=
  (self.symbolBackoffUntil.get? symbol).getD 0

/-- The loop leaves the symbol out. -/
def Skips (self : Ingestor) (now : ℚ) (symbol : String) : Prop := now < self.backoffUntil symbol

instance (self : Ingestor) (now : ℚ) (symbol : String) : Decidable (self.Skips now symbol) :=
  inferInstanceAs (Decidable (now < self.backoffUntil symbol))

def errorCount (self : Ingestor) (symbol : String) : ℕ :=
  (self.symbolErrorCounts.get? symbol).getD 0

def backoffRound (self : Ingestor) (symbol : String) : ℕ :=
  (self.symbolBackoffCount.get? symbol).getD 0

def onSuccess (self : Ingestor) (symbol : String) : Ingestor :=
  { self with
    symbolErrorCounts := self.symbolErrorCounts.pop symbol
    symbolBackoffCount := self.symbolBackoffCount.pop symbol }

/-- One more error makes a backoff. -/
def Enough (c : IngestSettings) (self : Ingestor) (symbol : String) : Prop :=
  c.symbolErrorThreshold ≤ (self.errorCount symbol + 1 : ℕ)

instance (c : IngestSettings) (self : Ingestor) (symbol : String) :
    Decidable (Enough c self symbol) :=
  inferInstanceAs (Decidable (c.symbolErrorThreshold ≤ (self.errorCount symbol + 1 : ℕ)))

def cooldown (c : IngestSettings) (self : Ingestor) (symbol : String) : ℚ :=
  min (c.symbolCooldownSeconds * 2 ^ self.backoffRound symbol) c.symbolMaxCooldownSeconds

def onMarketError (c : IngestSettings) (self : Ingestor) (now : ℚ) (symbol : String) : Ingestor :=
  let counted := self.symbolErrorCounts.set symbol (self.errorCount symbol + 1)
  if Enough c self symbol then
    { self with
      symbolErrorCounts := counted.pop symbol
      symbolBackoffUntil := self.symbolBackoffUntil.set symbol (now + cooldown c self symbol)
      symbolBackoffCount := self.symbolBackoffCount.set symbol (self.backoffRound symbol + 1) }
  else { self with symbolErrorCounts := counted }

/-- The body of the loop over the symbols of a cycle. -/
def pollSymbol (c : IngestSettings) (self : Ingestor) (now : ℚ) (symbol : String)
    (outcome : Outcome) : Ingestor :=
  if self.Skips now symbol then self
  else
    match outcome with
    | .success => self.onSuccess symbol
    | .marketError => onMarketError c self now symbol
    | .unexpected => self

/-- `_symbols_for_cycle`, with the cursor it leaves. -/
def symbolsForCycle (c : IngestSettings) (self : Ingestor) : List String × Ingestor :=
  let symbols := c.ingestSymbols
  let window := (max 1 c.maxConcurrentSymbols).toNat
  if symbols.length ≤ window then (symbols, self)
  else
    let start := self.symbolCursor % symbols.length
    ((List.range window).filterMap fun offset => symbols[(start + offset) % symbols.length]?,
      { self with symbolCursor := (start + window) % symbols.length })

end Ingestor

/-! ### The snapshot -/

structure SymbolHealth where
  consecutiveErrorCount : ℕ
  backoffActive : Bool
  backoffRemainingSeconds : ℚ
  backoffRound : ℕ

inductive HealthStatus
  | critical
  | warning
  | healthy
  deriving DecidableEq

/-- What the snapshot counts besides backoffs. -/
structure LaneCounts where
  circuitOpen : Bool
  criticalStaleCount : ℕ
  criticalMissingCount : ℕ
  warningStaleCount : ℕ
  missingCount : ℕ

structure HealthSnapshot where
  status : HealthStatus
  symbols : List (String × SymbolHealth)

def backoffRemaining (self : Ingestor) (nowMonotonic : ℚ) (symbol : String) : ℚ :=
  max 0 (self.backoffUntil symbol - nowMonotonic)

def symbolHealth (self : Ingestor) (nowMonotonic : ℚ) (symbol : String) : SymbolHealth where
  consecutiveErrorCount := self.errorCount symbol
  backoffActive := 0 < backoffRemaining self nowMonotonic symbol
  backoffRemainingSeconds := PyNumber.round (backoffRemaining self nowMonotonic symbol) 3
  backoffRound := self.backoffRound symbol

def activeBackoffCount (c : IngestSettings) (self : Ingestor) (nowMonotonic : ℚ) : ℕ :=
  c.ingestSymbols.countP fun symbol => (symbolHealth self nowMonotonic symbol).backoffActive

def overallStatus (lanes : LaneCounts) (activeBackoffCount : ℕ) : HealthStatus :=
  if lanes.circuitOpen ∨ 0 < lanes.criticalStaleCount ∨ 0 < lanes.criticalMissingCount ∨
      0 < activeBackoffCount then
    .critical
  else if 0 < lanes.warningStaleCount ∨ 0 < lanes.missingCount then .warning
  else .healthy

def healthSnapshot (c : IngestSettings) (self : Ingestor) (lanes : LaneCounts)
    (nowMonotonic : ℚ) : HealthSnapshot where
  status := overallStatus lanes (activeBackoffCount c self nowMonotonic)
  symbols := c.ingestSymbols.map fun symbol => (symbol, symbolHealth self nowMonotonic symbol)

/-! ### Runs of the loop -/

/-- Two clocks of one rate. -/
structure Clocks where
  wallOrigin : ℚ
  monotonicOrigin : ℚ

def Clocks.wall (clocks : Clocks) (elapsed : ℚ) : ℚ := clocks.wallOrigin + elapsed

def Clocks.monotonic (clocks : Clocks) (elapsed : ℚ) : ℚ := clocks.monotonicOrigin + elapsed

/-- What the history of a symbol keeps of its polls. -/
inductive Note
  | polled (symbol : String)
  | backedOff (symbol : String)
  deriving DecidableEq

/-- A moment of a run: the time since its start, the time and the symbols left of the cycle
under way, the ingestor, and the notes taken so far. -/
structure Moment where
  elapsed : ℚ := 0
  now : ℚ
  queue : List String := []
  ingestor : Ingestor := {}
  notes : List Note := []

def start (clocks : Clocks) : Moment where
  now := clocks.wall 0

inductive Event
  | pass (seconds : ℚ≥0)
  | cycle
  | poll (outcome : Outcome)

def noteOf (c : IngestSettings) (self : Ingestor) (now : ℚ) (symbol : String)
    (outcome : Outcome) : List Note :=
  if self.Skips now symbol then []
  else
    match outcome with
    | .success => [.polled symbol]
    | .marketError => if Ingestor.Enough c self symbol then [.backedOff symbol] else []
    | .unexpected => []

def Moment.later (m : Moment) (seconds : ℚ≥0) : Moment :=
  { m with elapsed := m.elapsed + seconds }

def Moment.beginCycle (c : IngestSettings) (clocks : Clocks) (m : Moment) : Moment :=
  { m with
    now := clocks.wall m.elapsed
    queue := (m.ingestor.symbolsForCycle c).1
    ingestor := (m.ingestor.symbolsForCycle c).2 }

def Moment.pollNext (c : IngestSettings) (m : Moment) (symbol : String) (rest : List String)
    (outcome : Outcome) : Moment :=
  { m with
    queue := rest
    ingestor := m.ingestor.pollSymbol c m.now symbol outcome
    notes := m.notes ++ noteOf c m.ingestor m.now symbol outcome }

/-- `_run`, with time passing anywhere. The clock is read once for each cycle. -/
def step (c : IngestSettings) (clocks : Clocks) (m : Moment) : Event → Option Moment
  | .pass seconds => some (m.later seconds)
  | .cycle => if m.queue = [] then some (m.beginCycle c clocks) else none
  | .poll outcome =>
    match m.queue with
    | [] => none
    | symbol :: rest => some (m.pollNext c symbol rest outcome)

/-- The symbol was polled successfully after its last backoff. -/
def Recovered (notes : List Note) (symbol : String) : Prop :=
  ∃ before after, notes = before ++ .polled symbol :: after ∧ .backedOff symbol ∉ after

/-- The snapshot reports the backoff that the loop applies. -/
structure Truthful (c : IngestSettings) (clocks : Clocks) (m : Moment) : Prop where
  active : ∀ symbol ∈ c.ingestSymbols,
    (symbolHealth m.ingestor (clocks.monotonic m.elapsed) symbol).backoffActive = true ↔
      m.ingestor.Skips (clocks.wall m.elapsed) symbol
  remaining : ∀ symbol ∈ c.ingestSymbols, ∃ seconds,
    IsLeast {d | 0 ≤ d ∧ ¬ m.ingestor.Skips (clocks.wall m.elapsed + d) symbol} seconds ∧
      (symbolHealth m.ingestor (clocks.monotonic m.elapsed) symbol).backoffRemainingSeconds =
        PyNumber.round seconds 3
  recovered : (∀ symbol ∈ c.ingestSymbols, Recovered m.notes symbol) → ∀ lanes,
    (healthSnapshot c m.ingestor lanes (clocks.monotonic m.elapsed)).status =
      overallStatus lanes 0

/-- No deadline lies ahead, by either clock. -/
def Quiet (c : IngestSettings) (clocks : Clocks) (m : Moment) : Prop :=
  ∀ symbol ∈ c.ingestSymbols, m.ingestor.backoffUntil symbol ≤ clocks.wall m.elapsed ∧
    m.ingestor.backoffUntil symbol ≤ clocks.monotonic m.elapsed

/-! ### What a run keeps -/

section Deadlines

variable {c : IngestSettings} {self : Ingestor} {now : ℚ} {symbol other : String}

@[simp] theorem backoffUntil_symbolsForCycle (c : IngestSettings) (self : Ingestor)
    (symbol : String) :
    (self.symbolsForCycle c).2.backoffUntil symbol = self.backoffUntil symbol := by
  unfold Ingestor.symbolsForCycle
  dsimp only
  split
  · rfl
  · rfl

theorem backoffUntil_onMarketError_of_ne (h : other ≠ symbol) :
    (Ingestor.onMarketError c self now symbol).backoffUntil other = self.backoffUntil other := by
  unfold Ingestor.onMarketError
  dsimp only
  split
  · unfold Ingestor.backoffUntil
    dsimp only
    rw [Dict.get?_set, if_neg h]
  · rfl

theorem backoffUntil_onMarketError_of_not_enough (h : ¬ Ingestor.Enough c self symbol) :
    (Ingestor.onMarketError c self now symbol).backoffUntil other = self.backoffUntil other := by
  unfold Ingestor.onMarketError
  rw [if_neg h]
  rfl

/-- Only a backoff moves a deadline, and only that of its symbol. -/
theorem backoffUntil_pollSymbol (outcome : Outcome)
    (h : Note.backedOff other ∉ noteOf c self now symbol outcome) :
    (self.pollSymbol c now symbol outcome).backoffUntil other = self.backoffUntil other := by
  unfold noteOf at h
  unfold Ingestor.pollSymbol
  split
  · rfl
  · rename_i hskips
    rw [if_neg hskips] at h
    cases outcome with
    | success => rfl
    | unexpected => rfl
    | marketError =>
      by_cases henough : Ingestor.Enough c self symbol
      · have hne : other ≠ symbol := by simpa [henough] using h
        exact backoffUntil_onMarketError_of_ne hne
      · exact backoffUntil_onMarketError_of_not_enough henough

theorem not_skips_of_polled {outcome : Outcome}
    (h : Note.polled other ∈ noteOf c self now symbol outcome) :
    other = symbol ∧ outcome = .success ∧ ¬ self.Skips now symbol := by
  unfold noteOf at h
  split at h
  · cases h
  · rename_i hskips
    cases outcome with
    | success => exact ⟨by simpa using h, rfl, hskips⟩
    | unexpected => cases h
    | marketError =>
      dsimp only at h
      split at h
      · simp at h
      · cases h

theorem noteOf_eq_nil_or (c : IngestSettings) (self : Ingestor) (now : ℚ) (symbol : String)
    (outcome : Outcome) : noteOf c self now symbol outcome = [] ∨
      ∃ note, noteOf c self now symbol outcome = [note] := by
  unfold noteOf
  split
  · exact Or.inl rfl
  · cases outcome with
    | success => exact Or.inr ⟨_, rfl⟩
    | unexpected => exact Or.inl rfl
    | marketError =>
      dsimp only
      split
      · exact Or.inr ⟨_, rfl⟩
      · exact Or.inl rfl

end Deadlines

/-- The last note makes the recovery, or it was there before and the note is no backoff. -/
theorem recovered_concat {notes : List Note} {note : Note} {symbol : String}
    (h : Recovered (notes ++ [note]) symbol) :
    note = .polled symbol ∨ (note ≠ .backedOff symbol ∧ Recovered notes symbol) := by
  obtain ⟨before, after, hnotes, hafter⟩ := h
  rcases List.eq_nil_or_concat after with rfl | ⟨rest, last, rfl⟩
  · exact Or.inl (List.append_inj_right' hnotes rfl |> List.cons.inj |>.1)
  · rw [List.concat_eq_append, ← List.cons_append, ← List.append_assoc] at hnotes
    obtain ⟨hfront, hlast⟩ := List.append_inj' hnotes rfl
    have hnote : note = last := (List.cons.inj hlast).1
    rw [List.concat_eq_append, List.mem_append, not_or] at hafter
    refine Or.inr ⟨?_, before, rest, hfront, hafter.1⟩
    intro hback
    exact hafter.2 (List.mem_singleton.mpr (hback.symm.trans hnote))

/-- What every moment of a run keeps: the time of the cycle has come, and so has the deadline
of a symbol that has recovered. -/
structure Inv (clocks : Clocks) (m : Moment) : Prop where
  now_le : m.now ≤ clocks.wall m.elapsed
  recovered : ∀ symbol, Recovered m.notes symbol →
    m.ingestor.backoffUntil symbol ≤ clocks.wall m.elapsed

section Invariant

variable {c : IngestSettings} {clocks : Clocks} {m : Moment}

theorem inv_start (clocks : Clocks) : Inv clocks (start clocks) := by
  refine ⟨le_refl _, ?_⟩
  rintro symbol ⟨before, after, hnotes, -⟩
  cases before <;> cases hnotes

theorem Clocks.wall_le_later (clocks : Clocks) (m : Moment) (seconds : ℚ≥0) :
    clocks.wall m.elapsed ≤ clocks.wall (m.later seconds).elapsed := by
  have hseconds := seconds.coe_nonneg
  show clocks.wallOrigin + m.elapsed ≤ clocks.wallOrigin + (m.elapsed + seconds)
  linarith

theorem Inv.later (h : Inv clocks m) (seconds : ℚ≥0) : Inv clocks (m.later seconds) where
  now_le := h.now_le.trans (clocks.wall_le_later m seconds)
  recovered symbol hsymbol :=
    (h.recovered symbol hsymbol).trans (clocks.wall_le_later m seconds)

theorem Inv.beginCycle (h : Inv clocks m) : Inv clocks (m.beginCycle c clocks) where
  now_le := le_refl _
  recovered symbol hsymbol := by
    show (m.ingestor.symbolsForCycle c).2.backoffUntil symbol ≤ _
    rw [backoffUntil_symbolsForCycle]
    exact h.recovered symbol hsymbol

theorem Inv.pollNext (h : Inv clocks m) (symbol : String) (rest : List String)
    (outcome : Outcome) : Inv clocks (m.pollNext c symbol rest outcome) where
  now_le := h.now_le
  recovered other hother := by
    show (m.ingestor.pollSymbol c m.now symbol outcome).backoffUntil other ≤ _
    change Recovered (m.notes ++ noteOf c m.ingestor m.now symbol outcome) other at hother
    rcases noteOf_eq_nil_or c m.ingestor m.now symbol outcome with hnil | ⟨note, hnote⟩
    · rw [hnil, List.append_nil] at hother
      rw [backoffUntil_pollSymbol outcome (by simp [hnil])]
      exact h.recovered other hother
    · rw [hnote] at hother
      rcases recovered_concat hother with rfl | ⟨hne, hbefore⟩
      · -- A symbol that is polled was not skipped: its deadline has come.
        obtain ⟨rfl, -, hskips⟩ := not_skips_of_polled
          (by rw [hnote]; exact List.mem_singleton_self _)
        rw [backoffUntil_pollSymbol outcome (by simp [hnote])]
        exact (not_lt.mp hskips).trans h.now_le
      · rw [backoffUntil_pollSymbol outcome (by simpa [hnote] using hne.symm)]
        exact h.recovered other hbefore

theorem inv_step {event : Event} {t : Moment} (h : Inv clocks m)
    (hstep : step c clocks m event = some t) : Inv clocks t := by
  cases event with
  | pass seconds =>
    cases Option.some.inj hstep
    exact h.later seconds
  | cycle =>
    unfold step at hstep
    dsimp only at hstep
    split at hstep
    · cases Option.some.inj hstep
      exact h.beginCycle
    · cases hstep
  | poll outcome =>
    unfold step at hstep
    dsimp only at hstep
    split at hstep
    · cases hstep
    · cases Option.some.inj hstep
      exact h.pollNext _ _ outcome

theorem inv_run {events : List Event} (hrun : run (step c clocks) (start clocks) events = some m) :
    Inv clocks m :=
  run_invariant (fun _ _ _ h hstep => inv_step h hstep) (inv_start clocks) hrun

end Invariant

/-! ### When the snapshot is right -/

section Truthful

variable {c : IngestSettings} {clocks : Clocks} {m : Moment}

theorem backoffActive_iff (self : Ingestor) (nowMonotonic : ℚ) (symbol : String) :
    (symbolHealth self nowMonotonic symbol).backoffActive = true ↔
      nowMonotonic < self.backoffUntil symbol := by
  simp [symbolHealth, backoffRemaining]

/-- The wait of a symbol is what is left to its deadline. -/
theorem isLeast_wait (self : Ingestor) (now : ℚ) (symbol : String) :
    IsLeast {d | 0 ≤ d ∧ ¬ self.Skips (now + d) symbol} (backoffRemaining self now symbol) := by
  refine ⟨⟨le_max_left _ _, ?_⟩, ?_⟩
  · have hle : self.backoffUntil symbol - now ≤ backoffRemaining self now symbol :=
      le_max_right _ _
    intro hskips
    have hlt : now + backoffRemaining self now symbol < self.backoffUntil symbol := hskips
    linarith
  · rintro d ⟨hpos, hskips⟩
    have hle : self.backoffUntil symbol ≤ now + d := not_lt.mp hskips
    exact max_le hpos (by linarith)

theorem status_of_none_active {self : Ingestor} {nowMonotonic : ℚ} (lanes : LaneCounts)
    (h : ∀ symbol ∈ c.ingestSymbols, self.backoffUntil symbol ≤ nowMonotonic) :
    (healthSnapshot c self lanes nowMonotonic).status = overallStatus lanes 0 := by
  have hcount : activeBackoffCount c self nowMonotonic = 0 := by
    refine List.countP_eq_zero.mpr fun symbol hsymbol => ?_
    rw [backoffActive_iff, not_lt]
    exact h symbol hsymbol
  show overallStatus lanes (activeBackoffCount c self nowMonotonic) = _
  rw [hcount]

theorem truthful_of_agree (h : Inv clocks m) (hagree : clocks.wallOrigin = clocks.monotonicOrigin) :
    Truthful c clocks m := by
  have hclocks : clocks.monotonic m.elapsed = clocks.wall m.elapsed := by
    unfold Clocks.monotonic Clocks.wall
    rw [hagree]
  refine ⟨?_, ?_, ?_⟩
  · intro symbol _
    rw [hclocks]
    exact backoffActive_iff _ _ _
  · intro symbol _
    exact ⟨_, isLeast_wait _ _ symbol, by rw [hclocks]; rfl⟩
  · intro hall lanes
    refine status_of_none_active lanes fun symbol hsymbol => ?_
    rw [hclocks]
    exact h.recovered symbol (hall symbol hsymbol)

theorem truthful_of_quiet (h : Quiet c clocks m) : Truthful c clocks m := by
  refine ⟨?_, ?_, ?_⟩
  · intro symbol hsymbol
    obtain ⟨hwall, hmonotonic⟩ := h symbol hsymbol
    rw [backoffActive_iff]
    exact iff_of_false (not_lt.mpr hmonotonic) (not_lt.mpr hwall)
  · intro symbol hsymbol
    obtain ⟨hwall, hmonotonic⟩ := h symbol hsymbol
    refine ⟨_, isLeast_wait _ _ symbol, ?_⟩
    show PyNumber.round (backoffRemaining _ _ symbol) 3 = _
    unfold backoffRemaining
    rw [max_eq_left (by linarith), max_eq_left (by linarith)]
  · intro _ lanes
    exact status_of_none_active lanes fun symbol hsymbol => (h symbol hsymbol).2

theorem Quiet.later (h : Quiet c clocks m) (seconds : ℚ≥0) : Quiet c clocks (m.later seconds) := by
  have hseconds := seconds.coe_nonneg
  intro symbol hsymbol
  obtain ⟨hwall, hmonotonic⟩ := h symbol hsymbol
  refine ⟨hwall.trans (clocks.wall_le_later m seconds), hmonotonic.trans ?_⟩
  show clocks.monotonicOrigin + m.elapsed ≤ clocks.monotonicOrigin + (m.elapsed + seconds)
  linarith

/-- When the clock that is ahead reaches a deadline, the other is short of it. -/
theorem exists_apart_of_lt {a b deadline : ℚ} (hlt : a < b)
    (hahead : ¬ (deadline ≤ a ∧ deadline ≤ b)) :
    ∃ seconds : ℚ≥0, a + seconds < deadline ∧ deadline ≤ b + seconds := by
  by_cases hpassed : deadline ≤ b
  · have hshort : a < deadline := not_le.mp fun hle => hahead ⟨hle, hpassed⟩
    refine ⟨0, ?_, ?_⟩
    · simpa using hshort
    · simpa using hpassed
  · refine ⟨⟨deadline - b, sub_nonneg.mpr (not_le.mp hpassed).le⟩, ?_, ?_⟩
    · show a + (deadline - b) < deadline
      linarith
    · show deadline ≤ b + (deadline - b)
      linarith

theorem exists_apart {a b deadline : ℚ} (hne : a ≠ b)
    (hahead : ¬ (deadline ≤ a ∧ deadline ≤ b)) :
    ∃ seconds : ℚ≥0, ¬ (b + seconds < deadline ↔ a + seconds < deadline) := by
  rcases lt_or_gt_of_ne hne with hlt | hgt
  · obtain ⟨seconds, hshort, hpassed⟩ := exists_apart_of_lt hlt hahead
    exact ⟨seconds, fun hiff => absurd (hiff.mpr hshort) (not_lt.mpr hpassed)⟩
  · obtain ⟨seconds, hshort, hpassed⟩ := exists_apart_of_lt hgt (fun h => hahead h.symm)
    exact ⟨seconds, fun hiff => absurd (hiff.mp hshort) (not_lt.mpr hpassed)⟩

theorem exists_not_truthful (hdiffer : clocks.wallOrigin ≠ clocks.monotonicOrigin)
    (h : ¬ Quiet c clocks m) : ∃ seconds, ¬ Truthful c clocks (m.later seconds) := by
  obtain ⟨symbol, hsymbol, hahead⟩ : ∃ symbol ∈ c.ingestSymbols,
      ¬ (m.ingestor.backoffUntil symbol ≤ clocks.wall m.elapsed ∧
        m.ingestor.backoffUntil symbol ≤ clocks.monotonic m.elapsed) := by
    by_contra hnone
    exact h fun symbol hsymbol => not_not.mp fun hnot => hnone ⟨symbol, hsymbol, hnot⟩
  have hdiffer' : clocks.wall m.elapsed ≠ clocks.monotonic m.elapsed := fun heq =>
    hdiffer (add_right_cancel heq)
  obtain ⟨seconds, happart⟩ := exists_apart hdiffer' hahead
  refine ⟨seconds, fun htruthful => happart ?_⟩
  have hactive := htruthful.active symbol hsymbol
  rw [backoffActive_iff] at hactive
  unfold Clocks.wall Clocks.monotonic at hactive ⊢
  rw [add_assoc, add_assoc]
  exact hactive

end Truthful

/-- At a moment of a run and from then on until the next event the snapshot is right exactly
when the clocks agree or no deadline lies ahead on either. -/
theorem truthful_iff (c : IngestSettings) (clocks : Clocks) (events : List Event) {m : Moment}
    (hrun : run (step c clocks) (start clocks) events = some m) :
    (∀ seconds, Truthful c clocks (m.later seconds)) ↔
      clocks.wallOrigin = clocks.monotonicOrigin ∨ Quiet c clocks m := by
  constructor
  · intro hall
    by_contra hneither
    rw [not_or] at hneither
    obtain ⟨seconds, hnot⟩ := exists_not_truthful hneither.1 hneither.2
    exact hnot (hall seconds)
  · rintro (hagree | hquiet) seconds
    · exact truthful_of_agree ((inv_run hrun).later seconds) hagree
    · exact truthful_of_quiet (hquiet.later seconds)

/-! ### Five errors and a success -/

def gold : IngestSettings where
  ingestSymbols := ["XAUUSD"]
  maxConcurrentSymbols := 5

def fiveErrors : List Event :=
  (List.replicate 5 [Event.cycle, Event.poll .marketError]).flatten

/-- Both clocks count from 1970. -/
def oneOrigin : Clocks where
  wallOrigin := 1700000000
  monotonicOrigin := 1700000000

def duringBackoff : Moment := reach (step gold oneOrigin) (start oneOrigin) fiveErrors

/-- With clocks that agree a backoff is reported as it is. -/
theorem truthful_oneOrigin :
    run (step gold oneOrigin) (start oneOrigin) fiveErrors = some duringBackoff ∧
      ∀ seconds, Truthful gold oneOrigin (duringBackoff.later seconds) :=
  ⟨rfl, (truthful_iff gold oneOrigin fiveErrors rfl).mpr (Or.inl rfl)⟩

/-- The monotonic clock counts from the boot, an hour ago. -/
def oneHourUp : Clocks where
  wallOrigin := 1700000000
  monotonicOrigin := 3600

/-- The cooldown of a minute passes and the next poll succeeds. -/
def afterRecovery : Moment :=
  reach (step gold oneHourUp) (start oneHourUp)
    (fiveErrors ++ [.pass 60, .cycle, .poll .success])

theorem deadline_afterRecovery : afterRecovery.ingestor.backoffUntil "XAUUSD" = 1700000060 := by
  decide +kernel

theorem elapsed_afterRecovery : afterRecovery.elapsed = 60 := by
  decide +kernel

/-- The symbol is polled again and still reported in backoff, for the years that the two
origins are apart. -/
theorem polled_symbol_not_truthful :
    ¬ ∀ (c : IngestSettings) (clocks : Clocks) (events : List Event) (m : Moment),
      run (step c clocks) (start clocks) events = some m → Truthful c clocks m := by
  intro hclaim
  have htruthful := hclaim gold oneHourUp (fiveErrors ++ [.pass 60, .cycle, .poll .success])
    afterRecovery rfl
  have hactive := htruthful.active "XAUUSD" (List.mem_singleton_self _)
  rw [backoffActive_iff, Ingestor.Skips, deadline_afterRecovery, elapsed_afterRecovery] at hactive
  norm_num [Clocks.wall, Clocks.monotonic, oneHourUp] at hactive

end MT5Services.IngestBackoff
