import MT5Services.BacktestEngine
import MT5Services.Lockstep

/-!
A main bar of the backtest part by part. The exits, every round over a pending group, every
decision on a synthesized bar and every confirmed decision are steps of their own; a check asks
something of each of them in the state before it. What the steps uphold one by one holds
throughout the bar, and so throughout a run.
-/
namespace MT5Services.BacktestRounds

open BacktestData BacktestDecisions BacktestEngine BacktestIntrabar ExitRules IntrabarSynthesis
open Lockstep Portfolio Runs TradeSizing

variable {V : Type*}

structure Checks (V : Type*) where
  exits : BarInput → State V → Prop
  pending : BarContext → CircuitBreaker → Book × List (BacktestPendingGroup V) →
    BacktestPendingGroup V → Prop
  intrabar : IntrabarPlan → SubLoopCall V → CircuitBreaker → Ohlc →
    SubLoop V × List (String × Direction) → SignalDecision V → Prop
  confirmed : BarInput → RegimeType → State V → SignalDecision V → Prop

/-! ### The parts of a bar -/

section Parts

variable (e : Engine V) (checks : Checks V)

/-- Every round of `check_pending_entries`. -/
def EachPending (context : BarContext) (s : State V) : Prop :=
  Along (checkPendingGroup e context) (checks.pending context s.breaker) (s.toBook, [])
    s.pendingGroups

/-- The loop of a child bar, its evaluations counted. -/
def countEvaluations (loop : SubLoop V) (decisions : List (SignalDecision V)) : SubLoop V :=
  { loop with
    context := { loop.context with
      totalIntrabarEvaluations := loop.context.totalIntrabarEvaluations + decisions.length } }

/-- Every decision on the bar synthesized of the child bars so far. -/
def EachOnChild (plan : IntrabarPlan) (call : SubLoopCall V) (breaker : CircuitBreaker)
    (loop : SubLoop V) (accumulated : List Ohlc) : Prop :=
  ∀ synthesized ∈ synthesizeParentBar (accumulated.map Ohlc.toCandle) e.config.symbol
      e.config.timeframe call.parentTime,
    ∀ decisions ∈ intrabarDecisions e plan call synthesized,
      Along (handleIntrabarDecision e plan call synthesized)
        (checks.intrabar plan call breaker synthesized) (countEvaluations loop decisions, [])
        decisions

/-- Every decision of the intrabar sub-loop. -/
def EachIntrabar (input : BarInput) (regime : RegimeType) (s : State V) : Prop :=
  ∀ plan ∈ e.intrabar, ∀ context ∈ s.intrabar, ∀ atr ∈ referenceAtr input.indicators,
    lowCoverage e plan input.childBars = false →
      Along (runChild e plan (subLoopCall e input regime atr s))
        (EachOnChild e checks plan (subLoopCall e input regime atr s) s.breaker)
        ⟨s.toBook, context⟩ (accumulations input.childBars)

def EachConfirmed (input : BarInput) (regime : RegimeType) (s : State V) : Prop :=
  Along (takeDecision e input regime) (checks.confirmed input regime) s
    (evaluateStrategies e .confirmed (confirmedView e input regime s))

/-- The state in which the sub-loop starts. -/
def beforeReplay (input : BarInput) (s : State V) : State V :=
  { s with
    filterStats := (shouldEvaluate e s.filterStats input.bar.time input.indicators).2
    htfIndicatorData := input.htfIndicatorData }

/-- Every entry on a bar that passes the filters. -/
def EachEvaluated (input : BarInput) (regime : RegimeType) (s : State V) : Prop :=
  (shouldEvaluate e s.filterStats input.bar.time input.indicators).1 = none →
    EachIntrabar e checks input regime (beforeReplay e input s) ∧
      ∀ replayed ∈ replayChildren e input regime (beforeReplay e input s),
        EachConfirmed e checks input regime replayed

/-- Every part of a main bar. -/
def EachPart (s : State V) (input : BarInput) : Prop :=
  checks.exits input s ∧
    ∀ opened ∈ openBar e input s, ∀ regime ∈ regimeOf e input,
      (e.config.pendingEntryEnabled = true →
        EachPending e checks (barContext input regime) opened) ∧
      ∀ filled ∈ fillPendingEntries e input opened,
        EachEvaluated e checks input regime (backfill input filled)

end Parts

section Decide

variable (e : Engine V) (checks : Checks V) [∀ input s, Decidable (checks.exits input s)]
  [∀ context breaker loop group, Decidable (checks.pending context breaker loop group)]
  [∀ plan call breaker synthesized loop decision,
    Decidable (checks.intrabar plan call breaker synthesized loop decision)]
  [∀ input regime s decision, Decidable (checks.confirmed input regime s decision)]

instance (context : BarContext) (s : State V) : Decidable (EachPending e checks context s) :=
  inferInstanceAs (Decidable (Along _ _ _ _))

instance (plan : IntrabarPlan) (call : SubLoopCall V) (breaker : CircuitBreaker)
    (loop : SubLoop V) (accumulated : List Ohlc) :
    Decidable (EachOnChild e checks plan call breaker loop accumulated) :=
  inferInstanceAs (Decidable (∀ _ ∈ _, ∀ _ ∈ _, _))

instance (input : BarInput) (regime : RegimeType) (s : State V) :
    Decidable (EachIntrabar e checks input regime s) :=
  inferInstanceAs (Decidable (∀ _ ∈ _, ∀ _ ∈ _, ∀ _ ∈ _, _ → Along _ _ _ _))

instance (input : BarInput) (regime : RegimeType) (s : State V) :
    Decidable (EachConfirmed e checks input regime s) :=
  inferInstanceAs (Decidable (Along _ _ _ _))

instance (input : BarInput) (regime : RegimeType) (s : State V) :
    Decidable (EachEvaluated e checks input regime s) :=
  inferInstanceAs (Decidable (_ → _ ∧ ∀ _ ∈ _, _))

instance (s : State V) (input : BarInput) : Decidable (EachPart e checks s input) :=
  inferInstanceAs (Decidable (_ ∧ ∀ _ ∈ _, ∀ _ ∈ _, (_ → _) ∧ ∀ _ ∈ _, _))

end Decide

/-! ### What the parts uphold -/

section Rule

variable {e : Engine V} {I : List Position → Prop} {asked met : Checks V}

/-- Where the open positions have the invariant and something is asked of a part, the part meets
its goal and keeps the invariant. -/
structure Upholds (e : Engine V) (I : List Position → Prop) (asked met : Checks V) : Prop where
  exits : ∀ input s, I s.portfolio.openPositions → asked.exits input s →
    met.exits input s ∧ ∀ t ∈ openBar e input s, I t.portfolio.openPositions
  pending : ∀ context breaker loop group, I loop.1.portfolio.openPositions →
    asked.pending context breaker loop group →
      met.pending context breaker loop group ∧
        ∀ t ∈ checkPendingGroup e context loop group, I t.1.portfolio.openPositions
  intrabar : ∀ plan call breaker synthesized loop decision,
    I loop.1.book.portfolio.openPositions →
      asked.intrabar plan call breaker synthesized loop decision →
        met.intrabar plan call breaker synthesized loop decision ∧
          ∀ t ∈ handleIntrabarDecision e plan call synthesized loop decision,
            I t.1.book.portfolio.openPositions
  confirmed : ∀ input regime s decision, I s.portfolio.openPositions →
    asked.confirmed input regime s decision →
      met.confirmed input regime s decision ∧
        ∀ t ∈ takeDecision e input regime s decision, I t.portfolio.openPositions

/-- What single steps uphold, a run upholds. -/
theorem along_upheld {S A : Type*} {step : S → A → Option S} {guard goal : S → A → Prop}
    {J : S → Prop} (hstep : ∀ s a, J s → guard s a → goal s a ∧ ∀ t ∈ step s a, J t)
    {s : S} {labels : List A} (hs : J s) (halong : Along step guard s labels) :
    Along step goal s labels ∧ ∀ t ∈ run step s labels, J t :=
  ⟨along_of_invariant (fun s a t hJ hguard ht => (hstep s a hJ hguard).2 t ht)
      (fun s a hJ hguard => (hstep s a hJ hguard).1) hs halong,
    fun _ ht => run_invariant_along
      (fun s a t hJ hguard ht => (hstep s a hJ hguard).2 t ht) hs halong ht⟩

variable {s : State V}

theorem Upholds.checkPending (h : Upholds e I asked met) {context : BarContext}
    (hI : I s.portfolio.openPositions) (hasked : EachPending e asked context s) :
    EachPending e met context s ∧
      ∀ desk ∈ checkPendingEntries e s.toDesk context, I desk.portfolio.openPositions := by
  obtain ⟨hmet, hrun⟩ := along_upheld
    (J := fun loop : Book × List (BacktestPendingGroup V) => I loop.1.portfolio.openPositions)
    (h.pending context s.breaker) hI hasked
  refine ⟨hmet, ?_⟩
  intro desk hdesk
  obtain ⟨loop, hloop, rfl⟩ := Option.map_eq_some_iff.mp hdesk
  rw [← run_eq_foldlM] at hloop
  exact hrun loop hloop

variable {input : BarInput} {regime : RegimeType}

theorem Upholds.fillPending (h : Upholds e I asked met)
    (hregime : regimeOf e input = some regime) (hI : I s.portfolio.openPositions)
    (hasked : e.config.pendingEntryEnabled = true →
      EachPending e asked (barContext input regime) s) :
    (e.config.pendingEntryEnabled = true → EachPending e met (barContext input regime) s) ∧
      ∀ filled ∈ fillPendingEntries e input s, I filled.portfolio.openPositions := by
  rw [fillPendingEntries, hregime]
  dsimp only
  cases hpending : e.config.pendingEntryEnabled with
  | false =>
    refine ⟨fun hno => absurd hno Bool.false_ne_true, ?_⟩
    rintro filled ⟨⟩
    exact hI
  | true =>
    obtain ⟨hmet, hdesks⟩ := h.checkPending hI (hasked hpending)
    refine ⟨fun _ => hmet, ?_⟩
    intro filled hfilled
    obtain ⟨desk, hdesk, rfl⟩ := Option.map_eq_some_iff.mp hfilled
    exact hdesks desk hdesk

theorem Upholds.onChild (h : Upholds e I asked met) {plan : IntrabarPlan}
    {call : SubLoopCall V} {breaker : CircuitBreaker} (loop : SubLoop V) (accumulated : List Ohlc)
    (hI : I loop.book.portfolio.openPositions)
    (hasked : EachOnChild e asked plan call breaker loop accumulated) :
    EachOnChild e met plan call breaker loop accumulated ∧
      ∀ t ∈ runChild e plan call loop accumulated, I t.book.portfolio.openPositions := by
  have hdecisions : ∀ synthesized ∈ synthesizeParentBar (accumulated.map Ohlc.toCandle)
      e.config.symbol e.config.timeframe call.parentTime,
      ∀ decisions ∈ intrabarDecisions e plan call synthesized,
        Along (handleIntrabarDecision e plan call synthesized)
          (met.intrabar plan call breaker synthesized) (countEvaluations loop decisions, [])
          decisions ∧
        ∀ t ∈ run (handleIntrabarDecision e plan call synthesized)
          (countEvaluations loop decisions, []) decisions, I t.1.book.portfolio.openPositions :=
    fun synthesized hsynthesized decisions hevaluated =>
      along_upheld
        (J := fun loop : SubLoop V × List (String × Direction) =>
          I loop.1.book.portfolio.openPositions)
        (h.intrabar plan call breaker synthesized) hI
        (hasked synthesized hsynthesized decisions hevaluated)
  refine ⟨fun synthesized hsynthesized decisions hevaluated =>
    (hdecisions synthesized hsynthesized decisions hevaluated).1, ?_⟩
  intro t ht
  unfold runChild at ht
  split at ht
  · rename_i child synthesized hchild hsynthesized
    split at ht
    · cases Option.some.inj ht
      exact hI
    · rename_i decisions hevaluated
      obtain ⟨result, hresult, rfl⟩ := Option.map_eq_some_iff.mp ht
      rw [← run_eq_foldlM] at hresult
      exact (hdecisions synthesized hsynthesized decisions hevaluated).2 result hresult
  · cases ht

theorem Upholds.replay (h : Upholds e I asked met) (hI : I s.portfolio.openPositions)
    (hasked : EachIntrabar e asked input regime s) : EachIntrabar e met input regime s ∧
      ∀ t ∈ replayChildren e input regime s, I t.portfolio.openPositions := by
  have hloops : ∀ plan ∈ e.intrabar, ∀ context ∈ s.intrabar,
      ∀ atr ∈ referenceAtr input.indicators, lowCoverage e plan input.childBars = false →
      Along (runChild e plan (subLoopCall e input regime atr s))
        (EachOnChild e met plan (subLoopCall e input regime atr s) s.breaker)
        ⟨s.toBook, context⟩ (accumulations input.childBars) ∧
      ∀ t ∈ run (runChild e plan (subLoopCall e input regime atr s))
        ⟨s.toBook, context⟩ (accumulations input.childBars), I t.book.portfolio.openPositions :=
    fun plan hplan context hcontext atr hatr hcovered =>
      along_upheld (J := fun loop : SubLoop V => I loop.book.portfolio.openPositions)
        h.onChild hI (hasked plan hplan context hcontext atr hatr hcovered)
  refine ⟨fun plan hplan context hcontext atr hatr hcovered =>
    (hloops plan hplan context hcontext atr hatr hcovered).1, ?_⟩
  intro t ht
  unfold replayChildren at ht
  split at ht
  · rename_i plan context hplan hcontext
    obtain ⟨atr, hatr, hloop⟩ := Option.bind_eq_some_iff.mp ht
    obtain ⟨loop, hreplayed, rfl⟩ := Option.map_eq_some_iff.mp hloop
    unfold runIntrabarSubLoop at hreplayed
    split_ifs at hreplayed with hnone hlow
    · cases Option.some.inj hreplayed
      exact hI
    · cases Option.some.inj hreplayed
      exact hI
    · obtain ⟨last, hlast, rfl⟩ := Option.map_eq_some_iff.mp hreplayed
      exact (hloops plan hplan context hcontext atr hatr (eq_false_of_ne_true hlow)).2 last hlast
  · cases Option.some.inj ht
    exact hI

theorem openPositions_sampleEquity (e : Engine V) (input : BarInput) (s : State V) :
    (sampleEquity e input s).portfolio.openPositions = s.portfolio.openPositions := by
  unfold sampleEquity
  split
  · exact (sameCash_recordEquity e.settings s.portfolio (toBar input.bar)).positions
  · rfl

theorem Upholds.confirm (h : Upholds e I asked met) (hI : I s.portfolio.openPositions)
    (hasked : EachConfirmed e asked input regime s) : EachConfirmed e met input regime s ∧
      ∀ t ∈ confirmBar e input regime s, I t.portfolio.openPositions := by
  obtain ⟨hmet, hrun⟩ := along_upheld (J := fun s : State V => I s.portfolio.openPositions)
    (h.confirmed input regime) hI hasked
  refine ⟨hmet, ?_⟩
  intro t ht
  obtain ⟨taken, htaken, rfl⟩ := Option.map_eq_some_iff.mp ht
  rw [← run_eq_foldlM] at htaken
  rw [openPositions_sampleEquity]
  exact hrun taken htaken

theorem Upholds.evaluate (h : Upholds e I asked met) (hI : I s.portfolio.openPositions)
    (hasked : EachEvaluated e asked input regime s) : EachEvaluated e met input regime s ∧
      ∀ t ∈ evaluateBar e input regime s, I t.portfolio.openPositions := by
  unfold EachEvaluated evaluateBar at *
  dsimp only
  cases hverdict : (shouldEvaluate e s.filterStats input.bar.time input.indicators).1 with
  | some reason =>
    refine ⟨fun hnone => (Option.some_ne_none reason hnone).elim, ?_⟩
    rintro t ⟨⟩
    exact hI
  | none =>
    obtain ⟨hintrabar, hconfirmed⟩ := hasked hverdict
    obtain ⟨hmet, hreplays⟩ := h.replay (s := beforeReplay e input s) hI hintrabar
    refine ⟨fun _ => ⟨hmet, ?_⟩, ?_⟩
    · intro replayed hreplayed
      exact (h.confirm (hreplays replayed hreplayed) (hconfirmed replayed hreplayed)).1
    · intro t ht
      obtain ⟨replayed, hreplayed, hend⟩ := Option.bind_eq_some_iff.mp ht
      exact (h.confirm (hreplays replayed hreplayed) (hconfirmed replayed hreplayed)).2 t hend

/-- The parts of a bar uphold the invariant one after the other. -/
theorem Upholds.bar (h : Upholds e I asked met) (s : State V) (input : BarInput)
    (hI : I s.portfolio.openPositions) (hasked : EachPart e asked s input) :
    EachPart e met s input ∧ ∀ t ∈ step e s input, I t.portfolio.openPositions := by
  obtain ⟨hexits, hparts⟩ := hasked
  obtain ⟨hmet, hopens⟩ := h.exits input s hI hexits
  refine ⟨⟨hmet, ?_⟩, ?_⟩
  · intro opened hopened regime hregime
    obtain ⟨hpending, hevaluated⟩ := hparts opened hopened regime hregime
    obtain ⟨hfills, hfilled⟩ := h.fillPending hregime (hopens opened hopened) hpending
    refine ⟨hfills, ?_⟩
    intro filled hmem
    exact (h.evaluate (s := backfill input filled) (hfilled filled hmem)
      (hevaluated filled hmem)).1
  · intro t ht
    obtain ⟨opened, hopened, hrest⟩ := Option.bind_eq_some_iff.mp ht
    obtain ⟨filled, hmem, hend⟩ := Option.bind_eq_some_iff.mp hrest
    cases hregime : regimeOf e input with
    | none =>
      rw [fillPendingEntries, hregime] at hmem
      cases Option.some.inj hmem
      rw [hregime] at hend
      cases Option.some.inj hend
      exact hopens opened hopened
    | some regime =>
      obtain ⟨hpending, hevaluated⟩ := hparts opened hopened regime hregime
      obtain ⟨-, hfilled⟩ := h.fillPending hregime (hopens opened hopened) hpending
      rw [hregime] at hend
      exact (h.evaluate (s := backfill input filled) (hfilled filled hmem)
        (hevaluated filled hmem)).2 t hend

end Rule

end MT5Services.BacktestRounds
