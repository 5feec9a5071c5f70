import MT5Services.BacktestRounds

/-!
The limits of a strategy in a backtest: one open position in a direction, as many in all as its
deployment allows, and no entry while the circuit breaker holds. A confirmed decision is tested
against them right before it enters at the market. A pending group was tested when it was placed
and fills bars later without a test, and an intrabar entry is never tested. Where those find
the limits kept, a whole run keeps them.
-/
namespace MT5Services.PositionLimits

open BacktestData BacktestDecisions BacktestEngine BacktestIntrabar BacktestRounds ExitRules
open IntrabarSynthesis Portfolio Runs TradeSizing

variable {V : Type*}

/-! ### Caps on a list -/

section Caps

variable {α : Type*} {kind : α → Bool} {cap : ℤ} {items part : List α}

/-- No more items of a kind than the cap; a negative cap allows none. -/
def Capped (kind : α → Bool) (cap : ℤ) (items : List α) : Prop :=
  (items.countP kind : ℤ) ≤ max 0 cap

theorem capped_nil : Capped kind cap [] := le_max_left ..

theorem Capped.sublist (h : Capped kind cap items) (hpart : part.Sublist items) :
    Capped kind cap part :=
  (Int.ofNat_le.mpr hpart.countP_le).trans h

/-- One more item where there is room for it. -/
theorem Capped.concat (h : Capped kind cap items) {item : α}
    (hroom : kind item = true → (items.countP kind : ℤ) < cap) :
    Capped kind cap (items ++ [item]) := by
  unfold Capped at h ⊢
  rw [List.countP_append, List.countP_singleton]
  split
  · rename_i hkind
    have hless := hroom hkind
    push_cast
    omega
  · exact h

/-- Where one more is within the cap there was room for it. -/
theorem Capped.room {item : α} (h : Capped kind cap (items ++ [item]))
    (hkind : kind item = true) : (items.countP kind : ℤ) < cap := by
  unfold Capped at h
  rw [List.countP_append, List.countP_singleton, if_pos hkind] at h
  push_cast at h
  omega

end Caps

/-! ### The limits -/

/-- What a position counts for. -/
def holding (pos : Position) : String × Direction := (pos.strategy, pos.direction)

structure Limited (e : Engine V) (positions : List Position) : Prop where
  perDirection : ∀ strategy direction,
    Capped (fun held => held = (strategy, direction)) 1 (positions.map holding)
  perStrategy : ∀ strategy limit, maxLivePositions e strategy = some limit →
    Capped (fun held => held.1 = strategy) limit (positions.map holding)

/-- The breaker, when there is one, holds entries back on this bar. -/
def paused (e : Engine V) (breaker : CircuitBreaker) (barIndex : ℕ) : Bool :=
  e.config.circuitBreaker.any fun config => (breaker.isPaused config barIndex).1

/-- A part of a bar finds the limits kept and leaves them kept, and it opens nothing during a
pause. -/
structure Keeps (e : Engine V) (breaker : CircuitBreaker) (barIndex : ℕ) (before : Tracker)
    (after : Option Tracker) : Prop where
  found : Limited e before.openPositions
  left : ∀ t ∈ after, Limited e t.openPositions
  unpaused : ∀ t ∈ after, before.openPositions.length < t.openPositions.length →
    paused e breaker barIndex = false

/-- Every part of a bar keeps the limits. -/
def limiting (e : Engine V) : Checks V where
  exits input s := Keeps e s.breaker input.barIndex s.portfolio
    ((openBar e input s).map fun t => t.portfolio)
  pending context breaker loop group := Keeps e breaker context.barIndex loop.1.portfolio
    ((checkPendingGroup e context loop group).map fun t => t.1.portfolio)
  intrabar plan call breaker synthesized loop decision :=
    Keeps e breaker call.barIndex loop.1.book.portfolio
      ((handleIntrabarDecision e plan call synthesized loop decision).map
        fun t => t.1.book.portfolio)
  confirmed input regime s decision := Keeps e s.breaker input.barIndex s.portfolio
    ((takeDecision e input regime s decision).map fun t => t.portfolio)

/-- The limits hold at every moment of a run over these bars, from its reset to its end. -/
structure KeptThroughout (e : Engine V) (prepared : Kept V) (inputs : List BarInput) : Prop where
  parts : Along (step e) (EachPart e (limiting e)) (resetRunState e prepared) inputs
  bars : ∀ s ∈ run (step e) (resetRunState e prepared) inputs, Limited e s.portfolio.openPositions
  finished : ∀ s ∈ run (step e) (resetRunState e prepared) inputs, ∀ last testCount,
    Limited e (finish e last testCount s).portfolio.openPositions

/-! ### Where they are not tested -/

/-- The tests of `process_decision`. -/
structure Room (e : Engine V) (breaker : CircuitBreaker) (barIndex : ℕ)
    (positions : List Position) (strategy : String) (action : Direction) : Prop where
  gates : GatesOpen e positions strategy action
  unpaused : paused e breaker barIndex = false

/-- The fills of pending groups and the intrabar entries find the limits kept. -/
def minding (e : Engine V) : Checks V where
  exits _ _ := True
  pending context breaker loop group := Fills context group →
    Room e breaker context.barIndex loop.1.portfolio.openPositions group.decision.strategy
      group.action
  intrabar plan call breaker synthesized loop decision := ∀ action ∈ decision.direction,
    Enters e plan call synthesized loop.1.context decision action →
      Room e breaker call.barIndex loop.1.book.portfolio.openPositions decision.strategy action
  confirmed _ _ _ _ := True

/-! ### An entry -/

section Entries

variable {e : Engine V}

theorem limited_nil (e : Engine V) : Limited e [] :=
  ⟨fun _ _ => capped_nil, fun _ _ _ => capped_nil⟩

theorem Limited.of_sublist {positions remaining : List Position} (h : Limited e positions)
    (hpart : (remaining.map holding).Sublist (positions.map holding)) : Limited e remaining :=
  ⟨fun strategy direction => (h.perDirection strategy direction).sublist hpart,
    fun strategy limit hlimit => (h.perStrategy strategy limit hlimit).sublist hpart⟩

variable {breaker : CircuitBreaker} {barIndex : ℕ}

theorem Limited.concat {positions : List Position} {pos : Position} (h : Limited e positions)
    (hroom : Room e breaker barIndex positions pos.strategy pos.direction) :
    Limited e (positions ++ [pos]) := by
  constructor
  · intro strategy direction
    rw [List.map_append, List.map_singleton]
    refine (h.perDirection strategy direction).concat ?_
    intro hkind
    have hsame : holding pos = (strategy, direction) := of_decide_eq_true hkind
    have hnone : (positions.map holding).countP
        (fun held => held = (strategy, direction)) = 0 := by
      rw [List.countP_eq_zero]
      intro held hheld hkind
      obtain ⟨other, hother, rfl⟩ := List.mem_map.mp hheld
      have hboth : holding other = holding pos := (of_decide_eq_true hkind).trans hsame.symm
      exact hroom.gates.direction other hother ⟨congrArg Prod.fst hboth, congrArg Prod.snd hboth⟩
    rw [hnone]
    exact one_pos
  · intro strategy limit hlimit
    rw [List.map_append, List.map_singleton]
    refine (h.perStrategy strategy limit hlimit).concat ?_
    intro hkind
    have hsame : pos.strategy = strategy := of_decide_eq_true hkind
    subst hsame
    have hless := hroom.gates.limit limit hlimit
    rw [List.countP_map]
    exact hless

/-- Nothing opens, or a position of the strategy in the direction. -/
def OpensOne (strategy : String) (action : Direction) (before after : List Position) : Prop :=
  after = before ∨
    ∃ pos, pos.strategy = strategy ∧ pos.direction = action ∧ after = before ++ [pos]

theorem openPosition_opens (c : Settings) (s : Tracker) (order : OpenOrder) :
    OpensOne order.strategy order.action s.openPositions
      (openPosition c s order).openPositions := by
  have hsame := (sameCash_canOpenPosition c s order.bar order.tradeParams).positions
  unfold openPosition
  split
  · rename_i gated refusal hgate
    rw [hgate] at hsame
    exact Or.inl hsame
  · rename_i gated hgate
    rw [hgate] at hsame
    refine Or.inr ⟨newPosition c gated order, rfl, rfl, ?_⟩
    dsimp only
    rw [← hsame]

theorem openEntry_opens (b : Book) (entry : Entry V) (trade : TradeParameters) :
    OpensOne entry.decision.strategy entry.action b.portfolio.openPositions
      (openEntry e b entry trade).portfolio.openPositions := by
  have hsame :=
    (sameCash_canOpenPosition e.settings b.portfolio (toBar entry.bar) trade).positions
  unfold openEntry
  split
  · rename_i portfolio refusal hgate
    rw [hgate] at hsame
    exact Or.inl hsame
  · rename_i portfolio hgate
    rw [hgate] at hsame
    have hopens := openPosition_opens e.settings portfolio (openOrder e entry trade)
    rw [hsame] at hopens
    dsimp only
    split
    · exact hopens
    · exact hopens

theorem executeEntry_opens {b c : Book} {entry : Entry V} (h : executeEntry e b entry = some c) :
    OpensOne entry.decision.strategy entry.action b.portfolio.openPositions
      c.portfolio.openPositions := by
  unfold executeEntry at h
  dsimp only at h
  split at h
  · cases h
  · cases Option.some.inj h
    exact Or.inl rfl
  · split at h
    · cases Option.some.inj h
      exact Or.inl rfl
    · cases Option.some.inj h
      exact openEntry_opens b entry _

/-- What opens where there is room keeps the limits. -/
theorem Keeps.of_opens {before : Tracker}
    {after : Option Tracker} (hfound : Limited e before.openPositions)
    (hopens : ∀ t ∈ after, t.openPositions = before.openPositions ∨
      ∃ strategy action, Room e breaker barIndex before.openPositions strategy action ∧
        OpensOne strategy action before.openPositions t.openPositions) :
    Keeps e breaker barIndex before after := by
  refine ⟨hfound, ?_, ?_⟩
  · intro t ht
    rcases hopens t ht with hsame | ⟨strategy, action, hroom, hsame | ⟨pos, rfl, rfl, hnew⟩⟩
    · rw [hsame]
      exact hfound
    · rw [hsame]
      exact hfound
    · rw [hnew]
      exact hfound.concat hroom
  · intro t ht hmore
    rcases hopens t ht with hsame | ⟨strategy, action, hroom, -⟩
    · rw [hsame] at hmore
      exact absurd hmore (lt_irrefl _)
    · exact hroom.unpaused

/-- A part that opens a position and keeps the limits has found room for it. -/
theorem Keeps.room {before t : Tracker}
    {pos : Position} (h : Keeps e breaker barIndex before (some t))
    (hopened : t.openPositions = before.openPositions ++ [pos]) :
    Room e breaker barIndex before.openPositions pos.strategy pos.direction := by
  have hleft := h.left t rfl
  rw [hopened] at hleft
  have hsplit : (before.openPositions ++ [pos]).map holding =
      before.openPositions.map holding ++ [holding pos] := List.map_append
  refine ⟨⟨?_, ?_⟩, ?_⟩
  · rintro other hother ⟨hstrategy, hdirection⟩
    have hone := hleft.perDirection pos.strategy pos.direction
    rw [hsplit] at hone
    have hheld : holding other = (pos.strategy, pos.direction) := Prod.ext hstrategy hdirection
    have hpositive : 0 < (before.openPositions.map holding).countP
        (fun held => held = (pos.strategy, pos.direction)) :=
      List.countP_pos_iff.mpr ⟨holding other, List.mem_map_of_mem hother, decide_eq_true hheld⟩
    have hless := hone.room (decide_eq_true rfl)
    omega
  · intro limit hlimit
    have hmost := hleft.perStrategy pos.strategy limit hlimit
    rw [hsplit] at hmost
    have hless := hmost.room (decide_eq_true rfl)
    rw [List.countP_map] at hless
    exact hless
  · refine h.unpaused t rfl ?_
    rw [hopened, List.length_append, List.length_singleton]
    exact Nat.lt_succ_self _

end Entries

/-! ### The exits -/

section Exits

variable {e : Engine V}

theorem holding_portfolioAtOpen (e : Engine V) (input : BarInput) (atr : ℚ) (s : Tracker) :
    (portfolioAtOpen e input atr s).openPositions.map holding = s.openPositions.map holding := by
  have hobserved : (observeBar e.settings s (toBar input.bar)).openPositions = s.openPositions :=
    (sameCash_ensureDayStartEquity _ _ _).positions
  unfold portfolioAtOpen
  rw [(sameCash_updateAtrReference _ atr).positions]
  unfold applyOvernightSwap
  split_ifs
  · rw [hobserved]
  · rw [hobserved]
  · rw [hobserved]
  · dsimp only
    rw [hobserved, List.map_map]
    rfl

variable {c : Settings} {bar : Bar} {barIndex : ℤ} {readings : BarReadings}

/-- A round of the exits closes the position or keeps what it counts for. -/
theorem checkPosition_holding {loop next : Tracker × List Position} {pos : Position}
    (h : checkPosition c bar barIndex readings loop pos = some next) :
    next.2 = loop.2 ∨ ∃ kept, holding kept = holding pos ∧ next.2 = loop.2 ++ [kept] := by
  unfold checkPosition at h
  split at h
  · cases Option.some.inj h
    exact Or.inl rfl
  · split at h
    · cases h
    · rename_i result _
      dsimp only at h
      split at h
      · cases Option.some.inj h
        exact Or.inl rfl
      · cases Option.some.inj h
        refine Or.inr ⟨_, ?_, rfl⟩
        unfold evaluated
        rw [noteDirection_eq]
        rfl

theorem checkPositions_holding {positions : List Position} {loop last : Tracker × List Position}
    (h : positions.foldlM (checkPosition c bar barIndex readings) loop = some last) :
    (last.2.map holding).Sublist ((loop.2 ++ positions).map holding) := by
  induction positions generalizing loop with
  | nil =>
    cases Option.some.inj h
    rw [List.append_nil]
  | cons pos rest ih =>
    rw [List.foldlM_cons] at h
    obtain ⟨next, hnext, hrest⟩ := Option.bind_eq_some_iff.mp h
    refine (ih hrest).trans ?_
    rcases checkPosition_holding hnext with hclosed | ⟨kept, hsame, hkept⟩
    · rw [hclosed]
      exact ((List.sublist_cons_self pos rest).append_left loop.2).map holding
    · rw [hkept]
      simp [hsame]

theorem checkExits_holding {s t : Tracker} (h : checkExits c s bar barIndex readings = some t) :
    (t.openPositions.map holding).Sublist (s.openPositions.map holding) := by
  unfold checkExits at h
  split_ifs at h
  · cases Option.some.inj h
    exact List.nil_sublist _
  · cases Option.some.inj h
    exact List.nil_sublist _
  · obtain ⟨loop, hloop, rfl⟩ := Option.map_eq_some_iff.mp h
    exact checkPositions_holding hloop

/-- The exits only take positions away. -/
theorem openBar_holding {input : BarInput} {s t : State V} (h : openBar e input s = some t) :
    (t.portfolio.openPositions.map holding).Sublist
      (s.portfolio.openPositions.map holding) := by
  obtain ⟨atr, -, hexits⟩ := Option.bind_eq_some_iff.mp h
  obtain ⟨exited, hexited, rfl⟩ := Option.map_eq_some_iff.mp hexits
  have hframe := foldl_frame (noteOutcome e input.barIndex) (fun s => s.portfolio)
    (exited.closedTrades.drop (portfolioAtOpen e input atr s.portfolio).closedTrades.length)
    (fun _ _ _ => rfl) { s with portfolio := exited }
  rw [hframe, ← holding_portfolioAtOpen e input atr s.portfolio]
  exact checkExits_holding hexited

theorem openBar_keeps (input : BarInput) (s : State V)
    (hfound : Limited e s.portfolio.openPositions) :
    Keeps e s.breaker input.barIndex s.portfolio
      ((openBar e input s).map fun t => t.portfolio) := by
  have hpart : ∀ portfolio ∈ (openBar e input s).map fun t => t.portfolio,
      (portfolio.openPositions.map holding).Sublist (s.portfolio.openPositions.map holding) := by
    intro portfolio hportfolio
    obtain ⟨t, ht, rfl⟩ := Option.map_eq_some_iff.mp hportfolio
    exact openBar_holding ht
  refine ⟨hfound, fun portfolio hportfolio => hfound.of_sublist (hpart portfolio hportfolio), ?_⟩
  intro portfolio hportfolio hmore
  have hlength := (hpart portfolio hportfolio).length_le
  rw [List.length_map, List.length_map] at hlength
  exact absurd hmore (not_lt.mpr hlength)

end Exits

/-! ### The entries -/

section Tested

variable {e : Engine V}

theorem Unentered.same {b c : Book} (h : Unentered b c) :
    c.portfolio.openPositions = b.portfolio.openPositions := by
  rcases h with rfl | ⟨reason, rfl⟩
  · rfl
  · rfl

theorem Entered.opens {b c : Book} {decision : SignalDecision V} {action : Direction} {bar : Ohlc}
    (h : Entered e decision action bar b c) :
    OpensOne decision.strategy action b.portfolio.openPositions c.portfolio.openPositions := by
  obtain ⟨entry, rfl, rfl, -, hentry⟩ := h
  exact executeEntry_opens hentry

theorem askBreaker_eq (e : Engine V) (d : Desk V) (barIndex : ℕ) :
    (askBreaker e d barIndex).1 = paused e d.breaker barIndex := by
  unfold askBreaker paused
  cases e.config.circuitBreaker with
  | none => rfl
  | some config => rfl

theorem coordinate_desk (e : Engine V) (input : BarInput) (decision : SignalDecision V)
    (s : State V) : (coordinate e input decision s).2.toDesk = s.toDesk := by
  unfold coordinate
  split
  · rfl
  · rfl

theorem takeDecision_opens {input : BarInput} {regime : RegimeType} {s t : State V}
    {decision : SignalDecision V} (h : takeDecision e input regime s decision = some t) :
    t.portfolio.openPositions = s.portfolio.openPositions ∨
      ∃ action, Room e s.breaker input.barIndex s.portfolio.openPositions decision.strategy
          action ∧
        OpensOne decision.strategy action s.portfolio.openPositions
          t.portfolio.openPositions := by
  unfold takeDecision at h
  dsimp only at h
  split at h
  · cases Option.some.inj h
    rw [coordinate_desk]
    exact Or.inl rfl
  · obtain ⟨desk, hdesk, rfl⟩ := Option.map_eq_some_iff.mp h
    rw [coordinate_desk] at hdesk
    rcases processDecision_cases hdesk with hunentered | ⟨action, hasked, hgates, hentered⟩
    · exact Or.inl (Unentered.same hunentered)
    · rw [askBreaker_eq] at hasked
      exact Or.inr ⟨action, ⟨hgates, hasked⟩, Entered.opens hentered⟩

end Tested

/-! ### Whole runs -/

section Throughout

variable {e : Engine V}

theorem upholds_limits (e : Engine V) : Upholds e (Limited e) (minding e) (limiting e) where
  exits := by
    intro input s hfound _
    have hkeeps := openBar_keeps input s hfound
    refine ⟨hkeeps, ?_⟩
    intro t ht
    exact hkeeps.left t.portfolio (Option.map_eq_some_iff.mpr ⟨t, ht, rfl⟩)
  pending := by
    intro context breaker loop group hfound hasked
    have hkeeps : (limiting e).pending context breaker loop group := by
      refine Keeps.of_opens hfound ?_
      intro portfolio hportfolio
      obtain ⟨t, ht, rfl⟩ := Option.map_eq_some_iff.mp hportfolio
      rcases checkPendingGroup_cases ht with hsame | ⟨hfills, hentered⟩
      · rw [hsame]
        exact Or.inl rfl
      · exact Or.inr ⟨_, _, hasked hfills, Entered.opens hentered⟩
    refine ⟨hkeeps, ?_⟩
    intro t ht
    exact hkeeps.left t.1.portfolio (Option.map_eq_some_iff.mpr ⟨t, ht, rfl⟩)
  intrabar := by
    intro plan call breaker synthesized loop decision hfound hasked
    have hkeeps : (limiting e).intrabar plan call breaker synthesized loop decision := by
      refine Keeps.of_opens hfound ?_
      intro portfolio hportfolio
      obtain ⟨t, ht, rfl⟩ := Option.map_eq_some_iff.mp hportfolio
      obtain ⟨-, hsame | ⟨action, haction, henters, hentered⟩⟩ := handleIntrabarDecision_cases ht
      · rw [hsame]
        exact Or.inl rfl
      · exact Or.inr ⟨_, _, hasked action haction henters, Entered.opens hentered⟩
    refine ⟨hkeeps, ?_⟩
    intro t ht
    exact hkeeps.left t.1.book.portfolio (Option.map_eq_some_iff.mpr ⟨t, ht, rfl⟩)
  confirmed := by
    intro input regime s decision hfound _
    have hkeeps : (limiting e).confirmed input regime s decision := by
      refine Keeps.of_opens hfound ?_
      intro portfolio hportfolio
      obtain ⟨t, ht, rfl⟩ := Option.map_eq_some_iff.mp hportfolio
      rcases takeDecision_opens ht with hsame | ⟨action, hroom, hopens⟩
      · exact Or.inl hsame
      · exact Or.inr ⟨_, _, hroom, hopens⟩
    refine ⟨hkeeps, ?_⟩
    intro t ht
    exact hkeeps.left t.portfolio (Option.map_eq_some_iff.mpr ⟨t, ht, rfl⟩)

/-- In a run whose fills and intrabar entries find the limits kept, the limits are kept at every
moment and nothing opens during a pause. -/
theorem kept_throughout (e : Engine V) (prepared : Kept V) (inputs : List BarInput)
    (hminds : Along (step e) (EachPart e (minding e)) (resetRunState e prepared) inputs) :
    KeptThroughout e prepared inputs := by
  obtain ⟨hparts, hbars⟩ := along_upheld
    (J := fun s : State V => Limited e s.portfolio.openPositions)
    (upholds_limits e).bar (limited_nil e) hminds
  -- the forced closes leave nothing open
  exact ⟨hparts, hbars, fun _ _ _ _ => limited_nil e⟩

end Throughout

section Runs

instance (e : Engine V) (breaker : CircuitBreaker) (barIndex : ℕ) (positions : List Position)
    (strategy : String) (action : Direction) :
    Decidable (Room e breaker barIndex positions strategy action) :=
  decidable_of_iff
    ((∀ pos ∈ positions, ¬ (pos.strategy = strategy ∧ pos.direction = action)) ∧
      (∀ limit ∈ maxLivePositions e strategy,
        (positions.countP (fun pos => pos.strategy = strategy) : ℤ) < limit) ∧
      paused e breaker barIndex = false)
    ⟨fun h => ⟨⟨h.1, h.2.1⟩, h.2.2⟩, fun h => ⟨h.gates.direction, h.gates.limit, h.unpaused⟩⟩

instance (context : BarContext) (group : BacktestPendingGroup V) :
    Decidable (Fills context group) :=
  inferInstanceAs (Decidable (_ ∧ (∃ _ ∈ _, _) ∧ ∃ _ ∈ _, _))

instance (e : Engine V) (plan : IntrabarPlan) (call : SubLoopCall V) (synthesized : Ohlc)
    (context : IntrabarContext V) (decision : SignalDecision V) (action : Direction) :
    Decidable (Enters e plan call synthesized context decision action) :=
  inferInstanceAs (Decidable (_ ∧ _ ∧ _))

instance (e : Engine V) (input : BarInput) (s : State V) :
    Decidable ((minding e).exits input s) :=
  inferInstanceAs (Decidable True)

instance (e : Engine V) (context : BarContext) (breaker : CircuitBreaker)
    (loop : Book × List (BacktestPendingGroup V)) (group : BacktestPendingGroup V) :
    Decidable ((minding e).pending context breaker loop group) :=
  inferInstanceAs (Decidable (Fills context group → Room _ _ _ _ _ _))

instance (e : Engine V) (plan : IntrabarPlan) (call : SubLoopCall V) (breaker : CircuitBreaker)
    (synthesized : Ohlc) (loop : SubLoop V × List (String × Direction))
    (decision : SignalDecision V) :
    Decidable ((minding e).intrabar plan call breaker synthesized loop decision) :=
  inferInstanceAs (Decidable (∀ _ ∈ _, Enters _ _ _ _ _ _ _ → Room _ _ _ _ _ _))

instance (e : Engine V) (input : BarInput) (regime : RegimeType) (s : State V)
    (decision : SignalDecision V) : Decidable ((minding e).confirmed input regime s decision) :=
  inferInstanceAs (Decidable True)

def hourBar (hour : ℤ) (low : ℚ) : Ohlc where
  symbol := "XAUUSD"
  timeframe := "H1"
  time := hour * 3600
  openPrice := 100
  high := 100
  low := low
  close := 100
  volume := 1

/-- A warmup bar and three test bars; the price dips on the last one. -/
def dip : Feed where
  rows timeframe :=
    if timeframe = "H1" then [hourBar 0 100, hourBar 1 100, hourBar 2 100, hourBar 3 90] else []
  sorted timeframe := by
    split
    · decide
    · exact List.Pairwise.nil

/-- A strategy that buys at these times with a limit below the price. -/
def limitEngine (times : List ℤ) : Engine Unit where
  config := {
    symbol := "XAUUSD"
    timeframe := "H1"
    startTime := 1800
    endTime := 10800
    warmupBars := 1
    pendingEntryEnabled := true }
  targetStrategies := ["dip"]
  requiredIndicators := ["atr14"]
  capabilities := Dict.empty.set "dip" ⟨[.confirmed], ["atr14"]⟩
  pipeline _ _ _ := Dict.empty.set "atr14" (some (Dict.empty.set "atr" (.number 10)))
  detect _ := some .trending
  detectSoft _ := none
  analyzeStructure _ _ _ := none
  evaluate _ request :=
    if request.barTime ∈ times then
      some {
        strategy := request.strategy
        direction := some .buy
        confidence := 1
        metadata := () }
    else none
  currentSessions _ := []
  deriveEntryGroup _ _ _ := some ⟨[⟨"limit", .limit, 94, 95⟩]⟩
  strategyCategory _ := ""

def preparedFor (times : List ℤ) : Kept Unit :=
  prepare (limitEngine times) dip (constructed (limitEngine times))

def inputsFor (times : List ℤ) : List BarInput :=
  barInputs (limitEngine times) dip (preparedFor times)

/-- The positions at the end of the main loop. -/
def heldAfter (times : List ℤ) : Option (List (String × Direction)) :=
  (run (step (limitEngine times)) (resetRunState (limitEngine times) (preparedFor times))
    (inputsFor times)).map fun s => s.portfolio.openPositions.map holding

theorem oneFill_keptThroughout :
    heldAfter [3600] = some [("dip", .buy)] ∧
      KeptThroughout (limitEngine [3600]) (preparedFor [3600]) (inputsFor [3600]) :=
  ⟨by decide +kernel, kept_throughout _ _ _ (by decide +kernel)⟩

/-- Nothing is open when the second group is placed, and the dip fills both. -/
theorem twoFills_not_keptThroughout :
    heldAfter [3600, 7200] = some [("dip", .buy), ("dip", .buy)] ∧
      ¬ ∀ (e : Engine Unit) (prepared : Kept Unit) (inputs : List BarInput),
        KeptThroughout e prepared inputs := by
  have hheld : heldAfter [3600, 7200] = some [("dip", .buy), ("dip", .buy)] := by
    decide +kernel
  refine ⟨hheld, ?_⟩
  intro h
  obtain ⟨s, hs, hpositions⟩ := Option.map_eq_some_iff.mp hheld
  have hlimited := ((h (limitEngine [3600, 7200]) (preparedFor [3600, 7200])
    (inputsFor [3600, 7200])).bars s hs).perDirection "dip" .buy
  rw [hpositions] at hlimited
  revert hlimited
  unfold Capped
  decide

end Runs

end MT5Services.PositionLimits
