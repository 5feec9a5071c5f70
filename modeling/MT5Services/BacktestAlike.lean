import MT5Services.BacktestEngine
import MT5Services.Lockstep

/-!
Two runs of the backtest side by side. The samples of the equity leave a curve and a last
close that no gate and no exit reads; the history of the equity filter is read when the
filter is on. A sample also starts the equity of its day, which the bar has done already.
Runs whose bars differ in nothing but their samples therefore trade alike: they take the
same decisions, open the same positions and close the same trades.
-/
namespace MT5Services.BacktestAlike

open BacktestData BacktestDecisions BacktestEngine BacktestIntrabar ExitRules IntrabarSynthesis
open Lockstep Portfolio Runs TradeSizing

section Trackers

variable {c : Settings} {day : Option ℤ} {p q : Tracker}

/-- Portfolios that differ in nothing but what samples of the equity leave; on the given day
both have the first equity of the day. -/
structure SameTrading (c : Settings) (day : Option ℤ) (p q : Tracker) : Prop where
  trading : q = { p with
    lastBarCloseForEquity := q.lastBarCloseForEquity
    equityCurve := q.equityCurve
    equityHistory := q.equityHistory }
  history : c.equityCurveFilter.enabled = true → q.equityHistory = p.equityHistory
  started : ∀ d ∈ day, p.dailyStartEquity.contains d = true

/-- The other portfolio in terms of the first one. -/
theorem SameTrading.split (h : SameTrading c day p q) :
    ∃ last curve history, (c.equityCurveFilter.enabled = true → history = p.equityHistory) ∧
      q = { p with
        lastBarCloseForEquity := last
        equityCurve := curve
        equityHistory := history } :=
  ⟨_, _, _, h.history, h.trading⟩

theorem SameTrading.refl (p : Tracker) : SameTrading c none p p where
  trading := rfl
  history _ := rfl
  started _ hd := absurd hd (Option.not_mem_none _)

theorem SameTrading.symm (h : SameTrading c day p q) : SameTrading c day q p := by
  obtain ⟨last, curve, history, hhistory, rfl⟩ := h.split
  exact ⟨rfl, fun hon => (hhistory hon).symm, h.started⟩

theorem SameTrading.anyDay (h : SameTrading c day p q) : SameTrading c none p q where
  trading := h.trading
  history := h.history
  started _ hd := absurd hd (Option.not_mem_none _)

theorem contains_ensureDayStartEquity (time d : ℤ) (equity : ℚ)
    (h : d = dayOf time ∨ p.dailyStartEquity.contains d = true) :
    (ensureDayStartEquity p time equity).dailyStartEquity.contains d = true := by
  unfold ensureDayStartEquity
  split
  · rename_i hstarted
    rcases h with rfl | h
    · exact hstarted
    · exact h
  · rw [Dict.contains_set]
    rcases h with rfl | h
    · rw [decide_eq_true rfl, Bool.true_or]
    · rw [h, Bool.or_true]

theorem SameTrading.ensureDayStartEquity (h : SameTrading c day p q) (time : ℤ) (equity : ℚ) :
    SameTrading c day (ensureDayStartEquity p time equity) (ensureDayStartEquity q time equity) := by
  obtain ⟨last, curve, history, hhistory, rfl⟩ := h.split
  refine ⟨?_, ?_, fun d hd => contains_ensureDayStartEquity time d equity (Or.inr (h.started d hd))⟩
  · unfold Portfolio.ensureDayStartEquity
    split
    · rfl
    · rfl
  · unfold Portfolio.ensureDayStartEquity
    split
    · exact hhistory
    · exact hhistory

theorem SameTrading.observeBar (h : SameTrading c day p q) (bar : Bar) :
    SameTrading c (some (dayOf bar.time)) (observeBar c p bar) (observeBar c q bar) := by
  obtain ⟨last, curve, history, hhistory, rfl⟩ := h.split
  have hkeep := h.ensureDayStartEquity bar.time
    (p.currentBalance + floatingPnl c p.openPositions bar.openPrice)
  refine ⟨hkeep.trading, hkeep.history, fun d hd => ?_⟩
  cases Option.mem_some.mp hd
  exact contains_ensureDayStartEquity _ _ _ (Or.inl rfl)

theorem SameTrading.applyOvernightSwap (h : SameTrading c day p q) (bar : Bar) :
    SameTrading c day (applyOvernightSwap c p bar) (applyOvernightSwap c q bar) := by
  obtain ⟨last, curve, history, hhistory, rfl⟩ := h.split
  unfold Portfolio.applyOvernightSwap
  dsimp only
  split_ifs
  · exact h
  · exact h
  · exact h
  · exact ⟨rfl, hhistory, h.started⟩

theorem SameTrading.updateAtrReference (h : SameTrading c day p q) (atr : ℚ) :
    SameTrading c day (updateAtrReference p atr) (updateAtrReference q atr) := by
  obtain ⟨last, curve, history, hhistory, rfl⟩ := h.split
  unfold Portfolio.updateAtrReference
  split_ifs
  · exact ⟨rfl, hhistory, h.started⟩
  · exact h

/-! Closing. -/

theorem SameTrading.closePosition (h : SameTrading c day p q) (pos : Position)
    (closing : Closing) :
    SameTrading c day (closePosition c p pos closing) (closePosition c q pos closing) := by
  obtain ⟨last, curve, history, hhistory, rfl⟩ := h.split
  exact ⟨rfl, hhistory, h.started⟩

theorem SameTrading.withPositions (h : SameTrading c day p q) (positions : List Position) :
    SameTrading c day { p with openPositions := positions }
      { q with openPositions := positions } := by
  obtain ⟨last, curve, history, hhistory, rfl⟩ := h.split
  exact ⟨rfl, hhistory, h.started⟩

theorem SameTrading.openPositions_eq (h : SameTrading c day p q) :
    q.openPositions = p.openPositions := by
  rw [h.trading]

theorem SameTrading.closedTrades_eq (h : SameTrading c day p q) :
    q.closedTrades = p.closedTrades := by
  rw [h.trading]

theorem SameTrading.closeAllWithReason (h : SameTrading c day p q) (bar : Bar) (barIndex : ℤ)
    (reason : ExitReason) :
    SameTrading c day (closeAllWithReason c p bar barIndex reason)
      (closeAllWithReason c q bar barIndex reason) := by
  unfold Portfolio.closeAllWithReason
  rw [h.openPositions_eq]
  have hclosed := List.foldl_rel (r := SameTrading c day) (l := p.openPositions) h
    fun pos _ _ _ hpq => hpq.closePosition pos ⟨bar.close, bar.time, barIndex, reason⟩
  exact hclosed.withPositions []

/-- The loop over the positions, with those that remain. -/
def SameLoop (c : Settings) (day : Option ℤ) (a b : Tracker × List Position) : Prop :=
  SameTrading c day a.1 b.1 ∧ b.2 = a.2

theorem checkPosition_alike (bar : Bar) (barIndex : ℤ) (readings : BarReadings)
    {a b : Tracker × List Position} (h : SameLoop c day a b) (pos : Position) :
    Option.Rel (SameLoop c day) (checkPosition c bar barIndex readings a pos)
      (checkPosition c bar barIndex readings b pos) := by
  obtain ⟨htrading, hremain⟩ := h
  unfold checkPosition
  split
  · exact Option.Rel.some ⟨htrading.closePosition _ _, hremain⟩
  · split
    · exact Option.Rel.none
    · dsimp only
      split
      · exact Option.Rel.some ⟨htrading.closePosition _ _, hremain⟩
      · exact Option.Rel.some ⟨htrading, congrArg (· ++ _) hremain⟩

theorem SameTrading.checkExits (h : SameTrading c day p q) (bar : Bar) (barIndex : ℤ)
    (readings : BarReadings) :
    Option.Rel (SameTrading c day) (checkExits c p bar barIndex readings)
      (checkExits c q bar barIndex readings) := by
  obtain ⟨last, curve, history, hhistory, rfl⟩ := h.split
  unfold Portfolio.checkExits
  dsimp only
  split_ifs
  · refine Option.Rel.some (SameTrading.closeAllWithReason ?_ _ _ _)
    exact ⟨rfl, hhistory, h.started⟩
  · refine Option.Rel.some (SameTrading.closeAllWithReason ?_ _ _ _)
    exact ⟨rfl, hhistory, h.started⟩
  · have hloop := rel_foldlM_same (R := SameLoop c day)
      (fun a b pos hab => checkPosition_alike bar barIndex readings hab pos) p.openPositions
      (show SameLoop c day (p, []) (_, []) from ⟨h, rfl⟩)
    refine rel_map hloop fun a b hab => ?_
    rw [hab.2]
    exact hab.1.withPositions a.2

/-! Opening. -/

theorem SameTrading.trimHourlyWindow (h : SameTrading c day p q) (time : ℤ) :
    SameTrading c day (trimHourlyWindow c p time) (trimHourlyWindow c q time) := by
  obtain ⟨last, curve, history, hhistory, rfl⟩ := h.split
  unfold Portfolio.trimHourlyWindow
  split_ifs
  · exact ⟨rfl, hhistory, h.started⟩
  · exact h

/-- The history of the filter counts when the filter is on. -/
theorem SameTrading.equityRefusal (h : SameTrading c day p q) (time : ℤ) (equity : ℚ) :
    equityRefusal c q time equity = equityRefusal c p time equity := by
  have hblock : shouldBlock c.equityCurveFilter q.equityHistory =
      shouldBlock c.equityCurveFilter p.equityHistory := by
    by_cases hfilter : c.equityCurveFilter.enabled = true
    · rw [h.history hfilter]
    · simp only [shouldBlock, Bool.eq_false_iff.mpr hfilter, Bool.false_and]
  have hloss : dailyLossReached c q time equity = dailyLossReached c p time equity := by
    rw [h.trading]
    rfl
  rw [Portfolio.equityRefusal, hblock, hloss, Portfolio.equityRefusal]

theorem SameTrading.canOpenPosition (h : SameTrading c day p q) (bar : Bar)
    (params : TradeParameters) :
    SameTrading c day (canOpenPosition c p bar params).1 (canOpenPosition c q bar params).1 ∧
      (canOpenPosition c q bar params).2 = (canOpenPosition c p bar params).2 := by
  have htrim := h.trimHourlyWindow bar.time
  have hvolume : volumeRefusal c q bar params.positionSize =
      volumeRefusal c p bar params.positionSize := by
    rw [h.trading]
    rfl
  have hwindow : (Portfolio.trimHourlyWindow c q bar.time).hourlyWindow =
      (Portfolio.trimHourlyWindow c p bar.time).hourlyWindow := by
    rw [htrim.trading]
  have hequity : (Portfolio.trimHourlyWindow c q bar.time).currentBalance +
      floatingPnl c (Portfolio.trimHourlyWindow c q bar.time).openPositions bar.close =
      (Portfolio.trimHourlyWindow c p bar.time).currentBalance +
        floatingPnl c (Portfolio.trimHourlyWindow c p bar.time).openPositions bar.close := by
    rw [htrim.trading]
  unfold Portfolio.canOpenPosition
  rw [hvolume]
  split
  · exact ⟨h, rfl⟩
  · dsimp only
    rw [hwindow, hequity]
    split_ifs
    · exact ⟨htrim, rfl⟩
    · have hstarted := htrim.ensureDayStartEquity bar.time
        ((Portfolio.trimHourlyWindow c p bar.time).currentBalance +
          floatingPnl c (Portfolio.trimHourlyWindow c p bar.time).openPositions bar.close)
      exact ⟨hstarted, hstarted.equityRefusal _ _⟩

theorem SameTrading.openPosition (h : SameTrading c day p q) (order : OpenOrder) :
    SameTrading c day (openPosition c p order) (openPosition c q order) := by
  obtain ⟨hgate, hrefusal⟩ := h.canOpenPosition order.bar order.tradeParams
  unfold Portfolio.openPosition
  rcases hp : Portfolio.canOpenPosition c p order.bar order.tradeParams with ⟨s, refusal⟩
  rcases hq : Portfolio.canOpenPosition c q order.bar order.tradeParams with ⟨t, other⟩
  rw [hp, hq] at hgate hrefusal
  cases hrefusal
  cases refusal with
  | some _ => exact hgate
  | none =>
    obtain ⟨last, curve, history, hhistory, ht⟩ := hgate.split
    change t = _ at ht
    subst ht
    exact ⟨rfl, hhistory, hgate.started⟩

/-! Sampling. -/

/-- On a day that is started a sample leaves the trading alone. -/
theorem SameTrading.sampled (h : SameTrading c day p q) {bar : Bar}
    (hday : day = some (dayOf bar.time)) (hoff : c.equityCurveFilter.enabled = false) :
    SameTrading c day p (recordEquity c q bar) := by
  have hstarted : q.dailyStartEquity.contains (dayOf bar.time) = true := by
    rw [h.trading]
    exact h.started _ (by rw [hday]; rfl)
  rw [recordEquity, Portfolio.ensureDayStartEquity, if_pos hstarted]
  obtain ⟨last, curve, history, hhistory, rfl⟩ := h.split
  exact ⟨rfl, fun hon => absurd (hoff.symm.trans hon) Bool.false_ne_true, h.started⟩

theorem SameTrading.recordEquity (h : SameTrading c day p q) (bar : Bar) :
    SameTrading c day (recordEquity c p bar) (recordEquity c q bar) := by
  obtain ⟨last, curve, history, hhistory, rfl⟩ := h.split
  have hkeep := h.ensureDayStartEquity bar.time
    (p.currentBalance + floatingPnl c p.openPositions bar.close)
  refine ⟨?_, fun hon => ?_, hkeep.started⟩
  · unfold Portfolio.recordEquity Portfolio.ensureDayStartEquity
    split
    · rfl
    · rfl
  · have hsame := hkeep.history hon
    unfold Portfolio.recordEquity
    dsimp only at hsame ⊢
    rw [hsame]

end Trackers

section Engines

variable {V : Type*} {e : Engine V} {day : Option ℤ}

/-! Entries. -/

structure SameBook (e : Engine V) (day : Option ℤ) (b other : Book) : Prop where
  rest : other = { b with portfolio := other.portfolio }
  portfolio : SameTrading e.settings day b.portfolio other.portfolio

variable {later : Option ℤ}

theorem SameBook.withPortfolio {b other : Book} (h : SameBook e day b other)
    {p q : Tracker} (hpq : SameTrading e.settings later p q) :
    SameBook e later { b with portfolio := p } { other with portfolio := q } where
  rest := by
    rw [h.rest]
  portfolio := hpq

theorem SameBook.reject {b other : Book} (h : SameBook e day b other) (reason : String) :
    SameBook e day (recordExecutionRejection b reason) (recordExecutionRejection other reason) where
  rest := by
    rw [h.rest]
    rfl
  portfolio := h.portfolio

theorem SameBook.openEntry {b other : Book} (h : SameBook e day b other) (entry : Entry V)
    (trade : TradeParameters) :
    SameBook e day (openEntry e b entry trade) (openEntry e other entry trade) := by
  obtain ⟨hgate, hrefusal⟩ := h.portfolio.canOpenPosition (toBar entry.bar) trade
  unfold BacktestDecisions.openEntry
  rcases hb : canOpenPosition e.settings b.portfolio (toBar entry.bar) trade with ⟨p, refusal⟩
  rcases hother : canOpenPosition e.settings other.portfolio (toBar entry.bar) trade with ⟨q, answer⟩
  rw [hb, hother] at hgate hrefusal
  cases hrefusal
  cases refusal with
  | some refusal => exact (h.withPortfolio hgate).reject _
  | none =>
    have hopened := hgate.openPosition (openOrder e entry trade)
    obtain ⟨-, hsecond⟩ := hgate.canOpenPosition (toBar entry.bar) trade
    dsimp only at hgate hopened hsecond ⊢
    rw [hsecond]
    split
    · exact (h.withPortfolio hopened).reject _
    · refine ⟨?_, hopened⟩
      rw [h.rest, hopened.openPositions_eq, hgate.openPositions_eq]

theorem executeEntry_alike {b other : Book} (h : SameBook e day b other) (entry : Entry V) :
    Option.Rel (SameBook e day) (executeEntry e b entry) (executeEntry e other entry) := by
  have hbalance : other.portfolio.currentBalance = b.portfolio.currentBalance := by
    rw [h.portfolio.trading]
  unfold executeEntry
  dsimp only
  rw [hbalance]
  split
  · exact Option.Rel.none
  · exact Option.Rel.some (h.reject _)
  · split
    · exact Option.Rel.some (h.reject _)
    · exact Option.Rel.some (h.openEntry entry _)

/-! The desk. -/

structure SameDesk (e : Engine V) (day : Option ℤ) (d other : Desk V) : Prop where
  rest : other = { d with toBook := other.toBook }
  book : SameBook e day d.toBook other.toBook

variable {d other : Desk V}

theorem SameDesk.withBook (h : SameDesk e day d other) {b c : Book} (hbc : SameBook e later b c) :
    SameDesk e later { d with toBook := b } { other with toBook := c } where
  rest := by
    rw [h.rest]
  book := hbc

/-- The round over the pending groups, with those that remain. -/
def SameRound (e : Engine V) (day : Option ℤ) (a b : Book × List (BacktestPendingGroup V)) :
    Prop :=
  SameBook e day a.1 b.1 ∧ b.2 = a.2

theorem checkPendingGroup_alike (context : BarContext)
    {a b : Book × List (BacktestPendingGroup V)} (h : SameRound e day a b)
    (group : BacktestPendingGroup V) :
    Option.Rel (SameRound e day) (checkPendingGroup e context a group)
      (checkPendingGroup e context b group) := by
  unfold checkPendingGroup
  split
  · exact Option.Rel.some h
  · split
    · exact Option.Rel.some ⟨h.1, congrArg (· ++ _) h.2⟩
    · refine rel_bind_same _ fun atrValue => ?_
      split
      · exact rel_map (executeEntry_alike h.1 _) fun b c hbc => ⟨hbc, h.2⟩
      · exact Option.Rel.some h

theorem checkPendingEntries_alike (h : SameDesk e day d other) (context : BarContext) :
    Option.Rel (SameDesk e day) (checkPendingEntries e d context)
      (checkPendingEntries e other context) := by
  have hgroups : other.pendingGroups = d.pendingGroups := by
    rw [h.rest]
  unfold checkPendingEntries
  rw [hgroups]
  have hloop := rel_foldlM_same (R := SameRound e day)
    (fun a b group hab => checkPendingGroup_alike context hab group) d.pendingGroups
    (show SameRound e day (d.toBook, []) (other.toBook, []) from ⟨h.book, rfl⟩)
  refine rel_map hloop fun a b hab => ⟨?_, hab.1⟩
  rw [h.rest, hab.2]

theorem SameDesk.reject (h : SameDesk e day d other) (reason : String) :
    SameDesk e day (reject d reason) (reject other reason) :=
  h.withBook (h.book.reject reason)

theorem placeEntry_alike (h : SameDesk e day d other) (context : BarContext)
    (decision : SignalDecision V) (action : Direction) :
    Option.Rel (SameDesk e day) (placeEntry e d context decision action)
      (placeEntry e other context decision action) := by
  have hmarket (entry : Entry V) :
      Option.Rel (SameDesk e day)
        ((executeEntry e d.toBook entry).map fun book => { d with toBook := book })
        ((executeEntry e other.toBook entry).map fun book => { other with toBook := book }) :=
    rel_map (executeEntry_alike h.book entry) fun _ _ hbc => h.withBook hbc
  unfold placeEntry
  refine rel_bind_same _ fun atrValue => ?_
  dsimp only
  by_cases hatr : atrValue ≤ 0
  · rw [if_pos hatr, if_pos hatr]
    exact Option.Rel.some h
  rw [if_neg hatr, if_neg hatr]
  by_cases hpending : (!e.config.pendingEntryEnabled) = true
  · rw [if_pos hpending, if_pos hpending]
    exact hmarket _
  rw [if_neg hpending, if_neg hpending]
  split
  · split
    · exact Option.Rel.some (h.reject _)
    · exact hmarket _
  · refine Option.Rel.some ⟨?_, h.book⟩
    rw [h.rest]

theorem enterDecision_alike (h : SameDesk e day d other)
    (context : BarContext) (decision : SignalDecision V) (action : Direction) :
    Option.Rel (SameDesk e day) (enterDecision e d context decision action)
      (enterDecision e other context decision action) := by
  have hpositions := h.book.portfolio.openPositions_eq
  unfold enterDecision liveLimitReached
  rw [hpositions]
  split_ifs
  · exact Option.Rel.some h
  · exact Option.Rel.some (h.reject _)
  · split
    · refine Option.Rel.some ⟨?_, (h.reject _).book⟩
      rw [h.rest]
      rfl
    · exact placeEntry_alike h context decision action

theorem updateStateMachine_alike (h : SameDesk e day d other)
    (strategy : String) (action : Option Direction) :
    (updateStateMachine e other strategy action).1 = (updateStateMachine e d strategy action).1 ∧
      SameDesk e day (updateStateMachine e d strategy action).2
        (updateStateMachine e other strategy action).2 := by
  have hstates : other.signalStates = d.signalStates := by
    rw [h.rest]
  unfold updateStateMachine
  rw [hstates]
  refine ⟨rfl, ?_, h.book⟩
  rw [h.rest]

theorem askBreaker_alike (h : SameDesk e day d other) (barIndex : ℕ) :
    (askBreaker e other barIndex).1 = (askBreaker e d barIndex).1 ∧
      SameDesk e day (askBreaker e d barIndex).2 (askBreaker e other barIndex).2 := by
  have hbreaker : other.breaker = d.breaker := by
    rw [h.rest]
  unfold askBreaker
  rw [hbreaker]
  split
  · exact ⟨rfl, h⟩
  · refine ⟨rfl, ?_, h.book⟩
    rw [h.rest]

theorem processDecision_alike (h : SameDesk e day d other)
    (context : BarContext) (decision : SignalDecision V) :
    Option.Rel (SameDesk e day) (processDecision e context d decision)
      (processDecision e context other decision) := by
  obtain ⟨hpaused, hasked⟩ := askBreaker_alike h context.barIndex
  unfold processDecision
  dsimp only
  split
  · split
    · exact Option.Rel.some (updateStateMachine_alike h _ _).2
    · exact Option.Rel.some h
  · split
    · exact Option.Rel.some h
    · rw [hpaused]
      split
      · exact Option.Rel.some hasked
      · by_cases hmachine : e.config.enableStateMachine = true
        · obtain ⟨harmed, hstated⟩ :=
            updateStateMachine_alike hasked decision.strategy decision.direction
          simp only [if_pos hmachine, harmed]
          split
          · exact enterDecision_alike hstated context decision _
          · exact Option.Rel.some hstated
        · simp only [if_neg hmachine, if_true]
          exact enterDecision_alike hasked context decision _

/-! The sub-loop of a bar. -/

def SameSub (e : Engine V) (day : Option ℤ) (a b : SubLoop V) : Prop :=
  SameBook e day a.book b.book ∧ b.context = a.context

/-- The round of a child bar, with the armed signals. -/
def SameArmed (e : Engine V) (day : Option ℤ) (a b : SubLoop V × List (String × Direction)) :
    Prop :=
  SameSub e day a.1 b.1 ∧ b.2 = a.2

theorem SameBook.openings_eq {b other : Book} (h : SameBook e day b other) :
    other.openings = b.openings := by
  rw [h.rest]

theorem tryIntrabarEntry_alike {a b : SubLoop V} (h : SameSub e day a b) (call : SubLoopCall V)
    (synthesized : Ohlc) (decision : SignalDecision V) (action : Direction) :
    Option.Rel (SameSub e day) (tryIntrabarEntry e call synthesized decision action a)
      (tryIntrabarEntry e call synthesized decision action b) := by
  obtain ⟨hbook, hcontext⟩ := h
  unfold tryIntrabarEntry
  dsimp only
  rw [hcontext]
  split
  · exact Option.Rel.some ⟨hbook, hcontext⟩
  · split
    · exact Option.Rel.some ⟨hbook, rfl⟩
    · exact rel_map (executeEntry_alike hbook _) fun _ _ hnext => ⟨hnext, rfl⟩

theorem handleIntrabarDecision_alike (plan : IntrabarPlan) (call : SubLoopCall V)
    (synthesized : Ohlc) {a b : SubLoop V × List (String × Direction)}
    (h : SameArmed e day a b) (decision : SignalDecision V) :
    Option.Rel (SameArmed e day) (handleIntrabarDecision e plan call synthesized a decision)
      (handleIntrabarDecision e plan call synthesized b decision) := by
  obtain ⟨⟨hbook, hcontext⟩, harmed⟩ := h
  unfold handleIntrabarDecision
  split
  · exact Option.Rel.some ⟨⟨hbook, hcontext⟩, harmed⟩
  · dsimp only
    rw [hcontext, harmed]
    split
    · refine rel_map (R := SameSub e day) ?_ fun _ _ hnext => ⟨hnext, rfl⟩
      apply tryIntrabarEntry_alike
      exact ⟨hbook, rfl⟩
    · exact Option.Rel.some ⟨⟨hbook, rfl⟩, rfl⟩

theorem runChild_alike (plan : IntrabarPlan) (call : SubLoopCall V) {a b : SubLoop V}
    (h : SameSub e day a b) (accumulated : List Ohlc) :
    Option.Rel (SameSub e day) (runChild e plan call a accumulated)
      (runChild e plan call b accumulated) := by
  obtain ⟨hbook, hcontext⟩ := h
  unfold runChild
  split
  · split
    · exact Option.Rel.some ⟨hbook, hcontext⟩
    · dsimp only
      rw [hcontext, hbook.openings_eq]
      refine rel_map (R := SameArmed e day) ?_ fun x y hxy => ⟨hxy.1.1, ?_⟩
      · apply rel_foldlM_same
        · exact fun x y decision hxy => handleIntrabarDecision_alike plan call _ hxy decision
        · exact ⟨⟨hbook, rfl⟩, rfl⟩
      · rw [hxy.1.2, hxy.2, hxy.1.1.openings_eq]
  · exact Option.Rel.none

theorem runIntrabarSubLoop_alike (plan : IntrabarPlan) (call : SubLoopCall V)
    (childBars : List Ohlc) {a b : SubLoop V} (h : SameSub e day a b) :
    Option.Rel (SameSub e day) (runIntrabarSubLoop e plan call childBars a)
      (runIntrabarSubLoop e plan call childBars b) := by
  unfold runIntrabarSubLoop
  split_ifs
  · exact Option.Rel.some h
  · refine Option.Rel.some ⟨h.1, ?_⟩
    rw [h.2]
  · have hloop := rel_run (P := Eq) (f := runChild e plan call) (g := runChild e plan call)
      (fun a b accumulated _ hab heq => heq ▸ runChild_alike plan call hab accumulated)
      (List.forall₂_refl (accumulations childBars)) h
    refine rel_map hloop fun x y hxy => ⟨hxy.1, ?_⟩
    unfold closeParentBar
    rw [hxy.2]

/-! A main bar. -/

/-- The data of the higher timeframes may differ too: a bar sets it before it reads it. -/
structure Alike (e : Engine V) (day : Option ℤ) (s t : State V) : Prop where
  rest : t = { s with
    toDesk := t.toDesk
    htfIndicatorData := t.htfIndicatorData }
  desk : SameDesk e day s.toDesk t.toDesk

variable {s t : State V}

theorem Alike.withDesk (h : Alike e day s t) {c d : Desk V} (hcd : SameDesk e later c d) :
    Alike e later { s with toDesk := c } { t with toDesk := d } where
  rest := by
    rw [h.rest]
  desk := hcd

theorem noteOutcome_alike (barIndex : ℕ) (h : Alike e day s t) (trade : TradeRecord) :
    Alike e day (noteOutcome e barIndex s trade) (noteOutcome e barIndex t trade) where
  rest := by
    rw [h.rest]
    rfl
  desk := {
    rest := by
      rw [h.rest, h.desk.rest]
      rfl
    book := h.desk.book }

theorem openBar_alike (input : BarInput) (h : Alike e day s t) :
    Option.Rel (Alike e (some (dayOf input.bar.time))) (openBar e input s) (openBar e input t) := by
  have hdirections : t.lastSignalDirections = s.lastSignalDirections := by
    rw [h.rest]
  have hopen (atr : ℚ) : SameTrading e.settings (some (dayOf input.bar.time))
      (portfolioAtOpen e input atr s.portfolio) (portfolioAtOpen e input atr t.portfolio) :=
    ((h.desk.book.portfolio.observeBar (toBar input.bar)).applyOvernightSwap _).updateAtrReference
      atr
  unfold openBar
  refine rel_bind_same _ fun atr => ?_
  refine rel_map (R := SameTrading e.settings (some (dayOf input.bar.time))) ?_ fun p q hpq => ?_
  · rw [hdirections]
    exact (hopen atr).checkExits _ _ _
  rw [hpq.closedTrades_eq, (hopen atr).closedTrades_eq]
  refine List.foldl_rel (r := Alike e (some (dayOf input.bar.time))) ?_
    fun trade _ _ _ hst => noteOutcome_alike input.barIndex hst trade
  exact h.withDesk (h.desk.withBook (h.desk.book.withPortfolio hpq))

theorem fillPendingEntries_alike (input : BarInput) (h : Alike e day s t) :
    Option.Rel (Alike e day) (fillPendingEntries e input s) (fillPendingEntries e input t) := by
  unfold fillPendingEntries
  split
  · exact Option.Rel.some h
  · split
    · exact rel_map (checkPendingEntries_alike h.desk _) fun _ _ hcd => h.withDesk hcd
    · exact Option.Rel.some h

theorem backfill_alike (input : BarInput) (h : Alike e day s t) :
    Alike e day (backfill input s) (backfill input t) where
  rest := by
    rw [h.rest]
    rfl
  desk := h.desk

theorem recordFiltered_alike (input : BarInput) (regime : RegimeType) (reason : String)
    (h : Alike e day s t) : Alike e day (recordFiltered e input regime reason s)
      (recordFiltered e input regime reason t) where
  rest := by
    rw [h.rest]
    rfl
  desk := h.desk

/-- States that are alike, with the same data of the higher timeframes. -/
def Synced (e : Engine V) (day : Option ℤ) (s t : State V) : Prop :=
  Alike e day s t ∧ t.htfIndicatorData = s.htfIndicatorData

theorem replayChildren_alike (input : BarInput) (regime : RegimeType) (h : Synced e day s t) :
    Option.Rel (Synced e day) (replayChildren e input regime s)
      (replayChildren e input regime t) := by
  obtain ⟨halike, hhtf⟩ := h
  have hcall (atr : ℚ) : subLoopCall e input regime atr t = subLoopCall e input regime atr s := by
    unfold subLoopCall
    rw [hhtf, halike.rest]
  have hintrabar : t.intrabar = s.intrabar := by
    rw [halike.rest]
  unfold replayChildren
  rw [hintrabar]
  split
  · refine rel_bind_same _ fun atr => ?_
    rw [hcall]
    refine rel_map (runIntrabarSubLoop_alike _ _ _ ⟨halike.desk.book, rfl⟩) ?_
    rintro a b ⟨hbook, hcontext⟩
    have hreplayed := halike.withDesk (halike.desk.withBook hbook)
    refine ⟨⟨?_, hreplayed.desk⟩, hhtf⟩
    rw [halike.rest, hcontext]
  · exact Option.Rel.some ⟨halike, hhtf⟩

theorem Alike.recorded (h : Alike e day s t) (note : Records → Records)
    (taken : List (ℤ × SignalDecision V)) :
    Alike e day { s with records := note s.records, decided := s.decided ++ taken }
      { t with records := note t.records, decided := t.decided ++ taken } where
  rest := by
    rw [h.rest]
  desk := h.desk

theorem coordinate_alike (input : BarInput) (decision : SignalDecision V) (h : Alike e day s t) :
    (coordinate e input decision t).1 = (coordinate e input decision s).1 ∧
      Alike e day (coordinate e input decision s).2 (coordinate e input decision t).2 := by
  have hintrabar : t.intrabar = s.intrabar := by
    rw [h.rest]
  unfold coordinate
  rw [hintrabar]
  split
  · refine ⟨rfl, ?_, h.desk⟩
    rw [h.rest]
  · exact ⟨rfl, h⟩

theorem takeDecision_alike (input : BarInput) (regime : RegimeType)
    (h : Alike e day s t) (decision : SignalDecision V) :
    Option.Rel (Alike e day) (takeDecision e input regime s decision)
      (takeDecision e input regime t decision) := by
  have hrecorded := h.recorded
    (fun records => recordEvaluation e records input.barIndex {
      barTime := input.bar.time
      strategy := decision.strategy
      direction := decision.direction
      confidence := decision.confidence
      regime := regime.value
      priceAtSignal := input.bar.close
      barsToEvaluate := e.config.confidence.barsToEvaluate })
    [(input.bar.time, decision)]
  obtain ⟨hskip, hanswer⟩ := coordinate_alike input decision hrecorded
  unfold takeDecision
  dsimp only at hskip hanswer ⊢
  rw [hskip]
  split
  · exact Option.Rel.some hanswer
  · exact rel_map (processDecision_alike hanswer.desk _ decision) fun _ _ hcd =>
      hanswer.withDesk hcd

/-- With the filter off the two may differ in whether they are sampled. -/
theorem sampleEquity_alike (input : BarInput) (sampled : Bool)
    (hsampled : e.equityCurveFilter.enabled = true → sampled = input.sampled)
    (h : Alike e (some (dayOf input.bar.time)) s t) :
    Alike e none (sampleEquity e input s) (sampleEquity e { input with sampled := sampled } t) := by
  have hportfolio := h.desk.book.portfolio
  have hwith {p q : Tracker} (hpq : SameTrading e.settings (some (dayOf input.bar.time)) p q) :
      Alike e none { s with portfolio := p } { t with portfolio := q } :=
    h.withDesk (h.desk.withBook (h.desk.book.withPortfolio hpq.anyDay))
  unfold sampleEquity
  dsimp only
  by_cases hon : e.equityCurveFilter.enabled = true
  · rw [hsampled hon]
    split
    · exact hwith (hportfolio.recordEquity _)
    · exact hwith hportfolio
  · have hoff : e.settings.equityCurveFilter.enabled = false := Bool.eq_false_iff.mpr hon
    split
    · split
      · exact hwith (hportfolio.recordEquity _)
      · exact hwith (hportfolio.symm.sampled rfl hoff).symm
    · split
      · exact hwith (hportfolio.sampled rfl hoff)
      · exact hwith hportfolio

theorem confirmBar_alike (input : BarInput) (regime : RegimeType) (sampled : Bool)
    (hsampled : e.equityCurveFilter.enabled = true → sampled = input.sampled)
    (h : Synced e (some (dayOf input.bar.time)) s t) :
    Option.Rel (Alike e none) (confirmBar e input regime s)
      (confirmBar e { input with sampled := sampled } regime t) := by
  obtain ⟨halike, hhtf⟩ := h
  have hview : confirmedView e input regime t = confirmedView e input regime s := by
    unfold confirmedView
    rw [hhtf, halike.rest]
  have hdecisions : evaluateStrategies e .confirmed
      (confirmedView e { input with sampled := sampled } regime t) =
      evaluateStrategies e .confirmed (confirmedView e input regime s) :=
    congrArg (evaluateStrategies e .confirmed) hview
  unfold confirmBar
  dsimp only
  rw [hdecisions]
  refine rel_map (R := Alike e (some (dayOf input.bar.time))) ?_ fun a b hab => ?_
  · exact rel_foldlM_same (fun a b decision hab => takeDecision_alike input regime hab decision) _
      halike
  · refine sampleEquity_alike input sampled hsampled ⟨?_, hab.desk⟩
    rw [hab.rest]

theorem evaluateBar_alike (input : BarInput) (regime : RegimeType) (sampled : Bool)
    (hsampled : e.equityCurveFilter.enabled = true → sampled = input.sampled)
    (h : Alike e (some (dayOf input.bar.time)) s t) :
    Option.Rel (Alike e none) (evaluateBar e input regime s)
      (evaluateBar e { input with sampled := sampled } regime t) := by
  have hstats : t.filterStats = s.filterStats := by
    rw [h.rest]
  have hnow {a b : State V} (hab : Alike e (some (dayOf input.bar.time)) a b) :
      Alike e none a b :=
    hab.withDesk (hab.desk.withBook (hab.desk.book.withPortfolio hab.desk.book.portfolio.anyDay))
  unfold evaluateBar
  dsimp only
  rw [hstats]
  split
  · refine Option.Rel.some (hnow (recordFiltered_alike input regime _ ⟨?_, h.desk⟩))
    rw [h.rest]
  · refine rel_bind (R := Synced e (some (dayOf input.bar.time))) ?_ fun a b hab =>
      confirmBar_alike input regime sampled hsampled hab
    refine replayChildren_alike input regime ⟨⟨?_, h.desk⟩, rfl⟩
    rw [h.rest]

/-- Bars that differ in nothing but their sample keep two runs alike. -/
theorem step_alike (input : BarInput) (sampled : Bool)
    (hsampled : e.equityCurveFilter.enabled = true → sampled = input.sampled)
    (h : Alike e day s t) :
    Option.Rel (Alike e none) (step e s input) (step e t { input with sampled := sampled }) := by
  refine rel_bind (openBar_alike input h) fun a b hab => ?_
  refine rel_bind (fillPendingEntries_alike input hab) fun c d hcd => ?_
  have hfilled := backfill_alike input hcd
  have hregime : regimeOf e { input with sampled := sampled } = regimeOf e input := rfl
  rw [hregime]
  cases regimeOf e input with
  | none =>
    exact Option.Rel.some (hfilled.withDesk
      (hfilled.desk.withBook (hfilled.desk.book.withPortfolio hfilled.desk.book.portfolio.anyDay)))
  | some regime => exact evaluateBar_alike input regime sampled hsampled hfilled

end Engines

end MT5Services.BacktestAlike
