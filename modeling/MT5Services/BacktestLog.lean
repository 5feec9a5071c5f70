import MT5Services.BacktestEngine

/-!
The log of a run: the confirmed decisions, the positions that were opened, the trades that
were closed, and the records of the child bars. A main bar only adds to it, and everything
it adds bears the time of the bar. What a run does on the bars that a filter refuses is
therefore not seen through the filter.
-/
namespace MT5Services.BacktestLog

open BacktestData BacktestDecisions BacktestEngine BacktestIntrabar ExitRules IntrabarSynthesis
open Portfolio Prefixes Runs TradeSizing

variable {V : Type*}

section Trackers

variable {c : Settings} {s t : Tracker}

theorem closedTrades_portfolioAtOpen (e : Engine V) (input : BarInput) (atr : ℚ) (s : Tracker) :
    (portfolioAtOpen e input atr s).closedTrades = s.closedTrades := by
  have hobserve := sameCash_ensureDayStartEquity s input.bar.time
    (s.currentBalance + floatingPnl e.settings s.openPositions (toBar input.bar).openPrice)
  have hswap : (applyOvernightSwap e.settings (observeBar e.settings s (toBar input.bar))
      (toBar input.bar)).closedTrades =
      (observeBar e.settings s (toBar input.bar)).closedTrades := by
    unfold applyOvernightSwap
    split_ifs <;> rfl
  rw [portfolioAtOpen, (sameCash_updateAtrReference _ _).closed, hswap]
  exact hobserve.closed

/-- A trade is closed at the time of its bar. -/
theorem closePosition_adds (pos : Position) (closing : Closing) :
    Adds (fun trade => trade.exitTime = closing.exitTime) s.closedTrades
      (closePosition c s pos closing).closedTrades := by
  refine ⟨[tradeRecord c s pos closing], rfl, fun trade htrade => ?_⟩
  rw [List.mem_singleton.mp htrade]
  rfl

theorem closeAllWithReason_adds (bar : Bar) (barIndex : ℤ) (reason : ExitReason) :
    Adds (fun trade => trade.exitTime = bar.time) s.closedTrades
      (closeAllWithReason c s bar barIndex reason).closedTrades := by
  refine List.foldlRecOn (motive := fun t : Tracker =>
    Adds (fun trade : TradeRecord => trade.exitTime = bar.time) s.closedTrades t.closedTrades)
    s.openPositions _ (Adds.refl _ _) ?_
  intro t ht pos _
  exact ht.trans (closePosition_adds pos _)

theorem checkPosition_adds {bar : Bar} {barIndex : ℤ} {readings : BarReadings}
    {loop next : Tracker × List Position} {pos : Position}
    (h : checkPosition c bar barIndex readings loop pos = some next) :
    Adds (fun trade => trade.exitTime = bar.time) loop.1.closedTrades next.1.closedTrades := by
  unfold checkPosition at h
  split at h
  · cases Option.some.inj h
    exact closePosition_adds _ _
  · split at h
    · cases h
    · dsimp only at h
      split at h
      · cases Option.some.inj h
        exact closePosition_adds _ _
      · cases Option.some.inj h
        exact Adds.refl _ _

theorem checkExits_adds {bar : Bar} {barIndex : ℤ} {readings : BarReadings}
    (h : checkExits c s bar barIndex readings = some t) :
    Adds (fun trade => trade.exitTime = bar.time) s.closedTrades t.closedTrades := by
  unfold checkExits at h
  split_ifs at h
  · cases Option.some.inj h
    exact closeAllWithReason_adds bar barIndex _
  · cases Option.some.inj h
    exact closeAllWithReason_adds bar barIndex _
  · obtain ⟨loop, hloop, rfl⟩ := Option.map_eq_some_iff.mp h
    exact foldlM_related
      (R := fun a b : Tracker × List Position =>
        Adds (fun trade => trade.exitTime = bar.time) a.1.closedTrades b.1.closedTrades)
      (fun a => Adds.refl _ _) (fun _ _ _ => Adds.trans)
      (fun _ _ _ _ hround => checkPosition_adds hround) hloop

theorem openPosition_cases (order : OpenOrder) :
    (openPosition c s order).closedTrades = s.closedTrades ∧
      Adds (fun pos => pos.entryTime = order.bar.time) s.openPositions
        (openPosition c s order).openPositions := by
  have hsame := sameCash_canOpenPosition c s order.bar order.tradeParams
  unfold openPosition
  split
  · rename_i gated _ hgate
    rw [hgate] at hsame
    rw [hsame.positions]
    exact ⟨hsame.closed, Adds.refl _ _⟩
  · rename_i gated hgate
    rw [hgate] at hsame
    refine ⟨hsame.closed, [newPosition c gated order], ?_, fun pos hpos => ?_⟩
    · rw [← hsame.positions]
    · rw [List.mem_singleton.mp hpos]
      rfl

end Trackers

section Engines

variable {e : Engine V} {time : ℤ}

/-- Entries at this time: they close nothing. -/
structure BookAdds (time : ℤ) (b c : Book) : Prop where
  closed : c.portfolio.closedTrades = b.portfolio.closedTrades
  opened : Adds (fun pos => pos.entryTime = time) b.openings c.openings

theorem BookAdds.refl (time : ℤ) (b : Book) : BookAdds time b b :=
  ⟨rfl, Adds.refl _ _⟩

theorem BookAdds.trans {b c d : Book} (h : BookAdds time b c) (hnext : BookAdds time c d) :
    BookAdds time b d :=
  ⟨hnext.closed.trans h.closed, h.opened.trans hnext.opened⟩

theorem recordExecutionRejection_adds (b : Book) (reason : String) :
    BookAdds time b (recordExecutionRejection b reason) :=
  ⟨rfl, Adds.refl _ _⟩

theorem openEntry_adds (b : Book) (entry : Entry V) (trade : TradeParameters) :
    BookAdds entry.bar.time b (openEntry e b entry trade) := by
  have hgate := sameCash_canOpenPosition e.settings b.portfolio (toBar entry.bar) trade
  unfold openEntry
  split
  · rename_i portfolio refusal hrefused
    rw [hrefused] at hgate
    exact ⟨hgate.closed, Adds.refl _ _⟩
  · rename_i portfolio hallowed
    rw [hallowed] at hgate
    obtain ⟨hclosed, new, hpositions, hnew⟩ := openPosition_cases (c := e.settings) (s := portfolio)
      (openOrder e entry trade)
    dsimp only
    split
    · exact ⟨hclosed.trans hgate.closed, Adds.refl _ _⟩
    · refine ⟨hclosed.trans hgate.closed, new, ?_, hnew⟩
      rw [hpositions, List.drop_left]

variable {b c : Book}

theorem executeEntry_adds {entry : Entry V} (h : executeEntry e b entry = some c) :
    BookAdds entry.bar.time b c := by
  unfold executeEntry at h
  dsimp only at h
  split at h
  · cases h
  · cases Option.some.inj h
    exact recordExecutionRejection_adds b _
  · split at h
    · cases Option.some.inj h
      exact recordExecutionRejection_adds b _
    · cases Option.some.inj h
      exact openEntry_adds b entry _

theorem BookAdds.of_unentered (h : Unentered b c) : BookAdds time b c := by
  rcases h with rfl | ⟨reason, rfl⟩
  · exact BookAdds.refl _ _
  · exact recordExecutionRejection_adds b reason

variable {decision : SignalDecision V}

theorem BookAdds.of_entered {action : Direction}
    {bar : Ohlc} (h : Entered e decision action bar b c) : BookAdds bar.time b c := by
  obtain ⟨entry, -, -, rfl, hentry⟩ := h
  exact executeEntry_adds hentry

/-! The desk. -/

variable {context : BarContext}

theorem checkPendingGroup_adds {a b : Book × List (BacktestPendingGroup V)}
    {group : BacktestPendingGroup V} (h : checkPendingGroup e context a group = some b) :
    BookAdds context.bar.time a.1 b.1 := by
  rcases checkPendingGroup_cases h with hsame | ⟨-, hentered⟩
  · rw [hsame]
    exact BookAdds.refl _ _
  · exact BookAdds.of_entered hentered

theorem checkPendingEntries_adds {d next : Desk V}
    (h : checkPendingEntries e d context = some next) :
    BookAdds context.bar.time d.toBook next.toBook := by
  obtain ⟨loop, hloop, rfl⟩ := Option.map_eq_some_iff.mp h
  exact foldlM_related
    (R := fun a b : Book × List (BacktestPendingGroup V) => BookAdds context.bar.time a.1 b.1)
    (fun _ => BookAdds.refl _ _) (fun _ _ _ => BookAdds.trans)
    (fun _ _ _ _ hround => checkPendingGroup_adds hround) hloop

theorem processDecision_adds {d next : Desk V}
    (h : processDecision e context d decision = some next) :
    BookAdds context.bar.time d.toBook next.toBook := by
  rcases processDecision_cases h with hunentered | ⟨action, -, -, hentered⟩
  · exact BookAdds.of_unentered hunentered
  · exact BookAdds.of_entered hentered

/-! The sub-loop. -/

/-- Entries at this time and records of this bar. -/
structure LoopAdds (time : ℤ) (a b : SubLoop V) : Prop where
  book : BookAdds time a.book b.book
  replayed : Adds (fun child => child.parent = time) a.context.history b.context.history

theorem LoopAdds.refl (time : ℤ) (a : SubLoop V) : LoopAdds time a a :=
  ⟨BookAdds.refl _ _, Adds.refl _ _⟩

theorem LoopAdds.trans {a b c : SubLoop V} (h : LoopAdds time a b) (hnext : LoopAdds time b c) :
    LoopAdds time a c :=
  ⟨h.book.trans hnext.book, h.replayed.trans hnext.replayed⟩

variable {plan : IntrabarPlan} {call : SubLoopCall V}

theorem handleIntrabarDecision_adds {synthesized : Ohlc}
    {a b : SubLoop V × List (String × Direction)}
    (h : handleIntrabarDecision e plan call synthesized a decision = some b) :
    BookAdds synthesized.time a.1.book b.1.book ∧ b.1.context.history = a.1.context.history := by
  obtain ⟨hhistory, hsame | ⟨action, -, -, hentered⟩⟩ := handleIntrabarDecision_cases h
  · rw [hsame]
    exact ⟨BookAdds.refl _ _, hhistory⟩
  · exact ⟨BookAdds.of_entered hentered, hhistory⟩

theorem time_synthesizeParentBar {childBars : List Candle} {symbol parentTf : String}
    {parentBarTime : ℤ} {synthesized : Ohlc}
    (h : synthesizeParentBar childBars symbol parentTf parentBarTime = some synthesized) :
    synthesized.time = parentBarTime := by
  unfold synthesizeParentBar at h
  split at h
  · cases h
  · cases Option.some.inj h
    rfl

/-- A child bar adds entries of its parent bar and at most one record, which is its own. -/
theorem runChild_adds {a b : SubLoop V}
    {accumulated : List Ohlc} (h : runChild e plan call a accumulated = some b) :
    BookAdds call.parentTime a.book b.book ∧
      Adds (fun record => record.parent = call.parentTime ∧
        (accumulated.getLast?.map Ohlc.time) = some record.child)
        a.context.history b.context.history := by
  unfold runChild at h
  split at h
  · rename_i child synthesized hchild hsynthesized
    split at h
    · cases Option.some.inj h
      exact ⟨BookAdds.refl _ _, Adds.refl _ _⟩
    · rename_i decisions _
      obtain ⟨result, hresult, rfl⟩ := Option.map_eq_some_iff.mp h
      have hround := foldlM_related
        (R := fun a b : SubLoop V × List (String × Direction) =>
          BookAdds synthesized.time a.1.book b.1.book ∧
            b.1.context.history = a.1.context.history)
        (fun _ => ⟨BookAdds.refl _ _, rfl⟩)
        (fun _ _ _ hab hbc => ⟨hab.1.trans hbc.1, hbc.2.trans hab.2⟩)
        (fun _ _ _ _ hdecision => handleIntrabarDecision_adds hdecision) hresult
      rw [time_synthesizeParentBar hsynthesized] at hround
      refine ⟨hround.1, [_], congrArg (· ++ _) hround.2, fun record hrecord => ?_⟩
      rw [List.mem_singleton.mp hrecord, hchild]
      exact ⟨rfl, rfl⟩
  · cases h

theorem runIntrabarSubLoop_adds {childBars : List Ohlc} {a b : SubLoop V}
    (h : runIntrabarSubLoop e plan call childBars a = some b) : LoopAdds call.parentTime a b := by
  unfold runIntrabarSubLoop at h
  split_ifs at h
  · cases Option.some.inj h
    exact LoopAdds.refl _ _
  · cases Option.some.inj h
    exact ⟨BookAdds.refl _ _, Adds.refl _ _⟩
  · obtain ⟨loop, hloop, rfl⟩ := Option.map_eq_some_iff.mp h
    have hchildren : LoopAdds call.parentTime a loop :=
      run_related (I := fun _ => True) (LoopAdds.refl _) (fun _ _ _ => LoopAdds.trans)
        (fun _ _ _ _ _ => trivial)
        (fun _ _ _ _ hchild => ⟨(runChild_adds hchild).1, (runChild_adds hchild).2.mono
          fun _ hrecord => hrecord.1⟩) trivial hloop
    exact ⟨hchildren.book, hchildren.replayed⟩

/-! A main bar. -/

def historyOf (s : State V) : List (ChildRecord V) :=
  (s.intrabar.map IntrabarContext.history).getD []

/-- What a main bar of this time adds. -/
structure LogAdds (time : ℤ) (s t : State V) : Prop where
  decided : Adds (fun d => d.1 = time) s.decided t.decided
  opened : Adds (fun pos => pos.entryTime = time) s.openings t.openings
  closed : Adds (fun trade => trade.exitTime = time) s.portfolio.closedTrades
    t.portfolio.closedTrades
  replayed : Adds (fun child => child.parent = time) (historyOf s) (historyOf t)

theorem LogAdds.refl (time : ℤ) (s : State V) : LogAdds time s s :=
  ⟨Adds.refl _ _, Adds.refl _ _, Adds.refl _ _, Adds.refl _ _⟩

theorem LogAdds.trans {s t u : State V} (h : LogAdds time s t) (hnext : LogAdds time t u) :
    LogAdds time s u :=
  ⟨h.decided.trans hnext.decided, h.opened.trans hnext.opened, h.closed.trans hnext.closed,
    h.replayed.trans hnext.replayed⟩

variable {s t : State V}

/-- A change of the book in an otherwise unchanged log. -/
theorem LogAdds.ofBook (h : BookAdds time s.toBook t.toBook)
    (hdecided : t.decided = s.decided) (hintrabar : t.intrabar = s.intrabar) :
    LogAdds time s t where
  decided := by
    rw [hdecided]
    exact Adds.refl _ _
  opened := h.opened
  closed := by
    rw [h.closed]
    exact Adds.refl _ _
  replayed := by
    rw [historyOf, historyOf, hintrabar]
    exact Adds.refl _ _

variable {input : BarInput}

theorem openBar_adds (h : openBar e input s = some t) : LogAdds input.bar.time s t := by
  obtain ⟨atr, -, hexits⟩ := Option.bind_eq_some_iff.mp h
  obtain ⟨exited, hexited, rfl⟩ := Option.map_eq_some_iff.mp hexits
  have hclosed := checkExits_adds hexited
  rw [closedTrades_portfolioAtOpen] at hclosed
  have hframe := foldl_frame (noteOutcome e input.barIndex)
    (fun s => (s.decided, s.openings, s.portfolio, s.intrabar))
    (exited.closedTrades.drop (portfolioAtOpen e input atr s.portfolio).closedTrades.length)
    (fun _ _ _ => rfl) { s with portfolio := exited }
  simp only [Prod.mk.injEq] at hframe
  obtain ⟨hdecided, hopenings, hportfolio, hintrabar⟩ := hframe
  refine ⟨?_, ?_, ?_, ?_⟩
  · rw [hdecided]
    exact Adds.refl _ _
  · rw [hopenings]
    exact Adds.refl _ _
  · rw [hportfolio]
    exact hclosed
  · rw [historyOf, historyOf, hintrabar]
    exact Adds.refl _ _

theorem fillPendingEntries_adds
    (h : fillPendingEntries e input s = some t) : LogAdds input.bar.time s t := by
  unfold fillPendingEntries at h
  split at h
  · cases Option.some.inj h
    exact LogAdds.refl _ _
  · split at h
    · obtain ⟨desk, hdesk, rfl⟩ := Option.map_eq_some_iff.mp h
      have hbook := checkPendingEntries_adds hdesk
      exact LogAdds.ofBook hbook rfl rfl
    · cases Option.some.inj h
      exact LogAdds.refl _ _

theorem openBar_intrabar (h : openBar e input s = some t) : t.intrabar = s.intrabar := by
  obtain ⟨atr, -, hexits⟩ := Option.bind_eq_some_iff.mp h
  obtain ⟨exited, -, rfl⟩ := Option.map_eq_some_iff.mp hexits
  exact foldl_frame (noteOutcome e input.barIndex) (fun s => s.intrabar) _ (fun _ _ _ => rfl) _

theorem fillPendingEntries_intrabar
    (h : fillPendingEntries e input s = some t) : t.intrabar = s.intrabar := by
  unfold fillPendingEntries at h
  split at h
  · cases Option.some.inj h
    rfl
  · split at h
    · obtain ⟨desk, -, rfl⟩ := Option.map_eq_some_iff.mp h
      rfl
    · cases Option.some.inj h
      rfl

variable {regime : RegimeType}

theorem replayChildren_adds
    (h : replayChildren e input regime s = some t) : LogAdds input.bar.time s t := by
  unfold replayChildren at h
  split at h
  · rename_i plan context _ hcontext
    obtain ⟨atr, -, hloop⟩ := Option.bind_eq_some_iff.mp h
    obtain ⟨loop, hreplayed, rfl⟩ := Option.map_eq_some_iff.mp hloop
    obtain ⟨⟨hclosed, hopened⟩, hhistory⟩ := runIntrabarSubLoop_adds hreplayed
    refine ⟨Adds.refl _ _, hopened, ?_, ?_⟩
    · change Adds _ _ loop.book.portfolio.closedTrades
      rw [hclosed]
      exact Adds.refl _ _
    · rw [historyOf, hcontext]
      exact hhistory
  · cases Option.some.inj h
    exact LogAdds.refl _ _

theorem coordinate_adds (input : BarInput) (decision : SignalDecision V) (s : State V) :
    LogAdds time s (coordinate e input decision s).2 := by
  unfold coordinate
  split
  · rename_i context action hcontext _
    refine ⟨Adds.refl _ _, Adds.refl _ _, Adds.refl _ _, ?_⟩
    rw [historyOf, historyOf, hcontext]
    dsimp only
    unfold checkConfirmedCoordination
    split
    · exact Adds.refl _ _
    · exact Adds.refl _ _
  · exact LogAdds.refl _ _

theorem takeDecision_adds (h : takeDecision e input regime s decision = some t) :
    LogAdds input.bar.time s t := by
  have hrecorded (records : Records) : LogAdds input.bar.time s
      { s with
        records := records
        decided := s.decided ++ [(input.bar.time, decision)] } := by
    refine ⟨⟨[_], rfl, fun d hd => ?_⟩, Adds.refl _ _, Adds.refl _ _, Adds.refl _ _⟩
    rw [List.mem_singleton.mp hd]
  unfold takeDecision at h
  dsimp only at h
  split at h
  · cases Option.some.inj h
    exact (hrecorded _).trans (coordinate_adds input decision _)
  · obtain ⟨desk, hdesk, rfl⟩ := Option.map_eq_some_iff.mp h
    refine ((hrecorded _).trans (coordinate_adds input decision _)).trans
      (LogAdds.ofBook ?_ rfl rfl)
    have hprocessed := processDecision_adds hdesk
    exact hprocessed

theorem sampleEquity_adds (input : BarInput) (s : State V) :
    LogAdds time s (sampleEquity e input s) := by
  unfold sampleEquity
  split
  · refine LogAdds.ofBook ⟨?_, Adds.refl _ _⟩ rfl rfl
    exact (sameCash_recordEquity e.settings s.portfolio (toBar input.bar)).closed
  · exact LogAdds.refl _ _

theorem confirmBar_adds
    (h : confirmBar e input regime s = some t) : LogAdds input.bar.time s t := by
  obtain ⟨taken, htaken, rfl⟩ := Option.map_eq_some_iff.mp h
  have hdecisions : LogAdds input.bar.time s taken :=
    foldlM_related (LogAdds.refl _) (fun _ _ _ => LogAdds.trans)
      (fun _ _ _ _ => takeDecision_adds) htaken
  refine hdecisions.trans (LogAdds.trans ?_ (sampleEquity_adds input _))
  exact LogAdds.ofBook (BookAdds.refl _ _) rfl rfl

theorem evaluateBar_adds
    (h : evaluateBar e input regime s = some t) : LogAdds input.bar.time s t := by
  unfold evaluateBar at h
  dsimp only at h
  split at h
  · cases Option.some.inj h
    exact LogAdds.ofBook (BookAdds.refl _ _) rfl rfl
  · obtain ⟨replayed, hreplay, hconfirm⟩ := Option.bind_eq_some_iff.mp h
    have hreplayed := replayChildren_adds hreplay
    exact LogAdds.trans ⟨hreplayed.decided, hreplayed.opened, hreplayed.closed,
      hreplayed.replayed⟩ (confirmBar_adds hconfirm)

/-- A main bar adds to the log what bears its time. -/
theorem step_adds (h : step e s input = some t) : LogAdds input.bar.time s t := by
  obtain ⟨opened, hopen, hrest⟩ := Option.bind_eq_some_iff.mp h
  obtain ⟨filled, hfill, hend⟩ := Option.bind_eq_some_iff.mp hrest
  have hfilled := (openBar_adds hopen).trans (fillPendingEntries_adds hfill)
  have hbackfill : LogAdds input.bar.time filled (backfill input filled) :=
    LogAdds.ofBook (BookAdds.refl _ _) rfl rfl
  split at hend
  · cases Option.some.inj hend
    exact hfilled.trans hbackfill
  · exact (hfilled.trans hbackfill).trans (evaluateBar_adds hend)

end Engines

end MT5Services.BacktestLog
