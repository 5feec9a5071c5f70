import MT5Services.PositionClosings

/-!
The points of the equity curve. A snapshot and an opening append the balance with the
floating profit of what is open, at the close of the bar. A close appends the balance
alone, so its point is right only when the positions still open at that moment, those that
the loop kept and those it has not come to, float at zero.
-/
namespace MT5Services.EquityCurve

open PyNumber ExitRules Portfolio Departures PositionClosings Runs

/-- What happened at a point of the curve: the tracker right after it, the positions open
from then on and the price of the bar. -/
structure Event where
  after : Tracker
  stillOpen : List Position
  price : ℚ

def Event.point (e : Event) : Option (ℤ × ℚ) := e.after.equityCurve.getLast?

/-- The point is the balance and the floating profit of exactly what is open. -/
def Event.Sound (c : Settings) (e : Event) : Prop :=
  e.point.map Prod.snd = some (e.after.currentBalance + floatingPnl c e.stillOpen e.price)

instance (c : Settings) (e : Event) : Decidable (e.Sound c) :=
  inferInstanceAs (Decidable (_ = _))

/-- The events of one call, up to a rule that raises. -/
def events (c : Settings) (s : Tracker) (a : Act) : List Event :=
  match closingCall c s a with
  | some (bar, visit) =>
    (departures (close c) visit (noteFlat c s a) [] s.openPositions).map fun d =>
      ⟨d.1, d.2, bar.close⟩
  | none =>
    match a with
    | .equity bar => [⟨recordEquity c s bar, s.openPositions, bar.close⟩]
    | .openTrade order =>
      if (canOpenPosition c s order.bar order.tradeParams).2 = none then
        [⟨openPosition c s order, (openPosition c s order).openPositions, order.bar.close⟩]
      else []
    | _ => []

/-- Every point of the run is sound. -/
def SoundThroughout (c : Settings) (labels : List Act) : Prop :=
  ∀ front a back s, labels = front ++ a :: back → run (step c) (start c) front = some s →
    ∀ e ∈ events c s a, e.Sound c

/-- Whenever the call closes a position, the others still there float at zero. -/
def OthersFlat (c : Settings) (s : Tracker) (a : Act) : Prop :=
  ∀ bar visit, closingCall c s a = some (bar, visit) →
    ∀ before pos after, s.openPositions = before ++ pos :: after → Passes visit before →
      (∃ departure, visit pos = some (.leaves departure)) →
      floatingPnl c (staying visit before ++ after) bar.close = 0

theorem equityCurve_ensureDayStartEquity (s : Tracker) (time : ℤ) (equity : ℚ) :
    (ensureDayStartEquity s time equity).equityCurve = s.equityCurve := by
  unfold ensureDayStartEquity
  split_ifs
  · rfl
  · rfl

theorem equityCurve_canOpenPosition (c : Settings) (s : Tracker) (bar : Bar)
    (params : TradeParameters) :
    (canOpenPosition c s bar params).1.equityCurve = s.equityCurve := by
  have htrim : (trimHourlyWindow c s bar.time).equityCurve = s.equityCurve := by
    unfold trimHourlyWindow
    split_ifs
    · rfl
    · rfl
  unfold canOpenPosition
  split
  · rfl
  · dsimp only
    split_ifs
    · exact htrim
    · exact (equityCurve_ensureDayStartEquity _ _ _).trans htrim

theorem equityCurve_noteFlat (c : Settings) (s : Tracker) (a : Act) :
    (noteFlat c s a).equityCurve = s.equityCurve := by
  cases a with
  | exits bar barIndex readings =>
    unfold noteFlat
    dsimp only
    split
    · split_ifs
      · rfl
      · rfl
    · split_ifs
      · rfl
      · rfl
    · rfl
  | observe bar => rfl
  | swap bar => rfl
  | atrReference atr => rfl
  | checkOpen bar params => rfl
  | openTrade order => rfl
  | signalExit strategy bar barIndex => rfl
  | equity bar => rfl
  | endOfTest bar barIndex => rfl

theorem equityCurve_openPosition (c : Settings) (s : Tracker) (order : OpenOrder) :
    (openPosition c s order).equityCurve =
      s.equityCurve ++ (events c s (.openTrade order)).filterMap Event.point := by
  have hgate := equityCurve_canOpenPosition c s order.bar order.tradeParams
  have hcall : closingCall c s (.openTrade order) = none := rfl
  unfold events
  rw [hcall]
  dsimp only
  unfold openPosition
  split
  · rename_i u refusal hrefused
    rw [hrefused] at hgate ⊢
    simpa using hgate
  · rename_i u hopened
    rw [hopened] at hgate ⊢
    simpa [Event.point] using hgate

/-- Every close adds its point. -/
theorem step_equityCurve_of_closing {c : Settings} {s t : Tracker} {a : Act}
    (h : step c s a = some t) {bar : Bar} {visit : Position → Option PositionVisit}
    (hcall : closingCall c s a = some (bar, visit)) :
    t.equityCurve = s.equityCurve ++ (events c s a).filterMap Event.point := by
  unfold events
  rw [hcall]
  rw [step_eq_walk hcall] at h
  obtain ⟨loop, hloop, rfl⟩ := Option.map_eq_some_iff.mp h
  have hgrows : ∀ s departure, ∃ point,
      (close c s departure).equityCurve = s.equityCurve ++ [point] :=
    fun s departure => ⟨_, rfl⟩
  have hlog := log_walk hgrows hloop
  rw [equityCurve_noteFlat] at hlog
  dsimp only
  rw [hlog, List.filterMap_map]
  rfl

/-- The curve grows by the points of the events and by nothing else. -/
theorem step_equityCurve {c : Settings} {s t : Tracker} {a : Act} (h : step c s a = some t) :
    t.equityCurve = s.equityCurve ++ (events c s a).filterMap Event.point := by
  cases a with
  | exits bar barIndex readings => exact step_equityCurve_of_closing h rfl
  | signalExit strategy bar barIndex => exact step_equityCurve_of_closing h rfl
  | endOfTest bar barIndex => exact step_equityCurve_of_closing h rfl
  | equity bar =>
    cases Option.some.inj h
    have hday := equityCurve_ensureDayStartEquity s bar.time
      (s.currentBalance + floatingPnl c s.openPositions bar.close)
    simp [events, closingCall, recordEquity, Event.point, hday]
  | openTrade order =>
    cases Option.some.inj h
    exact equityCurve_openPosition c s order
  | observe bar =>
    cases Option.some.inj h
    exact (equityCurve_ensureDayStartEquity s _ _).trans (List.append_nil _).symm
  | swap bar =>
    cases Option.some.inj h
    unfold applyOvernightSwap
    split_ifs
    · exact (List.append_nil _).symm
    · exact (List.append_nil _).symm
    · exact (List.append_nil _).symm
    · exact (List.append_nil _).symm
  | atrReference atr =>
    cases Option.some.inj h
    unfold updateAtrReference
    split_ifs
    · exact (List.append_nil _).symm
    · exact (List.append_nil _).symm
  | checkOpen bar params =>
    cases Option.some.inj h
    exact (equityCurve_canOpenPosition c s bar params).trans (List.append_nil _).symm

/-- The point of a close is the balance alone. -/
theorem sound_departure_iff {c : Settings} {s : Tracker} {kept positions : List Position}
    {visit : Position → Option PositionVisit} {d : Tracker × List Position} (price : ℚ)
    (h : d ∈ departures (close c) visit s kept positions) :
    Event.Sound c ⟨d.1, d.2, price⟩ ↔ floatingPnl c d.2 price = 0 := by
  obtain ⟨before, departure, hafter⟩ := exists_of_mem_departures h
  have hpoint : Event.point ⟨d.1, d.2, price⟩ =
      some (departure.2.exitTime, d.1.currentBalance) := by
    rw [Event.point, hafter]
    exact List.getLast?_concat
  unfold Event.Sound
  rw [hpoint, Option.map_some, Option.some.injEq, left_eq_add]

theorem sound_snapshot (c : Settings) (s : Tracker) (bar : Bar) :
    Event.Sound c ⟨recordEquity c s bar, s.openPositions, bar.close⟩ := by
  have hbalance := (sameCash_recordEquity c s bar).balance
  unfold Event.Sound
  dsimp only
  rw [hbalance]
  simp [Event.point, recordEquity]

theorem sound_opening (c : Settings) (s : Tracker) (order : OpenOrder)
    (h : (canOpenPosition c s order.bar order.tradeParams).2 = none) :
    Event.Sound c
      ⟨openPosition c s order, (openPosition c s order).openPositions, order.bar.close⟩ := by
  unfold Event.Sound Event.point openPosition
  split
  · rename_i u refusal hrefused
    rw [hrefused] at h
    cases h
  · simp

/-- The events of a call are sound exactly when the others float at zero at its closes. -/
theorem events_sound_iff (c : Settings) (s : Tracker) (a : Act) :
    (∀ e ∈ events c s a, e.Sound c) ↔ OthersFlat c s a := by
  unfold events OthersFlat
  cases hcall : closingCall c s a with
  | some call =>
    obtain ⟨bar, visit⟩ := call
    have hsplits := forall_departures_iff (close c) visit
      (fun still => floatingPnl c still bar.close = 0) (noteFlat c s a) [] s.openPositions
    simp only [List.nil_append] at hsplits
    rw [List.forall_mem_map]
    constructor
    · rintro h bar' visit' hsame
      obtain ⟨rfl, rfl⟩ := Prod.mk.inj (Option.some.inj hsame)
      exact hsplits.mp fun d hd => (sound_departure_iff bar.close hd).mp (h d hd)
    · intro h d hd
      exact (sound_departure_iff bar.close hd).mpr (hsplits.mpr (h bar visit rfl) d hd)
  | none =>
    refine iff_of_true ?_ (by intro bar visit hsame; cases hsame)
    cases a with
    | equity bar => simpa using sound_snapshot c s bar
    | openTrade order =>
      dsimp only
      split_ifs with hgate
      · simpa using sound_opening c s order hgate
      · simp
    | exits bar barIndex readings => simp
    | signalExit strategy bar barIndex => simp
    | endOfTest bar barIndex => simp
    | observe bar => simp
    | swap bar => simp
    | atrReference atr => simp
    | checkOpen bar params => simp

/-- The curve is sound in exactly those runs whose every close meets the condition. -/
theorem sound_throughout_iff (c : Settings) (labels : List Act) :
    SoundThroughout c labels ↔ Along (step c) (OthersFlat c) (start c) labels := by
  rw [along_iff_splits]
  unfold SoundThroughout
  constructor
  · intro h front a back s hlabels hrun
    exact (events_sound_iff c s a).mp (h front a back s hlabels hrun)
  · intro h front a back s hlabels hrun
    exact (events_sound_iff c s a).mpr (h front a back s hlabels hrun)

/-- A second position with a target farther away. -/
def fartherTarget : OpenOrder := { tenthOfLot with tradeParams := ⟨1995, 2030, 1 / 10, 5⟩ }

/-- The first position reaches its target while the second is a hundred in profit. -/
def firstTargetReached : List Act :=
  [.openTrade tenthOfLot, .openTrade fartherTarget, .exits (flatBar 7200 2010) 1 {}]

theorem close_point_misses_floating :
    ¬SoundThroughout { initialBalance := 10000 } firstTargetReached := by
  intro h
  have hrun : (run (step { initialBalance := 10000 }) (start { initialBalance := 10000 })
      [.openTrade tenthOfLot, .openTrade fartherTarget]).map
      (fun s => decide (∀ e ∈ events { initialBalance := 10000 } s
        (.exits (flatBar 7200 2010) 1 {}), e.Sound { initialBalance := 10000 })) =
      some false := by
    decide +kernel
  obtain ⟨s, hs, hsound⟩ := Option.map_eq_some_iff.mp hrun
  exact of_decide_eq_false hsound (h _ _ [] s rfl hs)

end MT5Services.EquityCurve
