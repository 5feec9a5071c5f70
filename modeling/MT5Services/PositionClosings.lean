import MT5Services.Departures
import MT5Services.Portfolio

/-!
What one call on the portfolio closes. The three calls that close positions are loops over
the open ones: every position leaves with the price, time and reason handed to
`_close_position`, or stays as the bar leaves it. Read this way the closings of a call
depend on the positions and the bar alone, and the loops of the tracker do exactly them.
-/
namespace MT5Services.PositionClosings

open PyNumber ExitRules Portfolio Departures

/-- A position leaves as it stands when it is closed. -/
abbrev PositionVisit := Visit Position (Position × Closing)

/-- What the loop of `check_exits` does with the decision of the rules. -/
def ruleVisit (config : ChandelierConfig) (bar : Bar) (barIndex : ℤ) (pos : Position)
    (result : ExitCheckResult) : PositionVisit :=
  let taken := takeResult pos result
  match result.shouldClose, result.closeReason with
  | true, some reason =>
    .leaves (taken, ⟨ruleExitPrice config bar taken result, bar.time, barIndex, .rule reason⟩)
  | _, _ => .stays taken

/-- The body of the loop of `check_exits`; `none` when a rule raises. -/
def visitExits (config : ChandelierConfig) (bar : Bar) (barIndex : ℤ) (readings : BarReadings)
    (pos : Position) : Option PositionVisit :=
  match resolveHardBoundaryExit bar (noteBar pos bar) with
  | some (exitPrice, reason) =>
    some (.leaves (noteBar pos bar, ⟨exitPrice, bar.time, barIndex, .rule reason⟩))
  | none =>
    (ruleExit config bar readings pos).map
      (ruleVisit config bar barIndex (evaluated config bar readings pos))

/-- Every position is closed at the close of the bar. -/
def visitAll (bar : Bar) (barIndex : ℤ) (reason : ExitReason) (pos : Position) :
    Option PositionVisit :=
  some (.leaves (pos, ⟨bar.close, bar.time, barIndex, reason⟩))

def visitSignal (strategy : String) (bar : Bar) (barIndex : ℤ) (pos : Position) :
    Option PositionVisit :=
  if pos.strategy = strategy then visitAll bar barIndex (.rule .signalExit) pos
  else some (.stays pos)

/-- The trade left at a stop. -/
def StoppedOut (reason : ExitReason) : Prop :=
  reason = .rule .stopLoss ∨ reason = .rule .trailingStop

/-- The reason to close everything on this bar, the weekend first. -/
def flatReason (c : Settings) (s : Tracker) (bar : Bar) : Option ExitReason :=
  if checkWeekendFlat bar.time c.weekendFlatPolicy s.lastWeekendFlatDate then some .weekendFlat
  else if c.endOfDayCloseEnabled ∧
      checkEndOfDay bar.time c.endOfDayCloseHourUtc c.endOfDayCloseMinuteUtc
        s.lastEndOfDayCloseDate then
    some .endOfDay
  else none

/-- The bar of a call that closes positions, and what it does with each of them. -/
def closingCall (c : Settings) (s : Tracker) : Act → Option (Bar × (Position → Option PositionVisit))
  | .exits bar barIndex readings =>
    some (bar,
      match flatReason c s bar with
      | some reason => visitAll bar barIndex reason
      | none => visitExits c.chandelierConfig bar barIndex readings)
  | .signalExit strategy bar barIndex => some (bar, visitSignal strategy bar barIndex)
  | .endOfTest bar barIndex => some (bar, visitAll bar barIndex .endOfTest)
  | _ => none

/-- The positions a call closes, with what it hands to `_close_position`. -/
def closings (c : Settings) (s : Tracker) (a : Act) : List (Position × Closing) :=
  match closingCall c s a with
  | none => []
  | some (_, visit) => left visit s.openPositions

theorem closings_exits (c : Settings) (s : Tracker) (bar : Bar) (barIndex : ℤ)
    (readings : BarReadings) :
    closings c s (.exits bar barIndex readings) =
      left (match flatReason c s bar with
        | some reason => visitAll bar barIndex reason
        | none => visitExits c.chandelierConfig bar barIndex readings) s.openPositions := rfl

variable {c : Settings} {s : Tracker} {bar : Bar}

/-- A close of everything is for the weekend or the end of the day. -/
theorem flatReason_cases {reason : ExitReason}
    (h : flatReason c s bar = some reason) : reason = .weekendFlat ∨ reason = .endOfDay := by
  unfold flatReason at h
  split_ifs at h
  · exact Or.inl (Option.some.inj h).symm
  · exact Or.inr (Option.some.inj h).symm

def close (c : Settings) (s : Tracker) (departure : Position × Closing) : Tracker :=
  closePosition c s departure.1 departure.2

/-- A close of everything is noted under the date of the bar. -/
def noteFlat (c : Settings) (s : Tracker) : Act → Tracker
  | .exits bar _ _ =>
    match flatReason c s bar with
    | some .weekendFlat =>
      if s.openPositions = [] then s else { s with lastWeekendFlatDate := some (dayOf bar.time) }
    | some .endOfDay =>
      if s.openPositions = [] then s
      else { s with lastEndOfDayCloseDate := some (dayOf bar.time) }
    | _ => s
  | _ => s

theorem checkPosition_eq (c : Settings) (bar : Bar) (barIndex : ℤ) (readings : BarReadings)
    (loop : Tracker × List Position) (pos : Position) :
    checkPosition c bar barIndex readings loop pos =
      (visitExits c.chandelierConfig bar barIndex readings pos).map (take (close c) loop) := by
  unfold checkPosition visitExits
  cases resolveHardBoundaryExit bar (noteBar pos bar) with
  | some hit => rfl
  | none =>
    dsimp only
    cases ruleExit c.chandelierConfig bar readings pos with
    | none => rfl
    | some result =>
      obtain ⟨shouldClose, closeReason, newStopLoss, rMultiple, breakevenActivated⟩ := result
      cases shouldClose with
      | false => rfl
      | true =>
        cases closeReason with
        | none => rfl
        | some reason => rfl

theorem walk_visitAll (c : Settings) (bar : Bar) (barIndex : ℤ) (reason : ExitReason)
    (positions : List Position) (loop : Tracker × List Position) :
    walk (close c) (visitAll bar barIndex reason) loop positions =
      some (positions.foldl
        (fun s pos => closePosition c s pos ⟨bar.close, bar.time, barIndex, reason⟩) loop.1,
        loop.2) := by
  induction positions generalizing loop with
  | nil => rfl
  | cons pos rest ih => exact ih _

theorem walk_visitSignal (c : Settings) (strategy : String) (bar : Bar) (barIndex : ℤ)
    (positions : List Position) (loop : Tracker × List Position) :
    walk (close c) (visitSignal strategy bar barIndex) loop positions =
      some ((positions.filter fun pos => pos.strategy = strategy).foldl
        (fun s pos => closePosition c s pos
          ⟨bar.close, bar.time, barIndex, .rule .signalExit⟩) loop.1,
        loop.2 ++ positions.filter fun pos => pos.strategy ≠ strategy) := by
  induction positions generalizing loop with
  | nil => simp [walk]
  | cons pos rest ih =>
    unfold walk at ih ⊢
    rw [List.foldlM_cons]
    by_cases hstrategy : pos.strategy = strategy
    · have hvisit : visitSignal strategy bar barIndex pos =
          visitAll bar barIndex (.rule .signalExit) pos := if_pos hstrategy
      rw [hvisit, List.filter_cons_of_pos (by simp [hstrategy]),
        List.filter_cons_of_neg (by simp [hstrategy])]
      exact ih _
    · have hvisit : visitSignal strategy bar barIndex pos = some (.stays pos) := if_neg hstrategy
      rw [hvisit, List.filter_cons_of_neg (by simp [hstrategy]),
        List.filter_cons_of_pos (by simp [hstrategy])]
      refine (ih (take (close c) loop (.stays pos))).trans ?_
      simp [take]

theorem closeAllWithReason_eq_walk (c : Settings) (s : Tracker) (bar : Bar) (barIndex : ℤ)
    (reason : ExitReason) :
    some (closeAllWithReason c s bar barIndex reason) =
      (walk (close c) (visitAll bar barIndex reason) (s, []) s.openPositions).map fun loop =>
        { loop.1 with openPositions := loop.2 } := by
  rw [walk_visitAll]
  rfl

theorem checkExits_eq_walk (c : Settings) (s : Tracker) (bar : Bar) (barIndex : ℤ)
    (readings : BarReadings) :
    checkExits c s bar barIndex readings =
      (walk (close c)
        (match flatReason c s bar with
          | some reason => visitAll bar barIndex reason
          | none => visitExits c.chandelierConfig bar barIndex readings)
        (noteFlat c s (.exits bar barIndex readings), []) s.openPositions).map fun loop =>
          { loop.1 with openPositions := loop.2 } := by
  have hround : checkPosition c bar barIndex readings = fun loop pos =>
      (visitExits c.chandelierConfig bar barIndex readings pos).map (take (close c) loop) := by
    funext loop pos
    exact checkPosition_eq c bar barIndex readings loop pos
  have hloop : ∀ loop, s.openPositions.foldlM (checkPosition c bar barIndex readings) loop =
      walk (close c) (visitExits c.chandelierConfig bar barIndex readings) loop
        s.openPositions := by
    intro loop
    rw [hround]
    rfl
  unfold checkExits noteFlat flatReason
  rw [hloop]
  by_cases hweekend :
      checkWeekendFlat bar.time c.weekendFlatPolicy s.lastWeekendFlatDate = true
  · simp only [hweekend, if_true, true_and]
    by_cases hopen : s.openPositions = []
    · rw [if_neg (not_not.mpr hopen), if_neg (fun hday => hday.2.2 hopen), if_pos hopen, hopen]
      rfl
    · rw [if_pos hopen, if_neg hopen]
      exact closeAllWithReason_eq_walk c _ bar barIndex .weekendFlat
  · rw [if_neg (fun hboth => hweekend hboth.1)]
    simp only [hweekend, Bool.false_eq_true, if_false]
    by_cases hday : c.endOfDayCloseEnabled = true ∧ checkEndOfDay bar.time
        c.endOfDayCloseHourUtc c.endOfDayCloseMinuteUtc s.lastEndOfDayCloseDate = true
    · simp only [hday, if_true, true_and, and_self]
      by_cases hopen : s.openPositions = []
      · rw [if_neg (not_not.mpr hopen), if_pos hopen, hopen]
        rfl
      · rw [if_pos hopen, if_neg hopen]
        exact closeAllWithReason_eq_walk c _ bar barIndex .endOfDay
    · rw [if_neg (fun hboth => hday ⟨hboth.1, hboth.2.1⟩)]
      simp only [if_neg hday]

variable {a : Act} {visit : Position → Option PositionVisit}

/-- A call that closes positions is the loop over the open ones. -/
theorem step_eq_walk (h : closingCall c s a = some (bar, visit)) : step c s a =
      (walk (close c) visit (noteFlat c s a, []) s.openPositions).map fun loop =>
        { loop.1 with openPositions := loop.2 } := by
  cases a with
  | exits bar' barIndex readings =>
    obtain ⟨rfl, rfl⟩ := Prod.mk.inj (Option.some.inj h)
    exact checkExits_eq_walk c s bar' barIndex readings
  | signalExit strategy bar' barIndex =>
    obtain ⟨rfl, rfl⟩ := Prod.mk.inj (Option.some.inj h)
    rw [walk_visitSignal]
    rfl
  | endOfTest bar' barIndex =>
    obtain ⟨rfl, rfl⟩ := Prod.mk.inj (Option.some.inj h)
    exact closeAllWithReason_eq_walk c s bar' barIndex .endOfTest
  | observe bar' => cases h
  | swap bar' => cases h
  | atrReference atr => cases h
  | checkOpen bar' params => cases h
  | openTrade order => cases h
  | equity bar' => cases h

variable {t : Tracker}

/-- What a call that closes positions leaves behind. -/
theorem step_closings (h : closingCall c s a = some (bar, visit)) (hstep : step c s a = some t) :
    t = { (closings c s a).foldl (close c) (noteFlat c s a) with
      openPositions := staying visit s.openPositions } := by
  rw [step_eq_walk h] at hstep
  obtain ⟨loop, hloop, rfl⟩ := Option.map_eq_some_iff.mp hstep
  obtain ⟨hstate, hkept⟩ := walk_eq hloop
  unfold closings
  rw [h]
  rw [hkept, List.nil_append]
  dsimp only at hstate ⊢
  rw [hstate]

theorem openPositions_of_closingCall (h : closingCall c s a = some (bar, visit))
    (hstep : step c s a = some t) : t.openPositions = staying visit s.openPositions := by
  rw [step_closings h hstep]

/-- What the gates for new positions and the swap remember. -/
structure Counters where
  swapChargedDates : List ℤ
  dailyTradeCounts : Dict ℤ ℤ
  hourlyWindow : List ℤ
  dailyOpenedVolume : Dict ℤ ℚ

def counters (s : Tracker) : Counters where
  swapChargedDates := s.swapChargedDates
  dailyTradeCounts := s.dailyTradeCounts
  hourlyWindow := s.hourlyWindow
  dailyOpenedVolume := s.dailyOpenedVolume

theorem counters_ensureDayStartEquity (s : Tracker) (time : ℤ) (equity : ℚ) :
    counters (ensureDayStartEquity s time equity) = counters s := by
  unfold ensureDayStartEquity
  split_ifs
  · rfl
  · rfl

theorem counters_trimHourlyWindow (c : Settings) (s : Tracker) (time : ℤ) :
    counters (trimHourlyWindow c s time) =
      { counters s with hourlyWindow := (trimHourlyWindow c s time).hourlyWindow } := by
  unfold trimHourlyWindow
  split_ifs
  · rfl
  · rfl

/-- The gates drop entries of the window at most. -/
theorem counters_canOpenPosition (c : Settings) (s : Tracker) (bar : Bar)
    (params : TradeParameters) :
    counters (canOpenPosition c s bar params).1 = counters s ∨
      counters (canOpenPosition c s bar params).1 =
        { counters s with hourlyWindow := (trimHourlyWindow c s bar.time).hourlyWindow } := by
  unfold canOpenPosition
  split
  · exact Or.inl rfl
  · dsimp only
    right
    split_ifs
    · exact counters_trimHourlyWindow c s bar.time
    · exact (counters_ensureDayStartEquity _ _ _).trans (counters_trimHourlyWindow c s bar.time)

theorem counters_noteFlat (c : Settings) (s : Tracker) (a : Act) :
    counters (noteFlat c s a) = counters s := by
  unfold noteFlat
  split
  · split
    · split_ifs
      · rfl
      · rfl
    · split_ifs
      · rfl
      · rfl
    · rfl
  · rfl

/-- Closing positions frees no part of what is counted. -/
theorem counters_of_closingCall (h : closingCall c s a = some (bar, visit))
    (hstep : step c s a = some t) : counters t = counters s := by
  have hclosed : counters ((closings c s a).foldl (close c) (noteFlat c s a)) =
      counters (noteFlat c s a) :=
    Runs.foldl_frame (close c) counters (closings c s a) (fun _ _ _ => rfl) _
  rw [step_closings h hstep, ← counters_noteFlat c s a, ← hclosed]
  rfl

end MT5Services.PositionClosings
