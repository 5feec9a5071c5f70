import MT5Services.ExitLookahead
import MT5Services.RecentTimes
import Mathlib.Algebra.Order.BigOperators.Group.List

/-!
The limits of the portfolio over whole runs of the backtest. The gates of `can_open_position`
read lists, tables by day and a window of recent openings; here they are compared with a log of
all positions that were opened. The close at the end of the day is done once a date, and the
backtest has no gate for entries after it.
-/
namespace MT5Services.PortfolioCaps

open ExitRules Portfolio Runs Departures PositionClosings ExitLookahead RecentTimes

/-- The bar time of a call. -/
def actTime : Act → Option ℤ
  | .observe bar => some bar.time
  | .swap bar => some bar.time
  | .atrReference _ => none
  | .checkOpen bar _ => some bar.time
  | .openTrade order => some order.bar.time
  | .exits bar _ _ => some bar.time
  | .signalExit _ bar _ => some bar.time
  | .equity bar => some bar.time
  | .endOfTest bar _ => some bar.time

/-- Time and volume of a position. -/
abbrev Opening := ℤ × ℚ

/-- The tracker with a log of all positions opened so far and the last bar time. -/
structure Book where
  tracker : Tracker
  opened : List Opening := []
  clock : Option ℤ := none

def accepts (c : Settings) (s : Tracker) (order : OpenOrder) : Bool :=
  (canOpenPosition c s order.bar order.tradeParams).2 = none

def openings (c : Settings) (s : Tracker) : Act → List Opening
  | .openTrade order =>
    if accepts c s order then [(order.bar.time, order.tradeParams.positionSize)] else []
  | _ => []

def bookStep (c : Settings) (b : Book) (a : Act) : Option Book :=
  (step c b.tracker a).map fun t =>
    { tracker := t
      opened := b.opened ++ openings c b.tracker a
      clock := (actTime a).or b.clock }

def bookStart (c : Settings) : Book := { tracker := start c }

def onDay (day : ℤ) (opened : List Opening) : List Opening :=
  opened.filter fun o => dayOf o.1 = day

def volume (opened : List Opening) : ℚ := (opened.map Prod.snd).sum

def openVolume (s : Tracker) : ℚ := (s.openPositions.map Position.positionSize).sum

/-- The limits that are configured, against the open positions and all that was opened. A limit
of zero trades or less is no limit. -/
structure WithinCaps (c : Settings) (b : Book) : Prop where
  positions : b.tracker.openPositions.length ≤ c.maxPositions
  perSymbol : ∀ most ∈ c.maxVolumePerSymbol, openVolume b.tracker ≤ most
  dayTrades : ∀ most ∈ c.maxTradesPerDay, 0 < most → ∀ day,
    ((onDay day b.opened).length : ℤ) ≤ most
  dayVolume : ∀ most ∈ c.maxVolumePerDay, ∀ day, volume (onDay day b.opened) ≤ most
  perHour : ∀ most ∈ c.maxTradesPerHour, 0 < most →
    AtMostIn 3600 most.toNat (b.opened.map Prod.fst)

/-- The bar is at or past the closing time of its day, and the close is switched on. -/
def AtClosing (c : Settings) (bar : Bar) : Prop :=
  c.endOfDayCloseEnabled = true ∧
    c.endOfDayCloseHourUtc * 3600 + c.endOfDayCloseMinuteUtc * 60 ≤ bar.time % 86400

/-- The limits hold in every state of the run, and every call of `check_exits` at or past the
closing time leaves no position open. -/
structure RiskCapped (c : Settings) (labels : List Act) : Prop where
  caps : ∀ front back b, labels = front ++ back →
    run (bookStep c) (bookStart c) front = some b → WithinCaps c b
  flat : ∀ front bar barIndex readings back b t,
    labels = front ++ .exits bar barIndex readings :: back →
      run (bookStep c) (bookStart c) front = some b →
        bookStep c b (.exits bar barIndex readings) = some t → AtClosing c bar →
          t.tracker.openPositions = []

/-- Bar times do not go back. -/
def Timely (b : Book) (a : Act) : Prop := ∀ time ∈ actTime a, ∀ now ∈ b.clock, now ≤ time

/-- No position is opened with a negative volume, and none on a date that the end of the day
has been done for. -/
def EntersInTime (c : Settings) (b : Book) : Act → Prop
  | .openTrade order => accepts c b.tracker order = true →
    0 ≤ order.tradeParams.positionSize ∧
      (c.endOfDayCloseEnabled = true →
        b.tracker.lastEndOfDayCloseDate ≠ some (dayOf order.bar.time))
  | _ => True

instance (b : Book) (a : Act) : Decidable (Timely b a) :=
  inferInstanceAs (Decidable (∀ _ ∈ _, _))

instance (c : Settings) (b : Book) : (a : Act) → Decidable (EntersInTime c b a)
  | .openTrade _ => inferInstanceAs (Decidable (_ → _))
  | .observe _ => isTrue trivial
  | .swap _ => isTrue trivial
  | .atrReference _ => isTrue trivial
  | .checkOpen _ _ => isTrue trivial
  | .exits _ _ _ => isTrue trivial
  | .signalExit _ _ _ => isTrue trivial
  | .equity _ => isTrue trivial
  | .endOfTest _ _ => isTrue trivial

/-- The limits on volumes are not negative. -/
structure SaneLimits (c : Settings) : Prop where
  perSymbol : ∀ most ∈ c.maxVolumePerSymbol, 0 ≤ most
  perDay : ∀ most ∈ c.maxVolumePerDay, 0 ≤ most

section Gates

variable {c : Settings} {s : Tracker}

theorem volumeRefusal_none {bar : Bar} {size : ℚ} (h : volumeRefusal c s bar size = none) :
    s.openPositions.length < c.maxPositions ∧
      exceeds c.maxVolumePerSymbol (openVolume s + size) = false ∧
      exceeds c.maxVolumePerDay
        ((s.dailyOpenedVolume.get? (dayOf bar.time)).getD 0 + size) = false ∧
      usedUp c.maxTradesPerDay ((s.dailyTradeCounts.get? (dayOf bar.time)).getD 0) = false := by
  unfold volumeRefusal at h
  dsimp only at h
  split_ifs at h with hpositions hmin hmax horder hsymbol hday htrades
  refine ⟨not_le.mp hpositions, ?_, ?_, ?_⟩
  · exact Bool.eq_false_iff.mpr hsymbol
  · exact Bool.eq_false_iff.mpr hday
  · exact Bool.eq_false_iff.mpr htrades

theorem le_of_not_exceeds {limit : Option ℚ} {value most : ℚ} (h : exceeds limit value = false)
    (hmost : most ∈ limit) : value ≤ most := by
  rw [Option.mem_def.mp hmost] at h
  exact not_lt.mp (of_decide_eq_false h)

theorem lt_of_not_usedUp {limit : Option ℤ} {count most : ℤ} (h : usedUp limit count = false)
    (hmost : most ∈ limit) (hpos : 0 < most) : count < most := by
  rw [Option.mem_def.mp hmost] at h
  have hnot := of_decide_eq_false h
  omega

/-- What all gates have let through, and what the tracker is like after them. -/
theorem canOpenPosition_accepted {bar : Bar} {params : TradeParameters}
    (h : (canOpenPosition c s bar params).2 = none) :
    volumeRefusal c s bar params.positionSize = none ∧
      usedUp c.maxTradesPerHour (trimHourlyWindow c s bar.time).hourlyWindow.length = false ∧
      counters (canOpenPosition c s bar params).1 =
        { counters s with hourlyWindow := (trimHourlyWindow c s bar.time).hourlyWindow } := by
  unfold canOpenPosition at h ⊢
  split
  · rename_i refusal hrefused
    rw [hrefused] at h
    cases h
  · rename_i hvolume
    rw [hvolume] at h
    dsimp only at h ⊢
    split_ifs at h ⊢ with hhour
    refine ⟨hvolume, Bool.eq_false_iff.mpr hhour, ?_⟩
    exact (counters_ensureDayStartEquity _ _ _).trans (counters_trimHourlyWindow c s bar.time)

theorem lastEndOfDay_canOpenPosition (bar : Bar) (params : TradeParameters) :
    (canOpenPosition c s bar params).1.lastEndOfDayCloseDate = s.lastEndOfDayCloseDate := by
  have hstarted : ∀ (u : Tracker) (time : ℤ) (equity : ℚ),
      (ensureDayStartEquity u time equity).lastEndOfDayCloseDate = u.lastEndOfDayCloseDate := by
    intro u time equity
    unfold ensureDayStartEquity
    split_ifs
    · rfl
    · rfl
  have htrimmed : (trimHourlyWindow c s bar.time).lastEndOfDayCloseDate =
      s.lastEndOfDayCloseDate := by
    unfold trimHourlyWindow
    split_ifs
    · rfl
    · rfl
  unfold canOpenPosition
  split
  · rfl
  · dsimp only
    split_ifs
    · exact htrimmed
    · exact (hstarted _ _ _).trans htrimmed

theorem openPosition_refused {order : OpenOrder} (h : accepts c s order = false) :
    openPosition c s order = (canOpenPosition c s order.bar order.tradeParams).1 := by
  unfold openPosition
  split
  · rename_i gated refusal hrefused
    rw [hrefused]
  · rename_i gated hopened
    have haccepted := of_decide_eq_false h
    rw [hopened] at haccepted
    exact absurd rfl haccepted

/-- The bookkeeping of an accepted order. -/
structure Booked (c : Settings) (s : Tracker) (order : OpenOrder) (t : Tracker) : Prop where
  positions : t.openPositions.map Position.positionSize =
    s.openPositions.map Position.positionSize ++ [order.tradeParams.positionSize]
  counts : t.dailyTradeCounts = s.dailyTradeCounts.set (dayOf order.bar.time)
    ((s.dailyTradeCounts.get? (dayOf order.bar.time)).getD 0 + 1)
  volumes : t.dailyOpenedVolume = s.dailyOpenedVolume.set (dayOf order.bar.time)
    ((s.dailyOpenedVolume.get? (dayOf order.bar.time)).getD 0 + order.tradeParams.positionSize)
  window : t.hourlyWindow =
    (trimHourlyWindow c s order.bar.time).hourlyWindow ++ [order.bar.time]
  endOfDay : t.lastEndOfDayCloseDate = s.lastEndOfDayCloseDate

theorem openPosition_accepted {order : OpenOrder} (h : accepts c s order = true) :
    Booked c s order (openPosition c s order) := by
  have haccepted := of_decide_eq_true h
  have hpositions := (sameCash_canOpenPosition c s order.bar order.tradeParams).positions
  have hcounters := (canOpenPosition_accepted haccepted).2.2
  have hlast := lastEndOfDay_canOpenPosition (c := c) (s := s) order.bar order.tradeParams
  unfold openPosition
  split
  · rename_i gated refusal hrefused
    rw [hrefused] at haccepted
    cases haccepted
  · rename_i gated hopened
    rw [hopened] at hpositions hcounters hlast
    have hcounts : gated.dailyTradeCounts = s.dailyTradeCounts :=
      congrArg Counters.dailyTradeCounts hcounters
    have hvolumes : gated.dailyOpenedVolume = s.dailyOpenedVolume :=
      congrArg Counters.dailyOpenedVolume hcounters
    have hwindow : gated.hourlyWindow = (trimHourlyWindow c s order.bar.time).hourlyWindow :=
      congrArg Counters.hourlyWindow hcounters
    constructor
    · rw [List.map_append, hpositions]
      rfl
    · rw [hcounts]
    · rw [hvolumes]
    · rw [hwindow]
    · exact hlast

end Gates

/-- What every call does that opens no position: volumes only leave, the tables by day stay, the
window is trimmed at most, and the date of the last close changes only with a close of
everything. -/
structure Shrinks (c : Settings) (s : Tracker) (a : Act) (t : Tracker) : Prop where
  positions : (t.openPositions.map Position.positionSize).Sublist
    (s.openPositions.map Position.positionSize)
  counts : t.dailyTradeCounts = s.dailyTradeCounts
  volumes : t.dailyOpenedVolume = s.dailyOpenedVolume
  window : t.hourlyWindow = s.hourlyWindow ∨
    ∃ time ∈ actTime a, t.hourlyWindow = (trimHourlyWindow c s time).hourlyWindow
  endOfDay : t.lastEndOfDayCloseDate = s.lastEndOfDayCloseDate ∨
    (t.openPositions = [] ∧ ∃ time ∈ actTime a, t.lastEndOfDayCloseDate = some (dayOf time))

section Calls

variable {c : Settings} {s t : Tracker} {a : Act}

theorem shrinks_of_counters (hpositions : t.openPositions.map Position.positionSize =
      s.openPositions.map Position.positionSize)
    (hcounters : counters t = counters s)
    (hlast : t.lastEndOfDayCloseDate = s.lastEndOfDayCloseDate) : Shrinks c s a t where
  positions := hpositions ▸ List.Sublist.refl _
  counts := congrArg Counters.dailyTradeCounts hcounters
  volumes := congrArg Counters.dailyOpenedVolume hcounters
  window := Or.inl (congrArg Counters.hourlyWindow hcounters)
  endOfDay := Or.inl hlast

theorem shrinks_ensureDayStartEquity (time : ℤ) (equity : ℚ) :
    Shrinks c s a (ensureDayStartEquity s time equity) := by
  unfold ensureDayStartEquity
  split_ifs
  · exact shrinks_of_counters rfl rfl rfl
  · exact shrinks_of_counters rfl rfl rfl

theorem shrinks_canOpenPosition {bar : Bar} (params : TradeParameters)
    (htime : bar.time ∈ actTime a) : Shrinks c s a (canOpenPosition c s bar params).1 where
  positions := by
    rw [(sameCash_canOpenPosition c s bar params).positions]
  counts := by
    rcases counters_canOpenPosition c s bar params with hsame | htrimmed
    · exact congrArg Counters.dailyTradeCounts hsame
    · exact congrArg Counters.dailyTradeCounts htrimmed
  volumes := by
    rcases counters_canOpenPosition c s bar params with hsame | htrimmed
    · exact congrArg Counters.dailyOpenedVolume hsame
    · exact congrArg Counters.dailyOpenedVolume htrimmed
  window := by
    rcases counters_canOpenPosition c s bar params with hsame | htrimmed
    · exact Or.inl (congrArg Counters.hourlyWindow hsame)
    · exact Or.inr ⟨bar.time, htime, congrArg Counters.hourlyWindow htrimmed⟩
  endOfDay := Or.inl (lastEndOfDay_canOpenPosition bar params)

variable {call : Bar × (Position → Option PositionVisit)}

theorem sublist_staying (hcall : closingCall c s a = some call) (positions : List Position) :
    ((staying call.2 positions).map Position.positionSize).Sublist
      (positions.map Position.positionSize) := by
  induction positions with
  | nil => exact List.Sublist.refl _
  | cons pos rest ih =>
    unfold staying at ih ⊢
    rw [List.filterMap_cons]
    split
    · exact ih.cons _
    · rename_i changed hkept
      split at hkept
      · rename_i later hvisit
        obtain rfl := Option.some.inj hkept
        rw [List.map_cons, List.map_cons, (visit_frame hcall hvisit).2.1]
        exact ih.cons_cons _
      · cases hkept

/-- A close of everything leaves nothing. -/
theorem staying_visitAll (bar : Bar) (barIndex : ℤ) (reason : ExitReason)
    (positions : List Position) : staying (visitAll bar barIndex reason) positions = [] := by
  induction positions with
  | nil => rfl
  | cons pos rest ih => exact ih

theorem lastEndOfDay_of_closingCall
    (hcall : closingCall c s a = some call) (hstep : step c s a = some t) :
    t.lastEndOfDayCloseDate = s.lastEndOfDayCloseDate ∨
      (t.openPositions = [] ∧ ∃ time ∈ actTime a, t.lastEndOfDayCloseDate = some (dayOf time)) := by
  have hclosed : t.lastEndOfDayCloseDate = (noteFlat c s a).lastEndOfDayCloseDate := by
    rw [step_closings hcall hstep]
    exact Runs.foldl_frame (close c) Tracker.lastEndOfDayCloseDate (closings c s a)
      (fun _ _ _ => rfl) _
  rw [hclosed]
  have hopen := openPositions_of_closingCall hcall hstep
  cases a with
  | exits bar barIndex readings =>
    obtain rfl := Option.some.inj hcall
    cases hflat : flatReason c s bar with
    | none =>
      left
      simp only [noteFlat, hflat]
    | some reason =>
      rw [hflat] at hopen
      rcases flatReason_cases hflat with rfl | rfl
      · left
        simp only [noteFlat, hflat]
        split_ifs
        · rfl
        · rfl
      · simp only [noteFlat, hflat]
        split_ifs
        · exact Or.inl rfl
        · refine Or.inr ⟨?_, bar.time, rfl, rfl⟩
          rw [hopen]
          exact staying_visitAll bar barIndex .endOfDay s.openPositions
  | signalExit strategy bar barIndex => exact Or.inl rfl
  | endOfTest bar barIndex => exact Or.inl rfl
  | _ => cases hcall

theorem shrinks_of_closingCall
    (hcall : closingCall c s a = some call) (hstep : step c s a = some t) : Shrinks c s a t where
  positions := by
    rw [openPositions_of_closingCall hcall hstep]
    exact sublist_staying hcall s.openPositions
  counts := congrArg Counters.dailyTradeCounts (counters_of_closingCall hcall hstep)
  volumes := congrArg Counters.dailyOpenedVolume (counters_of_closingCall hcall hstep)
  window := Or.inl (congrArg Counters.hourlyWindow (counters_of_closingCall hcall hstep))
  endOfDay := lastEndOfDay_of_closingCall hcall hstep

/-- A call either opens a position with its bookkeeping or opens none and shrinks. -/
theorem step_cases (hstep : step c s a = some t) :
    (∃ order, a = .openTrade order ∧ accepts c s order = true ∧ Booked c s order t) ∨
      (openings c s a = [] ∧ Shrinks c s a t) := by
  cases a with
  | observe bar =>
    obtain rfl := Option.some.inj hstep
    exact Or.inr ⟨rfl, shrinks_ensureDayStartEquity _ _⟩
  | swap bar =>
    obtain rfl := Option.some.inj hstep
    refine Or.inr ⟨rfl, ?_⟩
    unfold applyOvernightSwap
    split_ifs
    · exact shrinks_of_counters rfl rfl rfl
    · exact shrinks_of_counters rfl rfl rfl
    · exact shrinks_of_counters rfl rfl rfl
    · refine ⟨?_, rfl, rfl, Or.inl rfl, Or.inl rfl⟩
      rw [List.map_map]
      exact List.Sublist.refl _
  | atrReference atr =>
    obtain rfl := Option.some.inj hstep
    refine Or.inr ⟨rfl, ?_⟩
    unfold updateAtrReference
    split_ifs
    · exact shrinks_of_counters rfl rfl rfl
    · exact shrinks_of_counters rfl rfl rfl
  | checkOpen bar params =>
    obtain rfl := Option.some.inj hstep
    exact Or.inr ⟨rfl, shrinks_canOpenPosition params rfl⟩
  | openTrade order =>
    obtain rfl := Option.some.inj hstep
    cases haccepts : accepts c s order with
    | true => exact Or.inl ⟨order, rfl, haccepts, openPosition_accepted haccepts⟩
    | false =>
      refine Or.inr ⟨?_, ?_⟩
      · simp [openings, haccepts]
      · rw [openPosition_refused haccepts]
        exact shrinks_canOpenPosition order.tradeParams rfl
  | exits bar barIndex readings => exact Or.inr ⟨rfl, shrinks_of_closingCall rfl hstep⟩
  | signalExit strategy bar barIndex => exact Or.inr ⟨rfl, shrinks_of_closingCall rfl hstep⟩
  | equity bar =>
    obtain rfl := Option.some.inj hstep
    have hday := shrinks_ensureDayStartEquity (c := c) (s := s) (a := .equity bar) bar.time
      (s.currentBalance + floatingPnl c s.openPositions bar.close)
    exact Or.inr ⟨rfl, hday.positions, hday.counts, hday.volumes, hday.window, hday.endOfDay⟩
  | endOfTest bar barIndex => exact Or.inr ⟨rfl, shrinks_of_closingCall rfl hstep⟩

end Calls

/-- The invariant of a run: the tables by day and the window agree with the log, no volume is
negative, and after the end of a day nothing is open until the next one. -/
structure Sound (c : Settings) (b : Book) : Prop where
  caps : WithinCaps c b
  counts : ∀ day, (b.tracker.dailyTradeCounts.get? day).getD 0 = (onDay day b.opened).length
  volumes : ∀ day, (b.tracker.dailyOpenedVolume.get? day).getD 0 = volume (onDay day b.opened)
  window : ∀ bound, (∀ now ∈ b.clock, now - 3600 ≤ bound) →
    Covers bound b.tracker.hourlyWindow (b.opened.map Prod.fst)
  sizes : ∀ size ∈ b.tracker.openPositions.map Position.positionSize, 0 ≤ size
  done : c.endOfDayCloseEnabled = true → ∀ day ∈ b.tracker.lastEndOfDayCloseDate,
    ∃ now ∈ b.clock, day ≤ dayOf now ∧ (b.tracker.openPositions = [] ∨ day < dayOf now)

section Steps

variable {c : Settings} {b : Book} {a : Act} {t : Tracker}

/-- The book after a call that opens nothing. -/
def Book.turn (b : Book) (a : Act) (t : Tracker) : Book :=
  { tracker := t
    opened := b.opened
    clock := (actTime a).or b.clock }

/-- The book after an order that is accepted. -/
def Book.record (b : Book) (order : OpenOrder) (t : Tracker) : Book :=
  { tracker := t
    opened := b.opened ++ [(order.bar.time, order.tradeParams.positionSize)]
    clock := some order.bar.time }

theorem bound_before (htimely : Timely b a) {bound : ℤ}
    (h : ∀ now ∈ (actTime a).or b.clock, now - 3600 ≤ bound) :
    ∀ now ∈ b.clock, now - 3600 ≤ bound := by
  intro now hnow
  cases htime : actTime a with
  | none =>
    rw [htime] at h
    exact h now hnow
  | some time =>
    rw [htime] at h
    have hle := htimely time htime now hnow
    have hbound := h time rfl
    omega

theorem dayOf_mono {now time : ℤ} (h : now ≤ time) : dayOf now ≤ dayOf time := by
  unfold dayOf
  omega

/-- The clock goes on, and with it the day. -/
theorem exists_clock (htimely : Timely b a) {now : ℤ} (hnow : now ∈ b.clock) :
    ∃ later ∈ (actTime a).or b.clock, dayOf now ≤ dayOf later := by
  cases htime : actTime a with
  | none => exact ⟨now, hnow, le_rfl⟩
  | some time => exact ⟨time, rfl, dayOf_mono (htimely time htime now hnow)⟩

theorem Covers.trim {s : Tracker} {time : ℤ} {events : List ℤ}
    (h : Covers (time - 3600) s.hourlyWindow events) :
    Covers (time - 3600) (trimHourlyWindow c s time).hourlyWindow events := by
  unfold trimHourlyWindow
  split_ifs
  · exact h.dropWhile_lt le_rfl
  · exact h

/-- The window is kept, or trimmed at the time of the call. -/
theorem Sound.window_turn (h : Sound c b) (htimely : Timely b a)
    (hshrinks : Shrinks c b.tracker a t) {bound : ℤ}
    (hbound : ∀ now ∈ (b.turn a t).clock, now - 3600 ≤ bound) :
    Covers bound t.hourlyWindow (b.opened.map Prod.fst) := by
  rcases hshrinks.window with hsame | ⟨time, htime, htrimmed⟩
  · have hcovers := h.window bound (bound_before htimely hbound)
    rw [← hsame] at hcovers
    exact hcovers
  · have hnow : time - 3600 ≤ bound := by
      apply hbound
      unfold Book.turn
      rw [Option.mem_def.mp htime]
      rfl
    have hcovers := Covers.trim (c := c) (h.window (time - 3600) (by
      intro now hclock
      have hle := htimely time htime now hclock
      omega))
    rw [← htrimmed] at hcovers
    exact hcovers.mono hnow

/-- A day stays done for, and the call that does so leaves nothing open. -/
theorem Sound.done_turn (h : Sound c b) (htimely : Timely b a)
    (hshrinks : Shrinks c b.tracker a t) (henabled : c.endOfDayCloseEnabled = true) {day : ℤ}
    (hday : day ∈ t.lastEndOfDayCloseDate) :
    ∃ now ∈ (b.turn a t).clock,
      day ≤ dayOf now ∧ (t.openPositions = [] ∨ day < dayOf now) := by
  rcases hshrinks.endOfDay with hsame | ⟨hempty, time, htime, hdone⟩
  · have hbefore : day ∈ b.tracker.lastEndOfDayCloseDate := hsame ▸ hday
    obtain ⟨now, hnow, hle, hopen⟩ := h.done henabled day hbefore
    obtain ⟨later, hlater, hmono⟩ := exists_clock htimely hnow
    refine ⟨later, hlater, hle.trans hmono, ?_⟩
    rcases hopen with hnone | hlt
    · left
      have hsub := hshrinks.positions
      rw [hnone, List.map_nil, List.sublist_nil, List.map_eq_nil_iff] at hsub
      exact hsub
    · exact Or.inr (hlt.trans_le hmono)
  · have hdate : day = dayOf time := Option.some.inj ((Option.mem_def.mp hday).symm.trans hdone)
    refine ⟨time, ?_, hdate.le, Or.inl hempty⟩
    unfold Book.turn
    rw [Option.mem_def.mp htime]
    rfl

/-- A call that opens nothing keeps the invariant. -/
theorem Sound.turn (h : Sound c b) (htimely : Timely b a) (hshrinks : Shrinks c b.tracker a t) :
    Sound c (b.turn a t) where
  caps :=
    { positions := by
        have hlength := hshrinks.positions.length_le
        rw [List.length_map, List.length_map] at hlength
        exact hlength.trans h.caps.positions
      perSymbol := by
        intro most hmost
        exact (hshrinks.positions.sum_le_sum h.sizes).trans (h.caps.perSymbol most hmost)
      dayTrades := h.caps.dayTrades
      dayVolume := h.caps.dayVolume
      perHour := h.caps.perHour }
  counts := by
    intro day
    have hcounts := h.counts day
    rw [← hshrinks.counts] at hcounts
    exact hcounts
  volumes := by
    intro day
    have hvolumes := h.volumes day
    rw [← hshrinks.volumes] at hvolumes
    exact hvolumes
  window := fun _ hbound => h.window_turn htimely hshrinks hbound
  sizes := fun size hsize => h.sizes size (hshrinks.positions.subset hsize)
  done := fun henabled _ hday => h.done_turn htimely hshrinks henabled hday

theorem onDay_append (day : ℤ) (opened : List Opening) (o : Opening) :
    onDay day (opened ++ [o]) = onDay day opened ++ if dayOf o.1 = day then [o] else [] := by
  unfold onDay
  rw [List.filter_append]
  by_cases hday : dayOf o.1 = day
  · rw [if_pos hday, List.filter_cons_of_pos (by simpa using hday), List.filter_nil]
  · rw [if_neg hday, List.filter_cons_of_neg (by simpa using hday), List.filter_nil]

theorem volume_append (opened more : List Opening) :
    volume (opened ++ more) = volume opened + volume more := by
  unfold volume
  rw [List.map_append, List.sum_append]

theorem caps_record {order : OpenOrder} (h : Sound c b)
    (haccepts : accepts c b.tracker order = true)
    (hcovers : Covers (order.bar.time - 3600)
      (trimHourlyWindow c b.tracker order.bar.time).hourlyWindow (b.opened.map Prod.fst))
    (hbooked : Booked c b.tracker order t) : WithinCaps c (b.record order t) := by
  obtain ⟨hvolume, hhour, _⟩ := canOpenPosition_accepted (of_decide_eq_true haccepts)
  obtain ⟨hpositions, hsymbol, hday, htrades⟩ := volumeRefusal_none hvolume
  rw [h.volumes] at hday
  rw [h.counts] at htrades
  constructor
  · have hlength := congrArg List.length hbooked.positions
    rw [List.length_append, List.length_map, List.length_map, List.length_singleton] at hlength
    unfold Book.record
    dsimp only
    omega
  · intro most hmost
    have hsum : openVolume t = openVolume b.tracker + order.tradeParams.positionSize := by
      unfold openVolume
      rw [hbooked.positions, List.sum_append, List.sum_singleton]
    exact hsum.le.trans (le_of_not_exceeds hsymbol hmost)
  · intro most hmost hpos day
    simp only [Book.record, onDay_append]
    by_cases hsame : dayOf order.bar.time = day
    · have hlt := lt_of_not_usedUp htrades hmost hpos
      rw [if_pos hsame, List.length_append, List.length_singleton, ← hsame]
      omega
    · rw [if_neg hsame, List.append_nil]
      exact h.caps.dayTrades most hmost hpos day
  · intro most hmost day
    simp only [Book.record, onDay_append]
    by_cases hsame : dayOf order.bar.time = day
    · rw [if_pos hsame, volume_append, ← hsame]
      have hone : volume [(order.bar.time, order.tradeParams.positionSize)] =
          order.tradeParams.positionSize := List.sum_singleton
      rw [hone]
      exact le_of_not_exceeds hday hmost
    · rw [if_neg hsame, List.append_nil]
      exact h.caps.dayVolume most hmost day
  · intro most hmost hpos
    have hlt := lt_of_not_usedUp hhour hmost hpos
    simp only [Book.record, List.map_append]
    exact (h.caps.perHour most hmost hpos).append hcovers (by omega)

theorem Sound.counts_record {order : OpenOrder} (h : Sound c b)
    (hbooked : Booked c b.tracker order t) (day : ℤ) :
    (t.dailyTradeCounts.get? day).getD 0 = (onDay day (b.record order t).opened).length := by
  simp only [Book.record, onDay_append]
  rw [hbooked.counts, Dict.get?_set]
  by_cases hsame : dayOf order.bar.time = day
  · rw [if_pos hsame.symm, if_pos hsame, Option.getD_some, h.counts, hsame]
    simp
  · rw [if_neg (Ne.symm hsame), if_neg hsame, List.append_nil]
    exact h.counts day

theorem Sound.volumes_record {order : OpenOrder} (h : Sound c b)
    (hbooked : Booked c b.tracker order t) (day : ℤ) :
    (t.dailyOpenedVolume.get? day).getD 0 = volume (onDay day (b.record order t).opened) := by
  simp only [Book.record, onDay_append]
  rw [hbooked.volumes, Dict.get?_set]
  by_cases hsame : dayOf order.bar.time = day
  · rw [if_pos hsame.symm, if_pos hsame, Option.getD_some, h.volumes, hsame, volume_append]
    simp [volume]
  · rw [if_neg (Ne.symm hsame), if_neg hsame, List.append_nil]
    exact h.volumes day

/-- An accepted order keeps the invariant. -/
theorem Sound.record {order : OpenOrder} (h : Sound c b) (htimely : Timely b (.openTrade order))
    (hsize : 0 ≤ order.tradeParams.positionSize)
    (hdate : c.endOfDayCloseEnabled = true →
      b.tracker.lastEndOfDayCloseDate ≠ some (dayOf order.bar.time))
    (haccepts : accepts c b.tracker order = true) (hbooked : Booked c b.tracker order t) :
    Sound c (b.record order t) := by
  have hcovers : Covers (order.bar.time - 3600)
      (trimHourlyWindow c b.tracker order.bar.time).hourlyWindow (b.opened.map Prod.fst) := by
    apply Covers.trim
    apply h.window
    intro now hnow
    have hle := htimely order.bar.time rfl now hnow
    omega
  refine ⟨caps_record h haccepts hcovers hbooked, h.counts_record hbooked,
    h.volumes_record hbooked, ?_, ?_, ?_⟩
  · intro bound hbound
    have hnow : order.bar.time - 3600 ≤ bound := hbound order.bar.time rfl
    simp only [Book.record, List.map_append]
    rw [hbooked.window]
    exact (hcovers.append [order.bar.time]).mono hnow
  · intro size hmem
    simp only [Book.record] at hmem
    rw [hbooked.positions] at hmem
    rcases List.mem_append.mp hmem with hold | hnew
    · exact h.sizes size hold
    · rw [List.mem_singleton.mp hnew]
      exact hsize
  · intro henabled day hday
    have hbefore : day ∈ b.tracker.lastEndOfDayCloseDate := hbooked.endOfDay ▸ hday
    obtain ⟨now, hnow, hle, _⟩ := h.done henabled day hbefore
    have hmono := dayOf_mono (htimely order.bar.time rfl now hnow)
    have hother : day ≠ dayOf order.bar.time := by
      intro hsame
      apply hdate henabled
      rw [← hsame]
      exact hbefore
    refine ⟨order.bar.time, rfl, hle.trans hmono, Or.inr ?_⟩
    exact lt_of_le_of_ne (hle.trans hmono) hother

theorem bookStep_eq {b' : Book} (hstep : bookStep c b a = some b') :
    ∃ t, step c b.tracker a = some t ∧
      ((∃ order, a = .openTrade order ∧ accepts c b.tracker order = true ∧
          Booked c b.tracker order t ∧ b' = b.record order t) ∨
        (Shrinks c b.tracker a t ∧ b' = b.turn a t)) := by
  obtain ⟨t, ht, rfl⟩ := Option.map_eq_some_iff.mp hstep
  refine ⟨t, ht, ?_⟩
  rcases step_cases ht with ⟨order, rfl, haccepts, hbooked⟩ | ⟨hnone, hshrinks⟩
  · refine Or.inl ⟨order, rfl, haccepts, hbooked, ?_⟩
    simp [Book.record, openings, haccepts, actTime]
  · refine Or.inr ⟨hshrinks, ?_⟩
    rw [hnone, List.append_nil]
    rfl

/-- Every call in time keeps the invariant. -/
theorem bookStep_sound {b' : Book} (h : Sound c b) (htimely : Timely b a)
    (henters : EntersInTime c b a) (hstep : bookStep c b a = some b') : Sound c b' := by
  obtain ⟨t, _, hcases⟩ := bookStep_eq hstep
  rcases hcases with ⟨order, rfl, haccepts, hbooked, rfl⟩ | ⟨hshrinks, rfl⟩
  · obtain ⟨hsize, hdate⟩ := henters haccepts
    exact h.record htimely hsize hdate haccepts hbooked
  · exact h.turn htimely hshrinks

theorem start_sound (hsane : SaneLimits c) : Sound c (bookStart c) where
  caps :=
    { positions := Nat.zero_le _
      perSymbol := hsane.perSymbol
      dayTrades := fun _ _ hpos _ => hpos.le
      dayVolume := fun most hmost _ => hsane.perDay most hmost
      perHour := fun _ _ _ => atMostIn_nil _ _ }
  counts := fun _ => rfl
  volumes := fun _ => rfl
  window := fun bound _ => covers_nil bound
  sizes := fun _ hsize => absurd hsize List.not_mem_nil
  done := fun _ _ hday => nomatch hday

/-- At or past the closing time nothing is open after the call exactly when the date is not done
yet, the weekend is due, or the rules close all there is. -/
theorem flat_of_exits_iff {s : Tracker} {bar : Bar} {barIndex : ℤ} {readings : BarReadings}
    (hstep : step c s (.exits bar barIndex readings) = some t) (hclosing : AtClosing c bar) :
    t.openPositions = [] ↔
      s.lastEndOfDayCloseDate ≠ some (dayOf bar.time) ∨
        checkWeekendFlat bar.time c.weekendFlatPolicy s.lastWeekendFlatDate = true ∨
          staying (visitExits c.chandelierConfig bar barIndex readings) s.openPositions = [] := by
  have hopen := openPositions_of_closingCall rfl hstep
  have hdue : checkEndOfDay bar.time c.endOfDayCloseHourUtc c.endOfDayCloseMinuteUtc
      s.lastEndOfDayCloseDate = true ↔ s.lastEndOfDayCloseDate ≠ some (dayOf bar.time) := by
    unfold checkEndOfDay dueToday
    rw [decide_eq_true_iff]
    exact and_iff_right hclosing.2
  rw [hopen]
  by_cases hweekend :
      checkWeekendFlat bar.time c.weekendFlatPolicy s.lastWeekendFlatDate = true
  · have hflat : flatReason c s bar = some .weekendFlat := if_pos hweekend
    rw [hflat]
    exact iff_of_true (staying_visitAll bar barIndex .weekendFlat s.openPositions)
      (Or.inr (Or.inl hweekend))
  · by_cases hnew : s.lastEndOfDayCloseDate ≠ some (dayOf bar.time)
    · have hflat : flatReason c s bar = some .endOfDay := by
        unfold flatReason
        rw [if_neg hweekend, if_pos ⟨hclosing.1, hdue.mpr hnew⟩]
      rw [hflat]
      exact iff_of_true (staying_visitAll bar barIndex .endOfDay s.openPositions) (Or.inl hnew)
    · have hflat : flatReason c s bar = none := by
        unfold flatReason
        rw [if_neg hweekend, if_neg (fun hboth => hnew (hdue.mp hboth.2))]
      rw [hflat]
      simp only [hnew, hweekend, Bool.false_eq_true, false_or]

/-- In a run in time nothing is open after `check_exits` at or past the closing time. -/
theorem Sound.flat (h : Sound c b) {bar : Bar} {barIndex : ℤ} {readings : BarReadings}
    (htimely : Timely b (.exits bar barIndex readings)) {b' : Book}
    (hstep : bookStep c b (.exits bar barIndex readings) = some b') (hclosing : AtClosing c bar) :
    b'.tracker.openPositions = [] := by
  obtain ⟨t, ht, rfl⟩ := Option.map_eq_some_iff.mp hstep
  by_cases hdone : b.tracker.lastEndOfDayCloseDate = some (dayOf bar.time)
  · obtain ⟨now, hnow, _, hopen⟩ := h.done hclosing.1 (dayOf bar.time) hdone
    have hmono := dayOf_mono (htimely bar.time rfl now hnow)
    have hnone : b.tracker.openPositions = [] := by
      rcases hopen with hnone | hlt
      · exact hnone
      · omega
    have hleft := openPositions_of_closingCall rfl ht
    rw [hnone] at hleft
    exact hleft
  · exact (flat_of_exits_iff ht hclosing).mpr (Or.inl hdone)

end Steps

/-- The log goes along with the runs of the tracker. -/
theorem run_bookStep (c : Settings) (b : Book) (labels : List Act) :
    (run (bookStep c) b labels).map Book.tracker = run (step c) b.tracker labels := by
  induction labels generalizing b with
  | nil => rfl
  | cons a rest ih =>
    rw [run, run, bookStep]
    cases hstep : step c b.tracker a with
    | none => rfl
    | some t =>
      rw [Option.map_some, Option.bind_some, Option.bind_some]
      exact ih _

/-- The limits hold throughout every run whose bar times do not go back, whose volumes are not
negative and that opens no position on a date that the end of the day is done for. -/
theorem riskCapped (c : Settings) (labels : List Act) (hsane : SaneLimits c)
    (htimely : Along (bookStep c) Timely (bookStart c) labels)
    (henters : Along (bookStep c) (EntersInTime c) (bookStart c) labels) :
    RiskCapped c labels := by
  have hboth := along_and htimely henters
  have hsound : ∀ front back b, labels = front ++ back →
      run (bookStep c) (bookStart c) front = some b → Sound c b := by
    intro front back b hlabels hrun
    refine run_invariant_along ?_ (start_sound hsane) (along_front (hlabels ▸ hboth)) hrun
    intro u a v hu hguard hstep
    exact bookStep_sound hu hguard.1 hguard.2 hstep
  constructor
  · intro front back b hlabels hrun
    exact (hsound front back b hlabels hrun).caps
  · intro front bar barIndex readings back b t hlabels hrun hstep hclosing
    have hnow : Timely b (.exits bar barIndex readings) :=
      (along_iff_splits _ _).mp htimely front _ back b hlabels hrun
    exact (hsound front _ b hlabels hrun).flat hnow hstep hclosing

section Examples

def closedAtNine : Settings :=
  { initialBalance := 10000
    endOfDayCloseEnabled := true }

/-- A position that is closed at the end of its day. -/
def closedInTime : List Act :=
  [.openTrade tenthOfLot, .exits (flatBar 75600 2001) 1 {}]

theorem riskCapped_closedInTime : RiskCapped closedAtNine closedInTime :=
  riskCapped closedAtNine closedInTime ⟨by simp [closedAtNine], by simp [closedAtNine]⟩
    (by decide +kernel) (by decide +kernel)

/-- After the close another position is opened on the same evening. -/
def enteredLate : List Act :=
  closedInTime ++ [.openTrade { tenthOfLot with bar := flatBar 77400 2000 }]

/-- It is still open after `check_exits` a quarter of an hour later. -/
theorem not_riskCapped :
    ¬RiskCapped closedAtNine (enteredLate ++ [.exits (flatBar 78300 2001) 3 {}]) := by
  intro h
  have hopen : (run (bookStep closedAtNine) (bookStart closedAtNine)
      (enteredLate ++ [.exits (flatBar 78300 2001) 3 {}])).any
        (fun b => !b.tracker.openPositions.isEmpty) = true := by
    decide +kernel
  obtain ⟨t, hrun, hleft⟩ := (Option.any_eq_true _ _).mp hopen
  rw [run_append] at hrun
  obtain ⟨b, hfront, hlast⟩ := Option.bind_eq_some_iff.mp hrun
  obtain ⟨u, hstep, hend⟩ := run_cons hlast
  obtain rfl := Option.some.inj hend
  have hflat := h.flat enteredLate _ _ _ [] b u rfl hfront hstep ⟨rfl, by decide⟩
  rw [hflat] at hleft
  cases hleft

end Examples

end MT5Services.PortfolioCaps
