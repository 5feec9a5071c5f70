import MT5Services.ExitLookahead

/-!
Overnight swaps over the life of a position. `apply_overnight_swap` runs once a bar, before the
entries of the bar, and charges every open position on the first bar of the charge hour of a
date. A position is followed from its entry through a stretch of calls in which it stays open,
and its charges are compared with the charge instants that lie between its entry and its last
bar.
-/
namespace MT5Services.OvernightSwap

open ExitRules Portfolio Runs Departures PositionClosings ExitLookahead

/-- The instant of a day at which the swap is due. -/
def chargeInstant (c : Settings) (day : ℤ) : ℤ := day * 86400 + c.costModel.swapChargeHourUtc * 3600

/-- This bar is charged, as the source decides it. -/
def chargesOn (c : Settings) (s : Tracker) (bar : Bar) : Bool :=
  c.costModel.swapEnabled ∧ s.openPositions ≠ [] ∧
    hourOf bar.time = c.costModel.swapChargeHourUtc ∧ dayOf bar.time ∉ s.swapChargedDates

/-- The time of the charge that a call books on every open position. -/
def booking (c : Settings) (s : Tracker) : Act → Option ℤ
  | .swap bar => if chargesOn c s bar then some bar.time else none
  | _ => none

def bookings (c : Settings) : Tracker → List Act → List ℤ
  | _, [] => []
  | s, a :: rest =>
    (booking c s a).toList ++
      match step c s a with
      | some t => bookings c t rest
      | none => []

def remaining : PositionVisit → Option Position
  | .stays changed => some changed
  | .leaves _ => none

/-- An open position after a call; `none` when the call closes it. -/
def passOn (c : Settings) (s : Tracker) (a : Act) (pos : Position) : Option Position :=
  match closingCall c s a with
  | some call => (call.2 pos).bind remaining
  | none => some ((booking c s a).elim pos fun time => chargeSwap c time pos)

def carriedTo (c : Settings) : Tracker → List Act → Position → Option Position
  | _, [], pos => some pos
  | s, a :: rest, pos =>
    (passOn c s a pos).bind fun changed => (step c s a).bind fun t => carriedTo c t rest changed

def swapTimes (labels : List Act) : List ℤ :=
  labels.filterMap fun a =>
    match a with
    | .swap bar => some bar.time
    | _ => none

/-- Bars come in the order of their times, each with one swap before its entries. -/
def Precedes : Act → Act → Prop
  | .swap first, .swap later => first.time < later.time
  | .swap first, .openTrade order => first.time ≤ order.bar.time
  | .openTrade order, .swap later => order.bar.time < later.time
  | _, _ => True

def InBarOrder (labels : List Act) : Prop := labels.Pairwise Precedes

/-- A position that is opened in a run from the start and stays open over a stretch of calls. -/
structure Holding (c : Settings) where
  front : List Act
  before : Tracker
  order : OpenOrder
  stretch : List Act
  position : Position
  reached : run (step c) (start c) front = some before
  accepted : (canOpenPosition c before order.bar order.tradeParams).2 = none
  held : carriedTo c (openPosition c before order) stretch
    (newPosition c (canOpenPosition c before order.bar order.tradeParams).1 order) = some position
  ordered : InBarOrder (front ++ .openTrade order :: stretch)

namespace Holding

variable {c : Settings} (h : Holding c)

def opened : Tracker := openPosition c h.before h.order

def entry : Position :=
  newPosition c (canOpenPosition c h.before h.order.bar h.order.tradeParams).1 h.order

/-- The charges booked on the position. -/
def charges : List ℤ := bookings c h.opened h.stretch

/-- The charge instant of the day lies after the entry and not after the last bar. -/
def Due (day : ℤ) : Prop :=
  h.order.bar.time < chargeInstant c day ∧
    ∃ time ∈ swapTimes h.stretch, chargeInstant c day ≤ time

instance (day : ℤ) : Decidable (h.Due day) := inferInstanceAs (Decidable (_ ∧ _))

/-- A bar of the holding starts in the charge hour of the day. -/
def Noticed (day : ℤ) : Prop :=
  ∃ time ∈ swapTimes h.stretch,
    hourOf time = c.costModel.swapChargeHourUtc ∧ dayOf time = day

instance (day : ℤ) : Decidable (h.Noticed day) :=
  inferInstanceAs (Decidable (∃ _ ∈ _, _))

/-- Every due day is charged once and no other day is, each with the charge of that day. -/
structure ChargedAsDue : Prop where
  once : ∀ day, (h.charges.map dayOf).count day = if h.Due day then 1 else 0
  cost : h.position.swapCost =
    (h.charges.map (c.costModel.swapCharge h.entry.direction h.entry.positionSize)).sum

/-- A bar starts in the charge hour of every due day; a position entered in the charge hour,
with another bar to come in it, finds its date charged. -/
def ChargeBars : Prop :=
  (∀ day, h.Due day → h.Noticed day) ∧
    (hourOf h.order.bar.time = c.costModel.swapChargeHourUtc →
      h.Noticed (dayOf h.order.bar.time) → dayOf h.order.bar.time ∈ h.opened.swapChargedDates)

end Holding

/-- Charges over bar times while a position is open: the first bar of the hour on every date. -/
def chargeTimes (hour : ℤ) : List ℤ → List ℤ → List ℤ
  | _, [] => []
  | charged, time :: rest =>
    if hourOf time = hour ∧ dayOf time ∉ charged then
      time :: chargeTimes hour (charged ++ [dayOf time]) rest
    else chargeTimes hour charged rest

/-- A day is charged once if a bar starts in its hour and it has not been charged before. -/
theorem count_chargeTimes (hour : ℤ) (charged times : List ℤ) (day : ℤ) :
    ((chargeTimes hour charged times).map dayOf).count day =
      if (∃ time ∈ times, hourOf time = hour ∧ dayOf time = day) ∧ day ∉ charged then 1 else 0 := by
  induction times generalizing charged with
  | nil => simp [chargeTimes]
  | cons time rest ih =>
    unfold chargeTimes
    by_cases hcharge : hourOf time = hour ∧ dayOf time ∉ charged
    · rw [if_pos hcharge, List.map_cons, List.count_cons, ih]
      by_cases hday : dayOf time = day
      · subst hday
        simp [hcharge.1, hcharge.2]
      · have hother : ¬day = dayOf time := fun hsame => hday hsame.symm
        simp [hday, hother]
    · rw [if_neg hcharge, ih]
      apply if_congr ?_ rfl rfl
      constructor
      · rintro ⟨⟨later, hlater, hhour⟩, hnew⟩
        exact ⟨⟨later, List.mem_cons_of_mem time hlater, hhour⟩, hnew⟩
      · rintro ⟨⟨later, hlater, hhour, hday⟩, hnew⟩
        rcases List.mem_cons.mp hlater with rfl | hrest
        · exact absurd ⟨hhour, hday ▸ hnew⟩ hcharge
        · exact ⟨⟨later, hrest, hhour, hday⟩, hnew⟩

section Calls

variable {c : Settings} {s t : Tracker} {a : Act}

theorem chargesOn_iff (bar : Bar) :
    chargesOn c s bar = true ↔ c.costModel.swapEnabled = true ∧ s.openPositions ≠ [] ∧
      hourOf bar.time = c.costModel.swapChargeHourUtc ∧ dayOf bar.time ∉ s.swapChargedDates := by
  unfold chargesOn
  rw [decide_eq_true_iff]

theorem applyOvernightSwap_of_charges {bar : Bar} (h : chargesOn c s bar = true) :
    (applyOvernightSwap c s bar).swapChargedDates = s.swapChargedDates ++ [dayOf bar.time] ∧
      (applyOvernightSwap c s bar).openPositions = s.openPositions.map (chargeSwap c bar.time) := by
  obtain ⟨henabled, hopen, hhour, hnew⟩ := (chargesOn_iff bar).mp h
  unfold applyOvernightSwap
  rw [if_neg (by simp [henabled, hopen]), if_neg (not_not.mpr hhour), if_neg hnew]
  exact ⟨rfl, rfl⟩

theorem applyOvernightSwap_of_not {bar : Bar} (h : chargesOn c s bar = false) :
    applyOvernightSwap c s bar = s := by
  unfold applyOvernightSwap
  split_ifs with hidle hhour hdone
  · rfl
  · rfl
  · rfl
  · exfalso
    obtain ⟨henabled, hopen⟩ := not_or.mp hidle
    rw [(chargesOn_iff bar).mpr ⟨by simpa using henabled, hopen, not_not.mp hhour, hdone⟩] at h
    cases h

theorem swapChargedDates_canOpenPosition (bar : Bar) (params : TradeParameters) :
    (canOpenPosition c s bar params).1.swapChargedDates = s.swapChargedDates := by
  rcases counters_canOpenPosition c s bar params with hsame | htrimmed
  · exact congrArg Counters.swapChargedDates hsame
  · exact congrArg Counters.swapChargedDates htrimmed

theorem swapChargedDates_openPosition (order : OpenOrder) :
    (openPosition c s order).swapChargedDates = s.swapChargedDates := by
  have hgates := swapChargedDates_canOpenPosition (c := c) (s := s) order.bar order.tradeParams
  unfold openPosition
  split
  · rename_i gated refusal hrefused
    rw [hrefused] at hgates
    exact hgates
  · rename_i gated hopened
    rw [hopened] at hgates
    exact hgates

/-- The dates that are charged grow by the booking of the call. -/
theorem swapChargedDates_of_step (hstep : step c s a = some t) :
    t.swapChargedDates = s.swapChargedDates ++ ((booking c s a).map dayOf).toList := by
  have hclosing : ∀ call, closingCall c s a = some call → booking c s a = none →
      t.swapChargedDates = s.swapChargedDates ++ ((booking c s a).map dayOf).toList := by
    intro call hcall hnone
    have hsame := congrArg Counters.swapChargedDates (counters_of_closingCall hcall hstep)
    rw [hnone]
    simpa [counters] using hsame
  cases a with
  | observe bar =>
    obtain rfl := Option.some.inj hstep
    have hsame : (observeBar c s bar).swapChargedDates = s.swapChargedDates :=
      congrArg Counters.swapChargedDates (counters_ensureDayStartEquity s bar.time
        (s.currentBalance + floatingPnl c s.openPositions bar.openPrice))
    simpa [booking] using hsame
  | swap bar =>
    obtain rfl := Option.some.inj hstep
    simp only [booking]
    cases hcharges : chargesOn c s bar with
    | true => simp [(applyOvernightSwap_of_charges hcharges).1]
    | false => simp [applyOvernightSwap_of_not hcharges]
  | atrReference atr =>
    obtain rfl := Option.some.inj hstep
    unfold updateAtrReference
    split_ifs
    · simp [booking]
    · simp [booking]
  | checkOpen bar params =>
    obtain rfl := Option.some.inj hstep
    simpa [booking] using swapChargedDates_canOpenPosition (c := c) (s := s) bar params
  | openTrade order =>
    obtain rfl := Option.some.inj hstep
    simpa [booking] using swapChargedDates_openPosition (c := c) (s := s) order
  | exits bar barIndex readings => exact hclosing _ rfl rfl
  | signalExit strategy bar barIndex => exact hclosing _ rfl rfl
  | equity bar =>
    obtain rfl := Option.some.inj hstep
    have hsame : (recordEquity c s bar).swapChargedDates = s.swapChargedDates :=
      congrArg Counters.swapChargedDates (counters_ensureDayStartEquity s bar.time
        (s.currentBalance + floatingPnl c s.openPositions bar.close))
    simpa [booking] using hsame
  | endOfTest bar barIndex => exact hclosing _ rfl rfl

variable {changed : Position}

theorem remaining_eq {visited : PositionVisit}
    (h : remaining visited = some changed) : visited = .stays changed := by
  cases visited with
  | stays later => rw [Option.some.inj h]
  | leaves departure => cases h

variable {pos : Position}

/-- A position that stays open is found among the open ones after the call. -/
theorem passOn_mem (hstep : step c s a = some t)
    (hpos : pos ∈ s.openPositions) (hpass : passOn c s a pos = some changed) :
    changed ∈ t.openPositions := by
  unfold passOn at hpass
  cases hcall : closingCall c s a with
  | some call =>
    rw [hcall] at hpass
    rw [openPositions_of_closingCall hcall hstep]
    obtain ⟨visited, hvisit, hstays⟩ := Option.bind_eq_some_iff.mp hpass
    obtain rfl := remaining_eq hstays
    exact mem_staying.mpr ⟨pos, hpos, hvisit⟩
  | none =>
    rw [hcall] at hpass
    obtain rfl := Option.some.inj hpass
    cases a with
    | observe bar =>
      obtain rfl := Option.some.inj hstep
      have hsame := (sameCash_ensureDayStartEquity s bar.time
        (s.currentBalance + floatingPnl c s.openPositions bar.openPrice)).positions
      exact hsame ▸ hpos
    | swap bar =>
      obtain rfl := Option.some.inj hstep
      simp only [booking]
      cases hcharges : chargesOn c s bar with
      | true =>
        rw [(applyOvernightSwap_of_charges hcharges).2]
        exact List.mem_map_of_mem hpos
      | false =>
        rw [applyOvernightSwap_of_not hcharges]
        exact hpos
    | atrReference atr =>
      obtain rfl := Option.some.inj hstep
      exact (sameCash_updateAtrReference s atr).positions ▸ hpos
    | checkOpen bar params =>
      obtain rfl := Option.some.inj hstep
      exact (sameCash_canOpenPosition c s bar params).positions ▸ hpos
    | openTrade order =>
      obtain rfl := Option.some.inj hstep
      exact mem_openPosition_of_mem order hpos
    | exits bar barIndex readings => cases hcall
    | signalExit strategy bar barIndex => cases hcall
    | equity bar =>
      obtain rfl := Option.some.inj hstep
      exact (sameCash_recordEquity c s bar).positions ▸ hpos
    | endOfTest bar barIndex => cases hcall

/-- Only a booking changes the swap of a position that stays open. -/
theorem passOn_frame (hpass : passOn c s a pos = some changed) :
    changed.direction = pos.direction ∧ changed.positionSize = pos.positionSize ∧
      changed.swapCost = pos.swapCost + ((booking c s a).toList.map
        (c.costModel.swapCharge pos.direction pos.positionSize)).sum := by
  unfold passOn at hpass
  cases hcall : closingCall c s a with
  | some call =>
    rw [hcall] at hpass
    obtain ⟨visited, hvisit, hstays⟩ := Option.bind_eq_some_iff.mp hpass
    obtain rfl := remaining_eq hstays
    obtain ⟨hdirection, hsize, hswap⟩ := visit_frame hcall hvisit
    have hnone : booking c s a = none := by
      cases a with
      | swap bar => cases hcall
      | _ => rfl
    rw [hnone]
    exact ⟨hdirection, hsize, by simpa using hswap⟩
  | none =>
    rw [hcall] at hpass
    obtain rfl := Option.some.inj hpass
    cases booking c s a with
    | none => simp
    | some time => simp [chargeSwap]

variable {last : Position}

theorem carriedTo_cons {rest : List Act} (h : carriedTo c s (a :: rest) pos = some last) :
    ∃ changed t, passOn c s a pos = some changed ∧ step c s a = some t ∧
      carriedTo c t rest changed = some last := by
  obtain ⟨changed, hpass, hstep⟩ := Option.bind_eq_some_iff.mp h
  obtain ⟨t, ht, hrest⟩ := Option.bind_eq_some_iff.mp hstep
  exact ⟨changed, t, hpass, ht, hrest⟩

theorem bookings_cons {rest : List Act} (hstep : step c s a = some t) :
    bookings c s (a :: rest) = (booking c s a).toList ++ bookings c t rest := by
  rw [bookings, hstep]

variable {labels : List Act}

/-- Over a stretch the swap of a position grows by what is booked. -/
theorem carriedTo_frame (h : carriedTo c s labels pos = some last) :
    last.direction = pos.direction ∧ last.positionSize = pos.positionSize ∧
      last.swapCost = pos.swapCost + ((bookings c s labels).map
        (c.costModel.swapCharge pos.direction pos.positionSize)).sum := by
  induction labels generalizing s pos with
  | nil =>
    obtain rfl := Option.some.inj h
    simp [bookings]
  | cons a rest ih =>
    obtain ⟨changed, t, hpass, hstep, hrest⟩ := carriedTo_cons h
    obtain ⟨hdirection, hsize, hswap⟩ := passOn_frame hpass
    obtain ⟨hdirection', hsize', hswap'⟩ := ih hrest
    refine ⟨hdirection'.trans hdirection, hsize'.trans hsize, ?_⟩
    rw [hswap', hswap, hdirection, hsize, bookings_cons hstep, List.map_append, List.sum_append,
      add_assoc]

/-- While a position is open the bookings are the charges over the bars alone. -/
theorem bookings_eq (henabled : c.costModel.swapEnabled = true) (hpos : pos ∈ s.openPositions)
    (h : carriedTo c s labels pos = some last) : bookings c s labels =
      chargeTimes c.costModel.swapChargeHourUtc s.swapChargedDates (swapTimes labels) := by
  induction labels generalizing s pos with
  | nil => rfl
  | cons a rest ih =>
    obtain ⟨changed, t, hpass, hstep, hrest⟩ := carriedTo_cons h
    have hlater := ih (passOn_mem hstep hpos hpass) hrest
    rw [bookings_cons hstep, hlater, swapChargedDates_of_step hstep]
    cases a with
    | swap bar =>
      have hopen : s.openPositions ≠ [] := List.ne_nil_of_mem hpos
      have hiff : chargesOn c s bar = true ↔
          hourOf bar.time = c.costModel.swapChargeHourUtc ∧
            dayOf bar.time ∉ s.swapChargedDates := by
        rw [chargesOn_iff]
        simp [henabled, hopen]
      have htimes : swapTimes (.swap bar :: rest) = bar.time :: swapTimes rest := rfl
      rw [htimes, chargeTimes]
      simp only [booking]
      by_cases hcharge : chargesOn c s bar = true
      · rw [if_pos hcharge, if_pos (hiff.mp hcharge)]
        rfl
      · rw [if_neg hcharge, if_neg (mt hiff.mpr hcharge)]
        simp
    | _ => simp [booking, swapTimes]

/-- A charged date has had a bar in its charge hour. -/
theorem noticed_of_charged (hrun : run (step c) s labels = some t) {day : ℤ}
    (hday : day ∈ t.swapChargedDates) : day ∈ s.swapChargedDates ∨ ∃ time ∈ swapTimes labels,
      hourOf time = c.costModel.swapChargeHourUtc ∧ dayOf time = day := by
  induction labels generalizing s with
  | nil =>
    obtain rfl := Option.some.inj hrun
    exact Or.inl hday
  | cons a rest ih =>
    obtain ⟨u, hstep, hrest⟩ := run_cons hrun
    rcases ih hrest with hcharged | ⟨time, htime, hnoticed⟩
    · rw [swapChargedDates_of_step hstep] at hcharged
      rcases List.mem_append.mp hcharged with hold | hnew
      · exact Or.inl hold
      · right
        cases a with
        | swap bar =>
          simp only [booking] at hnew
          by_cases hcharge : chargesOn c s bar = true
          · rw [if_pos hcharge] at hnew
            have hsame : day = dayOf bar.time := List.mem_singleton.mp hnew
            obtain ⟨_, _, hhour, _⟩ := (chargesOn_iff bar).mp hcharge
            exact ⟨bar.time, List.mem_cons_self, hhour, hsame.symm⟩
          · rw [if_neg hcharge] at hnew
            cases hnew
        | _ => cases hnew
    · refine Or.inr ⟨time, ?_, hnoticed⟩
      cases a with
      | swap bar => exact List.mem_cons_of_mem bar.time htime
      | _ => exact htime

end Calls

namespace Holding

variable {c : Settings} (h : Holding c)

theorem entry_mem : h.entry ∈ h.opened.openPositions := by
  have haccepted := h.accepted
  unfold entry opened openPosition
  split
  · rename_i gated refusal hrefused
    rw [hrefused] at haccepted
    cases haccepted
  · rename_i gated hopened
    rw [hopened]
    exact List.mem_append_right _ List.mem_cons_self

theorem swapTimes_mem {labels : List Act} {time : ℤ} (htime : time ∈ swapTimes labels) :
    ∃ bar, .swap bar ∈ labels ∧ bar.time = time := by
  unfold swapTimes at htime
  obtain ⟨a, ha, hbar⟩ := List.mem_filterMap.mp htime
  split at hbar
  · rename_i bar
    exact ⟨bar, ha, Option.some.inj hbar⟩
  · cases hbar

/-- The bars of the holding come after its entry. -/
theorem entry_lt {time : ℤ} (htime : time ∈ swapTimes h.stretch) : h.order.bar.time < time := by
  obtain ⟨bar, hbar, rfl⟩ := swapTimes_mem htime
  have hordered := (List.pairwise_append.mp h.ordered).2.1
  exact (List.pairwise_cons.mp hordered).1 (.swap bar) hbar

/-- The bars before the entry do not come after it. -/
theorem le_entry {time : ℤ} (htime : time ∈ swapTimes h.front) : time ≤ h.order.bar.time := by
  obtain ⟨bar, hbar, rfl⟩ := swapTimes_mem htime
  exact (List.pairwise_append.mp h.ordered).2.2 (.swap bar) hbar (.openTrade h.order)
    List.mem_cons_self

theorem charged_before {day : ℤ} (hday : day ∈ h.opened.swapChargedDates) :
    chargeInstant c day ≤ h.order.bar.time := by
  unfold opened at hday
  rw [swapChargedDates_openPosition] at hday
  rcases noticed_of_charged h.reached hday with hstart | ⟨time, htime, hhour, hdate⟩
  · cases hstart
  · have hle := h.le_entry htime
    unfold chargeInstant
    unfold hourOf at hhour
    unfold dayOf at hdate
    omega

theorem count_charges (henabled : c.costModel.swapEnabled = true) (day : ℤ) :
    (h.charges.map dayOf).count day =
      if h.Noticed day ∧ day ∉ h.opened.swapChargedDates then 1 else 0 := by
  unfold charges
  rw [bookings_eq henabled h.entry_mem h.held, count_chargeTimes]
  rfl

/-- The days with a charge are those due, day by day, exactly when a bar starts in the charge hour
of every due day and none in the hour of the entry is charged late. -/
theorem noticed_iff_due :
    (∀ day, h.Noticed day ∧ day ∉ h.opened.swapChargedDates ↔ h.Due day) ↔ h.ChargeBars := by
  constructor
  · intro hdays
    refine ⟨fun day hdue => ((hdays day).mpr hdue).1, ?_⟩
    intro hhour hnoticed
    by_contra hnew
    have hdue := ((hdays _).mp ⟨hnoticed, hnew⟩).1
    unfold chargeInstant at hdue
    unfold hourOf at hhour
    unfold dayOf at hdue
    omega
  · rintro ⟨hdue, hlate⟩ day
    constructor
    · rintro ⟨⟨time, htime, hhour, hdate⟩, hnew⟩
      have hlt := h.entry_lt htime
      have hinstant : chargeInstant c day ≤ time := by
        unfold chargeInstant
        unfold hourOf at hhour
        unfold dayOf at hdate
        omega
      refine ⟨?_, time, htime, hinstant⟩
      by_contra hpast
      -- the entry lies in the charge hour of the day itself
      have hentry : hourOf h.order.bar.time = c.costModel.swapChargeHourUtc ∧
          dayOf h.order.bar.time = day := by
        unfold chargeInstant at hpast hinstant
        unfold hourOf dayOf at *
        omega
      apply hnew
      have hcharged := hlate hentry.1 ⟨time, htime, hhour, hdate.trans hentry.2.symm⟩
      rw [hentry.2] at hcharged
      exact hcharged
    · intro hday
      refine ⟨hdue day hday, ?_⟩
      intro hcharged
      exact absurd (h.charged_before hcharged) (not_le.mpr hday.1)

/-- A position is charged as it is due exactly when the bars notice the charge instants. -/
theorem chargedAsDue_iff (henabled : c.costModel.swapEnabled = true) :
    h.ChargedAsDue ↔ h.ChargeBars := by
  rw [← h.noticed_iff_due]
  constructor
  · intro hcharged day
    have honce := hcharged.once day
    rw [h.count_charges henabled day] at honce
    by_cases hnoticed : h.Noticed day ∧ day ∉ h.opened.swapChargedDates
    · rw [if_pos hnoticed] at honce
      refine iff_of_true hnoticed ?_
      by_contra hdue
      rw [if_neg hdue] at honce
      omega
    · rw [if_neg hnoticed] at honce
      refine iff_of_false hnoticed ?_
      intro hdue
      rw [if_pos hdue] at honce
      omega
  · intro hdays
    refine ⟨?_, ?_⟩
    · intro day
      rw [h.count_charges henabled day]
      exact if_congr (hdays day) rfl rfl
    · have hcost := (carriedTo_frame h.held).2.2
      have hzero : h.entry.swapCost = 0 := rfl
      rw [hcost]
      exact (congrArg (· + _) hzero).trans (zero_add _)

end Holding

section Examples

/-- A position opened on the first call of a run. -/
def heldFrom (c : Settings) (order : OpenOrder) (stretch : List Act)
    (haccepted : (canOpenPosition c (start c) order.bar order.tradeParams).2 = none)
    (hheld : (carriedTo c (openPosition c (start c) order) stretch
      (newPosition c (canOpenPosition c (start c) order.bar order.tradeParams).1 order)).isSome)
    (hordered : InBarOrder (.openTrade order :: stretch)) : Holding c where
  front := []
  before := start c
  order := order
  stretch := stretch
  position := Option.get _ hheld
  reached := rfl
  accepted := haccepted
  held := (Option.some_get hheld).symm
  ordered := hordered

def withSwap : Settings :=
  { initialBalance := 10000
    costModel := { swapEnabled := true } }

def boughtAt (time : ℤ) : OpenOrder := { tenthOfLot with bar := flatBar time 2000 }

/-- Bought at one in the night, with a bar at the charge hour. -/
def heldToTheHour : Holding withSwap :=
  heldFrom withSwap (boughtAt 3600) [.swap (flatBar 75600 2001)] (by decide +kernel)
    (by decide) (by simp [InBarOrder, Precedes, boughtAt, flatBar])

theorem heldToTheHour_charged : heldToTheHour.ChargedAsDue := by
  apply (Holding.chargedAsDue_iff heldToTheHour rfl).mpr
  refine ⟨?_, ?_⟩
  · intro day hdue
    obtain ⟨hafter, time, htime, hbefore⟩ := hdue
    have hbar : time = 75600 := List.mem_singleton.mp htime
    have hentry : heldToTheHour.order.bar.time = 3600 := rfl
    have hinstant : chargeInstant withSwap day = day * 86400 + 75600 := rfl
    have hday : day = 0 := by omega
    subst hday
    exact ⟨75600, List.mem_singleton_self _, by decide, by decide⟩
  · intro hhour
    exact absurd hhour (by decide)

/-- Held over nine in the evening on bars of four hours. -/
def heldFourHourly : Holding withSwap :=
  heldFrom withSwap (boughtAt 57600) [.swap (flatBar 72000 2001), .swap (flatBar 86400 2001)]
    (by decide +kernel) (by decide) (by simp [InBarOrder, Precedes, boughtAt, flatBar])

/-- Bought on the bar of the charge instant itself, with another bar in the same hour. -/
def heldWithinTheHour : Holding withSwap :=
  heldFrom withSwap (boughtAt 75600) [.swap (flatBar 76500 2001)] (by decide +kernel)
    (by decide +kernel) (by simp [InBarOrder, Precedes, boughtAt, flatBar])

/-- No bar of four hours starts in the charge hour, and a quarter of an hour later a position
pays for an instant that does not lie after its entry. -/
theorem not_chargedAsDue : ¬heldFourHourly.ChargedAsDue ∧ ¬heldWithinTheHour.ChargedAsDue := by
  refine ⟨?_, ?_⟩
  · intro h
    have honce := h.once 0
    revert honce
    decide +kernel
  · intro h
    have honce := h.once 0
    revert honce
    decide +kernel

end Examples

end MT5Services.OvernightSwap
