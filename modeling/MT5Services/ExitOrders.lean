import MT5Services.PositionManager

/-!
What becomes of an exit decision. The exit rules may decide to close with one of five
reasons, at a level or at market; `update_price` turns a reversal and a timeout into a
market close and everything else into a new stop or into nothing. A decision is carried
out when the broker already holds an order at its level or a market close is requested,
and a requested stop has to lie on the protective side of the price.
-/
namespace MT5Services.ExitOrders

open PyNumber ExitRules PositionManager

/-- What `update_price` asks of the broker for one price. -/
def requested (config : ChandelierConfig) (pos : TrackedPosition) (tick : Tick) :
    Option ChandelierAction :=
  (evaluateChandelierExit config (notePrice pos tick.price) tick).2

/-- The level of `check_hard_tp`. -/
def hardTpLevel (config : ChandelierConfig) (action : Direction)
    (entryPrice initialRisk : ℚ) : ℚ :=
  match action with
  | .buy => entryPrice + config.maxTpR * initialRisk
  | .sell => entryPrice - config.maxTpR * initialRisk

/-- The broker holds the level of a decision: stops against its stop, targets against its
target. A reversal and a timeout have no level. -/
def Held (stop target takeProfit : ℚ) (result : ExitCheckResult) : Prop :=
  match result.closeReason with
  | some .stopLoss => result.newStopLoss.getD stop = stop
  | some .trailingStop => result.newStopLoss.getD stop = stop
  | some .takeProfit => result.newStopLoss.getD target = takeProfit
  | _ => False

/-- Decisions become orders: a close at a level the broker does not hold is requested at
market, and a requested stop protects against the current price. -/
structure CarriedOut (config : ChandelierConfig) (pos : TrackedPosition) (tick : Tick)
    (takeProfit : ℚ) : Prop where
  closes : ∀ result, exitResult config (notePrice pos tick.price) tick = some result →
    result.shouldClose = true →
    ¬Held pos.stopLoss (hardTpLevel config pos.action pos.entryPrice pos.initialRisk) takeProfit
      result →
    ∃ reason, requested config pos tick = some (.closeMarket reason)
  protects : ∀ newSl, requested config pos tick = some (.modifySl newSl) →
    pos.action.better (round newSl 2) tick.price = true

/-- A touched stop barrier is the broker's stop; a touched target is the broker's target,
and a stop moved there stays behind the price. -/
def BarrierLevelHeld (q : ExitQuery) (takeProfit : ℚ) (reason : CloseReason) (level : ℚ) : Prop :=
  match reason with
  | .stopLoss => level = q.currentStopLoss
  | _ => level = takeProfit ∧
      (level = q.currentStopLoss ∨ q.action.better (round level 2) q.barClose = true)

def BarrierHeld (q : ExitQuery) (b : Barriers) (takeProfit : ℚ) : Prop :=
  ¬b.Degenerate → ∀ reason level, hitBarrier q b = some (reason, level) →
    BarrierLevelHeld q takeProfit reason level

/-- Chandelier mode: the price is at the broker's stop; or it is at the hard target and
the broker's target is the same; or it is past neither and not behind the new trailing
stop. -/
def TrailHeld (config : ChandelierConfig) (q : ExitQuery) (profile : ExitProfile)
    (takeProfit : ℚ) : Prop :=
  q.stopReachedAt q.currentStopLoss = true ∨
    if (checkHardTp q.action q.entryPrice q.barHigh q.barLow q.initialRisk config.maxTpR).isSome
    then hardTpLevel config q.action q.entryPrice q.initialRisk = takeProfit
    else trailingReached config q profile = false

/-- The condition on one price, in the position as it is before the call. -/
def ExitHeld (config : ChandelierConfig) (pos : TrackedPosition) (tick : Tick)
    (takeProfit : ℚ) : Prop :=
  0 < pos.initialRisk → ∀ readings, tick.readings = some readings →
    let q := exitQuery (notePrice pos tick.price) tick readings
    if q.exitSpec.isBarrier then ∀ b, barriersOf q = some b → BarrierHeld q b takeProfit
    else ∀ profile, exitProfile config q = some profile → TrailHeld config q profile takeProfit

/-- The two demands on the result of one evaluation. -/
def ResultCarried (q : ExitQuery) (target takeProfit : ℚ) (result : ExitCheckResult) : Prop :=
  (result.shouldClose = true → ¬Held q.currentStopLoss target takeProfit result →
      ∃ reason, pendingAction q.currentStopLoss result = some (.closeMarket reason)) ∧
    ∀ newSl, pendingAction q.currentStopLoss result = some (.modifySl newSl) →
      q.action.better (round newSl 2) q.barClose = true

theorem requested_eq (config : ChandelierConfig) (pos : TrackedPosition) (tick : Tick) :
    requested config pos tick =
      (exitResult config (notePrice pos tick.price) tick).bind (pendingAction pos.stopLoss) := by
  obtain ⟨_, _, _, _, _, hpending⟩ :=
    evaluateChandelierExit_spec config (notePrice pos tick.price) tick
  rw [requested, hpending, (notePrice_frame pos tick.price).2.2.1]

/-- A result without a level asks for a market close or for nothing. -/
theorem pendingAction_of_no_level (stopLoss newSl : ℚ) (result : ExitCheckResult)
    (hlevel : result.newStopLoss = none) :
    pendingAction stopLoss result ≠ some (.modifySl newSl) := by
  unfold pendingAction
  rw [hlevel]
  split
  · simp
  · simp
  · simp

/-- A result that is not a reversal and not a timeout never closes at market. -/
theorem pendingAction_not_close (stopLoss : ℚ) (result : ExitCheckResult)
    (hsignal : result.closeReason ≠ some .signalExit)
    (htimeout : result.closeReason ≠ some .timeout) :
    ¬∃ reason, pendingAction stopLoss result = some (.closeMarket reason) := by
  rintro ⟨reason, hclose⟩
  cases hlevel : result.newStopLoss with
  | none =>
    have hnone : pendingAction stopLoss result = none := by
      unfold pendingAction
      rw [hlevel]
      split
      · rename_i hreason
        exact absurd hreason hsignal
      · rename_i hreason
        exact absurd hreason htimeout
      · rfl
    rw [hnone] at hclose
    cases hclose
  | some level =>
    rw [pendingAction_of_level stopLoss level result hlevel hsignal htimeout] at hclose
    split_ifs at hclose
    cases Option.some.inj hclose

/-- A close at a level is carried out exactly when the broker holds it and the new stop,
if one is requested, is behind the price. -/
theorem resultCarried_of_level (q : ExitQuery) (target takeProfit level : ℚ)
    (result : ExitCheckResult) (hclose : result.shouldClose = true)
    (hlevel : result.newStopLoss = some level)
    (hsignal : result.closeReason ≠ some .signalExit)
    (htimeout : result.closeReason ≠ some .timeout) :
    ResultCarried q target takeProfit result ↔
      Held q.currentStopLoss target takeProfit result ∧
        (level = q.currentStopLoss ∨ q.action.better (round level 2) q.barClose = true) := by
  unfold ResultCarried
  apply and_congr
  · constructor
    · intro h
      by_contra hheld
      exact pendingAction_not_close _ _ hsignal htimeout (h hclose hheld)
    · intro hheld _ hnot
      exact absurd hheld hnot
  · rw [pendingAction_of_level _ level result hlevel hsignal htimeout]
    by_cases hsame : level = q.currentStopLoss
    · rw [if_neg (not_not.mpr hsame)]
      simp [hsame]
    · rw [if_pos hsame]
      simp [hsame]

theorem barrier_carried_iff (q : ExitQuery) (b : Barriers) (target takeProfit : ℚ) :
    ResultCarried q target takeProfit (evaluateBarrierExit q b) ↔ BarrierHeld q b takeProfit := by
  unfold BarrierHeld
  by_cases hdegenerate : b.Degenerate
  · have hresult : evaluateBarrierExit q b = ⟨false, none, none, 0, false⟩ := by
      unfold evaluateBarrierExit
      rw [if_pos hdegenerate]
    rw [hresult]
    refine ⟨fun _ h => absurd hdegenerate h, fun _ => ⟨fun h => absurd h (by simp), ?_⟩⟩
    intro newSl h
    exact absurd h (pendingAction_of_no_level _ _ _ rfl)
  · cases hhit : hitBarrier q b with
    | none =>
      refine ⟨fun _ _ reason level h => absurd h (by simp), fun _ => ?_⟩
      unfold evaluateBarrierExit
      rw [if_neg hdegenerate, hhit]
      dsimp only
      split
      · refine ⟨fun _ _ => ⟨.timeout, rfl⟩, ?_⟩
        intro newSl h
        exact absurd h (pendingAction_of_no_level _ _ _ rfl)
      · refine ⟨fun h => absurd h (by simp), ?_⟩
        intro newSl h
        exact absurd h (pendingAction_of_no_level _ _ _ rfl)
    | some hit =>
      obtain ⟨reason, level⟩ := hit
      obtain ⟨hsignal, htimeout⟩ := hitBarrier_reason hhit
      rw [evaluateBarrierExit_of_hit hdegenerate hhit,
        resultCarried_of_level q target takeProfit level _ rfl rfl hsignal htimeout]
      have hsplit : BarrierLevelHeld q takeProfit reason level ↔
          Held q.currentStopLoss target takeProfit
              ⟨true, some reason, some level, round q.rMultiple 4, false⟩ ∧
            (level = q.currentStopLoss ∨
              q.action.better (round level 2) q.barClose = true) := by
        rcases hitBarrier_side hhit with rfl | rfl
        · exact ⟨fun h => ⟨h, Or.inl h⟩, fun h => h.1⟩
        · exact Iff.rfl
      rw [← hsplit]
      constructor
      · intro h _ reason' level' hsame
        cases hsame
        exact h
      · intro h
        exact h hdegenerate reason level rfl

/-- A trailing stop that the price has already passed is new to the broker. -/
theorem trailingSl_of_reached (config : ChandelierConfig) (q : ExitQuery)
    (profile : ExitProfile) (hopen : q.peakPriceAtBarOpen = none)
    (hstop : q.stopReachedAt q.currentStopLoss = false)
    (hreached : trailingReached config q profile = true) :
    ∃ level, trailingSl config q profile q.peakPrice = some level ∧ level ≠ q.currentStopLoss := by
  unfold trailingReached at hreached
  simp only [hopen, Option.getD_none] at hreached
  cases hsl : trailingSl config q profile q.peakPrice with
  | none =>
    rw [hsl, Option.getD_none, hstop] at hreached
    cases hreached
  | some level =>
    refine ⟨level, rfl, ?_⟩
    rintro rfl
    rw [hsl, Option.getD_some, hstop] at hreached
    cases hreached

/-- A trailing stop that the price has not passed is behind it, also after rounding. -/
theorem trailingSl_protects (config : ChandelierConfig) (q : ExitQuery) (profile : ExitProfile)
    (level : ℚ) (hopen : q.peakPriceAtBarOpen = none) (hbar : q.barHigh = q.barClose)
    (hbar' : q.barLow = q.barClose) (hreached : trailingReached config q profile = false)
    (hsl : trailingSl config q profile q.peakPrice = some level) :
    q.action.better (round level 2) q.barClose = true := by
  have hround : round level 2 = level := by
    rw [trailingSl_eq] at hsl
    split_ifs at hsl
    rw [← Option.some.inj hsl, round_round]
  unfold trailingReached at hreached
  simp only [hopen, Option.getD_none, hsl, Option.getD_some] at hreached
  rw [hround]
  unfold ExitQuery.stopReachedAt stopReached at hreached
  unfold Direction.better
  cases haction : q.action with
  | buy =>
    simp only [haction, hbar', decide_eq_false_iff_not, not_le] at hreached
    exact decide_eq_true hreached
  | sell =>
    simp only [haction, hbar, decide_eq_false_iff_not, not_le] at hreached
    exact decide_eq_true hreached

theorem trailing_carried_iff (config : ChandelierConfig) (q : ExitQuery) (profile : ExitProfile)
    (target takeProfit : ℚ) (hopen : q.peakPriceAtBarOpen = none)
    (hbar : q.barHigh = q.barClose) (hbar' : q.barLow = q.barClose)
    (hstop : q.stopReachedAt q.currentStopLoss = false) :
    ResultCarried q target takeProfit (evaluateTrailing config q profile) ↔
      trailingReached config q profile = false := by
  rw [evaluateTrailing_eq config q profile hopen]
  cases hreached : trailingReached config q profile with
  | true =>
    obtain ⟨level, hlevel, hne⟩ := trailingSl_of_reached config q profile hopen hstop hreached
    simp only [Bool.true_or, if_true, Bool.true_eq_false, iff_false]
    rw [resultCarried_of_level q target takeProfit level _ rfl hlevel (by simp) (by simp)]
    intro h
    exact hne (by simpa [Held, hlevel] using h.1)
  | false =>
    simp only [Bool.false_or, iff_true]
    refine ⟨?_, ?_⟩
    · intro hclose _
      rcases activeExit_cases config q profile with hnone | hsignal | htimeout
      · rw [hnone] at hclose
        cases hclose
      · rw [hsignal]
        exact ⟨.signalExit, rfl⟩
      · rw [htimeout]
        exact ⟨.timeout, rfl⟩
    · intro newSl hmodify
      cases hsl : trailingSl config q profile q.peakPrice with
      | none => exact absurd hmodify (pendingAction_of_no_level _ _ _ hsl)
      | some level =>
        have hlevel : newSl = level := by
          rw [hsl] at hmodify
          rcases activeExit_cases config q profile with hnone | hsignal | htimeout
          · rw [hnone, pendingAction_of_level _ level _ rfl (by simp) (by simp)] at hmodify
            split_ifs at hmodify
            exact (ChandelierAction.modifySl.inj (Option.some.inj hmodify)).symm
          · rw [hsignal] at hmodify
            cases hmodify
          · rw [htimeout] at hmodify
            cases hmodify
        rw [hlevel]
        exact trailingSl_protects config q profile level hopen hbar hbar' hreached hsl

theorem trail_carried_iff (config : ChandelierConfig) (q : ExitQuery) (profile : ExitProfile)
    (takeProfit : ℚ) (hopen : q.peakPriceAtBarOpen = none)
    (hbar : q.barHigh = q.barClose) (hbar' : q.barLow = q.barClose) :
    ResultCarried q (hardTpLevel config q.action q.entryPrice q.initialRisk) takeProfit
        (evaluateChandelier config q profile) ↔
      TrailHeld config q profile takeProfit := by
  unfold TrailHeld
  cases hstop : q.stopReachedAt q.currentStopLoss with
  | true =>
    rw [evaluateChandelier_of_stop config q profile hstop]
    refine iff_of_true ⟨fun _ hnot => absurd rfl hnot, ?_⟩ (Or.inl rfl)
    intro newSl h
    exact absurd h (pendingAction_of_no_level _ _ _ rfl)
  | false =>
    rw [or_iff_right Bool.false_ne_true]
    cases htarget : (checkHardTp q.action q.entryPrice q.barHigh q.barLow q.initialRisk
        config.maxTpR).isSome with
    | true =>
      rw [evaluateChandelier_of_target config q profile hstop htarget, if_pos rfl]
      constructor
      · intro h
        by_contra hheld
        exact pendingAction_not_close _ _ (by simp) (by simp) (h.1 rfl hheld)
      · intro hheld
        refine ⟨fun _ hnot => absurd hheld hnot, ?_⟩
        intro newSl h
        exact absurd h (pendingAction_of_no_level _ _ _ rfl)
    | false =>
      rw [evaluateChandelier_of_trail config q profile hstop htarget, if_neg Bool.false_ne_true]
      exact trailing_carried_iff config q profile _ takeProfit hopen hbar hbar' hstop

theorem query_carried_iff (config : ChandelierConfig) (pos : TrackedPosition) (tick : Tick)
    (readings : Readings) (takeProfit : ℚ) :
    let q := exitQuery (notePrice pos tick.price) tick readings
    (∀ result, evaluateExit config q = some result →
        ResultCarried q (hardTpLevel config q.action q.entryPrice q.initialRisk) takeProfit
          result) ↔
      if q.exitSpec.isBarrier then ∀ b, barriersOf q = some b → BarrierHeld q b takeProfit
      else ∀ profile, exitProfile config q = some profile →
        TrailHeld config q profile takeProfit := by
  intro q
  unfold evaluateExit
  split_ifs with hmode
  · cases barriersOf q with
    | none => simp
    | some b => simpa using barrier_carried_iff q b _ takeProfit
  · cases exitProfile config q with
    | none => simp
    | some profile => simpa using trail_carried_iff config q profile takeProfit rfl rfl rfl

/-- Both demands read off the result of the exit rules. -/
theorem carriedOut_iff (config : ChandelierConfig) (pos : TrackedPosition) (tick : Tick)
    (takeProfit : ℚ) :
    CarriedOut config pos tick takeProfit ↔
      ∀ result, exitResult config (notePrice pos tick.price) tick = some result →
        ∀ readings, tick.readings = some readings →
          let q := exitQuery (notePrice pos tick.price) tick readings
          ResultCarried q (hardTpLevel config q.action q.entryPrice q.initialRisk) takeProfit
            result := by
  have hrequested := requested_eq config pos tick
  constructor
  · rintro ⟨hcloses, hprotects⟩ result hresult readings _
    rw [hresult, Option.bind_some] at hrequested
    rw [hrequested] at hcloses hprotects
    dsimp only
    rw [exitQuery_notePrice_eq]
    exact ⟨hcloses result hresult, hprotects⟩
  · intro h
    cases hresult : exitResult config (notePrice pos tick.price) tick with
    | none =>
      rw [hresult, Option.bind_none] at hrequested
      refine ⟨fun result hsome => absurd (hresult.symm.trans hsome) (by simp), ?_⟩
      intro newSl hmodify
      rw [hrequested] at hmodify
      cases hmodify
    | some result =>
      obtain ⟨readings, hreadings⟩ : ∃ readings, tick.readings = some readings := by
        unfold exitResult at hresult
        split_ifs at hresult
        obtain ⟨readings, hreadings, _⟩ := Option.bind_eq_some_iff.mp hresult
        exact ⟨readings, hreadings⟩
      have hcarried := h result hresult readings hreadings
      dsimp only at hcarried
      rw [exitQuery_notePrice_eq] at hcarried
      rw [hresult, Option.bind_some] at hrequested
      constructor
      · intro result' hsame hclose hheld
        cases Option.some.inj (hresult.symm.trans hsame)
        rw [hrequested]
        exact hcarried.1 hclose hheld
      · intro newSl hmodify
        rw [hrequested] at hmodify
        exact hcarried.2 newSl hmodify

/-- Every exit decision becomes an order exactly under the condition on the price. -/
theorem exit_carried_out_iff (config : ChandelierConfig) (pos : TrackedPosition) (tick : Tick)
    (takeProfit : ℚ) :
    CarriedOut config pos tick takeProfit ↔ ExitHeld config pos tick takeProfit := by
  rw [carriedOut_iff]
  unfold ExitHeld exitResult
  rw [(notePrice_frame pos tick.price).2.2.2.1]
  by_cases hrisk : 0 < pos.initialRisk
  · rw [if_neg (not_le.mpr hrisk)]
    cases hreadings : tick.readings with
    | none => simp
    | some readings =>
      have hquery := query_carried_iff config pos tick readings takeProfit
      constructor
      · intro h _ readings' hsame
        cases hsame
        exact hquery.mp fun result hresult => h result hresult readings rfl
      · intro h result hresult readings' hsame
        cases hsame
        exact hquery.mpr (h hrisk readings rfl) result hresult
  · rw [if_pos (not_lt.mp hrisk)]
    refine iff_of_true (fun result h => absurd h (by simp)) fun h => absurd h hrisk

/-- A price read a minute after the opening, without fresh indicators. -/
def priceAt (price : ℚ) : Tick where
  price := price
  now := 60
  answer := .report [1] []

/-- Decisions that become no order: breakeven with its fixed least buffer asks for a stop
above the price instead of a close, nothing is asked at the hard target, and at a barrier
target short of the broker's own only the stop moves. -/
theorem exit_decisions_are_dropped :
    ¬CarriedOut {} (trackPosition 1 nearStopBuy) (priceAt (1006 / 10)) 0 ∧
      ¬CarriedOut {} (trackPosition 1 buyAtHundred) (priceAt 126) 0 ∧
      ¬CarriedOut {} (trackPosition 1 filledBelowQuote) (priceAt 110) (221 / 2) := by
  refine ⟨?_, ?_, ?_⟩
  · intro h
    have hbehind := h.protects 101 (by decide +kernel)
    exact absurd hbehind (by decide +kernel)
  · intro h
    obtain ⟨reason, hclose⟩ := h.closes ⟨true, some .takeProfit, none, 5, true⟩
      (by decide +kernel) rfl (by simp only [Held]; decide +kernel)
    have hnothing : requested {} (trackPosition 1 buyAtHundred) (priceAt 126) = none := by
      decide +kernel
    rw [hnothing] at hclose
    cases hclose
  · intro h
    obtain ⟨reason, hclose⟩ := h.closes ⟨true, some .takeProfit, some 110, 22222 / 10000, false⟩
      (by decide +kernel) rfl (by simp only [Held]; decide +kernel)
    have hmodify : requested {} (trackPosition 1 filledBelowQuote) (priceAt 110) =
        some (.modifySl 110) := by
      decide +kernel
    rw [hmodify] at hclose
    cases hclose

end MT5Services.ExitOrders
