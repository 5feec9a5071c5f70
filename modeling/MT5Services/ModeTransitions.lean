import MT5Services.RuntimeMode

/-!
What the mode controller remembers. `apply_mode` and the monitor pass set or clear
the auto-transition flag before the guarded transition, and the guard may then
raise: the call ends in an exception, the pass in an entry of `last_error`. An
after-EOD downgrade is undone the next day when no refused call comes in while the
flag is set and the restoring pass itself is not refused.
-/
namespace MT5Services.ModeTransitions

open Runs RuntimeMode

inductive Outcome
  | done
  | invalidMode
  | refused
  deriving DecidableEq, Repr

def refusal : String := "ingest_only requires no open positions and no pending orders"

/-- `apply_mode`; `none` is a text that names no mode. -/
def applyMode (policy : Policy) (requested : Option Mode) (caller : Caller)
    (canEnterIngestOnly : Bool) (joins : Joins) (c : Controller) : Controller × Outcome :=
  match requested with
  | none => (c, .invalidMode)
  | some target =>
    (applyModeLocked policy caller joins canEnterIngestOnly target
      { c with isAutoTransitioned := false },
      if canEnter canEnterIngestOnly target then .done else .refused)

/-- The mode a monitor pass switches to. -/
def passTarget (policy : Policy) (afterEodToday canEnterIngestOnly : Bool) (c : Controller) :
    Option Mode :=
  match resolveSessionStart c.currentMode afterEodToday c.isAutoTransitioned
      policy.initialMode with
  | some restore => some restore
  | none => resolveAfterEod policy.afterEodAction c.currentMode afterEodToday canEnterIngestOnly

/-- One round of `_monitor_loop`, which records the exception of its pass. -/
def monitorPass (policy : Policy) (afterEodToday canEnterIngestOnly guardAdmits : Bool)
    (joins : Joins) (c : Controller) : Controller × Outcome :=
  let next :=
    evaluateAutoTransition policy joins afterEodToday canEnterIngestOnly guardAdmits c
  if (passTarget policy afterEodToday canEnterIngestOnly c).all (canEnter guardAdmits) then
    (next, .done)
  else ({ next with lastError := some refusal }, .refused)

inductive Act
  | applyMode (requested : Option Mode) (caller : Caller) (canEnterIngestOnly : Bool)
      (joins : Joins)
  | monitor (afterEodToday canEnterIngestOnly guardAdmits : Bool) (joins : Joins)
  | workerExits (worker : Worker)

/-- A call on the command worker needs that worker to be alive, and the monitor
runs only with the policy enabled. -/
def step (policy : Policy) (c : Controller) : Act → Option Controller
  | .applyMode requested caller canEnterIngestOnly joins =>
    if caller = .commandWorker ∧ c.runtime.trade.commandConsumer.isRunning = false then none
    else some (applyMode policy requested caller canEnterIngestOnly joins c).1
  | .monitor afterEodToday canEnterIngestOnly guardAdmits joins =>
    if policy.afterEodAction = .disabled then none
    else some (monitorPass policy afterEodToday canEnterIngestOnly guardAdmits joins c).1
  | .workerExits worker => RuntimeMode.step policy c (.workerExits worker)

/-- The call ends with this outcome; `none` for the other steps. -/
def callOutcome (policy : Policy) (c : Controller) : Act → Option Outcome
  | .applyMode requested caller canEnterIngestOnly joins =>
    some (applyMode policy requested caller canEnterIngestOnly joins c).2
  | _ => none

/-- A monitor pass with `after_eod_today` false that the guard does not refuse. -/
def isMorningPass (policy : Policy) (c : Controller) : Act → Bool
  | .monitor false canEnterIngestOnly guardAdmits joins =>
    (monitorPass policy false canEnterIngestOnly guardAdmits joins c).2 = .done
  | _ => false

/-- A monitor pass that takes the controller to its after-EOD mode. -/
def isDowngrade (policy : Policy) (c : Controller) : Act → Bool
  | .monitor true canEnterIngestOnly guardAdmits _ =>
    (resolveAfterEod policy.afterEodAction c.currentMode true canEnterIngestOnly).any
      (canEnter guardAdmits)
  | _ => false

/-- Every call of `apply_mode` that raises leaves the mode and the flag as they were. -/
def RefusalsKeep (policy : Policy) (labels : List Act) : Prop :=
  ∀ front a back s t, labels = front ++ a :: back →
    run (step policy) Controller.initial front = some s → step policy s a = some t →
    (callOutcome policy s a = some .invalidMode ∨ callOutcome policy s a = some .refused) →
    t.currentMode = s.currentMode ∧ t.isAutoTransitioned = s.isAutoTransitioned

/-- Neither an accepted call nor a pass that could have restored the initial mode. -/
def StillDown (policy : Policy) (c : Controller) (a : Act) : Prop :=
  callOutcome policy c a ≠ some .done ∧ isMorningPass policy c a = false

/-- After a downgrade without an accepted call, the first morning pass restores the
initial mode. -/
def DowngradesUndone (policy : Policy) (labels : List Act) : Prop :=
  ∀ front night middle morning back s down before after,
    labels = front ++ night :: (middle ++ morning :: back) →
    run (step policy) Controller.initial front = some s → isDowngrade policy s night = true →
    step policy s night = some down → Along (step policy) (StillDown policy) down middle →
    run (step policy) down middle = some before → isMorningPass policy before morning = true →
    step policy before morning = some after → after.currentMode = some policy.initialMode

/-- A refused call finds the flag unset, and a pass that restores the initial mode is
not refused. -/
def Undisturbed (policy : Policy) (c : Controller) : Act → Prop
  | .applyMode requested _ canEnterIngestOnly _ =>
    requested.all (canEnter canEnterIngestOnly) = true ∨ c.isAutoTransitioned = false
  | .monitor afterEodToday _ guardAdmits _ =>
    (resolveSessionStart c.currentMode afterEodToday c.isAutoTransitioned
      policy.initialMode).all (canEnter guardAdmits) = true
  | .workerExits _ => True

@[simp]
theorem applyModeLocked_isAutoTransitioned (policy : Policy) (caller : Caller) (joins : Joins)
    (canEnterIngestOnly : Bool) (target : Mode) (c : Controller) :
    (applyModeLocked policy caller joins canEnterIngestOnly target c).isAutoTransitioned =
      c.isAutoTransitioned := by
  unfold applyModeLocked
  split
  · rfl
  · rfl

theorem applyModeLocked_currentMode (policy : Policy) (caller : Caller) (joins : Joins)
    (canEnterIngestOnly : Bool) (target : Mode) (c : Controller) :
    (applyModeLocked policy caller joins canEnterIngestOnly target c).currentMode =
      if canEnter canEnterIngestOnly target then some target else c.currentMode := by
  unfold applyModeLocked
  split
  · rfl
  · rfl

variable {c next : Controller} {policy : Policy} {joins : Joins}

theorem step_applyMode {requested : Option Mode} {caller : Caller} {canEnterIngestOnly : Bool}
    (h : step policy c (.applyMode requested caller canEnterIngestOnly joins) = some next) :
    next = (applyMode policy requested caller canEnterIngestOnly joins c).1 := by
  simp only [step, Option.ite_none_left_eq_some, Option.some.injEq] at h
  exact h.2.symm

theorem step_monitor {afterEodToday canEnterIngestOnly guardAdmits : Bool}
    (h : step policy c (.monitor afterEodToday canEnterIngestOnly guardAdmits joins) =
      some next) :
    next = (monitorPass policy afterEodToday canEnterIngestOnly guardAdmits joins c).1 := by
  simp only [step, Option.ite_none_left_eq_some, Option.some.injEq] at h
  exact h.2.symm

theorem step_workerExits {worker : Worker} (h : step policy c (.workerExits worker) = some next) :
    next.currentMode = c.currentMode ∧ next.isAutoTransitioned = c.isAutoTransitioned := by
  obtain ⟨trade, _, rfl⟩ := Option.map_eq_some_iff.mp h
  exact ⟨rfl, rfl⟩

variable {a : Act}

theorem callOutcome_of_refused {policy : Policy} {c : Controller} {target : Mode}
    {caller : Caller} {canEnterIngestOnly : Bool} {joins : Joins} :
    callOutcome policy c (.applyMode (some target) caller canEnterIngestOnly joins) =
      some (if canEnter canEnterIngestOnly target then .done else .refused) :=
  rfl

/-- A call that names no mode changes nothing, a refused one clears the flag. -/
theorem raising_call (hstep : step policy c a = some next)
    (hraise : callOutcome policy c a = some .invalidMode ∨
      callOutcome policy c a = some .refused) : next.currentMode = c.currentMode ∧
      (Undisturbed policy c a → next.isAutoTransitioned = c.isAutoTransitioned) := by
  cases a with
  | applyMode requested caller canEnterIngestOnly joins =>
    rw [step_applyMode hstep]
    cases requested with
    | none => exact ⟨rfl, fun _ => rfl⟩
    | some target =>
      have hrefused : canEnter canEnterIngestOnly target = false := by
        cases hadmits : canEnter canEnterIngestOnly target with
        | false => rfl
        | true => simp [callOutcome_of_refused, hadmits] at hraise
      constructor
      · show (applyModeLocked policy caller joins canEnterIngestOnly target _).currentMode = _
        rw [applyModeLocked_currentMode, hrefused]
        rfl
      · rintro (hadmits | hflag)
        · rw [Option.all_some, hrefused] at hadmits
          cases hadmits
        · show (applyModeLocked policy caller joins canEnterIngestOnly target
            _).isAutoTransitioned = _
          rw [applyModeLocked_isAutoTransitioned, hflag]
  | monitor afterEodToday canEnterIngestOnly guardAdmits joins => simp [callOutcome] at hraise
  | workerExits worker => simp [callOutcome] at hraise

/-- The recorded exception is no part of the mode or the flag. -/
theorem monitorPass_view (policy : Policy)
    (afterEodToday canEnterIngestOnly guardAdmits : Bool) (joins : Joins) (c : Controller) :
    let next := (monitorPass policy afterEodToday canEnterIngestOnly guardAdmits joins c).1
    let evaluated :=
      evaluateAutoTransition policy joins afterEodToday canEnterIngestOnly guardAdmits c
    next.currentMode = evaluated.currentMode ∧
      next.isAutoTransitioned = evaluated.isAutoTransitioned := by
  unfold monitorPass
  split
  · exact ⟨rfl, rfl⟩
  · exact ⟨rfl, rfl⟩

theorem monitorPass_currentMode (policy : Policy)
    (afterEodToday canEnterIngestOnly guardAdmits : Bool) (joins : Joins) (c : Controller) :
    (monitorPass policy afterEodToday canEnterIngestOnly guardAdmits joins c).1.currentMode =
      ((passTarget policy afterEodToday canEnterIngestOnly c).filter (canEnter guardAdmits)).or
        c.currentMode := by
  rw [(monitorPass_view policy afterEodToday canEnterIngestOnly guardAdmits joins c).1]
  unfold evaluateAutoTransition passTarget
  cases resolveSessionStart c.currentMode afterEodToday c.isAutoTransitioned
      policy.initialMode with
  | some restore =>
    simp only [applyModeLocked_currentMode, Option.filter]
    split
    · rfl
    · rfl
  | none =>
    simp only
    cases resolveAfterEod policy.afterEodAction c.currentMode afterEodToday
        canEnterIngestOnly with
    | some target =>
      simp only [applyModeLocked_currentMode, Option.filter]
      split
      · rfl
      · rfl
    | none => rfl

theorem monitorPass_isAutoTransitioned (policy : Policy)
    (afterEodToday canEnterIngestOnly guardAdmits : Bool) (joins : Joins) (c : Controller) :
    (monitorPass policy afterEodToday canEnterIngestOnly guardAdmits joins
        c).1.isAutoTransitioned =
      if (resolveSessionStart c.currentMode afterEodToday c.isAutoTransitioned
          policy.initialMode).isSome then false
      else (passTarget policy afterEodToday canEnterIngestOnly c).isSome ||
        c.isAutoTransitioned := by
  rw [(monitorPass_view policy afterEodToday canEnterIngestOnly guardAdmits joins c).2]
  unfold evaluateAutoTransition passTarget
  cases resolveSessionStart c.currentMode afterEodToday c.isAutoTransitioned
      policy.initialMode with
  | some restore => exact applyModeLocked_isAutoTransitioned ..
  | none =>
    simp only
    cases resolveAfterEod policy.afterEodAction c.currentMode afterEodToday
        canEnterIngestOnly with
    | some target => exact applyModeLocked_isAutoTransitioned ..
    | none => rfl

theorem monitorPass_done {afterEodToday canEnterIngestOnly guardAdmits : Bool} :
    (monitorPass policy afterEodToday canEnterIngestOnly guardAdmits joins c).2 = .done ↔
      (passTarget policy afterEodToday canEnterIngestOnly c).all (canEnter guardAdmits) =
        true := by
  unfold monitorPass
  split
  · rename_i hall
    simp [hall]
  · rename_i hall
    simp [hall]

/-- The controller sits in an after-EOD mode and remembers that it went there by itself. -/
def Downgraded (c : Controller) : Prop :=
  c.isAutoTransitioned = true ∧
    (c.currentMode = some .riskOff ∨ c.currentMode = some .ingestOnly)

theorem resolveAfterEod_mem {action : EodAction} {current : Option Mode}
    {afterEodToday canEnterIngestOnly : Bool} {target : Mode}
    (h : resolveAfterEod action current afterEodToday canEnterIngestOnly = some target) :
    target = .riskOff ∨ target = .ingestOnly := by
  unfold resolveAfterEod at h
  grind

theorem resolveAfterEod_of_downgraded (action : EodAction)
    (hdown : Downgraded c) (afterEodToday canEnterIngestOnly : Bool) :
    resolveAfterEod action c.currentMode afterEodToday canEnterIngestOnly = none := by
  obtain ⟨_, hmode | hmode⟩ := hdown
  · simp [resolveAfterEod, hmode]
  · simp [resolveAfterEod, hmode]

/-- A pass of the evening restores nothing. -/
theorem passTarget_evening (policy : Policy) (canEnterIngestOnly : Bool) (c : Controller) :
    resolveSessionStart c.currentMode true c.isAutoTransitioned policy.initialMode = none ∧
      passTarget policy true canEnterIngestOnly c =
        resolveAfterEod policy.afterEodAction c.currentMode true canEnterIngestOnly := by
  have hnone : resolveSessionStart c.currentMode true c.isAutoTransitioned policy.initialMode =
      none := by
    cases hflag : c.isAutoTransitioned with
    | false => rfl
    | true => rfl
  exact ⟨hnone, by rw [passTarget, hnone]⟩

theorem downgraded_of_isDowngrade
    (hnight : isDowngrade policy c a = true) (hstep : step policy c a = some next) :
    Downgraded next := by
  cases a with
  | applyMode requested caller canEnterIngestOnly joins => cases hnight
  | workerExits worker => cases hnight
  | monitor afterEodToday canEnterIngestOnly guardAdmits joins =>
    cases afterEodToday with
    | false => cases hnight
    | true =>
      obtain ⟨target, htarget, hadmits⟩ := (Option.any_eq_true _ _).mp hnight
      obtain ⟨hrestore, hpass⟩ := passTarget_evening policy canEnterIngestOnly c
      rw [htarget] at hpass
      rw [step_monitor hstep]
      constructor
      · rw [monitorPass_isAutoTransitioned, hrestore, hpass]
        rfl
      · rw [monitorPass_currentMode, hpass, Option.filter_some_pos hadmits, Option.some_or]
        simpa only [Option.some.injEq] using resolveAfterEod_mem htarget

theorem Downgraded.unchanged (hdown : Downgraded c) (hmode : next.currentMode = c.currentMode)
    (hflag : next.isAutoTransitioned = c.isAutoTransitioned) : Downgraded next := by
  rw [Downgraded, hmode, hflag]
  exact hdown

theorem applyMode_downgraded {requested : Option Mode} {caller : Caller}
    {canEnterIngestOnly : Bool} {joins : Joins} (hdown : Downgraded c)
    (hkeep : Undisturbed policy c (.applyMode requested caller canEnterIngestOnly joins))
    (hstill : StillDown policy c (.applyMode requested caller canEnterIngestOnly joins))
    (hstep : step policy c (.applyMode requested caller canEnterIngestOnly joins) = some next) :
    Downgraded next := by
  have hraise : callOutcome policy c (.applyMode requested caller canEnterIngestOnly joins) =
      some .invalidMode ∨
      callOutcome policy c (.applyMode requested caller canEnterIngestOnly joins) =
        some .refused := by
    have hnot := hstill.1
    revert hnot
    simp only [callOutcome, Option.some.injEq]
    cases (applyMode policy requested caller canEnterIngestOnly joins c).2 with
    | done => exact fun h => absurd rfl h
    | invalidMode => exact fun _ => Or.inl rfl
    | refused => exact fun _ => Or.inr rfl
  obtain ⟨hmode, hflag⟩ := raising_call hstep hraise
  exact hdown.unchanged hmode (hflag hkeep)

/-- A pass that restores is a morning pass, which the run does not contain yet. -/
theorem resolveSessionStart_of_stillDown {afterEodToday canEnterIngestOnly guardAdmits : Bool}
    {joins : Joins}
    (hkeep : Undisturbed policy c (.monitor afterEodToday canEnterIngestOnly guardAdmits joins))
    (hstill : StillDown policy c (.monitor afterEodToday canEnterIngestOnly guardAdmits joins)) :
    resolveSessionStart c.currentMode afterEodToday c.isAutoTransitioned
      policy.initialMode = none := by
  cases hrestore : resolveSessionStart c.currentMode afterEodToday c.isAutoTransitioned
      policy.initialMode with
  | none => rfl
  | some restore =>
    have hpass : passTarget policy afterEodToday canEnterIngestOnly c = some restore := by
      rw [passTarget, hrestore]
    have hdone : (monitorPass policy afterEodToday canEnterIngestOnly guardAdmits joins
        c).2 = .done := by
      rw [monitorPass_done, hpass, ← hrestore]
      exact hkeep
    cases afterEodToday with
    | true =>
      rw [(passTarget_evening policy canEnterIngestOnly c).1] at hrestore
      cases hrestore
    | false =>
      have hnot := hstill.2
      simp only [isMorningPass, hdone, decide_true] at hnot
      cases hnot

/-- While no accepted call and no morning pass comes in, the downgrade stays. -/
theorem step_downgraded
    (hdown : Downgraded c) (hkeep : Undisturbed policy c a) (hstill : StillDown policy c a)
    (hstep : step policy c a = some next) : Downgraded next := by
  cases a with
  | applyMode requested caller canEnterIngestOnly joins =>
    exact applyMode_downgraded hdown hkeep hstill hstep
  | workerExits worker =>
    obtain ⟨hmode, hflag⟩ := step_workerExits hstep
    exact hdown.unchanged hmode hflag
  | monitor afterEodToday canEnterIngestOnly guardAdmits joins =>
    have hevening := resolveAfterEod_of_downgraded policy.afterEodAction hdown afterEodToday
      canEnterIngestOnly
    have hrestore := resolveSessionStart_of_stillDown hkeep hstill
    have hpass : passTarget policy afterEodToday canEnterIngestOnly c = none := by
      rw [passTarget, hrestore]
      exact hevening
    rw [step_monitor hstep]
    apply hdown.unchanged
    · rw [monitorPass_currentMode, hpass]
      rfl
    · rw [monitorPass_isAutoTransitioned, hrestore, hpass]
      rfl

theorem morning_restores (hdown : Downgraded c) (hmorning : isMorningPass policy c a = true)
    (hstep : step policy c a = some next) : next.currentMode = some policy.initialMode := by
  cases a with
  | applyMode requested caller canEnterIngestOnly joins => cases hmorning
  | workerExits worker => cases hmorning
  | monitor afterEodToday canEnterIngestOnly guardAdmits joins =>
    cases afterEodToday with
    | true => cases hmorning
    | false =>
      have hdone := of_decide_eq_true hmorning
      rw [step_monitor hstep, monitorPass_currentMode]
      by_cases hmode : c.currentMode = some policy.initialMode
      · have hpass : passTarget policy false canEnterIngestOnly c = none := by
          have hnone : resolveSessionStart c.currentMode false c.isAutoTransitioned
              policy.initialMode = none := by
            simp [resolveSessionStart, hmode]
          rw [passTarget, hnone]
          exact resolveAfterEod_of_downgraded policy.afterEodAction hdown false
            canEnterIngestOnly
        rw [hpass]
        exact hmode
      · have hpass : passTarget policy false canEnterIngestOnly c = some policy.initialMode := by
          have hrestore : resolveSessionStart c.currentMode false c.isAutoTransitioned
              policy.initialMode = some policy.initialMode := by
            simp [resolveSessionStart, hdown.1, hmode]
          rw [passTarget, hrestore]
        rw [monitorPass_done, hpass, Option.all_some] at hdone
        rw [hpass, Option.filter_some_pos hdone, Option.some_or]

/-- In a run without refused calls at a set flag and without refused restoring passes,
every call that raises keeps mode and flag, and every downgrade is undone. -/
theorem transitions_kept (policy : Policy) (labels : List Act)
    (hkeep : Along (step policy) (Undisturbed policy) Controller.initial labels) :
    RefusalsKeep policy labels ∧ DowngradesUndone policy labels := by
  constructor
  · intro front a back s t hlabels hfront hstep hraise
    have hundisturbed := (along_iff_splits _ labels).mp hkeep front a back s hlabels hfront
    obtain ⟨hmode, hflag⟩ := raising_call hstep hraise
    exact ⟨hmode, hflag hundisturbed⟩
  · intro front night middle morning back s down before after hlabels hfront hnight hdown
      hmiddle hbefore hmorning hafter
    have hrest : Along (step policy) (Undisturbed policy) down (middle ++ morning :: back) := by
      subst hlabels
      exact (along_back hkeep hfront).2 down hdown
    have hguards := along_and (along_front hrest) hmiddle
    have hstays : Downgraded before :=
      run_invariant_along
        (fun c a next hc hguard hstep => step_downgraded hc hguard.1 hguard.2 hstep)
        (downgraded_of_isDowngrade hnight hdown) hguards hbefore
    exact morning_restores hstays hmorning hafter

/-- Full mode, risk-off after the end of day, a call that names no mode, full mode again. -/
def ordinaryDay : List Act :=
  [.applyMode (some .full) .other true inTime, .monitor true false true inTime,
    .applyMode none .other true inTime, .monitor false true true inTime]

theorem transitions_kept_day :
    RefusalsKeep demoPolicy ordinaryDay ∧ DowngradesUndone demoPolicy ordinaryDay :=
  transitions_kept demoPolicy ordinaryDay (by
    refine ⟨Or.inl rfl, fun t ht => ?_⟩
    obtain rfl := Option.some.inj ht
    refine ⟨rfl, fun t ht => ?_⟩
    obtain rfl := Option.some.inj ht
    refine ⟨Or.inl rfl, fun t ht => ?_⟩
    obtain rfl := Option.some.inj ht
    exact ⟨rfl, fun _ _ => trivial⟩)

/-- A switch to ingest-only is refused between the downgrade and the morning. -/
def refusedNight : List Act :=
  [.applyMode (some .full) .other true inTime, .monitor true false true inTime,
    .applyMode (some .ingestOnly) .other false inTime, .monitor false true true inTime]

/-- The refused switch clears the flag, and the controller stays in risk-off. -/
theorem refused_switch_forgets_downgrade :
    ¬ RefusalsKeep demoPolicy refusedNight ∧ ¬ DowngradesUndone demoPolicy refusedNight := by
  constructor
  · intro hkeep
    have hflag := (hkeep (refusedNight.take 2) _ (refusedNight.drop 3) _ _ rfl rfl rfl
      (Or.inr rfl)).2
    cases hflag
  · intro hundone
    have hmode := hundone (refusedNight.take 1) _ [refusedNight.get ⟨2, by decide⟩] _ [] _ _ _ _
      rfl rfl rfl rfl ⟨⟨by decide, rfl⟩, fun _ _ => trivial⟩ rfl rfl rfl
    cases hmode

end MT5Services.ModeTransitions
