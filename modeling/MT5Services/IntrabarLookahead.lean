import MT5Services.BacktestLookahead

/-!
What the intrabar sub-loop of a main bar does by a time, on two data sets that have the
same bars of both timeframes closed by then. The loop works through the children in order,
so what it does up to a child is decided by the children up to there and by what the main
bar hands over: its regime, its average true range, the verdict of the filters, the windows
and the portfolio after its exits. These are computed from the main bar itself, which need
not be closed.
-/
namespace MT5Services.IntrabarLookahead

open BacktestAlike BacktestData BacktestDecisions BacktestEngine BacktestIntrabar BacktestLog
open BacktestLookahead ExitRules IntrabarSynthesis Lockstep Portfolio Prefixes Runs TradeSizing

variable {V : Type*}

/-! The property. -/

/-- The input of the main bar that opens at this time. -/
def parentInput (e : Engine V) (feed : Feed) (parent : ℤ) : Option BarInput :=
  (barInputs e feed (prepare e feed (constructed e))).find? fun input => input.bar.time = parent

/-- The state in which a fresh run takes that bar. -/
def stateBefore (e : Engine V) (feed : Feed) (parent : ℤ) : Option (State V) :=
  let prepared := prepare e feed (constructed e)
  run (step e) (resetRunState e prepared)
    ((barInputs e feed prepared).takeWhile fun input => input.bar.time < parent)

/-- What a main bar hands over to its sub-loop; `none` when it comes to none. -/
def handover (e : Engine V) (input : BarInput) (s : State V) :
    Option (SubLoopCall V × SubLoop V) :=
  (openBar e input s).bind fun opened =>
    (fillPendingEntries e input opened).bind fun filled =>
      (regimeOf e input).bind fun regime =>
        let ready := backfill input filled
        match (shouldEvaluate e ready.filterStats input.bar.time input.indicators).1,
          ready.intrabar with
        | none, some context =>
          (referenceAtr input.indicators).map fun atr =>
            (subLoopCall e input regime atr
              { ready with htfIndicatorData := input.htfIndicatorData }, ⟨ready.toBook, context⟩)
        | _, _ => none

/-- Where the loop over the children stops: at their end, or before the one that raises. -/
def stoppedSubLoop (e : Engine V) (plan : IntrabarPlan) (childBars : List Ohlc)
    (handed : SubLoopCall V × SubLoop V) : SubLoop V :=
  if lowCoverage e plan childBars then handed.2
  else reach (runChild e plan handed.1) handed.2 (accumulations childBars)

/-- The sub-loop of the main bar that opens at this time, in a fresh run. -/
def subLoopAt (e : Engine V) (plan : IntrabarPlan) (feed : Feed) (parent : ℤ) :
    Option (SubLoop V) :=
  if e.targetStrategies = [] then none
  else
    (stateBefore e feed parent).bind fun s =>
      (parentInput e feed parent).bind fun input =>
        (handover e input s).map (stoppedSubLoop e plan input.childBars)

/-- A child bar of this open time has closed by `T`. -/
def childClosed (plan : IntrabarPlan) (T time : ℤ) : Bool :=
  time + timeframeSeconds plan.childTf ≤ T

/-- The evaluations, armed signals and entries of the bar at its closed children. -/
def recordsBy (e : Engine V) (plan : IntrabarPlan) (T : ℤ) (feed : Feed) (parent : ℤ) :
    List (ChildRecord V) :=
  ((subLoopAt e plan feed parent).map fun loop =>
    loop.context.history.filter fun record =>
      record.parent = parent && childClosed plan T record.child).getD []

/-- The regime, the soft regime, the average true range and the verdict of the filters that
the bar uses. -/
def referencesAt (e : Engine V) (feed : Feed) (parent : ℤ) :
    Option (Option RegimeType × Option V × Option ℚ × Option String) :=
  (parentInput e feed parent).map fun input =>
    (regimeOf e input, e.detectSoft input.indicators, referenceAtr input.indicators,
      e.filterChain.bind fun chain => chain input.bar.time input.indicators)

structure NoChildLookahead (e : Engine V) (plan : IntrabarPlan) (T parent : ℤ)
    (feed other : Feed) : Prop where
  records : recordsBy e plan T other parent = recordsBy e plan T feed parent
  references : referencesAt e other parent = referencesAt e feed parent

/-- The same child and main bars among those closed by the time. -/
structure SameChildren (e : Engine V) (plan : IntrabarPlan) (T : ℤ) (feed other : Feed) :
    Prop where
  children : (feed.rows plan.childTf).filter (closedBy plan.childTf T) =
    (other.rows plan.childTf).filter (closedBy plan.childTf T)
  main : (feed.rows e.config.timeframe).filter (closedBy e.config.timeframe T) =
    (other.rows e.config.timeframe).filter (closedBy e.config.timeframe T)

/-! The condition. -/

/-- The main bar and what it reads is known on both sides. -/
structure ParentKnown (e : Engine V) (plan : IntrabarPlan) (T parent : ℤ) (feed other : Feed) :
    Prop where
  bars : (feed.rows e.config.timeframe).filter (fun bar => bar.time ≤ parent) =
    (other.rows e.config.timeframe).filter fun bar => bar.time ≤ parent
  higher : ∀ bar ∈ (loadBars e feed).2, bar.time ≤ parent →
    higherAt e feed bar.time = higherAt e other bar.time
  borrowing : Borrows e feed ↔ Borrows e other
  sampling : e.equityCurveFilter.enabled → samplingStep e feed = samplingStep e other
  warmup : e.config.warmupBars ≤ (loadBars e feed).1.length + 1
  earlier : ∀ child ∈ feed.rows plan.childTf, child.time < parent →
    closedBy plan.childTf T child
  otherEarlier : ∀ child ∈ other.rows plan.childTf, child.time < parent →
    closedBy plan.childTf T child
  coverage : lowCoverage e plan (childrenOf e feed parent) =
    lowCoverage e plan (childrenOf e other parent)

section Children

variable {e : Engine V} {plan : IntrabarPlan} {T parent : ℤ} {feed other : Feed}

/-! The children. -/

theorem childBars_filter_congr (hplan : e.intrabar = some plan)
    (hsame : SameChildren e plan T feed other) :
    (childBars e feed).filter (closedBy plan.childTf T) =
      (childBars e other).filter (closedBy plan.childTf T) := by
  have hfading : ∀ a b : Ohlc, a.time < b.time → closedBy plan.childTf T b = true →
      closedBy plan.childTf T a = true := by
    intro a b hab hb
    rw [closedBy, decide_eq_true_eq] at hb ⊢
    omega
  have hloaded (feed : Feed) : childBars e feed =
      loadAllBars feed plan.childTf e.config.startTime e.config.endTime := by
    rw [childBars, hplan]
  rw [hloaded, hloaded, filter_loadAllBars feed _ _ _ hfading,
    filter_loadAllBars other _ _ _ hfading, hsame.children]

/-- Earlier bars have the same children. -/
theorem childrenOf_congr (hplan : e.intrabar = some plan)
    (hsame : SameChildren e plan T feed other) (h : ParentKnown e plan T parent feed other)
    (haligned : alignParentBarTime e.config.timeframe parent = parent) {time : ℤ}
    (htime : time < parent) : childrenOf e other time = childrenOf e feed time := by
  have hclosed {data : Feed}
      (hearlier : ∀ child ∈ data.rows plan.childTf, child.time < parent →
        closedBy plan.childTf T child) : ∀ child ∈ childBars e data,
        decide (alignParentBarTime e.config.timeframe child.time = time) = true →
          closedBy plan.childTf T child = true := by
    intro child hchild halign
    rw [childBars, hplan] at hchild
    refine hearlier child (mem_loadAllBars hchild).1 ?_
    by_contra hlate
    have hmono := align_mono e.config.timeframe (not_lt.mp hlate)
    rw [haligned, of_decide_eq_true halign] at hmono
    omega
  exact (filter_eq_of_imp (childBars_filter_congr hplan hsame) (hclosed h.earlier)
    (hclosed h.otherEarlier)).symm

/-- The children of the bar itself begin with the closed ones, which are the same. -/
theorem childrenOf_split (hplan : e.intrabar = some plan)
    (hsame : SameChildren e plan T feed other) (parent : ℤ) :
    ∃ closed later otherLater, childrenOf e feed parent = closed ++ later ∧
      childrenOf e other parent = closed ++ otherLater ∧
      (∀ child ∈ later, childClosed plan T child.time = false) ∧
      (∀ child ∈ otherLater, childClosed plan T child.time = false) ∧
      ∀ child ∈ closed, alignParentBarTime e.config.timeframe child.time = parent := by
  have hsplit (feed : Feed) : (childrenOf e feed parent).filter (closedBy plan.childTf T) ++
      (childrenOf e feed parent).filter (fun child => !closedBy plan.childTf T child) =
      childrenOf e feed parent := by
    refine filter_append_filter_not ?_
    rw [childrenOf, childBars, hplan]
    refine ((((feed.sorted plan.childTf).filter _).take).filter _).imp fun {a b} hab hb => ?_
    rw [closedBy, decide_eq_true_eq] at hb ⊢
    omega
  have hclosed : (childrenOf e feed parent).filter (closedBy plan.childTf T) =
      (childrenOf e other parent).filter (closedBy plan.childTf T) := by
    rw [childrenOf, childrenOf, List.filter_comm, childBars_filter_congr hplan hsame,
      List.filter_comm]
  have hlater (feed : Feed) : ∀ child ∈ (childrenOf e feed parent).filter
      (fun child => !closedBy plan.childTf T child), childClosed plan T child.time = false :=
    fun child hchild => Bool.not_eq_true' _ ▸ (List.mem_filter.mp hchild).2
  refine ⟨_, _, _, (hsplit feed).symm, ?_, hlater feed, hlater other, fun child hchild => ?_⟩
  · rw [hclosed]
    exact (hsplit other).symm
  · exact of_decide_eq_true (List.mem_filter.mp (List.mem_filter.mp hchild).1).2

/-! The loop. -/

theorem accumulations_append (front later : List Ohlc) :
    ∃ rest, accumulations (front ++ later) = accumulations front ++ rest ∧
      ∀ accumulated ∈ rest, ∃ child ∈ later, accumulated.getLast? = some child := by
  induction later using List.reverseRecOn with
  | nil =>
    exact ⟨[], by rw [List.append_nil, List.append_nil], fun _ h => absurd h List.not_mem_nil⟩
  | append_singleton later child ih =>
    obtain ⟨rest, hrest, hlast⟩ := ih
    refine ⟨rest ++ [front ++ later ++ [child]], ?_, fun accumulated haccumulated => ?_⟩
    · rw [← List.append_assoc, accumulations, onFronts_concat, ← accumulations, hrest,
        List.append_assoc]
    · rcases List.mem_append.mp haccumulated with hold | hnew
      · obtain ⟨earlier, hearlier, hsame⟩ := hlast accumulated hold
        exact ⟨earlier, List.mem_append_left _ hearlier, hsame⟩
      · rw [List.mem_singleton.mp hnew, List.getLast?_concat]
        exact ⟨child, List.mem_append_right _ (List.mem_singleton_self child), rfl⟩

/-- The records at the closed children. -/
def closedRecords (plan : IntrabarPlan) (T parent : ℤ) (loop : SubLoop V) :
    List (ChildRecord V) :=
  loop.context.history.filter fun record =>
    record.parent = parent && childClosed plan T record.child

variable {call : SubLoopCall V}

/-- Children that have not closed leave no record that counts. -/
theorem closedRecords_reach {rest : List (List Ohlc)}
    (hopen : ∀ accumulated ∈ rest, ∃ child, accumulated.getLast? = some child ∧
      childClosed plan T child.time = false) (loop : SubLoop V) :
    closedRecords plan T parent (reach (runChild e plan call) loop rest) =
      closedRecords plan T parent loop :=
  reach_related (R := fun a b => closedRecords plan T parent b = closedRecords plan T parent a)
    (fun _ => rfl) (fun _ _ _ hab hbc => hbc.trans hab)
    (fun a b accumulated haccumulated hchild => by
      obtain ⟨child, hlast, hlate⟩ := hopen accumulated haccumulated
      refine (runChild_adds hchild).2.filter_eq fun record hrecord => ?_
      have htime := hrecord.2
      rw [hlast, Option.map_some, Option.some.injEq] at htime
      rw [← htime, hlate, Bool.and_false]) loop

/-- The loop over more children has the records of the closed ones. -/
theorem closedRecords_append {closed later : List Ohlc}
    (hlater : ∀ child ∈ later, childClosed plan T child.time = false) (loop : SubLoop V) :
    closedRecords plan T parent
        (reach (runChild e plan call) loop (accumulations (closed ++ later))) =
      closedRecords plan T parent (reach (runChild e plan call) loop (accumulations closed)) := by
  obtain ⟨rest, hrest, hlast⟩ := accumulations_append closed later
  have hopen : ∀ accumulated ∈ rest, ∃ child, accumulated.getLast? = some child ∧
      childClosed plan T child.time = false := by
    intro accumulated haccumulated
    obtain ⟨child, hchild, hsame⟩ := hlast accumulated haccumulated
    exact ⟨child, hsame, hlater child hchild⟩
  rw [hrest, reach_append]
  cases hrun : run (runChild e plan call) loop (accumulations closed) with
  | none => rfl
  | some stopped =>
    rw [Option.map_some, Option.getD_some, closedRecords_reach hopen, reach_eq_of_run hrun]

/-- Loops that are alike, over children that agree on the closed ones. -/
theorem closedRecords_stopped {day : Option ℤ} {handed otherHanded : SubLoopCall V × SubLoop V}
    (hcall : otherHanded.1 = handed.1) (hloop : SameSub e day handed.2 otherHanded.2)
    {children otherChildren closed later otherLater : List Ohlc}
    (hchildren : children = closed ++ later) (hother : otherChildren = closed ++ otherLater)
    (hlater : ∀ child ∈ later, childClosed plan T child.time = false)
    (hotherLater : ∀ child ∈ otherLater, childClosed plan T child.time = false)
    (hcoverage : lowCoverage e plan children = lowCoverage e plan otherChildren) :
    closedRecords plan T parent (stoppedSubLoop e plan otherChildren otherHanded) =
      closedRecords plan T parent (stoppedSubLoop e plan children handed) := by
  unfold stoppedSubLoop
  rw [hcoverage, hcall]
  split
  · rw [closedRecords, closedRecords, hloop.2]
  · rw [hchildren, hother, closedRecords_append hlater, closedRecords_append hotherLater]
    have hreach := rel_reach (R := SameSub e day) (P := Eq) (f := runChild e plan handed.1)
      (g := runChild e plan handed.1)
      (fun a b accumulated _ hab heq => heq ▸ runChild_alike plan handed.1 hab accumulated)
      (List.forall₂_refl (accumulations closed)) hloop
    rw [closedRecords, closedRecords, hreach.2]

/-! What the loop leaves is what its bar leaves. -/

theorem history_runIntrabarSubLoop {children : List Ohlc}
    {a b : SubLoop V} (h : runIntrabarSubLoop e plan call children a = some b) :
    b.context.history = (stoppedSubLoop e plan children (call, a)).context.history := by
  unfold runIntrabarSubLoop at h
  unfold stoppedSubLoop
  by_cases hnone : children = []
  · rw [if_pos hnone] at h
    cases Option.some.inj h
    rw [hnone]
    split
    · rfl
    · rfl
  · rw [if_neg hnone] at h
    split
    · rename_i hlow
      rw [if_pos hlow] at h
      cases Option.some.inj h
      rfl
    · rename_i hcovered
      rw [if_neg hcovered] at h
      obtain ⟨loop, hloop, rfl⟩ := Option.map_eq_some_iff.mp h
      rw [reach_eq_of_run hloop]
      rfl

variable {input : BarInput} {s t : State V}

theorem historyOf_takeDecision {regime : RegimeType}
    {decision : SignalDecision V} (h : takeDecision e input regime s decision = some t) :
    historyOf t = historyOf s := by
  have hcoordinate (s : State V) : historyOf (coordinate e input decision s).2 = historyOf s := by
    unfold coordinate
    split
    · rename_i context action hcontext _
      rw [historyOf, historyOf, hcontext]
      dsimp only
      unfold checkConfirmedCoordination
      split
      · rfl
      · rfl
    · rfl
  unfold takeDecision at h
  dsimp only at h
  split at h
  · cases Option.some.inj h
    exact hcoordinate _
  · obtain ⟨desk, -, rfl⟩ := Option.map_eq_some_iff.mp h
    exact hcoordinate _

theorem historyOf_confirmBar {regime : RegimeType}
    (h : confirmBar e input regime s = some t) : historyOf t = historyOf s := by
  obtain ⟨taken, htaken, rfl⟩ := Option.map_eq_some_iff.mp h
  have hdecisions : historyOf taken = historyOf s :=
    foldlM_related (R := fun s t : State V => historyOf t = historyOf s) (fun _ => rfl)
      (fun _ _ _ hst htu => htu.trans hst) (fun _ _ _ _ => historyOf_takeDecision) htaken
  rw [← hdecisions, sampleEquity]
  split
  · rfl
  · rfl

/-- The history after a bar is that of its loop, when it came to one. -/
theorem historyOf_step (hplan : e.intrabar = some plan) (h : step e s input = some t) :
    historyOf t = ((handover e input s).map fun handed =>
      (stoppedSubLoop e plan input.childBars handed).context.history).getD (historyOf s) := by
  obtain ⟨opened, hopen, hrest⟩ := Option.bind_eq_some_iff.mp h
  obtain ⟨filled, hfill, hend⟩ := Option.bind_eq_some_iff.mp hrest
  have hready : (backfill input filled).intrabar = s.intrabar :=
    (fillPendingEntries_intrabar hfill).trans (openBar_intrabar hopen)
  have hhistory : historyOf (backfill input filled) = historyOf s := by
    rw [historyOf, historyOf, hready]
  rw [handover, hopen, Option.bind_some, hfill, Option.bind_some]
  split at hend
  · rename_i hregime
    cases Option.some.inj hend
    rw [hregime]
    exact hhistory
  · rename_i regime hregime
    rw [hregime, Option.bind_some]
    unfold evaluateBar at hend
    dsimp only at hend ⊢
    split at hend
    · rename_i reason hreason
      cases Option.some.inj hend
      rw [hreason]
      exact hhistory
    · rename_i hpassed
      obtain ⟨replayed, hreplay, hconfirm⟩ := Option.bind_eq_some_iff.mp hend
      rw [historyOf_confirmBar hconfirm, hpassed]
      unfold replayChildren at hreplay
      rw [hplan] at hreplay
      dsimp only at hreplay
      cases hcontext : (backfill input filled).intrabar with
      | none =>
        rw [hcontext] at hreplay
        cases Option.some.inj hreplay
        rw [historyOf, hcontext] at hhistory
        exact hhistory
      | some context =>
        rw [hcontext] at hreplay
        obtain ⟨atr, hatr, hloop⟩ := Option.bind_eq_some_iff.mp hreplay
        obtain ⟨loop, hreplayed, rfl⟩ := Option.map_eq_some_iff.mp hloop
        rw [hatr]
        exact history_runIntrabarSubLoop hreplayed

/-! The bar. -/

/-- What a bar hands over does not depend on its children. -/
theorem handover_alike {input another : BarInput} (hread : SameRead e other input another)
    (h : Alike e none s t) : Option.Rel (fun a b : SubLoopCall V × SubLoop V => b.1 = a.1 ∧
      SameSub e (some (dayOf input.bar.time)) a.2 b.2) (handover e input s)
      (handover e another t) := by
  obtain ⟨sampled, -, rfl⟩ := hread
  change Option.Rel _ (handover e input s) (handover e input t)
  refine rel_bind (openBar_alike input h) fun opened reopened hopened => ?_
  refine rel_bind (fillPendingEntries_alike input hopened) fun filled refilled hfilled => ?_
  refine rel_bind_same _ fun regime => ?_
  have hready := backfill_alike input hfilled
  have hstats : (backfill input refilled).filterStats = (backfill input filled).filterStats := by
    rw [hready.rest]
  have hintrabar : (backfill input refilled).intrabar = (backfill input filled).intrabar := by
    rw [hready.rest]
  have hcall (atr : ℚ) : subLoopCall e input regime atr
      { backfill input refilled with htfIndicatorData := input.htfIndicatorData } =
      subLoopCall e input regime atr
        { backfill input filled with htfIndicatorData := input.htfIndicatorData } := by
    rw [hready.rest]
    rfl
  dsimp only
  rw [hstats, hintrabar]
  split
  · cases referenceAtr input.indicators with
    | none => exact Option.Rel.none
    | some atr => exact Option.Rel.some ⟨hcall atr, hready.desk.book, rfl⟩
  · exact Option.Rel.none

/-- The inputs up to the bar. -/
theorem inputs_parted (h : ParentKnown e plan T parent feed other) :
    Option.Rel (SameRead e other) (parentInput e feed parent) (parentInput e other parent) ∧
      List.Forall₂ (SameRead e other)
        ((barInputs e feed (prepare e feed (constructed e))).takeWhile
          fun input => input.bar.time < parent)
        ((barInputs e other (prepare e other (constructed e))).takeWhile
          fun input => input.bar.time < parent) := by
  obtain ⟨front, later, otherFront, otherLater, hinputs, hothers, hfronts, -, hlater,
    hotherLater⟩ := barInputs_parted (q := fun time => time ≤ parent)
      (fun a b hab hb => decide_eq_true (hab.trans (of_decide_eq_true hb))) h.bars h.borrowing
      h.warmup (fun bar hbar _ htime => h.higher bar hbar (of_decide_eq_true htime)) h.sampling
  have hbar (p : ℤ → Bool) (input another : BarInput) (hread : SameRead e other input another) :
      p another.bar.time = p input.bar.time := by
    obtain ⟨sampled, -, rfl⟩ := hread
    rfl
  have hpast {later : List BarInput} (hopen : ∀ input ∈ later,
      decide (input.bar.time ≤ parent) = false) {p : ℤ → Bool}
      (hp : ∀ time, p time = true → time ≤ parent) : ∀ input ∈ later, p input.bar.time = false := by
    intro input hinput
    refine Bool.eq_false_iff.mpr fun htrue => ?_
    exact of_decide_eq_false (hopen input hinput) (hp _ htrue)
  have hequal : ∀ time : ℤ, decide (time = parent) = true → time ≤ parent :=
    fun time htime => (of_decide_eq_true htime).le
  have hbefore : ∀ time : ℤ, decide (time < parent) = true → time ≤ parent :=
    fun time htime => (of_decide_eq_true htime).le
  constructor
  · rw [parentInput, parentInput, hinputs, hothers,
      find?_append_of_forall_not (hpast hlater hequal),
      find?_append_of_forall_not (hpast hotherLater hequal)]
    exact rel_find? (hbar fun time => time = parent) hfronts
  · rw [hinputs, hothers, takeWhile_append_of_forall_not (hpast hlater hbefore),
      takeWhile_append_of_forall_not (hpast hotherLater hbefore)]
    exact forall₂_takeWhile (hbar fun time => time < parent) hfronts

theorem mem_of_mem_takeWhile
    (h : input ∈ (barInputs e feed (prepare e feed (constructed e))).takeWhile
      fun input => input.bar.time < parent) :
    input ∈ barInputs e feed (prepare e feed (constructed e)) ∧ input.bar.time < parent :=
  ⟨(List.takeWhile_prefix _).subset h, of_decide_eq_true
    (List.mem_takeWhile_imp (p := fun input : BarInput => input.bar.time < parent) h)⟩

/-- The state before the bar, on both sides. -/
theorem stateBefore_alike (hplan : e.intrabar = some plan)
    (hsame : SameChildren e plan T feed other) (h : ParentKnown e plan T parent feed other)
    (haligned : alignParentBarTime e.config.timeframe parent = parent)
    (hchildren : childBars e feed = [] ↔ childBars e other = []) :
    Option.Rel (Alike e none) (stateBefore e feed parent) (stateBefore e other parent) := by
  have hinputs := forall₂_sameInput (inputs_parted h).2 fun input hinput => by
    obtain ⟨hmem, htime⟩ := mem_of_mem_takeWhile hinput
    rw [childBars_barInputs hmem]
    exact childrenOf_congr hplan hsame h haligned htime
  exact rel_run (R := Alike e none) (P := SameInput e) (fun _ _ _ _ => step_sameInput) hinputs
    (start_alike hchildren)

theorem mem_of_parentInput (h : parentInput e feed parent = some input) :
    input ∈ barInputs e feed (prepare e feed (constructed e)) ∧ input.bar.time = parent :=
  ⟨List.mem_of_find?_eq_some h, of_decide_eq_true
    (List.find?_some (p := fun input : BarInput => input.bar.time = parent) h)⟩

/-- The records before the bar are of earlier bars. -/
theorem historyOf_stateBefore (h : stateBefore e feed parent = some s) :
    ∀ record ∈ historyOf s, record.parent < parent := by
  have hstart : historyOf (resetRunState e (prepare e feed (constructed e))) = [] := by
    unfold prepare preloadChildren keepChildren preloadHtf keepHigher constructed resetRunState historyOf
    cases e.intrabar <;> split_ifs <;> rfl
  have hadds : Adds (fun record => record.parent < parent)
      (historyOf (resetRunState e (prepare e feed (constructed e)))) (historyOf s) := by
    rw [stateBefore, run_eq_foldlM] at h
    refine foldlM_related (R := fun s t : State V =>
      Adds (fun record => record.parent < parent) (historyOf s) (historyOf t))
      (fun _ => Adds.refl _ _) (fun _ _ _ => Adds.trans) (fun s t input hinput hstep => ?_) h
    refine (step_adds hstep).replayed.mono fun record hrecord => ?_
    rw [hrecord]
    exact (mem_of_mem_takeWhile hinput).2
  obtain ⟨new, hnew, hall⟩ := hadds
  rw [hnew, hstart, List.nil_append]
  exact hall

/-- The sub-loop goes on with the context of the run. -/
theorem context_of_handover {handed : SubLoopCall V × SubLoop V}
    (h : handover e input s = some handed) : s.intrabar = some handed.2.context := by
  obtain ⟨opened, hopen, hrest⟩ := Option.bind_eq_some_iff.mp h
  obtain ⟨filled, hfill, hregimes⟩ := Option.bind_eq_some_iff.mp hrest
  obtain ⟨regime, -, hready⟩ := Option.bind_eq_some_iff.mp hregimes
  rw [← openBar_intrabar hopen, ← fillPendingEntries_intrabar hfill]
  dsimp only at hready
  split at hready
  · rename_i context _ hcontext
    obtain ⟨atr, -, rfl⟩ := Option.map_eq_some_iff.mp hready
    exact hcontext
  · cases hready

/-- Without closed children there is no record that counts. -/
theorem recordsBy_of_open
    (hopen : ∀ child ∈ childrenOf e feed parent, childClosed plan T child.time = false) :
    recordsBy e plan T feed parent = [] := by
  unfold recordsBy
  cases hloop : subLoopAt e plan feed parent with
  | none => rfl
  | some loop =>
    unfold subLoopAt at hloop
    split at hloop
    · cases hloop
    · obtain ⟨s, hstate, hrest⟩ := Option.bind_eq_some_iff.mp hloop
      obtain ⟨input, hinput, hhanded⟩ := Option.bind_eq_some_iff.mp hrest
      obtain ⟨handed, hhandover, rfl⟩ := Option.map_eq_some_iff.mp hhanded
      obtain ⟨hmem, htime⟩ := mem_of_parentInput hinput
      have hearlier : closedRecords plan T parent handed.2 = [] := by
        refine List.filter_eq_nil_iff.mpr fun record hrecord hcounts => ?_
        have hbefore := historyOf_stateBefore hstate record
          (by rw [historyOf, context_of_handover hhandover]; exact hrecord)
        rw [Bool.and_eq_true, decide_eq_true_eq] at hcounts
        omega
      rw [Option.map_some, Option.getD_some]
      change closedRecords plan T parent _ = []
      rw [childBars_barInputs hmem, htime, stoppedSubLoop]
      split
      · exact hearlier
      · have hnone : closedRecords plan T parent (reach (runChild e plan handed.1) handed.2
            (accumulations ([] ++ childrenOf e feed parent))) =
            closedRecords plan T parent (reach (runChild e plan handed.1) handed.2
              (accumulations [])) := closedRecords_append hopen handed.2
        exact hnone.trans hearlier

/-- The loops of the bar on both sides, over children that agree on the closed ones. -/
theorem recordsBy_alike (hplan : e.intrabar = some plan)
    (hsame : SameChildren e plan T feed other) (h : ParentKnown e plan T parent feed other)
    (haligned : alignParentBarTime e.config.timeframe parent = parent)
    (hloaded : childBars e feed = [] ↔ childBars e other = [])
    {closed later otherLater : List Ohlc} (hchildren : childrenOf e feed parent = closed ++ later)
    (hother : childrenOf e other parent = closed ++ otherLater)
    (hlater : ∀ child ∈ later, childClosed plan T child.time = false)
    (hotherLater : ∀ child ∈ otherLater, childClosed plan T child.time = false) :
    recordsBy e plan T other parent = recordsBy e plan T feed parent := by
  have hloops : Option.Rel (fun a b : SubLoop V =>
      closedRecords plan T parent b = closedRecords plan T parent a)
      (subLoopAt e plan feed parent) (subLoopAt e plan other parent) := by
    unfold subLoopAt
    split
    · exact Option.Rel.none
    · refine rel_bind (stateBefore_alike hplan hsame h haligned hloaded) fun s t hstate => ?_
      cases hfound : parentInput e feed parent with
      | none =>
        rw [rel_of_eq_none (inputs_parted h).1 hfound]
        exact Option.Rel.none
      | some input =>
        obtain ⟨another, hanother, hread⟩ := exists_rel_of_eq_some (inputs_parted h).1 hfound
        obtain ⟨hmem, htime⟩ := mem_of_parentInput hfound
        obtain ⟨hothermem, hothertime⟩ := mem_of_parentInput hanother
        have hbars : input.childBars = childrenOf e feed parent := by
          rw [childBars_barInputs hmem, htime]
        have hotherBars : another.childBars = childrenOf e other parent := by
          rw [childBars_barInputs hothermem, hothertime]
        rw [hanother]
        refine rel_map (handover_alike hread hstate) fun handed otherHanded hhanded => ?_
        refine closedRecords_stopped hhanded.1 hhanded.2 (hbars.trans hchildren)
          (hotherBars.trans hother) hlater hotherLater ?_
        rw [hbars, hotherBars]
        exact h.coverage
  unfold recordsBy
  cases hloop : subLoopAt e plan feed parent with
  | none => rw [rel_of_eq_none hloops hloop]
  | some loop =>
    obtain ⟨another, hanother, hrecords⟩ := exists_rel_of_eq_some hloops hloop
    rw [hanother]
    exact hrecords

/-- In a run that comes past the bar, the records are those in its history. -/
theorem recordsBy_of_step (hplan : e.intrabar = some plan) (htargets : e.targetStrategies ≠ [])
    (hinput : parentInput e feed parent = some input)
    (hstate : stateBefore e feed parent = some s) (hstep : step e s input = some t) :
    recordsBy e plan T feed parent = (historyOf t).filter fun record =>
      record.parent = parent && childClosed plan T record.child := by
  rw [historyOf_step hplan hstep]
  unfold recordsBy subLoopAt
  rw [if_neg htargets, hstate, Option.bind_some, hinput, Option.bind_some]
  cases handover e input s with
  | none =>
    refine (List.filter_eq_nil_iff.mpr fun record hrecord hcounts => ?_).symm
    have hbefore := historyOf_stateBefore hstate record hrecord
    rw [Bool.and_eq_true, decide_eq_true_eq] at hcounts
    omega
  | some handed => rfl

/-- What the sub-loop does at closed children is decided by what has closed, once the bar
itself and what it reads are known. -/
theorem noChildLookahead_of_parentKnown (hplan : e.intrabar = some plan)
    (hsame : SameChildren e plan T feed other) (h : ParentKnown e plan T parent feed other) :
    NoChildLookahead e plan T parent feed other := by
  obtain ⟨hinput, -⟩ := inputs_parted h
  obtain ⟨closed, later, otherLater, hchildren, hotherChildren, hlater, hotherLater, hparent⟩ :=
    childrenOf_split hplan hsame parent
  constructor
  · by_cases hnone : closed = []
    · rw [hnone, List.nil_append] at hchildren hotherChildren
      rw [recordsBy_of_open (hotherChildren ▸ hotherLater), recordsBy_of_open (hchildren ▸ hlater)]
    · obtain ⟨first, hfirst⟩ := List.exists_mem_of_ne_nil closed hnone
      have haligned : alignParentBarTime e.config.timeframe parent = parent := by
        rw [← hparent first hfirst, align_align]
      have hloaded : childBars e feed = [] ↔ childBars e other = [] := by
        have hleft : first ∈ childrenOf e feed parent :=
          hchildren ▸ List.mem_append_left _ hfirst
        have hright : first ∈ childrenOf e other parent :=
          hotherChildren ▸ List.mem_append_left _ hfirst
        exact iff_of_false (List.ne_nil_of_mem (List.mem_filter.mp hleft).1)
          (List.ne_nil_of_mem (List.mem_filter.mp hright).1)
      exact recordsBy_alike hplan hsame h haligned hloaded hchildren hotherChildren hlater
        hotherLater
  · unfold referencesAt
    cases hfound : parentInput e feed parent with
    | none => rw [rel_of_eq_none hinput hfound]
    | some input =>
      obtain ⟨another, hanother, sampled, -, rfl⟩ := exists_rel_of_eq_some hinput hfound
      rw [hanother]
      rfl

end Children

/-- Three hours and the quarters of the second one, whose last quarter ends it. -/
def quarterRows (close thirdClose : ℚ) (timeframe : String) : List Ohlc :=
  if timeframe = "H1" then
    (List.range 3).map fun (i : ℕ) =>
      plainBar "H1" (noon - 3600 + 3600 * i) (if i = 1 then close else 100)
  else if timeframe = "M15" then
    (List.range 4).map fun (i : ℕ) =>
      plainBar "M15" (noon + 900 * i) (if i = 2 then thirdClose else if i = 3 then close else 100)
  else []

theorem quarterRows_sorted (close thirdClose : ℚ) (timeframe : String) :
    (quarterRows close thirdClose timeframe).Pairwise fun a b => a.time < b.time := by
  unfold quarterRows
  split_ifs
  · exact plainBars_sorted _ _ fun i j hij => by omega
  · exact plainBars_sorted _ _ fun i j hij => by omega
  · exact List.Pairwise.nil

def quarterFeed (close thirdClose : ℚ) : Feed where
  rows := quarterRows close thirdClose
  sorted := quarterRows_sorted close thirdClose

def quarterPlan : IntrabarPlan where
  childTf := "M15"
  minStableBars := 2
  enabledStrategies := ["quarter"]
  indicatorNames := ["atr14", "last", "adx14", "boll20", "keltner20"]

/-- One intrabar strategy that buys in a trend, which is an hour that ends at two hundred. -/
def quarterEngine : Engine Unit where
  config := {
    symbol := "XAUUSD"
    timeframe := "H1"
    startTime := noon - 1800
    endTime := noon + 2 * 3600
    warmupBars := 1
    confidence := { enableHtfAlignment := false } }
  targetStrategies := ["quarter"]
  requiredIndicators := ["atr14", "last", "adx14", "boll20", "keltner20"]
  capabilities := Dict.empty.set "quarter" ⟨[.confirmed, .intrabar], ["atr14", "last"]⟩
  intrabar := some quarterPlan
  pipeline _ bars _ := closeSnapshot bars
  detect snapshot :=
    if ((snapshot.get? "last").bind id).bind (fun payload => payload.get? "close") =
        some (.number 200) then
      some .trending
    else some .ranging
  detectSoft _ := none
  analyzeStructure _ _ _ := none
  evaluate _ request :=
    if request.regimeHard = "trending" then
      some {
        strategy := request.strategy
        direction := some .buy
        confidence := 1
        metadata := () }
    else none
  currentSessions _ := []
  deriveEntryGroup _ _ _ := none
  strategyCategory _ := ""

/-- Once the hour is known, what its third quarter will be is not seen before it. -/
theorem quarterEngine_noChildLookahead :
    NoChildLookahead quarterEngine quarterPlan (noon + 1800) noon (quarterFeed 200 100)
      (quarterFeed 200 150) := by
  apply noChildLookahead_of_parentKnown rfl
  · constructor
    · decide +kernel
    · decide +kernel
  · constructor
    · decide +kernel
    · intro bar _ _
      have hskips : ¬(LoadsHigher quarterEngine ∧ htfList "H1" ≠ []) := by decide +kernel
      rw [higherAt_skipped hskips, higherAt_skipped hskips]
    · decide +kernel
    · exact fun hon => absurd hon (by decide +kernel)
    · decide +kernel
    · decide +kernel
    · decide +kernel
    · decide +kernel

/-- How the hour ends is known in its first half: it decides whether the strategy enters. -/
theorem quarterEngine_looksAhead :
    quarterEngine.intrabar = some quarterPlan ∧
      SameChildren quarterEngine quarterPlan (noon + 1800) (quarterFeed 100 100)
        (quarterFeed 200 100) ∧
      ¬NoChildLookahead quarterEngine quarterPlan (noon + 1800) noon (quarterFeed 100 100)
        (quarterFeed 200 100) := by
  refine ⟨rfl, ⟨by decide +kernel, by decide +kernel⟩, fun h => ?_⟩
  have hentries := congrArg
    (fun records => (records.flatMap fun record => record.entries).length) h.records
  revert hentries
  decide +kernel

end MT5Services.IntrabarLookahead
