import MT5Services.PendingRecovery

/-!
One-cancels-other groups of live broker orders. Members are submitted one by one,
monitor passes write what they find into the stored table, a matched position
marks its row, and a restart is followed by the recovery. A fill is known to the
system once its row says so. The rule asks for the cancellation of every sibling
still placed; the state pass never asks for one, so the rule holds in the runs
whose passes leave no placed sibling behind.
-/
namespace MT5Services.OcoBroker

open Runs BrokerOrders PendingRecovery

def Siblings (a b : Order) : Prop :=
  a.ticket ≠ b.ticket ∧ ∃ gid, groupOf a = some gid ∧ groupOf b = some gid

structure EntrySpecGroup where
  groupId : String
  members : List String
  nonempty : members ≠ []
  nodup : members.Nodup

/-- A group of one keeps the signal id as its key. -/
def entryKey (signalId : String) (group : EntrySpecGroup) (memberId : String) : String :=
  if group.members.length = 1 then signalId else signalId ++ "#" ++ memberId

/-- A member as `submit_pending_entry` hands it to `track_mt5_order`. -/
structure Submission where
  signalId : String
  group : EntrySpecGroup
  memberId : String
  symbol : String
  direction : String
  expiresAt : ℤ

def Submission.order (sub : Submission) (ticket : ℤ) : Order where
  ticket := ticket
  signalId := entryKey sub.signalId sub.group sub.memberId
  symbol := sub.symbol
  direction := sub.direction
  expiresAt := sub.expiresAt
  groupId := some sub.group.groupId

/-- `track_mt5_order` with its hook: a duplicate key leaves map and table alone. -/
def trackOrder (desk : Desk) (info : Order) : Desk :=
  if desk.orders.contains info.signalId then desk
  else Desk.mark { desk with orders := trackMt5Order desk.orders info } .placed info

/-- The row a lifecycle hook writes. -/
def reportRow : Report → Row
  | .filled info => ⟨info, .filled⟩
  | .missing info => ⟨info, .missing⟩
  | .expired info => ⟨info, .expired⟩
  | .cancelled info => ⟨info, .cancelled⟩

/-- A pass over the map: its reports go to the table, its cancellations to the log. -/
def applyPass (desk : Desk) (result : Orders × List Report) (asked : List ℤ) : Desk where
  orders := result.1
  table := desk.table.writeAll (result.2.map reportRow)
  asked := desk.asked ++ asked

inductive Act
  | submitMember (sub : Submission) (ticket : Option ℤ)
  | statePass (inspect : String → Inspection)
  | expiryPass (now : ℤ) (cancel : String → CancelAnswer)
  | cancelBySymbol (symbol : String) (excludeDirection : Option String)
      (cancel : String → CancelAnswer)
  | positionTracked (ticket : ℤ)
  | restart
  | restore (env : Restart)

/-- A submission whose dispatch failed or gave no ticket tracks nothing. A position
matched by `record_position_tracked` marks its row filled. -/
def step (desk : Desk) : Act → Option Desk
  | .submitMember sub ticket =>
    if sub.signalId ≠ "" ∧ sub.memberId ∈ sub.group.members then
      match ticket with
      | none => some desk
      | some ticket => some (trackOrder desk (sub.order ticket))
    else none
  | .statePass inspect => some (applyPass desk (checkMt5OrderState inspect desk.orders) [])
  | .expiryPass now cancel =>
    some (applyPass desk (checkMt5OrderExpiry now cancel desk.orders)
      ((expiredEntries now desk.orders).map fun entry => entry.2.ticket))
  | .cancelBySymbol symbol excludeDirection cancel =>
    some (applyPass desk (cancelMt5OrdersBySymbol symbol excludeDirection cancel desk.orders)
      ((symbolEntries symbol excludeDirection desk.orders).map fun entry => entry.2.ticket))
  | .positionTracked ticket =>
    match desk.table.row? ticket with
    | none => none
    | some row =>
      if row.status = .placed ∨ row.status = .missing then some (desk.mark .filled row.info)
      else none
  | .restart => some { desk with orders := Dict.empty }
  | .restore env => some (restorePendingOrders env desk)

def start (table : OrderTable) : Desk := ⟨Dict.empty, table, []⟩

/-- No tracked and placed order has a filled sibling and no cancellation. -/
def Oco (desk : Desk) : Prop :=
  ∀ info fill, desk.Tracked info.ticket → desk.Holds .placed info → desk.Holds .filled fill →
    Siblings info fill → info.ticket ∈ desk.asked

/-- The pass or restore finds this order filled: it writes the row, or a restore
reads it. -/
def FindsFill (s : Desk) (a : Act) (t : Desk) (fill : Order) : Prop :=
  match a with
  | .statePass _ => t.Holds .filled fill ∧ ¬ s.Holds .filled fill
  | .restore env => env.live ≠ none ∧ (s.Holds .filled fill ∨ t.Holds .filled fill)
  | _ => False

/-- A call that finds a fill asks for the cancellation of every sibling that was
placed and that it does not find filled or missing too. -/
def CancelsSiblings (s : Desk) (a : Act) (t : Desk) : Prop :=
  ∀ info fill, FindsFill s a t fill → s.Holds .placed info → Siblings info fill →
    t.status? info.ticket ≠ some .filled → t.status? info.ticket ≠ some .missing →
    AskedBetween s t info.ticket

/-- No placed sibling outlives a fill this pass finds. -/
def PassHandled (desk : Desk) (inspect : String → Inspection) : Prop :=
  ∀ key fill, desk.orders.get? key = some fill → inspect key = .filled →
    ∀ info, desk.Holds .placed info → Siblings info fill →
      ∃ other found, desk.orders.get? other = some found ∧ found.ticket = info.ticket ∧
        (inspect other).reports = true

/-- A placed order the broker no longer lists, of a group with no stored fill, that
inspection finds filled. -/
def InspectedFilled (desk : Desk) (env : Restart) (live : Dict ℤ Order) (fill : Order) : Prop :=
  desk.Holds .placed fill ∧ live.contains fill.ticket = false ∧
    env.inspect fill.ticket = .filled ∧
    ∀ stored, desk.Holds .filled stored → groupOf stored ≠ groupOf fill

/-- With a fill in a placed order's group the loop is complete; a stored fill needs
a ticket that can be cancelled, an inspected one a sibling that is gone too. -/
def RestoreHandled (desk : Desk) (env : Restart) : Prop :=
  ∀ orders, env.live = some orders → ∀ info fill, desk.Holds .placed info →
    Siblings info fill →
    (desk.Holds .filled fill → Complete desk env (liveByTicket orders) ∧ 0 < info.ticket) ∧
    (InspectedFilled desk env (liveByTicket orders) fill →
      Complete desk env (liveByTicket orders) ∧ Gone env (liveByTicket orders) info)

/-- The condition on one step. -/
def Handled (desk : Desk) : Act → Prop
  | .submitMember sub answer =>
    ∀ ticket, answer = some ticket → ∀ fill, desk.Holds .filled fill →
      ¬ Siblings (sub.order ticket) fill
  | .statePass inspect => PassHandled desk inspect
  | .positionTracked ticket =>
    ∀ row, desk.table.row? ticket = some row → ∀ info, desk.Holds .placed info →
      desk.Tracked info.ticket → Siblings info row.info → info.ticket ∈ desk.asked
  | .restore env => RestoreHandled desk env
  | _ => True

theorem inFilledGroup_of_stored (desk : Desk) (info fill : Order)
    (hlimits : WithinLimits desk.table) (hplaced : desk.Holds .placed info)
    (hfill : desk.Holds .filled fill) (hsiblings : Siblings info fill) :
    inFilledGroup (groupsWithFilledSibling desk.table) ⟨info, .placed⟩ = true := by
  obtain ⟨-, gid, hinfo, hfillGroup⟩ := hsiblings
  have hgid : gid ∈ groupIdsWithPlaced desk.table :=
    List.mem_filterMap.mpr ⟨_, mem_active desk info hlimits hplaced, hinfo⟩
  have hrelated : (⟨fill, .filled⟩ : Row) ∈
      listPendingOrdersByGroups desk.table (groupIdsWithPlaced desk.table) := by
    unfold listPendingOrdersByGroups
    rw [List.take_of_length_le hlimits.2]
    apply List.mem_filter.mpr
    refine ⟨List.mem_reverse.mpr ((mem_values_iff _ _).mpr hfill), ?_⟩
    simpa [hfillGroup] using hgid
  have hmem : gid ∈ groupsWithFilledSibling desk.table :=
    List.mem_filterMap.mpr
      ⟨_, List.mem_filter.mpr ⟨hrelated, decide_eq_true rfl⟩, hfillGroup⟩
  simpa [inFilledGroup, hinfo] using hmem

/-- A restore that meets a fill in the group of a placed order asks for that order,
or finds it filled or missing as well. -/
theorem restore_answers (env : Restart) (desk : Desk) (orders : List Order)
    (hhandled : RestoreHandled desk env) (hlive : env.live = some orders) (info fill : Order)
    (hplaced : desk.Holds .placed info) (hsiblings : Siblings info fill)
    (hfill : desk.Holds .filled fill ∨ (restorePendingOrders env desk).Holds .filled fill) :
    AskedBetween desk (restorePendingOrders env desk) info.ticket ∨
      (restorePendingOrders env desk).status? info.ticket = some .filled ∨
      (restorePendingOrders env desk).status? info.ticket = some .missing := by
  have hstored : ∀ stored, desk.Holds .filled stored → Siblings info stored →
      AskedBetween desk (restorePendingOrders env desk) info.ticket := by
    intro stored hfilled hsame
    obtain ⟨hcomplete, hpos⟩ := (hhandled orders hlive info stored hplaced hsame).1 hfilled
    have hgroup := inFilledGroup_of_stored desk info stored hcomplete.1 hplaced hfilled hsame
    exact (restore_settled env desk orders hlive hcomplete info hplaced).1 hgroup hpos
  have hfound : desk.Holds .filled fill ∨ FoundFilled env (groupsWithFilledSibling desk.table)
      (liveByTicket orders) (listActivePendingOrders desk.table) fill := by
    rcases hfill with hold | hnew
    · exact Or.inl hold
    · exact (restore_frame env desk orders hlive).filled fill hnew
  rcases hfound with hold | hfound
  · exact Or.inl (hstored fill hold hsiblings)
  · obtain ⟨row, hrow, rfl, -, hgone, hinspect⟩ := hfound
    obtain ⟨hticket, gid, hinfo, hgid⟩ := hsiblings
    by_cases hother : ∃ stored, desk.Holds .filled stored ∧ groupOf stored = some gid
    · obtain ⟨stored, hfilled, hgroup⟩ := hother
      have hne : info.ticket ≠ stored.ticket := by
        intro heq
        unfold Desk.Holds at hplaced hfilled
        rw [heq, hfilled] at hplaced
        cases congrArg Row.status (Option.some.inj hplaced)
      exact Or.inl (hstored stored hfilled ⟨hne, gid, hinfo, hgroup⟩)
    · have hinspected : InspectedFilled desk env (liveByTicket orders) row.info := by
        refine ⟨holds_of_mem_active desk row hrow, hgone, hinspect, ?_⟩
        intro stored hfilled hgroup
        exact hother ⟨stored, hfilled, hgroup.trans hgid⟩
      obtain ⟨hcomplete, hinfoGone⟩ :=
        (hhandled orders hlive info row.info hplaced ⟨hticket, gid, hinfo, hgid⟩).2 hinspected
      have hinfoFree : inFilledGroup (groupsWithFilledSibling desk.table)
          ⟨info, .placed⟩ = false := by
        rw [Bool.eq_false_iff]
        intro htrue
        obtain ⟨stored, hfilled, hgroup⟩ := stored_of_inFilledGroup desk _ htrue
        exact hother ⟨stored, hfilled, hgroup.trans hinfo⟩
      exact Or.inr ((restore_settled env desk orders hlive hcomplete info hplaced).2
        hinfoFree hinfoGone)

/-- What the state pass reports of one entry. -/
def foundReport (inspect : String → Inspection) (entry : String × Order) : Option Report :=
  match inspect entry.1 with
  | .filled => some (.filled entry.2)
  | .missing => some (.missing entry.2)
  | .raises | .pending => none

theorem inspectEntry_eq (inspect : String → Inspection) (state : Orders × List Report)
    (entry : String × Order) (h : state.1.get? entry.1 = some entry.2) :
    inspectEntry inspect state entry =
      (if (inspect entry.1).reports then state.1.pop entry.1 else state.1,
        state.2 ++ (foundReport inspect entry).toList) := by
  unfold inspectEntry foundReport
  rw [h]
  cases inspect entry.1 <;> simp [Inspection.reports]

/-- The snapshot has each key once, so every entry is still in the map at its turn. -/
theorem inspectEntries_eq (inspect : String → Inspection) (entries : List (String × Order))
    (state : Orders × List Report) (hnodup : (entries.map Prod.fst).Nodup)
    (h : ∀ entry ∈ entries, state.1.get? entry.1 = some entry.2) :
    (entries.foldl (inspectEntry inspect) state).2 =
        state.2 ++ entries.filterMap (foundReport inspect) ∧
      ∀ key info, (entries.foldl (inspectEntry inspect) state).1.get? key = some info →
        state.1.get? key = some info := by
  induction entries generalizing state with
  | nil => simp
  | cons entry rest ih =>
    rw [List.map_cons, List.nodup_cons] at hnodup
    have hnext := inspectEntry_eq inspect state entry (h entry List.mem_cons_self)
    have hkept : ∀ later ∈ rest,
        (inspectEntry inspect state entry).1.get? later.1 = some later.2 := by
      intro later hlater
      have hne : later.1 ≠ entry.1 := by
        intro heq
        exact hnodup.1 (List.mem_map.mpr ⟨later, hlater, heq⟩)
      rw [hnext]
      dsimp only
      split
      · rw [Dict.get?_pop, if_neg hne]
        exact h later (List.mem_cons_of_mem entry hlater)
      · exact h later (List.mem_cons_of_mem entry hlater)
    obtain ⟨hreports, horders⟩ := ih (inspectEntry inspect state entry) hnodup.2 hkept
    rw [List.foldl_cons]
    refine ⟨?_, ?_⟩
    · rw [hreports, hnext, List.append_assoc, List.filterMap_cons]
      cases foundReport inspect entry <;> rfl
    · intro key info hget
      have hafter := horders key info hget
      rw [hnext] at hafter
      dsimp only at hafter
      split at hafter
      · rw [Dict.get?_pop] at hafter
        split at hafter
        · cases hafter
        · exact hafter
      · exact hafter

theorem checkMt5OrderState_eq (inspect : String → Inspection) (orders : Orders) :
    (checkMt5OrderState inspect orders).2 = orders.items.filterMap (foundReport inspect) ∧
      ∀ key info, (checkMt5OrderState inspect orders).1.get? key = some info →
        orders.get? key = some info :=
  inspectEntries_eq inspect orders.items (orders, []) orders.nodup
    fun _ hentry => (Dict.mem_items_iff_get? _ _ _).mp hentry

theorem cancelEntries_reports (cancel : String → CancelAnswer) (report : Order → Report)
    (entries : List (String × Order)) (state : Orders × List Report) :
    (∀ found ∈ (entries.foldl (cancelEntry cancel report) state).2,
        found ∈ state.2 ∨ ∃ info, found = report info) ∧
      ∀ key info, (entries.foldl (cancelEntry cancel report) state).1.get? key = some info →
        state.1.get? key = some info := by
  induction entries generalizing state with
  | nil => exact ⟨fun found hfound => Or.inl hfound, fun key info hget => hget⟩
  | cons entry rest ih =>
    obtain ⟨hreports, horders⟩ := ih (cancelEntry cancel report state entry)
    rw [List.foldl_cons]
    refine ⟨?_, ?_⟩
    · intro found hfound
      rcases hreports found hfound with hbefore | hnew
      · unfold cancelEntry at hbefore
        split at hbefore
        · rcases List.mem_append.mp hbefore with hold | hadded
          · exact Or.inl hold
          · exact Or.inr ⟨entry.2, List.mem_singleton.mp hadded⟩
        · exact Or.inl hbefore
      · exact Or.inr hnew
    · intro key info hget
      have hafter := horders key info hget
      unfold cancelEntry at hafter
      split at hafter
      · unfold popSameTicket at hafter
        dsimp only at hafter
        split at hafter
        · split at hafter
          · rw [Dict.get?_pop] at hafter
            split at hafter
            · cases hafter
            · exact hafter
          · exact hafter
        · exact hafter
      · exact hafter

/-- A row after a pass is the one before or one of its reports. -/
theorem holds_applyPass (desk : Desk) (result : Orders × List Report) (asked : List ℤ)
    {status : Status} {info : Order} (h : (applyPass desk result asked).Holds status info) :
    desk.Holds status info ∨ ∃ report ∈ result.2, reportRow report = ⟨info, status⟩ := by
  unfold Desk.Holds applyPass at h
  rcases OrderTable.row?_writeAll desk.table (result.2.map reportRow) info.ticket with
    ⟨hsame, -⟩ | ⟨row, hrow, -, hlast⟩
  · rw [hsame] at h
    exact Or.inl h
  · obtain ⟨report, hreport, rfl⟩ := List.mem_map.mp hrow
    rw [hlast] at h
    exact Or.inr ⟨report, hreport, Option.some.inj h⟩

/-- A pass drops orders and writes its reports, none of them placed. -/
theorem applyPass_frame (desk : Desk) (result : Orders × List Report) (asked : List ℤ)
    (fills : Order → Prop)
    (hreports : ∀ report ∈ result.2, (reportRow report).status ≠ .placed ∧
      ((reportRow report).status = .filled → fills (reportRow report).info))
    (horders : ∀ key info, result.1.get? key = some info → desk.orders.get? key = some info) :
    Frame fills False desk (applyPass desk result asked) where
  asked := ⟨asked, rfl⟩
  placed := by
    intro info h
    rcases holds_applyPass desk result asked h with hold | ⟨report, hreport, hrow⟩
    · exact hold
    · exact absurd (congrArg Row.status hrow) (hreports report hreport).1
  filled := by
    intro info h
    rcases holds_applyPass desk result asked h with hold | ⟨report, hreport, hrow⟩
    · exact Or.inl hold
    · have hfills := (hreports report hreport).2 (congrArg Row.status hrow)
      rw [hrow] at hfills
      exact Or.inr hfills
  tracked := by
    intro ticket h
    obtain ⟨key, info, hget, hticket⟩ := h
    exact Or.inl ⟨key, info, horders key info hget, hticket⟩

/-- An order of the map that this pass finds filled. -/
def PassFilled (desk : Desk) (inspect : String → Inspection) (fill : Order) : Prop :=
  ∃ key, desk.orders.get? key = some fill ∧ inspect key = .filled

theorem foundReport_row (inspect : String → Inspection) (entry : String × Order)
    (report : Report) (h : foundReport inspect entry = some report) :
    (reportRow report).info = entry.2 ∧
      ((reportRow report).status = .filled ∧ inspect entry.1 = .filled ∨
        (reportRow report).status = .missing) := by
  unfold foundReport at h
  split at h
  · rename_i hinspect
    cases Option.some.inj h
    exact ⟨rfl, Or.inl ⟨rfl, hinspect⟩⟩
  · cases Option.some.inj h
    exact ⟨rfl, Or.inr rfl⟩
  · cases h
  · cases h

theorem statePass_frame (desk : Desk) (inspect : String → Inspection) :
    Frame (PassFilled desk inspect) False desk
      (applyPass desk (checkMt5OrderState inspect desk.orders) []) := by
  obtain ⟨hreports, horders⟩ := checkMt5OrderState_eq inspect desk.orders
  refine applyPass_frame desk _ [] _ ?_ horders
  intro report hreport
  rw [hreports] at hreport
  obtain ⟨entry, hentry, hfound⟩ := List.mem_filterMap.mp hreport
  obtain ⟨hinfo, hstatus⟩ := foundReport_row inspect entry report hfound
  refine ⟨?_, ?_⟩
  · rcases hstatus with ⟨hfilled, -⟩ | hmissing
    · rw [hfilled]
      decide
    · rw [hmissing]
      decide
  · intro hfilled
    rcases hstatus with ⟨-, hinspect⟩ | hmissing
    · rw [hinfo]
      exact ⟨entry.1, (Dict.mem_items_iff_get? _ _ _).mp hentry, hinspect⟩
    · rw [hmissing] at hfilled
      cases hfilled

/-- The row of an order the pass reports ends filled or missing. -/
theorem statePass_reported (desk : Desk) (inspect : String → Inspection) (key : String)
    (info : Order) (hget : desk.orders.get? key = some info)
    (hreports : (inspect key).reports = true) :
    (applyPass desk (checkMt5OrderState inspect desk.orders) []).status? info.ticket =
        some .filled ∨
      (applyPass desk (checkMt5OrderState inspect desk.orders) []).status? info.ticket =
        some .missing := by
  have hmem : (key, info) ∈ desk.orders.items := (Dict.mem_items_iff_get? _ _ _).mpr hget
  obtain ⟨report, hreport⟩ : ∃ report, foundReport inspect (key, info) = some report := by
    unfold foundReport
    dsimp only
    cases hinspect : inspect key <;> simp_all [Inspection.reports]
  have hrow : reportRow report ∈
      (checkMt5OrderState inspect desk.orders).2.map reportRow := by
    rw [(checkMt5OrderState_eq inspect desk.orders).1]
    exact List.mem_map.mpr ⟨report, List.mem_filterMap.mpr ⟨_, hmem, hreport⟩, rfl⟩
  have hticket : (reportRow report).info.ticket = info.ticket :=
    congrArg Order.ticket (foundReport_row inspect _ report hreport).1
  unfold Desk.status? applyPass
  dsimp only
  rcases OrderTable.row?_writeAll desk.table
      ((checkMt5OrderState inspect desk.orders).2.map reportRow) info.ticket with
    ⟨-, hnone⟩ | ⟨row, hlast, -, hwritten⟩
  · exact absurd hticket (hnone _ hrow)
  · rw [(checkMt5OrderState_eq inspect desk.orders).1] at hlast
    obtain ⟨found, hfound, rfl⟩ := List.mem_map.mp hlast
    obtain ⟨_, -, hentry⟩ := List.mem_filterMap.mp hfound
    rw [hwritten, Option.map_some]
    rcases (foundReport_row inspect _ found hentry).2 with ⟨hfilled, -⟩ | hmissing
    · exact Or.inl (congrArg some hfilled)
    · exact Or.inr (congrArg some hmissing)

theorem cancelPass_frame (desk : Desk) (cancel : String → CancelAnswer)
    (report : Order → Report) (entries : List (String × Order)) (asked : List ℤ)
    (hreport : ∀ info, (reportRow (report info)).status = .expired ∨
      (reportRow (report info)).status = .cancelled) :
    Frame (fun _ => False) False desk
      (applyPass desk (entries.foldl (cancelEntry cancel report) (desk.orders, [])) asked) := by
  obtain ⟨hreports, horders⟩ :=
    cancelEntries_reports cancel report entries (desk.orders, [])
  refine applyPass_frame desk _ asked _ ?_ horders
  intro found hfound
  rcases hreports found hfound with hnone | ⟨info, rfl⟩
  · cases hnone
  · rcases hreport info with hstatus | hstatus
    · rw [hstatus]
      exact ⟨by decide, by decide⟩
    · rw [hstatus]
      exact ⟨by decide, by decide⟩

/-- A step that tracks nothing new keeps the rule if every new fill finds its placed
and tracked siblings asked for. -/
theorem oco_of_frame (fills : Order → Prop) (s t : Desk) (hoco : Oco s)
    (hframe : Frame fills False s t)
    (hfills : ∀ info fill, fills fill → s.Tracked info.ticket → s.Holds .placed info →
      t.Holds .placed info → Siblings info fill → info.ticket ∈ t.asked) : Oco t := by
  intro info fill htracked hplaced hfilled hsiblings
  have hbefore : s.Tracked info.ticket :=
    (hframe.tracked _ htracked).elim (fun h => h) False.elim
  have hplacedBefore := hframe.placed info hplaced
  rcases hframe.filled fill hfilled with hold | hnew
  · exact hframe.mem_asked (hoco info fill hbefore hplacedBefore hold hsiblings)
  · exact hfills info fill hnew hbefore hplacedBefore hplaced hsiblings

theorem track_oco (desk : Desk) (info : Order) (hoco : Oco desk)
    (hfree : ∀ fill, desk.Holds .filled fill → ¬ Siblings info fill) :
    Oco (trackOrder desk info) := by
  unfold trackOrder
  split
  · exact hoco
  · rename_i hnew
    have hrows : ∀ status other, Desk.Holds (Desk.mark
        { desk with orders := trackMt5Order desk.orders info } .placed info) status other →
        (other = info ∧ status = .placed) ∨
          (other.ticket ≠ info.ticket ∧ desk.Holds status other) := by
      intro status other h
      unfold Desk.Holds Desk.mark at h
      rw [OrderTable.row?_write] at h
      split at h
      · obtain ⟨rfl, rfl⟩ := Row.mk.inj (Option.some.inj h)
        exact Or.inl ⟨rfl, rfl⟩
      · rename_i hne
        exact Or.inr ⟨hne, h⟩
    intro other fill htracked hplaced hfilled hsiblings
    obtain ⟨-, hfilledBefore⟩ : fill.ticket ≠ info.ticket ∧ desk.Holds .filled fill := by
      rcases hrows .filled fill hfilled with ⟨-, hstatus⟩ | hbefore
      · cases hstatus
      · exact hbefore
    rcases hrows .placed other hplaced with ⟨rfl, -⟩ | ⟨hne, hplacedBefore⟩
    · exact absurd hsiblings (hfree fill hfilledBefore)
    · have hbefore : desk.Tracked other.ticket := by
        obtain ⟨key, found, hget, hticket⟩ := htracked
        simp only [Desk.mark, trackMt5Order, hnew, if_false, Bool.false_eq_true] at hget
        rw [Dict.get?_set] at hget
        split at hget
        · cases Option.some.inj hget
          exact absurd hticket.symm hne
        · exact ⟨key, found, hget, hticket⟩
      exact hoco other fill hbefore hplacedBefore hfilledBefore hsiblings

theorem status?_of_holds (desk : Desk) (status : Status) (info : Order)
    (h : desk.Holds status info) : desk.status? info.ticket = some status := by
  unfold Desk.Holds at h
  unfold Desk.status?
  rw [h]
  rfl

/-- No sibling of a fill the pass finds is left placed. -/
theorem statePass_settles (desk : Desk) (inspect : String → Inspection)
    (hhandled : PassHandled desk inspect) (info fill : Order)
    (hfill : PassFilled desk inspect fill) (hplaced : desk.Holds .placed info)
    (hsiblings : Siblings info fill) :
    (applyPass desk (checkMt5OrderState inspect desk.orders) []).status? info.ticket =
        some .filled ∨
      (applyPass desk (checkMt5OrderState inspect desk.orders) []).status? info.ticket =
        some .missing := by
  obtain ⟨key, hget, hinspect⟩ := hfill
  obtain ⟨other, found, hother, hticket, hreports⟩ :=
    hhandled key fill hget hinspect info hplaced hsiblings
  rw [← hticket]
  exact statePass_reported desk inspect other found hother hreports

theorem statePass_oco (desk : Desk) (inspect : String → Inspection) (hoco : Oco desk)
    (hhandled : PassHandled desk inspect) :
    Oco (applyPass desk (checkMt5OrderState inspect desk.orders) []) := by
  refine oco_of_frame _ desk _ hoco (statePass_frame desk inspect) ?_
  intro info fill hfill _ hbefore hafter hsiblings
  have hstill := status?_of_holds _ _ _ hafter
  rcases statePass_settles desk inspect hhandled info fill hfill hbefore hsiblings with
    hgone | hgone
  · rw [hstill] at hgone
    cases hgone
  · rw [hstill] at hgone
    cases hgone

theorem restore_oco (env : Restart) (desk : Desk) (hoco : Oco desk)
    (hhandled : RestoreHandled desk env) : Oco (restorePendingOrders env desk) := by
  cases hlive : env.live with
  | none =>
    unfold restorePendingOrders
    rw [hlive]
    exact hoco
  | some orders =>
    intro info fill _ hplaced hfilled hsiblings
    have hbefore := (restore_frame env desk orders hlive).placed info hplaced
    have hstill := status?_of_holds _ _ _ hplaced
    rcases restore_answers env desk orders hhandled hlive info fill hbefore hsiblings
        (Or.inr hfilled) with ⟨new, hasked, hmem⟩ | hgone | hgone
    · rw [hasked]
      exact List.mem_append_right _ hmem
    · rw [hstill] at hgone
      cases hgone
    · rw [hstill] at hgone
      cases hgone

theorem step_oco (desk : Desk) (a : Act) (next : Desk) (hoco : Oco desk)
    (hhandled : Handled desk a) (hstep : step desk a = some next) : Oco next := by
  cases a with
  | submitMember sub answer =>
    simp only [step, Option.ite_none_right_eq_some] at hstep
    obtain ⟨-, hanswer⟩ := hstep
    cases answer with
    | none =>
      cases Option.some.inj hanswer
      exact hoco
    | some ticket =>
      cases Option.some.inj hanswer
      exact track_oco desk _ hoco (hhandled ticket rfl)
  | statePass inspect =>
    cases Option.some.inj hstep
    exact statePass_oco desk inspect hoco hhandled
  | expiryPass now cancel =>
    cases Option.some.inj hstep
    exact oco_of_frame _ desk _ hoco
      (cancelPass_frame desk cancel .expired _ _ fun _ => Or.inl rfl) fun _ _ h => h.elim
  | cancelBySymbol symbol excludeDirection cancel =>
    cases Option.some.inj hstep
    exact oco_of_frame _ desk _ hoco
      (cancelPass_frame desk cancel .cancelled _ _ fun _ => Or.inr rfl) fun _ _ h => h.elim
  | positionTracked ticket =>
    simp only [step] at hstep
    cases hrow : desk.table.row? ticket with
    | none => simp [hrow] at hstep
    | some row =>
      simp only [hrow, Option.ite_none_right_eq_some, Option.some.injEq] at hstep
      obtain ⟨-, rfl⟩ := hstep
      refine oco_of_frame (fun fill => fill = row.info) desk _ hoco
        (frame_mark desk .filled row.info _ _ (by decide) fun _ => rfl) ?_
      intro info fill hfill htracked hplaced _ hsiblings
      subst hfill
      exact hhandled row hrow info hplaced htracked hsiblings
  | restart =>
    cases Option.some.inj hstep
    intro info fill htracked
    obtain ⟨key, found, hget, -⟩ := htracked
    cases hget
  | restore env =>
    cases Option.some.inj hstep
    exact restore_oco env desk hoco hhandled

theorem step_cancelsSiblings (desk : Desk) (a : Act) (next : Desk)
    (hhandled : Handled desk a) (hstep : step desk a = some next) :
    CancelsSiblings desk a next := by
  intro info fill hfinds hplaced hsiblings hnotFilled hnotMissing
  cases a with
  | statePass inspect =>
    cases Option.some.inj hstep
    obtain ⟨hafter, hbefore⟩ := hfinds
    have hfill : PassFilled desk inspect fill :=
      ((statePass_frame desk inspect).filled fill hafter).resolve_left hbefore
    rcases statePass_settles desk inspect hhandled info fill hfill hplaced hsiblings with
      hgone | hgone
    · exact absurd hgone hnotFilled
    · exact absurd hgone hnotMissing
  | restore env =>
    cases Option.some.inj hstep
    obtain ⟨hanswered, hfilled⟩ := hfinds
    obtain ⟨orders, hlive⟩ := Option.ne_none_iff_exists'.mp hanswered
    rcases restore_answers env desk orders hhandled hlive info fill hplaced hsiblings
        hfilled with hasked | hgone | hgone
    · exact hasked
    · exact absurd hgone hnotFilled
    · exact absurd hgone hnotMissing
  | _ => exact hfinds.elim

/-- In every run whose steps meet the condition, no tracked and placed order has a
filled sibling without a cancellation, and every further pass or restore that meets
it asks for the siblings of the fills it finds. -/
theorem fills_cancel_siblings (table : OrderTable) (labels : List Act) (desk : Desk)
    (halong : Along step Handled (start table) labels)
    (hrun : run step (start table) labels = some desk) :
    Oco desk ∧ ∀ a next, Handled desk a → step desk a = some next →
      CancelsSiblings desk a next := by
  refine ⟨?_, fun a next => step_cancelsSiblings desk a next⟩
  have hinitial : Oco (start table) := by
    intro info fill htracked
    obtain ⟨key, found, hget, -⟩ := htracked
    cases hget
  exact run_invariant_along step_oco hinitial halong hrun

def sampleMember (ticket : ℤ) (memberId : String) : Order :=
  ⟨ticket, "sig#" ++ memberId, "XAUUSD", "buy", 100, some "grp"⟩

def sampleTable : OrderTable :=
  OrderTable.writeAll ⟨Dict.empty, nofun⟩
    [⟨sampleMember 1 "limit", .filled⟩, ⟨sampleMember 2 "stop", .placed⟩]

def sampleRestart : Restart where
  now := 50
  missingAction := .markMissing
  orphanAction := .recordOnly
  live := some [sampleMember 2 "stop"]
  cancel := fun _ => .falsy
  inspect := fun _ => .pending

/-- A restore that reads a stored fill asks for the sibling the broker still lists. -/
theorem fills_cancel_siblings_restored :
    ∃ desk, run step (start sampleTable) [.restore sampleRestart] = some desk ∧ Oco desk ∧
      AskedBetween (start sampleTable) desk 2 := by
  have hrows : ∀ status info, (start sampleTable).Holds status info →
      info = sampleMember 1 "limit" ∧ status = .filled ∨
        info = sampleMember 2 "stop" ∧ status = .placed := by
    intro status info h
    have hmem := (mem_values_iff sampleTable ⟨info, status⟩).mpr h
    have hvalues : sampleTable.rows.values =
      [⟨sampleMember 1 "limit", .filled⟩, ⟨sampleMember 2 "stop", .placed⟩] := rfl
    rw [hvalues] at hmem
    simpa using hmem
  have hplaced : ∀ info, (start sampleTable).Holds .placed info →
      info = sampleMember 2 "stop" := by
    intro info h
    rcases hrows .placed info h with ⟨-, hstatus⟩ | ⟨hinfo, -⟩
    · cases hstatus
    · exact hinfo
  have hhandled : Handled (start sampleTable) (.restore sampleRestart) := by
    intro orders horders info fill hinfo hsiblings
    cases Option.some.inj horders
    obtain rfl := hplaced info hinfo
    refine ⟨?_, ?_⟩
    · intro _
      refine ⟨⟨⟨by decide, by decide⟩, ?_⟩, by decide⟩
      intro other hother hgone
      obtain rfl := hplaced other hother
      cases hgone
    · intro hinspected
      obtain rfl := hplaced fill hinspected.1
      exact absurd rfl hsiblings.1
  obtain ⟨desk, hstep⟩ : ∃ desk, step (start sampleTable) (.restore sampleRestart) =
    some desk := ⟨_, rfl⟩
  have hrun : run step (start sampleTable) [.restore sampleRestart] = some desk := by
    simp only [run, hstep, Option.bind_some]
  refine ⟨desk, hrun, ?_, ?_⟩
  · have halong : Along step Handled (start sampleTable) [.restore sampleRestart] :=
      ⟨hhandled, fun _ _ => trivial⟩
    exact (fills_cancel_siblings sampleTable _ desk halong hrun).1
  · have hfinds : FindsFill (start sampleTable) (.restore sampleRestart) desk
        (sampleMember 1 "limit") := ⟨by decide, Or.inl rfl⟩
    have hcancels := (fills_cancel_siblings sampleTable [] _ trivial rfl).2 _ desk hhandled hstep
    have hstatus : desk.status? 2 = some .cancelled := by
      cases Option.some.inj hstep
      rfl
    apply hcancels (sampleMember 2 "stop") _ hfinds rfl ⟨by decide, "grp", rfl, rfl⟩
    · intro hfilled
      cases hstatus.symm.trans hfilled
    · intro hmissing
      cases hstatus.symm.trans hmissing

def sampleGroup : EntrySpecGroup := ⟨"grp", ["limit", "stop"], nofun, by decide⟩

def sampleSubmission (memberId : String) : Submission :=
  ⟨"sig", sampleGroup, memberId, "XAUUSD", "buy", 100⟩

/-- Two members are placed and a pass finds the first filled: the second stays
tracked and placed, and nothing was ever asked of the broker. -/
theorem state_pass_leaves_sibling :
    ∃ table labels desk, run step (start table) labels = some desk ∧ ¬ Oco desk := by
  refine ⟨⟨Dict.empty, nofun⟩, [.submitMember (sampleSubmission "limit") (some 1),
    .submitMember (sampleSubmission "stop") (some 2),
    .statePass fun key => if key = "sig#limit" then .filled else .pending], _, rfl, ?_⟩
  intro hoco
  have hasked := hoco (sampleMember 2 "stop") (sampleMember 1 "limit")
    ⟨"sig#stop", _, rfl, rfl⟩ rfl rfl ⟨by decide, "grp", rfl, rfl⟩
  cases hasked

end MT5Services.OcoBroker
