import MT5Services.Runs
import MT5Services.SignalQueues
import Mathlib.Algebra.Order.Ring.Rat
import Mathlib.Tactic.Linarith

/-!
The forecast of an economic event's impact that goes into the metadata of a confirmed
evaluation. One slot with an expiry in bar time is kept for all symbols. What a symbol is
given is held against the run of its own calls alone: the two runs go side by side, and a
schedule of calls says when the slot is the same in both, whatever the calendar answers.
-/
namespace MT5Services.EventForecast

open Runs
open SignalQueues (Scope)

/-- A call of `evaluate_strategies`, as far as the forecast goes; `raises` says that an
exception that is not handled leaves the calendar or the analyzer if they are asked. -/
structure Call where
  symbol : String
  scope : Scope
  eventTime : ℚ
  raises : Bool := false
  deriving DecidableEq, Repr

/-- What asking for the upcoming events of high impact gives: a service is missing, an
exception that is handled, or the names of the events. -/
inductive CalendarAnswer
  | unavailable
  | degraded
  | events (names : List String)
  deriving DecidableEq, Repr

/-- `_event_impact_cache`. -/
structure Slot (F : Type) where
  data : Option F
  expiresAt : ℚ
  deriving DecidableEq, Repr

variable {F : Type}

/-- At construction the slot is empty and expires at once. -/
def start (constructed : ℚ) : Slot F := ⟨none, constructed⟩

/-- The data for a new slot. -/
def freshData (getImpactForecast : String → String → Option F) (symbol : String) :
    CalendarAnswer → Option F
  | .unavailable | .degraded => none
  | .events names => names.head?.bind fun name => getImpactForecast name symbol

/-- The forecast, `none` in the outer option for an exception, and the slot afterwards. -/
def resolveEventImpactForecast (getImpactForecast : String → String → Option F) (slot : Slot F)
    (call : Call) (answer : CalendarAnswer) : Option (Option F) × Slot F :=
  if call.scope ≠ .confirmed then (some none, slot)
  else if call.eventTime < slot.expiresAt then (some slot.data, slot)
  else if call.raises then (none, slot)
  else
    let data := freshData getImpactForecast call.symbol answer
    (some data, ⟨data, call.eventTime + 300⟩)

/-- A call with what the calendar would answer to it. -/
abbrev Answered := Call × CalendarAnswer

/-- The forecasts of the calls in their order. -/
def forecasts (f : String → String → Option F) : Slot F → List Answered →
    List (String × Option (Option F))
  | _, [] => []
  | slot, call :: rest =>
    let result := resolveEventImpactForecast f slot call.1 call.2
    (call.1.symbol, result.1) :: forecasts f result.2 rest

/-- The slot after the calls. -/
def slotAfter (f : String → String → Option F) (slot : Slot F) (calls : List Answered) : Slot F :=
  calls.foldl (fun slot call => (resolveEventImpactForecast f slot call.1 call.2).2) slot

def ownCalls (symbol : String) (calls : List Answered) : List Answered :=
  calls.filter fun call => call.1.symbol = symbol

/-- The forecasts that the symbol is given. -/
def given (symbol : String) (list : List (String × Option (Option F))) :
    List (Option (Option F)) :=
  (list.filter fun item => item.1 = symbol).map Prod.snd

/-- Whatever the calendar answers and the analyzer computes, the symbol is given what its
own calls alone would give it, and so nothing that was computed for another symbol. -/
structure Isolated (symbol : String) (constructed : ℚ) (calls : List Call) : Prop where
  same : ∀ (F : Type) (f : String → String → Option F) (answered : List Answered),
    answered.map Prod.fst = calls →
      given symbol (forecasts f (start constructed) answered) =
        given symbol (forecasts f (start constructed) (ownCalls symbol answered))
  own : ∀ (F : Type) (f : String → String → Option F) (answered : List Answered),
    answered.map Prod.fst = calls →
      ∀ data, some (some data) ∈ given symbol (forecasts f (start constructed) answered) →
        ∃ name, f name symbol = some data

/-- The expiry of the slot, the expiry that the symbol's own calls alone would have left,
and whether another symbol has written the slot since the symbol last did. -/
structure Track where
  shared : ℚ
  alone : ℚ
  foreign : Bool
  deriving DecidableEq, Repr

def renew (call : Call) (expiresAt : ℚ) : ℚ :=
  if call.eventTime < expiresAt ∨ call.raises then expiresAt else call.eventTime + 300

def track (symbol : String) (t : Track) (call : Call) : Option Track :=
  if call.scope ≠ .confirmed then some t
  else if call.symbol = symbol then
    some
      { shared := renew call t.shared
        alone := renew call t.alone
        foreign := t.foreign && call.raises }
  else
    some
      { t with
        shared := renew call t.shared
        foreign := t.foreign || !(call.eventTime < t.shared ∨ call.raises) }

/-- A confirmed call of the symbol finds a slot that no other symbol has written since its
own last write, or one that has expired, and its own would have expired too. -/
def Undisturbed (symbol : String) (t : Track) (call : Call) : Prop :=
  call.scope = .confirmed → call.symbol = symbol → t.foreign = true →
    t.shared ≤ call.eventTime ∧ t.alone ≤ call.eventTime

instance (symbol : String) (t : Track) : DecidablePred (Undisturbed symbol t) := fun call =>
  inferInstanceAs (Decidable (call.scope = .confirmed → call.symbol = symbol → t.foreign = true →
    t.shared ≤ call.eventTime ∧ t.alone ≤ call.eventTime))

theorem forecasts_append (f : String → String → Option F) (slot : Slot F)
    (front back : List Answered) :
    forecasts f slot (front ++ back) =
      forecasts f slot front ++ forecasts f (slotAfter f slot front) back := by
  induction front generalizing slot with
  | nil => rfl
  | cons call rest ih =>
    rw [List.cons_append, forecasts, ih]
    rfl

theorem given_append (symbol : String) (front back : List (String × Option (Option F))) :
    given symbol (front ++ back) = given symbol front ++ given symbol back := by
  unfold given
  rw [List.filter_append, List.map_append]

theorem ownCalls_append (symbol : String) (front back : List Answered) :
    ownCalls symbol (front ++ back) = ownCalls symbol front ++ ownCalls symbol back := by
  unfold ownCalls
  rw [List.filter_append]

theorem length_given (symbol : String) (f : String → String → Option F) (slot : Slot F)
    (calls : List Answered) :
    (given symbol (forecasts f slot calls)).length = (ownCalls symbol calls).length := by
  unfold given ownCalls
  rw [List.length_map, ← List.countP_eq_length_filter, ← List.countP_eq_length_filter]
  induction calls generalizing slot with
  | nil => rfl
  | cons call rest ih =>
    rw [forecasts, List.countP_cons, List.countP_cons, ih]

theorem ownCalls_ownCalls (symbol : String) (calls : List Answered) :
    ownCalls symbol (ownCalls symbol calls) = ownCalls symbol calls := by
  unfold ownCalls
  rw [List.filter_filter]
  simp only [Bool.and_self]

section Resolve

variable (f : String → String → Option F) (slot : Slot F) {call : Call} (answer : CalendarAnswer)

theorem resolve_of_other_scope (hscope : call.scope ≠ .confirmed) :
    resolveEventImpactForecast f slot call answer = (some none, slot) :=
  if_pos hscope

theorem resolve_of_fresh (hscope : call.scope = .confirmed)
    (hfresh : call.eventTime < slot.expiresAt) :
    resolveEventImpactForecast f slot call answer = (some slot.data, slot) := by
  unfold resolveEventImpactForecast
  rw [if_neg (not_not.mpr hscope), if_pos hfresh]

theorem resolve_of_raises (hscope : call.scope = .confirmed)
    (hexpired : slot.expiresAt ≤ call.eventTime) (hraises : call.raises = true) :
    resolveEventImpactForecast f slot call answer = (none, slot) := by
  unfold resolveEventImpactForecast
  rw [if_neg (not_not.mpr hscope), if_neg (not_lt.mpr hexpired), if_pos hraises]

theorem resolve_of_asks (hscope : call.scope = .confirmed)
    (hexpired : slot.expiresAt ≤ call.eventTime) (hraises : call.raises = false) :
    resolveEventImpactForecast f slot call answer =
      (some (freshData f call.symbol answer),
        ⟨freshData f call.symbol answer, call.eventTime + 300⟩) := by
  unfold resolveEventImpactForecast
  rw [if_neg (not_not.mpr hscope), if_neg (not_lt.mpr hexpired), if_neg (by simp [hraises])]

theorem expiresAt_resolve (hscope : call.scope = .confirmed) :
    (resolveEventImpactForecast f slot call answer).2.expiresAt = renew call slot.expiresAt := by
  unfold renew
  rcases lt_or_ge call.eventTime slot.expiresAt with hfresh | hexpired
  · rw [resolve_of_fresh f slot answer hscope hfresh, if_pos (.inl hfresh)]
  · cases hraises : call.raises with
    | true => rw [resolve_of_raises f slot answer hscope hexpired hraises, if_pos (.inr rfl)]
    | false =>
      rw [resolve_of_asks f slot answer hscope hexpired hraises, if_neg]
      rintro (hfresh | hraised)
      · exact absurd hfresh (not_lt.mpr hexpired)
      · cases hraised

end Resolve

/-- The two slots as the track has them: the same unless another symbol wrote last. -/
structure Tracked (t : Track) (slot own : Slot F) : Prop where
  shared : slot.expiresAt = t.shared
  alone : own.expiresAt = t.alone
  same : t.foreign = false → slot = own

variable {symbol : String} {t u : Track} {call : Call}

theorem Tracked.own {slot own : Slot F} (h : Tracked t slot own)
    (f : String → String → Option F) (answer : CalendarAnswer)
    (hsymbol : call.symbol = symbol) (hguard : Undisturbed symbol t call)
    (hstep : track symbol t call = some u) : (resolveEventImpactForecast f slot call answer).1 =
        (resolveEventImpactForecast f own call answer).1 ∧
      Tracked u (resolveEventImpactForecast f slot call answer).2
        (resolveEventImpactForecast f own call answer).2 := by
  by_cases hscope : call.scope = .confirmed
  · rw [track, if_neg (not_not.mpr hscope), if_pos hsymbol] at hstep
    cases Option.some.inj hstep
    have hexpiry : (resolveEventImpactForecast f slot call answer).2.expiresAt =
        renew call t.shared ∧ (resolveEventImpactForecast f own call answer).2.expiresAt =
        renew call t.alone := by
      rw [expiresAt_resolve f slot answer hscope, expiresAt_resolve f own answer hscope, h.shared,
        h.alone]
      exact ⟨rfl, rfl⟩
    cases hforeign : t.foreign with
    | false =>
      rw [h.same hforeign] at hexpiry ⊢
      exact ⟨rfl, hexpiry.1, hexpiry.2, fun _ => rfl⟩
    | true =>
      obtain ⟨hshared, halone⟩ := hguard hscope hsymbol hforeign
      rw [← h.shared] at hshared
      rw [← h.alone] at halone
      cases hraises : call.raises with
      | true =>
        refine ⟨?_, hexpiry.1, hexpiry.2, ?_⟩
        · rw [resolve_of_raises f slot answer hscope hshared hraises,
            resolve_of_raises f own answer hscope halone hraises]
        · intro hfalse
          cases hfalse
      | false =>
        have hsame : resolveEventImpactForecast f slot call answer =
            resolveEventImpactForecast f own call answer := by
          rw [resolve_of_asks f slot answer hscope hshared hraises,
            resolve_of_asks f own answer hscope halone hraises]
        rw [hsame] at hexpiry ⊢
        exact ⟨rfl, hexpiry.1, hexpiry.2, fun _ => rfl⟩
  · rw [track, if_pos hscope] at hstep
    cases Option.some.inj hstep
    rw [resolve_of_other_scope f slot answer hscope, resolve_of_other_scope f own answer hscope]
    exact ⟨rfl, h⟩

theorem Tracked.other {slot own : Slot F} (h : Tracked t slot own)
    (f : String → String → Option F) (answer : CalendarAnswer)
    (hsymbol : call.symbol ≠ symbol) (hstep : track symbol t call = some u) :
    Tracked u (resolveEventImpactForecast f slot call answer).2 own := by
  by_cases hscope : call.scope = .confirmed
  · rw [track, if_neg (not_not.mpr hscope), if_neg hsymbol] at hstep
    cases Option.some.inj hstep
    refine ⟨?_, h.alone, ?_⟩
    · rw [expiresAt_resolve f slot answer hscope, h.shared]
    · intro hforeign
      rw [Bool.or_eq_false_iff, Bool.not_eq_false', decide_eq_true_iff] at hforeign
      rw [← h.same hforeign.1]
      rcases hforeign.2 with hfresh | hraises
      · rw [← h.shared] at hfresh
        rw [resolve_of_fresh f slot answer hscope hfresh]
      · rcases lt_or_ge call.eventTime slot.expiresAt with hfresh | hexpired
        · rw [resolve_of_fresh f slot answer hscope hfresh]
        · rw [resolve_of_raises f slot answer hscope hexpired hraises]
  · rw [track, if_pos hscope] at hstep
    cases Option.some.inj hstep
    rw [resolve_of_other_scope f slot answer hscope]
    exact h

theorem ownCalls_cons_own (call : Answered) (hsymbol : call.1.symbol = symbol)
    (rest : List Answered) : ownCalls symbol (call :: rest) = call :: ownCalls symbol rest :=
  List.filter_cons_of_pos (decide_eq_true hsymbol)

theorem ownCalls_cons_other (call : Answered)
    (hsymbol : call.1.symbol ≠ symbol) (rest : List Answered) :
    ownCalls symbol (call :: rest) = ownCalls symbol rest := by
  apply List.filter_cons_of_neg
  rw [decide_eq_true_eq]
  exact hsymbol

theorem given_cons (symbol : String) (item : String × Option (Option F))
    (rest : List (String × Option (Option F))) :
    given symbol (item :: rest) =
      if item.1 = symbol then item.2 :: given symbol rest else given symbol rest := by
  unfold given
  rw [List.filter_cons]
  split_ifs with hdec hsymbol hsymbol
  · rfl
  · exact absurd (of_decide_eq_true hdec) hsymbol
  · exact absurd (decide_eq_true hsymbol) hdec
  · rfl

theorem track_isSome (symbol : String) (t : Track) (call : Call) :
    ∃ u, track symbol t call = some u := by
  unfold track
  split_ifs
  · exact ⟨_, rfl⟩
  · exact ⟨_, rfl⟩
  · exact ⟨_, rfl⟩

/-- Along an undisturbed schedule the symbol is given the same in both runs. -/
theorem given_eq_of_along {slot own : Slot F}
    (h : Tracked t slot own) (f : String → String → Option F) (answered : List Answered)
    (halong : Along (track symbol) (Undisturbed symbol) t (answered.map Prod.fst)) :
    given symbol (forecasts f slot answered) =
      given symbol (forecasts f own (ownCalls symbol answered)) := by
  induction answered generalizing t slot own with
  | nil => rfl
  | cons call rest ih =>
    obtain ⟨hguard, hrest⟩ := halong
    obtain ⟨u, hu⟩ := track_isSome symbol t call.1
    by_cases hsymbol : call.1.symbol = symbol
    · obtain ⟨hsame, htracked⟩ := h.own f call.2 hsymbol hguard hu
      rw [ownCalls_cons_own call hsymbol, forecasts, forecasts, given_cons, given_cons,
        if_pos hsymbol, if_pos hsymbol, ih htracked (hrest u hu), hsame]
    · rw [ownCalls_cons_other call hsymbol, forecasts, given_cons, if_neg hsymbol]
      exact ih (h.other f call.2 hsymbol hu) (hrest u hu)

/-- Two undisturbed runs with the same calls of the symbol give it the same. -/
theorem given_eq_of_ownCalls_eq {symbol : String} (constructed : ℚ)
    (f : String → String → Option F) {answered other : List Answered}
    (hsame : ownCalls symbol answered = ownCalls symbol other)
    (halong : Along (track symbol) (Undisturbed symbol) ⟨constructed, constructed, false⟩
      (answered.map Prod.fst))
    (hother : Along (track symbol) (Undisturbed symbol) ⟨constructed, constructed, false⟩
      (other.map Prod.fst)) :
    given symbol (forecasts f (start constructed) answered) =
      given symbol (forecasts f (start constructed) other) := by
  have hstart : Tracked ⟨constructed, constructed, false⟩ (start constructed : Slot F)
      (start constructed) := ⟨rfl, rfl, fun _ => rfl⟩
  rw [given_eq_of_along hstart f answered halong, given_eq_of_along hstart f other hother, hsame]

theorem data_resolve {f : String → String → Option F} {slot : Slot F} (call : Call)
    (hslot : ∀ data, slot.data = some data → ∃ name, f name call.symbol = some data)
    (answer : CalendarAnswer) :
    (∀ data, (resolveEventImpactForecast f slot call answer).1 = some (some data) →
      ∃ name, f name call.symbol = some data) ∧
    ∀ data, (resolveEventImpactForecast f slot call answer).2.data = some data →
      ∃ name, f name call.symbol = some data := by
  have hfresh : ∀ data, freshData f call.symbol answer = some data →
      ∃ name, f name call.symbol = some data := by
    intro data hdata
    cases answer with
    | unavailable => cases hdata
    | degraded => cases hdata
    | events names =>
      obtain ⟨name, -, hname⟩ := Option.bind_eq_some_iff.mp hdata
      exact ⟨name, hname⟩
  by_cases hscope : call.scope = .confirmed
  · rcases lt_or_ge call.eventTime slot.expiresAt with hearly | hexpired
    · rw [resolve_of_fresh f slot answer hscope hearly]
      exact ⟨fun data hdata => hslot data (Option.some.inj hdata), hslot⟩
    · cases hraises : call.raises with
      | true =>
        rw [resolve_of_raises f slot answer hscope hexpired hraises]
        refine ⟨?_, hslot⟩
        intro data hdata
        cases hdata
      | false =>
        rw [resolve_of_asks f slot answer hscope hexpired hraises]
        exact ⟨fun data hdata => hfresh data (Option.some.inj hdata), hfresh⟩
  · rw [resolve_of_other_scope f slot answer hscope]
    refine ⟨?_, hslot⟩
    intro data hdata
    cases hdata

/-- Calls of one symbol alone are given its own forecasts only. -/
theorem own_of_ownCalls {f : String → String → Option F} (calls : List Answered)
    (hcalls : ∀ call ∈ calls, call.1.symbol = symbol) {slot : Slot F}
    (hslot : ∀ data, slot.data = some data → ∃ name, f name symbol = some data) :
    ∀ data, some (some data) ∈ given symbol (forecasts f slot calls) →
      ∃ name, f name symbol = some data := by
  induction calls generalizing slot with
  | nil =>
    intro data hdata
    cases hdata
  | cons call rest ih =>
    have hsymbol := hcalls call List.mem_cons_self
    have hcall := data_resolve call.1 (by rwa [hsymbol]) call.2
    rw [hsymbol] at hcall
    intro data hdata
    rw [forecasts, given_cons, if_pos hsymbol] at hdata
    rcases List.mem_cons.mp hdata with hfirst | hrest
    · exact hcall.1 data hfirst.symm
    · exact ih (fun other hother => hcalls other (List.mem_cons_of_mem call hother)) hcall.2 data
        hrest

/-- An analyzer whose forecast tells the event and the symbol it was computed for. -/
def tellTale (name symbol : String) : Option (String × String) := some (name, symbol)

/-- What the slots hold when the calendar has answered with one event so far. -/
structure Marked (symbol : String) (t : Track) (slot own : Slot (String × String)) : Prop where
  tracked : Tracked t slot own
  foreign : t.foreign = true → ∃ other, other ≠ symbol ∧ slot.data = some ("first", other)
  own : own.data = none ∨ own.data = some ("first", symbol)

def firstAnswer (call : Call) : Answered := (call, .events ["first"])

theorem Marked.ownCall {slot own : Slot (String × String)}
    (h : Marked symbol t slot own) (hsymbol : call.symbol = symbol)
    (hguard : Undisturbed symbol t call) (hstep : track symbol t call = some u) :
    Marked symbol u (resolveEventImpactForecast tellTale slot call (.events ["first"])).2
      (resolveEventImpactForecast tellTale own call (.events ["first"])).2 := by
  have htracked := (h.tracked.own tellTale (.events ["first"]) hsymbol hguard hstep).2
  by_cases hscope : call.scope = .confirmed
  · refine ⟨htracked, ?_, ?_⟩
    · intro hforeign
      rw [track, if_neg (not_not.mpr hscope), if_pos hsymbol] at hstep
      cases Option.some.inj hstep
      obtain ⟨hbefore, hraises⟩ := Bool.and_eq_true_iff.mp hforeign
      have hshared := (hguard hscope hsymbol hbefore).1
      rw [← h.tracked.shared] at hshared
      rw [resolve_of_raises tellTale slot _ hscope hshared hraises]
      exact h.foreign hbefore
    · rcases lt_or_ge call.eventTime own.expiresAt with hearly | hexpired
      · rw [resolve_of_fresh tellTale own _ hscope hearly]
        exact h.own
      · cases hraises : call.raises with
        | true =>
          rw [resolve_of_raises tellTale own _ hscope hexpired hraises]
          exact h.own
        | false =>
          rw [resolve_of_asks tellTale own _ hscope hexpired hraises, hsymbol]
          exact .inr rfl
  · rw [track, if_pos hscope] at hstep
    cases Option.some.inj hstep
    rw [resolve_of_other_scope tellTale slot _ hscope, resolve_of_other_scope tellTale own _ hscope]
    exact h

theorem Marked.otherCall {slot own : Slot (String × String)}
    (h : Marked symbol t slot own) (hsymbol : call.symbol ≠ symbol)
    (hstep : track symbol t call = some u) :
    Marked symbol u (resolveEventImpactForecast tellTale slot call (.events ["first"])).2 own := by
  refine ⟨h.tracked.other tellTale _ hsymbol hstep, ?_, h.own⟩
  intro hforeign
  by_cases hscope : call.scope = .confirmed
  · rw [track, if_neg (not_not.mpr hscope), if_neg hsymbol] at hstep
    cases Option.some.inj hstep
    rcases lt_or_ge call.eventTime slot.expiresAt with hearly | hexpired
    · have hshared := hearly
      rw [h.tracked.shared] at hshared
      rw [resolve_of_fresh tellTale slot _ hscope hearly]
      apply h.foreign
      simpa only [hshared, true_or, decide_true, Bool.not_true, Bool.or_false] using hforeign
    · cases hraises : call.raises with
      | true =>
        rw [resolve_of_raises tellTale slot _ hscope hexpired hraises]
        apply h.foreign
        simpa only [hraises, or_true, decide_true, Bool.not_true, Bool.or_false] using hforeign
      | false =>
        rw [resolve_of_asks tellTale slot _ hscope hexpired hraises]
        exact ⟨call.symbol, hsymbol, rfl⟩
  · rw [track, if_pos hscope] at hstep
    cases Option.some.inj hstep
    rw [resolve_of_other_scope tellTale slot _ hscope]
    exact h.foreign hforeign

theorem Marked.after (calls : List Call)
    {slot own : Slot (String × String)} (h : Marked symbol t slot own)
    (halong : Along (track symbol) (Undisturbed symbol) t calls)
    (hrun : run (track symbol) t calls = some u) :
    Marked symbol u (slotAfter tellTale slot (calls.map firstAnswer))
      (slotAfter tellTale own (ownCalls symbol (calls.map firstAnswer))) := by
  induction calls generalizing t slot own with
  | nil =>
    cases Option.some.inj hrun
    exact h
  | cons call rest ih =>
    obtain ⟨v, hv, hrest⟩ := run_cons hrun
    rw [List.map_cons]
    by_cases hsymbol : call.symbol = symbol
    · rw [ownCalls_cons_own (firstAnswer call) hsymbol]
      exact ih (h.ownCall hsymbol halong.1 hv) (halong.2 v hv) hrest
    · rw [ownCalls_cons_other (firstAnswer call) hsymbol]
      exact ih (h.otherCall hsymbol hv) (halong.2 v hv) hrest

/-- At a call that is not undisturbed a new event gives the symbol two different things. -/
theorem Marked.differs {slot own : Slot (String × String)}
    (h : Marked symbol t slot own) (hguard : ¬ Undisturbed symbol t call) : call.symbol = symbol ∧
      (resolveEventImpactForecast tellTale slot call (.events ["second"])).1 ≠
        (resolveEventImpactForecast tellTale own call (.events ["second"])).1 := by
  unfold Undisturbed at hguard
  simp only [Classical.not_imp, not_and_or, not_le] at hguard
  obtain ⟨hscope, hsymbol, hforeign, hearly⟩ := hguard
  refine ⟨hsymbol, ?_⟩
  obtain ⟨other, hother, hdata⟩ := h.foreign hforeign
  rw [← h.tracked.shared, ← h.tracked.alone] at hearly
  have hown : own.data ≠ some ("first", other) ∧ own.data ≠ some ("second", symbol) := by
    rcases h.own with hnone | hfirst
    · rw [hnone]
      exact ⟨(Option.some_ne_none _).symm, (Option.some_ne_none _).symm⟩
    · rw [hfirst]
      refine ⟨?_, by simp⟩
      intro heq
      exact hother (Prod.mk.inj (Option.some.inj heq)).2.symm
  have hevents : ("first", other) ≠ ("second", symbol) := by simp
  rcases lt_or_ge call.eventTime slot.expiresAt with hfresh | hexpired
  · rw [resolve_of_fresh tellTale slot _ hscope hfresh, hdata]
    rcases lt_or_ge call.eventTime own.expiresAt with hownFresh | hownExpired
    · rw [resolve_of_fresh tellTale own _ hscope hownFresh]
      intro heq
      exact hown.1 (Option.some.inj heq).symm
    · cases hraises : call.raises with
      | true =>
        rw [resolve_of_raises tellTale own _ hscope hownExpired hraises]
        exact Option.some_ne_none _
      | false =>
        rw [resolve_of_asks tellTale own _ hscope hownExpired hraises, hsymbol]
        intro heq
        exact hevents (Option.some.inj (Option.some.inj heq))
  · have hownFresh := hearly.resolve_left (not_lt.mpr hexpired)
    rw [resolve_of_fresh tellTale own _ hscope hownFresh]
    cases hraises : call.raises with
    | true =>
      rw [resolve_of_raises tellTale slot _ hscope hexpired hraises]
      exact (Option.some_ne_none _).symm
    | false =>
      rw [resolve_of_asks tellTale slot _ hscope hexpired hraises, hsymbol]
      intro heq
      exact hown.2 (Option.some.inj heq).symm

theorem map_fst_map_firstAnswer (calls : List Call) :
    (calls.map firstAnswer).map Prod.fst = calls := by
  rw [List.map_map]
  exact List.map_id calls

/-- Other symbols leave no trace in what a symbol is given exactly when the schedule of the
calls is undisturbed for it. -/
theorem isolated_iff (symbol : String) (constructed : ℚ) (calls : List Call) :
    Isolated symbol constructed calls ↔
      Along (track symbol) (Undisturbed symbol) ⟨constructed, constructed, false⟩ calls := by
  constructor
  · intro h
    by_contra hnot
    obtain ⟨front, call, back, t, rfl, halong, hrun, hbad⟩ := exists_first_of_not_along hnot
    have hstart : Marked symbol ⟨constructed, constructed, false⟩ (start constructed)
        (start constructed) := by
      refine ⟨⟨rfl, rfl, fun _ => rfl⟩, ?_, .inl rfl⟩
      intro hforeign
      cases hforeign
    obtain ⟨hsymbol, hdiffers⟩ := (hstart.after front halong hrun).differs hbad
    -- one event is upcoming before that call and another one at it
    have hsame := h.same (String × String) tellTale
      (front.map firstAnswer ++ (call, .events ["second"]) :: back.map firstAnswer)
      (by rw [List.map_append, List.map_cons, map_fst_map_firstAnswer, map_fst_map_firstAnswer])
    rw [ownCalls_append, ownCalls_cons_own (call, .events ["second"]) hsymbol, forecasts_append,
      forecasts_append, given_append, given_append, forecasts, forecasts, given_cons, given_cons,
      if_pos hsymbol, if_pos hsymbol] at hsame
    have hlength := length_given symbol tellTale (start constructed) (front.map firstAnswer)
    rw [← ownCalls_ownCalls, ← length_given symbol tellTale (start constructed)] at hlength
    obtain ⟨-, htails⟩ := List.append_inj hsame hlength
    exact hdiffers (List.cons.inj htails).1
  · intro halong
    have hsame : ∀ (F : Type) (f : String → String → Option F) (answered : List Answered),
        answered.map Prod.fst = calls →
          given symbol (forecasts f (start constructed) answered) =
            given symbol (forecasts f (start constructed) (ownCalls symbol answered)) := by
      rintro F f answered rfl
      exact given_eq_of_along ⟨rfl, rfl, fun _ => rfl⟩ f answered halong
    refine ⟨hsame, ?_⟩
    intro F f answered hcalls data hdata
    rw [hsame F f answered hcalls] at hdata
    refine own_of_ownCalls _ ?_ ?_ data hdata
    · intro call hcall
      exact of_decide_eq_true (List.mem_filter.mp hcall).2
    · intro other hother
      cases hother

/-- Two symbols at the close of the same bar. -/
theorem not_isolated :
    ¬ ∀ (symbol : String) (constructed : ℚ) (calls : List Call),
      Isolated symbol constructed calls := by
  intro hall
  have hisolated := hall "XAUUSD" 0 [⟨"EURUSD", .confirmed, 300, false⟩,
    ⟨"XAUUSD", .confirmed, 300, false⟩]
  have hsame := hisolated.same (String × String) tellTale
    [(⟨"EURUSD", .confirmed, 300, false⟩, .events ["CPI"]),
      (⟨"XAUUSD", .confirmed, 300, false⟩, .events ["CPI"])] rfl
  revert hsame
  decide +kernel

theorem given_eq_of_ownCalls_eq_between :
    given "XAUUSD" (forecasts tellTale (start 0)
        [firstAnswer ⟨"XAUUSD", .confirmed, 300, false⟩,
          firstAnswer ⟨"EURUSD", .confirmed, 300, false⟩,
          firstAnswer ⟨"XAUUSD", .confirmed, 310, false⟩]) =
      given "XAUUSD" (forecasts tellTale (start 0)
        [firstAnswer ⟨"XAUUSD", .confirmed, 300, false⟩,
          firstAnswer ⟨"XAUUSD", .confirmed, 310, false⟩]) :=
  given_eq_of_ownCalls_eq 0 tellTale (by decide) (by decide +kernel) (by decide)

end MT5Services.EventForecast
