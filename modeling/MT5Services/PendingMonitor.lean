import MT5Services.PendingEntries
import MT5Services.Prefixes
import Mathlib.Data.List.Nodup
import Mathlib.Data.List.Perm.Subperm

/-!
One pass of `check_all_entries` over the pending entries. The pass takes a snapshot and finds its
entries again in the map, the ones it fills under their key and the ones that expire under their
signal id. An entry with a key of its own is not found under its signal id, or another one is
found in its place.
-/
namespace MT5Services.PendingMonitor

open PendingEntries

/-- An entry stands under its own key, and an object under one key only. -/
structure Book extends Manager where
  keyed : ∀ key entry, pending.get? key = some entry → entry.key = key
  single : ∀ key entry other found, pending.get? key = some entry →
    pending.get? other = some found → entry.oid = found.oid → entry = found

/-- What comes from outside in a pass: the clock, the quote each entry finds at its turn, and
whether the queue takes its result, at once or within the time it is waited for. -/
structure Round where
  config : Config
  now : ℤ
  quotes : PendingEntry → Option Quote
  accepts : PendingEntry → Bool

/-- What becomes of an entry: it is in the fill queue, it is taken out and its fill is lost, or
`on_expired_fn` has been called for it. -/
inductive Outcome
  | filled (result : FillResult)
  | lost (entry : PendingEntry)
  | expired (entry : PendingEntry)
  deriving DecidableEq

def Outcome.entry : Outcome → PendingEntry
  | .filled result => result.entry
  | .lost entry => entry
  | .expired entry => entry

structure Pass where
  manager : Manager
  outcomes : List Outcome := []

/-- The values of the map that are pending, in the order of the map. -/
def snapshot (m : Manager) : List PendingEntry :=
  m.pending.values.filter fun entry => entry.oid ∉ m.closed

section Source

variable (round : Round) (pass : Pass) (entry : PendingEntry)

/-- A fill that the queue does not take ends as an expiry under the signal id. -/
def fillEntry (price : ℚ) : Pass :=
  if pass.manager.pending.contains entry.key then
    let taken := removeEntry pass.manager entry.key entry.key entry
    if round.accepts entry then
      { manager := { taken with queue := taken.queue ++ [⟨entry, price⟩] }
        outcomes := pass.outcomes ++ [.filled ⟨entry, price⟩] }
    else
      { manager :=
          { taken with
            pending := taken.pending.pop entry.signalId
            closed := entry.oid :: taken.closed }
        outcomes := pass.outcomes ++ [.lost entry] }
  else pass

def expireEntry : Pass :=
  match (round.quotes entry).filter (withinTolerance round.config entry) with
  | some quote => fillEntry round pass entry (checkPrice entry quote)
  | none =>
    if pass.manager.pending.contains entry.signalId then
      { manager := expirePop pass.manager entry, outcomes := pass.outcomes ++ [.expired entry] }
    else pass

/-- The entry is looked up under its signal id before its price is compared. -/
def checkEntryPrice : Pass :=
  match round.quotes entry with
  | none => pass
  | some quote =>
    if pass.manager.pending.contains entry.signalId ∧ entry.oid ∉ pass.manager.closed ∧
        inZone round.config entry quote then
      fillEntry round pass entry (checkPrice entry quote)
    else pass

def checkEntry : Pass :=
  if entry.expiresAt ≤ round.now then expireEntry round pass entry
  else checkEntryPrice round pass entry

def checkAllEntries (m : Manager) : Pass :=
  (snapshot m).foldl (checkEntry round) { manager := m }

end Source

section Threads

open Runs

/-- The steps that the monitor thread takes in a pass. -/
def ofMonitor : Act → Bool
  | .startPass _ | .checkNext _ | .fill | .enqueue | .overflow => true
  | _ => false

/-- The monitor thread gets from the one state to the other while no other thread acts. -/
def Proceeds (config : Config) (m t : Manager) : Prop :=
  ∃ acts, (∀ a ∈ acts, ofMonitor a = true) ∧ run (step config) m acts = some t

theorem Proceeds.refl (config : Config) (m : Manager) : Proceeds config m m :=
  ⟨[], fun _ h => (nomatch h), rfl⟩

theorem Proceeds.head {config : Config} {m t u : Manager} {a : Act} (ha : ofMonitor a = true)
    (hstep : step config m a = some t) (h : Proceeds config t u) : Proceeds config m u := by
  obtain ⟨acts, hacts, hrun⟩ := h
  refine ⟨a :: acts, List.forall_mem_cons.mpr ⟨ha, hacts⟩, ?_⟩
  rw [run, hstep, Option.bind_some]
  exact hrun

theorem Proceeds.trans {config : Config} {m t u : Manager} (h : Proceeds config m t)
    (hlater : Proceeds config t u) : Proceeds config m u := by
  obtain ⟨acts, hacts, hrun⟩ := h
  obtain ⟨others, hothers, hrest⟩ := hlater
  refine ⟨acts ++ others, List.forall_mem_append.mpr ⟨hacts, hothers⟩, ?_⟩
  rw [run_append, hrun, Option.bind_some]
  exact hrest

variable {round : Round} {pass : Pass} {entry : PendingEntry} (rest : List PendingEntry)

/-- A fill is a run of the monitor thread alone. -/
theorem fillEntry_run (price : ℚ)
    (haccepts : round.accepts entry = decide (pass.manager.queue.length < queueSize)) :
    Proceeds round.config (PendingEntries.fillEntry pass.manager entry price round.now rest)
      { (fillEntry round pass entry price).manager with
        monitor := .scanning round.now rest } := by
  unfold PendingEntries.fillEntry fillEntry
  by_cases hkey : pass.manager.pending.contains entry.key = true
  · rw [if_pos hkey, if_pos hkey]
    by_cases hroom : pass.manager.queue.length < queueSize
    · rw [if_pos (by rw [haccepts]; exact decide_eq_true hroom)]
      refine .head (a := .enqueue) rfl ?_ (.refl _ _)
      simp [step, removeEntry, hroom]
    · rw [if_neg (by rw [haccepts]; simpa using hroom)]
      refine .head (a := .overflow) rfl ?_ (.refl _ _)
      simp [step, removeEntry, not_lt.mp hroom]
  · rw [if_neg hkey, if_neg hkey]
    exact .refl _ _

theorem expirePop_monitor (m : Manager) (before after : Monitor) :
    { expirePop { m with monitor := before } entry with monitor := after } =
      { expirePop m entry with monitor := after } := by
  unfold expirePop
  by_cases hsignal : m.pending.contains entry.signalId = true
  · rw [if_pos hsignal, if_pos hsignal]
  · rw [if_neg hsignal, if_neg hsignal]

theorem expireEntry_run (htime : entry.expiresAt ≤ round.now)
    (haccepts : round.accepts entry = decide (pass.manager.queue.length < queueSize)) :
    Proceeds round.config (PendingEntries.checkEntry round.config
        { pass.manager with monitor := .scanning round.now (entry :: rest) } entry
          (round.quotes entry) round.now rest)
      { (expireEntry round pass entry).manager with monitor := .scanning round.now rest } := by
  unfold PendingEntries.checkEntry expireEntry
  rw [if_pos htime]
  cases hquote : (round.quotes entry).filter (withinTolerance round.config entry) with
  | some quote =>
    obtain ⟨hgiven, hwithin⟩ := Option.filter_eq_some_iff.mp hquote
    rw [hgiven]
    dsimp only
    rw [if_pos hwithin]
    exact fillEntry_run rest (checkPrice entry quote) haccepts
  | none =>
    have hexpires : (if pass.manager.pending.contains entry.signalId = true then
        ({ manager := expirePop pass.manager entry
           outcomes := pass.outcomes ++ [.expired entry] } : Pass) else pass).manager =
          expirePop pass.manager entry := by
      unfold expirePop
      split_ifs with hsignal
      · rfl
      · rfl
    cases hgiven : round.quotes entry with
    | none =>
      dsimp only
      rw [hexpires, expirePop_monitor]
      exact .refl _ _
    | some quote =>
      rw [hgiven, Option.filter_some] at hquote
      split_ifs at hquote with hwithin
      dsimp only
      rw [hexpires, if_neg hwithin, expirePop_monitor]
      exact .refl _ _

theorem checkEntryPrice_run (htime : ¬entry.expiresAt ≤ round.now)
    (haccepts : round.accepts entry = decide (pass.manager.queue.length < queueSize)) :
    Proceeds round.config (PendingEntries.checkEntry round.config
        { pass.manager with monitor := .scanning round.now (entry :: rest) } entry
          (round.quotes entry) round.now rest)
      { (checkEntryPrice round pass entry).manager with
        monitor := .scanning round.now rest } := by
  unfold PendingEntries.checkEntry checkEntryPrice
  rw [if_neg htime]
  cases round.quotes entry with
  | none => exact .refl _ _
  | some quote =>
    dsimp only
    by_cases hfound : pass.manager.pending.contains entry.signalId = true ∧
        entry.oid ∉ pass.manager.closed ∧ inZone round.config entry quote = true
    · rw [if_pos hfound, if_pos hfound]
      exact .head (a := .fill) rfl rfl (fillEntry_run rest (checkPrice entry quote) haccepts)
    · rw [if_neg hfound, if_neg hfound]
      exact .refl _ _

/-- A turn is a run of the monitor thread alone, when the queue takes what it has room for. -/
theorem checkEntry_run
    (haccepts : round.accepts entry = decide (pass.manager.queue.length < queueSize)) :
    Proceeds round.config { pass.manager with monitor := .scanning round.now (entry :: rest) }
      { (checkEntry round pass entry).manager with monitor := .scanning round.now rest } := by
  unfold checkEntry
  by_cases htime : entry.expiresAt ≤ round.now
  · rw [if_pos htime]
    exact .head (a := .checkNext (round.quotes entry)) rfl rfl
      (expireEntry_run rest htime haccepts)
  · rw [if_neg htime]
    exact .head (a := .checkNext (round.quotes entry)) rfl rfl
      (checkEntryPrice_run rest htime haccepts)

/-- The queue takes a fill exactly when it has room for it at the turn of the entry. -/
def Queues (round : Round) (pass : Pass) (entries : List PendingEntry) : Prop :=
  ∀ before entry after, entries = before ++ entry :: after →
    round.accepts entry =
      decide ((before.foldl (checkEntry round) pass).manager.queue.length < queueSize)

theorem foldl_run (entries : List PendingEntry) (haccepts : Queues round pass entries) :
    Proceeds round.config { pass.manager with monitor := .scanning round.now entries }
      { (entries.foldl (checkEntry round) pass).manager with monitor := .idle } := by
  induction entries generalizing pass with
  | nil => exact .head (a := .checkNext none) rfl rfl (.refl _ _)
  | cons first rest ih =>
    obtain ⟨hhere, hlater⟩ := Prefixes.forall_splits_cons.mp haccepts
    rw [List.foldl_nil] at hhere
    exact (checkEntry_run rest hhere).trans (ih hlater)

/-- A pass is a run of the monitor thread alone. -/
theorem checkAllEntries_run {m : Manager} (hmonitor : m.monitor = .idle)
    (haccepts : Queues round { manager := m } (snapshot m)) :
    Proceeds round.config m { (checkAllEntries round m).manager with monitor := .idle } := by
  refine .head (a := .startPass round.now) rfl ?_ (foldl_run (snapshot m) haccepts)
  exact step_eq_some_iff.mpr (.startPass round.now hmonitor)

end Threads

section Claims

variable (round : Round)

/-- Every entry whose time has passed is removed, filled where the tolerance allows it and
otherwise expired with its callback; every other one in its zone is filled. -/
structure Attended (m : Manager) (pass : Pass) : Prop where
  removed : ∀ entry ∈ snapshot m, entry.expiresAt ≤ round.now →
    pass.manager.pending.get? entry.key = none
  tolerated : ∀ entry ∈ snapshot m, entry.expiresAt ≤ round.now →
    ∀ quote ∈ round.quotes entry, withinTolerance round.config entry quote →
      .filled ⟨entry, checkPrice entry quote⟩ ∈ pass.outcomes
  expired : ∀ entry ∈ snapshot m, entry.expiresAt ≤ round.now →
    (∀ quote ∈ round.quotes entry, ¬withinTolerance round.config entry quote) →
      .expired entry ∈ pass.outcomes
  filled : ∀ entry ∈ snapshot m, round.now < entry.expiresAt →
    ∀ quote ∈ round.quotes entry, inZone round.config entry quote →
      .filled ⟨entry, checkPrice entry quote⟩ ∈ pass.outcomes

/-- What the pass has to do with an entry; only a fill in the zone looks the signal id up. -/
inductive Move
  | wait
  | expire
  | fill (price : ℚ) (looksUp : Bool)
  deriving DecidableEq

def move (entry : PendingEntry) : Move :=
  if entry.expiresAt ≤ round.now then
    match (round.quotes entry).filter (withinTolerance round.config entry) with
    | some quote => .fill (checkPrice entry quote) false
    | none => .expire
  else
    match (round.quotes entry).filter (inZone round.config entry) with
    | some quote => .fill (checkPrice entry quote) true
    | none => .wait

/-- The key that a move takes out of the map. -/
def popped (entry : PendingEntry) : Option String :=
  match move round entry with
  | .wait => none
  | .expire => some entry.signalId
  | .fill _ _ => some entry.key

/-- Something stands under the key and the entries before have left it there. -/
def Free (m : Manager) (before : List PendingEntry) (key : String) : Prop :=
  m.pending.contains key = true ∧ key ∉ before.filterMap (popped round)

def expiring (m : Manager) : List PendingEntry :=
  (snapshot m).filter fun entry => move round entry = .expire

/-- The queue takes every fill, the expiring entries have each other's keys as their signal ids,
and whoever is in its zone finds something under its signal id. -/
structure Reached (m : Manager) : Prop where
  accepted : ∀ entry ∈ snapshot m, ∀ price looksUp, move round entry = .fill price looksUp →
    round.accepts entry = true
  exchanged : ((expiring round m).map PendingEntry.signalId).Perm
    ((expiring round m).map PendingEntry.key)
  found : ∀ before entry after, snapshot m = before ++ entry :: after →
    ∀ price, move round entry = .fill price true → Free round m before entry.signalId

end Claims

section Moves

variable {round : Round} {m : Manager} {pass : Pass} {entry : PendingEntry}
  {before : List PendingEntry}

/-- The outcome that the move asks for. -/
def Done (round : Round) (outcomes : List Outcome) (entry : PendingEntry) : Prop :=
  match move round entry with
  | .wait => True
  | .expire => .expired entry ∈ outcomes
  | .fill price _ => .filled ⟨entry, price⟩ ∈ outcomes

theorem attended_iff_done :
    Attended round m pass ↔
      (∀ entry ∈ snapshot m, Done round pass.outcomes entry) ∧
        ∀ entry ∈ snapshot m, entry.expiresAt ≤ round.now →
          pass.manager.pending.get? entry.key = none := by
  constructor
  · intro h
    refine ⟨?_, h.removed⟩
    intro entry hentry
    unfold Done move
    by_cases htime : entry.expiresAt ≤ round.now
    · rw [if_pos htime]
      cases hquote : (round.quotes entry).filter (withinTolerance round.config entry) with
      | none =>
        refine h.expired entry hentry htime ?_
        intro quote hgiven hwithin
        rw [Option.mem_def.mp hgiven, Option.filter_some, if_pos hwithin] at hquote
        cases hquote
      | some quote =>
        obtain ⟨hgiven, hwithin⟩ := Option.filter_eq_some_iff.mp hquote
        exact h.tolerated entry hentry htime quote hgiven hwithin
    · rw [if_neg htime]
      cases hquote : (round.quotes entry).filter (inZone round.config entry) with
      | none => trivial
      | some quote =>
        obtain ⟨hgiven, hzone⟩ := Option.filter_eq_some_iff.mp hquote
        exact h.filled entry hentry (not_le.mp htime) quote hgiven hzone
  · intro ⟨hdone, hremoved⟩
    refine ⟨hremoved, ?_, ?_, ?_⟩
    · intro entry hentry htime quote hgiven hwithin
      have h := hdone entry hentry
      unfold Done move at h
      rwa [if_pos htime, Option.mem_def.mp hgiven, Option.filter_some, if_pos hwithin] at h
    · intro entry hentry htime hnot
      have h := hdone entry hentry
      have hquote : (round.quotes entry).filter (withinTolerance round.config entry) = none :=
        Option.filter_eq_none_iff.mpr hnot
      unfold Done move at h
      rwa [if_pos htime, hquote] at h
    · intro entry hentry htime quote hgiven hzone
      have h := hdone entry hentry
      unfold Done move at h
      rwa [if_neg (not_le.mpr htime), Option.mem_def.mp hgiven, Option.filter_some,
        if_pos hzone] at h

theorem fillEntry_of_contains {price : ℚ}
    (hkey : pass.manager.pending.contains entry.key = true) (haccepts : round.accepts entry = true) :
    fillEntry round pass entry price =
      { manager := { removeEntry pass.manager entry.key entry.key entry with
          queue := pass.manager.queue ++ [⟨entry, price⟩] }
        outcomes := pass.outcomes ++ [.filled ⟨entry, price⟩] } := by
  unfold fillEntry
  rw [if_pos hkey, if_pos haccepts]
  rfl

/-- Nothing but the entry's own outcome is added. -/
theorem fillEntry_outcomes (round : Round) (pass : Pass) (entry : PendingEntry) (price : ℚ) :
    (fillEntry round pass entry price).outcomes = pass.outcomes ∨
      (pass.manager.pending.contains entry.key = true ∧ round.accepts entry = true ∧
        (fillEntry round pass entry price).outcomes = pass.outcomes ++ [.filled ⟨entry, price⟩]) ∨
      (fillEntry round pass entry price).outcomes = pass.outcomes ++ [.lost entry] := by
  unfold fillEntry
  split_ifs with hkey haccepts
  · exact Or.inr (Or.inl ⟨hkey, haccepts, rfl⟩)
  · exact Or.inr (Or.inr rfl)
  · exact Or.inl rfl

/-- What the move finds when its turn comes. -/
def Ready (round : Round) (m : Manager) (before : List PendingEntry) (entry : PendingEntry) :
    Prop :=
  match move round entry with
  | .wait => True
  | .expire => Free round m before entry.signalId
  | .fill _ looksUp => round.accepts entry = true ∧ Free round m before entry.key ∧
      (looksUp = true → Free round m before entry.signalId)

/-- The moves before have all been made, and nothing else has. -/
structure Exact (round : Round) (m : Manager) (before : List PendingEntry) (pass : Pass) :
    Prop where
  pending : ∀ key, pass.manager.pending.get? key =
    if key ∈ before.filterMap (popped round) then none else m.pending.get? key
  closed : ∀ oid ∈ pass.manager.closed, oid ∈ m.closed ∨ ∃ entry ∈ before, entry.oid = oid
  outcomes : ∀ outcome ∈ pass.outcomes, outcome.entry ∈ before

/-- The entry is pending and its turn comes once. -/
def Fresh (m : Manager) (before : List PendingEntry) (entry : PendingEntry) : Prop :=
  entry.oid ∉ m.closed ∧ ∀ other ∈ before, other.oid ≠ entry.oid

theorem Exact.contains_iff (h : Exact round m before pass) (key : String) :
    pass.manager.pending.contains key = true ↔ Free round m before key := by
  unfold Free Dict.contains
  rw [h.pending]
  by_cases hkey : key ∈ before.filterMap (popped round)
  · simp [hkey]
  · simp [hkey]

theorem Exact.not_closed (h : Exact round m before pass) (hfresh : Fresh m before entry) :
    entry.oid ∉ pass.manager.closed := by
  intro hclosed
  rcases h.closed entry.oid hclosed with hold | ⟨other, hother, hsame⟩
  · exact hfresh.1 hold
  · exact hfresh.2 other hother hsame

variable {outcome : Outcome}

theorem Exact.not_mem_outcomes (h : Exact round m before pass) (hfresh : Fresh m before entry)
    (hentry : outcome.entry = entry) : outcome ∉ pass.outcomes := by
  intro hmem
  exact hfresh.2 outcome.entry (h.outcomes outcome hmem) (by rw [hentry])

/-- What a turn does to an open entry, said by its move. -/
theorem checkEntry_eq (hopen : entry.oid ∉ pass.manager.closed) :
    checkEntry round pass entry =
      match move round entry with
      | .wait => pass
      | .expire =>
        if pass.manager.pending.contains entry.signalId then
          { manager := expirePop pass.manager entry
            outcomes := pass.outcomes ++ [.expired entry] }
        else pass
      | .fill price looksUp =>
        if looksUp = true → pass.manager.pending.contains entry.signalId = true then
          fillEntry round pass entry price
        else pass := by
  unfold checkEntry move
  by_cases htime : entry.expiresAt ≤ round.now
  · rw [if_pos htime, if_pos htime]
    unfold expireEntry
    cases (round.quotes entry).filter (withinTolerance round.config entry) with
    | none => rfl
    | some quote => simp
  · rw [if_neg htime, if_neg htime]
    unfold checkEntryPrice
    cases hquote : round.quotes entry with
    | none => rfl
    | some quote =>
      by_cases hzone : inZone round.config entry quote = true
      · simp [hzone, hopen, Option.filter_some]
      · simp [hzone, Option.filter_some]

theorem checkEntry_of_ready (h : Exact round m before pass) (hfresh : Fresh m before entry)
    (hready : Ready round m before entry) :
    checkEntry round pass entry =
      match move round entry with
      | .wait => pass
      | .expire =>
        { manager := expirePop pass.manager entry, outcomes := pass.outcomes ++ [.expired entry] }
      | .fill price _ =>
        { manager := { removeEntry pass.manager entry.key entry.key entry with
            queue := pass.manager.queue ++ [⟨entry, price⟩] }
          outcomes := pass.outcomes ++ [.filled ⟨entry, price⟩] } := by
  rw [checkEntry_eq (h.not_closed hfresh)]
  unfold Ready at hready
  cases hmove : move round entry with
  | wait => rfl
  | expire =>
    rw [hmove] at hready
    exact if_pos ((h.contains_iff _).mpr hready)
  | fill price looksUp =>
    rw [hmove] at hready
    obtain ⟨haccepts, hkey, hsignal⟩ := hready
    dsimp only
    rw [if_pos fun hlooks => (h.contains_iff _).mpr (hsignal hlooks),
      fillEntry_of_contains ((h.contains_iff _).mpr hkey) haccepts]

/-- The outcome is there after the turn exactly when the move finds what it needs. -/
theorem done_iff_ready (h : Exact round m before pass) (hfresh : Fresh m before entry) :
    Done round (checkEntry round pass entry).outcomes entry ↔ Ready round m before entry := by
  constructor
  · intro hdone
    rw [checkEntry_eq (h.not_closed hfresh)] at hdone
    unfold Done Ready at *
    cases hmove : move round entry with
    | wait => trivial
    | expire =>
      rw [hmove] at hdone
      dsimp only at hdone ⊢
      split_ifs at hdone with hsignal
      · exact (h.contains_iff _).mp hsignal
      · exact absurd hdone (h.not_mem_outcomes hfresh rfl)
    | fill price looksUp =>
      rw [hmove] at hdone
      dsimp only at hdone ⊢
      split_ifs at hdone with hsignal
      · rcases fillEntry_outcomes round pass entry price with
          hnone | ⟨hkey, haccepts, -⟩ | hlost
        · rw [hnone] at hdone
          exact absurd hdone (h.not_mem_outcomes hfresh rfl)
        · exact ⟨haccepts, (h.contains_iff _).mp hkey,
            fun hlooks => (h.contains_iff _).mp (hsignal hlooks)⟩
        · rw [hlost, List.mem_append, List.mem_singleton] at hdone
          rcases hdone with hold | hlost
          · exact absurd hold (h.not_mem_outcomes hfresh rfl)
          · cases hlost
      · exact absurd hdone (h.not_mem_outcomes hfresh rfl)
  · intro hready
    rw [checkEntry_of_ready h hfresh hready]
    unfold Done
    cases hmove : move round entry with
    | wait => trivial
    | expire => exact List.mem_append_right _ (List.mem_singleton_self _)
    | fill price looksUp => exact List.mem_append_right _ (List.mem_singleton_self _)

theorem expirePop_pending (m : Manager) (key : String) :
    (expirePop m entry).pending.get? key =
      if key = entry.signalId then none else m.pending.get? key := by
  unfold expirePop
  split_ifs with hsignal hkey hkey
  · simp [hkey]
  · simp [hkey]
  · rw [hkey]
    simpa [Dict.contains] using hsignal
  · rfl

theorem mem_expirePop_closed {oid : ℕ} (hmem : oid ∈ (expirePop m entry).closed) :
    oid = entry.oid ∨ oid ∈ m.closed := by
  unfold expirePop at hmem
  split_ifs at hmem with hsignal
  · exact List.mem_cons.mp hmem
  · exact Or.inr hmem

theorem Exact.next (h : Exact round m before pass) {next : Pass}
    (hpending : ∀ key, next.manager.pending.get? key =
      if popped round entry = some key then none else pass.manager.pending.get? key)
    (hclosed : ∀ oid ∈ next.manager.closed, oid = entry.oid ∨ oid ∈ pass.manager.closed)
    (houtcomes : ∀ outcome ∈ next.outcomes, outcome ∈ pass.outcomes ∨ outcome.entry = entry) :
    Exact round m (before ++ [entry]) next := by
  refine ⟨?_, ?_, ?_⟩
  · intro key
    have hmem : key ∈ (before ++ [entry]).filterMap (popped round) ↔
        key ∈ before.filterMap (popped round) ∨ popped round entry = some key := by
      simp
    rw [hpending, h.pending]
    by_cases hkey : popped round entry = some key
    · rw [if_pos hkey, if_pos (hmem.mpr (Or.inr hkey))]
    · rw [if_neg hkey]
      simp only [hmem, hkey, or_false]
  · intro oid hoid
    rcases hclosed oid hoid with hnew | hold
    · exact Or.inr ⟨entry, List.mem_append_right _ (List.mem_singleton_self entry), hnew.symm⟩
    · exact (h.closed oid hold).imp_right fun ⟨other, hother, hsame⟩ =>
        ⟨other, List.mem_append_left _ hother, hsame⟩
  · intro outcome houtcome
    rcases houtcomes outcome houtcome with hold | hnew
    · exact List.mem_append_left _ (h.outcomes outcome hold)
    · rw [hnew]
      exact List.mem_append_right _ (List.mem_singleton_self entry)

theorem Exact.checkEntry (h : Exact round m before pass) (hfresh : Fresh m before entry)
    (hready : Ready round m before entry) :
    Exact round m (before ++ [entry]) (checkEntry round pass entry) := by
  have hlogged : ∀ (new : Outcome), new.entry = entry →
      ∀ outcome ∈ pass.outcomes ++ [new], outcome ∈ pass.outcomes ∨ outcome.entry = entry := by
    intro new hnew outcome houtcome
    rcases List.mem_append.mp houtcome with hold | hlast
    · exact Or.inl hold
    · exact Or.inr (by rw [List.mem_singleton.mp hlast, hnew])
  rw [checkEntry_of_ready h hfresh hready]
  cases hmove : move round entry with
  | wait =>
    have hpopped : popped round entry = none := by rw [popped, hmove]
    exact h.next (fun key => by simp [hpopped]) (fun oid => Or.inr) fun outcome => Or.inl
  | expire =>
    have hpopped : popped round entry = some entry.signalId := by rw [popped, hmove]
    refine h.next ?_ (fun oid => mem_expirePop_closed) (hlogged (.expired entry) rfl)
    intro key
    rw [hpopped]
    simp only [Option.some.injEq, eq_comm (a := entry.signalId), expirePop_pending]
  | fill price looksUp =>
    have hpopped : popped round entry = some entry.key := by rw [popped, hmove]
    refine h.next ?_ (fun oid => List.mem_cons.mp) (hlogged (.filled ⟨entry, price⟩) rfl)
    intro key
    rw [hpopped]
    simp only [Option.some.injEq, eq_comm (a := entry.key), removeEntry, Dict.get?_pop]

theorem mem_checkEntry_outcomes (hother : outcome.entry ≠ entry) :
    outcome ∈ (checkEntry round pass entry).outcomes ↔ outcome ∈ pass.outcomes := by
  have hfill : ∀ price, outcome ∈ (fillEntry round pass entry price).outcomes ↔
      outcome ∈ pass.outcomes := by
    intro price
    rcases fillEntry_outcomes round pass entry price with hnone | ⟨-, -, hfilled⟩ | hlost
    · rw [hnone]
    · rw [hfilled, List.mem_append, List.mem_singleton, or_iff_left]
      exact fun hsame => hother (by rw [hsame]; rfl)
    · rw [hlost, List.mem_append, List.mem_singleton, or_iff_left]
      exact fun hsame => hother (by rw [hsame]; rfl)
  unfold checkEntry
  by_cases htime : entry.expiresAt ≤ round.now
  · rw [if_pos htime, expireEntry]
    cases (round.quotes entry).filter (withinTolerance round.config entry) with
    | some quote => exact hfill _
    | none =>
      dsimp only
      split_ifs with hsignal
      · rw [List.mem_append, List.mem_singleton, or_iff_left]
        exact fun hsame => hother (by rw [hsame]; rfl)
      · rfl
  · rw [if_neg htime, checkEntryPrice]
    cases round.quotes entry with
    | none => rfl
    | some quote =>
      dsimp only
      split_ifs with hfound
      · exact hfill _
      · rfl

variable {rest : List PendingEntry}

theorem mem_foldl_outcomes (hother : outcome.entry ∉ rest) (pass : Pass) :
    outcome ∈ (rest.foldl (checkEntry round) pass).outcomes ↔ outcome ∈ pass.outcomes := by
  induction rest generalizing pass with
  | nil => rfl
  | cons first rest ih =>
    obtain ⟨hfirst, hrest⟩ := List.ne_and_not_mem_of_not_mem_cons hother
    rw [List.foldl_cons, ih hrest, mem_checkEntry_outcomes hfirst]

theorem done_foldl (hother : entry ∉ rest) (pass : Pass) :
    Done round (rest.foldl (checkEntry round) pass).outcomes entry ↔
      Done round pass.outcomes entry := by
  unfold Done
  cases move round entry with
  | wait => rfl
  | expire => exact mem_foldl_outcomes hother pass
  | fill price looksUp => exact mem_foldl_outcomes hother pass

/-- All outcomes are there in the end exactly when every move is ready at its turn, and then all
moves have been made. -/
theorem foldl_done_iff (h : Exact round m before pass)
    (hopen : ∀ entry ∈ rest, entry.oid ∉ m.closed)
    (hnodup : ((before ++ rest).map PendingEntry.oid).Nodup) :
    ((∀ entry ∈ rest, Done round (rest.foldl (checkEntry round) pass).outcomes entry) ↔
      ∀ front entry back, rest = front ++ entry :: back →
        Ready round m (before ++ front) entry) ∧
      ((∀ front entry back, rest = front ++ entry :: back →
        Ready round m (before ++ front) entry) →
        Exact round m (before ++ rest) (rest.foldl (checkEntry round) pass)) := by
  induction rest generalizing before pass with
  | nil =>
    refine ⟨iff_of_true (fun entry hentry => nomatch hentry) ?_, ?_⟩
    · intro front entry back hsplit
      simp at hsplit
    · intro _
      rw [List.append_nil]
      exact h
  | cons first rest ih =>
    rw [List.append_cons] at hnodup
    have hfirst : Fresh m before first := by
      refine ⟨hopen first List.mem_cons_self, ?_⟩
      intro other hother hsame
      rw [List.map_append, List.map_append, List.nodup_append, List.nodup_append] at hnodup
      exact hnodup.1.2.2 other.oid (List.mem_map_of_mem hother) first.oid (by simp) hsame
    have hnew : first ∉ rest := by
      intro hmem
      rw [List.map_append, List.nodup_append] at hnodup
      exact hnodup.2.2 first.oid (by simp) first.oid (List.mem_map_of_mem hmem) rfl
    have hturn := done_iff_ready h hfirst
    rw [List.forall_mem_cons, List.foldl_cons, done_foldl hnew, hturn, Prefixes.forall_splits_cons]
    rw [List.append_nil]
    by_cases hready : Ready round m before first
    · obtain ⟨hdone, hexact⟩ := ih (h.checkEntry hfirst hready)
        (fun entry hentry => hopen entry (List.mem_cons_of_mem first hentry)) hnodup
      simp only [List.append_assoc, List.singleton_append] at hdone hexact
      exact ⟨and_congr_right fun _ => hdone, fun hall => hexact hall.2⟩
    · exact ⟨iff_of_false (fun hall => hready hall.1) (fun hall => hready hall.1),
        fun hall => absurd hall.1 hready⟩

end Moves

section Snapshot

variable {round : Round} (book : Book)

variable {entry : PendingEntry}

theorem stored_of_mem_snapshot (hentry : entry ∈ snapshot book.toManager) :
    book.pending.get? entry.key = some entry := by
  obtain ⟨p, hp, hvalue⟩ := List.mem_map.mp (List.mem_filter.mp hentry).1
  subst hvalue
  have hget := (Dict.mem_items_iff_get? book.pending p.1 p.2).mp hp
  rw [book.keyed p.1 p.2 hget]
  exact hget

theorem open_of_mem_snapshot (hentry : entry ∈ snapshot book.toManager) : entry.oid ∉ book.closed :=
  of_decide_eq_true (List.mem_filter.mp hentry).2

theorem eq_of_key {entry other : PendingEntry} (hentry : entry ∈ snapshot book.toManager)
    (hother : other ∈ snapshot book.toManager) (hkey : entry.key = other.key) : entry = other := by
  have hstored := stored_of_mem_snapshot book hentry
  rw [hkey, stored_of_mem_snapshot book hother] at hstored
  exact (Option.some.inj hstored).symm

theorem keys_nodup : ((snapshot book.toManager).map PendingEntry.key).Nodup := by
  have hkeys : book.pending.values.map PendingEntry.key = book.pending.items.map Prod.fst := by
    unfold Dict.values
    rw [List.map_map]
    refine List.map_congr_left ?_
    intro p hp
    exact book.keyed p.1 p.2 ((Dict.mem_items_iff_get? book.pending p.1 p.2).mp hp)
  have hall : (book.pending.values.map PendingEntry.key).Nodup := by
    rw [hkeys]
    exact book.pending.nodup
  exact hall.sublist (List.filter_sublist.map PendingEntry.key)

theorem oids_nodup : ((snapshot book.toManager).map PendingEntry.oid).Nodup := by
  refine List.Nodup.map_on ?_ (List.Nodup.of_map PendingEntry.key (keys_nodup book))
  intro entry hentry other hother hoid
  exact book.single _ _ _ _ (stored_of_mem_snapshot book hentry)
    (stored_of_mem_snapshot book hother) hoid

theorem mem_expiring : entry ∈ expiring round book.toManager ↔
      entry ∈ snapshot book.toManager ∧ move round entry = .expire := by
  unfold expiring
  rw [List.mem_filter, decide_eq_true_iff]

theorem mem_popped {entries : List PendingEntry} {key : String} :
    key ∈ entries.filterMap (popped round) ↔
      ∃ entry ∈ entries, (move round entry = .expire ∧ entry.signalId = key) ∨
        ∃ price looksUp, move round entry = .fill price looksUp ∧ entry.key = key := by
  rw [List.mem_filterMap]
  refine exists_congr fun entry => and_congr_right fun _ => ?_
  unfold popped
  cases move round entry with
  | wait => simp
  | expire => simp
  | fill price looksUp => simp

theorem move_ne_wait (htime : entry.expiresAt ≤ round.now) :
    move round entry = .expire ∨ ∃ price, move round entry = .fill price false := by
  unfold move
  rw [if_pos htime]
  cases (round.quotes entry).filter (withinTolerance round.config entry) with
  | none => exact Or.inl rfl
  | some quote => exact Or.inr ⟨_, rfl⟩

/-- The expiring entries have to be taken out by each other: nothing else pops their keys, and
each of them pops one. -/
theorem exchanged_of_popped
    (hpopped : ∀ entry ∈ snapshot book.toManager, entry.expiresAt ≤ round.now →
      entry.key ∈ (snapshot book.toManager).filterMap (popped round)) :
    ((expiring round book.toManager).map PendingEntry.signalId).Perm
      ((expiring round book.toManager).map PendingEntry.key) := by
  have hkeys : ((expiring round book.toManager).map PendingEntry.key).Nodup :=
    (keys_nodup book).sublist (List.filter_sublist.map PendingEntry.key)
  have hsubset : (expiring round book.toManager).map PendingEntry.key ⊆
      (expiring round book.toManager).map PendingEntry.signalId := by
    intro key hkey
    obtain ⟨entry, hentry, rfl⟩ := List.mem_map.mp hkey
    obtain ⟨hmem, hmove⟩ := (mem_expiring book).mp hentry
    have htime : entry.expiresAt ≤ round.now := by
      by_contra hlater
      unfold move at hmove
      rw [if_neg hlater] at hmove
      cases hquote : (round.quotes entry).filter (inZone round.config entry) with
      | none => simp [hquote] at hmove
      | some quote => simp [hquote] at hmove
    obtain ⟨other, hother, ⟨hexpires, hsignal⟩ | ⟨price, looksUp, hfill, hsame⟩⟩ :=
      mem_popped.mp (hpopped entry hmem htime)
    · rw [← hsignal]
      exact List.mem_map_of_mem ((mem_expiring book).mpr ⟨hother, hexpires⟩)
    · rw [eq_of_key book hother hmem hsame, hmove] at hfill
      cases hfill
  have hlength : ((expiring round book.toManager).map PendingEntry.signalId).length ≤
      ((expiring round book.toManager).map PendingEntry.key).length := by
    rw [List.length_map, List.length_map]
  exact ((List.subperm_of_subset hkeys hsubset).perm_of_length_le hlength).symm

theorem contains_of_mem_snapshot {other : PendingEntry}
    (h : other ∈ snapshot book.toManager) : book.pending.contains other.key = true := by
  rw [Dict.contains, stored_of_mem_snapshot book h, Option.isSome_some]

/-- Under the exchange the key that an expiring entry pops belongs to one that expires too. -/
theorem exists_partner (h : Reached round book.toManager) {other : PendingEntry}
    (hother : other ∈ snapshot book.toManager) (hexpires : move round other = .expire) :
    ∃ partner ∈ snapshot book.toManager,
      move round partner = .expire ∧ partner.key = other.signalId := by
  have hsignal := List.mem_map_of_mem (f := PendingEntry.signalId)
    ((mem_expiring book).mpr ⟨hother, hexpires⟩)
  obtain ⟨partner, hpartner, hkey⟩ := List.mem_map.mp (h.exchanged.subset hsignal)
  obtain ⟨hstored, hmove⟩ := (mem_expiring book).mp hpartner
  exact ⟨partner, hstored, hmove, hkey⟩

/-- Under the exchange an entry is popped by itself or by one that expires with it. -/
theorem ready_of_reached (h : Reached round book.toManager) {before after : List PendingEntry}
    (hsplit : snapshot book.toManager = before ++ entry :: after) :
    Ready round book.toManager before entry := by
  have hmem : entry ∈ snapshot book.toManager := by
    rw [hsplit]
    exact List.mem_append_right _ List.mem_cons_self
  have hbefore : ∀ other ∈ before, other ∈ snapshot book.toManager ∧ other ≠ entry := by
    intro other hother
    have hnodup := List.Nodup.of_map PendingEntry.key (keys_nodup book)
    rw [hsplit, List.nodup_append] at hnodup
    refine ⟨by rw [hsplit]; exact List.mem_append_left _ hother, ?_⟩
    exact hnodup.2.2 other hother entry List.mem_cons_self
  have hsignals : ((expiring round book.toManager).map PendingEntry.signalId).Nodup :=
    h.exchanged.nodup_iff.mpr
      ((keys_nodup book).sublist (List.filter_sublist.map PendingEntry.key))
  unfold Ready
  cases hmove : move round entry with
  | wait => trivial
  | expire =>
    obtain ⟨partner, hpart, hexpires, hkey⟩ := exists_partner book h hmem hmove
    refine ⟨hkey ▸ contains_of_mem_snapshot book hpart, ?_⟩
    intro hpopped
    obtain ⟨other, hother, ⟨hother', hsignal⟩ | ⟨price, looksUp, hfill, hsame⟩⟩ :=
      mem_popped.mp hpopped
    · refine (hbefore other hother).2 ?_
      exact List.inj_on_of_nodup_map hsignals
        ((mem_expiring book).mpr ⟨(hbefore other hother).1, hother'⟩)
        ((mem_expiring book).mpr ⟨hmem, hmove⟩) hsignal
    · rw [eq_of_key book (hbefore other hother).1 hpart (hsame.trans hkey.symm), hexpires] at hfill
      cases hfill
  | fill price looksUp =>
    refine ⟨h.accepted entry hmem price looksUp hmove, ⟨contains_of_mem_snapshot book hmem, ?_⟩, ?_⟩
    · intro hpopped
      obtain ⟨other, hother, ⟨hother', hsignal⟩ | ⟨_, _, _, hsame⟩⟩ := mem_popped.mp hpopped
      · obtain ⟨partner, hpart, hexpires, hkey⟩ :=
          exists_partner book h (hbefore other hother).1 hother'
        rw [eq_of_key book hpart hmem (hkey.trans hsignal), hmove] at hexpires
        cases hexpires
      · exact (hbefore other hother).2 (eq_of_key book (hbefore other hother).1 hmem hsame)
    · intro hlooks
      subst hlooks
      exact h.found before entry after hsplit price hmove

end Snapshot

/-- All pending entries are attended to exactly when each is ready at its turn and the expired
ones are popped at some turn. -/
theorem attended_iff_ready (round : Round) (book : Book) :
    Attended round book.toManager (checkAllEntries round book.toManager) ↔
      (∀ before entry after, snapshot book.toManager = before ++ entry :: after →
        Ready round book.toManager before entry) ∧
      ∀ entry ∈ snapshot book.toManager, entry.expiresAt ≤ round.now →
        entry.key ∈ (snapshot book.toManager).filterMap (popped round) := by
  have hstart : Exact round book.toManager [] { manager := book.toManager } :=
    ⟨fun _ => rfl, fun _ => Or.inl, fun _ houtcome => nomatch houtcome⟩
  obtain ⟨hdone, hexact⟩ := foldl_done_iff hstart
    (fun _ => open_of_mem_snapshot book) (oids_nodup book)
  simp only [List.nil_append] at hdone hexact
  rw [attended_iff_done]
  change ((∀ entry ∈ snapshot book.toManager, Done round
    ((snapshot book.toManager).foldl (checkEntry round) { manager := book.toManager }).outcomes
      entry) ∧ _) ↔ _
  rw [hdone]
  apply and_congr_right
  intro hready
  refine forall₃_congr fun entry hentry _ => ?_
  have hpending := (hexact hready).pending entry.key
  rw [stored_of_mem_snapshot book hentry] at hpending
  unfold checkAllEntries
  rw [hpending]
  by_cases hpopped : entry.key ∈ (snapshot book.toManager).filterMap (popped round)
  · rw [if_pos hpopped]
    exact iff_of_true rfl hpopped
  · rw [if_neg hpopped]
    exact iff_of_false (Option.some_ne_none entry) hpopped

theorem attended_of_reached {round : Round} {book : Book} (h : Reached round book.toManager) :
    Attended round book.toManager (checkAllEntries round book.toManager) := by
  refine (attended_iff_ready round book).mpr ⟨fun _ _ _ => ready_of_reached book h, ?_⟩
  intro entry hentry htime
  rcases move_ne_wait htime with hmove | ⟨price, hmove⟩
  · have hkey := List.mem_map_of_mem (f := PendingEntry.key)
      ((mem_expiring book).mpr ⟨hentry, hmove⟩)
    obtain ⟨other, hother, hsignal⟩ := List.mem_map.mp (h.exchanged.symm.subset hkey)
    obtain ⟨hmem, hexpires⟩ := (mem_expiring book).mp hother
    exact mem_popped.mpr ⟨other, hmem, Or.inl ⟨hexpires, hsignal⟩⟩
  · exact mem_popped.mpr ⟨entry, hentry, Or.inr ⟨price, false, hmove, rfl⟩⟩

/-- One pass attends to all pending entries exactly when each of them is reached. -/
theorem checkAllEntries_attends_iff (round : Round) (book : Book) :
    Attended round book.toManager (checkAllEntries round book.toManager) ↔
      Reached round book.toManager := by
  constructor
  · intro h
    obtain ⟨hready, hpopped⟩ := (attended_iff_ready round book).mp h
    refine ⟨?_, exchanged_of_popped book hpopped, ?_⟩
    · intro entry hentry price looksUp hmove
      obtain ⟨before, after, hsplit⟩ := List.append_of_mem hentry
      have hturn := hready before entry after hsplit
      rw [Ready, hmove] at hturn
      exact hturn.1
    · intro before entry after hsplit price hmove
      have hturn := hready before entry after hsplit
      rw [Ready, hmove] at hturn
      exact hturn.2.2 rfl
  · exact attended_of_reached

/-- Entries under their signal ids are all attended to, as long as the queue takes the fills. -/
theorem attended_of_own_keys (round : Round) (book : Book)
    (hkeys : ∀ entry ∈ snapshot book.toManager, entry.key = entry.signalId)
    (haccepts : ∀ entry ∈ snapshot book.toManager, round.accepts entry = true) :
    Attended round book.toManager (checkAllEntries round book.toManager) := by
  refine attended_of_reached ⟨?_, ?_, ?_⟩
  · intro entry hentry _ _ _
    exact haccepts entry hentry
  · refine List.Perm.of_eq (List.map_congr_left ?_)
    intro entry hentry
    exact (hkeys entry ((mem_expiring book).mp hentry).1).symm
  · intro before entry after hsplit price hmove
    have hmem : entry ∈ snapshot book.toManager := by
      rw [hsplit]
      exact List.mem_append_right _ List.mem_cons_self
    refine ⟨?_, ?_⟩
    · rw [← hkeys entry hmem, Dict.contains, stored_of_mem_snapshot book hmem, Option.isSome_some]
    · intro hpopped
      obtain ⟨other, hother, hcase⟩ := mem_popped.mp hpopped
      have hstored : other ∈ snapshot book.toManager := by
        rw [hsplit]
        exact List.mem_append_left _ hother
      have hkey : other.key = entry.key := by
        rw [hkeys entry hmem]
        rcases hcase with ⟨-, hsignal⟩ | ⟨_, _, -, hsame⟩
        · rw [hkeys other hstored, hsignal]
        · exact hsame
      have hnodup := List.Nodup.of_map PendingEntry.key (keys_nodup book)
      rw [hsplit, List.nodup_append] at hnodup
      exact hnodup.2.2 other hother entry List.mem_cons_self
        (eq_of_key book hstored hmem hkey)

/-- A member of an OCO group, alone under its key. -/
def memberBook : Book where
  toManager := { start with pending := Dict.empty.set "sig#limit" (sampleEntry 0 "limit") }
  keyed := by
    intro key entry hentry
    rw [Dict.get?_set] at hentry
    split_ifs at hentry with hkey
    · rw [hkey, ← Option.some.inj hentry]
      rfl
    · cases hentry
  single := by
    intro key entry other found hentry hfound _
    rw [Dict.get?_set] at hentry hfound
    split_ifs at hentry hfound
    · exact Option.some.inj (hentry.symm.trans hfound)
    all_goals simp at hentry hfound

/-- The time of the member is over and there is no quote; it stays in the map. -/
theorem expired_member_stays :
    ¬∀ (round : Round) (book : Book),
      Attended round book.toManager (checkAllEntries round book.toManager) := by
  intro h
  let round : Round := ⟨sampleConfig, 20, fun _ => none, fun _ => true⟩
  have hremoved := (h round memberBook).removed (sampleEntry 0 "limit") (by decide) (by decide)
  have hkept : ((checkAllEntries round memberBook.toManager).manager.pending.get?
      (sampleEntry 0 "limit").key).isSome = true := by decide +kernel
  rw [hremoved] at hkept
  cases hkept

theorem checkAllEntries_run_member :
    Proceeds sampleConfig memberBook.toManager
      { (checkAllEntries ⟨sampleConfig, 20, fun _ => none, fun _ => true⟩
        memberBook.toManager).manager with monitor := .idle } := by
  refine @checkAllEntries_run ⟨sampleConfig, 20, fun _ => none, fun _ => true⟩ _ rfl ?_
  change ∀ before entry after, [sampleEntry 0 "limit"] = before ++ entry :: after → _
  rw [Prefixes.forall_splits_cons]
  exact ⟨by decide +kernel, fun before _ _ hsplit => by simp at hsplit⟩

end MT5Services.PendingMonitor
