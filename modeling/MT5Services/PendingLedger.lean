import MT5Services.PendingEntries

/-!
The counters and the group index of `PendingEntryManager` over the runs of the manager. Every
operation that moves an entry out of the map has its own copy of the updates: a cancel and a fill
take the entry out of the index and count it, an expiry counts it and leaves it in the index, an
overflow counts again what the fill has counted, and a shutdown does neither.
-/
namespace MT5Services.PendingLedger

open Runs PendingEntries

structure Stats where
  submitted : ℕ := 0
  filled : ℕ := 0
  expired : ℕ := 0
  cancelled : ℕ := 0
  deriving DecidableEq, Repr

/-- The manager with its counters; `restored` are the groups that a recovery has put keys into. -/
structure Ledger where
  manager : Manager
  stats : Stats := {}
  restored : List String := []

def start : Ledger := { manager := PendingEntries.start }

inductive Event
  | act (a : Act)
  | restoreGroupIndex (groupId : String) (keys : List String)

section Source

variable (config : Config) (m : Manager) (stats : Stats)

/-- How many entries `cancel` takes out. -/
def cancelled (key : String) : ℕ :=
  match m.pending.get? key with
  | some _ => 1
  | none =>
    match m.pending.items.find? fun p => p.2.signalId = key with
    | some _ => 1
    | none => 0

/-- How many entries the loop of `cancel_by_symbol` takes out. -/
def removals : Manager → List String → ℕ
  | _, [] => 0
  | m, key :: rest =>
    (if m.pending.contains key then 1 else 0) + removals (removeKey m key) rest

def countFill (entry : PendingEntry) : Stats :=
  if m.pending.contains entry.key then { stats with filled := stats.filled + 1 } else stats

def countExpiry (entry : PendingEntry) : Stats :=
  if m.pending.contains entry.signalId then { stats with expired := stats.expired + 1 } else stats

def countCheck (entry : PendingEntry) (quote : Option Quote) (now : ℤ) : Stats :=
  if entry.expiresAt ≤ now then
    match quote with
    | none => countExpiry m stats entry
    | some quote =>
      if withinTolerance config entry quote then countFill m stats entry
      else countExpiry m stats entry
  else stats

/-- The counters after a step. -/
def count : Act → Stats
  | .submit _ => { stats with submitted := stats.submitted + 1 }
  | .cancel key => { stats with cancelled := stats.cancelled + cancelled m key }
  | .cancelBySymbol symbol excludeDirection =>
    { stats with
      cancelled := stats.cancelled + removals m (keysToCancel m symbol excludeDirection) }
  | .checkNext quote =>
    match m.monitor with
    | .scanning now (entry :: _) => countCheck config m stats entry quote now
    | _ => stats
  | .fill =>
    match m.monitor with
    | .checked entry _ _ _ => countFill m stats entry
    | _ => stats
  | .overflow => { stats with expired := stats.expired + 1 }
  | .cancelMember =>
    match m.worker with
    | .cancelling _ _ key (member :: _) =>
      if member = key then stats
      else { stats with cancelled := stats.cancelled + cancelled m member }
    | _ => stats
  | _ => stats

def restoreGroupIndex (l : Ledger) (groupId : String) (keys : List String) : Ledger :=
  if groupId = "" ∨ keys.filter (· ≠ "") = [] then l
  else
    { l with
      manager := { l.manager with
        groups := (keys.filter (· ≠ "")).foldl (fun groups key => addMember groups groupId key)
          l.manager.groups }
      restored := groupId :: l.restored }

def step (l : Ledger) : Event → Option Ledger
  | .act a => (PendingEntries.step config l.manager a).map fun m =>
      { l with manager := m, stats := count config l.manager l.stats a }
  | .restoreGroupIndex groupId keys => some (restoreGroupIndex l groupId keys)

end Source

/-- The index says of the group what the map says, and has no empty set for it. -/
structure Indexed (m : Manager) (groupId : String) : Prop where
  members : ∀ key, key ∈ membersOf m.groups groupId ↔
    ∃ entry, m.pending.get? key = some entry ∧ entry.groupId = groupId
  nonempty : m.groups.get? groupId ≠ some []

/-- Every submitted entry is pending, filled, expired or cancelled, and the index of every group
without restored keys is the one of the map. -/
structure Kept (l : Ledger) : Prop where
  balance : l.stats.submitted =
    l.manager.pending.items.length + l.stats.filled + l.stats.expired + l.stats.cancelled
  indexed : ∀ groupId, groupId ≠ "" → groupId ∉ l.restored → Indexed l.manager groupId

/-- An entry stands under its own key. -/
def Keyed (m : Manager) : Prop :=
  ∀ key entry, m.pending.get? key = some entry → entry.key = key

/-- What stands under the key is in no group that has to be exact, or in the one that the key is
taken out of. -/
def Indexless (l : Ledger) (key groupId : String) : Prop :=
  ∀ entry ∈ l.manager.pending.get? key,
    entry.groupId = "" ∨ entry.groupId ∈ l.restored ∨ entry.groupId = groupId

/-- A submit finds its key free, a shutdown an empty map, a fill an entry of its own group, an
expiry an entry without a group, and an overflow such an entry under the signal id. -/
def Accounted (config : Config) (l : Ledger) : Event → Prop
  | .act (.submit entry) => l.manager.pending.contains entry.key = false
  | .act .shutdown => l.manager.pending.items = []
  | .act (.checkNext quote) =>
    match l.manager.monitor with
    | .scanning now (entry :: _) =>
      entry.expiresAt ≤ now →
        if quote.any (withinTolerance config entry) then Indexless l entry.key entry.groupId
        else Indexless l entry.signalId ""
    | _ => True
  | .act .fill =>
    match l.manager.monitor with
    | .checked entry _ _ _ => Indexless l entry.key entry.groupId
    | _ => True
  | .act .overflow =>
    match l.manager.monitor with
    | .filled result _ _ => queueSize ≤ l.manager.queue.length →
        l.manager.pending.contains result.entry.signalId = true ∧
          Indexless l result.entry.signalId ""
    | _ => True
  | _ => True

section Index

variable {groups : Groups} {groupId key : String}

theorem mem_membersOf_discard {g k : String} :
    k ∈ membersOf (discardMember groups groupId key) g ↔
      k ∈ membersOf groups g ∧ ¬(g = groupId ∧ k = key) := by
  constructor
  · intro h
    unfold discardMember at h
    cases hmembers : groups.get? groupId with
    | none =>
      rw [hmembers] at h
      refine ⟨h, ?_⟩
      intro hboth
      rw [membersOf, hboth.1, hmembers] at h
      cases h
    | some members =>
      rw [hmembers] at h
      dsimp only at h
      by_cases hg : g = groupId
      · subst hg
        have hold : membersOf groups g = members := by rw [membersOf, hmembers, Option.getD_some]
        rw [hold]
        split_ifs at h with hempty
        · simp [membersOf] at h
        · simpa [membersOf] using h
      · refine ⟨?_, fun hboth => hg hboth.1⟩
        split_ifs at h with hempty
        · simpa [membersOf, hg] using h
        · simpa [membersOf, hg] using h
  · intro hkept
    exact mem_membersOf_discardMember groups groupId key g k hkept.1 hkept.2

theorem discard_nonempty {g : String} (h : groups.get? g ≠ some []) :
    (discardMember groups groupId key).get? g ≠ some [] := by
  unfold discardMember
  cases groups.get? groupId with
  | none => exact h
  | some members =>
    dsimp only
    split_ifs with hempty
    · rw [Dict.get?_pop]
      split_ifs with hg
      · exact Option.some_ne_none [] ∘ Eq.symm
      · exact h
    · rw [Dict.get?_set]
      split_ifs with hg
      · intro hsame
        exact hempty (Option.some.inj hsame)
      · exact h

theorem add_nonempty {g : String} (h : groups.get? g ≠ some []) :
    (addMember groups groupId key).get? g ≠ some [] := by
  unfold addMember
  rw [Dict.get?_set]
  split_ifs with hg hmem
  · intro hsame
    rw [Option.some.inj hsame] at hmem
    cases hmem
  · intro hsame
    simpa using Option.some.inj hsame
  · exact h

/-- Taking out a key that is pending keeps a group exact when the entry under it was in another
group or the key leaves the group as well. -/
theorem indexed_pop_iff {m : Manager} {entry : PendingEntry} {g : String} (h : Indexed m g)
    (hentry : m.pending.get? key = some entry) (hg : g ≠ "") {t : Manager}
    (hpending : t.pending = m.pending.pop key)
    (hgroups : t.groups = if groupId = "" then m.groups else discardMember m.groups groupId key) :
    Indexed t g ↔ (entry.groupId = g → g = groupId) := by
  have hmembers : ∀ k, k ∈ membersOf t.groups g ↔
      k ∈ membersOf m.groups g ∧ ¬(g = groupId ∧ k = key) := by
    intro k
    rw [hgroups]
    split_ifs with hempty
    · rw [hempty]
      simp [hg]
    · exact mem_membersOf_discard
  have hstored : ∀ k, (∃ e, t.pending.get? k = some e ∧ e.groupId = g) ↔
      k ≠ key ∧ ∃ e, m.pending.get? k = some e ∧ e.groupId = g := by
    intro k
    rw [hpending, Dict.get?_pop]
    by_cases hk : k = key
    · simp [hk]
    · simp [hk]
  constructor
  · intro hafter hsame
    by_contra hother
    have hkey : key ∈ membersOf t.groups g :=
      (hmembers key).mpr ⟨(h.members key).mpr ⟨entry, hentry, hsame⟩, fun hboth => hother hboth.1⟩
    exact ((hstored key).mp ((hafter.members key).mp hkey)).1 rfl
  · intro hleaves
    refine ⟨?_, ?_⟩
    · intro k
      rw [hmembers, hstored, h.members]
      constructor
      · intro ⟨⟨found, hfound, hgroup⟩, hnot⟩
        refine ⟨?_, found, hfound, hgroup⟩
        intro hk
        subst hk
        rw [hentry] at hfound
        exact hnot ⟨hleaves (Option.some.inj hfound ▸ hgroup), rfl⟩
      · intro ⟨hk, hfound⟩
        exact ⟨hfound, fun hboth => hk hboth.2⟩
    · rw [hgroups]
      split_ifs with hempty
      · exact h.nonempty
      · exact discard_nonempty h.nonempty

end Index

section Steps

variable {l t : Ledger} {entry stored : PendingEntry} {key : String}

theorem length_pop {m : Manager} (hentry : m.pending.get? key = some entry) :
    m.pending.items.length = (m.pending.pop key).items.length + 1 := by
  rw [(Dict.perm_of_get? hentry).length_eq, List.length_cons]

theorem length_set_of_contains {m : Manager} (hkey : m.pending.contains key = true) :
    (m.pending.set key entry).items.length = m.pending.items.length := by
  rw [Dict.contains, Option.isSome_iff_exists] at hkey
  obtain ⟨old, hold⟩ := hkey
  rw [(Dict.perm_set m.pending key entry).length_eq, List.length_cons, length_pop hold]

theorem kept_of_same (hkept : Kept l) (hpending : t.manager.pending = l.manager.pending)
    (hgroups : t.manager.groups = l.manager.groups) (hstats : t.stats = l.stats)
    (hrestored : t.restored = l.restored) : Kept t := by
  refine ⟨by rw [hstats, hpending]; exact hkept.balance, ?_⟩
  intro groupId hgroup hnot
  have h := hkept.indexed groupId hgroup (hrestored ▸ hnot)
  refine ⟨?_, by rw [hgroups]; exact h.nonempty⟩
  rw [hgroups, hpending]
  exact h.members

theorem keyed_of_same {m n : Manager} (hkeyed : Keyed m) (hpending : n.pending = m.pending) :
    Keyed n := by
  intro key entry hentry
  exact hkeyed key entry (hpending ▸ hentry)

theorem keyed_pop {m n : Manager} (hkeyed : Keyed m) (hpending : n.pending = m.pending.pop key) :
    Keyed n := by
  intro other found hfound
  rw [hpending, Dict.get?_pop] at hfound
  split_ifs at hfound
  exact hkeyed other found hfound

/-- One entry leaves the map, its key a group, and one counter goes up. -/
theorem kept_pop_iff {groupId : String} (hkept : Kept l)
    (hstored : l.manager.pending.get? key = some stored)
    (hpending : t.manager.pending = l.manager.pending.pop key)
    (hgroups : t.manager.groups = if groupId = "" then l.manager.groups
      else discardMember l.manager.groups groupId key)
    (hsubmitted : t.stats.submitted = l.stats.submitted)
    (hcounted : t.stats.filled + t.stats.expired + t.stats.cancelled =
      l.stats.filled + l.stats.expired + l.stats.cancelled + 1)
    (hrestored : t.restored = l.restored) :
    Kept t ↔ Indexless l key groupId := by
  have hbalance : t.stats.submitted =
      t.manager.pending.items.length + t.stats.filled + t.stats.expired + t.stats.cancelled := by
    have hbefore := hkept.balance
    rw [length_pop hstored] at hbefore
    rw [hsubmitted, hpending]
    omega
  have hindexed : ∀ g, g ≠ "" → g ∉ l.restored →
      (Indexed t.manager g ↔ (stored.groupId = g → g = groupId)) :=
    fun g hg hnot => indexed_pop_iff (hkept.indexed g hg hnot) hstored hg hpending hgroups
  constructor
  · intro h found hfound
    have hsame : found = stored := Option.some.inj (hfound.symm.trans hstored)
    subst hsame
    by_cases hgroup : found.groupId = ""
    · exact Or.inl hgroup
    · by_cases hnot : found.groupId ∈ l.restored
      · exact Or.inr (Or.inl hnot)
      · refine Or.inr (Or.inr ((hindexed found.groupId hgroup hnot).mp ?_ rfl))
        exact h.indexed found.groupId hgroup (hrestored ▸ hnot)
  · intro hindexless
    refine ⟨hbalance, ?_⟩
    intro g hg hnot
    rw [hrestored] at hnot
    refine (hindexed g hg hnot).mpr ?_
    intro hsame
    rcases hindexless stored hstored with hempty | hold | hgroup
    · exact absurd (hsame.symm.trans hempty) hg
    · exact absurd (hsame ▸ hold) hnot
    · exact hsame.symm.trans hgroup

/-- A submit keeps the books exactly when its key is free. -/
theorem kept_submit_iff (hkept : Kept l) :
    Kept { l with
      manager := submit l.manager entry
      stats := { l.stats with submitted := l.stats.submitted + 1 } } ↔
      l.manager.pending.contains entry.key = false := by
  have hbefore := hkept.balance
  constructor
  · intro h
    by_contra hkey
    have hafter := h.balance
    rw [submit] at hafter
    dsimp only at hafter
    rw [length_set_of_contains (Bool.not_eq_false _ ▸ hkey)] at hafter
    omega
  · intro hfree
    have hnone : l.manager.pending.get? entry.key = none := by
      simpa [Dict.contains] using hfree
    refine ⟨?_, ?_⟩
    · rw [submit]
      dsimp only
      rw [Dict.set_items_of_get?_none _ hnone, List.length_append, List.length_singleton]
      omega
    · intro g hg hnot
      have h := hkept.indexed g hg hnot
      have hmembers : ∀ k, k ∈ membersOf (submit l.manager entry).groups g ↔
          k ∈ membersOf l.manager.groups g ∨ (g = entry.groupId ∧ k = entry.key) := by
        intro k
        rw [submit]
        dsimp only
        split_ifs with hempty
        · rw [hempty]
          simp [hg]
        · exact mem_membersOf_addMember _ _ _ _ _
      refine ⟨?_, ?_⟩
      · intro k
        rw [hmembers, h.members, submit]
        dsimp only
        rw [Dict.get?_set]
        by_cases hk : k = entry.key
        · subst hk
          rw [if_pos rfl, hnone]
          simp [eq_comm]
        · rw [if_neg hk]
          simp [hk]
      · rw [submit]
        dsimp only
        split_ifs with hempty
        · exact h.nonempty
        · exact add_nonempty h.nonempty

theorem keyed_submit (hkeyed : Keyed l.manager) : Keyed (submit l.manager entry) := by
  intro key found hfound
  rw [submit] at hfound
  dsimp only at hfound
  rw [Dict.get?_set] at hfound
  split_ifs at hfound with hkey
  · rw [← Option.some.inj hfound, key_normalized, hkey]
  · exact hkeyed key found hfound

/-- Popping an entry and its key out of its own group, and counting it, keeps the books. -/
theorem kept_removeEntry (hkept : Kept l) (hkeyed : Keyed l.manager)
    (hstored : l.manager.pending.get? key = some stored)
    (hmanager : t.manager.pending = (removeEntry l.manager key key stored).pending ∧
      t.manager.groups = (removeEntry l.manager key key stored).groups)
    (hsubmitted : t.stats.submitted = l.stats.submitted)
    (hcounted : t.stats.filled + t.stats.expired + t.stats.cancelled =
      l.stats.filled + l.stats.expired + l.stats.cancelled + 1)
    (hrestored : t.restored = l.restored) : Kept t ∧ Keyed t.manager := by
  refine ⟨(kept_pop_iff hkept hstored hmanager.1 hmanager.2 hsubmitted hcounted hrestored).mpr ?_,
    keyed_pop hkeyed hmanager.1⟩
  intro found hfound
  rw [Option.some.inj (hfound.symm.trans hstored)]
  exact Or.inr (Or.inr rfl)

theorem kept_cancel (hkept : Kept l) (hkeyed : Keyed l.manager) (key : String) :
    Kept { l with
        manager := cancel l.manager key
        stats := { l.stats with cancelled := l.stats.cancelled + cancelled l.manager key } } ∧
      Keyed (cancel l.manager key) := by
  unfold cancel cancelled
  cases hstored : l.manager.pending.get? key with
  | some stored =>
    dsimp only
    rw [hkeyed key stored hstored]
    exact kept_removeEntry hkept hkeyed hstored ⟨rfl, rfl⟩ rfl rfl rfl
  | none =>
    dsimp only
    cases hfind : l.manager.pending.items.find? fun p => p.2.signalId = key with
    | none => exact ⟨hkept, hkeyed⟩
    | some p =>
      have hget := (Dict.mem_items_iff_get? l.manager.pending p.1 p.2).mp
        (List.mem_of_find?_eq_some hfind)
      dsimp only
      rw [hkeyed p.1 p.2 hget]
      exact kept_removeEntry hkept hkeyed hget ⟨rfl, rfl⟩ rfl rfl rfl

theorem kept_removeKeys (hkept : Kept l) (hkeyed : Keyed l.manager) (keys : List String) :
    Kept { l with
        manager := keys.foldl removeKey l.manager
        stats := { l.stats with
          cancelled := l.stats.cancelled + removals l.manager keys } } ∧
      Keyed (keys.foldl removeKey l.manager) := by
  induction keys generalizing l with
  | nil => exact ⟨hkept, hkeyed⟩
  | cons key rest ih =>
    have hfirst : Kept { l with
        manager := removeKey l.manager key
        stats := { l.stats with
          cancelled := l.stats.cancelled + if l.manager.pending.contains key then 1 else 0 } } ∧
        Keyed (removeKey l.manager key) := by
      unfold removeKey Dict.contains
      cases hstored : l.manager.pending.get? key with
      | none => exact ⟨hkept, hkeyed⟩
      | some stored =>
        exact kept_removeEntry hkept hkeyed hstored ⟨rfl, rfl⟩ rfl rfl rfl
    have hrest := ih hfirst.1 hfirst.2
    dsimp only at hrest
    rw [removals, ← Nat.add_assoc]
    exact hrest

theorem indexless_of_not_contains {groupId : String}
    (hkey : ¬l.manager.pending.contains key = true) : Indexless l key groupId := by
  intro found hfound
  rw [Dict.contains, Option.mem_def.mp hfound] at hkey
  exact absurd rfl hkey

theorem exists_of_contains {m : Manager} (hkey : m.pending.contains key = true) :
    ∃ stored, m.pending.get? key = some stored :=
  Option.isSome_iff_exists.mp hkey

/-- A fill pops what stands under its key and takes the key out of its own group. -/
theorem kept_fill_iff (hkept : Kept l) (hkeyed : Keyed l.manager) (price : ℚ) (now : ℤ)
    (rest : List PendingEntry) :
    (Kept { l with
        manager := fillEntry l.manager entry price now rest
        stats := countFill l.manager l.stats entry } ↔
      Indexless l entry.key entry.groupId) ∧
      Keyed (fillEntry l.manager entry price now rest) := by
  unfold fillEntry countFill
  by_cases hkey : l.manager.pending.contains entry.key = true
  · obtain ⟨stored, hstored⟩ := exists_of_contains hkey
    rw [if_pos hkey, if_pos hkey]
    refine ⟨kept_pop_iff hkept hstored rfl rfl rfl ?_ rfl, keyed_pop hkeyed rfl⟩
    dsimp only
    omega
  · rw [if_neg hkey, if_neg hkey]
    exact ⟨iff_of_true (kept_of_same hkept rfl rfl rfl rfl) (indexless_of_not_contains hkey),
      hkeyed⟩

/-- An expiry pops what stands under the signal id and leaves the index as it is. -/
theorem kept_expire_iff (hkept : Kept l) (hkeyed : Keyed l.manager) (monitor : Monitor) :
    (Kept { l with
        manager := { expirePop l.manager entry with monitor := monitor }
        stats := countExpiry l.manager l.stats entry } ↔
      Indexless l entry.signalId "") ∧
      Keyed { expirePop l.manager entry with monitor := monitor } := by
  unfold expirePop countExpiry
  by_cases hsignal : l.manager.pending.contains entry.signalId = true
  · obtain ⟨stored, hstored⟩ := exists_of_contains hsignal
    rw [if_pos hsignal, if_pos hsignal]
    refine ⟨kept_pop_iff hkept hstored rfl (if_pos rfl).symm rfl ?_ rfl, keyed_pop hkeyed rfl⟩
    dsimp only
    omega
  · rw [if_neg hsignal, if_neg hsignal]
    exact ⟨iff_of_true (kept_of_same hkept rfl rfl rfl rfl) (indexless_of_not_contains hsignal),
      hkeyed⟩

/-- An overflow counts an expiry whether it pops something or not. -/
theorem kept_overflow_iff (hkept : Kept l) (hkeyed : Keyed l.manager) (closed : List ℕ)
    (monitor : Monitor) :
    (Kept { l with
        manager := { l.manager with
          pending := l.manager.pending.pop key, closed := closed, monitor := monitor }
        stats := { l.stats with expired := l.stats.expired + 1 } } ↔
      l.manager.pending.contains key = true ∧ Indexless l key "") ∧
      Keyed { l.manager with
        pending := l.manager.pending.pop key, closed := closed, monitor := monitor } := by
  refine ⟨?_, keyed_pop hkeyed rfl⟩
  by_cases hkey : l.manager.pending.contains key = true
  · obtain ⟨stored, hstored⟩ := exists_of_contains hkey
    rw [and_iff_right hkey]
    refine kept_pop_iff hkept hstored rfl (if_pos rfl).symm rfl ?_ rfl
    dsimp only
    omega
  · refine iff_of_false ?_ fun h => hkey h.1
    intro h
    have hnone : l.manager.pending.get? key = none := by
      simpa [Dict.contains] using hkey
    have hbefore := hkept.balance
    have hafter := h.balance
    dsimp only at hafter
    rw [Dict.pop_items_of_get?_none hnone] at hafter
    omega

theorem get?_foldl_addMember {groupId g : String} (hother : g ≠ groupId) (keys : List String)
    (groups : Groups) :
    (keys.foldl (fun groups key => addMember groups groupId key) groups).get? g =
      groups.get? g := by
  induction keys generalizing groups with
  | nil => rfl
  | cons key rest ih =>
    rw [List.foldl_cons, ih, addMember, Dict.get?_set, if_neg hother]

theorem kept_restore (hkept : Kept l) (hkeyed : Keyed l.manager) (groupId : String)
    (keys : List String) :
    Kept (restoreGroupIndex l groupId keys) ∧ Keyed (restoreGroupIndex l groupId keys).manager := by
  unfold restoreGroupIndex
  split_ifs with hskipped
  · exact ⟨hkept, hkeyed⟩
  · refine ⟨⟨hkept.balance, ?_⟩, hkeyed⟩
    intro g hg hnot
    obtain ⟨hother, hold⟩ := List.ne_and_not_mem_of_not_mem_cons hnot
    have h := hkept.indexed g hg hold
    have hget := get?_foldl_addMember hother (keys.filter (· ≠ "")) l.manager.groups
    refine ⟨?_, ?_⟩
    · intro key
      rw [membersOf, hget]
      exact h.members key
    · dsimp only
      rw [hget]
      exact h.nonempty

end Steps

section Runs

variable {config : Config} {l t : Ledger}

/-- The steps that leave map and index as they are. -/
def quiet : Act → Bool
  | .submit _ | .cancel _ | .cancelBySymbol _ _ | .shutdown | .checkNext _ | .fill | .overflow
  | .cancelMember => false
  | _ => true

theorem step_of_quiet {m n : Manager} {a : Act} (hquiet : quiet a = true)
    (hstep : Step config m a n) : n.pending = m.pending ∧ n.groups = m.groups := by
  cases hstep with
  | submit entry => cases hquiet
  | cancel key => cases hquiet
  | cancelBySymbol symbol excludeDirection => cases hquiet
  | shutdown => cases hquiet
  | endPass quote hmonitor => cases hquiet
  | checkNext quote hmonitor => cases hquiet
  | fill hmonitor => cases hquiet
  | overflow hmonitor hfull => cases hquiet
  | cancelMember hworker => cases hquiet
  | startPass now hmonitor => exact ⟨rfl, rfl⟩
  | abortPass hmonitor => exact ⟨rfl, rfl⟩
  | enqueue hmonitor hroom => exact ⟨rfl, rfl⟩
  | takeResult hworker hqueue => exact ⟨rfl, rfl⟩
  | executed hworker => exact ⟨rfl, rfl⟩
  | failed hworker => exact ⟨rfl, rfl⟩
  | readMembers hworker hperm => exact ⟨rfl, rfl⟩
  | portAnswers returned hworker => exact ⟨rfl, rfl⟩

theorem step_act {a : Act} (hstep : step config l (.act a) = some t) :
    ∃ m, Step config l.manager a m ∧
      t = { l with manager := m, stats := count config l.manager l.stats a } := by
  obtain ⟨m, hm, ht⟩ := Option.map_eq_some_iff.mp hstep
  exact ⟨m, step_eq_some_iff.mp hm, ht.symm⟩

theorem kept_of_quiet {a : Act} {m : Manager} (hkept : Kept l) (hkeyed : Keyed l.manager)
    (hquiet : quiet a = true) (hstep : Step config l.manager a m) :
    Kept { l with manager := m, stats := count config l.manager l.stats a } ∧ Keyed m := by
  obtain ⟨hpending, hgroups⟩ := step_of_quiet hquiet hstep
  have hstats : count config l.manager l.stats a = l.stats := by
    cases a
    all_goals first
      | rfl
      | cases hquiet
  exact ⟨kept_of_same hkept hpending hgroups hstats rfl, keyed_of_same hkeyed hpending⟩

/-- The turn of an entry in a pass. -/
theorem kept_check_iff {entry : PendingEntry} {quote : Option Quote} {now : ℤ}
    {rest : List PendingEntry} (hkept : Kept l) (hkeyed : Keyed l.manager) :
    (Kept { l with
        manager := checkEntry config l.manager entry quote now rest
        stats := countCheck config l.manager l.stats entry quote now } ↔
      (entry.expiresAt ≤ now →
        if quote.any (withinTolerance config entry) then Indexless l entry.key entry.groupId
        else Indexless l entry.signalId "")) ∧
      Keyed (checkEntry config l.manager entry quote now rest) := by
  unfold checkEntry countCheck
  by_cases htime : entry.expiresAt ≤ now
  · rw [if_pos htime, if_pos htime, forall_prop_of_true htime]
    cases quote with
    | none => exact kept_expire_iff hkept hkeyed _
    | some quote =>
      rw [Option.any_some]
      dsimp only
      by_cases hwithin : withinTolerance config entry quote = true
      · rw [if_pos hwithin, if_pos hwithin, if_pos hwithin]
        exact kept_fill_iff hkept hkeyed _ _ _
      · rw [if_neg hwithin, if_neg hwithin, if_neg hwithin]
        exact kept_expire_iff hkept hkeyed _
  · rw [if_neg htime, if_neg htime]
    have hsame : ∀ m : Manager, m.pending = l.manager.pending → m.groups = l.manager.groups →
        (Kept { l with manager := m, stats := l.stats } ↔ (entry.expiresAt ≤ now →
          if quote.any (withinTolerance config entry) then Indexless l entry.key entry.groupId
          else Indexless l entry.signalId "")) ∧ Keyed m := by
      intro m hpending hgroups
      exact ⟨iff_of_true (kept_of_same hkept hpending hgroups rfl rfl) fun h => absurd h htime,
        keyed_of_same hkeyed hpending⟩
    cases quote with
    | none => exact hsame _ rfl rfl
    | some quote =>
      dsimp only
      by_cases hfound : l.manager.pending.contains entry.signalId = true ∧
          entry.oid ∉ l.manager.closed ∧ inZone config entry quote = true
      · rw [if_pos hfound]
        exact hsame _ rfl rfl
      · rw [if_neg hfound]
        exact hsame _ rfl rfl

/-- The map is emptied, and nothing is counted or taken out of the index. -/
theorem kept_shutdown_iff (hkept : Kept l) :
    (Kept { l with
        manager := { l.manager with
          pending := Dict.empty
          closed := l.manager.pending.values.map PendingEntry.oid ++ l.manager.closed
          queue := [] } } ↔
      l.manager.pending.items = []) ∧
      Keyed { l.manager with
          pending := Dict.empty
          closed := l.manager.pending.values.map PendingEntry.oid ++ l.manager.closed
          queue := [] } := by
  have hbefore := hkept.balance
  refine ⟨⟨?_, ?_⟩, fun key entry hentry => nomatch hentry⟩
  · intro h
    have hafter := h.balance
    dsimp only [Dict.empty] at hafter
    rw [List.length_nil] at hafter
    exact List.length_eq_zero_iff.mp (by omega)
  · intro hempty
    refine ⟨?_, ?_⟩
    · dsimp only [Dict.empty]
      rw [hempty] at hbefore
      exact hbefore
    · intro g hg hnot
      have h := hkept.indexed g hg hnot
      refine ⟨?_, h.nonempty⟩
      intro key
      refine (h.members key).trans ?_
      unfold Dict.get?
      rw [hempty]
      rfl

/-- A step from kept books keeps them exactly when it meets its condition. -/
theorem step_kept_iff {event : Event} (hkept : Kept l) (hkeyed : Keyed l.manager)
    (hstep : step config l event = some t) :
    (Kept t ↔ Accounted config l event) ∧ Keyed t.manager := by
  cases event with
  | restoreGroupIndex groupId keys =>
    have hrestore := kept_restore hkept hkeyed groupId keys
    rw [← Option.some.inj hstep]
    exact ⟨iff_of_true hrestore.1 trivial, hrestore.2⟩
  | act a =>
    obtain ⟨m, hm, rfl⟩ := step_act hstep
    by_cases hquiet : quiet a = true
    · have hsame := kept_of_quiet hkept hkeyed hquiet hm
      have hcondition : Accounted config l (.act a) := by
        cases a
        all_goals trivial
      exact ⟨iff_of_true hsame.1 hcondition, hsame.2⟩
    · cases hm with
      | submit entry => exact ⟨kept_submit_iff hkept, keyed_submit hkeyed⟩
      | cancel key =>
        have hcancel := kept_cancel hkept hkeyed key
        exact ⟨iff_of_true hcancel.1 trivial, hcancel.2⟩
      | cancelBySymbol symbol excludeDirection =>
        have hkeys := kept_removeKeys hkept hkeyed (keysToCancel l.manager symbol excludeDirection)
        exact ⟨iff_of_true hkeys.1 trivial, hkeys.2⟩
      | shutdown => exact kept_shutdown_iff hkept
      | endPass quote hmonitor =>
        simp only [Accounted, count, hmonitor]
        exact ⟨iff_of_true (kept_of_same hkept rfl rfl rfl rfl) trivial, keyed_of_same hkeyed rfl⟩
      | checkNext quote hmonitor =>
        simp only [Accounted, count, hmonitor]
        exact kept_check_iff hkept hkeyed
      | fill hmonitor =>
        simp only [Accounted, count, hmonitor]
        exact kept_fill_iff hkept hkeyed _ _ _
      | overflow hmonitor hfull =>
        simp only [Accounted, count, hmonitor, forall_prop_of_true hfull]
        exact kept_overflow_iff hkept hkeyed _ _
      | @cancelMember attempt groupId filled member rest hworker =>
        simp only [Accounted, count, hworker]
        by_cases hself : member = filled
        · rw [if_pos hself, if_pos hself]
          exact ⟨iff_of_true (kept_of_same hkept rfl rfl rfl rfl) trivial,
            keyed_of_same hkeyed rfl⟩
        · rw [if_neg hself, if_neg hself]
          have hcancel := kept_cancel hkept hkeyed member
          exact ⟨iff_of_true (kept_of_same hcancel.1 rfl rfl rfl rfl) trivial,
            keyed_of_same hcancel.2 rfl⟩
      | startPass _ _ | abortPass _ | enqueue _ _ | takeResult _ _ | executed _ | failed _
      | readMembers _ _ | portAnswers _ _ => exact absurd rfl hquiet

theorem accounted_of_not_enabled {event : Event} (hstep : step config l event = none) :
    Accounted config l event := by
  cases event with
  | restoreGroupIndex groupId keys => trivial
  | act a =>
    have hm : PendingEntries.step config l.manager a = none := Option.map_eq_none_iff.mp hstep
    have hstuck : ∀ m, ¬Step config l.manager a m := by
      intro m henabled
      cases hm.symm.trans (step_eq_some_iff.mpr henabled)
    cases a with
    | submit entry => exact absurd (.submit entry) (hstuck _)
    | shutdown => exact absurd .shutdown (hstuck _)
    | checkNext quote =>
      dsimp only [Accounted]
      split
      · rename_i hmonitor
        exact absurd (.checkNext quote hmonitor) (hstuck _)
      · trivial
    | fill =>
      dsimp only [Accounted]
      split
      · rename_i hmonitor
        exact absurd (.fill hmonitor) (hstuck _)
      · trivial
    | overflow =>
      dsimp only [Accounted]
      split
      · rename_i hmonitor
        intro hfull
        exact absurd (.overflow hmonitor hfull) (hstuck _)
      · trivial
    | cancel key => trivial
    | cancelBySymbol symbol excludeDirection => trivial
    | startPass now => trivial
    | abortPass => trivial
    | enqueue => trivial
    | takeResult => trivial
    | executed returned => trivial
    | readMembers members => trivial
    | cancelMember => trivial
    | portAnswers returned => trivial

end Runs

theorem start_kept : Kept start ∧ Keyed start.manager := by
  refine ⟨⟨rfl, ?_⟩, fun key entry hentry => nomatch hentry⟩
  intro groupId _ _
  refine ⟨?_, fun hentry => nomatch hentry⟩
  intro key
  refine iff_of_false (fun hmem => nomatch hmem) ?_
  intro ⟨entry, hentry, _⟩
  cases hentry

/-- The books are kept in every state of a run exactly when every step of it meets its
condition. -/
theorem kept_along_run_iff (config : Config) (events : List Event) :
    (∀ front back l, events = front ++ back → run (step config) start front = some l → Kept l) ↔
      Along (step config) (Accounted config) start events :=
  forall_reached_iff_along (fun _ _ _ hkept hkeyed hstep => step_kept_iff hkept hkeyed hstep)
    (fun _ _ => accounted_of_not_enabled) start_kept.1 start_kept.2 events

/-- A submit that finds its key taken cancels first, and then finds it free. -/
theorem resubmit_along (config : Config) (l : Ledger) (entry : PendingEntry) :
    Along (step config) (Accounted config) l [.act (.cancel entry.key), .act (.submit entry)] := by
  refine ⟨trivial, ?_⟩
  intro t ht
  refine ⟨?_, fun _ _ => trivial⟩
  cases Option.some.inj ht
  change (cancel l.manager entry.key).pending.contains entry.key = false
  rw [Dict.contains, cancel_get?_self]
  rfl

def singleEntry : PendingEntry := { sampleEntry 0 "" with entryKey := "", groupId := "grp" }

/-- The only member of a group expires: the index keeps its key. -/
theorem expiry_leaves_the_index :
    ¬∀ (config : Config) (events : List Event) (l : Ledger),
      run (step config) start events = some l → Kept l := by
  intro h
  let events : List Event :=
    [.act (.submit singleEntry), .act (.startPass 20), .act (.checkNext none)]
  have hrun : (run (step sampleConfig) start events).map (fun l =>
      (membersOf l.manager.groups "grp", l.manager.pending.items, l.restored)) =
        some (["sig"], [], []) := by decide +kernel
  obtain ⟨l, hl, hbooks⟩ := Option.map_eq_some_iff.mp hrun
  obtain ⟨hmembers, hrest⟩ := Prod.mk.inj hbooks
  obtain ⟨hitems, hrestored⟩ := Prod.mk.inj hrest
  have hindexed := (h sampleConfig events l hl).indexed "grp" (by decide) (by simp [hrestored])
  obtain ⟨entry, hentry, -⟩ := (hindexed.members "sig").mp (by rw [hmembers]; simp)
  rw [Dict.get?, hitems] at hentry
  cases hentry

end MT5Services.PendingLedger
