import MT5Services.Runs
import MT5Services.Windows

/-!
The closed bars `MarketDataService` keeps of one symbol and timeframe: a cache of the
newest bars before the `ohlc` table. Reads of any range are merged into the same cache,
which is trimmed by count and trusted as soon as it holds enough bars. A bar is its open
time; the prices of a closed bar never change.
-/
namespace MT5Services.MarketData

open Runs Windows

variable {Time : Type*} [LinearOrder Time]

/-- The rows of the table, in the order of the unique time. -/
structure Table (Time : Type*) [LinearOrder Time] where
  rows : List Time
  sorted : rows.Pairwise (· < ·)

def Table.insert (table : Table Time) (rows : List Time) : Table Time :=
  ⟨mergeSorted table.rows rows, mergeSorted_sorted _ _⟩

def Table.fetchRecentOhlc (table : Table Time) (limit : ℕ) : List Time := table.rows.rtake limit

def Table.fetchOhlcBefore (table : Table Time) (endTime : Time) (limit : ℕ) : List Time :=
  (table.rows.filter (· ≤ endTime)).rtake limit

def inRange (startTime endTime : Option Time) (bar : Time) : Bool :=
  startTime.all (· ≤ bar) && endTime.all (bar ≤ ·)

def Table.fetchOhlcRange (table : Table Time) (startTime endTime : Option Time) (limit : ℕ) :
    List Time :=
  (table.rows.filter (inRange startTime endTime)).take limit

structure Settings where
  ohlcLimit : ℕ := 200
  ohlcCacheLimit : ℕ := 500

def Settings.keepLimit (settings : Settings) : ℕ := max settings.ohlcLimit settings.ohlcCacheLimit

structure Service (Time : Type*) [LinearOrder Time] where
  stored : Table Time
  cached : List Time := []
  settings : Settings := {}

def Service.setOhlcClosed (m : Service Time) (bars : List Time) : Service Time :=
  if bars = [] then m
  else { m with cached := lastItems (mergeSorted m.cached bars) m.settings.keepLimit }

/-- `limit or self.market_settings.ohlc_limit`. -/
def Service.effectiveLimit (m : Service Time) (limit : Option ℕ) : ℕ :=
  match limit with
  | some n => if n = 0 then m.settings.ohlcLimit else n
  | none => m.settings.ohlcLimit

/-- `answers` is whether there is a storage and its read succeeds. -/
def Service.getOhlcClosed (m : Service Time) (limit : Option ℕ) (answers : Bool) :
    List Time × Service Time :=
  let count := m.effectiveLimit limit
  if count ≤ m.cached.length ∨ answers = false then (lastItems m.cached count, m)
  else
    let merged := mergeSorted (m.stored.fetchRecentOhlc count) m.cached
    (lastItems merged count, m.setOhlcClosed merged)

def cachedWindow (m : Service Time) (endTime : Time) : List Time :=
  m.cached.filter (· ≤ endTime)

/-- The cached bars end at the time and are enough: the window is answered from the cache. -/
def Served (m : Service Time) (endTime : Time) (limit : ℕ) : Prop :=
  (cachedWindow m endTime).getLast? = some endTime ∧ limit ≤ (cachedWindow m endTime).length

instance (m : Service Time) (endTime : Time) (limit : ℕ) : Decidable (Served m endTime limit) :=
  inferInstanceAs (Decidable (_ ∧ _))

/-- What of the cache is answered where the storage does not help. -/
def windowFallback (window : List Time) (endTime : Time) (limit : ℕ) : List Time :=
  if window.getLast? = some endTime then lastItems window limit else []

/-- The answer is `none` where a strict read raises. -/
def Service.getOhlcWindow (m : Service Time) (endTime : Time) (limit : ℕ) (strict answers : Bool) :
    Option (List Time) × Service Time :=
  let window := cachedWindow m endTime
  if Served m endTime limit then (some (lastItems window limit), m)
  else if answers = false then
    (if strict then none else some (windowFallback window endTime limit), m)
  else
    let persisted := m.stored.fetchOhlcBefore endTime limit
    let updated := m.setOhlcClosed persisted
    if persisted.getLast? = some endTime then (some (lastItems persisted limit), updated)
    else (some (windowFallback window endTime limit), updated)

/-- Without the storage the bars come from `get_ohlc_closed`, whose own read may succeed. -/
def Service.getOhlcHistoryResult (m : Service Time) (startTime endTime : Option Time) (limit : ℕ)
    (strict answers answersRecent : Bool) : Option (List Time × String) × Service Time :=
  if answers = false then
    if strict then (none, m)
    else
      let (bars, updated) := m.getOhlcClosed (some limit) answersRecent
      (some (bars.filter (inRange startTime endTime), "cache"), updated)
  else
    let bars := m.stored.fetchOhlcRange startTime endTime limit
    (some (bars, "timescaledb"), m.setOhlcClosed bars)

/-- The service with every bar ingestion has passed to it. -/
structure State (Time : Type*) [LinearOrder Time] where
  service : Service Time
  ingested : List Time := []

/-- The union of the stored and the ingested bars. -/
def State.history (s : State Time) : List Time := mergeSorted s.service.stored.rows s.ingested

inductive Act (Time : Type*)
  | ingest (bars : List Time)
  /-- The storage writer inserts ingested bars, in any order and any time later. -/
  | persist (rows : List Time)
  | closed (limit : Option ℕ) (answers : Bool)
  | window (endTime : Time) (limit : ℕ) (strict answers : Bool)
  | historyResult (startTime endTime : Option Time) (limit : ℕ)
    (strict answers answersRecent : Bool)
  deriving DecidableEq

/-- The latest closed bars in order: none that is known is missing after the first. -/
def State.Latest (s : State Time) (bars : List Time) : Prop :=
  bars.Pairwise (· < ·) ∧ ∀ first ∈ bars, ∀ bar ∈ s.history, first ≤ bar → bar ∈ bars

instance (s : State Time) (bars : List Time) : Decidable (s.Latest bars) :=
  inferInstanceAs (Decidable (_ ∧ _))

def step (s : State Time) : Act Time → Option (State Time)
  | .ingest bars =>
    if s.Latest bars then
      some { service := s.service.setOhlcClosed bars, ingested := s.ingested ++ bars }
    else none
  | .persist rows =>
    if rows ⊆ s.ingested then
      some { s with
        service :=
          { s.service with
            stored := s.service.stored.insert rows } }
    else none
  | .closed limit answers =>
    some { s with
      service := (s.service.getOhlcClosed limit answers).2 }
  | .window endTime limit strict answers =>
    some { s with
      service := (s.service.getOhlcWindow endTime limit strict answers).2 }
  | .historyResult startTime endTime limit strict answers answersRecent =>
    some { s with
      service :=
        (s.service.getOhlcHistoryResult startTime endTime limit strict answers answersRecent).2 }

def start (stored : Table Time) (settings : Settings) : State Time :=
  { service := { stored := stored, settings := settings } }

/-- The bars up to a time. -/
def State.upTo (s : State Time) (endTime : Time) : List Time := s.history.filter (· ≤ endTime)

/-- The answer of a step is the last `limit` bars; a window that is asked for at a time with
no stored bar, or answered with nothing, is not judged. -/
def AnswersWhole (s : State Time) : Act Time → Prop
  | .closed limit answers =>
    (s.service.getOhlcClosed limit answers).1 = s.history.rtake (s.service.effectiveLimit limit)
  | .window endTime limit strict answers =>
    endTime ∈ s.service.stored.rows →
      ∀ bars ∈ (s.service.getOhlcWindow endTime limit strict answers).1, bars ≠ [] →
        bars = (s.upTo endTime).rtake limit
  | _ => True

/-- The bars that are read join the cached ones without a hole, or a full cache drops them. -/
def Joins (s : State Time) (bars : List Time) : Prop :=
  (0 < s.service.settings.keepLimit ∧ s.service.settings.keepLimit ≤ s.service.cached.length) ∨
    ∀ first ∈ bars, ∀ bar ∈ s.history, first ≤ bar → bar ∈ bars ∨ bar ∈ s.service.cached

/-- Ingestion evicts only bars that are stored, no limit is zero, what is not answered from the
cache is read from a storage that answers and has the bars, and what is read joins the cache. -/
def ReadsJoin (s : State Time) : Act Time → Prop
  | .ingest bars =>
    ∀ bar ∈ mergeSorted s.service.cached bars,
      bar ∈ (s.service.setOhlcClosed bars).cached ∨ bar ∈ s.service.stored.rows
  | .persist _ => True
  | .closed limit answers =>
    0 < s.service.effectiveLimit limit ∧
      (s.service.effectiveLimit limit ≤ s.service.cached.length ∨ answers = true)
  | .window endTime limit _ answers =>
    (endTime ∈ s.service.stored.rows → 0 < limit ∧ (Served s.service endTime limit ∨
      (answers = true ∧ (s.upTo endTime).rtake limit ⊆ s.service.stored.rows))) ∧
    (Served s.service endTime limit ∨ answers = false ∨
      Joins s (s.service.stored.fetchOhlcBefore endTime limit))
  | .historyResult startTime endTime limit _ answers _ =>
    answers = false ∨ Joins s (s.service.stored.fetchOhlcRange startTime endTime limit)

instance (s : State Time) : ∀ act, Decidable (AnswersWhole s act)
  | .closed limit answers =>
    inferInstanceAs (Decidable ((s.service.getOhlcClosed limit answers).1 = _))
  | .window endTime limit strict answers =>
    inferInstanceAs (Decidable (_ → ∀ bars ∈ (s.service.getOhlcWindow endTime limit strict answers).1,
      _ → _))
  | .ingest _ | .persist _ | .historyResult .. => inferInstanceAs (Decidable True)

instance (s : State Time) (bars : List Time) : Decidable (Joins s bars) :=
  inferInstanceAs (Decidable (_ ∨ _))

instance (s : State Time) : ∀ act, Decidable (ReadsJoin s act)
  | .ingest bars => inferInstanceAs (Decidable (∀ bar ∈ mergeSorted s.service.cached bars, _))
  | .persist _ => inferInstanceAs (Decidable True)
  | .closed limit _ => inferInstanceAs (Decidable (0 < s.service.effectiveLimit limit ∧ _))
  | .window endTime _ _ _ =>
    inferInstanceAs (Decidable ((endTime ∈ s.service.stored.rows → _ ∧ _) ∧ _))
  | .historyResult _ _ _ _ answers _ => inferInstanceAs (Decidable (answers = false ∨ _))

/-- The cache is the end of the history, and the bars before it are stored. -/
structure Whole (s : State Time) : Prop where
  suffix : s.service.cached <:+ s.history
  bounded : 0 < s.service.settings.keepLimit →
    s.service.cached.length ≤ s.service.settings.keepLimit
  stored : ∀ bar ∈ s.history, bar ∉ s.service.cached → bar ∈ s.service.stored.rows

theorem State.history_sorted (s : State Time) : s.history.Pairwise (· < ·) :=
  mergeSorted_sorted _ _

variable {s : State Time}

theorem State.mem_history {bar : Time} :
    bar ∈ s.history ↔ bar ∈ s.service.stored.rows ∨ bar ∈ s.ingested := mem_mergeSorted

theorem Whole.cached_sorted (h : Whole s) :
    s.service.cached.Pairwise (· < ·) := s.history_sorted.sublist h.suffix.sublist

theorem setOhlcClosed_frame (m : Service Time) (bars : List Time) :
    (m.setOhlcClosed bars).stored = m.stored ∧ (m.setOhlcClosed bars).settings = m.settings := by
  unfold Service.setOhlcClosed
  split <;> exact ⟨rfl, rfl⟩

/-- The length of a cache after bars were merged into it and the rest trimmed. -/
theorem length_le_lastItems {m : Service Time} (bars : List Time)
    (hcached : m.cached.Pairwise (· < ·))
    (hbound : 0 < m.settings.keepLimit → m.cached.length ≤ m.settings.keepLimit) :
    m.cached.length ≤
      (lastItems (mergeSorted m.cached bars) m.settings.keepLimit).length := by
  have hmerged : m.cached.length ≤ (mergeSorted m.cached bars).length :=
    (sublist_of_subset hcached (mergeSorted_sorted _ _) fun bar hbar =>
      mem_mergeSorted.mpr (Or.inl hbar)).length_le
  unfold lastItems
  split
  · exact hmerged
  · rw [length_rtake]
    have := hbound (by omega)
    omega

variable {bars : List Time}

/-- Merging a read into the cache: where it joins, the cache stays the end of the history. -/
theorem Whole.merge (h : Whole s) (hknown : bars ⊆ s.history) (hjoins : Joins s bars) :
    Whole { s with
      service := s.service.setOhlcClosed bars } := by
  by_cases hbars : bars = []
  · rw [Service.setOhlcClosed, if_pos hbars]
    exact h
  · have hmerged : mergeSorted s.service.cached bars ⊆ s.history := by
      intro bar hbar
      rcases mem_mergeSorted.mp hbar with hold | hnew
      · exact h.suffix.mem hold
      · exact hknown hnew
    have hend : lastItems (mergeSorted s.service.cached bars) s.service.settings.keepLimit <:+
        s.history := by
      rcases hjoins with ⟨hpos, hfull⟩ | hjoined
      · have hwindow : s.history.rtake s.service.settings.keepLimit ⊆
            mergeSorted s.service.cached bars := by
          intro bar hbar
          rw [← rtake_of_suffix h.suffix hfull] at hbar
          exact mem_mergeSorted.mpr (Or.inl ((rtake_suffix _ _).mem hbar))
        rw [lastItems_of_pos _ hpos,
          rtake_of_window_subset (mergeSorted_sorted _ _) s.history_sorted hmerged hwindow]
        exact rtake_suffix _ _
      · refine (lastItems_suffix _ _).trans
          (suffix_of_upper (mergeSorted_sorted _ _) s.history_sorted hmerged ?_)
        intro bar hbar later hlater hle
        rcases mem_mergeSorted.mp hbar with hold | hnew
        · exact mem_mergeSorted.mpr
            (Or.inl (upper_of_suffix s.history_sorted h.suffix hold hlater hle))
        · rcases hjoined bar hnew later hlater hle with hread | hcached
          · exact mem_mergeSorted.mpr (Or.inr hread)
          · exact mem_mergeSorted.mpr (Or.inl hcached)
    have hlonger := length_le_lastItems bars h.cached_sorted h.bounded
    rw [Service.setOhlcClosed, if_neg hbars]
    refine ⟨hend, ?_, ?_⟩
    · intro hpos
      change (lastItems _ _).length ≤ s.service.settings.keepLimit
      rw [lastItems_of_pos _ hpos, length_rtake]
      exact min_le_left _ _
    · intro bar hbar hout
      refine h.stored bar hbar fun hcached => hout ?_
      exact (List.suffix_of_suffix_length_le h.suffix hend hlonger).mem hcached

theorem Service.stored_subset (s : State Time) : s.service.stored.rows ⊆ s.history :=
  fun _ hbar => State.mem_history.mpr (Or.inl hbar)

theorem State.upTo_sorted (s : State Time) (endTime : Time) :
    (s.upTo endTime).Pairwise (· < ·) := s.history_sorted.filter _

/-- `get_ohlc_closed`: the answer, wherever it comes from. -/
theorem Whole.closed_answer (h : Whole s) {limit : Option ℕ} {answers : Bool}
    (hreads : ReadsJoin s (.closed limit answers)) : (s.service.getOhlcClosed limit answers).1 =
      s.history.rtake (s.service.effectiveLimit limit) := by
  obtain ⟨hpos, hanswers⟩ := hreads
  by_cases henough : s.service.effectiveLimit limit ≤ s.service.cached.length
  · rw [Service.getOhlcClosed, if_pos (Or.inl henough), lastItems_of_pos _ hpos]
    exact rtake_of_suffix h.suffix henough
  · have hstorage : ¬ (s.service.effectiveLimit limit ≤ s.service.cached.length ∨
        answers = false) := by
      rcases hanswers with hcached | htrue
      · exact absurd hcached henough
      · simp [henough, htrue]
    rw [Service.getOhlcClosed, if_neg hstorage]
    change lastItems (mergeSorted _ _) _ = _
    rw [lastItems_of_pos _ hpos]
    refine rtake_of_window_subset (mergeSorted_sorted _ _) s.history_sorted ?_ ?_
    · intro bar hbar
      rcases mem_mergeSorted.mp hbar with hrecent | hcached
      · exact Service.stored_subset s ((rtake_suffix _ _).mem hrecent)
      · exact h.suffix.mem hcached
    · intro bar hbar
      by_cases hcached : bar ∈ s.service.cached
      · exact mem_mergeSorted.mpr (Or.inr hcached)
      · have hstored := h.stored bar ((rtake_suffix _ _).mem hbar) hcached
        exact mem_mergeSorted.mpr (Or.inl (mem_rtake_of_subset s.service.stored.sorted
          s.history_sorted (Service.stored_subset s) hstored hbar))

/-- `get_ohlc_closed` merges the newest rows of the table, which always join the cache. -/
theorem Whole.closed (h : Whole s) (limit : Option ℕ) (answers : Bool) : Whole { s with
      service := (s.service.getOhlcClosed limit answers).2 } := by
  by_cases hcase : s.service.effectiveLimit limit ≤ s.service.cached.length ∨ answers = false
  · rw [Service.getOhlcClosed, if_pos hcase]
    exact h
  · rw [Service.getOhlcClosed, if_neg hcase]
    refine h.merge ?_ (Or.inr ?_)
    · intro bar hbar
      rcases mem_mergeSorted.mp hbar with hrecent | hcached
      · exact Service.stored_subset s ((rtake_suffix _ _).mem hrecent)
      · exact h.suffix.mem hcached
    · intro first hfirst bar hbar hle
      by_cases hcached : bar ∈ s.service.cached
      · exact Or.inr hcached
      · have hstored := h.stored bar hbar hcached
        rcases mem_mergeSorted.mp hfirst with hrecent | hold
        · exact Or.inl (mem_mergeSorted.mpr (Or.inl
            (upper_of_suffix s.service.stored.sorted (rtake_suffix _ _) hrecent hstored hle)))
        · exact absurd (upper_of_suffix s.history_sorted h.suffix hold hbar hle) hcached

/-- The newest bar of a window that ends at a bar of the list. -/
theorem getLast_of_max (hsorted : bars.Pairwise (· < ·)) {bar : Time}
    (hbar : bar ∈ bars) (hmax : ∀ other ∈ bars, other ≤ bar) : bars.getLast? = some bar := by
  obtain ⟨front, back, rfl⟩ := List.append_of_mem hbar
  have hback : back = [] := by
    rw [List.eq_nil_iff_forall_not_mem]
    intro later hlater
    have hlt : bar < later :=
      List.rel_of_pairwise_cons (List.pairwise_append.mp hsorted).2.1 hlater
    exact absurd (hmax later (List.mem_append_right _ (List.mem_cons_of_mem _ hlater)))
      (not_le.mpr hlt)
  rw [hback, List.getLast?_concat]

variable {limit : ℕ} {endTime : Time}

theorem fetchOhlcBefore_last {table : Table Time} (hend : endTime ∈ table.rows) (hpos : 0 < limit) :
    (table.fetchOhlcBefore endTime limit).getLast? = some endTime := by
  have hsorted : (table.rows.filter (· ≤ endTime)).Pairwise (· < ·) := table.sorted.filter _
  have hmem : endTime ∈ table.rows.filter (· ≤ endTime) :=
    List.mem_filter.mpr ⟨hend, decide_eq_true (le_refl endTime)⟩
  have hmax : ∀ other ∈ table.rows.filter (· ≤ endTime), other ≤ endTime := by
    intro other hother
    exact of_decide_eq_true (List.mem_filter.mp hother).2
  refine getLast_of_max (hsorted.sublist (rtake_suffix _ _).sublist) ?_ fun other hother =>
    hmax other ((rtake_suffix _ _).mem hother)
  refine (mem_rtake_iff hsorted).mpr ⟨hmem, ?_⟩
  have hnone : (table.rows.filter (· ≤ endTime)).filter (endTime < ·) = [] := by
    rw [List.filter_eq_nil_iff]
    intro other hother
    simpa using hmax other hother
  rw [hnone]
  exact hpos

/-- `get_ohlc_window` at a stored bar, with a storage that answers. -/
theorem getOhlcWindow_stored {m : Service Time} (hend : endTime ∈ m.stored.rows)
    (hpos : 0 < limit) (strict : Bool) : m.getOhlcWindow endTime limit strict true =
      if Served m endTime limit then (some ((cachedWindow m endTime).rtake limit), m)
      else (some (m.stored.fetchOhlcBefore endTime limit),
        m.setOhlcClosed (m.stored.fetchOhlcBefore endTime limit)) := by
  have hwhole : lastItems (m.stored.fetchOhlcBefore endTime limit) limit =
      m.stored.fetchOhlcBefore endTime limit := by
    rw [lastItems_of_pos _ hpos]
    exact rtake_of_length_le (by rw [Table.fetchOhlcBefore, length_rtake]; omega)
  rw [Service.getOhlcWindow]
  by_cases hserved : Served m endTime limit
  · rw [if_pos hserved, if_pos hserved, lastItems_of_pos _ hpos]
  · rw [if_neg hserved, if_neg hserved, if_neg (by simp), if_pos (fetchOhlcBefore_last hend hpos),
      hwhole]

theorem Whole.window_answer (h : Whole s)
    {strict answers : Bool} (hreads : ReadsJoin s (.window endTime limit strict answers))
    (hend : endTime ∈ s.service.stored.rows) :
    (s.service.getOhlcWindow endTime limit strict answers).1 =
      some ((s.upTo endTime).rtake limit) := by
  obtain ⟨hpos, hfrom⟩ := hreads.1 hend
  by_cases hserved : Served s.service endTime limit
  · rw [Service.getOhlcWindow, if_pos hserved, lastItems_of_pos _ hpos]
    exact congrArg some (rtake_of_suffix (h.suffix.filter _) hserved.2)
  · rcases hfrom with hcached | ⟨rfl, hstored⟩
    · exact absurd hcached hserved
    · have hpersisted : s.service.stored.fetchOhlcBefore endTime limit =
          (s.upTo endTime).rtake limit := by
        refine rtake_of_window_subset (s.service.stored.sorted.filter _) (s.upTo_sorted endTime) ?_ ?_
        · exact List.filter_subset _ (Service.stored_subset s)
        · intro bar hbar
          have hupTo := (rtake_suffix _ _).mem hbar
          exact List.mem_filter.mpr ⟨hstored hbar, (List.mem_filter.mp hupTo).2⟩
      rw [getOhlcWindow_stored hend hpos, if_neg hserved]
      exact congrArg some hpersisted

theorem Whole.window (h : Whole s)
    {strict answers : Bool} (hreads : ReadsJoin s (.window endTime limit strict answers)) :
    Whole { s with
      service := (s.service.getOhlcWindow endTime limit strict answers).2 } := by
  by_cases hserved : Served s.service endTime limit
  · rw [Service.getOhlcWindow, if_pos hserved]
    exact h
  · rcases hreads.2 with hcached | hfalse | hjoins
    · exact absurd hcached hserved
    · rw [Service.getOhlcWindow, if_neg hserved, if_pos hfalse]
      exact h
    · by_cases hfalse : answers = false
      · rw [Service.getOhlcWindow, if_neg hserved, if_pos hfalse]
        exact h
      have hknown : s.service.stored.fetchOhlcBefore endTime limit ⊆ s.history := by
        intro bar hbar
        exact Service.stored_subset s (List.mem_filter.mp ((rtake_suffix _ _).mem hbar)).1
      rw [Service.getOhlcWindow, if_neg hserved, if_neg hfalse]
      have hmerged := h.merge hknown hjoins
      by_cases hlast : (s.service.stored.fetchOhlcBefore endTime limit).getLast? = some endTime
      · rw [if_pos hlast]
        exact hmerged
      · rw [if_neg hlast]
        exact hmerged

theorem Whole.historyResult (h : Whole s) {startTime endTime : Option Time}
    {strict answers answersRecent : Bool}
    (hreads : ReadsJoin s (.historyResult startTime endTime limit strict answers answersRecent)) :
    Whole { s with
      service :=
        (s.service.getOhlcHistoryResult startTime endTime limit strict answers answersRecent).2 } := by
  cases answers with
  | false =>
    rw [Service.getOhlcHistoryResult, if_pos rfl]
    cases strict with
    | true => exact h
    | false => exact h.closed (some limit) answersRecent
  | true =>
    rw [Service.getOhlcHistoryResult, if_neg (by simp)]
    refine h.merge ?_ (hreads.resolve_left (by simp))
    intro bar hbar
    exact Service.stored_subset s (List.mem_filter.mp ((List.take_sublist _ _).subset hbar)).1

theorem mem_history_ingest {bar : Time} :
    bar ∈ mergeSorted s.service.stored.rows (s.ingested ++ bars) ↔
      bar ∈ s.history ∨ bar ∈ bars := by
  rw [mem_mergeSorted, List.mem_append, State.mem_history, or_assoc]

/-- With the latest bars the cache is the end of the history again. -/
theorem Whole.suffix_ingest (h : Whole s) (hlatest : s.Latest bars) :
    mergeSorted s.service.cached bars <:+
      mergeSorted s.service.stored.rows (s.ingested ++ bars) := by
  have hmerged : mergeSorted s.service.cached bars ⊆
      mergeSorted s.service.stored.rows (s.ingested ++ bars) := by
    intro bar hbar
    rcases mem_mergeSorted.mp hbar with hold | hnew
    · exact mem_history_ingest.mpr (Or.inl (h.suffix.mem hold))
    · exact mem_history_ingest.mpr (Or.inr hnew)
  refine suffix_of_upper (mergeSorted_sorted _ _) (mergeSorted_sorted _ _) hmerged ?_
  intro bar hbar later hlater hle
  refine mem_mergeSorted.mpr ?_
  rcases mem_history_ingest.mp hlater with hknown | hnew
  · rcases mem_mergeSorted.mp hbar with hold | hfirst
    · exact Or.inl (upper_of_suffix s.history_sorted h.suffix hold hknown hle)
    · exact Or.inr (hlatest.2 bar hfirst later hknown hle)
  · exact Or.inr hnew

/-- Ingestion: the latest bars join the end of the history, and what is evicted is stored. -/
theorem Whole.ingest (h : Whole s) (hlatest : s.Latest bars)
    (hevicted : ReadsJoin s (.ingest bars)) :
    Whole { service := s.service.setOhlcClosed bars, ingested := s.ingested ++ bars } := by
  by_cases hbars : bars = []
  · subst hbars
    rw [Service.setOhlcClosed, if_pos rfl, List.append_nil]
    exact h
  · have hend := h.suffix_ingest hlatest
    have hcached : (s.service.setOhlcClosed bars).cached =
        lastItems (mergeSorted s.service.cached bars) s.service.settings.keepLimit := by
      rw [Service.setOhlcClosed, if_neg hbars]
    obtain ⟨hstored, hsettings⟩ := setOhlcClosed_frame s.service bars
    constructor
    · change (s.service.setOhlcClosed bars).cached <:+
        mergeSorted (s.service.setOhlcClosed bars).stored.rows (s.ingested ++ bars)
      rw [hcached, hstored]
      exact (lastItems_suffix _ _).trans hend
    · intro hpos
      change 0 < (s.service.setOhlcClosed bars).settings.keepLimit at hpos
      change (s.service.setOhlcClosed bars).cached.length ≤
        (s.service.setOhlcClosed bars).settings.keepLimit
      rw [hsettings] at hpos ⊢
      rw [hcached, lastItems_of_pos _ hpos, length_rtake]
      exact min_le_left _ _
    · intro bar hbar hout
      change bar ∈ mergeSorted (s.service.setOhlcClosed bars).stored.rows (s.ingested ++ bars) at hbar
      change bar ∈ (s.service.setOhlcClosed bars).stored.rows
      rw [hstored] at hbar ⊢
      by_cases hmem : bar ∈ mergeSorted s.service.cached bars
      · exact (hevicted bar hmem).resolve_left hout
      · have hneither : bar ∉ s.service.cached ∧ bar ∉ bars := by
          rw [mem_mergeSorted] at hmem
          exact not_or.mp hmem
        rcases mem_history_ingest.mp hbar with hknown | hnew
        · exact h.stored bar hknown hneither.1
        · exact absurd hnew hneither.2

theorem Whole.persist (h : Whole s) {rows : List Time} (hrows : rows ⊆ s.ingested) : Whole { s with
      service :=
        { s.service with
          stored := s.service.stored.insert rows } } := by
  have hsame : mergeSorted (s.service.stored.insert rows).rows s.ingested = s.history := by
    refine (mergeSorted_sorted _ _).eq_of_mem_iff s.history_sorted ?_
    intro bar
    rw [mem_mergeSorted, Table.insert, mem_mergeSorted, State.mem_history]
    constructor
    · rintro ((hold | hnew) | hingested)
      · exact Or.inl hold
      · exact Or.inr (hrows hnew)
      · exact Or.inr hingested
    · rintro (hold | hingested)
      · exact Or.inl (Or.inl hold)
      · exact Or.inr hingested
  constructor
  · change s.service.cached <:+ mergeSorted (s.service.stored.insert rows).rows s.ingested
    rw [hsame]
    exact h.suffix
  · exact h.bounded
  · intro bar hbar hout
    change bar ∈ mergeSorted (s.service.stored.insert rows).rows s.ingested at hbar
    rw [hsame] at hbar
    exact mem_mergeSorted.mpr (Or.inl (h.stored bar hbar hout))

theorem start_whole (stored : Table Time) (settings : Settings) : Whole (start stored settings) := by
  constructor
  · exact List.nil_suffix
  · intro _
    exact Nat.zero_le _
  · intro bar hbar _
    exact (State.mem_history.mp hbar).resolve_right List.not_mem_nil

/-- One step of any kind, from a whole cache. -/
theorem Whole.step {s t : State Time} {act : Act Time} (h : Whole s) (hreads : ReadsJoin s act)
    (hstep : step s act = some t) : Whole t := by
  cases act with
  | ingest bars =>
    rw [MarketData.step] at hstep
    split at hstep
    · cases Option.some.inj hstep
      exact h.ingest ‹_› hreads
    · cases hstep
  | persist rows =>
    rw [MarketData.step] at hstep
    split at hstep
    · cases Option.some.inj hstep
      exact h.persist ‹_›
    · cases hstep
  | closed limit answers =>
    cases Option.some.inj hstep
    exact h.closed limit answers
  | window endTime limit strict answers =>
    cases Option.some.inj hstep
    exact h.window hreads
  | historyResult startTime endTime limit strict answers answersRecent =>
    cases Option.some.inj hstep
    exact h.historyResult hreads

theorem Whole.answers {act : Act Time} (h : Whole s) (hreads : ReadsJoin s act) :
    AnswersWhole s act := by
  cases act with
  | ingest bars => trivial
  | persist rows => trivial
  | closed limit answers => exact h.closed_answer hreads
  | window endTime limit strict answers =>
    intro hend bars hbars _
    rw [h.window_answer hreads hend] at hbars
    exact (Option.some.inj hbars).symm
  | historyResult startTime endTime limit strict answers answersRecent => trivial

/-- Any stored history, any calls in any order. -/
theorem answers_whole (stored : Table Time) (settings : Settings) (acts : List (Act Time))
    (h : Along step ReadsJoin (start stored settings) acts) :
    Along step AnswersWhole (start stored settings) acts :=
  along_of_invariant (fun _ _ _ hs hreads hstep => hs.step hreads hstep)
    (fun _ _ hs hreads => hs.answers hreads) (start_whole stored settings) h

def tenBars : Table ℕ := ⟨[1, 2, 3, 4, 5, 6, 7, 8, 9, 10], by decide⟩

/-- The newest bars, ingestion that evicts stored bars, an old range read into a full cache. -/
def joiningActs : List (Act ℕ) :=
  [.closed (some 3) true, .ingest [10, 11], .persist [10, 11], .window 9 3 false true,
    .historyResult (some 2) (some 4) 2 false true true, .closed (some 4) true]

theorem joiningActs_whole :
    Along step AnswersWhole (start tenBars { ohlcLimit := 2, ohlcCacheLimit := 4 }) joiningActs :=
  answers_whole tenBars { ohlcLimit := 2, ohlcCacheLimit := 4 } joiningActs (by decide +kernel)

/-- An old range is read, then the two latest bars are ingested. -/
def holeActs : List (Act ℕ) :=
  [.historyResult (some 1) (some 3) 3 false true true, .ingest [9, 10]]

theorem holeActs_not_whole :
    ((run step (start tenBars {}) holeActs).map fun s =>
        ((s.service.getOhlcClosed (some 5) true).1,
          (s.service.getOhlcWindow 10 4 false true).1)) =
      some ([1, 2, 3, 9, 10], some [2, 3, 9, 10]) ∧
    ¬ Along step AnswersWhole (start tenBars {}) (holeActs ++ [.closed (some 5) true]) ∧
    ¬ Along step AnswersWhole (start tenBars {}) (holeActs ++ [.window 10 4 false true]) := by
  decide +kernel

end MT5Services.MarketData
