import Mathlib.Data.List.Sort
import Mathlib.Data.List.Chain
import Mathlib.Tactic.Linarith

/-!
Closed-bar ingestion: `BackgroundIngestor._ingest_ohlc` for one symbol and
timeframe, with the request window of `MT5MarketClient.get_ohlc_from`. A bar is
its open time in seconds; the broker holds every bar whose open time has come and
answers a range request with exactly the held bars of the range, in order. The
module settles when polling is exact and never stuck: the bars must lie neither
closer than one timeframe nor farther apart than the request window reaches.
-/
namespace MT5Services.ClosedBars

structure Config where
  tfSeconds : ℤ
  tfSeconds_pos : 0 < tfSeconds
  ohlcBackfillLimit : ℤ
  warmupLimit : ℕ
  serverOffset : ℤ

/-- Open times of all bars of the symbol, past and future. -/
structure History where
  bars : List ℤ
  increasing : bars.Pairwise (· < ·)

def History.held (h : History) (now : ℤ) : List ℤ := h.bars.filter (· ≤ now)

/-- Python's `list[:limit]`. -/
def sliceTo (limit : ℤ) (list : List ℤ) : List ℤ :=
  if 0 ≤ limit then list.take limit.toNat else list.take (list.length - limit.natAbs)

/-- The request is made in server time and the answer is brought back to UTC. -/
def getOhlcFrom (cfg : Config) (h : History) (now start : ℤ) : List ℤ :=
  let requestStart := start + cfg.serverOffset
  let requestEnd := requestStart + cfg.tfSeconds * max cfg.ohlcBackfillLimit 1
  let rates := ((h.held now).map (· + cfg.serverOffset)).filter
    fun time => requestStart ≤ time ∧ time ≤ requestEnd
  (sliceTo cfg.ohlcBackfillLimit rates).map (· - cfg.serverOffset)

/-- The latest `warmupLimit` bars. -/
def getOhlc (cfg : Config) (h : History) (now : ℤ) : List ℤ :=
  (h.held now).drop ((h.held now).length - cfg.warmupLimit)

def setLastOhlcTimeIfNewer (current : Option ℤ) (time : ℤ) : Option ℤ :=
  match current with
  | none => some time
  | some last => if last < time then some time else some last

structure Poll where
  events : List ℤ
  cursor : Option ℤ

/-- One successful poll: the closed-bar events it publishes and the new cursor. -/
def ingestOhlc (cfg : Config) (h : History) (lastTs : Option ℤ) (now : ℤ) : Poll :=
  let bars := match lastTs with
    | some last => getOhlcFrom cfg h now (last + cfg.tfSeconds)
    | none => getOhlc cfg h now
  let closed := (bars.insertionSort (· ≤ ·)).filter (· ≤ now - cfg.tfSeconds)
  let events := closed.filter fun time => lastTs.all (· < time)
  ⟨events, (closed.getLast?.map (setLastOhlcTimeIfNewer lastTs)).getD lastTs⟩

/-- The polls of a list of clock readings: all events, and the last cursor. -/
def polls (cfg : Config) (h : History) : Option ℤ → List ℤ → Poll
  | cursor, [] => ⟨[], cursor⟩
  | cursor, now :: rest =>
    let first := ingestOhlc cfg h cursor now
    let later := polls cfg h first.cursor rest
    ⟨first.events ++ later.events, later.cursor⟩

def newer (h : History) (cursor : ℤ) : List ℤ := h.bars.filter (cursor < ·)

/-- One more poll publishes closed bars only, and at least one, moving the cursor
forward, whenever a closed bar is newer than the cursor. -/
def Progresses (cfg : Config) (h : History) (cursor now : ℤ) : Prop :=
  (∀ time ∈ (ingestOhlc cfg h (some cursor) now).events, time + cfg.tfSeconds ≤ now) ∧
    ((∃ time ∈ newer h cursor, time + cfg.tfSeconds ≤ now) →
      (ingestOhlc cfg h (some cursor) now).events ≠ [] ∧
        ∃ next, (ingestOhlc cfg h (some cursor) now).cursor = some next ∧ cursor < next)

/-- From every cursor a first poll or the storage can leave, after any polls: the
events published so far, followed by the bars newer than the cursor, are the bars
newer than the start; and the next poll makes progress. -/
def ExactAndLive (cfg : Config) (h : History) : Prop :=
  ∀ start ∈ h.bars, ∀ clocks now, (clocks ++ [now]).Pairwise (· ≤ ·) →
    ∃ cursor, (polls cfg h (some start) clocks).cursor = some cursor ∧
      (polls cfg h (some start) clocks).events ++ newer h cursor = newer h start ∧
      Progresses cfg h cursor now

/-- Neighbouring bars are at least one timeframe apart, and the next bar lies in
the window requested after its predecessor. -/
def Covered (cfg : Config) (h : History) : Prop :=
  h.bars.IsChain fun bar next => 1 ≤ cfg.ohlcBackfillLimit ∧ bar + cfg.tfSeconds ≤ next ∧
    next ≤ bar + cfg.tfSeconds * (cfg.ohlcBackfillLimit + 1)

theorem filter_prefix_of_increasing (list : List ℤ) (p : ℤ → Bool)
    (hlist : list.Pairwise (· < ·))
    (hp : ∀ a ∈ list, ∀ b ∈ list, a < b → p b = true → p a = true) :
    list.filter p <+: list := by
  induction list with
  | nil => exact List.prefix_rfl
  | cons a rest ih =>
    rw [List.pairwise_cons] at hlist
    by_cases ha : p a = true
    · rw [List.filter_cons_of_pos ha, List.prefix_cons_inj]
      refine ih hlist.2 ?_
      intro b hb c hc
      exact hp b (List.mem_cons_of_mem a hb) c (List.mem_cons_of_mem a hc)
    · have hrest : rest.filter p = [] := by
        rw [List.filter_eq_nil_iff]
        intro b hb hpb
        exact ha (hp a List.mem_cons_self b (List.mem_cons_of_mem a hb) (hlist.1 b hb) hpb)
      rw [List.filter_cons_of_neg ha, hrest]
      exact List.nil_prefix

theorem newer_of_split (h : History) (before after : List ℤ) (cursor : ℤ)
    (hbars : h.bars = before ++ cursor :: after) : newer h cursor = after := by
  have hsorted := h.increasing
  rw [hbars, List.pairwise_append, List.pairwise_cons] at hsorted
  obtain ⟨_, ⟨hafter, _⟩, hcross⟩ := hsorted
  have hleft : before.filter (cursor < ·) = [] := by
    rw [List.filter_eq_nil_iff]
    intro a ha
    have hlt := hcross a ha cursor List.mem_cons_self
    simp only [decide_eq_true_eq]
    omega
  have hright : after.filter (cursor < ·) = after := by
    rw [List.filter_eq_self]
    intro b hb
    simpa using hafter b hb
  simp [newer, hbars, List.filter_append, hleft, hright]

/-- Publishing a front part of the newer bars and moving to its last bar leaves
exactly the rest newer. -/
theorem newer_of_published (h : History) (cursor next : ℤ) (events : List ℤ)
    (hcursor : cursor ∈ h.bars) (hevents : events <+: newer h cursor)
    (hnext : next = events.getLast?.getD cursor) :
    next ∈ h.bars ∧ events ++ newer h next = newer h cursor := by
  obtain ⟨before, after, hbars⟩ := List.append_of_mem hcursor
  have hnewer := newer_of_split h before after cursor hbars
  rw [hnewer] at hevents ⊢
  obtain ⟨rest, hrest⟩ := hevents
  rcases List.eq_nil_or_concat events with rfl | ⟨front, last, rfl⟩
  · obtain rfl : next = cursor := by simpa using hnext
    exact ⟨hcursor, by rw [hnewer]; rfl⟩
  · obtain rfl : next = last := by simpa using hnext
    have hsplit : h.bars = (before ++ cursor :: front) ++ next :: rest := by
      rw [hbars, ← hrest]
      simp
    refine ⟨?_, ?_⟩
    · rw [hsplit]
      simp
    · rw [newer_of_split h _ rest next hsplit]
      exact hrest

theorem getOhlcFrom_eq (cfg : Config) (h : History) (now start : ℤ) :
    getOhlcFrom cfg h now start = sliceTo cfg.ohlcBackfillLimit ((h.held now).filter
      fun time => start ≤ time ∧
        time ≤ start + cfg.tfSeconds * max cfg.ohlcBackfillLimit 1) := by
  have hslice : ∀ list : List ℤ, (sliceTo cfg.ohlcBackfillLimit
      (list.map (· + cfg.serverOffset))).map (· - cfg.serverOffset) =
        sliceTo cfg.ohlcBackfillLimit list := by
    intro list
    have hback : ((· - cfg.serverOffset) ∘ (· + cfg.serverOffset) : ℤ → ℤ) = id := by
      funext t
      simp
    unfold sliceTo
    split
    · rw [← List.map_take, List.map_map, hback, List.map_id]
    · rw [List.length_map, ← List.map_take, List.map_map, hback, List.map_id]
  simp only [getOhlcFrom, List.filter_map]
  rw [hslice]
  congr 2
  funext time
  simp only [Function.comp_apply, decide_eq_decide]
  constructor
  · rintro ⟨hlow, hhigh⟩
    constructor
    · linarith
    · linarith
  · rintro ⟨hlow, hhigh⟩
    constructor
    · linarith
    · linarith

/-- The held bars of the requested range. -/
def window (cfg : Config) (h : History) (cursor now : ℤ) : List ℤ :=
  (h.held now).filter fun time => cursor + cfg.tfSeconds ≤ time ∧
    time ≤ cursor + cfg.tfSeconds + cfg.tfSeconds * max cfg.ohlcBackfillLimit 1

/-- What a poll with a cursor publishes. -/
def published (cfg : Config) (h : History) (cursor now : ℤ) : List ℤ :=
  (sliceTo cfg.ohlcBackfillLimit (window cfg h cursor now)).filter (· ≤ now - cfg.tfSeconds)

theorem sliceTo_front (limit : ℤ) (list : List ℤ) : sliceTo limit list <+: list := by
  unfold sliceTo
  split
  · exact List.take_prefix _ _
  · exact List.take_prefix _ _

theorem mem_window (cfg : Config) (h : History) (cursor now time : ℤ)
    (hmem : time ∈ window cfg h cursor now) :
    time ∈ h.bars ∧ time ≤ now ∧ cursor + cfg.tfSeconds ≤ time ∧
      time ≤ cursor + cfg.tfSeconds + cfg.tfSeconds * max cfg.ohlcBackfillLimit 1 := by
  simp only [window, History.held, List.mem_filter, decide_eq_true_eq] at hmem
  exact ⟨hmem.1.1, hmem.1.2, hmem.2⟩

theorem mem_published (cfg : Config) (h : History) (cursor now time : ℤ)
    (hmem : time ∈ published cfg h cursor now) :
    time ∈ window cfg h cursor now ∧ time + cfg.tfSeconds ≤ now := by
  simp only [published, List.mem_filter, decide_eq_true_eq] at hmem
  refine ⟨(sliceTo_front _ _).subset hmem.1, ?_⟩
  linarith [hmem.2]

theorem ingestOhlc_some (cfg : Config) (h : History) (cursor now : ℤ) :
    ingestOhlc cfg h (some cursor) now = ⟨published cfg h cursor now,
      some ((published cfg h cursor now).getLast?.getD cursor)⟩ := by
  have hfetched : getOhlcFrom cfg h now (cursor + cfg.tfSeconds) =
      sliceTo cfg.ohlcBackfillLimit (window cfg h cursor now) := getOhlcFrom_eq cfg h now _
  have hsub : (sliceTo cfg.ohlcBackfillLimit (window cfg h cursor now)).Sublist h.bars :=
    (sliceTo_front _ _).sublist.trans (List.filter_sublist.trans List.filter_sublist)
  have hsorted : (sliceTo cfg.ohlcBackfillLimit (window cfg h cursor now)).Pairwise (· ≤ ·) :=
    (h.increasing.sublist hsub).imp fun hlt => le_of_lt hlt
  have hpos := cfg.tfSeconds_pos
  have hlater : ∀ time ∈ published cfg h cursor now, cursor < time := by
    intro time htime
    have hwindow := mem_window cfg h cursor now time (mem_published _ _ _ _ _ htime).1
    omega
  have hevents : (published cfg h cursor now).filter (fun time => (some cursor).all (· < time)) =
      published cfg h cursor now := by
    rw [List.filter_eq_self]
    intro time htime
    simpa using hlater time htime
  simp only [ingestOhlc, hfetched, hsorted.insertionSort_eq]
  change Poll.mk ((published cfg h cursor now).filter _)
    (((published cfg h cursor now).getLast?.map _).getD _) = _
  rw [hevents]
  congr 1
  cases hlast : (published cfg h cursor now).getLast? with
  | none => rfl
  | some last =>
    have hlt := hlater last (List.mem_of_getLast? hlast)
    simp [setLastOhlcTimeIfNewer, hlt]

/-- A poll that misses a closed newer bar and publishes nothing is stuck. -/
theorem not_progresses_of_published_nil (cfg : Config) (h : History) (cursor now time : ℤ)
    (hnewer : time ∈ newer h cursor) (hclosed : time + cfg.tfSeconds ≤ now)
    (hnil : published cfg h cursor now = []) : ¬ Progresses cfg h cursor now := by
  rintro ⟨_, hlive⟩
  have hevents := (hlive ⟨time, hnewer, hclosed⟩).1
  rw [ingestOhlc_some, hnil] at hevents
  exact hevents rfl

section Covered

variable (cfg : Config) (h : History) (cursor : ℤ)

/-- Every bar after the cursor is at least one timeframe away. -/
theorem far_of_covered (hcovered : Covered cfg h) (before after : List ℤ)
    (hbars : h.bars = before ++ cursor :: after) (time : ℤ) (htime : time ∈ after) :
    cursor + cfg.tfSeconds ≤ time := by
  have hchain : (cursor :: after).IsChain fun bar next => 1 ≤ cfg.ohlcBackfillLimit ∧
      bar + cfg.tfSeconds ≤ next ∧ next ≤ bar + cfg.tfSeconds * (cfg.ohlcBackfillLimit + 1) := by
    unfold Covered at hcovered
    rw [hbars] at hcovered
    exact hcovered.right_of_append
  have hsorted := h.increasing
  rw [hbars, List.pairwise_append, List.pairwise_cons] at hsorted
  obtain ⟨_, ⟨_, hafter⟩, _⟩ := hsorted
  cases after with
  | nil => cases htime
  | cons first rest =>
    have hfirst := (List.isChain_cons_cons.mp hchain).1.2.1
    rcases List.mem_cons.mp htime with rfl | hrest
    · exact hfirst
    · have hlt := (List.pairwise_cons.mp hafter).1 time hrest
      omega

theorem window_of_covered (hcovered : Covered cfg h) (before after : List ℤ)
    (hbars : h.bars = before ++ cursor :: after) (now : ℤ) :
    window cfg h cursor now = after.filter fun time => time ≤ now ∧
      time ≤ cursor + cfg.tfSeconds + cfg.tfSeconds * max cfg.ohlcBackfillLimit 1 := by
  have hfar := far_of_covered cfg h cursor hcovered before after hbars
  have hsorted := h.increasing
  rw [hbars, List.pairwise_append] at hsorted
  obtain ⟨_, _, hcross⟩ := hsorted
  have hpos := cfg.tfSeconds_pos
  have hleft : ∀ time ∈ before ++ [cursor], ¬ cursor + cfg.tfSeconds ≤ time := by
    intro time htime
    rcases List.mem_append.mp htime with hb | hc
    · have hlt := hcross time hb cursor List.mem_cons_self
      omega
    · rw [List.mem_singleton.mp hc]
      omega
  have hsplit : h.bars = (before ++ [cursor]) ++ after := by
    rw [hbars]
    simp
  unfold window History.held
  rw [List.filter_filter, hsplit, List.filter_append]
  have hnone : (before ++ [cursor]).filter (fun a => decide (cursor + cfg.tfSeconds ≤ a ∧
      a ≤ cursor + cfg.tfSeconds + cfg.tfSeconds * max cfg.ohlcBackfillLimit 1) &&
        decide (a ≤ now)) = [] := by
    rw [List.filter_eq_nil_iff]
    intro time htime
    simp [hleft time htime]
  rw [hnone, List.nil_append]
  refine List.filter_congr ?_
  intro time htime
  have hlow := hfar time htime
  simp [hlow, Bool.and_comm]

theorem window_prefix_of_covered (hcovered : Covered cfg h) (before after : List ℤ)
    (hbars : h.bars = before ++ cursor :: after) (now : ℤ) :
    window cfg h cursor now <+: after := by
  have hsorted := h.increasing
  rw [hbars, List.pairwise_append, List.pairwise_cons] at hsorted
  rw [window_of_covered cfg h cursor hcovered before after hbars now]
  refine filter_prefix_of_increasing after _ hsorted.2.1.2 ?_
  intro a _ b _ hab hb
  simp only [decide_eq_true_eq] at hb ⊢
  omega

theorem published_prefix_newer (hcovered : Covered cfg h) (hcursor : cursor ∈ h.bars)
    (now : ℤ) : published cfg h cursor now <+: newer h cursor := by
  obtain ⟨before, after, hbars⟩ := List.append_of_mem hcursor
  have hsorted := h.increasing
  rw [hbars, List.pairwise_append, List.pairwise_cons] at hsorted
  have hslice := (sliceTo_front cfg.ohlcBackfillLimit (window cfg h cursor now)).trans
    (window_prefix_of_covered cfg h cursor hcovered before after hbars now)
  have hclosed : published cfg h cursor now <+:
      sliceTo cfg.ohlcBackfillLimit (window cfg h cursor now) := by
    refine filter_prefix_of_increasing _ _ (hsorted.2.1.2.sublist hslice.sublist) ?_
    intro a _ b _ hab hb
    simp only [decide_eq_true_eq] at hb ⊢
    omega
  rw [newer_of_split h before after cursor hbars]
  exact hclosed.trans hslice

/-- The first newer bar is in the window, so a closed one is published. -/
theorem published_ne_nil (hcovered : Covered cfg h) (hcursor : cursor ∈ h.bars)
    (now time : ℤ) (hnewer : time ∈ newer h cursor) (hclosed : time + cfg.tfSeconds ≤ now) :
    published cfg h cursor now ≠ [] := by
  obtain ⟨before, after, hbars⟩ := List.append_of_mem hcursor
  rw [newer_of_split h before after cursor hbars] at hnewer
  have hpos := cfg.tfSeconds_pos
  cases after with
  | nil => cases hnewer
  | cons first rest =>
    obtain ⟨hlimit, hlow, hhigh⟩ : 1 ≤ cfg.ohlcBackfillLimit ∧ cursor + cfg.tfSeconds ≤ first ∧
        first ≤ cursor + cfg.tfSeconds * (cfg.ohlcBackfillLimit + 1) :=
      List.isChain_iff_forall_rel_of_append_cons_cons.mp hcovered hbars
    have hfirst : first ≤ time := by
      rcases List.mem_cons.mp hnewer with rfl | hrest
      · exact le_rfl
      · have hsorted := h.increasing
        rw [hbars, List.pairwise_append, List.pairwise_cons] at hsorted
        exact le_of_lt ((List.pairwise_cons.mp hsorted.2.1.2).1 time hrest)
    have hmem : first ∈ window cfg h cursor now := by
      rw [window_of_covered cfg h cursor hcovered before _ hbars now, max_eq_left hlimit]
      simp only [List.mem_filter, List.mem_cons, true_or, true_and, decide_eq_true_eq]
      rw [Int.mul_add, Int.mul_one] at hhigh
      omega
    have hfront := window_prefix_of_covered cfg h cursor hcovered before _ hbars now
    rcases List.prefix_cons_iff.mp hfront with hnil | ⟨tail, htail, _⟩
    · rw [hnil] at hmem
      cases hmem
    · obtain ⟨count, hcount⟩ : ∃ count, cfg.ohlcBackfillLimit.toNat = count + 1 :=
        ⟨cfg.ohlcBackfillLimit.toNat - 1, by omega⟩
      have hslice : sliceTo cfg.ohlcBackfillLimit (window cfg h cursor now) =
          first :: tail.take count := by
        rw [sliceTo, if_pos (by omega), htail, hcount, List.take_succ_cons]
      have hdone : first ≤ now - cfg.tfSeconds := by omega
      simp [published, hslice, hdone]

theorem progresses_of_covered (hcovered : Covered cfg h) (hcursor : cursor ∈ h.bars)
    (now : ℤ) : Progresses cfg h cursor now := by
  rw [Progresses, ingestOhlc_some]
  constructor
  · intro time htime
    exact (mem_published cfg h cursor now time htime).2
  · rintro ⟨time, hnewer, hclosed⟩
    have hne := published_ne_nil cfg h cursor hcovered hcursor now time hnewer hclosed
    refine ⟨hne, _, rfl, ?_⟩
    have hlast := List.getLast?_eq_some_getLast hne
    have hmem := mem_published cfg h cursor now _ (List.mem_of_getLast? hlast)
    have hlow := (mem_window cfg h cursor now _ hmem.1).2.2.1
    have hpos := cfg.tfSeconds_pos
    rw [hlast, Option.getD_some]
    omega

end Covered

/-- One poll keeps the account of what is published and what is still newer. -/
theorem poll_account (cfg : Config) (h : History) (hcovered : Covered cfg h) (cursor now : ℤ)
    (hcursor : cursor ∈ h.bars) :
    ∃ next ∈ h.bars, (ingestOhlc cfg h (some cursor) now).cursor = some next ∧
      (ingestOhlc cfg h (some cursor) now).events ++ newer h next = newer h cursor := by
  rw [ingestOhlc_some]
  have hfront := published_prefix_newer cfg h cursor hcovered hcursor now
  obtain ⟨hnext, haccount⟩ := newer_of_published h cursor _ _ hcursor hfront rfl
  exact ⟨_, hnext, rfl, haccount⟩

theorem polls_account (cfg : Config) (h : History) (hcovered : Covered cfg h)
    (clocks : List ℤ) (start : ℤ) (hstart : start ∈ h.bars) :
    ∃ cursor ∈ h.bars, (polls cfg h (some start) clocks).cursor = some cursor ∧
      (polls cfg h (some start) clocks).events ++ newer h cursor = newer h start := by
  induction clocks generalizing start with
  | nil => exact ⟨start, hstart, rfl, rfl⟩
  | cons now rest ih =>
    obtain ⟨next, hnext, hcursor, haccount⟩ := poll_account cfg h hcovered start now hstart
    obtain ⟨last, hlast, hlater, hrest⟩ := ih next hnext
    refine ⟨last, hlast, ?_, ?_⟩
    · simpa only [polls, hcursor] using hlater
    · simp only [polls, hcursor, List.append_assoc, hrest, haccount]

theorem exactAndLive_of_covered (cfg : Config) (h : History) (hcovered : Covered cfg h) :
    ExactAndLive cfg h := by
  intro start hstart clocks now _
  obtain ⟨cursor, hmem, hcursor, haccount⟩ := polls_account cfg h hcovered clocks start hstart
  exact ⟨cursor, hcursor, haccount, progresses_of_covered cfg h cursor hcovered hmem now⟩

/-- A poll that publishes nothing next to a closed newer bar refutes the law. -/
theorem not_exactAndLive_of_stuck (cfg : Config) (h : History) (cursor time : ℤ)
    (hcursor : cursor ∈ h.bars) (hnewer : time ∈ newer h cursor)
    (hnil : published cfg h cursor (time + cfg.tfSeconds) = []) : ¬ ExactAndLive cfg h := by
  intro hlaw
  obtain ⟨last, hlast, _, hprogress⟩ :=
    hlaw cursor hcursor [] (time + cfg.tfSeconds) (List.pairwise_singleton _ _)
  cases Option.some.inj hlast
  exact not_progresses_of_published_nil cfg h cursor _ time hnewer le_rfl hnil hprogress

theorem eq_next_of_between (h : History) (before after : List ℤ) (bar next time : ℤ)
    (hbars : h.bars = before ++ bar :: next :: after) (hmem : time ∈ h.bars)
    (hlow : bar < time) (hhigh : time ≤ next) : time = next := by
  have hnewer : time ∈ newer h bar := by simp [newer, hmem, hlow]
  rw [newer_of_split h before _ bar hbars] at hnewer
  rcases List.mem_cons.mp hnewer with heq | hafter
  · exact heq
  · have hsorted := h.increasing
    rw [hbars, List.pairwise_append, List.pairwise_cons] at hsorted
    have hlt := (List.pairwise_cons.mp hsorted.2.1.2).1 time hafter
    omega

/-- A neighbour outside the window is never fetched. -/
theorem stuck_of_gap (cfg : Config) (h : History) (before after : List ℤ) (bar next : ℤ)
    (hbars : h.bars = before ++ bar :: next :: after)
    (hgap : ¬ (bar + cfg.tfSeconds ≤ next ∧
      next ≤ bar + cfg.tfSeconds + cfg.tfSeconds * max cfg.ohlcBackfillLimit 1)) :
    ¬ ExactAndLive cfg h := by
  have hbar : bar ∈ h.bars := by
    rw [hbars]
    simp
  have hnewer : next ∈ newer h bar := by
    rw [newer_of_split h before _ bar hbars]
    exact List.mem_cons_self
  refine not_exactAndLive_of_stuck cfg h bar next hbar hnewer ?_
  rw [List.eq_nil_iff_forall_not_mem]
  intro time htime
  obtain ⟨hwindow, hclosed⟩ := mem_published cfg h bar _ time htime
  obtain ⟨hmem, _, hlow, hhigh⟩ := mem_window cfg h bar _ time hwindow
  have hpos := cfg.tfSeconds_pos
  have heq := eq_next_of_between h before after bar next time hbars hmem (by omega) (by omega)
  rw [heq] at hlow hhigh
  exact hgap ⟨hlow, hhigh⟩

/-- With a limit below one the last bar is always sliced away. -/
theorem stuck_of_limit (cfg : Config) (h : History) (front : List ℤ) (bar last : ℤ)
    (hbars : h.bars = front ++ [bar, last]) (hlimit : ¬ 1 ≤ cfg.ohlcBackfillLimit) :
    ¬ ExactAndLive cfg h := by
  have hbar : bar ∈ h.bars := by
    rw [hbars]
    simp
  have hlast := newer_of_split h front [last] bar hbars
  refine not_exactAndLive_of_stuck cfg h bar last hbar (by rw [hlast]; simp) ?_
  have hpos := cfg.tfSeconds_pos
  have hsub : (window cfg h bar (last + cfg.tfSeconds)).Sublist [last] := by
    rw [← hlast, window, History.held, List.filter_filter]
    refine List.monotone_filter_right h.bars ?_
    intro time htime
    simp only [Bool.and_eq_true, decide_eq_true_eq] at htime ⊢
    omega
  have hlength := hsub.length_le
  have hslice : sliceTo cfg.ohlcBackfillLimit (window cfg h bar (last + cfg.tfSeconds)) = [] := by
    unfold sliceTo
    split
    · have hzero : cfg.ohlcBackfillLimit.toNat = 0 := by omega
      rw [hzero, List.take_zero]
    · have hzero : (window cfg h bar (last + cfg.tfSeconds)).length -
          cfg.ohlcBackfillLimit.natAbs = 0 := by
        simp only [List.length_singleton] at hlength
        omega
      rw [hzero, List.take_zero]
  rw [published, hslice, List.filter_nil]

/-- Polling is exact and live from every cursor exactly when every neighbouring
pair of bars is at least one timeframe apart and at most `limit + 1`. -/
theorem exactAndLive_iff_covered (cfg : Config) (h : History) :
    ExactAndLive cfg h ↔ Covered cfg h := by
  refine ⟨?_, exactAndLive_of_covered cfg h⟩
  intro hlaw
  unfold Covered
  rw [List.isChain_iff_forall_rel_of_append_cons_cons]
  intro bar next before after hbars
  by_contra hbad
  by_cases hlimit : 1 ≤ cfg.ohlcBackfillLimit
  · refine stuck_of_gap cfg h before after bar next hbars ?_ hlaw
    rw [max_eq_left hlimit]
    rintro ⟨hlow, hhigh⟩
    refine hbad ⟨hlimit, hlow, ?_⟩
    rw [Int.mul_add, Int.mul_one]
    omega
  · obtain ⟨front, last, hlast⟩ :=
      (List.eq_nil_or_concat (next :: after)).resolve_left (List.cons_ne_nil next after)
    have hend : h.bars = (before ++ bar :: front) ++ [last] := by
      rw [hbars, hlast]
      simp
    obtain ⟨front', bar', hbar'⟩ :=
      (List.eq_nil_or_concat (before ++ bar :: front)).resolve_left (by simp)
    rw [hbar', List.concat_eq_append, List.append_assoc] at hend
    exact stuck_of_limit cfg h front' bar' last hend hlimit hlaw

/-- One-minute bars over a weekend, with the configured limit. -/
def minuteConfig : Config := ⟨60, by decide, 500, 5000, 0⟩

def weekend : History := ⟨[0, 172800], by decide⟩

/-- The first bar of the new week is closed and newer than the cursor, and no poll
ever asks for it. -/
theorem weekend_gap_is_stuck : ¬ ExactAndLive minuteConfig weekend := by
  intro hlaw
  obtain ⟨cursor, hcursor, _, _, hlive⟩ :=
    hlaw 0 (by decide) [] 172860 (List.pairwise_singleton _ _)
  cases Option.some.inj hcursor
  have hevents : (ingestOhlc minuteConfig weekend (some 0) 172860).events = [] := by decide
  exact (hlive ⟨172800, by decide, by decide⟩).1 hevents

end MT5Services.ClosedBars
