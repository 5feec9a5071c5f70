import MT5Services.Dict
import MT5Services.MarketData
import Mathlib.Algebra.Order.Field.Rat
import Mathlib.Algebra.Order.Group.Int

/-!
The bar of a parent timeframe as its closed child bars show it while it is still open.
The ingestor synthesizes it after a poll, from the children it reads back from the cache
of closed bars; the backtest replays the children of each parent bar from an index that
is built beforehand. A child bar is its open time, whose prices never change.
-/
namespace MT5Services.IntrabarSynthesis

open Windows MarketData

/-- `str.upper` as far as a timeframe can tell: only ASCII letters have an ASCII upper case
that occurs in one. -/
def upper (text : String) : String := String.ofList (text.toList.map Char.toUpper)

/-- The mapping in `timeframe_seconds`. -/
def timeframes : List (String × ℕ) :=
  [("M1", 60), ("M5", 300), ("M15", 900), ("M30", 1800), ("H1", 3600), ("H4", 14400),
    ("D1", 86400), ("W1", 604800)]

def timeframeSeconds (timeframe : String) : ℕ := (timeframes.lookup (upper timeframe)).getD 60

theorem timeframeSeconds_pos (timeframe : String) : 0 < timeframeSeconds timeframe := by
  have htable : ∀ entry ∈ timeframes, 0 < entry.2 := by decide
  rw [timeframeSeconds]
  cases hlookup : timeframes.lookup (upper timeframe) with
  | none => exact Nat.succ_pos 59
  | some seconds =>
    obtain ⟨front, back, hsplit, -⟩ := List.lookup_eq_some_iff.mp hlookup
    exact htable (upper timeframe, seconds) (hsplit ▸ List.mem_append_right _ List.mem_cons_self)

/-- The prices of a bar. -/
structure Candle where
  openPrice : ℚ
  high : ℚ
  low : ℚ
  close : ℚ
  volume : ℚ
  deriving DecidableEq, Repr

structure Ohlc extends Candle where
  symbol : String
  timeframe : String
  time : ℤ
  deriving DecidableEq, Repr

/-- `none` is the `ValueError` for no child bars. -/
def synthesizeParentBar (childBars : List Candle) (symbol parentTf : String) (parentBarTime : ℤ) :
    Option Ohlc :=
  match childBars with
  | [] => none
  | first :: rest => some {
      symbol := symbol
      timeframe := parentTf
      time := parentBarTime
      openPrice := first.openPrice
      high := (rest.map Candle.high).foldl max first.high
      low := (rest.map Candle.low).foldl min first.low
      close := (rest.getLastD first).close
      volume := ((first :: rest).map Candle.volume).sum }

def alignParentBarTime (parentTf : String) (childBarTime : ℤ) : ℤ :=
  childBarTime - childBarTime % timeframeSeconds parentTf

def buildChildBarIndex (parentTf : String) (childBars : List ℤ) : Dict ℤ (List ℤ) :=
  childBars.foldl
    (fun index bar =>
      let parentTime := alignParentBarTime parentTf bar
      index.set parentTime ((index.get? parentTime).getD [] ++ [bar]))
    Dict.empty

/-- A symbol, the timeframe whose closes trigger a synthesis, and the timeframe it is for. -/
structure Lane where
  symbol : String
  triggerTf : String
  parentTf : String
  deriving DecidableEq, Repr

/-- What a snapshot is made of: the open time of the parent bar and the child bars in it. -/
abbrev Reading := ℤ × List ℤ

def snapshot (lane : Lane) (prices : ℤ → Candle) (reading : Reading) : Option Ohlc :=
  synthesizeParentBar (reading.2.map prices) lane.symbol lane.parentTf reading.1

/-! The ingestor. -/

/-- What `_ingest_ohlc` keeps of the trigger timeframe. -/
structure Ingestor where
  service : Service ℤ
  lastOhlcTime : Option ℤ := none

/-- A poll: the closed bars it returned, in order, the rows the storage writer inserted
since the poll before, and whether a read of the storage succeeds. -/
structure Poll where
  closedBars : List ℤ
  persisted : List ℤ := []
  answers : Bool := true
  deriving DecidableEq, Repr

/-- `max_child_bars`. -/
def Lane.maxChildBars (lane : Lane) : ℕ :=
  timeframeSeconds lane.parentTf / timeframeSeconds lane.triggerTf + 2

def barsInRange (lane : Lane) (service : Service ℤ) (triggerBarTime : ℤ) (answers : Bool) :
    List ℤ :=
  (service.getOhlcClosed (some lane.maxChildBars) answers).1.filter fun bar =>
    alignParentBarTime lane.parentTf triggerBarTime ≤ bar

/-- The reading whose snapshot goes to `set_intrabar`, and the service after the read. -/
def synthesizeParentIntrabar (lane : Lane) (service : Service ℤ) (triggerBarTime : ℤ)
    (answers : Bool) : Option Reading × Service ℤ :=
  let bars := barsInRange lane service triggerBarTime answers
  (if bars = [] then none else some (alignParentBarTime lane.parentTf triggerBarTime, bars),
    (service.getOhlcClosed (some lane.maxChildBars) answers).2)

/-- `ts > current` in `_set_last_ohlc_time_if_newer`, and the filter of the new events. -/
def Ingestor.isNewer (s : Ingestor) (time : ℤ) : Bool := s.lastOhlcTime.all (· < time)

def Ingestor.persist (s : Ingestor) (rows : List ℤ) : Ingestor where
  service := { s.service with stored := s.service.stored.insert rows }
  lastOhlcTime := s.lastOhlcTime

/-- The part of `_ingest_ohlc` after the fetch. -/
def ingestOhlc (lane : Lane) (s : Ingestor) (poll : Poll) : Option Reading × Ingestor :=
  let s := s.persist poll.persisted
  match poll.closedBars.getLast? with
  | none => (none, s)
  | some newestClosed =>
    let service := s.service.setOhlcClosed poll.closedBars
    let last := if s.isNewer newestClosed then some newestClosed else s.lastOhlcTime
    let newEvents := poll.closedBars.filter s.isNewer
    if newEvents = [] then (none, ⟨service, last⟩)
    else
      let result := synthesizeParentIntrabar lane service newestClosed poll.answers
      (result.1, ⟨result.2, last⟩)

/-- The readings of the polls, in order. -/
def liveReadings (lane : Lane) : Ingestor → List Poll → List Reading
  | _, [] => []
  | s, poll :: rest =>
    (ingestOhlc lane s poll).1.toList ++ liveReadings lane (ingestOhlc lane s poll).2 rest

/-! The backtest. -/

/-- `expected_child_count`. -/
def Lane.expectedChildCount (lane : Lane) : ℕ :=
  timeframeSeconds lane.parentTf / timeframeSeconds lane.triggerTf

/-- The coverage check of `run_intrabar_sub_loop` turns the parent bar away. -/
def LowCoverage (lane : Lane) (minCoverageRatio : ℚ) (childBars : List ℤ) : Prop :=
  0 < lane.expectedChildCount ∧
    (childBars.length : ℚ) / lane.expectedChildCount < minCoverageRatio

instance (lane : Lane) (minCoverageRatio : ℚ) (childBars : List ℤ) :
    Decidable (LowCoverage lane minCoverageRatio childBars) := inferInstanceAs (Decidable (_ ∧ _))

/-- The values of `accumulated_child` at the syntheses of the loop. -/
def accumulate (accumulated : List ℤ) : List ℤ → List (List ℤ)
  | [] => []
  | bar :: rest => (accumulated ++ [bar]) :: accumulate (accumulated ++ [bar]) rest

def subLoopReadings (lane : Lane) (minCoverageRatio : ℚ) (parentTime : ℤ) (childBars : List ℤ) :
    List Reading :=
  if LowCoverage lane minCoverageRatio childBars then []
  else (accumulate [] childBars).map fun accumulated => (parentTime, accumulated)

/-- The sub-loops of the parent bars that have child bars. -/
def replayReadings (lane : Lane) (minCoverageRatio : ℚ) (childBars : List ℤ) : List Reading :=
  (buildChildBarIndex lane.parentTf childBars).gather (subLoopReadings lane minCoverageRatio)

/-! Their agreement. -/

/-- The child bars of the parent bar of this one, up to this one. -/
def readingAt (lane : Lane) (childBars : List ℤ) (bar : ℤ) : Reading :=
  (alignParentBarTime lane.parentTf bar,
    childBars.filter fun other =>
      alignParentBarTime lane.parentTf other = alignParentBarTime lane.parentTf bar ∧ other ≤ bar)

def polledBars (polls : List Poll) : List ℤ := polls.flatMap Poll.closedBars

/-- Whatever the prices: the snapshots of the polls are those of the replay, and there is one
for each child bar, made of the children of its parent bar up to it. -/
def SnapshotsAgree (lane : Lane) (minCoverageRatio : ℚ) (s : Ingestor) (polls : List Poll) : Prop :=
  ∀ prices,
    (liveReadings lane s polls).map (snapshot lane prices) =
        (replayReadings lane minCoverageRatio (polledBars polls)).map (snapshot lane prices) ∧
      (replayReadings lane minCoverageRatio (polledBars polls)).map (snapshot lane prices) =
        (polledBars polls).map fun bar => snapshot lane prices (readingAt lane (polledBars polls) bar)

/-- After every poll with closed bars the cache gives exactly the children of the parent bar
that is open. -/
def ReadsBack (lane : Lane) (childBars : List ℤ) : Ingestor → List Poll → Prop
  | _, [] => True
  | s, poll :: rest =>
    (∀ newest ∈ poll.closedBars.getLast?,
      barsInRange lane ((s.persist poll.persisted).service.setOhlcClosed poll.closedBars) newest
        poll.answers = (readingAt lane childBars newest).2) ∧
    ReadsBack lane childBars (ingestOhlc lane s poll).2 rest

instance decidableReadsBack (lane : Lane) (childBars : List ℤ) :
    ∀ s polls, Decidable (ReadsBack lane childBars s polls)
  | _, [] => isTrue trivial
  | s, poll :: rest =>
    have : Decidable (ReadsBack lane childBars (ingestOhlc lane s poll).2 rest) :=
      decidableReadsBack lane childBars _ rest
    inferInstanceAs (Decidable ((∀ newest ∈ poll.closedBars.getLast?, _ = _) ∧ _))

/-- No parent bar with child bars is turned away. -/
def Covered (lane : Lane) (minCoverageRatio : ℚ) (childBars : List ℤ) : Prop :=
  ∀ group ∈ (buildChildBarIndex lane.parentTf childBars).items,
    ¬ LowCoverage lane minCoverageRatio group.2

instance (lane : Lane) (minCoverageRatio : ℚ) (childBars : List ℤ) :
    Decidable (Covered lane minCoverageRatio childBars) :=
  inferInstanceAs (Decidable (∀ group ∈ _, _))

section Readings

variable (lane : Lane) (minCoverageRatio : ℚ) {s : Ingestor}

theorem align_eq_mul (parentTf : String) (t : ℤ) : alignParentBarTime parentTf t =
    timeframeSeconds parentTf * (t / timeframeSeconds parentTf) := by
  have hdiv := Int.mul_ediv_add_emod t (timeframeSeconds parentTf)
  rw [alignParentBarTime]
  omega

theorem align_mono (parentTf : String) {a b : ℤ} (h : a ≤ b) :
    alignParentBarTime parentTf a ≤ alignParentBarTime parentTf b := by
  rw [align_eq_mul, align_eq_mul]
  have hpos := Int.natCast_pos.mpr (timeframeSeconds_pos parentTf)
  exact Int.mul_le_mul_of_nonneg_left (Int.ediv_le_ediv hpos h) (le_of_lt hpos)

/-- A bar lies in the parent bar it is aligned to. -/
theorem align_bounds (parentTf : String) (t : ℤ) : alignParentBarTime parentTf t ≤ t ∧
    t < alignParentBarTime parentTf t + timeframeSeconds parentTf := by
  have hpos := Int.natCast_pos.mpr (timeframeSeconds_pos parentTf)
  have hnonneg := Int.emod_nonneg t (ne_of_gt hpos)
  have hlt := Int.emod_lt_of_pos t hpos
  rw [alignParentBarTime]
  omega

theorem align_align (parentTf : String) (t : ℤ) :
    alignParentBarTime parentTf (alignParentBarTime parentTf t) =
      alignParentBarTime parentTf t := by
  have hpos := Int.natCast_pos.mpr (timeframeSeconds_pos parentTf)
  rw [align_eq_mul parentTf t, align_eq_mul, Int.mul_ediv_cancel_left _ (ne_of_gt hpos)]

/-- A poll gives at most one snapshot, and none without closed bars. -/
theorem length_ingestOhlc (s : Ingestor) (poll : Poll) :
    (ingestOhlc lane s poll).1.toList.length ≤ min 1 poll.closedBars.length := by
  rw [ingestOhlc]
  split
  · exact Nat.zero_le _
  · rename_i newest hlast
    have hbars : 0 < poll.closedBars.length :=
      List.length_pos_of_mem (List.mem_of_getLast? hlast)
    dsimp only
    split
    · exact Nat.zero_le _
    · exact Option.length_toList_le.trans (Nat.le_min.mpr ⟨Nat.le_refl 1, hbars⟩)

theorem length_liveReadings (s : Ingestor) (polls : List Poll) :
    (liveReadings lane s polls).length ≤ (polledBars polls).length := by
  induction polls generalizing s with
  | nil => exact Nat.le_refl 0
  | cons poll rest ih =>
    have hpoll := length_ingestOhlc lane s poll
    have hrest := ih (ingestOhlc lane s poll).2
    simp only [liveReadings, polledBars, List.flatMap_cons, List.length_append] at hrest ⊢
    omega

variable {childBars : List ℤ} {bar : ℤ}

theorem mem_readingAt (h : bar ∈ childBars) : bar ∈ (readingAt lane childBars bar).2 := by
  simp [readingAt, h]

variable {newest : ℤ}

/-- All closed bars of a poll are new when they come after the bars of the polls before. -/
theorem ingestOhlc_of_newer {poll : Poll}
    (hlast : poll.closedBars.getLast? = some newest) (hnewer : s.isNewer newest = true) :
    (ingestOhlc lane s poll).1 = (synthesizeParentIntrabar lane
        ((s.persist poll.persisted).service.setOhlcClosed poll.closedBars) newest poll.answers).1 ∧
      (ingestOhlc lane s poll).2.lastOhlcTime = some newest := by
  have hnew : poll.closedBars.filter (s.persist poll.persisted).isNewer ≠ [] :=
    List.ne_nil_of_mem (List.mem_filter.mpr ⟨List.mem_of_getLast? hlast, hnewer⟩)
  have hstep : (s.persist poll.persisted).isNewer newest = true := hnewer
  simp only [ingestOhlc, hlast, hstep, if_true, if_neg hnew, and_self]

/-- A list that may have lost its head is as long as before only with the head. -/
theorem toList_append_eq_cons {α : Type*} {o : Option α} {front back : List α} {head : α}
    (hlength : front.length ≤ back.length) :
    o.toList ++ front = head :: back ↔ o = some head ∧ front = back := by
  cases o with
  | none =>
    refine iff_of_false ?_ (by simp)
    intro heq
    have hcount := congrArg List.length heq
    simp only [Option.toList_none, List.nil_append, List.length_cons] at hcount
    omega
  | some first =>
    rw [Option.toList_some, List.singleton_append, List.cons.injEq, Option.some.injEq]

/-- The poll answers with the reading of the bar when the cache gives the children back. -/
theorem ingestOhlc_fst_iff {poll : Poll}
    (hlast : poll.closedBars.getLast? = some newest) (hnewer : s.isNewer newest = true)
    (hmem : newest ∈ childBars) :
    (ingestOhlc lane s poll).1 = some (readingAt lane childBars newest) ↔
      barsInRange lane ((s.persist poll.persisted).service.setOhlcClosed poll.closedBars)
        newest poll.answers = (readingAt lane childBars newest).2 := by
  have hchildren : (readingAt lane childBars newest).2 ≠ [] :=
    List.ne_nil_of_mem (mem_readingAt lane hmem)
  rw [(ingestOhlc_of_newer lane hlast hnewer).1, synthesizeParentIntrabar]
  dsimp only
  constructor
  · intro heq
    split at heq
    · cases heq
    · exact congrArg Prod.snd (Option.some.inj heq)
  · intro hbars
    rw [hbars, if_neg hchildren, readingAt]

theorem eq_singleton_of_getLast? {bars : List ℤ}
    (hlast : bars.getLast? = some newest) (hone : bars.length ≤ 1) : bars = [newest] := by
  obtain ⟨front, rfl⟩ := List.getLast?_eq_some_iff.mp hlast
  rw [List.length_append, List.length_singleton] at hone
  have hnil : front = [] := List.eq_nil_of_length_eq_zero (by omega)
  rw [hnil, List.nil_append]

/-- The bars that a poll brings are newer than all before. -/
theorem isNewer_of_split {childBars earlier later : List ℤ} {poll : Poll} {newest : ℤ}
    (hsplit : childBars = earlier ++ (poll.closedBars ++ later))
    (hsorted : childBars.Pairwise (· < ·)) (hs : s.lastOhlcTime = earlier.getLast?)
    (hlast : poll.closedBars.getLast? = some newest) : s.isNewer newest = true := by
  rw [Ingestor.isNewer, hs, Option.all_eq_true]
  intro last hend
  rw [hsplit, List.pairwise_append] at hsorted
  apply decide_eq_true
  apply hsorted.2.2 last (List.mem_of_getLast? hend) newest
  exact List.mem_append_left _ (List.mem_of_getLast? hlast)

/-- The readings of the polls are those of the replayed bars exactly when each poll brings at
most one bar and the cache gives the children back. -/
theorem liveReadings_iff {childBars earlier : List ℤ} (polls : List Poll)
    (hsplit : childBars = earlier ++ polledBars polls) (hsorted : childBars.Pairwise (· < ·))
    (hs : s.lastOhlcTime = earlier.getLast?) :
    liveReadings lane s polls = (polledBars polls).map (readingAt lane childBars) ↔
      (∀ poll ∈ polls, poll.closedBars.length ≤ 1) ∧ ReadsBack lane childBars s polls := by
  induction polls generalizing s earlier with
  | nil => simp [liveReadings, polledBars, ReadsBack]
  | cons poll rest ih =>
    have hpolled : polledBars (poll :: rest) = poll.closedBars ++ polledBars rest :=
      List.flatMap_cons
    rw [hpolled, List.map_append, liveReadings, ReadsBack, List.forall_mem_cons]
    cases hlast : poll.closedBars.getLast? with
    | none =>
      have hnil : poll.closedBars = [] := List.getLast?_eq_none_iff.mp hlast
      have hstep : ingestOhlc lane s poll = (none, s.persist poll.persisted) := by
        simp only [ingestOhlc, hlast]
      have hsplit' : childBars = earlier ++ polledBars rest := by
        rw [hsplit, hpolled, hnil, List.nil_append]
      have hrest := ih (s := s.persist poll.persisted) hsplit' hs
      rw [hstep, hnil]
      simpa using hrest
    | some newest =>
      have hnewer := isNewer_of_split (hsplit.trans (by rw [hpolled])) hsorted hs hlast
      have hnext := (ingestOhlc_of_newer lane hlast hnewer).2
      have hsplit' : childBars = (earlier ++ poll.closedBars) ++ polledBars rest := by
        rw [hsplit, hpolled, List.append_assoc]
      have hrest := ih (s := (ingestOhlc lane s poll).2) hsplit'
        (by rw [hnext, List.getLast?_append, hlast, Option.some_or])
      have hlength := length_liveReadings lane (ingestOhlc lane s poll).2 rest
      by_cases hone : poll.closedBars.length ≤ 1
      · have hmem : newest ∈ childBars := by
          rw [hsplit, hpolled]
          exact List.mem_append_right _ (List.mem_append_left _ (List.mem_of_getLast? hlast))
        have hhead : poll.closedBars.map (readingAt lane childBars) =
            [readingAt lane childBars newest] := by
          rw [eq_singleton_of_getLast? hlast hone, List.map_singleton]
        rw [hhead, List.singleton_append,
          toList_append_eq_cons (hlength.trans_eq (List.length_map _).symm),
          ingestOhlc_fst_iff lane hlast hnewer hmem, hrest]
        constructor
        · rintro ⟨hbars, hfew, hback⟩
          refine ⟨⟨hone, hfew⟩, ?_, hback⟩
          rintro bar ⟨⟩
          exact hbars
        · rintro ⟨⟨-, hfew⟩, hbars, hback⟩
          exact ⟨hbars newest rfl, hfew, hback⟩
      · refine iff_of_false ?_ fun h => hone h.1.1
        intro heq
        have hpoll := length_ingestOhlc lane s poll
        have hcount := congrArg List.length heq
        simp only [List.length_append, List.length_map] at hcount
        omega

theorem accumulate_concat (accumulated bars : List ℤ) (bar : ℤ) :
    accumulate accumulated (bars ++ [bar]) =
      accumulate accumulated bars ++ [accumulated ++ bars ++ [bar]] := by
  induction bars generalizing accumulated with
  | nil => rw [List.append_nil]; rfl
  | cons first rest ih =>
    rw [List.cons_append, accumulate, ih, accumulate, List.cons_append, List.append_assoc _ [first]]
    rfl

theorem length_accumulate (accumulated bars : List ℤ) :
    (accumulate accumulated bars).length = bars.length := by
  induction bars generalizing accumulated with
  | nil => rfl
  | cons first rest ih => rw [accumulate, List.length_cons, ih, List.length_cons]

/-- The readings of the loops without the coverage check. -/
def loopReadings (parentTime : ℤ) (childBars : List ℤ) : List Reading :=
  (accumulate [] childBars).map fun accumulated => (parentTime, accumulated)

/-- The index of increasing bars after one bar or more: the last group is that of the last
bar, and the loops over the groups give one reading for each bar. -/
structure Indexed (lane : Lane) (childBars : List ℤ) (last : ℤ) : Prop where
  groups : ∃ front,
    (buildChildBarIndex lane.parentTf childBars).items =
        front ++ [readingAt lane childBars last] ∧
      ∀ group ∈ front, group.1 < alignParentBarTime lane.parentTf last
  readings : (buildChildBarIndex lane.parentTf childBars).gather loopReadings =
    childBars.map (readingAt lane childBars)
  filled : ∀ group ∈ (buildChildBarIndex lane.parentTf childBars).items, group.2 ≠ []

theorem buildChildBarIndex_concat (parentTf : String) (childBars : List ℤ) (bar : ℤ) :
    buildChildBarIndex parentTf (childBars ++ [bar]) =
      (buildChildBarIndex parentTf childBars).set (alignParentBarTime parentTf bar)
        (((buildChildBarIndex parentTf childBars).get? (alignParentBarTime parentTf bar)).getD [] ++
          [bar]) := by
  rw [buildChildBarIndex, List.foldl_append]
  rfl

/-- A later bar does not change what was read before. -/
theorem map_readingAt_concat (hlater : ∀ b ∈ childBars, b < bar) :
    (childBars ++ [bar]).map (readingAt lane (childBars ++ [bar])) =
      childBars.map (readingAt lane childBars) ++ [readingAt lane (childBars ++ [bar]) bar] := by
  rw [List.map_append, List.map_singleton]
  congr 1
  apply List.map_congr_left
  intro b hb
  have hlt := hlater b hb
  simp [readingAt, List.filter_append, not_le.mpr hlt]

variable {last : ℤ}

/-- A bar of the same parent joins the reading of the last one. -/
theorem readingAt_concat_same (hlater : ∀ b ∈ childBars, b < bar) (hmax : ∀ b ∈ childBars, b ≤ last)
    (hsame : alignParentBarTime lane.parentTf last = alignParentBarTime lane.parentTf bar) :
    readingAt lane (childBars ++ [bar]) bar =
      (alignParentBarTime lane.parentTf bar, (readingAt lane childBars last).2 ++ [bar]) := by
  have hold : childBars.filter (fun b => alignParentBarTime lane.parentTf b =
      alignParentBarTime lane.parentTf bar ∧ b ≤ bar) = (readingAt lane childBars last).2 := by
    apply List.filter_congr
    intro b hb
    rw [hsame, decide_eq_decide]
    exact and_congr_right fun _ => iff_of_true (le_of_lt (hlater b hb)) (hmax b hb)
  rw [readingAt, List.filter_append, hold]
  simp

/-- The first bar of another parent is read alone. -/
theorem readingAt_concat_next (hmax : ∀ b ∈ childBars, b ≤ last)
    (hnext : alignParentBarTime lane.parentTf last < alignParentBarTime lane.parentTf bar) :
    readingAt lane (childBars ++ [bar]) bar = (alignParentBarTime lane.parentTf bar, [bar]) := by
  have hold : childBars.filter (fun b => alignParentBarTime lane.parentTf b =
      alignParentBarTime lane.parentTf bar ∧ b ≤ bar) = [] := by
    rw [List.filter_eq_nil_iff]
    intro b hb hsame
    have hle := align_mono lane.parentTf (hmax b hb)
    exact absurd (of_decide_eq_true hsame).1 (ne_of_lt (hle.trans_lt hnext))
  rw [readingAt, List.filter_append, hold]
  simp

theorem Indexed.concat_same (h : Indexed lane childBars last) (hlater : ∀ b ∈ childBars, b < bar)
    (hmax : ∀ b ∈ childBars, b ≤ last)
    (hsame : alignParentBarTime lane.parentTf last = alignParentBarTime lane.parentTf bar) :
    Indexed lane (childBars ++ [bar]) bar := by
  obtain ⟨⟨front, hitems, hfront⟩, hreadings, hfilled⟩ := h
  have hgroup := readingAt_concat_same lane hlater hmax hsame
  have hsplit : (buildChildBarIndex lane.parentTf childBars).items =
      front ++ (alignParentBarTime lane.parentTf bar, (readingAt lane childBars last).2) :: [] := by
    rw [hitems, ← hsame]
    rfl
  have hget : (buildChildBarIndex lane.parentTf childBars).get?
      (alignParentBarTime lane.parentTf bar) = some (readingAt lane childBars last).2 :=
    (Dict.mem_items_iff_get? _ _ _).mp
      (hsplit ▸ List.mem_append_right _ (List.mem_singleton_self _))
  have hnew : (buildChildBarIndex lane.parentTf (childBars ++ [bar])).items =
      front ++ [readingAt lane (childBars ++ [bar]) bar] := by
    rw [buildChildBarIndex_concat, hget, hgroup]
    exact Dict.set_items_of_split _ hsplit
  refine ⟨⟨front, hnew, fun group hmem => hsame ▸ hfront group hmem⟩, ?_, ?_⟩
  · rw [map_readingAt_concat lane hlater, ← hreadings, Dict.gather, Dict.gather, hnew, hsplit,
      hgroup]
    simp [loopReadings, accumulate_concat]
  · intro group hmem
    rw [hnew] at hmem
    rcases List.mem_append.mp hmem with hmem | hmem
    · exact hfilled group (hitems ▸ List.mem_append_left _ hmem)
    · rw [List.mem_singleton.mp hmem, hgroup]
      exact List.append_ne_nil_of_right_ne_nil _ (List.cons_ne_nil bar [])

theorem Indexed.concat_next (h : Indexed lane childBars last) (hlater : ∀ b ∈ childBars, b < bar)
    (hmax : ∀ b ∈ childBars, b ≤ last)
    (hnext : alignParentBarTime lane.parentTf last < alignParentBarTime lane.parentTf bar) :
    Indexed lane (childBars ++ [bar]) bar := by
  obtain ⟨⟨front, hitems, hfront⟩, hreadings, hfilled⟩ := h
  have hbelow : ∀ group ∈ (buildChildBarIndex lane.parentTf childBars).items,
      group.1 < alignParentBarTime lane.parentTf bar := by
    intro group hmem
    rw [hitems] at hmem
    rcases List.mem_append.mp hmem with hmem | hmem
    · exact (hfront group hmem).trans hnext
    · rw [List.mem_singleton.mp hmem]
      exact hnext
  have hget : (buildChildBarIndex lane.parentTf childBars).get?
      (alignParentBarTime lane.parentTf bar) = none := by
    rw [Option.eq_none_iff_forall_ne_some]
    intro group hgroup
    exact lt_irrefl _ (hbelow _ ((Dict.mem_items_iff_get? _ _ _).mpr hgroup))
  have hgroup := readingAt_concat_next lane hmax hnext
  have hnew : (buildChildBarIndex lane.parentTf (childBars ++ [bar])).items =
      (buildChildBarIndex lane.parentTf childBars).items ++
        [readingAt lane (childBars ++ [bar]) bar] := by
    rw [buildChildBarIndex_concat, hget, hgroup]
    exact Dict.set_items_of_get?_none _ hget
  refine ⟨⟨_, hnew, hbelow⟩, ?_, ?_⟩
  · rw [map_readingAt_concat lane hlater, ← hreadings, Dict.gather, Dict.gather, hnew, hgroup]
    simp [loopReadings, accumulate]
  · intro group hmem
    rw [hnew] at hmem
    rcases List.mem_append.mp hmem with hmem | hmem
    · exact hfilled group hmem
    · rw [List.mem_singleton.mp hmem, hgroup]
      exact List.cons_ne_nil bar []

theorem Indexed.concat (h : Indexed lane childBars last)
    (hlast : childBars.getLast? = some last) (hsorted : (childBars ++ [bar]).Pairwise (· < ·)) :
    Indexed lane (childBars ++ [bar]) bar := by
  have hlater : ∀ b ∈ childBars, b < bar := fun b hb =>
    (List.pairwise_append.mp hsorted).2.2 b hb bar (List.mem_singleton_self bar)
  have hbar : last < bar := hlater last (List.mem_of_getLast? hlast)
  have hmax := le_getLast (List.pairwise_append.mp hsorted).1 hlast
  rcases (align_mono lane.parentTf (le_of_lt hbar)).eq_or_lt with hsame | hnext
  · exact h.concat_same lane hlater hmax hsame
  · exact h.concat_next lane hlater hmax hnext

theorem indexed (hsorted : childBars.Pairwise (· < ·))
    (hlast : childBars.getLast? = some last) : Indexed lane childBars last := by
  induction childBars using List.reverseRecOn generalizing last with
  | nil => cases hlast
  | append_singleton front bar ih =>
    rw [List.getLast?_append, List.getLast?_singleton, Option.some_or] at hlast
    cases hlast
    cases hfront : front.getLast? with
    | none =>
      cases List.getLast?_eq_none_iff.mp hfront
      have hitems : (buildChildBarIndex lane.parentTf [bar]).items =
          [(alignParentBarTime lane.parentTf bar, [bar])] := rfl
      have hgroup : readingAt lane [bar] bar = (alignParentBarTime lane.parentTf bar, [bar]) := by
        simp [readingAt]
      rw [List.nil_append]
      refine ⟨⟨[], ?_, ?_⟩, ?_, ?_⟩
      · rw [hitems, hgroup, List.nil_append]
      · intro group hmem
        cases hmem
      · rw [Dict.gather, hitems, List.map_singleton, hgroup]
        rfl
      · intro group hmem
        rw [hitems] at hmem
        rw [List.mem_singleton.mp hmem]
        exact List.cons_ne_nil bar []
    | some last =>
      exact (ih (List.pairwise_append.mp hsorted).1 hfront).concat lane hfront hsorted

/-- The coverage check only takes readings away. -/
theorem length_subLoops_le (groups : List (ℤ × List ℤ)) :
    (groups.flatMap fun group =>
        subLoopReadings lane minCoverageRatio group.1 group.2).length ≤
      (groups.flatMap fun group => loopReadings group.1 group.2).length := by
  induction groups with
  | nil => exact Nat.le_refl 0
  | cons group rest ih =>
    have hgroup : (subLoopReadings lane minCoverageRatio group.1 group.2).length ≤
        (loopReadings group.1 group.2).length := by
      rw [subLoopReadings]
      split
      · exact Nat.zero_le _
      · exact Nat.le_refl _
    rw [List.flatMap_cons, List.flatMap_cons, List.length_append, List.length_append]
    omega

theorem subLoops_iff {groups : List (ℤ × List ℤ)} (hfilled : ∀ group ∈ groups, group.2 ≠ []) :
    groups.flatMap (fun group => subLoopReadings lane minCoverageRatio group.1 group.2) =
        groups.flatMap (fun group => loopReadings group.1 group.2) ↔
      ∀ group ∈ groups, ¬ LowCoverage lane minCoverageRatio group.2 := by
  induction groups with
  | nil => simp
  | cons group rest ih =>
    have hrest := ih fun other hother => hfilled other (List.mem_cons_of_mem group hother)
    rw [List.flatMap_cons, List.flatMap_cons, List.forall_mem_cons, subLoopReadings]
    by_cases hlow : LowCoverage lane minCoverageRatio group.2
    · refine iff_of_false ?_ fun h => h.1 hlow
      intro heq
      have hshorter := length_subLoops_le lane minCoverageRatio rest
      have hgroup : (loopReadings group.1 group.2).length = group.2.length := by
        rw [loopReadings, List.length_map, length_accumulate]
      have hfill := List.length_pos_iff.mpr (hfilled group List.mem_cons_self)
      have hcount := congrArg List.length heq
      rw [if_pos hlow, List.nil_append, List.length_append] at hcount
      omega
    · rw [if_neg hlow, and_iff_right hlow]
      exact (List.append_right_inj _).trans hrest

theorem replayReadings_iff (hsorted : childBars.Pairwise (· < ·)) :
    replayReadings lane minCoverageRatio childBars = childBars.map (readingAt lane childBars) ↔
      Covered lane minCoverageRatio childBars := by
  cases hlast : childBars.getLast? with
  | none =>
    cases List.getLast?_eq_none_iff.mp hlast
    refine iff_of_true rfl ?_
    intro group hgroup
    cases hgroup
  | some last =>
    have h := indexed lane hsorted hlast
    rw [← h.readings]
    exact subLoops_iff lane minCoverageRatio h.filled

/-- A bar whose prices are all zero but for the volume of one child bar. -/
def onlyVolume (bar : ℤ) (other : ℤ) : Candle := ⟨0, 0, 0, 0, if other = bar then 1 else 0⟩

theorem sum_onlyVolume (bar : ℤ) (bars : List ℤ) :
    ((bars.map (onlyVolume bar)).map Candle.volume).sum = bars.count bar := by
  induction bars with
  | nil => rfl
  | cons first rest ih =>
    rw [List.map_cons, List.map_cons, List.sum_cons, ih, List.count_cons, onlyVolume]
    by_cases hfirst : first = bar
    · simp [hfirst, add_comm]
    · simp [hfirst]

theorem snapshot_onlyVolume {reading : Reading} (hfilled : reading.2 ≠ []) (bar : ℤ) :
    (snapshot lane (onlyVolume bar) reading).map (fun ohlc => (ohlc.time, ohlc.volume)) =
      some (reading.1, (reading.2.count bar : ℚ)) := by
  obtain ⟨first, rest, hbars⟩ := List.exists_cons_of_ne_nil hfilled
  rw [← sum_onlyVolume, snapshot, hbars]
  rfl

/-- The snapshots at all prices say which child bars were read. -/
theorem snapshot_injective {reading other : Reading} (hreading : reading.2.Pairwise (· < ·))
    (hother : other.2.Pairwise (· < ·)) (hfilled : other.2 ≠ [])
    (h : ∀ prices, snapshot lane prices reading = snapshot lane prices other) :
    reading = other := by
  have hnonempty : reading.2 ≠ [] := by
    intro hnil
    obtain ⟨first, rest, hbars⟩ := List.exists_cons_of_ne_nil hfilled
    have hnone := h (onlyVolume 0)
    rw [snapshot, hnil, snapshot, hbars] at hnone
    cases hnone
  have hpair (bar : ℤ) : (reading.1, (reading.2.count bar : ℚ)) =
      (other.1, (other.2.count bar : ℚ)) := by
    have hsame := congrArg (Option.map fun ohlc => (ohlc.time, ohlc.volume)) (h (onlyVolume bar))
    rw [snapshot_onlyVolume lane hnonempty, snapshot_onlyVolume lane hfilled] at hsame
    exact Option.some.inj hsame
  have hmem : ∀ bar, bar ∈ reading.2 ↔ bar ∈ other.2 := by
    intro bar
    have hcount : reading.2.count bar = other.2.count bar :=
      Nat.cast_injective (Prod.mk.inj (hpair bar)).2
    rw [← List.count_pos_iff, ← List.count_pos_iff, hcount]
  exact Prod.ext (Prod.mk.inj (hpair 0)).1 (hreading.eq_of_mem_iff hother hmem)

theorem snapshots_injective {readings others : List Reading}
    (hreadings : ∀ reading ∈ readings, reading.2.Pairwise (· < ·))
    (hothers : ∀ other ∈ others, other.2.Pairwise (· < ·) ∧ other.2 ≠ [])
    (h : ∀ prices, readings.map (snapshot lane prices) = others.map (snapshot lane prices)) :
    readings = others := by
  induction readings generalizing others with
  | nil =>
    have hnil := h (onlyVolume 0)
    rw [List.map_nil] at hnil
    exact (List.map_eq_nil_iff.mp hnil.symm).symm
  | cons reading rest ih =>
    cases others with
    | nil => cases h (onlyVolume 0)
    | cons other others =>
      rw [List.forall_mem_cons] at hreadings hothers
      have hsplit : ∀ prices, snapshot lane prices reading = snapshot lane prices other ∧
          rest.map (snapshot lane prices) = others.map (snapshot lane prices) := fun prices =>
        List.cons.inj (h prices)
      have hhead := snapshot_injective lane hreadings.1 hothers.1.1 hothers.1.2
        fun prices => (hsplit prices).1
      rw [hhead, ih hreadings.2 hothers.2 fun prices => (hsplit prices).2]

theorem getOhlcClosed_sorted {service : Service ℤ} (hcached : service.cached.Pairwise (· < ·))
    (count : ℕ) (answers : Bool) :
    (service.getOhlcClosed (some count) answers).1.Pairwise (· < ·) := by
  rw [Service.getOhlcClosed]
  dsimp only
  split
  · exact hcached.sublist (lastItems_suffix _ _).sublist
  · exact (mergeSorted_sorted _ _).sublist (lastItems_suffix _ _).sublist

theorem barsInRange_sorted (service : Service ℤ) {closedBars : List ℤ} (hclosed : closedBars ≠ [])
    (triggerBarTime : ℤ) (answers : Bool) :
    (barsInRange lane (service.setOhlcClosed closedBars) triggerBarTime answers).Pairwise (· < ·) := by
  apply List.Pairwise.filter
  apply getOhlcClosed_sorted
  rw [Service.setOhlcClosed, if_neg hclosed]
  exact (mergeSorted_sorted _ _).sublist (lastItems_suffix _ _).sublist

theorem liveReadings_sorted (s : Ingestor) (polls : List Poll) :
    ∀ reading ∈ liveReadings lane s polls, reading.2.Pairwise (· < ·) := by
  induction polls generalizing s with
  | nil =>
    intro reading hreading
    cases hreading
  | cons poll rest ih =>
    rw [liveReadings, List.forall_mem_append]
    refine ⟨?_, ih _⟩
    intro reading hreading
    rw [Option.mem_toList] at hreading
    rw [ingestOhlc] at hreading
    dsimp only at hreading
    split at hreading
    · cases hreading
    · rename_i newest hlast
      have hclosed : poll.closedBars ≠ [] := List.ne_nil_of_mem (List.mem_of_getLast? hlast)
      split at hreading
      · cases hreading
      · rw [synthesizeParentIntrabar] at hreading
        dsimp only at hreading
        split at hreading
        · cases hreading
        · cases hreading
          exact barsInRange_sorted lane _ hclosed newest poll.answers

theorem replayReadings_subset (hsorted : childBars.Pairwise (· < ·)) :
    replayReadings lane minCoverageRatio childBars ⊆ childBars.map (readingAt lane childBars) := by
  cases hlast : childBars.getLast? with
  | none =>
    cases List.getLast?_eq_none_iff.mp hlast
    exact List.Subset.refl _
  | some last =>
    rw [← (indexed lane hsorted hlast).readings]
    intro reading hreading
    obtain ⟨group, hgroup, hmem⟩ := List.mem_flatMap.mp hreading
    refine List.mem_flatMap.mpr ⟨group, hgroup, ?_⟩
    rw [subLoopReadings] at hmem
    split at hmem
    · cases hmem
    · exact hmem

theorem readingsAt_sorted (hsorted : childBars.Pairwise (· < ·)) :
    ∀ reading ∈ childBars.map (readingAt lane childBars),
      reading.2.Pairwise (· < ·) ∧ reading.2 ≠ [] := by
  intro reading hreading
  obtain ⟨bar, hbar, rfl⟩ := List.mem_map.mp hreading
  exact ⟨hsorted.filter _, List.ne_nil_of_mem (mem_readingAt lane hbar)⟩

end Readings

/-- A service that has stored some bars and cached none, before the first poll. -/
def Ingestor.start (stored : Table ℤ) (settings : Settings) : Ingestor where
  service := { stored := stored, settings := settings }

/-- The live snapshots are those of the replay, one for each child bar, exactly when each poll
brings at most one closed bar, the cache gives the children of the open parent bar back, and
no parent bar is turned away for its coverage. -/
theorem snapshotsAgree_iff (lane : Lane) (minCoverageRatio : ℚ) (stored : Table ℤ)
    (settings : Settings) (polls : List Poll) (hbars : (polledBars polls).Pairwise (· < ·)) :
    SnapshotsAgree lane minCoverageRatio (Ingestor.start stored settings) polls ↔
      (∀ poll ∈ polls, poll.closedBars.length ≤ 1) ∧
        ReadsBack lane (polledBars polls) (Ingestor.start stored settings) polls ∧
        Covered lane minCoverageRatio (polledBars polls) := by
  have hlive := liveReadings_iff lane (s := Ingestor.start stored settings) polls
    (List.nil_append (polledBars polls)).symm hbars rfl
  have hreplay := replayReadings_iff lane minCoverageRatio hbars
  have hspec := readingsAt_sorted lane hbars
  rw [← and_assoc, ← hlive, ← hreplay]
  constructor
  · intro hagree
    have hreplayed : replayReadings lane minCoverageRatio (polledBars polls) =
        (polledBars polls).map (readingAt lane (polledBars polls)) := by
      apply snapshots_injective lane ?_ hspec
      · intro prices
        rw [(hagree prices).2, List.map_map]
        rfl
      · intro reading hreading
        exact (hspec reading (replayReadings_subset lane minCoverageRatio hbars hreading)).1
    refine ⟨?_, hreplayed⟩
    apply snapshots_injective lane (liveReadings_sorted lane _ polls) hspec
    intro prices
    rw [(hagree prices).1, hreplayed]
  · rintro ⟨hlive, hreplay⟩ prices
    rw [hlive, hreplay]
    exact ⟨rfl, List.map_map⟩

section Kept

/-- The cache holds the newest of the polled bars, as many as it may keep; what else is known
was stored before all of them. -/
structure Keeps (old polled : List ℤ) (service : Service ℤ) : Prop where
  sorted : service.cached.Pairwise (· < ·)
  cached : service.cached ⊆ old ++ polled
  stored : service.stored.rows ⊆ old ++ polled
  newest : polled.rtake service.settings.keepLimit ⊆ service.cached

variable {old polled closedBars : List ℤ} {service : Service ℤ}

variable {bars : List ℤ}

/-- Known bars with the newest polled ones among them have these in their window. -/
theorem newest_subset_window (hknown : (old ++ polled).Pairwise (· < ·))
    (hbars : bars.Pairwise (· < ·)) (hsub : bars ⊆ old ++ polled) {n keep : ℕ} (hn : n ≤ keep)
    (hnewest : polled.rtake keep ⊆ bars) : polled.rtake n ⊆ bars.rtake n := by
  obtain ⟨-, hpolled, hbefore⟩ := List.pairwise_append.mp hknown
  intro bar hbar
  obtain ⟨hmem, hfew⟩ := (mem_rtake_iff hpolled).mp hbar
  refine (mem_rtake_iff hbars).mpr
    ⟨hnewest ((mem_rtake_iff hpolled).mpr ⟨hmem, hfew.trans_le hn⟩), ?_⟩
  have hold : old.filter (bar < ·) = [] := by
    rw [List.filter_eq_nil_iff]
    intro row hrow
    simpa using le_of_lt (hbefore row hrow bar hmem)
  have hle := ((sublist_of_subset hbars hknown hsub).filter (bar < ·)).length_le
  rw [List.filter_append, hold, List.nil_append] at hle
  omega

theorem keeps_setOhlcClosed (hknown : (old ++ polled).Pairwise (· < ·))
    (hbars : bars ≠ []) (hpos : 0 < service.settings.keepLimit)
    (hstored : service.stored.rows ⊆ old ++ polled)
    (hmerged : mergeSorted service.cached bars ⊆ old ++ polled)
    (hnewest : polled.rtake service.settings.keepLimit ⊆ mergeSorted service.cached bars) :
    Keeps old polled (service.setOhlcClosed bars) := by
  have hsorted := mergeSorted_sorted service.cached bars
  rw [Service.setOhlcClosed, if_neg hbars, lastItems_of_pos _ hpos]
  exact {
    sorted := hsorted.sublist (rtake_suffix _ _).sublist
    cached := List.Subset.trans (rtake_suffix _ _).subset hmerged
    stored := hstored
    newest := newest_subset_window hknown hsorted hmerged (Nat.le_refl _) hnewest }

theorem Keeps.setOhlcClosed (h : Keeps old polled service)
    (hknown : (old ++ (polled ++ closedBars)).Pairwise (· < ·))
    (hpos : 0 < service.settings.keepLimit) :
    Keeps old (polled ++ closedBars) (service.setOhlcClosed closedBars) := by
  by_cases hclosed : closedBars = []
  · rw [hclosed, List.append_nil, Service.setOhlcClosed, if_pos rfl]
    exact h
  · have hleft : old ++ polled ⊆ old ++ (polled ++ closedBars) := by
      rw [← List.append_assoc]
      exact List.subset_append_left _ _
    have hpolled := (List.pairwise_append.mp hknown).2.1
    refine keeps_setOhlcClosed hknown hclosed hpos (List.Subset.trans h.stored hleft) ?_ ?_
    · intro bar hbar
      rcases mem_mergeSorted.mp hbar with hold | hnew
      · exact hleft (h.cached hold)
      · exact List.mem_append_right _ (List.mem_append_right _ hnew)
    · intro bar hbar
      rcases List.mem_append.mp ((rtake_suffix _ _).mem hbar) with hold | hnew
      · exact mem_mergeSorted.mpr (Or.inl (h.newest
          (mem_rtake_of_subset (List.pairwise_append.mp hpolled).1 hpolled
            (List.subset_append_left _ _) hold hbar)))
      · exact mem_mergeSorted.mpr (Or.inr hnew)

/-- The answer of `get_ohlc_closed` has the newest polled bars and no unknown ones. -/
theorem Keeps.getOhlcClosed (h : Keeps old polled service)
    (hknown : (old ++ polled).Pairwise (· < ·)) {count : ℕ} (hcount : 0 < count)
    (hkeep : count ≤ service.settings.keepLimit) (answers : Bool) :
    polled.rtake count ⊆ (service.getOhlcClosed (some count) answers).1 ∧
      (service.getOhlcClosed (some count) answers).1 ⊆ old ++ polled ∧
      Keeps old polled (service.getOhlcClosed (some count) answers).2 := by
  have hlimit : service.effectiveLimit (some count) = count := if_neg (by omega)
  rw [Service.getOhlcClosed, hlimit]
  dsimp only
  split
  · dsimp only
    rw [lastItems_of_pos _ hcount]
    exact ⟨newest_subset_window hknown h.sorted h.cached hkeep h.newest,
      List.Subset.trans (rtake_suffix _ _).subset h.cached, h⟩
  · have hmerged : mergeSorted (service.stored.fetchRecentOhlc count) service.cached ⊆
        old ++ polled := by
      intro bar hbar
      rcases mem_mergeSorted.mp hbar with hrow | hold
      · exact h.stored ((rtake_suffix _ _).mem hrow)
      · exact h.cached hold
    have hnewest : polled.rtake service.settings.keepLimit ⊆
        mergeSorted (service.stored.fetchRecentOhlc count) service.cached := fun bar hbar =>
      mem_mergeSorted.mpr (Or.inr (h.newest hbar))
    dsimp only
    rw [lastItems_of_pos _ hcount]
    refine ⟨newest_subset_window hknown (mergeSorted_sorted _ _) hmerged hkeep hnewest,
      List.Subset.trans (rtake_suffix _ _).subset hmerged, ?_⟩
    by_cases hnone : mergeSorted (service.stored.fetchRecentOhlc count) service.cached = []
    · rw [hnone, Service.setOhlcClosed, if_pos rfl]
      exact h
    · refine keeps_setOhlcClosed hknown hnone (by omega) h.stored ?_ ?_
      · intro bar hbar
        exact (mem_mergeSorted.mp hbar).elim (fun hold => h.cached hold) fun hnew => hmerged hnew
      · intro bar hbar
        exact mem_mergeSorted.mpr (Or.inl (h.newest hbar))

/-- Multiples of a length within a span are few. -/
theorem length_of_multiples {length : ℕ} {first last : ℤ}
    (hsorted : bars.Pairwise (· < ·)) (hgrid : ∀ bar ∈ bars, bar % length = 0)
    (hrange : ∀ bar ∈ bars, first ≤ bar ∧ bar ≤ last) (hspan : first ≤ last) :
    (bars.length - 1 : ℤ) * length ≤ last - first ∨ bars = [] := by
  induction bars generalizing first with
  | nil => exact Or.inr rfl
  | cons bar rest ih =>
    left
    obtain ⟨hbar, hrest⟩ := List.forall_mem_cons.mp hrange
    obtain ⟨hbarGrid, hrestGrid⟩ := List.forall_mem_cons.mp hgrid
    have hnext : ∀ other ∈ rest, bar + length ≤ other := by
      intro other hother
      have hlt := (List.pairwise_cons.mp hsorted).1 other hother
      have hdvd : (length : ℤ) ∣ other - bar :=
        Int.dvd_sub (Int.dvd_of_emod_eq_zero (hrestGrid other hother))
          (Int.dvd_of_emod_eq_zero hbarGrid)
      have hle := Int.le_of_dvd (by omega) hdvd
      omega
    cases rest with
    | nil =>
      rw [List.length_singleton]
      omega
    | cons next tail =>
      have hfirst := hnext next List.mem_cons_self
      have hlast := hrest next List.mem_cons_self
      have hrange' : ∀ other ∈ next :: tail, bar + length ≤ other ∧ other ≤ last :=
        fun other hother => ⟨hnext other hother, (hrest other hother).2⟩
      have hbound := (ih hsorted.of_cons hrestGrid hrange' (by omega)).resolve_right
        (List.cons_ne_nil next tail)
      have hcount : ((bar :: next :: tail).length : ℤ) - 1 = ((next :: tail).length - 1 : ℤ) + 1 := by
        simp
      rw [hcount, add_mul, one_mul]
      omega

theorem Keeps.barsInRange_eq {lane : Lane} {newest : ℤ} {later : List ℤ}
    (h : Keeps old polled service)
    (hknown : (old ++ (polled ++ later)).Pairwise (· < ·)) (hnewest : newest ∈ polled)
    (hmax : ∀ bar ∈ polled, bar ≤ newest)
    (hgrid : ∀ bar ∈ polled, bar % timeframeSeconds lane.triggerTf = 0)
    (hold : ∀ row ∈ old, row < alignParentBarTime lane.parentTf newest)
    (hkeep : lane.maxChildBars ≤ service.settings.keepLimit) (answers : Bool) :
    barsInRange lane service newest answers =
      (readingAt lane (polled ++ later) newest).2 := by
  have hsplit := List.pairwise_append.mp hknown
  have hpolled := List.pairwise_append.mp hsplit.2.1
  have hbefore : (old ++ polled).Pairwise (· < ·) := by
    rw [← List.append_assoc] at hknown
    exact (List.pairwise_append.mp hknown).1
  have hcount : 0 < lane.maxChildBars := Nat.succ_pos _
  obtain ⟨hwindow, hsub, -⟩ := h.getOhlcClosed hbefore hcount hkeep answers
  have hbounds := align_bounds lane.parentTf newest
  have hanswer := getOhlcClosed_sorted h.sorted lane.maxChildBars answers
  refine (hanswer.filter _).eq_of_mem_iff (hsplit.2.1.filter _) ?_
  intro bar
  simp only [readingAt, List.mem_filter, decide_eq_true_eq]
  constructor
  · rintro ⟨hbar, hopen⟩
    rcases List.mem_append.mp (hsub hbar) with hrow | hbar
    · exact absurd hopen (not_le.mpr (hold bar hrow))
    · refine ⟨List.mem_append_left _ hbar, le_antisymm ?_ ?_, hmax bar hbar⟩
      · exact align_mono _ (hmax bar hbar)
      · rw [← align_align]
        exact align_mono _ hopen
  · rintro ⟨hbar, hsame, hle⟩
    have hmem : bar ∈ polled := by
      rcases List.mem_append.mp hbar with hbar | hlater
      · exact hbar
      · exact absurd hle (not_le.mpr (hpolled.2.2 newest hnewest bar hlater))
    have hopen : alignParentBarTime lane.parentTf newest ≤ bar :=
      hsame ▸ (align_bounds lane.parentTf bar).1
    refine ⟨hwindow ((mem_rtake_iff hpolled.1).mpr ⟨hmem, ?_⟩), hopen⟩
    have hrange : ∀ other ∈ polled.filter (bar < ·), bar ≤ other ∧ other ≤ newest := by
      intro other hother
      obtain ⟨hother, hlt⟩ := List.mem_filter.mp hother
      exact ⟨le_of_lt (of_decide_eq_true hlt), hmax other hother⟩
    rcases length_of_multiples (hpolled.1.filter _)
      (fun other hother => hgrid other (List.mem_of_mem_filter hother)) hrange hle with hspan | hnone
    · have hspan' : ((polled.filter (bar < ·)).length - 1 : ℤ) * timeframeSeconds lane.triggerTf ≤
          timeframeSeconds lane.parentTf := by
        omega
      have hpos := Int.natCast_pos.mpr (timeframeSeconds_pos lane.triggerTf)
      have hfew := Int.le_ediv_of_mul_le hpos hspan'
      rw [← Int.natCast_ediv] at hfew
      rw [Lane.maxChildBars]
      omega
    · rw [hnone]
      exact hcount

/-- The storage writer inserts polled bars only. -/
def PersistsPolled : List ℤ → List Poll → Prop
  | _, [] => True
  | polled, poll :: rest =>
    poll.persisted ⊆ polled ∧ PersistsPolled (polled ++ poll.closedBars) rest

variable {s : Ingestor}

theorem Keeps.persist (h : Keeps old polled s.service) {rows : List ℤ}
    (hrows : rows ⊆ polled) : Keeps old polled (s.persist rows).service where
  sorted := h.sorted
  cached := h.cached
  stored := by
    intro row hrow
    rcases mem_mergeSorted.mp hrow with hrow | hrow
    · exact h.stored hrow
    · exact List.mem_append_right _ (hrows hrow)
  newest := h.newest

theorem settings_getOhlcClosed (service : Service ℤ) (limit : Option ℕ) (answers : Bool) :
    (service.getOhlcClosed limit answers).2.settings = service.settings := by
  rw [Service.getOhlcClosed]
  dsimp only
  split
  · rfl
  · exact (setOhlcClosed_frame _ _).2

/-- A poll keeps the newest bars in the cache. -/
theorem Keeps.ingest (lane : Lane) {poll : Poll} (h : Keeps old polled s.service)
    (hknown : (old ++ (polled ++ poll.closedBars)).Pairwise (· < ·))
    (hpersist : poll.persisted ⊆ polled) (hkeep : lane.maxChildBars ≤ s.service.settings.keepLimit) :
    Keeps old (polled ++ poll.closedBars) (ingestOhlc lane s poll).2.service ∧
      (ingestOhlc lane s poll).2.service.settings = s.service.settings := by
  have hpersisted := h.persist hpersist
  have hcount : 0 < lane.maxChildBars := Nat.succ_pos _
  rw [ingestOhlc]
  dsimp only
  split
  · rename_i hlast
    rw [List.getLast?_eq_none_iff.mp hlast, List.append_nil]
    exact ⟨hpersisted, rfl⟩
  · have hset := hpersisted.setOhlcClosed hknown (hcount.trans_le hkeep)
    have hsettings := (setOhlcClosed_frame (s.persist poll.persisted).service poll.closedBars).2
    split
    · exact ⟨hset, hsettings⟩
    · refine ⟨(hset.getOhlcClosed hknown hcount ?_ poll.answers).2.2, ?_⟩
      · rw [hsettings]
        exact hkeep
      · exact (settings_getOhlcClosed _ _ _).trans hsettings

/-- With bars at the open times of their timeframe and a cache of the size that is asked for,
the cache gives the children back after every poll. -/
theorem readsBack_of_kept (lane : Lane) {childBars : List ℤ} (polls : List Poll)
    (hsplit : childBars = polled ++ polledBars polls) (hknown : (old ++ childBars).Pairwise (· < ·))
    (hgrid : ∀ bar ∈ childBars, bar % timeframeSeconds lane.triggerTf = 0)
    (hold : ∀ row ∈ old, ∀ bar ∈ childBars, row < alignParentBarTime lane.parentTf bar)
    (hs : Keeps old polled s.service) (hkeep : lane.maxChildBars ≤ s.service.settings.keepLimit)
    (hpersist : PersistsPolled polled polls) : ReadsBack lane childBars s polls := by
  induction polls generalizing s polled with
  | nil => trivial
  | cons poll rest ih =>
    have hnext : childBars = (polled ++ poll.closedBars) ++ polledBars rest := by
      rw [hsplit, List.append_assoc, polledBars, List.flatMap_cons, polledBars]
    have hpolled : (old ++ (polled ++ poll.closedBars)).Pairwise (· < ·) := by
      rw [hnext, ← List.append_assoc] at hknown
      exact (List.pairwise_append.mp hknown).1
    obtain ⟨hstep, hsettings⟩ := hs.ingest lane hpolled hpersist.1 hkeep
    refine ⟨?_, ih hnext hstep ?_ hpersist.2⟩
    · intro newest hlast
      have hset := (hs.persist hpersist.1).setOhlcClosed hpolled
        ((Nat.succ_pos _).trans_le hkeep)
      have hsub : polled ++ poll.closedBars ⊆ childBars := by
        rw [hnext]
        exact List.subset_append_left _ _
      have hmem : newest ∈ polled ++ poll.closedBars :=
        List.mem_append_right _ (List.mem_of_getLast? hlast)
      rw [hnext]
      refine hset.barsInRange_eq (hnext ▸ hknown) hmem ?_ ?_ ?_ ?_ poll.answers
      · apply le_getLast (List.pairwise_append.mp hpolled).2.1
        rw [List.getLast?_append, hlast, Option.some_or]
      · exact fun bar hbar => hgrid bar (hsub hbar)
      · exact fun row hrow => hold row hrow newest (hsub hmem)
      · rw [(setOhlcClosed_frame _ _).2]
        exact hkeep
    · rw [hsettings]
      exact hkeep

theorem start_readsBack (lane : Lane) (stored : Table ℤ) (settings : Settings) (polls : List Poll)
    (hknown : (stored.rows ++ polledBars polls).Pairwise (· < ·))
    (hgrid : ∀ bar ∈ polledBars polls, bar % timeframeSeconds lane.triggerTf = 0)
    (hold : ∀ row ∈ stored.rows, ∀ bar ∈ polledBars polls,
      row < alignParentBarTime lane.parentTf bar)
    (hkeep : lane.maxChildBars ≤ settings.keepLimit) (hpersist : PersistsPolled [] polls) :
    ReadsBack lane (polledBars polls) (Ingestor.start stored settings) polls := by
  have hstart : Keeps stored.rows [] (Ingestor.start stored settings).service :=
    ⟨List.Pairwise.nil, List.nil_subset _, List.subset_append_left _ _, (rtake_suffix [] _).subset⟩
  exact readsBack_of_kept lane polls (List.nil_append _).symm hknown hgrid hold hstart hkeep hpersist

end Kept

def fiveMinutes : Lane := ⟨"XAUUSD", "M5", "M15"⟩

/-- A poll without a closed bar and polls with one, over the end of a parent bar. -/
def singlePolls : List Poll :=
  [⟨[0], [], false⟩, ⟨[300], [0], true⟩, ⟨[], [], true⟩, ⟨[600], [], true⟩,
    ⟨[900], [300, 600], true⟩]

theorem singlePolls_agree :
    SnapshotsAgree fiveMinutes (1 / 3) (Ingestor.start ⟨[], List.Pairwise.nil⟩ {}) singlePolls :=
  (snapshotsAgree_iff fiveMinutes (1 / 3) ⟨[], List.Pairwise.nil⟩ {} singlePolls
    (by decide)).mpr (by decide +kernel)

/-- After a pause a poll returns two closed bars, and the first of them gets no snapshot. -/
def joinedPolls : List Poll := [⟨[0], [], true⟩, ⟨[300, 600], [], true⟩]

theorem joinedPolls_disagree :
    ¬ SnapshotsAgree fiveMinutes (1 / 3) (Ingestor.start ⟨[], List.Pairwise.nil⟩ {})
      joinedPolls := by
  intro h
  have hcount := congrArg List.length (h (onlyVolume 0)).1
  rw [List.length_map, List.length_map] at hcount
  revert hcount
  decide +kernel

theorem start_readsBack_single :
    ReadsBack fiveMinutes (polledBars singlePolls) (Ingestor.start ⟨[], List.Pairwise.nil⟩ {})
      singlePolls :=
  start_readsBack fiveMinutes ⟨[], List.Pairwise.nil⟩ {} singlePolls (by decide)
    (by decide) (by decide) (by decide)
    (by simp [PersistsPolled, singlePolls])

end MT5Services.IntrabarSynthesis
