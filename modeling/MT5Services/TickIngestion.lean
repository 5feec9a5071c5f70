import MT5Services.CursorPolls
import MT5Services.Runs
import Mathlib.Algebra.Order.Group.Int
import Mathlib.Data.Rat.Defs

/-!
Incremental polls of the ticks of one symbol. The cursor is the time of the last tick taken,
in UTC; the terminal reads the start of a request as server time. What is taken is the broker's
stream without gap, and a poll makes progress, as long as no pending tick shares the
millisecond of the cursor or lies before the start as the server reads it, and the ticks from
that start up to the cursor leave room in the batch.
-/
namespace MT5Services.TickIngestion

open Runs CursorPolls

/-- A tick of the terminal; `time` in seconds, both times by the server's clock. -/
structure RawTick where
  time : ℤ
  timeMsc : Option ℤ := none
  bid : Option ℚ := none
  ask : Option ℚ := none
  last : Option ℚ := none
  volume : ℚ := 0
  volumeReal : Option ℚ := none
  flags : ℤ := 0

/-- Times in microseconds, UTC. -/
structure Tick where
  symbol : String
  bid : Option ℚ
  ask : Option ℚ
  last : Option ℚ
  volume : ℚ
  time : ℤ
  timeMsc : ℤ
  flags : ℤ
  deriving DecidableEq

/-- The offset is configured in hours or was found from live timestamps. -/
structure MT5MarketClient where
  marketTimeOffsetSeconds : ℤ
  tickInitialLookbackSeconds : ℤ := 20

structure IngestConfig where
  symbol : String
  tickCacheSize : ℕ := 5000
  client : MT5MarketClient

/-! ### The client -/

def extractTickPriceField (value : Option ℚ) : Option ℚ := value.filter fun price => 0 < price

def extractVolume (raw : RawTick) : ℚ :=
  match raw.volumeReal with
  | some volume => if volume = 0 then raw.volume else volume
  | none => raw.volume

namespace MT5MarketClient

def offsetMicros (client : MT5MarketClient) : ℤ := client.marketTimeOffsetSeconds * 1000000

/-- `_normalize_market_time`. -/
def normalizeMarketTime (client : MT5MarketClient) (raw : ℤ) : ℤ := raw - client.offsetMicros

def parseServerTimestamp (client : MT5MarketClient) (epochSeconds : ℤ) : ℤ :=
  client.normalizeMarketTime (epochSeconds * 1000000)

def parseServerTimestampMsc (client : MT5MarketClient) (epochMsc : ℤ) : ℤ :=
  client.normalizeMarketTime (epochMsc * 1000)

def tickTimestamp (client : MT5MarketClient) (raw : RawTick) : ℤ :=
  match raw.timeMsc with
  | some timeMsc => client.parseServerTimestampMsc timeMsc
  | none => client.parseServerTimestamp raw.time

end MT5MarketClient

def tickTimeMsc (raw : RawTick) : ℤ :=
  match raw.timeMsc with
  | some timeMsc => timeMsc
  | none => raw.time * 1000

/-- The server's timestamp. -/
def serverMicros (raw : RawTick) : ℤ := tickTimeMsc raw * 1000

/-- The terminal gives the first ticks from the start on, of those that exist. -/
def copyTicksFrom (existing : List RawTick) (start : ℤ) (limit : ℕ) : List RawTick :=
  request serverMicros start limit existing

def toTick (client : MT5MarketClient) (symbol : String) (raw : RawTick) : Tick where
  symbol := symbol
  bid := extractTickPriceField raw.bid
  ask := extractTickPriceField raw.ask
  last := extractTickPriceField raw.last
  volume := extractVolume raw
  time := client.tickTimestamp raw
  timeMsc := tickTimeMsc raw
  flags := raw.flags

namespace MT5MarketClient

def lookbackSeconds (client : MT5MarketClient) : ℤ :=
  if client.tickInitialLookbackSeconds = 0 then 20 else client.tickInitialLookbackSeconds

/-- `start or now - lookback`. It goes to the terminal as it is, in UTC. -/
def ticksStart (client : MT5MarketClient) (start : Option ℤ) (nowUtc : ℤ) : ℤ :=
  start.getD (nowUtc - client.lookbackSeconds * 1000000)

def getTicks (client : MT5MarketClient) (existing : List RawTick) (symbol : String) (limit : ℕ)
    (start : Option ℤ) (nowUtc : ℤ) : List Tick :=
  (copyTicksFrom existing (client.ticksStart start nowUtc) limit).map (toTick client symbol)

end MT5MarketClient

/-! ### The ingestor -/

/-- A value that counts as true. -/
def truthy (value : Option ℚ) : Option ℚ := value.filter fun price => price ≠ 0

def Tick.mid (tick : Tick) : Option ℚ :=
  match tick.bid, tick.ask with
  | some bid, some ask => some ((bid + ask) / 2)
  | _, _ => none

def Tick.price (tick : Tick) : Option ℚ :=
  if tick.last.isSome then tick.last
  else ((truthy tick.mid).or (truthy tick.bid)).or tick.ask

/-- The row of the tick in the storage channel. -/
structure TickRow where
  symbol : String
  price : Option ℚ
  bid : Option ℚ
  ask : Option ℚ
  last : Option ℚ
  volume : ℚ
  time : ℤ
  timeMsc : ℤ
  flags : ℤ

def Tick.row (tick : Tick) : TickRow where
  symbol := tick.symbol
  price := tick.price
  bid := tick.bid
  ask := tick.ask
  last := tick.last
  volume := tick.volume
  time := tick.time
  timeMsc := tick.timeMsc
  flags := tick.flags

/-- The broker's stream so far, the cursor, the batches given to `extend_ticks`, the rows
given to the storage, and the start of the request that gave the first batch. -/
structure Session where
  stream : List RawTick := []
  lastTickTime : Option ℤ := none
  batches : List (List Tick) := []
  enqueued : List TickRow := []
  firstRequest : Option ℤ := none

namespace Session

/-- Ticks that are not behind the cursor are left out. -/
def newTicks (since : Option ℤ) (ticks : List Tick) : List Tick :=
  ticks.filter fun tick => since.all fun since => since < tick.time

def polled (c : IngestConfig) (s : Session) (nowUtc : ℤ) : List Tick :=
  newTicks s.lastTickTime
    (c.client.getTicks s.stream c.symbol c.tickCacheSize (s.lastTickTime.map (· + 1000)) nowUtc)

/-- `_ingest_ticks` with a call that succeeds. -/
def ingestTicks (c : IngestConfig) (s : Session) (nowUtc : ℤ) : Session :=
  match (s.polled c nowUtc).getLast? with
  | none => s
  | some last =>
    { s with
      lastTickTime := some last.time
      batches := s.batches ++ [s.polled c nowUtc]
      enqueued := s.enqueued ++ (s.polled c nowUtc).map Tick.row
      firstRequest := s.firstRequest.or
        (some (c.client.ticksStart (s.lastTickTime.map (· + 1000)) nowUtc)) }

def ingested (s : Session) : List Tick := s.batches.flatten

/-- The whole stream as the client gives it. -/
def ticks (c : IngestConfig) (s : Session) : List Tick :=
  s.stream.map (toTick c.client c.symbol)

/-- The stream from the start of the first batch on. -/
def fromFirst (c : IngestConfig) (s : Session) : List Tick :=
  match s.firstRequest with
  | none => []
  | some start =>
    (s.stream.filter fun raw => start ≤ serverMicros raw).map (toTick c.client c.symbol)

/-- What the polls have still to take. -/
def pending (c : IngestConfig) (s : Session) : List Tick := (s.fromFirst c).drop s.ingested.length

end Session

inductive Event
  | arrive (raw : RawTick)
  | poll (nowUtc : ℤ)

/-- Ticks arrive in the order of their milliseconds, several may share one. -/
def step (c : IngestConfig) (s : Session) : Event → Option Session
  | .arrive raw =>
    if ∀ old ∈ s.stream, tickTimeMsc old ≤ tickTimeMsc raw then
      some { s with stream := s.stream ++ [raw] }
    else none
  | .poll nowUtc => some (s.ingestTicks c nowUtc)

/-- After the step the batches are the stream from the first one on, and a poll behind the
first batch takes something if something newer is there. -/
def Exact (c : IngestConfig) (s : Session) (event : Event) : Prop :=
  ∀ t, step c s event = some t → t.ingested <+: t.fromFirst c ∧
    ((∃ nowUtc, event = .poll nowUtc) → s.lastTickTime.isSome → s.ingested ≠ s.fromFirst c →
      s.ingested.length < t.ingested.length)

/-- The start of a request in UTC, as the server reads it. -/
def readStart (c : IngestConfig) (since : ℤ) : ℤ := since + 1000 - c.client.offsetMicros

/-- Every pending tick lies behind the cursor and not before the start of the request, and the
ticks between the two leave room. -/
def Clear (c : IngestConfig) (s : Session) (since : ℤ) : Prop :=
  (∀ tick ∈ s.pending c, readStart c since ≤ tick.time ∧ since < tick.time) ∧
    ((s.ticks c).countP fun tick => readStart c since ≤ tick.time ∧ tick.time ≤ since) <
      c.tickCacheSize

def Safe (c : IngestConfig) (s : Session) : Event → Prop
  | .arrive _ => True
  | .poll _ => ∀ since, s.lastTickTime = some since → s.pending c ≠ [] → Clear c s since

/-! ### Requests in UTC -/

section Requests

variable {c : IngestConfig} {s : Session}

theorem time_toTick (client : MT5MarketClient) (symbol : String) (raw : RawTick) :
    (toTick client symbol raw).time = serverMicros raw - client.offsetMicros := by
  show client.tickTimestamp raw = _
  unfold MT5MarketClient.tickTimestamp serverMicros tickTimeMsc
  cases raw.timeMsc with
  | some timeMsc => rfl
  | none =>
    show raw.time * 1000000 - _ = raw.time * 1000 * 1000 - _
    omega

/-- A start by the server's clock selects among the ticks as among the raw ones. -/
theorem map_filter_from (client : MT5MarketClient) (symbol : String) (existing : List RawTick)
    (start : ℤ) :
    (existing.filter fun raw => start ≤ serverMicros raw).map (toTick client symbol) =
      (existing.map (toTick client symbol)).filter fun tick =>
        start - client.offsetMicros ≤ tick.time := by
  rw [List.filter_map]
  congr 1
  refine List.filter_congr fun raw _ => ?_
  rw [Function.comp_apply, time_toTick, decide_eq_decide]
  omega

theorem getTicks_eq (client : MT5MarketClient) (existing : List RawTick) (symbol : String)
    (limit : ℕ) (start : Option ℤ) (nowUtc : ℤ) :
    client.getTicks existing symbol limit start nowUtc =
      request Tick.time (client.ticksStart start nowUtc - client.offsetMicros) limit
        (existing.map (toTick client symbol)) := by
  unfold MT5MarketClient.getTicks copyTicksFrom request
  rw [List.map_take, map_filter_from]

theorem polled_of_some {since : ℤ} (h : s.lastTickTime = some since) (nowUtc : ℤ) :
    s.polled c nowUtc =
      fresh Tick.time since
        (request Tick.time (readStart c since) c.tickCacheSize (s.ticks c)) := by
  unfold Session.polled Session.newTicks
  rw [h, getTicks_eq]
  rfl

theorem fromFirst_of_some {start : ℤ} (h : s.firstRequest = some start) :
    s.fromFirst c = (s.ticks c).filter fun tick => start - c.client.offsetMicros ≤ tick.time := by
  unfold Session.fromFirst
  rw [h]
  exact map_filter_from c.client c.symbol s.stream start

end Requests

/-! ### What a poll changes -/

section Poll

variable {c : IngestConfig} {s : Session}

theorem ingestTicks_of_nil {nowUtc : ℤ} (h : s.polled c nowUtc = []) :
    s.ingestTicks c nowUtc = s := by
  unfold Session.ingestTicks
  rw [h, List.getLast?_nil]

theorem ingestTicks_of_concat {nowUtc : ℤ} {front : List Tick} {last : Tick}
    (h : s.polled c nowUtc = front ++ [last]) :
    s.ingestTicks c nowUtc =
      { s with
        lastTickTime := some last.time
        batches := s.batches ++ [front ++ [last]]
        enqueued := s.enqueued ++ (front ++ [last]).map Tick.row
        firstRequest := s.firstRequest.or
          (some (c.client.ticksStart (s.lastTickTime.map (· + 1000)) nowUtc)) } := by
  unfold Session.ingestTicks
  rw [h, List.getLast?_concat]

theorem polled_cases (c : IngestConfig) (s : Session) (nowUtc : ℤ) :
    s.polled c nowUtc = [] ∨ ∃ front last, s.polled c nowUtc = front ++ [last] := by
  rcases List.eq_nil_or_concat (s.polled c nowUtc) with hnil | ⟨front, last, hconcat⟩
  · exact Or.inl hnil
  · exact Or.inr ⟨front, last, by rw [hconcat, List.concat_eq_append]⟩

@[simp] theorem ingested_ingestTicks (c : IngestConfig) (s : Session) (nowUtc : ℤ) :
    (s.ingestTicks c nowUtc).ingested = s.ingested ++ s.polled c nowUtc := by
  rcases polled_cases c s nowUtc with hnil | ⟨front, last, hconcat⟩
  · rw [ingestTicks_of_nil hnil, hnil, List.append_nil]
  · rw [ingestTicks_of_concat hconcat, hconcat]
    show (s.batches ++ [front ++ [last]]).flatten = _
    rw [List.flatten_append, List.flatten_singleton]
    rfl

@[simp] theorem ticks_ingestTicks (c : IngestConfig) (s : Session) (nowUtc : ℤ) :
    (s.ingestTicks c nowUtc).ticks c = s.ticks c := by
  rcases polled_cases c s nowUtc with hnil | ⟨front, last, hconcat⟩
  · rw [ingestTicks_of_nil hnil]
  · rw [ingestTicks_of_concat hconcat]
    rfl

/-- The storage gets the rows of the ticks that are ingested. -/
theorem enqueued_ingestTicks (h : s.enqueued = s.ingested.map Tick.row) (nowUtc : ℤ) :
    (s.ingestTicks c nowUtc).enqueued = (s.ingestTicks c nowUtc).ingested.map Tick.row := by
  rw [ingested_ingestTicks, List.map_append, ← h]
  rcases polled_cases c s nowUtc with hnil | ⟨front, last, hconcat⟩
  · rw [ingestTicks_of_nil hnil, hnil, List.map_nil, List.append_nil]
  · rw [ingestTicks_of_concat hconcat, hconcat]

end Poll

/-! ### Runs -/

structure Inv (c : IngestConfig) (s : Session) : Prop where
  sorted : (s.ticks c).Pairwise fun a b => a.time ≤ b.time
  front : s.ingested <+: s.fromFirst c
  started : s.firstRequest = none ↔ s.lastTickTime = none
  cursor : s.ingested.getLast?.map Tick.time = s.lastTickTime
  stored : s.enqueued = s.ingested.map Tick.row

section Invariant

variable {c : IngestConfig} {s : Session}

theorem inv_start (c : IngestConfig) : Inv c {} where
  sorted := List.Pairwise.nil
  front := List.nil_prefix
  started := Iff.rfl
  cursor := rfl
  stored := rfl

/-- The stream is what came before the cursor and what is pending. -/
theorem Inv.split (h : Inv c s) {since : ℤ} (hsince : s.lastTickTime = some since) :
    ∃ done, s.ticks c = done ++ s.pending c ∧ ∀ tick ∈ done, tick.time ≤ since := by
  obtain ⟨start, hstart⟩ : ∃ start, s.firstRequest = some start := by
    refine Option.ne_none_iff_exists'.mp fun hnone => ?_
    rw [h.started.mp hnone] at hsince
    cases hsince
  obtain ⟨last, hlast, htime⟩ := Option.map_eq_some_iff.mp (h.cursor.trans hsince)
  obtain ⟨front, hfront⟩ := List.getLast?_eq_some_iff.mp hlast
  have hticks : s.ticks c = ((s.ticks c).filter fun tick =>
      tick.time < start - c.client.offsetMicros) ++ (s.ingested ++ s.pending c) := by
    rw [Session.pending, List.prefix_iff_eq_append.mp h.front, fromFirst_of_some hstart,
      filter_lt_append_filter_le _ h.sorted]
  rw [hfront, ← List.append_assoc, ← List.append_assoc] at hticks
  refine ⟨_, hticks, fun tick htick => ?_⟩
  have hsorted := h.sorted
  rw [hticks] at hsorted
  have hdone := (List.pairwise_append.mp hsorted).1
  rcases List.mem_append.mp htick with hearlier | hself
  · have hle := (List.pairwise_append.mp hdone).2.2 tick hearlier last (List.mem_singleton_self _)
    exact hle.trans htime.le
  · rw [List.mem_singleton.mp hself]
    exact htime.le

theorem sorted_arrive (hsorted : (s.ticks c).Pairwise fun a b => a.time ≤ b.time)
    {raw : RawTick} (hlast : ∀ old ∈ s.stream, tickTimeMsc old ≤ tickTimeMsc raw) :
    (Session.ticks c { s with stream := s.stream ++ [raw] }).Pairwise
      fun a b => a.time ≤ b.time := by
  unfold Session.ticks
  dsimp only
  rw [List.map_append, List.pairwise_append]
  refine ⟨hsorted, List.pairwise_singleton _ _, ?_⟩
  intro a ha b hb
  obtain ⟨old, hold, rfl⟩ := List.mem_map.mp ha
  rw [List.map_singleton, List.mem_singleton] at hb
  subst hb
  have hle := hlast old hold
  rw [time_toTick, time_toTick, serverMicros, serverMicros]
  omega

theorem inv_ingestTicks (h : Inv c s) {nowUtc : ℤ} (hexact : Exact c s (.poll nowUtc)) :
    Inv c (s.ingestTicks c nowUtc) where
  sorted := by
    rw [ticks_ingestTicks]
    exact h.sorted
  front := (hexact _ rfl).1
  started := by
    rcases polled_cases c s nowUtc with hnil | ⟨front, last, hconcat⟩
    · rw [ingestTicks_of_nil hnil]
      exact h.started
    · rw [ingestTicks_of_concat hconcat]
      dsimp only
      simp
  cursor := by
    rcases polled_cases c s nowUtc with hnil | ⟨front, last, hconcat⟩
    · rw [ingestTicks_of_nil hnil]
      exact h.cursor
    · rw [ingested_ingestTicks, hconcat, ← List.append_assoc, List.getLast?_concat,
        ingestTicks_of_concat hconcat]
      rfl
  stored := enqueued_ingestTicks h.stored nowUtc

theorem inv_step {event : Event} {t : Session} (h : Inv c s) (hexact : Exact c s event)
    (hstep : step c s event = some t) : Inv c t := by
  cases event with
  | poll nowUtc =>
    cases Option.some.inj hstep
    exact inv_ingestTicks h hexact
  | arrive raw =>
    have hfront := (hexact t hstep).1
    unfold step at hstep
    dsimp only at hstep
    split at hstep
    · rename_i hlast
      cases Option.some.inj hstep
      exact ⟨sorted_arrive h.sorted hlast, hfront, h.started, h.cursor, h.stored⟩
    · cases hstep

end Invariant

/-- The ticks between the start of a request and the cursor fill a batch. -/
structure Stuck (c : IngestConfig) (since : ℤ) (taken : List Tick) (s : Session) : Prop where
  sorted : (s.ticks c).Pairwise fun a b => a.time ≤ b.time
  cursor : s.lastTickTime = some since
  full : c.tickCacheSize ≤
    (s.ticks c).countP fun tick => readStart c since ≤ tick.time ∧ tick.time ≤ since
  taken : s.ingested = taken

section Stuck

variable {c : IngestConfig} {since : ℤ} {taken : List Tick} {s : Session}

theorem Stuck.polled_eq_nil (h : Stuck c since taken s) (nowUtc : ℤ) : s.polled c nowUtc = [] := by
  have hfull : c.tickCacheSize ≤ (((s.ticks c).filter fun tick => tick.time < since + 1).filter
      fun tick => readStart c since ≤ tick.time).length := by
    refine h.full.trans_eq ?_
    rw [List.filter_filter, ← List.countP_eq_length_filter]
    refine List.countP_congr fun tick _ => ?_
    simp only [decide_eq_true_eq, Bool.and_eq_true]
    omega
  rw [polled_of_some h.cursor, ← filter_lt_append_filter_le (since + 1) h.sorted]
  refine fresh_request_full (fun tick htick => ?_) hfull
  have hlt := (List.mem_filter.mp htick).2
  rw [decide_eq_true_eq] at hlt
  omega

theorem Stuck.after_step {event : Event} {t : Session} (h : Stuck c since taken s)
    (hstep : step c s event = some t) : Stuck c since taken t := by
  cases event with
  | poll nowUtc =>
    cases Option.some.inj hstep
    rw [ingestTicks_of_nil (h.polled_eq_nil nowUtc)]
    exact h
  | arrive raw =>
    unfold step at hstep
    dsimp only at hstep
    split at hstep
    · rename_i hlast
      cases Option.some.inj hstep
      refine ⟨sorted_arrive h.sorted hlast, h.cursor, h.full.trans ?_, h.taken⟩
      unfold Session.ticks
      dsimp only
      rw [List.map_append, List.countP_append]
      exact Nat.le_add_right _ _
    · cases hstep

/-- From then on no poll ingests anything, however many ticks arrive. -/
theorem Stuck.after_run {events : List Event} {t : Session} (h : Stuck c since taken s)
    (hrun : run (step c) s events = some t) : t.ingested = taken :=
  (run_invariant (fun _ _ _ hstuck hstep => hstuck.after_step hstep) h hrun).taken

end Stuck

/-! ### Two ticks of one millisecond -/

def gold : IngestConfig where
  symbol := "XAUUSD"
  client := ⟨0, 20⟩

end MT5Services.TickIngestion
