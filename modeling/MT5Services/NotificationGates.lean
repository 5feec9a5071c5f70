import MT5Services.Dict
import Mathlib.Algebra.Order.Field.Rat

/-!
What a submission of a notification passes before it reaches the outbox. The deduper suppresses a
key that was let through less than its time to live ago, in a table of bounded size from which the
key let through longest ago is dropped. The limiter has a global token bucket and one for each
chat, refilled when they are looked at; a request takes a token from both or from neither.
Readings of the clocks are seconds.
-/
namespace MT5Services.NotificationGates

structure DedupVerdict where
  allowed : Bool
  suppressedCount : ℕ
  deriving DecidableEq, Repr

/-- `OrderedDict.move_to_end`. -/
def moveToEnd (d : Dict String ℚ) (key : String) : Dict String ℚ where
  items := (d.items.filter fun p => p.1 ≠ key) ++ d.items.filter fun p => p.1 = key
  nodup := by
    have hperm := List.filter_append_perm (fun p : String × ℚ => decide (p.1 ≠ key)) d.items
    simp only [ne_eq, decide_not, Bool.not_not] at hperm ⊢
    exact (hperm.map Prod.fst).nodup_iff.mpr d.nodup

/-- `popitem(last=False)` without its result. -/
def popFirst (d : Dict String ℚ) : Dict String ℚ where
  items := d.items.tail
  nodup := d.nodup.sublist ((List.tail_sublist d.items).map Prod.fst)

structure Deduper where
  lastSentAt : Dict String ℚ
  suppressedCount : Dict String ℕ
  maxEntries : ℕ

namespace Deduper

variable (deduper : Deduper)

/-- One turn of the `while` of `_record_allowed`. -/
def evictFirst : Deduper :=
  match deduper.lastSentAt.items with
  | [] => deduper
  | (evictedKey, _) :: _ =>
    { deduper with
      lastSentAt := popFirst deduper.lastSentAt
      suppressedCount := deduper.suppressedCount.pop evictedKey }

/-- The `while` of `_record_allowed`. -/
def evict (deduper : Deduper) : Deduper :=
  if deduper.maxEntries < deduper.lastSentAt.items.length then evict deduper.evictFirst
  else deduper
termination_by deduper.lastSentAt.items.length
decreasing_by
  rename_i hlong
  cases hitems : deduper.lastSentAt.items with
  | nil => simp [hitems] at hlong
  | cons first rest => simp [evictFirst, popFirst, hitems]

/-- `_record_allowed`. -/
def recordAllowed (dedupKey : String) (current : ℚ) : Deduper :=
  { deduper with
    lastSentAt := moveToEnd (deduper.lastSentAt.set dedupKey current) dedupKey
    suppressedCount := deduper.suppressedCount.pop dedupKey }.evict

def check (dedupKey : String) (ttlSeconds : ℤ) (now : ℚ) :
    Except String DedupVerdict × Deduper :=
  if dedupKey = "" then (.error "dedup_key cannot be empty", deduper)
  else if ttlSeconds ≤ 0 then (.ok ⟨true, 0⟩, deduper.recordAllowed dedupKey now)
  else
    match deduper.lastSentAt.get? dedupKey with
    | none => (.ok ⟨true, 0⟩, deduper.recordAllowed dedupKey now)
    | some last =>
      if ttlSeconds ≤ now - last then (.ok ⟨true, 0⟩, deduper.recordAllowed dedupKey now)
      else
        let count := (deduper.suppressedCount.get? dedupKey).getD 0 + 1
        (.ok ⟨false, count⟩,
          { deduper with suppressedCount := deduper.suppressedCount.set dedupKey count })

end Deduper

structure RateLimitVerdict where
  allowed : Bool
  blockedBy : Option String
  deriving DecidableEq, Repr

/-- `_TokenBucket`. -/
structure TokenBucket where
  capacity : ℚ
  refillPerSecond : ℚ
  tokens : ℚ
  lastRefill : Option ℚ

namespace TokenBucket

def new (capacity : ℤ) (refillPerSecond : ℚ) : TokenBucket :=
  ⟨capacity, refillPerSecond, capacity, none⟩

/-- `_refill`. -/
def refill (bucket : TokenBucket) (now : ℚ) : TokenBucket :=
  match bucket.lastRefill with
  | none => { bucket with lastRefill := some now }
  | some last =>
    let elapsed := now - last
    if elapsed ≤ 0 then bucket
    else
      { bucket with
        tokens := min bucket.capacity (bucket.tokens + elapsed * bucket.refillPerSecond)
        lastRefill := some now }

def tryAcquire (bucket : TokenBucket) (now : ℚ) : Bool × TokenBucket :=
  let bucket := bucket.refill now
  if 1 ≤ bucket.tokens then (true, { bucket with tokens := bucket.tokens - 1 })
  else (false, bucket)

def available (bucket : TokenBucket) (now : ℚ) : ℚ × TokenBucket :=
  let bucket := bucket.refill now
  (bucket.tokens, bucket)

end TokenBucket

inductive Raised
  | valueError (text : String)
  | assertionError
  deriving DecidableEq, Repr

def Raised.text : Raised → String
  | valueError text => text
  | assertionError => ""

structure RateLimiter where
  globalBucket : TokenBucket
  perChatCapacity : ℤ
  perChatRefillPerSecond : ℚ
  chatBuckets : Dict String TokenBucket

namespace RateLimiter

variable (limiter : RateLimiter)

/-- The bucket `_get_chat_bucket` returns; a new one is put into the table. -/
def chatBucket (chatId : String) : TokenBucket :=
  (limiter.chatBuckets.get? chatId).getD
    (.new limiter.perChatCapacity limiter.perChatRefillPerSecond)

def setChat (chatId : String) (bucket : TokenBucket) : RateLimiter :=
  { limiter with chatBuckets := limiter.chatBuckets.set chatId bucket }

def setGlobal (bucket : TokenBucket) : RateLimiter := { limiter with globalBucket := bucket }

/-- Both buckets are looked at before either gives a token. -/
def acquire (chatId : String) (now : ℚ) : Except Raised RateLimitVerdict × RateLimiter :=
  if chatId = "" then (.error (.valueError "chat_id cannot be empty"), limiter)
  else
    let chat := limiter.chatBucket chatId
    let limiter := limiter.setChat chatId chat
    let (globalTokens, globalBucket) := limiter.globalBucket.available now
    let limiter := limiter.setGlobal globalBucket
    if globalTokens < 1 then (.ok ⟨false, some "global"⟩, limiter)
    else
      let (chatTokens, chat) := chat.available now
      let limiter := limiter.setChat chatId chat
      if chatTokens < 1 then (.ok ⟨false, some "per_chat"⟩, limiter)
      else
        match globalBucket.tryAcquire now with
        | (false, globalBucket) => (.error .assertionError, limiter.setGlobal globalBucket)
        | (true, globalBucket) =>
          let limiter := limiter.setGlobal globalBucket
          match chat.tryAcquire now with
          | (false, chat) => (.error .assertionError, limiter.setChat chatId chat)
          | (true, chat) => (.ok ⟨true, none⟩, limiter.setChat chatId chat)

end RateLimiter

end MT5Services.NotificationGates
