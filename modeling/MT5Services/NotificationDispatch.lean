import MT5Services.NotificationGates
import MT5Services.NotificationOutbox
import MT5Services.Runs

/-!
The dispatcher of notifications. A submission passes the deduper, the limiter and the template and
is then a row of the outbox; the worker fetches due rows, sends each through the transport and
writes down what came of it. A process may end at any time, also between an answer of the transport
and its row, and a submission may come in between any two actions of the worker.
-/
namespace MT5Services.NotificationDispatch

open IsoTime NotificationGates NotificationOutbox

inductive Severity
  | critical
  | warning
  | info
  deriving DecidableEq, Repr

def Severity.value : Severity → String
  | critical => "critical"
  | warning => "warning"
  | info => "info"

/-- What the dispatcher reads of an event; the payload goes to the template. -/
structure NotificationEvent (Payload : Type) where
  eventId : String
  eventType : String
  severity : Severity
  dedupKey : String
  payload : Payload

/-- What the dispatcher reads of its configuration, as the validators of it leave it. -/
structure NotificationConfig where
  globalPerMinute : ℤ
  perChatPerMinute : ℤ
  criticalTtlSeconds : ℤ
  warningTtlSeconds : ℤ
  infoTtlSeconds : ℤ
  maxRetryAttempts : ℕ
  retryBackoffSeconds : List ℚ
  limits_positive : 0 < globalPerMinute ∧ 0 < perChatPerMinute
  attempts_positive : 0 < maxRetryAttempts
  backoff_ne_nil : retryBackoffSeconds ≠ []

def NotificationConfig.dedupTtl (config : NotificationConfig) : Severity → ℤ
  | .critical => config.criticalTtlSeconds
  | .warning => config.warningTtlSeconds
  | .info => config.infoTtlSeconds

structure TransportResult where
  ok : Bool
  retryable : Bool := false
  error : Option String := none
  retryAfterSeconds : Option ℚ := none
  deriving DecidableEq

/-- `error or "?"`. -/
def TransportResult.errorText (result : TransportResult) : String :=
  (result.error.filter (· ≠ "")).getD "?"

/-- The counters of `NotificationMetrics`. -/
abbrev Metrics := Dict String ℕ

def incr (metrics : Metrics) (key : String) : Metrics :=
  metrics.set key ((metrics.get? key).getD 0 + 1)

def keyWithSeverity (base severity : String) : String := s!"{base}::{severity}"

/-- What the process holds in memory. -/
structure Memory where
  deduper : Deduper
  limiter : RateLimiter
  metrics : Metrics

/-- The dispatcher as it is constructed, with its default collaborators. -/
structure Dispatcher (Payload : Type) where
  config : NotificationConfig
  defaultChatId : String
  workerBatchSize : ℤ := 10
  renderEvent : NotificationEvent Payload → Option String
  chat_ne_empty : defaultChatId ≠ ""

variable {Payload : Type} (dispatcher : Dispatcher Payload)

/-- A process that has just been started. -/
def Dispatcher.fresh : Memory where
  deduper := ⟨.empty, .empty, 4096⟩
  limiter :=
    { globalBucket :=
        .new dispatcher.config.globalPerMinute (dispatcher.config.globalPerMinute / 60)
      perChatCapacity := dispatcher.config.perChatPerMinute
      perChatRefillPerSecond := dispatcher.config.perChatPerMinute / 60
      chatBuckets := .empty }
  metrics := .empty

/-- The chat a submission goes to. -/
def Dispatcher.targetChat (chatId : Option String) : String :=
  (chatId.filter (· ≠ "")).getD dispatcher.defaultChatId

/-- The readings of the clocks during one submission. -/
structure Clocks where
  dedup : ℚ
  limit : ℚ
  created : Moment

/-- `submit`; an error is an exception of the deduper or the limiter. -/
def Dispatcher.submit (memory : Memory) (outbox : Outbox) (event : NotificationEvent Payload)
    (chatId : Option String) (clocks : Clocks) : Except String Bool × Memory × Outbox :=
  let targetChat := dispatcher.targetChat chatId
  let severity := event.severity.value
  let metrics := incr (incr memory.metrics "classified_total")
    (keyWithSeverity "classified_total" severity)
  let memory := { memory with metrics := metrics }
  let count := fun (memory : Memory) (key : String) =>
    { memory with metrics := incr memory.metrics key }
  match memory.deduper.check event.dedupKey (dispatcher.config.dedupTtl event.severity)
      clocks.dedup with
  | (.error error, deduper) => (.error error, { memory with deduper := deduper }, outbox)
  | (.ok dedupVerdict, deduper) =>
    let memory := { memory with deduper := deduper }
    if !dedupVerdict.allowed then (.ok false, count memory "suppressed_dedup_total", outbox)
    else
      match memory.limiter.acquire targetChat clocks.limit with
      | (.error raised, limiter) =>
        (.error raised.text, { memory with limiter := limiter }, outbox)
      | (.ok rateVerdict, limiter) =>
        let memory := { memory with limiter := limiter }
        if !rateVerdict.allowed ∧ event.severity ≠ .critical then
          (.ok false, count memory "dropped_rate_limit_total", outbox)
        else
          match dispatcher.renderEvent event with
          | none => (.ok false, count memory "render_failures_total", outbox)
          | some rendered =>
            match outbox.enqueue event.eventId event.eventType severity targetChat rendered
                event.dedupKey clocks.created with
            | .error _ => (.ok false, count memory "enqueue_duplicates_total", outbox)
            | .ok (_, outbox) => (.ok true, count memory "enqueued_outbox_total", outbox)

/-- What `_deliver` does with the answer of the transport; `none` where the time of the next
attempt is out of range, which raises. -/
def Dispatcher.settle (outbox : Outbox) (metrics : Metrics) (entry : OutboxEntry) (now : Moment)
    (result : TransportResult) : Option (Outbox × Metrics) :=
  if result.ok then
    some (outbox.markSent entry.id,
      incr (incr metrics "send_success_total")
        (keyWithSeverity "send_success_total" entry.row.severity))
  else
    let nextAttempt := entry.row.attemptCount + 1
    if !result.retryable ∨ dispatcher.config.maxRetryAttempts ≤ nextAttempt then
      let reason := if !result.retryable then "terminal" else "max_attempts_exceeded"
      some (outbox.markDlq entry.id s!"{reason}: {result.errorText}",
        incr (incr metrics "moved_to_dlq_total") "send_failed_terminal_total")
    else
      let nextRetryAt :=
        match result.retryAfterSeconds with
        | some seconds => addSeconds now seconds
        | none =>
          (computeNextRetryAt entry.row.attemptCount dispatcher.config.retryBackoffSeconds
            now).toOption.join
      nextRetryAt.map fun nextRetryAt =>
        (outbox.markFailed entry.id result.errorText nextRetryAt,
          incr metrics "send_failed_retryable_total")

/-- A message that was handed to the transport, and the answer. -/
structure Send where
  id : ℕ
  chatId : String
  text : String
  result : TransportResult
  deriving DecidableEq

/-- A submission that returned `True`: its row, and what is to be sent where. -/
structure Accepted where
  id : ℕ
  eventId : String
  chatId : String
  text : String
  deriving DecidableEq

/-- The process, its outbox on the disk, the worker between two actions, and what happened. -/
structure System where
  memory : Memory
  outbox : Outbox
  /-- Fetched and not yet written down. -/
  batch : List OutboxEntry
  /-- The time of the fetch. -/
  fetchedAt : Moment
  /-- The answer for the first of the batch, not yet written down. -/
  answer : Option TransportResult
  accepted : List Accepted
  /-- Sends whose answer is in the outbox. -/
  settled : List Send
  /-- Sends whose answer was lost. -/
  interrupted : List Send
  /-- Fetches whose batch was not finished. -/
  aborts : ℕ

def Dispatcher.start (outbox : Outbox) (now : Moment) : System where
  memory := dispatcher.fresh
  outbox := outbox
  batch := []
  fetchedAt := now
  answer := none
  accepted := []
  settled := []
  interrupted := []
  aborts := 0

/-- The send that waits for its answer to be written down. -/
def System.open? (system : System) : Option Send :=
  match system.batch, system.answer with
  | entry :: _, some result => some ⟨entry.id, entry.row.chatId, entry.row.renderedText, result⟩
  | _, _ => none

/-- The rest of the batch is given up: the iteration raised, or the process has ended. -/
def System.abort (system : System) : System :=
  { system with
    batch := []
    answer := none
    interrupted := system.interrupted ++ system.open?.toList
    aborts := if system.batch = [] then system.aborts else system.aborts + 1 }

inductive Label (Payload : Type)
  | submit (event : NotificationEvent Payload) (chatId : Option String) (clocks : Clocks)
  | purge (cutoff : Moment)
  | fetch (now : Moment)
  | send (result : TransportResult)
  | mark
  | raised
  | restart

/-- One iteration of the worker loop is over. -/
def System.finish (system : System) : System :=
  if system.batch = [] then
    { system with
      memory := { system.memory with
        metrics := incr system.memory.metrics "worker_loops_total" } }
  else system

def Dispatcher.submitStep (system : System) (event : NotificationEvent Payload)
    (chatId : Option String) (clocks : Clocks) : System :=
  let (result, memory, outbox) := dispatcher.submit system.memory system.outbox event chatId clocks
  let accepted :=
    match result, dispatcher.renderEvent event with
    | .ok true, some text =>
      [(⟨outbox.lastId, event.eventId, dispatcher.targetChat chatId, text⟩ : Accepted)]
    | _, _ => []
  { system with memory := memory, outbox := outbox, accepted := system.accepted ++ accepted }

/-- The answer for the first of the batch is written down, or writing it down raises. -/
def Dispatcher.markStep (system : System) : Option System :=
  match system.batch, system.open? with
  | entry :: rest, some send =>
    match dispatcher.settle system.outbox system.memory.metrics entry system.fetchedAt
        send.result with
    | none => some system.abort
    | some (outbox, metrics) =>
      some
        { system with
          memory := { system.memory with metrics := metrics }
          outbox := outbox
          batch := rest
          answer := none
          settled := system.settled ++ [send] }.finish
  | _, _ => none

/-- One action of a submitter, of the purge job, of the worker, or of the environment. -/
def Dispatcher.step (system : System) : Label Payload → Option System
  | .submit event chatId clocks => some (dispatcher.submitStep system event chatId clocks)
  | .purge cutoff => some { system with outbox := (system.outbox.purgeSentOlderThan cutoff).2 }
  | .fetch now =>
    if system.batch = [] then
      some
        { system with
          batch := system.outbox.fetchDue now dispatcher.workerBatchSize
          fetchedAt := now }.finish
    else none
  | .send result =>
    match system.batch, system.answer with
    | _ :: _, none => some { system with answer := some result }
    | _, _ => none
  | .mark => dispatcher.markStep system
  | .raised => some system.abort
  | .restart => some { system.abort with memory := dispatcher.fresh }

/-- A failure after which the transport wants to be tried again. -/
def TransportResult.transient (result : TransportResult) : Prop :=
  result.ok = false ∧ result.retryable = true

def resultsOf (id : ℕ) (sends : List Send) : List TransportResult :=
  (sends.filter fun send => send.id = id).map Send.result

/-- How a notification stands, by its row and the answers that were written down for it. -/
inductive Standing (maxAttempts : ℕ) : Option Row → List TransportResult → Prop
  | pending (row : Row) (failures : List TransportResult) (hstatus : row.status = .pending)
      (htransient : ∀ result ∈ failures, result.transient)
      (hcount : failures.length = row.attemptCount) (hmore : row.attemptCount < maxAttempts) :
      Standing maxAttempts (some row) failures
  | delivered (row : Option Row) (failures : List TransportResult) (last : TransportResult)
      (hstatus : ∀ kept, row = some kept → kept.status = .sent)
      (htransient : ∀ result ∈ failures, result.transient)
      (hmore : failures.length < maxAttempts) (hok : last.ok = true) :
      Standing maxAttempts row (failures ++ [last])
  | dead (row : Row) (failures : List TransportResult) (last : TransportResult)
      (hstatus : row.status = .dlq) (htransient : ∀ result ∈ failures, result.transient)
      (hcount : failures.length + 1 = row.attemptCount) (hmore : failures.length < maxAttempts)
      (hok : last.ok = false)
      (hlast : last.retryable = false ∨ row.attemptCount = maxAttempts) :
      Standing maxAttempts (some row) (failures ++ [last])

theorem resultsOf_append (id : ℕ) (sends : List Send) (send : Send) :
    resultsOf id (sends ++ [send]) =
      resultsOf id sends ++ if send.id = id then [send.result] else [] := by
  rw [resultsOf, List.filter_append, List.map_append]
  by_cases h : send.id = id
  · simp [resultsOf, h]
  · simp [resultsOf, h]

/-- A submission either adds the row of its event and reports so, or leaves the outbox alone. -/
theorem submit_cases (memory : Memory) (outbox : Outbox) (event : NotificationEvent Payload)
    (chatId : Option String) (clocks : Clocks) :
    (∃ (text : String) (row : Row) (hnew : row.eventId ∉ outbox.rows.values.map Row.eventId),
      dispatcher.renderEvent event = some text ∧
      (dispatcher.submit memory outbox event chatId clocks).1 = .ok true ∧
      (dispatcher.submit memory outbox event chatId clocks).2.2 = outbox.insert row hnew ∧
      row.eventId = event.eventId ∧ row.chatId = dispatcher.targetChat chatId ∧
      row.renderedText = text ∧ row.status = .pending ∧ row.attemptCount = 0) ∨
    ((dispatcher.submit memory outbox event chatId clocks).1 ≠ .ok true ∧
      (dispatcher.submit memory outbox event chatId clocks).2.2 = outbox) := by
  unfold Dispatcher.submit
  dsimp only
  split
  · exact Or.inr ⟨by simp, rfl⟩
  · split
    · exact Or.inr ⟨by simp, rfl⟩
    · split
      · exact Or.inr ⟨by simp, rfl⟩
      · split
        · exact Or.inr ⟨by simp, rfl⟩
        · cases hrender : dispatcher.renderEvent event with
          | none => exact Or.inr ⟨by simp, rfl⟩
          | some rendered =>
            dsimp only
            unfold Outbox.enqueue
            dsimp only
            split
            · rename_i herror
              split at herror
              · exact Or.inr ⟨by simp, rfl⟩
              · cases herror
            · rename_i hok
              split at hok
              · cases hok
              · rename_i hnew
                cases hok
                exact Or.inl ⟨rendered, _, hnew, rfl, rfl, rfl, rfl, rfl, rfl, rfl, rfl⟩

/-- What an answer makes of the row of its message. -/
inductive Settles (maxAttempts : ℕ) (row : Row) (result : TransportResult) : Row → Prop
  | sent (hok : result.ok = true) : Settles maxAttempts row result row.sent
  | dead (error : String) (hfailed : result.ok = false)
      (hlast : result.retryable = false ∨ maxAttempts ≤ row.attemptCount + 1) :
      Settles maxAttempts row result (row.dead error)
  | failed (error : String) (again : Moment) (htransient : result.transient)
      (hmore : row.attemptCount + 1 < maxAttempts) :
      Settles maxAttempts row result (row.failed error again)

/-- An answer changes its own row and no other, or it raises. -/
theorem settle_cases (outbox : Outbox) (metrics : Metrics) (entry : OutboxEntry) (now : Moment)
    (result : TransportResult) :
    dispatcher.settle outbox metrics entry now result = none ∨
      ∃ change counted, ∃ hevent : ∀ row : Row, (change row).eventId = row.eventId,
        Settles dispatcher.config.maxRetryAttempts entry.row result (change entry.row) ∧
          dispatcher.settle outbox metrics entry now result =
            some (outbox.update entry.id change hevent, counted) := by
  unfold Dispatcher.settle
  by_cases hok : result.ok = true
  · exact Or.inr ⟨Row.sent, _, fun _ => rfl, .sent hok, if_pos hok⟩
  · rw [if_neg hok]
    rw [Bool.not_eq_true] at hok
    dsimp only
    split
    · rename_i hterminal
      exact Or.inr ⟨Row.dead _, _, fun _ => rfl, .dead _ hok (by simpa using hterminal), rfl⟩
    · rename_i hretry
      obtain ⟨hretryable, hmore⟩ := not_or.mp hretry
      generalize (match result.retryAfterSeconds with
        | some seconds => addSeconds now seconds
        | none =>
          (computeNextRetryAt entry.row.attemptCount dispatcher.config.retryBackoffSeconds
            now).toOption.join) = next
      cases next with
      | none => exact Or.inl rfl
      | some next =>
        have htransient : result.transient := ⟨hok, by simpa using hretryable⟩
        exact Or.inr ⟨Row.failed _ next, _, fun _ => rfl, .failed _ next htransient
          (not_le.mp hmore), rfl⟩

theorem open?_id {system : System} {entry : OutboxEntry} {rest : List OutboxEntry} {send : Send}
    (hbatch : system.batch = entry :: rest) (hopen : system.open? = some send) :
    send.id = entry.id := by
  unfold System.open? at hopen
  rw [hbatch] at hopen
  split at hopen
  · rename_i hcons _
    cases hcons
    cases hopen
    rfl
  · cases hopen

/-- The first of the batch leaves it with its row settled, or the batch is given up. -/
theorem markStep_cases {system next : System} (hmark : dispatcher.markStep system = some next) :
    next = system.abort ∨
      ∃ entry rest send change memory, ∃ hevent : ∀ row : Row, (change row).eventId = row.eventId,
        system.batch = entry :: rest ∧ system.open? = some send ∧
          Settles dispatcher.config.maxRetryAttempts entry.row send.result (change entry.row) ∧
          next = System.finish
            { system with
              memory := memory
              outbox := system.outbox.update entry.id change hevent
              batch := rest
              answer := none
              settled := system.settled ++ [send] } := by
  unfold Dispatcher.markStep at hmark
  split at hmark
  · rename_i entry rest send hbatch hopen
    rcases settle_cases dispatcher system.outbox system.memory.metrics entry system.fetchedAt
      send.result with hsettle | ⟨change, counted, hevent, hsettles, hsettle⟩
    · rw [hsettle] at hmark
      exact Or.inl (Option.some.inj hmark).symm
    · rw [hsettle] at hmark
      exact Or.inr ⟨entry, rest, send, change, _, hevent, hbatch, hopen, hsettles,
        (Option.some.inj hmark).symm⟩
  · cases hmark

/-- What holds of the rows, the sends and the batch whatever has happened. -/
structure Inv (maxAttempts : ℕ) (system : System) : Prop where
  ids_nodup : (system.accepted.map Accepted.id).Nodup
  ids_le : ∀ accepted ∈ system.accepted, accepted.id ≤ system.outbox.lastId
  rows_accepted : ∀ id row, system.outbox.rows.get? id = some row →
    ∃ accepted ∈ system.accepted, accepted.id = id
  standing : ∀ accepted ∈ system.accepted,
    Standing maxAttempts (system.outbox.rows.get? accepted.id)
      (resultsOf accepted.id system.settled)
  content : ∀ accepted ∈ system.accepted, ∀ row,
    system.outbox.rows.get? accepted.id = some row →
      row.eventId = accepted.eventId ∧ row.chatId = accepted.chatId ∧
        row.renderedText = accepted.text
  batch : ∀ entry ∈ system.batch,
    system.outbox.rows.get? entry.id = some entry.row ∧ entry.row.status = .pending
  ordered : (system.batch.map OutboxEntry.id).Pairwise (· < ·)
  sends : ∀ send ∈ system.settled ++ system.interrupted, ∃ accepted ∈ system.accepted,
    accepted.id = send.id ∧ accepted.chatId = send.chatId ∧ accepted.text = send.text

/-- A pending row says what its answers were. -/
theorem Standing.of_pending {maxAttempts : ℕ} {row : Row} {results : List TransportResult}
    (h : Standing maxAttempts (some row) results) (hstatus : row.status = .pending) :
    (∀ result ∈ results, result.transient) ∧ results.length = row.attemptCount ∧
      row.attemptCount < maxAttempts := by
  cases h with
  | pending _ _ _ htransient hcount hmore => exact ⟨htransient, hcount, hmore⟩
  | delivered _ failures last hsent =>
    rw [hsent row rfl] at hstatus
    cases hstatus
  | dead _ failures last hdlq =>
    rw [hdlq] at hstatus
    cases hstatus

/-- Only a row that was delivered can be purged. -/
theorem Standing.purged {maxAttempts : ℕ} {row : Row} {results : List TransportResult}
    (h : Standing maxAttempts (some row) results) (hstatus : row.status = .sent) :
    Standing maxAttempts none results := by
  cases h with
  | pending _ _ hpending =>
    rw [hpending] at hstatus
    cases hstatus
  | delivered _ failures last _ htransient hmore hok =>
    exact .delivered none failures last (fun _ hnone => nomatch hnone) htransient hmore hok
  | dead _ failures last hdlq =>
    rw [hdlq] at hstatus
    cases hstatus

section Settled

variable {maxAttempts : ℕ} {row next : Row} {result : TransportResult}

theorem Settles.content (h : Settles maxAttempts row result next) :
    next.chatId = row.chatId ∧ next.renderedText = row.renderedText := by
  cases h with
  | sent _ => exact ⟨rfl, rfl⟩
  | dead _ _ _ => exact ⟨rfl, rfl⟩
  | failed _ _ _ _ => exact ⟨rfl, rfl⟩

theorem Settles.standing (h : Settles maxAttempts row result next)
    {failures : List TransportResult} (hfailures : ∀ result ∈ failures, result.transient)
    (hcount : failures.length = row.attemptCount) (hmore : row.attemptCount < maxAttempts) :
    Standing maxAttempts (some next) (failures ++ [result]) := by
  cases h with
  | sent hok =>
    exact .delivered _ failures _ (fun kept hkept => by cases hkept; rfl) hfailures
      (hcount ▸ hmore) hok
  | dead error hfailed hlast =>
    refine .dead _ failures _ rfl hfailures (congrArg (· + 1) hcount) (hcount ▸ hmore) hfailed ?_
    refine hlast.imp_right ?_
    intro hle
    change row.attemptCount + 1 = _
    omega
  | failed error again htransient hagain =>
    refine .pending _ _ rfl ?_ ?_ hagain
    · intro result hresult
      rcases List.mem_append.mp hresult with hresult | hresult
      · exact hfailures result hresult
      · rw [List.mem_singleton.mp hresult]
        exact htransient
    · rw [List.length_append, hcount]
      rfl

end Settled

section Steps

variable {maxAttempts : ℕ} {system : System}

theorem Inv.memory (h : Inv maxAttempts system) (memory : Memory) :
    Inv maxAttempts { system with memory := memory } where
  ids_nodup := h.ids_nodup
  ids_le := h.ids_le
  rows_accepted := h.rows_accepted
  standing := h.standing
  content := h.content
  batch := h.batch
  ordered := h.ordered
  sends := h.sends

theorem Inv.finish (h : Inv maxAttempts system) : Inv maxAttempts system.finish := by
  unfold System.finish
  split
  · exact h.memory _
  · exact h

/-- No answer belongs to an id that has not been given out. -/
theorem Inv.resultsOf_fresh (h : Inv maxAttempts system) :
    resultsOf (system.outbox.lastId + 1) system.settled = [] := by
  rw [resultsOf, List.map_eq_nil_iff, List.filter_eq_nil_iff]
  intro send hsend hid
  obtain ⟨accepted, haccepted, hsame, _⟩ := h.sends send (List.mem_append_left _ hsend)
  have hle := h.ids_le accepted haccepted
  have hfresh : send.id = system.outbox.lastId + 1 := of_decide_eq_true hid
  omega

theorem Inv.get?_insert (h : Inv maxAttempts system) {row : Row}
    (hnew : row.eventId ∉ system.outbox.rows.values.map Row.eventId) {accepted : Accepted}
    (hmem : accepted ∈ system.accepted) :
    (system.outbox.insert row hnew).rows.get? accepted.id =
      system.outbox.rows.get? accepted.id := by
  have hle := h.ids_le accepted hmem
  rw [Outbox.get?_insert, if_neg (by omega)]

/-- The id of the new row is one that no accepted notification has. -/
theorem Inv.ids_nodup_insert (h : Inv maxAttempts system) (eventId chatId text : String) :
    ((system.accepted ++ [(⟨system.outbox.lastId + 1, eventId, chatId, text⟩ : Accepted)]).map
      Accepted.id).Nodup := by
  rw [List.map_append, List.nodup_append]
  refine ⟨h.ids_nodup, List.nodup_singleton _, ?_⟩
  intro id hid other hsame
  obtain ⟨accepted, hmem, rfl⟩ := List.mem_map.mp hid
  have hle := h.ids_le accepted hmem
  rw [List.map_singleton, List.mem_singleton] at hsame
  dsimp only at hsame
  omega

/-- A new row, for a submission that is reported as accepted. -/
theorem Inv.insert (h : Inv maxAttempts system) (hpositive : 0 < maxAttempts) {row : Row}
    (hnew : row.eventId ∉ system.outbox.rows.values.map Row.eventId)
    (hstatus : row.status = .pending) (hcount : row.attemptCount = 0) :
    Inv maxAttempts
      { system with
        outbox := system.outbox.insert row hnew
        accepted := system.accepted ++
          [⟨system.outbox.lastId + 1, row.eventId, row.chatId, row.renderedText⟩] } := by
  have hown : (system.outbox.insert row hnew).rows.get? (system.outbox.lastId + 1) = some row := by
    rw [Outbox.get?_insert, if_pos rfl]
  refine ⟨h.ids_nodup_insert _ _ _, ?_, ?_, ?_, ?_, ?_, h.ordered, ?_⟩
  · intro accepted hmem
    change _ ≤ system.outbox.lastId + 1
    rcases List.mem_append.mp hmem with hmem | hmem
    · exact Nat.le_succ_of_le (h.ids_le accepted hmem)
    · rw [List.mem_singleton.mp hmem]
  · intro id kept hget
    rw [Outbox.get?_insert] at hget
    split at hget
    · rename_i hid
      exact ⟨_, List.mem_append_right _ List.mem_cons_self, hid.symm⟩
    · obtain ⟨accepted, hmem, hid⟩ := h.rows_accepted id kept hget
      exact ⟨accepted, List.mem_append_left _ hmem, hid⟩
  · intro accepted hmem
    rcases List.mem_append.mp hmem with hmem | hmem
    · rw [h.get?_insert hnew hmem]
      exact h.standing accepted hmem
    · rw [List.mem_singleton.mp hmem]
      dsimp only
      rw [hown, h.resultsOf_fresh]
      exact .pending row [] hstatus (fun _ hnone => nomatch hnone) hcount.symm
        (by rwa [hcount])
  · intro accepted hmem kept hget
    rcases List.mem_append.mp hmem with hmem | hmem
    · rw [h.get?_insert hnew hmem] at hget
      exact h.content accepted hmem kept hget
    · rw [List.mem_singleton.mp hmem] at hget ⊢
      dsimp only at hget
      cases Option.some.inj (hown.symm.trans hget)
      exact ⟨rfl, rfl, rfl⟩
  · intro entry hentry
    obtain ⟨hget, hpending⟩ := h.batch entry hentry
    have hle := Outbox.get?_lt hget
    exact ⟨by rw [Outbox.get?_insert, if_neg (by omega)]; exact hget, hpending⟩
  · intro send hsend
    obtain ⟨accepted, hmem, hsame⟩ := h.sends send hsend
    exact ⟨accepted, List.mem_append_left _ hmem, hsame⟩

theorem Inv.submitStep (h : Inv dispatcher.config.maxRetryAttempts system)
    (event : NotificationEvent Payload) (chatId : Option String) (clocks : Clocks) :
    Inv dispatcher.config.maxRetryAttempts
      (dispatcher.submitStep system event chatId clocks) := by
  unfold Dispatcher.submitStep
  rcases submit_cases dispatcher system.memory system.outbox event chatId clocks with
    ⟨text, row, hnew, hrender, hresult, houtbox, hevent, hchat, htext, hstatus, hcount⟩ |
    ⟨hresult, houtbox⟩
  · simp only [hresult, hrender, houtbox]
    have hinv := (h.insert dispatcher.config.attempts_positive hnew hstatus hcount).memory
      (dispatcher.submit system.memory system.outbox event chatId clocks).2.1
    rw [hevent, hchat, htext] at hinv
    exact hinv
  · have hnone : (match (dispatcher.submit system.memory system.outbox event chatId clocks).1,
        dispatcher.renderEvent event with
      | .ok true, some text =>
        [(⟨system.outbox.lastId, event.eventId, dispatcher.targetChat chatId, text⟩ : Accepted)]
      | _, _ => []) = [] := by
      split
      · rename_i htrue _
        exact absurd htrue hresult
      · rfl
    simp only [houtbox]
    rw [hnone, List.append_nil]
    exact h.memory _

/-- Sent rows that are old enough are deleted. -/
theorem Inv.purge (h : Inv maxAttempts system) (cutoff : Moment) :
    Inv maxAttempts
      { system with outbox := (system.outbox.purgeSentOlderThan cutoff).2 } := by
  have hget (id : ℕ) : (system.outbox.purgeSentOlderThan cutoff).2.rows.get? id =
      (system.outbox.rows.get? id).filter fun row =>
        !(row.status = .sent && decide (isoformat row.createdAt < isoformat cutoff)) :=
    Outbox.get?_deleteWhere _ id
  have hkept {id : ℕ} {row : Row}
      (hrow : (system.outbox.purgeSentOlderThan cutoff).2.rows.get? id = some row) :
      system.outbox.rows.get? id = some row := by
    rw [hget, Option.filter_eq_some_iff] at hrow
    exact hrow.1
  refine ⟨h.ids_nodup, h.ids_le, ?_, ?_, ?_, ?_, h.ordered, h.sends⟩
  · exact fun id row hrow => h.rows_accepted id row (hkept hrow)
  · intro accepted hmem
    dsimp only
    have hstanding := h.standing accepted hmem
    rw [hget]
    cases hrow : system.outbox.rows.get? accepted.id with
    | none =>
      rw [hrow] at hstanding
      exact hstanding
    | some row =>
      rw [hrow] at hstanding
      rw [Option.filter_some]
      split
      · exact hstanding
      · rename_i hgone
        rw [Bool.not_eq_true, Bool.not_eq_false', Bool.and_eq_true, decide_eq_true_eq] at hgone
        exact hstanding.purged hgone.1
  · exact fun accepted hmem row hrow => h.content accepted hmem row (hkept hrow)
  · intro entry hentry
    obtain ⟨hrow, hpending⟩ := h.batch entry hentry
    refine ⟨?_, hpending⟩
    rw [hget, hrow, Option.filter_some, if_pos]
    simp [hpending]

/-- What is sent is a row of the outbox, and so of an accepted notification. -/
theorem Inv.open_accepted (h : Inv maxAttempts system) {send : Send}
    (hopen : system.open? = some send) : ∃ accepted ∈ system.accepted,
      accepted.id = send.id ∧ accepted.chatId = send.chatId ∧ accepted.text = send.text := by
  unfold System.open? at hopen
  split at hopen
  · rename_i entry rest result hbatch hanswer
    cases hopen
    obtain ⟨hrow, _⟩ := h.batch entry (hbatch ▸ List.mem_cons_self)
    obtain ⟨accepted, hmem, hid⟩ := h.rows_accepted _ _ hrow
    obtain ⟨_, hchat, htext⟩ := h.content accepted hmem entry.row (hid ▸ hrow)
    exact ⟨accepted, hmem, hid, hchat.symm, htext.symm⟩
  · cases hopen

theorem Inv.abort (h : Inv maxAttempts system) : Inv maxAttempts system.abort := by
  refine ⟨h.ids_nodup, h.ids_le, h.rows_accepted, h.standing, h.content,
    (fun _ hnone => nomatch hnone), List.Pairwise.nil, ?_⟩
  intro send hsend
  rw [System.abort, ← List.append_assoc, List.mem_append] at hsend
  rcases hsend with hsend | hsend
  · exact h.sends send hsend
  · exact h.open_accepted (Option.mem_toList.mp hsend)

theorem Inv.fetch (h : Inv maxAttempts system) (now : Moment) (limit : ℤ) :
    Inv maxAttempts
      { system with batch := system.outbox.fetchDue now limit, fetchedAt := now } := by
  refine ⟨h.ids_nodup, h.ids_le, h.rows_accepted, h.standing, h.content, ?_, ?_, h.sends⟩
  · intro entry hentry
    unfold Outbox.fetchDue at hentry
    split at hentry
    · cases hentry
    · obtain ⟨p, hp, rfl⟩ := List.mem_map.mp hentry
      obtain ⟨hitem, hdue⟩ := List.mem_filter.mp (List.mem_of_mem_take hp)
      exact ⟨(Dict.mem_items_iff_get? _ _ _).mp hitem, (Outbox.due_iff.mp hdue).1⟩
  · change ((system.outbox.fetchDue now limit).map OutboxEntry.id).Pairwise (· < ·)
    unfold Outbox.fetchDue
    split
    · exact List.Pairwise.nil
    · rw [List.map_map]
      exact system.outbox.ordered.sublist
        (((List.take_sublist _ _).trans List.filter_sublist).map Prod.fst)

/-- The answer for the first of the batch is written into its row. -/
theorem Inv.update (h : Inv maxAttempts system) {entry : OutboxEntry} {rest : List OutboxEntry}
    {send : Send} (hbatch : system.batch = entry :: rest) (hopen : system.open? = some send)
    {change : Row → Row} (hevent : ∀ row, (change row).eventId = row.eventId)
    (hsettles : Settles maxAttempts entry.row send.result (change entry.row)) :
    Inv maxAttempts
      { system with
        outbox := system.outbox.update entry.id change hevent
        batch := rest
        answer := none
        settled := system.settled ++ [send] } := by
  have hid := open?_id hbatch hopen
  obtain ⟨hrow, hpending⟩ := h.batch entry (hbatch ▸ List.mem_cons_self)
  have hordered := h.ordered
  rw [hbatch, List.map_cons, List.pairwise_cons] at hordered
  refine ⟨h.ids_nodup, h.ids_le, ?_, ?_, ?_, ?_, hordered.2, ?_⟩
  · intro id row hget
    rw [Outbox.get?_update, Option.map_eq_some_iff] at hget
    obtain ⟨kept, hkept, _⟩ := hget
    exact h.rows_accepted id kept hkept
  · intro accepted hmem
    have hstands := h.standing accepted hmem
    dsimp only
    rw [Outbox.get?_update, resultsOf_append]
    by_cases hsame : accepted.id = entry.id
    · rw [hsame, hrow] at hstands
      obtain ⟨htransient, hcount, hmore⟩ := hstands.of_pending hpending
      rw [hsame, hrow, Option.map_some, if_pos rfl, if_pos hid]
      exact hsettles.standing htransient hcount hmore
    · have hother : send.id ≠ accepted.id := fun heq => hsame (heq.symm.trans hid)
      rw [if_neg hother, List.append_nil]
      simp only [if_neg hsame, Option.map_id']
      exact hstands
  · intro accepted hmem row hget
    rw [Outbox.get?_update, Option.map_eq_some_iff] at hget
    obtain ⟨kept, hkept, rfl⟩ := hget
    obtain ⟨heventId, hchat, htext⟩ := h.content accepted hmem kept hkept
    split
    · rename_i hsame
      cases Option.some.inj (hkept.symm.trans (hsame ▸ hrow))
      obtain ⟨hchange, htextChange⟩ := hsettles.content
      exact ⟨(hevent _).trans heventId, hchange.trans hchat, htextChange.trans htext⟩
    · exact ⟨heventId, hchat, htext⟩
  · intro other hother
    obtain ⟨hget, hstatus⟩ := h.batch other (hbatch ▸ List.mem_cons_of_mem _ hother)
    have hlt := hordered.1 other.id (List.mem_map_of_mem hother)
    refine ⟨?_, hstatus⟩
    dsimp only
    rw [Outbox.get?_update, hget, Option.map_some, if_neg (by omega)]
  · intro other hother
    rw [List.mem_append, List.mem_append, List.mem_singleton] at hother
    rcases hother with (hother | rfl) | hother
    · exact h.sends other (List.mem_append_left _ hother)
    · exact h.open_accepted hopen
    · exact h.sends other (List.mem_append_right _ hother)

theorem Inv.markStep (h : Inv dispatcher.config.maxRetryAttempts system) {next : System}
    (hmark : dispatcher.markStep system = some next) :
    Inv dispatcher.config.maxRetryAttempts next := by
  rcases markStep_cases dispatcher hmark with
    rfl | ⟨entry, rest, send, change, memory, hevent, hbatch, hopen, hsettles, rfl⟩
  · exact h.abort
  · exact ((h.update hbatch hopen hevent hsettles).memory memory).finish

theorem Inv.step (h : Inv dispatcher.config.maxRetryAttempts system) (label : Label Payload)
    {next : System} (hstep : dispatcher.step system label = some next) :
    Inv dispatcher.config.maxRetryAttempts next := by
  cases label with
  | submit event chatId clocks =>
    cases hstep
    exact h.submitStep dispatcher event chatId clocks
  | purge cutoff =>
    cases hstep
    exact h.purge cutoff
  | fetch now =>
    unfold Dispatcher.step at hstep
    dsimp only at hstep
    split at hstep
    · cases hstep
      exact (h.fetch now _).finish
    · cases hstep
  | send result =>
    unfold Dispatcher.step at hstep
    dsimp only at hstep
    split at hstep
    · cases hstep
      exact ⟨h.ids_nodup, h.ids_le, h.rows_accepted, h.standing, h.content, h.batch, h.ordered,
        h.sends⟩
    · cases hstep
  | mark => exact h.markStep dispatcher hstep
  | raised =>
    cases hstep
    exact h.abort
  | restart =>
    cases hstep
    exact h.abort.memory _

end Steps

theorem inv_start (now : Moment) :
    Inv dispatcher.config.maxRetryAttempts (dispatcher.start .empty now) where
  ids_nodup := List.nodup_nil
  ids_le _ hmem := nomatch hmem
  rows_accepted id row hget := by
    rw [Dispatcher.start, Outbox.empty, Dict.get?_empty] at hget
    cases hget
  standing _ hmem := nomatch hmem
  content _ hmem := nomatch hmem
  batch _ hmem := nomatch hmem
  ordered := List.Pairwise.nil
  sends _ hmem := nomatch hmem

variable {dispatcher}

/-- Whatever submitters, the purge job, the worker and the environment do, in any order: every
accepted notification is in the outbox as it was accepted, still to be tried or given up for a
reason, or it was delivered. Its answers are transient failures, fewer than the attempts there
are, and at the end at most one answer of another kind. Nothing else is sent, and not elsewhere. -/
theorem accepted_standing {now : Moment} {labels : List (Label Payload)} {system : System}
    (hrun : Runs.run dispatcher.step (dispatcher.start .empty now) labels = some system) :
    (∀ accepted ∈ system.accepted,
      Standing dispatcher.config.maxRetryAttempts (system.outbox.rows.get? accepted.id)
          (resultsOf accepted.id system.settled) ∧
        ∀ row, system.outbox.rows.get? accepted.id = some row →
          row.eventId = accepted.eventId ∧ row.chatId = accepted.chatId ∧
            row.renderedText = accepted.text) ∧
    ∀ send ∈ system.settled ++ system.interrupted ++ system.open?.toList,
      ∃ accepted ∈ system.accepted,
        accepted.id = send.id ∧ accepted.chatId = send.chatId ∧ accepted.text = send.text := by
  have hinv : Inv dispatcher.config.maxRetryAttempts system :=
    Runs.run_invariant (fun _ label _ h hstep => h.step dispatcher label hstep)
      (inv_start dispatcher now) hrun
  refine ⟨fun accepted hmem => ⟨hinv.standing accepted hmem, hinv.content accepted hmem⟩, ?_⟩
  intro send hsend
  rcases List.mem_append.mp hsend with hsend | hsend
  · exact hinv.sends send hsend
  · exact hinv.open_accepted (Option.mem_toList.mp hsend)

section Progress

/-- The attempts that a row still has, as far as it counts for an id. -/
def attemptsLeft (maxAttempts id : ℕ) (key : ℕ) (row : Row) : ℕ :=
  if key ≤ id ∧ row.status = .pending then maxAttempts - row.attemptCount else 0

/-- The attempts that the pending rows up to an id still have. -/
def remaining (maxAttempts id : ℕ) (outbox : Outbox) : ℕ :=
  (outbox.rows.items.map fun p => attemptsLeft maxAttempts id p.1 p.2).sum

/-- The row is due at a fetch. -/
def System.dueAt (system : System) (id : ℕ) (now : Moment) : Bool :=
  (system.outbox.rows.get? id).any (Outbox.due now)

/-- Whether a step is a fetch at which the row is due. -/
def System.dueIn (system : System) (id : ℕ) : Label Payload → ℕ
  | .fetch now => if system.dueAt id now then 1 else 0
  | _ => 0

/-- How often in a run the row was due when the worker fetched. -/
def Dispatcher.dueFetches (dispatcher : Dispatcher Payload) (id : ℕ) :
    System → List (Label Payload) → ℕ
  | _, [] => 0
  | system, label :: rest =>
    system.dueIn id label +
      match dispatcher.step system label with
      | none => 0
      | some next => dispatcher.dueFetches id next rest

/-- One batch that begins with a row up to the id is under way. -/
def System.busy (system : System) (id : ℕ) : ℕ :=
  if ∃ entry ∈ system.batch, entry.id ≤ id then 1 else 0

variable {maxAttempts id : ℕ}

theorem System.busy_le_one (system : System) (id : ℕ) : system.busy id ≤ 1 := by
  unfold System.busy
  split
  · exact le_rfl
  · exact Nat.zero_le _

variable {system : System}

theorem System.busy_nil (h : system.batch = []) : system.busy id = 0 := by
  rw [System.busy, if_neg]
  rintro ⟨entry, hentry, _⟩
  rw [h] at hentry
  cases hentry

variable {row : Row} {outbox : Outbox} {key : ℕ}

/-- Only the changed row counts differently. -/
theorem remaining_update {change : Row → Row}
    (hevent : ∀ row, (change row).eventId = row.eventId) (hget : outbox.rows.get? key = some row) :
    remaining maxAttempts id (outbox.update key change hevent) +
        attemptsLeft maxAttempts id key row =
      remaining maxAttempts id outbox + attemptsLeft maxAttempts id key (change row) := by
  have hperm := Dict.perm_of_get? hget
  have hbefore : remaining maxAttempts id outbox = attemptsLeft maxAttempts id key row +
      (((outbox.rows.pop key).items.map fun p => attemptsLeft maxAttempts id p.1 p.2).sum) := by
    rw [remaining, (hperm.map _).sum_eq, List.map_cons, List.sum_cons]
  have hothers : ((outbox.rows.pop key).items.map fun p =>
      attemptsLeft maxAttempts id p.1 (if p.1 = key then change p.2 else p.2)) =
        (outbox.rows.pop key).items.map fun p => attemptsLeft maxAttempts id p.1 p.2 := by
    apply List.map_congr_left
    intro p hp
    have hne : p.1 ≠ key := of_decide_eq_true (List.mem_filter.mp hp).2
    rw [if_neg hne]
  have hafter : remaining maxAttempts id (outbox.update key change hevent) =
      attemptsLeft maxAttempts id key (change row) +
        (((outbox.rows.pop key).items.map fun p => attemptsLeft maxAttempts id p.1 p.2).sum) := by
    have hitems : remaining maxAttempts id (outbox.update key change hevent) =
        (outbox.rows.items.map fun p =>
          attemptsLeft maxAttempts id p.1 (if p.1 = key then change p.2 else p.2)).sum := by
      simp only [remaining, Outbox.update, Dict.updateWhere, Dict.mapValues, List.map_map,
        Function.comp_def, decide_eq_true_eq]
    rw [hitems, (hperm.map _).sum_eq, List.map_cons, List.sum_cons, if_pos rfl, hothers]
  omega

theorem remaining_insert
    (hnew : row.eventId ∉ outbox.rows.values.map Row.eventId) (hid : id ≤ outbox.lastId) :
    remaining maxAttempts id (outbox.insert row hnew) = remaining maxAttempts id outbox := by
  have hzero : attemptsLeft maxAttempts id (outbox.lastId + 1) row = 0 := by
    rw [attemptsLeft, if_neg (by omega)]
  rw [remaining, Outbox.insert, List.map_append, List.sum_append, List.map_singleton,
    List.sum_singleton, hzero, Nat.add_zero, remaining]

theorem remaining_purge (outbox : Outbox) (cutoff : Moment) :
    remaining maxAttempts id (outbox.purgeSentOlderThan cutoff).2 =
      remaining maxAttempts id outbox := by
  simp only [remaining, Outbox.purgeSentOlderThan, Outbox.deleteWhere]
  induction outbox.rows.items with
  | nil => rfl
  | cons p rest ih =>
    rw [List.filter_cons]
    split
    · rw [List.map_cons, List.map_cons, List.sum_cons, List.sum_cons, ih]
    · rename_i hgone
      have hsent : p.2.status = .sent := by
        simp only [Bool.not_eq_true', Bool.not_eq_false, Bool.and_eq_true,
          decide_eq_true_eq] at hgone
        exact hgone.1
      have hzero : attemptsLeft maxAttempts id p.1 p.2 = 0 := by simp [attemptsLeft, hsent]
      rw [ih, List.map_cons, List.sum_cons, hzero, Nat.zero_add]

theorem attemptsLeft_le_remaining (hget : outbox.rows.get? key = some row) :
    attemptsLeft maxAttempts id key row ≤ remaining maxAttempts id outbox := by
  rw [remaining, ((Dict.perm_of_get? hget).map _).sum_eq, List.map_cons, List.sum_cons]
  exact Nat.le_add_right _ _

/-- A fetch at which a row is due begins with a row that is not behind it. -/
theorem fetchDue_busy {now : Moment} {limit : ℤ} (hlimit : 0 < limit)
    (hget : outbox.rows.get? id = some row) (hdue : Outbox.due now row = true) :
    ∃ entry ∈ outbox.fetchDue now limit, entry.id ≤ id := by
  rw [Outbox.fetchDue, if_neg (not_le.mpr hlimit)]
  have hmem : (id, row) ∈ outbox.rows.items.filter fun p => Outbox.due now p.2 :=
    List.mem_filter.mpr ⟨(Dict.mem_items_iff_get? _ _ _).mpr hget, hdue⟩
  have hordered : ((outbox.rows.items.filter fun p => Outbox.due now p.2).map
      Prod.fst).Pairwise (· < ·) := outbox.ordered.sublist (List.filter_sublist.map Prod.fst)
  obtain ⟨count, hcount⟩ : ∃ count, limit.toNat = count + 1 := ⟨limit.toNat - 1, by omega⟩
  cases hfiltered : outbox.rows.items.filter fun p => Outbox.due now p.2 with
  | nil =>
    rw [hfiltered] at hmem
    cases hmem
  | cons first rest =>
    rw [hfiltered] at hmem hordered
    rw [hcount, List.take_succ_cons, List.map_cons]
    refine ⟨_, List.mem_cons_self, ?_⟩
    rcases List.mem_cons.mp hmem with heq | hmem
    · rw [← heq]
    · exact ((List.pairwise_cons.mp hordered).1 id (List.mem_map.mpr ⟨_, hmem, rfl⟩)).le

theorem remaining_le_of_settled (h : Inv maxAttempts system)
    {entry : OutboxEntry} {rest : List OutboxEntry} (hbatch : system.batch = entry :: rest)
    {change : Row → Row} (hevent : ∀ row, (change row).eventId = row.eventId)
    (hchange : attemptsLeft maxAttempts id entry.id (change entry.row) ≤
      attemptsLeft maxAttempts id entry.id entry.row - 1) :
    remaining maxAttempts id (system.outbox.update entry.id change hevent) + system.busy id ≤
      remaining maxAttempts id system.outbox := by
  obtain ⟨hrow, hpending⟩ := h.batch entry (hbatch ▸ List.mem_cons_self)
  have hupdate := @remaining_update maxAttempts id _ _ _ _ hevent hrow
  by_cases hle : entry.id ≤ id
  · have hbusy := system.busy_le_one id
    have hmore : entry.row.attemptCount < maxAttempts := by
      obtain ⟨accepted, hmem, hid⟩ := h.rows_accepted _ _ hrow
      have hstands := h.standing accepted hmem
      rw [hid, hrow] at hstands
      exact (hstands.of_pending hpending).2.2
    have hleft : attemptsLeft maxAttempts id entry.id entry.row =
        maxAttempts - entry.row.attemptCount := if_pos ⟨hle, hpending⟩
    omega
  · have hordered := h.ordered
    rw [hbatch, List.map_cons, List.pairwise_cons] at hordered
    have hbusy : system.busy id = 0 := by
      rw [System.busy, if_neg]
      rintro ⟨other, hother, hotherLe⟩
      rw [hbatch] at hother
      rcases List.mem_cons.mp hother with rfl | hother
      · exact hle hotherLe
      · have hlt := hordered.1 other.id (List.mem_map_of_mem hother)
        omega
    omega

theorem finish_outbox (system : System) : system.finish.outbox = system.outbox ∧
    system.finish.batch = system.batch ∧ system.finish.aborts = system.aborts := by
  unfold System.finish
  split
  · exact ⟨rfl, rfl, rfl⟩
  · exact ⟨rfl, rfl, rfl⟩

theorem busy_finish (system : System) (id : ℕ) : system.finish.busy id = system.busy id := by
  rw [System.busy, (finish_outbox system).2.1, System.busy]

theorem abort_aborts : system.busy id + system.aborts ≤ system.abort.aborts := by
  by_cases hbatch : system.batch = []
  · rw [System.busy_nil hbatch, System.abort, if_pos hbatch, Nat.zero_add]
  · have hbusy := system.busy_le_one id
    rw [System.abort, if_neg hbatch]
    dsimp only
    omega

theorem Settles.attemptsLeft {row next : Row} {result : TransportResult}
    (h : Settles maxAttempts row result next) (hpending : row.status = .pending) :
    attemptsLeft maxAttempts id key next ≤ attemptsLeft maxAttempts id key row - 1 := by
  cases h with
  | sent _ => simp [NotificationDispatch.attemptsLeft, Row.sent]
  | dead _ _ _ => simp [NotificationDispatch.attemptsLeft, Row.dead]
  | failed _ _ _ _ =>
    by_cases hle : key ≤ id
    · simp [NotificationDispatch.attemptsLeft, Row.failed, hle, hpending, Nat.sub_sub]
    · simp [NotificationDispatch.attemptsLeft, hle]

variable {dispatcher : Dispatcher Payload}

/-- What a step of the worker leaves to do, and what the outbox has given out. -/
theorem progress_markStep {system next : System} (h : Inv dispatcher.config.maxRetryAttempts system)
    (hmark : dispatcher.markStep system = some next) : next.outbox.lastId = system.outbox.lastId ∧
      remaining dispatcher.config.maxRetryAttempts id next.outbox + system.busy id +
          system.aborts ≤
        remaining dispatcher.config.maxRetryAttempts id system.outbox + next.aborts := by
  rcases markStep_cases dispatcher hmark with
    rfl | ⟨entry, rest, send, change, memory, hevent, hbatch, hopen, hsettles, rfl⟩
  · have haborts := @abort_aborts id system
    refine ⟨rfl, ?_⟩
    change remaining _ id system.outbox + _ + _ ≤ _
    omega
  · obtain ⟨_, hpending⟩ := h.batch entry (hbatch ▸ List.mem_cons_self)
    have hle := @remaining_le_of_settled _ id _ h _ _ hbatch _ hevent
      (hsettles.attemptsLeft hpending)
    obtain ⟨houtbox, _, haborts⟩ := finish_outbox
      { system with
        memory := memory
        outbox := system.outbox.update entry.id change hevent
        batch := rest
        answer := none
        settled := system.settled ++ [send] }
    rw [houtbox, haborts]
    exact ⟨rfl, Nat.add_le_add_right hle _⟩

/-- What a step has given out of the outbox, and what it leaves of the attempts. -/
structure Progresses (maxAttempts id due : ℕ) (system next : System) : Prop where
  known : id ≤ next.outbox.lastId
  attempts : due + remaining maxAttempts id next.outbox + system.busy id + system.aborts ≤
    remaining maxAttempts id system.outbox + next.busy id + next.aborts

theorem progress_submit (event : NotificationEvent Payload) (chatId : Option String)
    (clocks : Clocks) (hid : id ≤ system.outbox.lastId) :
    Progresses maxAttempts id 0 system (dispatcher.submitStep system event chatId clocks) := by
  have hbusy : (dispatcher.submitStep system event chatId clocks).busy id = system.busy id := rfl
  have haborts : (dispatcher.submitStep system event chatId clocks).aborts = system.aborts := rfl
  rcases submit_cases dispatcher system.memory system.outbox event chatId clocks with
    ⟨_, row, hnew, _, _, houtbox, _⟩ | ⟨_, houtbox⟩
  · have hnext : (dispatcher.submitStep system event chatId clocks).outbox =
        system.outbox.insert row hnew := houtbox
    constructor
    · rw [hnext]
      exact Nat.le_succ_of_le hid
    · rw [hbusy, haborts, hnext, remaining_insert hnew hid]
      omega
  · have hnext : (dispatcher.submitStep system event chatId clocks).outbox = system.outbox :=
      houtbox
    constructor
    · rw [hnext]
      exact hid
    · rw [hbusy, haborts, hnext]
      omega

/-- The batch that the worker fetches begins with a row up to the id when the row is due. -/
theorem progress_fetch {now : Moment} {next : System} (hbatch : 0 < dispatcher.workerBatchSize)
    (hid : id ≤ system.outbox.lastId)
    (hstep : dispatcher.step system (.fetch now) = some next) :
    Progresses maxAttempts id (system.dueIn id (.fetch now : Label Payload)) system next := by
  unfold Dispatcher.step at hstep
  dsimp only at hstep
  split at hstep
  · rename_i hidle
    cases hstep
    obtain ⟨houtbox, _, haborts⟩ := finish_outbox
      { system with
        batch := system.outbox.fetchDue now dispatcher.workerBatchSize
        fetchedAt := now }
    constructor
    · rw [houtbox]
      exact hid
    · rw [houtbox, haborts, busy_finish, System.busy_nil hidle]
      dsimp only [System.dueIn]
      split
      · rename_i hdue
        have hbusy : System.busy
            { system with
              batch := system.outbox.fetchDue now dispatcher.workerBatchSize
              fetchedAt := now } id = 1 := by
          cases hrow : system.outbox.rows.get? id with
          | none =>
            rw [System.dueAt, hrow] at hdue
            cases hdue
          | some row =>
            rw [System.dueAt, hrow] at hdue
            exact if_pos (fetchDue_busy hbatch hrow hdue)
        omega
      · omega
  · cases hstep

theorem progress_abort (hid : id ≤ system.outbox.lastId) {next : System}
    (houtbox : next.outbox = system.outbox) (haborts : next.aborts = system.abort.aborts) :
    Progresses maxAttempts id 0 system next := by
  have hmore := @abort_aborts id system
  constructor
  · rw [houtbox]
    exact hid
  · rw [houtbox, haborts]
    omega

/-- A fetch at which the row is due begins a batch that will use up one of the attempts that the
rows up to it still have, unless the batch is given up. -/
theorem progress_step {system next : System} {label : Label Payload}
    (h : Inv dispatcher.config.maxRetryAttempts system)
    (hbatch : 0 < dispatcher.workerBatchSize) (hid : id ≤ system.outbox.lastId)
    (hstep : dispatcher.step system label = some next) :
    Progresses dispatcher.config.maxRetryAttempts id (system.dueIn id label) system next := by
  cases label with
  | submit event chatId clocks =>
    cases hstep
    exact progress_submit event chatId clocks hid
  | purge cutoff =>
    cases hstep
    refine ⟨hid, ?_⟩
    dsimp only
    rw [remaining_purge]
    exact (Nat.add_le_add_right (Nat.add_le_add_right (Nat.zero_add _).le _) _)
  | fetch now => exact progress_fetch hbatch hid hstep
  | send result =>
    unfold Dispatcher.step at hstep
    dsimp only at hstep
    split at hstep
    · cases hstep
      exact ⟨hid, by simp [System.dueIn, System.busy]⟩
    · cases hstep
  | mark =>
    obtain ⟨hlast, hle⟩ := @progress_markStep _ id dispatcher system next h hstep
    refine ⟨hlast ▸ hid, ?_⟩
    have hdue : system.dueIn id (.mark : Label Payload) = 0 := rfl
    omega
  | raised =>
    cases hstep
    exact progress_abort hid rfl rfl
  | restart =>
    cases hstep
    exact progress_abort hid rfl rfl

theorem dueFetches_le (hbatch : 0 < dispatcher.workerBatchSize)
    {system last : System} {labels : List (Label Payload)}
    (h : Inv dispatcher.config.maxRetryAttempts system) (hid : id ≤ system.outbox.lastId)
    (hrun : Runs.run dispatcher.step system labels = some last) :
    dispatcher.dueFetches id system labels +
        remaining dispatcher.config.maxRetryAttempts id last.outbox + system.busy id +
        system.aborts ≤
      remaining dispatcher.config.maxRetryAttempts id system.outbox + last.busy id +
        last.aborts := by
  induction labels generalizing system with
  | nil =>
    cases Option.some.inj hrun
    rw [Dispatcher.dueFetches, Nat.zero_add]
  | cons label rest ih =>
    obtain ⟨next, hnext, hrest⟩ := Runs.run_cons hrun
    obtain ⟨hidNext, hstep⟩ := progress_step h hbatch hid hnext
    have hlater := ih (h.step dispatcher label hnext) hidNext hrest
    simp only [Dispatcher.dueFetches, hnext]
    omega

/-- A row that is still pending has not been due at more fetches than the pending rows up to it
had attempts left, plus the batches that were given up in between: no row waits for ever behind
the others, and no retry loop holds up the queue. -/
theorem dueFetches_of_pending {dispatcher : Dispatcher Payload}
    (hbatch : 0 < dispatcher.workerBatchSize) {now : Moment} {front labels : List (Label Payload)}
    {system last : System} {row kept : Row}
    (hfront : Runs.run dispatcher.step (dispatcher.start .empty now) front = some system)
    (hrun : Runs.run dispatcher.step system labels = some last)
    (hrow : system.outbox.rows.get? id = some row)
    (hkept : last.outbox.rows.get? id = some kept) (hpending : kept.status = .pending) :
    dispatcher.dueFetches id system labels + system.aborts ≤
      remaining dispatcher.config.maxRetryAttempts id system.outbox + last.aborts := by
  have hinv : Inv dispatcher.config.maxRetryAttempts system :=
    Runs.run_invariant (fun _ label _ h hstep => h.step dispatcher label hstep)
      (inv_start dispatcher now) hfront
  have hlast : Inv dispatcher.config.maxRetryAttempts last :=
    Runs.run_invariant (fun _ label _ h hstep => h.step dispatcher label hstep) hinv hrun
  obtain ⟨accepted, hmem, hid⟩ := hlast.rows_accepted id kept hkept
  have hstands := hlast.standing accepted hmem
  rw [hid, hkept] at hstands
  obtain ⟨_, _, hmore⟩ := hstands.of_pending hpending
  have hleft : attemptsLeft dispatcher.config.maxRetryAttempts id id kept =
      dispatcher.config.maxRetryAttempts - kept.attemptCount := if_pos ⟨le_rfl, hpending⟩
  have hone := @attemptsLeft_le_remaining dispatcher.config.maxRetryAttempts id _ _ _ hkept
  have hbusy := last.busy_le_one id
  have hle := dueFetches_le hbatch hinv (Outbox.get?_lt hrow) hrun
  omega

end Progress

/-- Two attempts, the second after five seconds. -/
def twoAttempts : Dispatcher Unit where
  config :=
    { globalPerMinute := 30
      perChatPerMinute := 10
      criticalTtlSeconds := 300
      warningTtlSeconds := 600
      infoTtlSeconds := 1800
      maxRetryAttempts := 2
      retryBackoffSeconds := [5]
      limits_positive := by decide
      attempts_positive := by decide
      backoff_ne_nil := by decide }
  defaultChatId := "ops"
  renderEvent _ := some "order filled"
  chat_ne_empty := by decide

/-- Noon of the first day of 2026. -/
def noon : Moment := ⟨63902822400000000, by decide⟩

def orderFilled : NotificationEvent Unit := ⟨"e1", "order_filled", .info, "order:1", ()⟩

/-- A message is sent and the process ends; after the restart it is sent again and delivered. -/
def resent : List (Label Unit) :=
  [.submit orderFilled none ⟨0, 0, noon⟩, .fetch noon, .send ⟨true, false, none, none⟩, .restart,
    .fetch noon, .send ⟨true, false, none, none⟩, .mark]

theorem accepted_standing_resent :
    ∃ system, Runs.run twoAttempts.step (twoAttempts.start .empty noon) resent = some system ∧
      ∀ accepted ∈ system.accepted,
        Standing 2 (system.outbox.rows.get? accepted.id)
          (resultsOf accepted.id system.settled) := by
  have hsome : (Runs.run twoAttempts.step (twoAttempts.start .empty noon) resent).isSome =
      true := by decide +kernel
  obtain ⟨system, hrun⟩ := Option.isSome_iff_exists.mp hsome
  exact ⟨system, hrun, fun accepted hmem => ((accepted_standing hrun).1 accepted hmem).1⟩

/-- After one failed attempt the row is pending again and has been due once; two it had. -/
theorem dueFetches_of_pending_retried :
    ∃ system last, Runs.run twoAttempts.step (twoAttempts.start .empty noon)
        [.submit orderFilled none ⟨0, 0, noon⟩] = some system ∧
      Runs.run twoAttempts.step system
        [.fetch noon, .send ⟨false, true, none, none⟩, .mark] = some last ∧
      twoAttempts.dueFetches 1 system [.fetch noon, .send ⟨false, true, none, none⟩, .mark] +
          system.aborts ≤ remaining 2 1 system.outbox + last.aborts := by
  have hsome : ((Runs.run twoAttempts.step (twoAttempts.start .empty noon)
      [.submit orderFilled none ⟨0, 0, noon⟩]).bind fun system =>
        (Runs.run twoAttempts.step system
          [.fetch noon, .send ⟨false, true, none, none⟩, .mark]).map fun last =>
            ((system.outbox.rows.get? 1).isSome,
              (last.outbox.rows.get? 1).map Row.status)) = some (true, some .pending) := by
    decide +kernel
  obtain ⟨system, hfront, hsome⟩ := Option.bind_eq_some_iff.mp hsome
  obtain ⟨last, hrun, hrows⟩ := Option.map_eq_some_iff.mp hsome
  obtain ⟨hrow, hkept⟩ := Prod.mk.inj hrows
  obtain ⟨row, hrow⟩ := Option.isSome_iff_exists.mp hrow
  obtain ⟨kept, hkept, hpending⟩ := Option.map_eq_some_iff.mp hkept
  exact ⟨system, last, hfront, hrun,
    dueFetches_of_pending (by decide) hfront hrun hrow hkept hpending⟩

end MT5Services.NotificationDispatch
