import MT5Services.RecoveryController
import MT5Services.RecoveryExposure

/-!
Whose position is it? Every trade of a recovery cycle carries the cycle's id and source
signal in its payload, and the exposure ledger gives a cycle the positions that carry them.
The id need only occur somewhere in a text of the position. So a cycle also gets positions
of another cycle, when its id is a part of a text that the other one derives from its own.
-/
namespace MT5Services.RecoveryOwnership

open PyText PyNumber RecoveryModels RecoveryExposure

structure RecoveryExecutionCanaryPolicy where
  orderKind : String := "market"
  deviation : ℤ := 20
  magic : ℤ := 0
  commentPrefix : String := "recovery"
  dryRun : Bool := true
  protectiveStopPoints : Option ℚ := none

/-- The payload of a trade; of its metadata the flag `canary` and the guard's report, which
nothing here reads, are left out. -/
structure TradePayload where
  symbol : String
  volume : ℚ
  side : String
  orderKind : String
  price : Option ℚ
  deviation : ℤ
  comment : String
  magic : ℤ
  dryRun : Bool
  requestId : String
  traceId : String
  actionId : String
  metadata : Metadata
  sl : Option ℚ := none
  deriving DecidableEq, Repr

def defaultSourceSignalId (cycleId : String) : String := cycleId ++ "-signal"

/-- What a caller adds to the metadata; none of them names a cycle or a signal. -/
structure ExtraMetadata where
  entries : Metadata
  anonymous : ∀ entry ∈ entries, entry.1 ≠ "recovery_cycle_id" ∧ entry.1 ≠ "source_signal_id"

/-- `_protective_stop_price`. -/
def protectiveStopPrice (direction : String) (entryPrice stopPoints point : ℚ) :
    Except String ℚ :=
  if lower (strip direction) = "buy" then .ok (round (entryPrice - stopPoints * point) 8)
  else if lower (strip direction) = "sell" then .ok (round (entryPrice + stopPoints * point) 8)
  else .error "direction must be buy or sell"

/-- A market order gets its protective stop. -/
def attachStop (policy : RecoveryPolicy) (canary : RecoveryExecutionCanaryPolicy)
    (payload : TradePayload) : Except String TradePayload :=
  if normalized canary.orderKind "market" = "market" then
    (protectiveStopPrice payload.side (payload.price.getD 0)
        (canary.protectiveStopPoints.getD 0) policy.point).map
      fun sl => { payload with sl := some sl }
  else .ok payload

/-- The arguments of `_initial_trade_payload` besides the two policies. -/
structure InitialTrade where
  symbol : String
  direction : String
  entryPrice : ℚ
  accountKey : String
  cycleId : String
  sourceSignalId : String
  strategy : String
  timeframe : String
  extra : ExtraMetadata

def initialTradePayload (policy : RecoveryPolicy) (canary : RecoveryExecutionCanaryPolicy)
    (trade : InitialTrade) : Except String TradePayload :=
  let requestId := "recovery:" ++ trade.cycleId ++ ":initial"
  attachStop policy canary
    { symbol := trade.symbol
      volume := policy.baseVolume
      side := trade.direction
      orderKind := canary.orderKind
      price := some trade.entryPrice
      deviation := canary.deviation
      comment := canary.commentPrefix ++ ":" ++ trade.cycleId ++ ":initial"
      magic := canary.magic
      dryRun := canary.dryRun
      requestId := requestId
      traceId := trade.sourceSignalId
      actionId := requestId
      metadata :=
        [("execution_scope", .text "recovery_initial"), ("recovery_cycle_id", .text trade.cycleId),
          ("recovery_step_index", .number 0), ("source_signal_id", .text trade.sourceSignalId),
          ("account_key", .text trade.accountKey), ("strategy", .text trade.strategy),
          ("timeframe", .text trade.timeframe)] ++ trade.extra.entries }

/-- `build_trade_payload`; the intent's own metadata is given apart. -/
def buildTradePayload (policy : RecoveryPolicy) (cycle : RecoveryCycleState)
    (intent : PositionScalingIntent) (extra : ExtraMetadata)
    (canary : RecoveryExecutionCanaryPolicy) : Except String TradePayload :=
  let requestId := "recovery:" ++ intent.cycleId ++ ":step:" ++ toString intent.stepIndex
  let source := intent.sourceSignalId.getD ""
  attachStop policy canary
    { symbol := intent.symbol
      volume := intent.volume
      side := intent.direction
      orderKind := canary.orderKind
      price := intent.entryPrice
      deviation := canary.deviation
      comment := canary.commentPrefix ++ ":" ++ intent.cycleId ++ ":s" ++ toString intent.stepIndex
      magic := canary.magic
      dryRun := canary.dryRun
      requestId := requestId
      traceId := if source = "" then cycle.cycleId else source
      actionId := requestId
      metadata :=
        [("execution_scope", .text "recovery_scaling"), ("recovery_cycle_id", .text intent.cycleId),
          ("recovery_step_index", .number intent.stepIndex),
          ("recovery_reason", .text intent.reason),
          ("source_signal_id", intent.sourceSignalId.elim .missing .text),
          ("account_key", .text intent.accountKey), ("strategy", .text intent.strategy),
          ("timeframe", .text intent.timeframe)] ++ extra.entries }

/-- `metadata.get(key)`: a later entry overrides an earlier one. -/
def lookup (metadata : Metadata) (key : String) : Option Datum := metadata.reverse.lookup key

/-- The payloads of a cycle that goes by the default source signal. -/
inductive Builds (cycleId : String) : TradePayload → Prop
  | initial {policy : RecoveryPolicy} {canary : RecoveryExecutionCanaryPolicy}
      {trade : InitialTrade} {payload : TradePayload} (hcycle : trade.cycleId = cycleId)
      (hsource : trade.sourceSignalId = defaultSourceSignalId cycleId)
      (h : initialTradePayload policy canary trade = .ok payload) : Builds cycleId payload
  | step {policy : RecoveryPolicy} {cycle : RecoveryCycleState} {intent : PositionScalingIntent}
      {extra : ExtraMetadata} {canary : RecoveryExecutionCanaryPolicy} {payload : TradePayload}
      (hcycle : intent.cycleId = cycleId)
      (hsource : intent.sourceSignalId = some (defaultSourceSignalId cycleId))
      (h : buildTradePayload policy cycle intent extra canary = .ok payload) :
      Builds cycleId payload

/-- The broker's row of the position that the payload opened, in the account of `cycle` and
under a ticket that `cycle` did not submit. -/
structure OpenedBy (cycle : RecoveryCycleState) (payload : TradePayload) (p : Position) :
    Prop where
  account : p.accountKey = "" ∨ p.accountKey = cycle.accountKey
  hasTicket : p.ticketOf ≠ none
  notSubmitted : ∀ ticket, p.ticketOf = some ticket → ticket ∉ submittedTickets cycle
  comment : p.comment = payload.comment
  requestId : p.requestId = payload.requestId
  actionId : p.actionId = payload.actionId
  traceId : p.traceId = payload.traceId
  recoveryCycleId : lookup payload.metadata "recovery_cycle_id" = some (.text p.recoveryCycleId)
  metadataSource :
    lookup payload.metadata "source_signal_id" = some (.text p.metadataSourceSignalId)
  signalId : p.signalId = "" ∨ p.signalId = payload.traceId
  sourceSignalId : p.sourceSignalId = "" ∨ p.sourceSignalId = payload.traceId

/-- The cycle neither matches the position nor closes it, whatever else it is shown and
however the closes end. -/
def Spares (cycle : RecoveryCycleState) (p : Position) : Prop :=
  ∀ positions lastReconcileAt (reply : ℤ → CloseReply), p ∈ positions →
    (∀ q ∈ positions, q.ticketOf = p.ticketOf → q = p) →
    p ∉ (classify cycle (some positions) lastReconcileAt).positionMatches ∧
      ∀ ticket, p.ticketOf = some ticket →
        ticket ∉ (closeSubmittedLivePositions cycle
          (.snapshot positions lastReconcileAt) reply).tickets

/-- The texts by which a payload names its cycle. -/
def identityTexts (payload : TradePayload) : List String :=
  [payload.traceId, payload.requestId, payload.comment]

/-- The cycle's id occurs in none of the texts and its source signal is none of them. -/
structure Apart (cycle : RecoveryCycleState) (payload : TradePayload) : Prop where
  cycleId : strip cycle.cycleId ≠ "" → ∀ text ∈ identityTexts payload,
    ¬ (strip cycle.cycleId).toList <:+: (strip text).toList
  source : strip (cycle.sourceSignalId.getD "") ≠ "" → ∀ text ∈ identityTexts payload,
    strip text ≠ strip (cycle.sourceSignalId.getD "")

theorem toList_strip_isInfix (text : String) : (strip text).toList <:+: text.toList := by
  rw [strip, String.toList_ofList]
  exact ( List.rdropWhile_prefix isSpace _).isInfix.trans
    ( List.dropWhile_suffix isSpace).isInfix

/-- Only the empty text occurs in the empty text. -/
theorem eq_empty_of_isInfix {text : String} (h : text.toList <:+: "".toList) : text = "" :=
  String.toList_eq_nil_iff.mp (List.infix_nil.mp h)

theorem dropWhile_append_cons {p : Char → Bool} {c : Char} (hc : p c = false)
    (front back : List Char) :
    (front ++ c :: back).dropWhile p = front.dropWhile p ++ c :: back := by
  rw [List.dropWhile_append]
  split_ifs with hempty
  · rw [List.isEmpty_iff.mp hempty, List.dropWhile_cons_of_neg (by simp [hc]), List.nil_append]
  · rfl

theorem rdropWhile_append_cons {p : Char → Bool} {c : Char} (hc : p c = false)
    (front back : List Char) :
    (front ++ c :: back).rdropWhile p = front ++ (c :: back).rdropWhile p := by
  have hreverse : (front ++ c :: back).reverse = back.reverse ++ c :: front.reverse := by simp
  have hback : (c :: back).reverse = back.reverse ++ c :: [] := by simp
  rw [List.rdropWhile, List.rdropWhile, hreverse, hback, dropWhile_append_cons hc,
    dropWhile_append_cons hc]
  simp

/-- What stands between two characters that are no spaces survives `strip`. -/
theorem infix_strip {text : String} (a b : Char) (front mid back : List Char)
    (ha : isSpace a = false) (hb : isSpace b = false)
    (htext : text.toList = a :: front ++ mid ++ b :: back) : mid <:+: (strip text).toList := by
  have hfront : (a :: front ++ mid ++ b :: back).dropWhile isSpace =
      a :: front ++ mid ++ b :: back := by
    rw [List.append_assoc, List.cons_append, List.dropWhile_cons_of_neg (by simp [ha])]
  rw [strip, String.toList_ofList, htext, hfront, rdropWhile_append_cons hb]
  exact ⟨a :: front, _, rfl⟩

theorem lookup_append {base extra : Metadata} {key : String}
    (h : ∀ entry ∈ extra, entry.1 ≠ key) : lookup (base ++ extra) key = lookup base key := by
  have hnone : extra.reverse.lookup key = none := by
    rw [List.lookup_eq_none_iff]
    intro entry hentry
    simpa using (h entry (List.mem_reverse.mp hentry)).symm
  rw [lookup, List.reverse_append, List.lookup_append, hnone, Option.none_or, lookup]

/-- The stop leaves the identifying texts alone. -/
theorem attachStop_ok {policy : RecoveryPolicy} {canary : RecoveryExecutionCanaryPolicy}
    {payload built : TradePayload} (h : attachStop policy canary payload = .ok built) :
    ∃ sl, built = { payload with sl := sl } := by
  unfold attachStop at h
  split at h
  · cases hstop : protectiveStopPrice payload.side (payload.price.getD 0)
        (canary.protectiveStopPoints.getD 0) policy.point with
    | error message =>
      rw [hstop] at h
      cases h
    | ok sl =>
      rw [hstop] at h
      cases h
      exact ⟨some sl, rfl⟩
  · cases h
    exact ⟨payload.sl, rfl⟩

/-- What every payload of a cycle says of it. -/
structure Names (cycleId : String) (payload : TradePayload) : Prop where
  traceId : payload.traceId = defaultSourceSignalId cycleId
  actionId : payload.actionId = payload.requestId
  requestId : ∃ rest, payload.requestId = "recovery:" ++ cycleId ++ ":" ++ rest
  recoveryCycleId : lookup payload.metadata "recovery_cycle_id" = some (.text cycleId)
  source : lookup payload.metadata "source_signal_id" =
    some (.text (defaultSourceSignalId cycleId))

theorem defaultSourceSignalId_ne_empty (cycleId : String) :
    defaultSourceSignalId cycleId ≠ "" := by
  intro h
  have hlength := congrArg String.length h
  rw [defaultSourceSignalId, String.length_append] at hlength
  have hseven : ("-signal" : String).length = 7 := rfl
  have hzero : ("" : String).length = 0 := rfl
  omega

theorem names_attachStop {policy : RecoveryPolicy} {canary : RecoveryExecutionCanaryPolicy}
    {cycleId : String} {payload built : TradePayload} (hnames : Names cycleId payload)
    (h : attachStop policy canary payload = .ok built) : Names cycleId built := by
  obtain ⟨sl, rfl⟩ := attachStop_ok h
  exact ⟨hnames.traceId, hnames.actionId, hnames.requestId, hnames.recoveryCycleId, hnames.source⟩

theorem names_of_builds {cycleId : String} {payload : TradePayload}
    (h : Builds cycleId payload) : Names cycleId payload := by
  cases h with
  | @initial policy canary trade _ hcycle hsource hbuilt =>
    subst hcycle
    refine names_attachStop ?_ hbuilt
    rw [hsource]
    have hrequest : "recovery:" ++ trade.cycleId ++ ":initial" =
        "recovery:" ++ trade.cycleId ++ ":" ++ "initial" := by
      have hcolon : (":initial" : String) = ":" ++ "initial" := rfl
      simp only [hcolon, String.append_assoc]
    exact
      { traceId := rfl
        actionId := rfl
        requestId := ⟨"initial", hrequest⟩
        recoveryCycleId := lookup_append fun entry hentry => (trade.extra.anonymous entry hentry).1
        source := lookup_append fun entry hentry => (trade.extra.anonymous entry hentry).2 }
  | @step policy cycle intent extra canary _ hcycle hsource hbuilt =>
    subst hcycle
    refine names_attachStop ?_ hbuilt
    rw [hsource, Option.getD_some, if_neg (defaultSourceSignalId_ne_empty intent.cycleId)]
    have hrequest : "recovery:" ++ intent.cycleId ++ ":step:" ++ toString intent.stepIndex =
        "recovery:" ++ intent.cycleId ++ ":" ++ ("step:" ++ toString intent.stepIndex) := by
      have hcolon : (":step:" : String) = ":" ++ "step:" := rfl
      simp only [hcolon, String.append_assoc]
    exact
      { traceId := rfl
        actionId := rfl
        requestId := ⟨_, hrequest⟩
        recoveryCycleId := lookup_append fun entry hentry => (extra.anonymous entry hentry).1
        source := lookup_append fun entry hentry => (extra.anonymous entry hentry).2 }

/-- The id of the cycle survives in the request id of its payloads. -/
theorem cycleId_infix_requestId {cycleId : String} {payload : TradePayload}
    (h : Names cycleId payload) : cycleId.toList <:+: (strip payload.requestId).toList := by
  obtain ⟨rest, hrest⟩ := h.requestId
  refine infix_strip 'r' ':' "ecovery:".toList cycleId.toList rest.toList (by decide)
    (by decide) ?_
  rw [hrest, String.toList_append, String.toList_append, String.toList_append]
  simp

section Ownership

variable {cycle : RecoveryCycleState} {cycleId : String} {payload : TradePayload} {p : Position}

theorem mem_identityFields (hopened : OpenedBy cycle payload p) (hnames : Names cycleId payload)
    {text : String} : text ∈ p.identityFields ∨ text = "" ↔
      text ∈ identityTexts payload ∨ text = "" := by
  simp only [Position.identityFields, identityTexts, List.mem_cons, List.not_mem_nil, or_false,
    hopened.comment, hopened.requestId, hopened.actionId, hopened.traceId, hnames.actionId]
  rcases hopened.signalId with hsignal | hsignal
  · rcases hopened.sourceSignalId with hsource | hsource
    · rw [hsignal, hsource]
      tauto
    · rw [hsignal, hsource]
      tauto
  · rcases hopened.sourceSignalId with hsource | hsource
    · rw [hsignal, hsource]
      tauto
    · rw [hsignal, hsource]
      tauto

/-- The identity matches exactly when a text says so: what the metadata repeat, the texts
say too. -/
theorem identityMatches_eq_false (hopened : OpenedBy cycle payload p)
    (hnames : Names cycleId payload) :
    p.identityMatches cycle = false ↔ Apart cycle payload := by
  have hcycleId : p.recoveryCycleId = cycleId := by
    have h := hopened.recoveryCycleId
    rw [hnames.recoveryCycleId] at h
    exact (Datum.text.inj (Option.some.inj h)).symm
  have hsource : p.metadataSourceSignalId = payload.traceId := by
    have h := hopened.metadataSource
    rw [hnames.source, ← hnames.traceId] at h
    exact (Datum.text.inj (Option.some.inj h)).symm
  have hmem : ∀ text ∈ identityTexts payload, text ∈ p.identityFields ∨ text = "" :=
    fun text htext => (mem_identityFields hopened hnames).mpr (Or.inl htext)
  have hempty : strip "" = "" := by decide
  simp only [Position.identityMatches, Bool.or_eq_false_iff, decide_eq_false_iff_not,
    List.any_eq_false, decide_eq_true_eq, hcycleId, hsource]
  constructor
  · rintro ⟨_, htexts⟩
    constructor
    · intro hid text htext hinfix
      rcases hmem text htext with hfield | rfl
      · refine htexts text hfield ⟨?_, Or.inr ⟨hid, hinfix⟩⟩
        intro hblank
        rw [hblank] at hinfix
        exact hid (eq_empty_of_isInfix hinfix)
      · rw [hempty] at hinfix
        exact hid (eq_empty_of_isInfix hinfix)
    · intro hid text htext heq
      rcases hmem text htext with hfield | rfl
      · exact htexts text hfield ⟨heq ▸ hid, Or.inl ⟨hid, heq⟩⟩
      · exact hid (heq ▸ hempty)
  · intro hapart
    refine ⟨⟨?_, ?_⟩, ?_⟩
    · rintro ⟨hid, heq⟩
      refine hapart.cycleId hid payload.requestId (by simp [identityTexts]) ?_
      rw [← heq]
      exact (toList_strip_isInfix cycleId).trans (cycleId_infix_requestId hnames)
    · rintro ⟨hid, heq⟩
      exact hapart.source hid payload.traceId (by simp [identityTexts]) heq
    · rintro text hfield ⟨hblank, hmatch⟩
      have htext : text ∈ identityTexts payload := by
        rcases (mem_identityFields hopened hnames).mp (Or.inl hfield) with htext | rfl
        · exact htext
        · exact absurd hempty hblank
      rcases hmatch with ⟨hid, heq⟩ | ⟨hid, hinfix⟩
      · exact hapart.source hid text htext heq
      · exact hapart.cycleId hid text htext hinfix

theorem matchesCycle_eq_false (hopened : OpenedBy cycle payload p)
    (hnames : Names cycleId payload) :
    p.matchesCycle cycle = false ↔ p.ofOtherAccount cycle = true ∨ Apart cycle payload := by
  have hticket : p.ticketOf.any (fun ticket => ticket ∈ submittedTickets cycle) = false := by
    cases hof : p.ticketOf with
    | none => rfl
    | some ticket => exact decide_eq_false (hopened.notSubmitted ticket hof)
  rw [← identityMatches_eq_false hopened hnames, Position.matchesCycle, hticket, Bool.false_or,
    Bool.and_eq_false_iff, Bool.not_eq_false']

/-- A position that does not match is neither listed nor closed. -/
theorem spares_of_not_matches (hopened : OpenedBy cycle payload p)
    (hmatch : p.matchesCycle cycle = false) : Spares cycle p := by
  intro positions lastReconcileAt reply hmem hunique
  have hlive : ∀ ticket, p.ticketOf = some ticket → ticket ∉ liveTickets cycle positions := by
    intro ticket hticket hlive
    obtain ⟨q, hq, hof⟩ := List.mem_map.mp (mem_uniquePositiveInts.mp hlive).2
    obtain ⟨hposition, hmatches⟩ := List.mem_filter.mp hq
    rw [hunique q hposition (hof.trans hticket.symm), hmatch] at hmatches
    cases hmatches
  constructor
  · intro hlisted
    simp only [classify] at hlisted
    split at hlisted
    · cases hlisted
    · split at hlisted
      · have hmatches := (List.mem_filter.mp hlisted).2
        rw [hmatch] at hmatches
        cases hmatches
      · split at hlisted
        · cases hlisted
        · cases hlisted
  · intro ticket hticket htickets
    simp only [closeSubmittedLivePositions] at htickets
    split at htickets
    · cases htickets
    · rename_i hsubmitted
      split at htickets
      · cases htickets
      · have hdispatched := (mem_ticketsToClose cycle _ ticket hsubmitted).mp htickets
        simp only [dispatchedTickets] at hdispatched
        split at hdispatched
        · exact hopened.notSubmitted ticket hticket hdispatched
        · exact hlive ticket hticket hdispatched

/-- A matching position is listed as soon as the cycle has submitted anything. -/
theorem matched_of_matches (hopened : OpenedBy cycle payload p)
    (hsubmitted : submittedTickets cycle ≠ []) (hmatch : p.matchesCycle cycle = true) :
    p ∈ (classify cycle (some [p]) none).positionMatches := by
  have hlive : liveTickets cycle [p] ≠ [] := by
    obtain ⟨ticket, hticket⟩ := Option.ne_none_iff_exists'.mp hopened.hasTicket
    have hpositive : 0 < ticket := by
      obtain ⟨value, _, hvalue⟩ := List.exists_of_findSome?_eq_some hticket
      have hfilter := Option.filter_eq_some_iff.mp hvalue
      exact of_decide_eq_true hfilter.2
    apply List.ne_nil_of_mem (a := ticket)
    rw [liveTickets, mem_uniquePositiveInts]
    refine ⟨hpositive, List.mem_map.mpr ⟨p, ?_, hticket⟩⟩
    exact List.mem_filter.mpr ⟨List.mem_singleton_self p, hmatch⟩
  simp only [classify, if_neg hsubmitted, if_pos hlive]
  exact List.mem_filter.mpr ⟨List.mem_singleton_self p, hmatch⟩

end Ownership

/-- A cycle spares the position of another one exactly when it has submitted nothing, when
the account key of the position is not its own once stripped, or when neither its id nor its
source signal shows up in the texts of the position. -/
theorem spares_iff_apart (cycle : RecoveryCycleState) (cycleId : String) (payload : TradePayload)
    (p : Position) (hbuilds : Builds cycleId payload) (hopened : OpenedBy cycle payload p) :
    Spares cycle p ↔ submittedTickets cycle = [] ∨ p.ofOtherAccount cycle = true ∨
      Apart cycle payload := by
  rw [← matchesCycle_eq_false hopened (names_of_builds hbuilds)]
  constructor
  · intro hspares
    by_contra hnot
    obtain ⟨hsubmitted, hmatch⟩ := not_or.mp hnot
    have hlisted := matched_of_matches hopened hsubmitted (Bool.eq_true_of_not_eq_false hmatch)
    refine (hspares [p] none (fun _ => .raised "") (List.mem_singleton_self p) ?_).1 hlisted
    intro q hq _
    exact List.mem_singleton.mp hq
  · rintro (hnone | hmatch)
    · intro positions lastReconcileAt reply _ _
      simp [classify, closeSubmittedLivePositions, hnone]
    · exact spares_of_not_matches hopened hmatch

/-- A cycle with one submitted ticket. -/
def goldFields : CycleFields :=
  { RecoveryController.smallFields with
    cycleId := "gold-1"
    sourceSignalId := some (defaultSourceSignalId "gold-1")
    submittedTickets := [some 11] }

theorem gold_accepted : firstFailure goldFields.checks = none := by
  decide +kernel

def goldCycle : RecoveryCycleState := ⟨goldFields, gold_accepted⟩

def initialTrade (cycleId : String) : InitialTrade where
  symbol := "XAUUSD"
  direction := "buy"
  entryPrice := 2000
  accountKey := "demo"
  cycleId := cycleId
  sourceSignalId := defaultSourceSignalId cycleId
  strategy := "tick_recovery_probe"
  timeframe := "TICK"
  extra := ⟨[], fun _ h => absurd h List.not_mem_nil⟩

/-- The payload of such a trade, with its protective stop at the entry. -/
def initialPayload (cycleId : String) : TradePayload where
  symbol := "XAUUSD"
  volume := 1 / 100
  side := "buy"
  orderKind := "market"
  price := some 2000
  deviation := 20
  comment := "recovery" ++ ":" ++ cycleId ++ ":initial"
  magic := 0
  dryRun := true
  requestId := "recovery:" ++ cycleId ++ ":initial"
  traceId := defaultSourceSignalId cycleId
  actionId := "recovery:" ++ cycleId ++ ":initial"
  metadata :=
    [("execution_scope", .text "recovery_initial"), ("recovery_cycle_id", .text cycleId),
      ("recovery_step_index", .number 0),
      ("source_signal_id", .text (defaultSourceSignalId cycleId)),
      ("account_key", .text "demo"), ("strategy", .text "tick_recovery_probe"),
      ("timeframe", .text "TICK")]
  sl := some 2000

def initialPosition (cycleId : String) : Position where
  accountKey := "demo"
  ticket := some 22
  recoveryCycleId := cycleId
  metadataSourceSignalId := defaultSourceSignalId cycleId
  traceId := defaultSourceSignalId cycleId
  requestId := "recovery:" ++ cycleId ++ ":initial"
  actionId := "recovery:" ++ cycleId ++ ":initial"
  comment := "recovery" ++ ":" ++ cycleId ++ ":initial"

theorem builds_initial (cycleId : String) : Builds cycleId (initialPayload cycleId) := by
  have hstop : protectiveStopPrice "buy" 2000 0 (1 / 100) = .ok 2000 := by decide +kernel
  have hmarket : normalized "market" "market" = "market" := by rfl
  refine @Builds.initial cycleId RecoveryController.doublingPolicy {} (initialTrade cycleId)
    (initialPayload cycleId) rfl rfl ?_
  simp only [initialTradePayload, attachStop, hmarket, if_true]
  exact congrArg (Except.map _) hstop

theorem openedBy_initial (cycleId : String) :
    OpenedBy goldCycle (initialPayload cycleId) (initialPosition cycleId) where
  account := Or.inr rfl
  hasTicket := by
    have hticket : (initialPosition cycleId).ticketOf = some 22 := rfl
    rw [hticket]
    exact Option.some_ne_none 22
  notSubmitted := by
    intro ticket hticket
    have htwo : (initialPosition cycleId).ticketOf = some 22 := rfl
    rw [htwo] at hticket
    cases hticket
    decide
  comment := rfl
  requestId := rfl
  actionId := rfl
  traceId := rfl
  recoveryCycleId := rfl
  metadataSource := rfl
  signalId := Or.inl rfl
  sourceSignalId := Or.inl rfl

/-- The positions of a cycle with an unrelated name are left alone. -/
theorem spares_silver : Spares goldCycle (initialPosition "silver-1") :=
  (spares_iff_apart goldCycle "silver-1" (initialPayload "silver-1") (initialPosition "silver-1")
    (builds_initial "silver-1") (openedBy_initial "silver-1")).mpr
    (Or.inr (Or.inr ⟨fun _ => by decide, fun _ => by decide⟩))

/-- The first cycle takes the tenth one's position for its own. -/
theorem id_within_other_id :
    ¬ ∀ (cycle : RecoveryCycleState) (cycleId : String) (payload : TradePayload) (p : Position),
      cycle.cycleId ≠ cycleId → Builds cycleId payload → OpenedBy cycle payload p →
        Spares cycle p := by
  intro hclaim
  have hspares := hclaim goldCycle "gold-10" (initialPayload "gold-10") (initialPosition "gold-10")
    (by decide) (builds_initial "gold-10") (openedBy_initial "gold-10")
  refine (hspares [initialPosition "gold-10"] none (fun _ => .raised "")
    (List.mem_singleton_self _) ?_).1 ?_
  · intro q hq _
    exact List.mem_singleton.mp hq
  · decide

end MT5Services.RecoveryOwnership
