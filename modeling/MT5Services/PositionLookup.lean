import MT5Services.TradeRecovery

/-!
`TradingModule.resolve_position_context`: what is known of a position, read off the newest
audit row of a successful `execute_trade` that carries its ticket or whose comment equals the
live comment or shares its request tag. The rows are scanned once for either, so a newer row
of another trade that matches by its comment is taken before the row that has the ticket.
-/
namespace MT5Services.PositionLookup

open TradeComments

/-- `metadata["signal"]`, when it is not empty. -/
structure SignalMeta where
  signalId : Option Text
  timeframe : Option Text
  strategy : Option Text
  confidence : Option ℚ
  deriving DecidableEq, Repr

structure RequestMetadata where
  signal : Option SignalMeta
  regime : Option Text
  entryOrigin : Option Text
  deriving DecidableEq, Repr

structure RequestPayload where
  comment : Option Text
  requestId : Option Text
  metadata : Option RequestMetadata
  deriving DecidableEq, Repr

structure ResponsePayload where
  ticket : Option ℤ
  fillPrice : Option ℚ
  price : Option ℚ
  deriving DecidableEq, Repr

/-- A row of `recent_command_audits`. -/
structure AuditRow where
  requestPayload : RequestPayload
  responsePayload : ResponsePayload
  deriving DecidableEq, Repr

inductive ContextSource
  | restoredSignalTrade
  | restoredTrade
  deriving DecidableEq, Repr

structure PositionContext where
  signalId : Text
  timeframe : Text
  strategy : Text
  confidence : Option ℚ
  regime : Option Text
  fillPrice : Option ℚ
  comment : Option Text
  source : ContextSource
  entryOrigin : Text
  requestId : Text
  deriving DecidableEq, Repr

/-- `value or fallback`. -/
def orText (value : Option Text) (fallback : Text) : Text :=
  if value.getD [] = [] then fallback else value.getD []

def orPrice (value fallback : Option ℚ) : Option ℚ :=
  if value.getD 0 = 0 then fallback else value

def payloadComment (row : AuditRow) : Text := stripText (row.requestPayload.comment.getD [])

def responseTicket (row : AuditRow) : ℤ := row.responsePayload.ticket.getD 0

section Context

variable (u : Unicode)

/-- `TradeControlStateService.entry_origin`. -/
def entryOrigin (payload : RequestPayload) : Text :=
  match payload.metadata with
  | some metadata => u.lower (stripText (orText metadata.entryOrigin "manual".toList))
  | none => "manual".toList

/-- The row's comment is the live comment, or carries its request tag. -/
def matchesComment (comment : Option Text) (row : AuditRow) : Bool :=
  let liveComment := stripText (comment.getD [])
  liveComment ≠ [] &&
    (payloadComment row = liveComment ||
      commentsShareRequestTag u (payloadComment row) liveComment)

def restoredId (ticket : ℤ) : Text := "restored:".toList ++ (toString ticket).toList

/-- The context that is read off a row. -/
def contextOf (ticket : ℤ) (comment : Option Text) (row : AuditRow) : PositionContext :=
  let signal := row.requestPayload.metadata.bind RequestMetadata.signal
  let given := stripText (row.requestPayload.requestId.getD [])
  let requestId :=
    if given = [] then orText (signal.bind SignalMeta.signalId) (restoredId ticket) else given
  { signalId := requestId
    timeframe := (signal.bind SignalMeta.timeframe).getD []
    strategy := (signal.bind SignalMeta.strategy).getD []
    confidence := signal.bind SignalMeta.confidence
    regime := row.requestPayload.metadata.bind RequestMetadata.regime
    fillPrice := orPrice row.responsePayload.fillPrice row.responsePayload.price
    comment := if payloadComment row = [] then comment else some (payloadComment row)
    source := if signal.isSome then .restoredSignalTrade else .restoredTrade
    entryOrigin := entryOrigin u row.requestPayload
    requestId := requestId }

/-- `resolve_position_context` on the rows that the limit leaves, newest first. -/
def resolvePositionContext (ticket : ℤ) (comment : Option Text) :
    List AuditRow → Option PositionContext
  | [] => none
  | row :: rest =>
    if responseTicket row ≠ ticket ∧ matchesComment u comment row = false then
      resolvePositionContext ticket comment rest
    else some (contextOf u ticket comment row)

end Context

section FirstMatch

variable {α : Type*} {exact lossy : α → Bool}

/-- A row that only the lossy key matches stands before everything the exact key matches. -/
def Shadows (exact lossy : α → Bool) (rows : List α) (row : α) : Prop :=
  ∃ front back, rows = front ++ row :: back ∧
    (∀ other ∈ front, exact other = false ∧ lossy other = false) ∧
    exact row = false ∧ lossy row = true ∧ ∃ other ∈ back, exact other = true

/-- The first row that either key matches has the exact key, or shadows those that do. -/
theorem exact_or_shadows {rows : List α} (lossy : α → Bool) (h : ∃ row ∈ rows, exact row = true) :
    ∃ row, rows.find? (fun row => exact row || lossy row) = some row ∧
      (row ∈ rows ∧ exact row = true ∨ Shadows exact lossy rows row) := by
  induction rows with
  | nil =>
    obtain ⟨row, hrow, _⟩ := h
    cases hrow
  | cons first rest ih =>
    by_cases hexact : exact first = true
    · refine ⟨first, ?_, Or.inl ⟨List.mem_cons_self, hexact⟩⟩
      rw [List.find?_cons_of_pos (by simp [hexact])]
    · have hfirst : exact first = false := Bool.eq_false_iff.mpr hexact
      have hrest : ∃ row ∈ rest, exact row = true := by
        obtain ⟨row, hrow, hrowExact⟩ := h
        rcases List.mem_cons.mp hrow with rfl | htail
        · exact absurd hrowExact hexact
        · exact ⟨row, htail, hrowExact⟩
      by_cases hlossy : lossy first = true
      · refine ⟨first, ?_, Or.inr ⟨[], rest, rfl, ?_, hfirst, hlossy, hrest⟩⟩
        · rw [List.find?_cons_of_pos (by simp [hlossy])]
        · exact fun other hother => absurd hother List.not_mem_nil
      · have hneither : lossy first = false := Bool.eq_false_iff.mpr hlossy
        obtain ⟨row, hfind, hcase⟩ := ih hrest
        refine ⟨row, ?_, ?_⟩
        · rw [List.find?_cons_of_neg (by simp [hfirst, hneither])]
          exact hfind
        · rcases hcase with ⟨hmem, hrow⟩ | ⟨front, back, hsplit, hfront, hrow⟩
          · exact Or.inl ⟨List.mem_cons_of_mem _ hmem, hrow⟩
          · refine Or.inr ⟨first :: front, back, by rw [hsplit, List.cons_append], ?_, hrow⟩
            exact List.forall_mem_cons.mpr ⟨⟨hfirst, hneither⟩, hfront⟩

/-- What shadows the exact key is found first. -/
theorem find?_of_shadows {rows : List α} {row : α} (h : Shadows exact lossy rows row) :
    rows.find? (fun row => exact row || lossy row) = some row := by
  obtain ⟨front, back, hsplit, hfront, _, hlossy, _⟩ := h
  have hnone : front.find? (fun row => exact row || lossy row) = none := by
    rw [List.find?_eq_none]
    intro other hother
    simp [hfront other hother]
  rw [hsplit, List.find?_append, hnone, Option.none_or,
    List.find?_cons_of_pos (by simp [hlossy])]

end FirstMatch

section Resolve

variable {u : Unicode}

def hasTicket (ticket : ℤ) (row : AuditRow) : Bool := responseTicket row = ticket

theorem resolvePositionContext_eq (ticket : ℤ) (comment : Option Text) (rows : List AuditRow) :
    resolvePositionContext u ticket comment rows =
      (rows.find? fun row => hasTicket ticket row || matchesComment u comment row).map
        (contextOf u ticket comment) := by
  induction rows with
  | nil => rfl
  | cons row rest ih =>
    rw [resolvePositionContext]
    by_cases hmiss : responseTicket row ≠ ticket ∧ matchesComment u comment row = false
    · rw [if_pos hmiss, ih, List.find?_cons_of_neg (by simp [hasTicket, hmiss])]
    · have hhit : (hasTicket ticket row || matchesComment u comment row) = true := by
        by_cases hticket : responseTicket row = ticket
        · simp [hasTicket, hticket]
        · have hcomment : matchesComment u comment row = true := by simpa [hticket] using hmiss
          rw [hcomment, Bool.or_true]
      rw [if_neg hmiss, List.find?_cons, hhit, Option.map_some]

/-- If some row has the ticket, the context is read off such a row. -/
def ResolvesTicket (u : Unicode) (ticket : ℤ) (comment : Option Text) (rows : List AuditRow) :
    Prop :=
  (∃ row ∈ rows, responseTicket row = ticket) →
    ∃ row ∈ rows, responseTicket row = ticket ∧
      resolvePositionContext u ticket comment rows = some (contextOf u ticket comment row)

/-- A row that matches by its comment only, and comes before all that have the ticket, reads
like one of them. -/
def ShadowsAlike (u : Unicode) (ticket : ℤ) (comment : Option Text) (rows : List AuditRow) :
    Prop :=
  ∀ row, Shadows (hasTicket ticket) (matchesComment u comment) rows row →
    ∃ other ∈ rows, responseTicket other = ticket ∧
      contextOf u ticket comment other = contextOf u ticket comment row

/-- The context belongs to the ticket exactly when no newer row that matches by its comment
only stands for another trade. -/
theorem resolves_ticket_iff (u : Unicode) (ticket : ℤ) (comment : Option Text) (limit : ℕ)
    (rows : List AuditRow) :
    ResolvesTicket u ticket comment (rows.take limit) ↔
      ShadowsAlike u ticket comment (rows.take limit) := by
  generalize rows.take limit = recent
  constructor
  · intro h row hshadows
    have hfind := find?_of_shadows hshadows
    obtain ⟨front, back, hsplit, _, _, _, holder, hholder, hticket⟩ := hshadows
    have hsome : ∃ other ∈ recent, responseTicket other = ticket := by
      refine ⟨holder, ?_, of_decide_eq_true hticket⟩
      rw [hsplit]
      exact List.mem_append_right _ (List.mem_cons_of_mem _ hholder)
    obtain ⟨other, hother, hotherTicket, hresolved⟩ := h hsome
    rw [resolvePositionContext_eq, hfind, Option.map_some, Option.some.injEq] at hresolved
    exact ⟨other, hother, hotherTicket, hresolved.symm⟩
  · intro h hsome
    have hexact : ∃ row ∈ recent, hasTicket ticket row = true := by
      obtain ⟨row, hrow, hticket⟩ := hsome
      exact ⟨row, hrow, decide_eq_true hticket⟩
    obtain ⟨row, hfind, hcase⟩ :=
      exact_or_shadows (matchesComment u comment) hexact
    rw [resolvePositionContext_eq, hfind, Option.map_some]
    rcases hcase with ⟨hmem, hticket⟩ | hshadows
    · exact ⟨row, hmem, of_decide_eq_true hticket, rfl⟩
    · obtain ⟨other, hother, hticket, halike⟩ := h row hshadows
      exact ⟨other, hother, hticket, by rw [halike]⟩

end Resolve

/-- An entry by hand, with a comment of its own. -/
def manualRow (ticket : ℤ) (requestId : Text) : AuditRow where
  requestPayload := ⟨some "scalp".toList, some requestId, none⟩
  responsePayload := ⟨some ticket, some 2000, none⟩

/-- Two entries with one comment, the newer one first. -/
def manualRows : List AuditRow := [manualRow 202 "req-2".toList, manualRow 101 "req-1".toList]

theorem position_of_older_entry :
    ¬ ∀ (u : Unicode) (ticket : ℤ) (comment : Option Text) (limit : ℕ) (rows : List AuditRow),
      ResolvesTicket u ticket comment (rows.take limit) := by
  intro h
  obtain ⟨row, hrow, hticket, hresolved⟩ :=
    h ascii 101 (some "scalp".toList) 500 manualRows ⟨manualRow 101 "req-1".toList, by decide, rfl⟩
  have hother : (resolvePositionContext ascii 101 (some "scalp".toList)
      (manualRows.take 500)).map PositionContext.requestId = some "req-2".toList := by
    decide +kernel
  have hrows : row = manualRow 202 "req-2".toList ∨ row = manualRow 101 "req-1".toList := by
    simpa [manualRows] using hrow
  rcases hrows with rfl | rfl
  · exact absurd hticket (by decide)
  · rw [hresolved] at hother
    exact absurd hother (by decide +kernel)

end MT5Services.PositionLookup
