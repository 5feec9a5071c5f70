import MT5Services.TradeComments
import Mathlib.Data.Rat.Defs

/-!
`TradingService._recover_trade_from_state`: after a failed open the service looks for the
trade among the open positions and the pending orders, and takes the first one whose
comment is its own, or carries the request tag of its comment or of its request id. The
tag is eight characters, so a trade of another request may carry it as well.
-/
namespace MT5Services.TradeRecovery

open TradeComments

/-- A position or a pending order as the account readers give it. -/
structure TradeRow where
  ticket : Option ℤ
  volume : Option ℚ
  priceOpen : Option ℚ
  comment : Option Text
  deriving DecidableEq, Repr

inductive StateSource
  | positions
  | orders
  deriving DecidableEq, Repr

structure TradeExecutionDetails where
  ticket : ℤ
  orderId : ℤ
  dealId : ℤ
  symbol : String
  volume : ℚ
  requestedPrice : Option ℚ
  fillPrice : ℚ
  pending : Bool
  recoveredFromState : Bool
  stateSource : Option StateSource
  deriving DecidableEq, Repr

/-- The readers of the account, which may raise. -/
structure Readers (E : Type) where
  positions : Except E (List TradeRow)
  orders : Except E (List TradeRow)

/-- The details of a trade that was found. -/
def recoveredDetails (symbol : String) (source : StateSource) (row : TradeRow) :
    TradeExecutionDetails where
  ticket := row.ticket.getD 0
  orderId :=
    match source with
    | .positions => 0
    | .orders => row.ticket.getD 0
  dealId := 0
  symbol := symbol
  volume := row.volume.getD 0
  requestedPrice :=
    match source with
    | .positions => none
    | .orders => some (row.priceOpen.getD 0)
  fillPrice := row.priceOpen.getD 0
  pending := source = .orders
  recoveredFromState := true
  stateSource := some source

section Recovery

variable (u : Unicode)

/-- The comment of the row matches the submitted comment or the request id. -/
def matchesTrade (targetComment requestId : Text) (row : TradeRow) : Bool :=
  let comment := stripText (row.comment.getD [])
  (targetComment ≠ [] &&
      (comment = targetComment || commentsShareRequestTag u comment targetComment)) ||
    (requestId ≠ [] && commentMatchesRequestId u comment requestId)

def recoverTradeFromState {E : Type} (accountClient : Option (Readers E)) (symbol : String)
    (submittedComment requestId : Text) : Except E (Option TradeExecutionDetails) :=
  match accountClient with
  | none => .ok none
  | some readers =>
    let targetComment := stripText submittedComment
    if targetComment = [] ∧ requestId = [] then .ok none
    else do
      let positions ← readers.positions
      match positions.find? (matchesTrade u targetComment requestId) with
      | some position => return some (recoveredDetails symbol .positions position)
      | none =>
        let orders ← readers.orders
        return (orders.find? (matchesTrade u targetComment requestId)).map
          (recoveredDetails symbol .orders)

/-- A trade that `execute_trade` opened, with the request it was opened for. -/
structure PlacedTrade where
  requestId : Text
  context : CommentContext
  source : StateSource
  row : TradeRow
  opened : row.comment = some (buildTradeComment u requestId context)

/-- The account: its positions, then its pending orders. -/
structure Account where
  positions : List (PlacedTrade u)
  orders : List (PlacedTrade u)
  positions_source : ∀ trade ∈ positions, trade.source = .positions
  orders_source : ∀ trade ∈ orders, trade.source = .orders

def Account.trades (account : Account u) : List (PlacedTrade u) :=
  account.positions ++ account.orders

def Account.readers (account : Account u) (E : Type) : Readers E where
  positions := .ok (account.positions.map PlacedTrade.row)
  orders := .ok (account.orders.map PlacedTrade.row)

/-- The trade that the recovery takes for the request. -/
def recoveredTrade (account : Account u) (requestId : Text) (context : CommentContext) :
    Option (PlacedTrade u) :=
  account.trades.find? fun trade =>
    matchesTrade u (buildTradeComment u requestId context) requestId trade.row

/-- The trade looks like one of the request: it has the same tag, one that reads back, or
the very same comment. -/
def LooksLike (requestId : Text) (context : CommentContext) (trade : PlacedTrade u) : Prop :=
  (normalizeRequestTag u trade.requestId 8 = normalizeRequestTag u requestId 8 ∧
      normalizeRequestTag u requestId 8 ≠ [] ∧ Settled u (normalizeRequestTag u requestId 8)) ∨
    buildTradeComment u trade.requestId trade.context = buildTradeComment u requestId context

end Recovery

variable {u : Unicode}

theorem commentMatches_buildTradeComment (requestId other : Text) (context : CommentContext) :
    commentMatchesRequestId u (buildTradeComment u other context) requestId = true ↔
      normalizeRequestTag u other 8 = normalizeRequestTag u requestId 8 ∧
        normalizeRequestTag u requestId 8 ≠ [] ∧
        Settled u (normalizeRequestTag u requestId 8) := by
  unfold commentMatchesRequestId
  rw [extractCommentRequestTag_buildTradeComment]
  simp only [Bool.and_eq_true, decide_eq_true_eq]
  constructor
  · rintro ⟨hne, hsame⟩
    split at hsame
    · rename_i hsettled
      rw [hsame] at hsettled
      exact ⟨hsame, hne, hsettled⟩
    · exact absurd hsame.symm hne
  · rintro ⟨hsame, hne, hsettled⟩
    rw [hsame, if_pos hsettled]
    exact ⟨hne, rfl⟩

theorem commentsShare_buildTradeComment (requestId other : Text) (context others : CommentContext) :
    commentsShareRequestTag u (buildTradeComment u other others)
        (buildTradeComment u requestId context) = true ↔
      normalizeRequestTag u other 8 = normalizeRequestTag u requestId 8 ∧
        normalizeRequestTag u requestId 8 ≠ [] ∧
        Settled u (normalizeRequestTag u requestId 8) := by
  unfold commentsShareRequestTag
  rw [extractCommentRequestTag_buildTradeComment, extractCommentRequestTag_buildTradeComment]
  simp only [Bool.and_eq_true, decide_eq_true_eq]
  constructor
  · rintro ⟨⟨hleft, hright⟩, hsame⟩
    by_cases hsettled : Settled u (normalizeRequestTag u requestId 8)
    · rw [if_pos hsettled] at hright hsame
      split at hsame
      · exact ⟨hsame, hright, hsettled⟩
      · exact absurd hsame.symm hright
    · rw [if_neg hsettled] at hright
      exact absurd rfl hright
  · rintro ⟨hsame, hne, hsettled⟩
    rw [hsame, if_pos hsettled]
    exact ⟨⟨hne, hne⟩, rfl⟩

/-- What the recovery matches is what looks like a trade of the request. -/
theorem matchesTrade_iff (requestId : Text) (context : CommentContext) (trade : PlacedTrade u) :
    matchesTrade u (buildTradeComment u requestId context) requestId trade.row = true ↔
      LooksLike u requestId context trade := by
  unfold matchesTrade
  rw [trade.opened, Option.getD_some, stripText_buildTradeComment]
  simp only [Bool.or_eq_true, Bool.and_eq_true, decide_eq_true_eq,
    commentsShare_buildTradeComment, commentMatches_buildTradeComment]
  unfold LooksLike
  constructor
  · rintro (⟨_, hcomment | hshared⟩ | ⟨_, hmatches⟩)
    · exact Or.inr hcomment
    · exact Or.inl hshared
    · exact Or.inl hmatches
  · rintro (hshared | hcomment)
    · exact Or.inl ⟨buildTradeComment_ne_nil requestId context, Or.inr hshared⟩
    · exact Or.inl ⟨buildTradeComment_ne_nil requestId context, Or.inl hcomment⟩

/-- The recovery gives the details of that trade. -/
theorem recoverTradeFromState_account {E : Type} (account : Account u) (symbol : String)
    (requestId : Text) (context : CommentContext) :
    recoverTradeFromState u (some (account.readers u E)) symbol
        (buildTradeComment u requestId context) requestId =
      .ok ((recoveredTrade u account requestId context).map fun trade =>
        recoveredDetails symbol trade.source trade.row) := by
  unfold recoverTradeFromState
  dsimp only
  rw [stripText_buildTradeComment, if_neg (fun h => buildTradeComment_ne_nil _ _ h.1)]
  simp only [Account.readers, recoveredTrade, Account.trades, List.find?_append, List.find?_map,
    bind, Except.bind, pure, Except.pure, Function.comp_def]
  cases hposition : account.positions.find? fun trade =>
      matchesTrade u (buildTradeComment u requestId context) requestId trade.row with
  | some trade =>
    have hsource := account.positions_source trade (List.mem_of_find?_eq_some hposition)
    simp [hsource]
  | none =>
    cases horder : account.orders.find? fun trade =>
        matchesTrade u (buildTradeComment u requestId context) requestId trade.row with
    | some trade =>
      have hsource := account.orders_source trade (List.mem_of_find?_eq_some horder)
      simp [hsource]
    | none => simp

/-- The first element that matches is good exactly when every bad one that matches stands
behind a good one that matches. -/
theorem find?_good_iff {α : Type} {p : α → Bool} {good : α → Prop} {list : List α} :
    (∀ a, list.find? p = some a → good a) ↔
      ∀ front a back, list = front ++ a :: back → p a = true → ¬ good a →
        ∃ b ∈ front, good b ∧ p b = true := by
  constructor
  · rintro hfirst front a back rfl hmatch hbad
    cases hfront : front.find? p with
    | some b =>
      refine ⟨b, List.mem_of_find?_eq_some hfront, ?_, List.find?_some hfront⟩
      apply hfirst
      rw [List.find?_append, hfront, Option.some_or]
    | none =>
      apply absurd _ hbad
      apply hfirst
      rw [List.find?_append, hfront, Option.none_or, List.find?_cons_of_pos hmatch]
  · intro hbehind a hfound
    by_contra hbad
    obtain ⟨hmatch, front, back, hlist, hnone⟩ := List.find?_eq_some_iff_append.mp hfound
    obtain ⟨b, hb, _, hmatchb⟩ := hbehind front a back hlist hmatch hbad
    have hnot := hnone b hb
    rw [hmatchb] at hnot
    cases hnot

/-- The recovery finds a trade of the request itself exactly when every trade of another
request that looks like one of it stands behind one of its own. -/
theorem recovers_own_iff {E : Type} (account : Account u) (symbol : String) (requestId : Text)
    (context : CommentContext) :
    recoverTradeFromState u (some (account.readers u E)) symbol
        (buildTradeComment u requestId context) requestId =
      .ok ((recoveredTrade u account requestId context).map fun trade =>
        recoveredDetails symbol trade.source trade.row) ∧
    ((∀ trade, recoveredTrade u account requestId context = some trade →
        trade.requestId = requestId) ↔
      ∀ front trade back, account.trades = front ++ trade :: back →
        LooksLike u requestId context trade → trade.requestId ≠ requestId →
        ∃ own ∈ front, own.requestId = requestId ∧ LooksLike u requestId context own) := by
  refine ⟨recoverTradeFromState_account account symbol requestId context, ?_⟩
  rw [recoveredTrade, find?_good_iff]
  simp only [matchesTrade_iff]

/-- A recovery trade, opened on the five-minute chart. -/
def recoveryContext : CommentContext where
  timeframe := "M5".toList
  strategy := "recovery".toList
  side := "buy".toList
  orderKind := "market".toList
  comment := []

def initialId : Text := "recovery:c1:initial".toList
def stepId : Text := "recovery:c1:step:1".toList

/-- The position that the first request of the cycle opened. -/
def initialTrade : PlacedTrade ascii where
  requestId := initialId
  context := recoveryContext
  source := .positions
  row := ⟨some 7, some 1, some 2400, some (buildTradeComment ascii initialId recoveryContext)⟩
  opened := rfl

def initialAccount : Account ascii where
  positions := [initialTrade]
  orders := []
  positions_source := by
    intro trade htrade
    rw [List.mem_singleton.mp htrade]
    rfl
  orders_source := by
    intro trade htrade
    cases htrade

/-- A step of the cycle that fails at the broker is given the first position of the cycle. -/
theorem step_recovers_initial_trade :
    recoverTradeFromState ascii (some (initialAccount.readers ascii String)) "XAUUSD"
        (buildTradeComment ascii stepId recoveryContext) stepId =
      .ok (some (recoveredDetails "XAUUSD" .positions initialTrade.row)) ∧
    ¬ ∀ trade, recoveredTrade ascii initialAccount stepId recoveryContext = some trade →
        trade.requestId = stepId := by
  have hmatch : matchesTrade ascii (buildTradeComment ascii stepId recoveryContext) stepId
      initialTrade.row = true := by decide +kernel
  have hfound : recoveredTrade ascii initialAccount stepId recoveryContext = some initialTrade :=
    List.find?_cons_of_pos hmatch
  constructor
  · rw [recoverTradeFromState_account, hfound]
    rfl
  · intro hown
    exact absurd (hown initialTrade hfound) (by decide)

end MT5Services.TradeRecovery
