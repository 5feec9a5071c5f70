import MT5Services.CommentRoundTrip
import MT5Services.MarketOrders
import Mathlib.Data.List.Sort
import Mathlib.Data.Prod.Lex

/-!
What has become of a pending order that the broker no longer lists:
`inspect_pending_mt5_order` looks for an open position of its symbol and direction, first by
the comment, then by the request tag, then by timeframe and strategy, and at last takes the
only one there is. The last two steps do not look at the tag, so they also take a position
whose comment names another request.
-/
namespace MT5Services.OrderInspection

open TradeComments CommentRoundTrip MarketOrders

section Latest

variable {α κ : Type*} [LinearOrder κ] (key : α → κ)

/-- The latest row, and of several at the same time the last one. -/
def IsLatest (rows : List α) (row : α) : Prop :=
  ∃ before after, rows = before ++ row :: after ∧ (∀ r ∈ before, key r ≤ key row) ∧
    ∀ r ∈ after, key r < key row

variable {key}

theorem IsLatest.mem {rows : List α} {row : α} (h : IsLatest key rows row) : row ∈ rows := by
  obtain ⟨before, after, rfl, -, -⟩ := h
  exact List.mem_append_right before List.mem_cons_self

theorem IsLatest.le {rows : List α} {row other : α} (h : IsLatest key rows row)
    (hother : other ∈ rows) : key other ≤ key row := by
  obtain ⟨before, after, rfl, hbefore, hafter⟩ := h
  rcases List.mem_append.mp hother with hfront | hback
  · exact hbefore other hfront
  · rcases List.mem_cons.mp hback with rfl | hlater
    · exact le_rfl
    · exact (hafter other hlater).le

theorem isLatest_cons {first row : α} {rest : List α} :
    IsLatest key (first :: rest) row ↔
      (row = first ∧ ∀ r ∈ rest, key r < key first) ∨
        (IsLatest key rest row ∧ key first ≤ key row) := by
  constructor
  · rintro ⟨before, after, hsplit, hbefore, hafter⟩
    cases before with
    | nil =>
      rw [List.nil_append, List.cons.injEq] at hsplit
      obtain ⟨rfl, rfl⟩ := hsplit
      exact Or.inl ⟨rfl, hafter⟩
    | cons head before =>
      rw [List.cons_append, List.cons.injEq] at hsplit
      obtain ⟨rfl, rfl⟩ := hsplit
      obtain ⟨hhead, hlater⟩ := List.forall_mem_cons.mp hbefore
      exact Or.inr ⟨⟨before, after, rfl, hlater, hafter⟩, hhead⟩
  · rintro (⟨rfl, hrest⟩ | ⟨⟨before, after, rfl, hbefore, hafter⟩, hfirst⟩)
    · exact ⟨[], rest, rfl, by simp, hrest⟩
    · exact ⟨first :: before, after, rfl, List.forall_mem_cons.mpr ⟨hfirst, hbefore⟩, hafter⟩

/-- What is inserted in a sorted list is its last member only if it is after all others. -/
theorem getLast?_orderedInsert (first : α) {sorted : List α}
    (hsorted : sorted.Pairwise fun a b => key a ≤ key b) :
    (sorted.orderedInsert (fun a b => key a ≤ key b) first).getLast? =
      match sorted.getLast? with
      | none => some first
      | some last => if key first ≤ key last then some last else some first := by
  induction sorted with
  | nil => rfl
  | cons head rest ih =>
    obtain ⟨hhead, hrest⟩ := List.pairwise_cons.mp hsorted
    by_cases hfirst : key first ≤ key head
    · rw [List.orderedInsert_cons, if_pos hfirst, List.getLast?_cons_cons]
      obtain ⟨last, hlast⟩ : ∃ last, (head :: rest).getLast? = some last :=
        ⟨_, List.getLast?_eq_some_getLast (List.cons_ne_nil head rest)⟩
      have hmem : last ∈ head :: rest := List.mem_of_getLast? hlast
      have hle : key head ≤ key last := by
        rcases List.mem_cons.mp hmem with rfl | hlater
        · exact le_rfl
        · exact hhead last hlater
      rw [hlast]
      dsimp only
      rw [if_pos (hfirst.trans hle)]
    · rw [List.orderedInsert_cons, if_neg hfirst]
      cases rest with
      | nil => simp [hfirst]
      | cons next rest =>
        obtain ⟨a, more, hmore⟩ : ∃ a more,
            (next :: rest).orderedInsert (fun a b => key a ≤ key b) first = a :: more := by
          rw [List.orderedInsert_cons]
          split_ifs
          · exact ⟨_, _, rfl⟩
          · exact ⟨_, _, rfl⟩
        have hih := ih hrest
        rw [hmore] at hih ⊢
        rw [List.getLast?_cons_cons, List.getLast?_cons_cons]
        exact hih

/-- The last member of a stable sort is the latest one. -/
theorem getLast?_insertionSort (rows : List α) (row : α) :
    (rows.insertionSort fun a b => key a ≤ key b).getLast? = some row ↔
      IsLatest key rows row := by
  induction rows generalizing row with
  | nil =>
    refine iff_of_false (by simp) ?_
    intro h
    cases h.mem
  | cons first rest ih =>
    have hsorted : (rest.insertionSort fun a b => key a ≤ key b).Pairwise
        fun a b => key a ≤ key b := List.pairwise_insertionSort ..
    rw [List.insertionSort_cons, getLast?_orderedInsert first hsorted, isLatest_cons]
    cases hlast : (rest.insertionSort fun a b => key a ≤ key b).getLast? with
    | none =>
      have hnil : rest = [] := by
        have hempty := List.getLast?_eq_none_iff.mp hlast
        exact List.eq_nil_of_length_eq_zero (by
          rw [← List.length_insertionSort (fun a b => key a ≤ key b) rest, hempty]; rfl)
      subst hnil
      have hnone : ¬IsLatest key ([] : List α) row := by
        intro h
        cases h.mem
      simp [hnone, eq_comm]
    | some last =>
      have hlatest : IsLatest key rest last := (ih last).mp hlast
      have honly : IsLatest key rest row ↔ last = row := by
        rw [← ih row, hlast, Option.some.injEq]
      rw [honly]
      dsimp only
      by_cases hfirst : key first ≤ key last
      · have hnot : ¬(∀ r ∈ rest, key r < key first) := fun hall =>
          absurd (hall last hlatest.mem) (not_lt.mpr hfirst)
        rw [if_pos hfirst, Option.some.injEq]
        constructor
        · rintro rfl
          exact Or.inr ⟨rfl, hfirst⟩
        · rintro (⟨-, hall⟩ | ⟨hsame, -⟩)
          · exact absurd hall hnot
          · exact hsame
      · have hall : ∀ r ∈ rest, key r < key first :=
          fun r hr => lt_of_le_of_lt (hlatest.le hr) (not_le.mp hfirst)
        rw [if_neg hfirst, Option.some.injEq]
        constructor
        · rintro rfl
          exact Or.inl ⟨rfl, hall⟩
        · rintro (⟨hsame, -⟩ | ⟨rfl, hle⟩)
          · exact hsame.symm
          · exact absurd hle hfirst

end Latest

/-- A row of `get_positions`. The dataclass of the client has a type and no action, and no
`time_msc`; `type` is none when it is no number. -/
structure LivePosition where
  ticket : ℤ
  symbol : Text
  action : Text := []
  type : Option ℤ := some 0
  timeMsc : ℤ := 0
  time : ℤ
  priceOpen : ℚ
  sl : ℚ := 0
  tp : ℚ := 0
  volume : ℚ
  comment : Text
  deriving DecidableEq

/-- What the lookup is asked for. -/
structure OrderQuery where
  symbol : Text
  direction : Text
  comment : Text
  signalId : Text
  timeframe : Text
  strategy : Text

/-- The fields of a tracked order that the inspection reads. -/
structure PendingOrderInfo where
  ticket : ℤ
  symbol : Text
  direction : Text
  comment : Text
  signalId : Text
  timeframe : Text
  strategy : Text
  params : Option TradeParameters := none

/-- The list a position is put into. -/
inductive MatchKind
  | exact
  | requestTag
  | semantic
  | directional
  deriving DecidableEq, Repr

def rowComment (row : LivePosition) : Text := stripText row.comment

def targetComment (query : OrderQuery) : Text := stripText query.comment

/-- The order of `matches.sort`. -/
def timeKey (row : LivePosition) : ℤ ×ₗ ℤ ×ₗ ℤ := toLex (row.timeMsc, toLex (row.time, row.ticket))

section Lookup

variable (u : Unicode)

def positionDirection (row : LivePosition) (defaultDirection : Text) : Text :=
  let direction := u.lower (stripText row.action)
  if direction = "buy".toList ∨ direction = "sell".toList then direction
  else
    match row.type with
    | some kind => if kind = 1 then "sell".toList else "buy".toList
    | none => u.lower (stripText defaultDirection)

/-- Same symbol and same direction; a target that is empty is not compared. -/
def sameMarket (query : OrderQuery) (row : LivePosition) : Bool :=
  let targetSymbol := stripText query.symbol
  let targetDirection := u.lower (stripText query.direction)
  let rowDirection := positionDirection u row targetDirection
  (targetSymbol = [] || stripText row.symbol = targetSymbol) &&
    (targetDirection = [] || rowDirection = [] || rowDirection = targetDirection)

def matchKind (query : OrderQuery) (row : LivePosition) : MatchKind :=
  if targetComment query ≠ [] ∧ rowComment row = targetComment query then .exact
  else if (targetComment query ≠ [] ∧
        commentsShareRequestTag u (rowComment row) (targetComment query)) ∨
      (query.signalId ≠ [] ∧ commentMatchesRequestId u (rowComment row) query.signalId) then
    .requestTag
  else if commentMatchesSemantics u (rowComment row) query.timeframe query.strategy then .semantic
  else .directional

def candidates (positions : List LivePosition) (query : OrderQuery) : List LivePosition :=
  positions.filter (sameMarket u query)

def matchesOf (positions : List LivePosition) (query : OrderQuery) (kind : MatchKind) :
    List LivePosition :=
  (candidates u positions query).filter fun row => matchKind u query row = kind

/-- The first list with a match, or the only position of the direction. -/
def preferred (positions : List LivePosition) (query : OrderQuery) : List LivePosition :=
  if matchesOf u positions query .exact ≠ [] then matchesOf u positions query .exact
  else if matchesOf u positions query .requestTag ≠ [] then matchesOf u positions query .requestTag
  else if matchesOf u positions query .semantic ≠ [] then matchesOf u positions query .semantic
  else if (matchesOf u positions query .directional).length = 1 then
    matchesOf u positions query .directional
  else []

def findLivePositionForPendingOrder (positions : List LivePosition) (query : OrderQuery) :
    Option LivePosition :=
  ((preferred u positions query).insertionSort fun a b => timeKey a ≤ timeKey b).getLast?

end Lookup

inductive PendingReason
  | ordersLookupFailed
  | positionsLookupFailed
  deriving DecidableEq, Repr

/-- The dictionary that the inspection returns. -/
inductive OrderState
  | pending (reason : Option PendingReason)
  | missing
  | filled (ticket : ℤ) (fillPrice : ℚ)
  deriving DecidableEq, Repr

/-- The call of `track_position`; what only passes through is left out. -/
structure Registration where
  ticket : ℤ
  signalId : Text
  symbol : Text
  action : Text
  params : TradeParameters
  timeframe : Text
  strategy : Text
  comment : Text
  openedAt : ℤ
  fillPrice : Option ℚ

/-- The call of `on_trade_opened`. -/
structure Opening where
  signalId : Text
  symbol : Text
  timeframe : Text
  strategy : Text
  direction : Text
  fillPrice : ℚ
  openedAt : ℤ

/-- The answer and the two calls on the way, whose exceptions are caught. -/
structure Inspection where
  state : OrderState
  registration : Option Registration := none
  opening : Option Opening := none

def positiveOr (value fallback : ℚ) : ℚ := if 0 < value then value else fallback

def paramsFromPendingFill (baseParams : Option TradeParameters)
    (entryPrice stopLoss takeProfit volume : ℚ) : TradeParameters :=
  match baseParams with
  | some base =>
    let resolvedSl := positiveOr stopLoss base.stopLoss
    let resolvedTp := positiveOr takeProfit base.takeProfit
    { base with
      entryPrice := entryPrice
      stopLoss := resolvedSl
      takeProfit := resolvedTp
      positionSize := positiveOr volume base.positionSize
      slDistance := |entryPrice - resolvedSl|
      tpDistance := |resolvedTp - entryPrice| }
  | none =>
    let resolvedSl := positiveOr stopLoss entryPrice
    let resolvedTp := positiveOr takeProfit entryPrice
    let slDistance := |entryPrice - resolvedSl|
    let tpDistance := |resolvedTp - entryPrice|
    { entryPrice := entryPrice
      stopLoss := resolvedSl
      takeProfit := resolvedTp
      positionSize := volume
      riskRewardRatio := if 0 < slDistance then tpDistance / slDistance else 0
      atrValue := if 0 < slDistance then slDistance / 2 else 0
      slDistance := slDistance
      tpDistance := tpDistance }

section Inspect

variable (u : Unicode)

def queryOf (info : PendingOrderInfo) : OrderQuery where
  symbol := stripText info.symbol
  direction := u.lower (stripText info.direction)
  comment := stripText info.comment
  signalId := stripText info.signalId
  timeframe := info.timeframe
  strategy := info.strategy

/-- The answer for an order that an open position is taken to have filled; `tracked` has the
tickets of the position manager, if there is one. -/
def filledBy (info : PendingOrderInfo) (tracked : Option (List ℤ)) (outcomeTracker : Bool)
    (row : LivePosition) : Inspection :=
  let query := queryOf u info
  let direction := if query.direction = [] then positionDirection u row [] else query.direction
  let params := paramsFromPendingFill info.params row.priceOpen row.sl row.tp row.volume
  { state := .filled row.ticket row.priceOpen
    registration :=
      if tracked.any fun tickets => 0 < row.ticket ∧ row.ticket ∉ tickets then
        some
          { ticket := row.ticket
            signalId :=
              if query.signalId = [] then "restored:".toList ++ (toString row.ticket).toList
              else query.signalId
            symbol := query.symbol
            action := direction
            params := params
            timeframe := info.timeframe
            strategy := info.strategy
            comment := if row.comment = [] then query.comment else row.comment
            openedAt := row.time
            fillPrice := if 0 < row.priceOpen then some row.priceOpen else none }
      else none
    opening :=
      if outcomeTracker ∧ query.signalId ≠ [] then
        some
          { signalId := query.signalId
            symbol := query.symbol
            timeframe := info.timeframe
            strategy := info.strategy
            direction := direction
            fillPrice := positiveOr row.priceOpen params.entryPrice
            openedAt := row.time }
      else none }

/-- `orders` and `positions` are none when the broker call raises; an order row without a
readable ticket is skipped. -/
def inspectPendingMt5Order (info : PendingOrderInfo) (orders : Option (List (Option ℤ)))
    (positions : Option (List LivePosition)) (tracked : Option (List ℤ)) (outcomeTracker : Bool) :
    Inspection :=
  match orders with
  | none => { state := .pending (some .ordersLookupFailed) }
  | some orders =>
    if some info.ticket ∈ orders then { state := .pending none }
    else
      match positions with
      | none => { state := .pending (some .positionsLookupFailed) }
      | some positions =>
        match findLivePositionForPendingOrder u positions (queryOf u info) with
        | none => { state := .missing }
        | some row => filledBy u info tracked outcomeTracker row

end Inspect

section Attribution

variable (u : Unicode)

/-- The comment of the position is well formed and names a request that is neither the one of
the order's comment nor its signal. -/
def Foreign (query : OrderQuery) (row : LivePosition) : Prop :=
  ∃ parsed, parseTradeComment u (rowComment row) = some parsed ∧
    parsed.requestTag ≠ extractCommentRequestTag u (targetComment query) ∧
    parsed.requestTag ≠ normalizeRequestTag u query.signalId 8

/-- The position has the comment of the order, or its tag. -/
def Own (query : OrderQuery) (row : LivePosition) : Prop :=
  matchKind u query row = .exact ∨ matchKind u query row = .requestTag

def Similar (query : OrderQuery) (row : LivePosition) : Prop :=
  commentMatchesSemantics u (rowComment row) query.timeframe query.strategy = true

/-- Some position of the market is the order's own; or the latest one of its timeframe and
strategy has no well-formed comment and, if there is none of these, neither has a position
that is the only one. -/
def Attributable (positions : List LivePosition) (query : OrderQuery) : Prop :=
  (∃ row ∈ candidates u positions query, Own u query row) ∨
    ((∀ row, IsLatest timeKey ((candidates u positions query).filter fun row =>
          commentMatchesSemantics u (rowComment row) query.timeframe query.strategy) row →
        parseTradeComment u (rowComment row) = none) ∧
      ((∀ row ∈ candidates u positions query, ¬Similar u query row) →
        ∀ row, candidates u positions query = [row] →
          parseTradeComment u (rowComment row) = none))

/-- An order that is reported as filled is filled by a position that names no other request. -/
def FilledOwn (info : PendingOrderInfo) (orders : List (Option ℤ))
    (positions : List LivePosition) (tracked : Option (List ℤ)) (outcomeTracker : Bool) : Prop :=
  ∀ ticket fillPrice,
    (inspectPendingMt5Order u info (some orders) (some positions) tracked outcomeTracker).state =
      .filled ticket fillPrice →
    ∃ row, findLivePositionForPendingOrder u positions (queryOf u info) = some row ∧
      row.ticket = ticket ∧ row.priceOpen = fillPrice ∧ ¬Foreign u (queryOf u info) row

end Attribution

section Tags

variable {u : Unicode} {query : OrderQuery} {row : LivePosition}

theorem extract_of_parsed {comment : Text} {parsed : ParsedTradeComment}
    (h : parseTradeComment u comment = some parsed) :
    extractCommentRequestTag u comment = parsed.requestTag := by
  unfold extractCommentRequestTag
  rw [h]

/-- A comment that parses has a tag. -/
theorem requestTag_ne_nil {comment : Text} {parsed : ParsedTradeComment}
    (h : parseTradeComment u comment = some parsed) : parsed.requestTag ≠ [] := by
  unfold parseTradeComment at h
  dsimp only at h
  split_ifs at h
  split at h
  · split_ifs at h with hsizes hempty htag
    obtain rfl := Option.some.inj h
    rw [not_not] at htag
    dsimp only
    rw [← htag]
    simp only [Bool.or_eq_true, decide_eq_true_eq, not_or] at hempty
    exact hempty.2
  · cases h

theorem lower_nil : u.lower [] = [] := u.lower_front [] [] List.nil_prefix

theorem extract_nil : extractCommentRequestTag u [] = [] := by
  have hparse : parseTradeComment u [] = none := rfl
  have hstrip : stripText [] = [] := rfl
  unfold extractCommentRequestTag
  rw [hparse, hstrip, lower_nil]
  rfl

theorem normalizeRequestTag_nil (n : ℕ) : normalizeRequestTag u [] n = [] := by
  unfold normalizeRequestTag
  rw [List.filter_nil, lower_nil, List.take_nil]

/-- A position with the order's comment or tag names no other request. -/
theorem not_foreign_of_own (h : Own u query row) : ¬Foreign u query row := by
  rintro ⟨parsed, hparsed, hcomment, hsignal⟩
  have htag := extract_of_parsed hparsed
  rcases h with hexact | hshared
  · unfold matchKind at hexact
    split_ifs at hexact with hsame
    rw [hsame.2] at htag
    exact hcomment htag.symm
  · unfold matchKind at hshared
    split_ifs at hshared with hsame heither
    rcases heither with ⟨-, hshares⟩ | ⟨-, hmatches⟩
    · simp only [commentsShareRequestTag, Bool.and_eq_true, decide_eq_true_eq] at hshares
      exact hcomment (htag.symm.trans hshares.2)
    · simp only [commentMatchesRequestId, Bool.and_eq_true, decide_eq_true_eq] at hmatches
      exact hsignal (htag.symm.trans hmatches.2)

/-- A position whose tag is shared is the order's own. -/
theorem own_of_shared (h : (targetComment query ≠ [] ∧
      commentsShareRequestTag u (rowComment row) (targetComment query) = true) ∨
    (query.signalId ≠ [] ∧ commentMatchesRequestId u (rowComment row) query.signalId = true)) :
    Own u query row := by
  unfold Own matchKind
  by_cases hsame : targetComment query ≠ [] ∧ rowComment row = targetComment query
  · rw [if_pos hsame]
    exact Or.inl rfl
  · rw [if_neg hsame, if_pos h]
    exact Or.inr rfl

/-- Any other position with a well-formed comment names another request. -/
theorem foreign_iff_of_not_own (h : ¬Own u query row) :
    Foreign u query row ↔ parseTradeComment u (rowComment row) ≠ none := by
  constructor
  · rintro ⟨parsed, hparsed, -⟩
    rw [hparsed]
    exact Option.some_ne_none parsed
  · intro hsome
    obtain ⟨parsed, hparsed⟩ := Option.ne_none_iff_exists'.mp hsome
    have htag := extract_of_parsed hparsed
    have hne := requestTag_ne_nil hparsed
    refine ⟨parsed, hparsed, ?_, ?_⟩
    · intro hsame
      apply h
      refine own_of_shared (Or.inl ⟨?_, ?_⟩)
      · intro hempty
        rw [hempty, extract_nil] at hsame
        exact hne hsame
      · simp [commentsShareRequestTag, htag, ← hsame, hne]
    · intro hsame
      apply h
      refine own_of_shared (Or.inr ⟨?_, ?_⟩)
      · intro hempty
        rw [hempty, normalizeRequestTag_nil] at hsame
        exact hne hsame
      · simp [commentMatchesRequestId, htag, ← hsame, hne]

end Tags

section Lists

variable {u : Unicode} {positions : List LivePosition} {query : OrderQuery}

theorem mem_matchesOf {kind : MatchKind} {row : LivePosition} :
    row ∈ matchesOf u positions query kind ↔
      row ∈ candidates u positions query ∧ matchKind u query row = kind := by
  unfold matchesOf
  rw [List.mem_filter, decide_eq_true_eq]

/-- With an own position only own positions are preferred. -/
theorem own_of_mem_preferred (h : ∃ row ∈ candidates u positions query, Own u query row)
    {row : LivePosition} (hrow : row ∈ preferred u positions query) : Own u query row := by
  unfold preferred at hrow
  by_cases hexact : matchesOf u positions query .exact ≠ []
  · rw [if_pos hexact] at hrow
    exact Or.inl (mem_matchesOf.mp hrow).2
  · rw [if_neg hexact] at hrow
    have htags : matchesOf u positions query .requestTag ≠ [] := by
      obtain ⟨own, hown, hkind | hkind⟩ := h
      · have hmem := mem_matchesOf.mpr ⟨hown, hkind⟩
        rw [not_not.mp hexact] at hmem
        cases hmem
      · exact List.ne_nil_of_mem (mem_matchesOf.mpr ⟨hown, hkind⟩)
    rw [if_pos htags] at hrow
    exact Or.inr (mem_matchesOf.mp hrow).2

theorem matchKind_of_not_own {row : LivePosition} (h : ¬Own u query row) :
    matchKind u query row =
      if commentMatchesSemantics u (rowComment row) query.timeframe query.strategy then .semantic
      else .directional := by
  unfold Own at h
  rw [not_or] at h
  obtain ⟨hexact, htag⟩ := h
  unfold matchKind at hexact htag ⊢
  split_ifs at hexact htag ⊢
  · exact absurd rfl hexact
  · exact absurd rfl hexact
  · exact absurd rfl htag
  · exact absurd rfl htag
  · rfl
  · rfl

/-- Without an own position the lookup falls back to the positions of its timeframe and
strategy, and to the only one. -/
theorem preferred_of_not_own (h : ∀ row ∈ candidates u positions query, ¬Own u query row) :
    preferred u positions query =
      let similar := (candidates u positions query).filter fun row =>
        commentMatchesSemantics u (rowComment row) query.timeframe query.strategy
      if similar ≠ [] then similar
      else if (candidates u positions query).length = 1 then candidates u positions query
      else [] := by
  have hnone : ∀ kind, kind = .exact ∨ kind = .requestTag → matchesOf u positions query kind = [] := by
    intro kind hkind
    rw [List.eq_nil_iff_forall_not_mem]
    intro row hrow
    obtain ⟨hcandidate, hmatch⟩ := mem_matchesOf.mp hrow
    rcases hkind with rfl | rfl
    · exact h row hcandidate (Or.inl hmatch)
    · exact h row hcandidate (Or.inr hmatch)
  have hsemantic : matchesOf u positions query .semantic =
      (candidates u positions query).filter fun row =>
        commentMatchesSemantics u (rowComment row) query.timeframe query.strategy := by
    apply List.filter_congr
    intro row hrow
    rw [matchKind_of_not_own (h row hrow)]
    split_ifs with hsimilar
    · simp [hsimilar]
    · simp [hsimilar]
  unfold preferred
  rw [hnone .exact (Or.inl rfl), hnone .requestTag (Or.inr rfl), hsemantic,
    if_neg (not_not.mpr rfl), if_neg (not_not.mpr rfl)]
  dsimp only
  by_cases hsimilar : (candidates u positions query).filter (fun row =>
      commentMatchesSemantics u (rowComment row) query.timeframe query.strategy) = []
  · have hdirectional : matchesOf u positions query .directional = candidates u positions query := by
      unfold matchesOf
      rw [List.filter_eq_self]
      intro row hrow
      have hnot := List.filter_eq_nil_iff.mp hsimilar row hrow
      rw [matchKind_of_not_own (h row hrow), if_neg hnot]
      rfl
    rw [if_neg (not_not.mpr hsimilar), if_neg (not_not.mpr hsimilar), hdirectional]
  · rw [if_pos hsimilar, if_pos hsimilar]

theorem find_eq_some_iff {row : LivePosition} :
    findLivePositionForPendingOrder u positions query = some row ↔
      IsLatest timeKey (preferred u positions query) row :=
  getLast?_insertionSort _ row

theorem not_foreign_iff_of_not_own {row : LivePosition} (h : ¬Own u query row) :
    ¬Foreign u query row ↔ parseTradeComment u (rowComment row) = none := by
  rw [foreign_iff_of_not_own h, not_not]

theorem not_isLatest_nil {row : LivePosition} : ¬IsLatest timeKey [] row := by
  intro hrow
  cases hrow.mem

/-- The lookup names no position of another request exactly under the condition. -/
theorem find_own_iff :
    (∀ row, findLivePositionForPendingOrder u positions query = some row →
      ¬Foreign u query row) ↔ Attributable u positions query := by
  simp only [find_eq_some_iff]
  by_cases hown : ∃ row ∈ candidates u positions query, Own u query row
  · refine iff_of_true ?_ (Or.inl hown)
    intro row hrow
    exact not_foreign_of_own (own_of_mem_preferred hown hrow.mem)
  · have hothers : ∀ row ∈ candidates u positions query, ¬Own u query row := by
      intro row hrow howned
      exact hown ⟨row, hrow, howned⟩
    unfold Attributable
    have hplain : ∀ row ∈ candidates u positions query,
        ¬Foreign u query row ↔ parseTradeComment u (rowComment row) = none :=
      fun row hrow => not_foreign_iff_of_not_own (hothers row hrow)
    rw [or_iff_right hown, preferred_of_not_own hothers]
    dsimp only
    by_cases hsimilar : (candidates u positions query).filter (fun row =>
        commentMatchesSemantics u (rowComment row) query.timeframe query.strategy) = []
    · have hnone : ∀ row ∈ candidates u positions query, ¬Similar u query row :=
        List.filter_eq_nil_iff.mp hsimilar
      rw [if_neg (not_not.mpr hsimilar), hsimilar]
      simp only [not_isLatest_nil, false_implies, implies_true, true_and]
      rw [imp_iff_right hnone]
      split_ifs with honly
      · obtain ⟨only, hcandidates⟩ := List.length_eq_one_iff.mp honly
        have hmem : only ∈ candidates u positions query := by simp [hcandidates]
        rw [hcandidates]
        constructor
        · intro h row hrow
          rw [← List.singleton_injective hrow]
          exact (hplain only hmem).mp (h only (isLatest_cons.mpr (Or.inl ⟨rfl, by simp⟩)))
        · intro h row hrow
          rw [List.mem_singleton.mp hrow.mem]
          exact (hplain only hmem).mpr (h only rfl)
      · constructor
        · intro _ row hrow
          rw [hrow] at honly
          exact absurd rfl honly
        · intro _ row hrow
          exact absurd hrow not_isLatest_nil
    · rw [if_pos hsimilar]
      obtain ⟨other, hother⟩ := List.exists_mem_of_ne_nil _ hsimilar
      obtain ⟨hcandidate, hmatches⟩ := List.mem_filter.mp hother
      constructor
      · intro h
        refine ⟨?_, ?_⟩
        · intro row hrow
          exact (hplain row (List.mem_filter.mp hrow.mem).1).mp (h row hrow)
        · intro hnone
          exact absurd hmatches (hnone other hcandidate)
      · rintro ⟨h, -⟩ row hrow
        exact (hplain row (List.mem_filter.mp hrow.mem).1).mpr (h row hrow)

end Lists

/-- An order that the broker no longer lists is reported as filled by its own position, or
by one without a well-formed comment, exactly under the condition. -/
theorem filled_own_iff (u : Unicode) (info : PendingOrderInfo) (orders : List (Option ℤ))
    (positions : List LivePosition) (tracked : Option (List ℤ)) (outcomeTracker : Bool)
    (hgone : some info.ticket ∉ orders) :
    FilledOwn u info orders positions tracked outcomeTracker ↔
      Attributable u positions (queryOf u info) := by
  rw [← find_own_iff]
  unfold FilledOwn inspectPendingMt5Order
  dsimp only
  rw [if_neg hgone]
  cases hfind : findLivePositionForPendingOrder u positions (queryOf u info) with
  | none => simp
  | some found =>
    simp only [filledBy, OrderState.filled.injEq, Option.some.injEq, forall_eq']
    constructor
    · intro h
      obtain ⟨row, rfl, -, -, hrow⟩ := h _ _ ⟨rfl, rfl⟩
      exact hrow
    · rintro h ticket fillPrice ⟨rfl, rfl⟩
      exact ⟨found, rfl, rfl, rfl, h⟩

section Built

/-- A position whose comment was built for an ASCII request is foreign when the tag of that
request is another one. -/
theorem foreign_iff_of_built {u : CasedUnicode} {query : OrderQuery} {row : LivePosition}
    {requestId : Text} {context : CommentContext} (hascii : ∀ c ∈ requestId, c.toNat < 128)
    (halnum : ∃ c ∈ requestId, u.isAlnum c = true)
    (hcomment : row.comment = buildTradeComment u.toUnicode requestId context) :
    Foreign u.toUnicode query row ↔
      normalizeRequestTag u.toUnicode requestId 8 ≠
          extractCommentRequestTag u.toUnicode (targetComment query) ∧
        normalizeRequestTag u.toUnicode requestId 8 ≠
          normalizeRequestTag u.toUnicode query.signalId 8 := by
  have hparse := parse_buildTradeComment context (settled_of_ascii hascii) (tag_ne_nil hascii halnum)
  unfold Foreign rowComment
  rw [hcomment, stripText_buildTradeComment, hparse]
  simp

end Built

section Example

/-- What both signals of the example are about. -/
def limitContext : CommentContext :=
  ⟨"M5".toList, "trend_rider".toList, "buy".toList, "limit".toList, []⟩

/-- A tracked limit order that the broker no longer lists. -/
def goneOrder : PendingOrderInfo where
  ticket := 7001
  symbol := "XAUUSD".toList
  direction := "buy".toList
  comment := buildTradeComment casedAscii.toUnicode "aaaa1111".toList limitContext
  signalId := "aaaa1111".toList
  timeframe := "M5".toList
  strategy := "trend_rider".toList

/-- A position that another signal of the same strategy has opened. -/
def otherPosition : LivePosition where
  ticket := 202
  symbol := "XAUUSD".toList
  time := 1000
  priceOpen := 2000
  volume := 1 / 10
  comment := buildTradeComment casedAscii.toUnicode "bbbb2222".toList limitContext

theorem filled_own_iff_gone :
    FilledOwn casedAscii.toUnicode goneOrder [some 7002]
        [otherPosition, { otherPosition with comment := goneOrder.comment }] none false ↔
      Attributable casedAscii.toUnicode
        [otherPosition, { otherPosition with comment := goneOrder.comment }]
        (queryOf casedAscii.toUnicode goneOrder) :=
  filled_own_iff _ goneOrder [some 7002] _ none false (by decide)

/-- The order was cancelled at the broker, and is reported as filled by the other position. -/
theorem cancelled_order_reported_filled :
    ¬∀ (u : CasedUnicode) (info : PendingOrderInfo) (orders : List (Option ℤ))
        (positions : List LivePosition) (tracked : Option (List ℤ)) (outcomeTracker : Bool),
        (∀ row ∈ positions, ∃ requestId context,
          row.comment = buildTradeComment u.toUnicode requestId context) →
        some info.ticket ∉ orders →
        FilledOwn u.toUnicode info orders positions tracked outcomeTracker := by
  intro h
  have hfind : findLivePositionForPendingOrder casedAscii.toUnicode [otherPosition]
      (queryOf casedAscii.toUnicode goneOrder) = some otherPosition := by decide +kernel
  have hother : (parseTradeComment casedAscii.toUnicode (rowComment otherPosition)).any
      (fun parsed => parsed.requestTag ≠ extractCommentRequestTag casedAscii.toUnicode
          (targetComment (queryOf casedAscii.toUnicode goneOrder)) ∧
        parsed.requestTag ≠ normalizeRequestTag casedAscii.toUnicode
          (queryOf casedAscii.toUnicode goneOrder).signalId 8) = true := by decide +kernel
  obtain ⟨parsed, hparsed, htags⟩ := (Option.any_eq_true _ _).mp hother
  have hown := h casedAscii goneOrder [] [otherPosition] none false
    (by simpa using ⟨"bbbb2222".toList, limitContext, rfl⟩) (by simp)
  obtain ⟨row, hrow, -, -, hnot⟩ := hown 202 2000 (by
    unfold inspectPendingMt5Order
    simp only [List.not_mem_nil, if_false, hfind]
    rfl)
  rw [hfind] at hrow
  obtain rfl := Option.some.inj hrow
  exact hnot ⟨parsed, hparsed, of_decide_eq_true htags⟩

end Example

end MT5Services.OrderInspection
