import MT5Services.PyText

/-!
The comment that a trade carries at the broker: scope, strategy label, action and request
tag, joined by underscores. The tag is what is left of the request id: its first eight
letters and digits, in lower case. Reading the comment back gives that tag, as long as
lowering the letters leaves letters and digits; a comment without such a tag has none.
-/
namespace MT5Services.TradeComments

open PyText

/-- Texts are lists of characters here. -/
abbrev Text := List Char

/-- The class `[a-z0-9]` of a pattern that ignores case. -/
def isTagChar (c : Char) : Bool :=
  c.isAlphanum || [304, 305, 383, 8490].contains c.toNat

/-- `str.isalnum`, `str.lower` and `str.upper`, with what Unicode promises of them. -/
structure Unicode where
  isAlnum : Char → Bool
  lower : Text → Text
  upper : Text → Text
  isAlnum_tag : ∀ c, isTagChar c = true → isAlnum c = true
  isAlnum_underscore : isAlnum '_' = false
  isAlnum_space : ∀ c, isAlnum c = true → isSpace c = false
  /-- Lowering letters and digits gives neither underscores nor spaces. -/
  lower_alnum : ∀ text, (∀ c ∈ text, isAlnum c = true) →
    ∀ c ∈ lower text, c ≠ '_' ∧ isSpace c = false
  /-- What is lowered stays as it is, and so does every front part of it. -/
  lower_front : ∀ text front, front <+: lower text → lower front = front
  /-- An underscore separates what is lowered. -/
  lower_split : ∀ front back, lower (front ++ '_' :: back) = lower front ++ '_' :: lower back
  lower_side : ∀ c ∈ ['b', 's', 't'], ∀ text, ∃ rest, lower (c :: text) = c :: rest

/-- `str.strip`. -/
def stripText (text : Text) : Text := (text.dropWhile isSpace).rdropWhile isSpace

/-- What the comment is made of besides the request id. -/
structure CommentContext where
  timeframe : Text
  strategy : Text
  side : Text
  orderKind : Text
  comment : Text

structure ParsedTradeComment where
  raw : Text
  scope : Text
  label : Text
  action : Text
  requestTag : Text

section Codec

variable (u : Unicode)

def normalizeRequestTag (requestId : Text) (maxLength : ℕ) : Text :=
  (u.lower (requestId.filter u.isAlnum)).take (max 1 maxLength)

/-- The words of `_COMMENT_TOKEN_RE.split`. -/
def labelTokens (value : Text) : List Text :=
  ((u.lower value).splitOnP fun c => !c.isAlphanum).filter fun token => token ≠ []

/-- Three characters of the first token and two of each later one, while room remains. -/
def tokenParts : List Text → ℕ → ℕ → Text
  | [], _, _ => []
  | token :: rest, count, remaining =>
    if remaining = 0 then []
    else
      let part := token.take (min count remaining)
      part ++ tokenParts rest 2 (remaining - part.length)

/-- `_legacy_compact_label` with eight characters. -/
def legacyCompactLabel (value : Text) : Text :=
  match labelTokens u value with
  | [] => "trade".toList.take 8
  | [token] => token.take 8
  | tokens =>
    let label := tokenParts tokens 3 8
    (if label = [] then tokens.flatten.take 8 else label).take 8

/-- The only entry of `_STRATEGY_ALIAS`. -/
def compactCommentLabel (value : Text) : Text :=
  if value = "structured_price_action".toList then "pa".toList.take 8
  else legacyCompactLabel u value

def normalizeScope (timeframe : Text) : Text :=
  let cleaned := (u.upper timeframe).filter u.isAlnum
  (if cleaned = [] then "TR".toList else cleaned).take 3

def sideCode (side : Text) : Char :=
  if u.lower (stripText side) = "buy".toList then 'b'
  else if u.lower (stripText side) = "sell".toList then 's'
  else 't'

def kindCode (orderKind : Text) : Char :=
  let kind := (u.lower (stripText orderKind)).map fun c => if c = '-' then '_' else c
  if kind = "market".toList then 'm'
  else if kind = "limit".toList then 'l'
  else if kind = "stop".toList then 's'
  else if kind = "stop_limit".toList || kind = "stoplimit".toList then 'p'
  else (kind.filter u.isAlnum).headD 'm'

def normalizeAction (side orderKind : Text) : Text := [sideCode u side, kindCode u orderKind]

/-- `strategy or comment or "trade"`. -/
def labelSource (context : CommentContext) : Text :=
  if context.strategy ≠ [] then context.strategy
  else if context.comment ≠ [] then context.comment
  else "trade".toList

def commentParts (requestId : Text) (context : CommentContext) : List Text :=
  [normalizeScope u context.timeframe,
    compactCommentLabel u (labelSource context),
    normalizeAction u context.side context.orderKind,
    normalizeRequestTag u requestId 8]

def maxCommentLength : ℕ := 27

def buildTradeComment (requestId : Text) (context : CommentContext) : Text :=
  (['_'].intercalate ((commentParts u requestId context).filter fun part => part ≠ [])).take
    maxCommentLength

def parseTradeComment (comment : Text) : Option ParsedTradeComment :=
  let raw := stripText comment
  if raw = [] then none
  else
    match raw.splitOn '_' with
    | [scope, label, action, requestTag] =>
      let normalizedTag := normalizeRequestTag u requestTag requestTag.length
      if 3 < scope.length || 8 < label.length || 8 < requestTag.length then none
      else if scope = [] || label = [] || action.length ≠ 2 || normalizedTag = [] then none
      else if normalizedTag ≠ u.lower requestTag then none
      else some ⟨raw, u.upper scope, u.lower label, u.lower action, u.lower requestTag⟩
    | _ => none

/-- The tag of an old comment, out of what stands after the last underscore. -/
def tagAfterR : Text → Text
  | [] => []
  | r :: tag =>
    if (r = 'r' || r = 'R') && tag ≠ [] && tag.length ≤ 8 && tag.all isTagChar then u.lower tag
    else []

/-- The group of `_LEGACY_REQUEST_TAG_RE`. -/
def legacyRequestTag (raw : Text) : Text :=
  if '_' ∈ raw then tagAfterR u (raw.rtakeWhile fun c => c ≠ '_') else []

def extractCommentRequestTag (comment : Text) : Text :=
  match parseTradeComment u comment with
  | some parsed => parsed.requestTag
  | none => legacyRequestTag u (u.lower (stripText comment))

def commentsShareRequestTag (left right : Text) : Bool :=
  extractCommentRequestTag u left ≠ [] && extractCommentRequestTag u right ≠ [] &&
    extractCommentRequestTag u left = extractCommentRequestTag u right

def commentMatchesRequestId (comment requestId : Text) : Bool :=
  normalizeRequestTag u requestId 8 ≠ [] &&
    extractCommentRequestTag u comment = normalizeRequestTag u requestId 8

/-- The tag reads back: normalising it again changes nothing. -/
def Settled (tag : Text) : Prop := normalizeRequestTag u tag tag.length = tag

instance (tag : Text) : Decidable (Settled u tag) :=
  inferInstanceAs (Decidable (normalizeRequestTag u tag tag.length = tag))

end Codec

section Parts

variable {u : Unicode}

variable {requestId : Text} {c : Char}

theorem mem_normalizeRequestTag {n : ℕ}
    (h : c ∈ normalizeRequestTag u requestId n) : c ≠ '_' ∧ isSpace c = false := by
  apply u.lower_alnum (requestId.filter u.isAlnum)
  · intro d hd
    exact (List.mem_filter.mp hd).2
  · exact List.mem_of_mem_take h

theorem length_normalizeRequestTag_le (requestId : Text) (n : ℕ) :
    (normalizeRequestTag u requestId n).length ≤ max 1 n :=
  List.length_take_le _ _

/-- A tag is in lower case. -/
theorem lower_normalizeRequestTag (requestId : Text) (n : ℕ) :
    u.lower (normalizeRequestTag u requestId n) = normalizeRequestTag u requestId n :=
  u.lower_front _ _ ( List.take_prefix _ _)

/-- Letters and digits in lower case are a tag that reads back. -/
theorem settled_of_alnum {tag : Text} (hlower : u.lower tag = tag)
    (halnum : ∀ c ∈ tag, u.isAlnum c = true) : Settled u tag := by
  unfold Settled normalizeRequestTag
  rw [List.filter_eq_self.mpr halnum, hlower]
  exact List.take_of_length_le (le_max_right _ _)

theorem of_isAlnum (h : u.isAlnum c = true) : c ≠ '_' ∧ isSpace c = false := by
  refine ⟨?_, u.isAlnum_space c h⟩
  rintro rfl
  rw [u.isAlnum_underscore] at h
  cases h

theorem mem_normalizeScope {timeframe : Text} (h : c ∈ normalizeScope u timeframe) :
    c ≠ '_' ∧ isSpace c = false := by
  unfold normalizeScope at h
  dsimp only at h
  have hmem := List.mem_of_mem_take h
  split at hmem
  · have hdefault : ∀ c ∈ "TR".toList, c ≠ '_' ∧ isSpace c = false := by simp [isSpace]
    exact hdefault c hmem
  · exact of_isAlnum (List.mem_filter.mp hmem).2

theorem length_normalizeScope (timeframe : Text) :
    1 ≤ (normalizeScope u timeframe).length ∧ (normalizeScope u timeframe).length ≤ 3 := by
  unfold normalizeScope
  dsimp only
  split
  · decide
  · rename_i hne
    have hpos := List.length_pos_iff.mpr hne
    rw [List.length_take]
    omega

/-- A character of a piece between separators is one of the text, and no separator. -/
theorem mem_of_mem_splitOnP {p : Char → Bool} {text part : Text} (h : part ∈ text.splitOnP p) :
    ∀ c ∈ part, c ∈ text ∧ p c = false := by
  induction text generalizing part with
  | nil =>
    rw [List.splitOnP_nil, List.mem_singleton] at h
    rw [h]
    intro c hc
    cases hc
  | cons first rest ih =>
    have hlater : ∀ c, c ∈ rest ∧ p c = false → c ∈ first :: rest ∧ p c = false :=
      fun c hc => ⟨List.mem_cons_of_mem first hc.1, hc.2⟩
    rw [List.splitOnP_cons_eq_if_modifyHead] at h
    split at h
    · rcases List.mem_cons.mp h with rfl | hrest
      · intro c hc
        cases hc
      · exact fun c hc => hlater c (ih hrest c hc)
    · rename_i hfirst
      cases hparts : rest.splitOnP p with
      | nil => exact absurd hparts (List.splitOnP_ne_nil p rest)
      | cons head tail =>
        rw [hparts] at h ih
        rcases List.mem_cons.mp h with rfl | htail
        · intro c hc
          rcases List.mem_cons.mp hc with rfl | hold
          · exact ⟨List.mem_cons_self, by simpa using hfirst⟩
          · exact hlater c (ih List.mem_cons_self c hold)
        · exact fun c hc => hlater c (ih (List.mem_cons_of_mem _ htail) c hc)

theorem mem_labelTokens {value token : Text} (h : token ∈ labelTokens u value) :
    token ≠ [] ∧ ∀ c ∈ token, c.isAlphanum = true := by
  obtain ⟨hpart, hne⟩ := List.mem_filter.mp h
  refine ⟨of_decide_eq_true hne, ?_⟩
  intro c hc
  have hnot := (mem_of_mem_splitOnP hpart c hc).2
  simpa using hnot

theorem mem_tokenParts {tokens : List Text} {count remaining : ℕ}
    (h : c ∈ tokenParts tokens count remaining) : ∃ token ∈ tokens, c ∈ token := by
  induction tokens generalizing count remaining with
  | nil => cases h
  | cons token rest ih =>
    rw [tokenParts] at h
    split at h
    · cases h
    · rcases List.mem_append.mp h with hfirst | hrest
      · exact ⟨token, List.mem_cons_self, List.mem_of_mem_take hfirst⟩
      · obtain ⟨other, hother, hmem⟩ := ih hrest
        exact ⟨other, List.mem_cons_of_mem _ hother, hmem⟩

/-- A label has one to eight letters and digits. -/
structure IsLabel (label : Text) : Prop where
  alnum : ∀ c ∈ label, c.isAlphanum = true
  length_pos : 1 ≤ label.length
  length_le : label.length ≤ 8

theorem isLabel_take {text : Text} (halnum : ∀ c ∈ text, c.isAlphanum = true) (hne : text ≠ []) :
    IsLabel (text.take 8) := by
  have hpos := List.length_pos_iff.mpr hne
  refine ⟨fun c hc => halnum c (List.mem_of_mem_take hc), ?_, List.length_take_le 8 _⟩
  rw [List.length_take]
  omega

theorem isLabel_legacyCompactLabel (value : Text) : IsLabel (legacyCompactLabel u value) := by
  have hword {text : Text} (htext : ∀ c ∈ text, ∃ token ∈ labelTokens u value, c ∈ token) :
      ∀ c ∈ text, c.isAlphanum = true := by
    intro c hc
    obtain ⟨token, htoken, hmem⟩ := htext c hc
    exact (mem_labelTokens htoken).2 c hmem
  unfold legacyCompactLabel
  split
  · exact isLabel_take (List.all_eq_true.mp (by decide)) (by decide)
  · rename_i token htokens
    have htoken : token ∈ labelTokens u value := by simp [htokens]
    exact isLabel_take (mem_labelTokens htoken).2 (mem_labelTokens htoken).1
  · rename_i hnone _
    dsimp only
    split
    · apply isLabel_take
      · apply hword
        intro c hc
        exact List.mem_flatten.mp (List.mem_of_mem_take hc)
      · intro htaken
        have hflat := (List.take_eq_nil_iff.mp htaken).resolve_left (by decide)
        cases htokens : labelTokens u value with
        | nil => exact hnone htokens
        | cons token rest =>
          have htoken : token ∈ labelTokens u value := by simp [htokens]
          have hempty := List.flatten_eq_nil_iff.mp hflat token htoken
          exact (mem_labelTokens htoken).1 hempty
    · rename_i hlabel
      apply isLabel_take _ hlabel
      apply hword
      intro c hc
      exact mem_tokenParts hc

theorem isLabel_compactCommentLabel (value : Text) : IsLabel (compactCommentLabel u value) := by
  unfold compactCommentLabel
  split
  · exact isLabel_take (List.all_eq_true.mp (by decide)) (by decide)
  · exact isLabel_legacyCompactLabel value

theorem isAlnum_of_isAlphanum (u : Unicode) (h : c.isAlphanum = true) : u.isAlnum c = true :=
  u.isAlnum_tag c (by simp [isTagChar, h])

theorem isAlnum_kindCode (orderKind : Text) : u.isAlnum (kindCode u orderKind) = true := by
  have hfiltered (kind : Text) : u.isAlnum ((kind.filter u.isAlnum).headD 'm') = true := by
    cases hkind : kind.filter u.isAlnum with
    | nil => exact isAlnum_of_isAlphanum u (by decide)
    | cons c rest =>
      have hmem : c ∈ kind.filter u.isAlnum := by simp [hkind]
      exact (List.mem_filter.mp hmem).2
  unfold kindCode
  dsimp only
  split_ifs
  all_goals first | exact isAlnum_of_isAlphanum u (by decide) | exact hfiltered _

theorem sideCode_mem (side : Text) : sideCode u side ∈ ['b', 's', 't'] := by
  unfold sideCode
  split_ifs
  all_goals decide

theorem isAlnum_normalizeAction (side orderKind : Text) :
    ∀ c ∈ normalizeAction u side orderKind, u.isAlnum c = true := by
  intro c hc
  rcases List.mem_cons.mp hc with rfl | hkind
  · have hside : ∀ d ∈ ['b', 's', 't'], d.isAlphanum = true :=
      List.all_eq_true.mp (by decide)
    exact isAlnum_of_isAlphanum u (hside _ (sideCode_mem side))
  · rw [List.mem_singleton.mp hkind]
    exact isAlnum_kindCode orderKind

/-- The parts of a comment: no underscore, no space, and room for all of them. -/
structure IsPart (part : Text) : Prop where
  mem : ∀ c ∈ part, c ≠ '_' ∧ isSpace c = false
  ne_nil : part ≠ []

theorem isPart_scope (timeframe : Text) : IsPart (normalizeScope u timeframe) :=
  ⟨fun _ hc => mem_normalizeScope hc,
    List.length_pos_iff.mp (length_normalizeScope timeframe).1⟩

theorem isPart_label (value : Text) : IsPart (compactCommentLabel u value) :=
  ⟨fun c hc => of_isAlnum (isAlnum_of_isAlphanum u ((isLabel_compactCommentLabel value).alnum c hc)),
    List.length_pos_iff.mp (isLabel_compactCommentLabel value).length_pos⟩

theorem isPart_action (side orderKind : Text) : IsPart (normalizeAction u side orderKind) :=
  ⟨fun c hc => of_isAlnum (isAlnum_normalizeAction side orderKind c hc), List.cons_ne_nil _ _⟩

theorem isPart_tag (h : normalizeRequestTag u requestId 8 ≠ []) :
    IsPart (normalizeRequestTag u requestId 8) :=
  ⟨fun _ hc => mem_normalizeRequestTag hc, h⟩

/-- The parts before the tag. -/
def contextParts (u : Unicode) (context : CommentContext) : List Text :=
  [normalizeScope u context.timeframe,
    compactCommentLabel u (labelSource context),
    normalizeAction u context.side context.orderKind]

theorem isPart_of_mem_contextParts {context : CommentContext} :
    ∀ part ∈ contextParts u context, IsPart part := by
  intro part hpart
  simp only [contextParts, List.mem_cons, List.not_mem_nil, or_false] at hpart
  rcases hpart with rfl | rfl | rfl
  · exact isPart_scope _
  · exact isPart_label _
  · exact isPart_action _ _

/-- The parts that a comment is joined of. -/
def presentParts (u : Unicode) (requestId : Text) (context : CommentContext) : List Text :=
  contextParts u context ++
    if normalizeRequestTag u requestId 8 = [] then [] else [normalizeRequestTag u requestId 8]

theorem filter_commentParts (requestId : Text) (context : CommentContext) :
    (commentParts u requestId context).filter (fun part => part ≠ []) =
      presentParts u requestId context := by
  have hparts : commentParts u requestId context =
      contextParts u context ++ [normalizeRequestTag u requestId 8] := rfl
  have hcontext : (contextParts u context).filter (fun part => part ≠ []) =
      contextParts u context := by
    apply List.filter_eq_self.mpr
    intro part hpart
    exact decide_eq_true (isPart_of_mem_contextParts part hpart).ne_nil
  rw [hparts, List.filter_append, hcontext, presentParts]
  congr 1
  by_cases htag : normalizeRequestTag u requestId 8 = []
  · rw [htag]
    rfl
  · rw [if_neg htag]
    simp [htag]

theorem isPart_of_mem_presentParts {context : CommentContext} :
    ∀ part ∈ presentParts u requestId context, IsPart part := by
  intro part hpart
  rcases List.mem_append.mp hpart with hcontext | htag
  · exact isPart_of_mem_contextParts part hcontext
  · split at htag
    · cases htag
    · rename_i hne
      rw [List.mem_singleton.mp htag]
      exact isPart_tag hne

/-- The parts fit: nothing is cut off. -/
theorem buildTradeComment_eq (requestId : Text) (context : CommentContext) :
    buildTradeComment u requestId context =
      ['_'].intercalate (presentParts u requestId context) := by
  have hscope := (length_normalizeScope (u := u) context.timeframe).2
  have hlabel := (isLabel_compactCommentLabel (u := u) (labelSource context)).length_le
  have htag := length_normalizeRequestTag_le (u := u) requestId 8
  have haction : (normalizeAction u context.side context.orderKind).length = 2 := rfl
  unfold buildTradeComment
  rw [filter_commentParts]
  apply List.take_of_length_le
  unfold presentParts contextParts maxCommentLength
  by_cases hnone : normalizeRequestTag u requestId 8 = []
  · rw [if_pos hnone]
    simp only [List.append_nil, List.intercalate_cons_cons, List.intercalate_singleton,
      List.length_append, List.length_singleton]
    omega
  · rw [if_neg hnone]
    simp only [List.cons_append, List.nil_append, List.intercalate_cons_cons,
      List.intercalate_singleton, List.length_append, List.length_singleton]
    omega

theorem splitOn_buildTradeComment (requestId : Text) (context : CommentContext) :
    (buildTradeComment u requestId context).splitOn '_' = presentParts u requestId context := by
  rw [buildTradeComment_eq]
  apply List.splitOn_intercalate
  · intro part hpart hmem
    exact ((isPart_of_mem_presentParts part hpart).mem '_' hmem).1 rfl
  · simp [presentParts, contextParts]

theorem mem_intercalate {separator c : Char} {parts : List Text}
    (h : c ∈ [separator].intercalate parts) : c = separator ∨ ∃ part ∈ parts, c ∈ part := by
  induction parts with
  | nil => cases h
  | cons first rest ih =>
    cases rest with
    | nil =>
      rw [List.intercalate_singleton] at h
      exact Or.inr ⟨first, List.mem_cons_self, h⟩
    | cons second rest =>
      rw [List.intercalate_cons_cons, List.append_assoc, List.mem_append] at h
      rcases h with hfirst | hrest
      · exact Or.inr ⟨first, List.mem_cons_self, hfirst⟩
      · rcases List.mem_cons.mp hrest with hsep | htail
        · exact Or.inl hsep
        · rcases ih htail with hsep | ⟨part, hpart, hmem⟩
          · exact Or.inl hsep
          · exact Or.inr ⟨part, List.mem_cons_of_mem _ hpart, hmem⟩

theorem stripText_eq_self {text : Text} (h : ∀ c ∈ text, isSpace c = false) :
    stripText text = text := by
  have hfront : text.dropWhile isSpace = text := by
    cases text with
    | nil => rfl
    | cons c rest => exact List.dropWhile_cons_of_neg (by simp [h c List.mem_cons_self])
  rw [stripText, hfront, List.rdropWhile_eq_self_iff]
  intro hne
  simp [h _ (List.getLast_mem hne)]

/-- A comment stands alone: there is no space in it. -/
theorem stripText_buildTradeComment (requestId : Text) (context : CommentContext) :
    stripText (buildTradeComment u requestId context) = buildTradeComment u requestId context := by
  apply stripText_eq_self
  intro c hc
  rw [buildTradeComment_eq] at hc
  rcases mem_intercalate hc with rfl | ⟨part, hpart, hmem⟩
  · decide
  · exact ((isPart_of_mem_presentParts part hpart).mem c hmem).2

theorem buildTradeComment_ne_nil (requestId : Text) (context : CommentContext) :
    buildTradeComment u requestId context ≠ [] := by
  intro hnil
  have hsplit := splitOn_buildTradeComment (u := u) requestId context
  rw [hnil, List.splitOn_nil] at hsplit
  have hlength := congrArg List.length hsplit
  rw [presentParts, List.length_append] at hlength
  have hthree : (contextParts u context).length = 3 := rfl
  have hone : ([[]] : List Text).length = 1 := rfl
  omega

/-- A comment without a tag has three parts, and is not one of the current form. -/
theorem parseTradeComment_of_nil (context : CommentContext)
    (h : normalizeRequestTag u requestId 8 = []) :
    parseTradeComment u (buildTradeComment u requestId context) = none := by
  unfold parseTradeComment
  rw [stripText_buildTradeComment]
  dsimp only
  rw [if_neg (buildTradeComment_ne_nil requestId context), splitOn_buildTradeComment]
  simp only [presentParts, contextParts, h, if_true, List.append_nil]

/-- A comment with a tag parses exactly when the tag reads back. -/
theorem parseTradeComment_of_ne (context : CommentContext)
    (h : normalizeRequestTag u requestId 8 ≠ []) :
    (parseTradeComment u (buildTradeComment u requestId context)).map ParsedTradeComment.requestTag =
      if Settled u (normalizeRequestTag u requestId 8) then
        some (normalizeRequestTag u requestId 8)
      else none := by
  have hscope := length_normalizeScope (u := u) context.timeframe
  have hlabel := isLabel_compactCommentLabel (u := u) (labelSource context)
  have htag := length_normalizeRequestTag_le (u := u) requestId 8
  have hlower := lower_normalizeRequestTag (u := u) requestId 8
  have haction : (normalizeAction u context.side context.orderKind).length = 2 := rfl
  unfold parseTradeComment
  rw [stripText_buildTradeComment]
  dsimp only
  rw [if_neg (buildTradeComment_ne_nil requestId context), splitOn_buildTradeComment]
  simp only [presentParts, contextParts, if_neg h, List.cons_append, List.nil_append]
  generalize htagEq : normalizeRequestTag u requestId 8 = tag at *
  have hlengths : (3 < (normalizeScope u context.timeframe).length ||
      8 < (compactCommentLabel u (labelSource context)).length || 8 < tag.length) = false := by
    have hle := hlabel.length_le
    simp only [Bool.or_eq_false_iff, decide_eq_false_iff_not]
    omega
  have hpresent : (decide (normalizeScope u context.timeframe = []) ||
      decide (compactCommentLabel u (labelSource context) = []) ||
      decide ((normalizeAction u context.side context.orderKind).length ≠ 2)) = false := by
    have hscopeNe : normalizeScope u context.timeframe ≠ [] := List.length_pos_iff.mp hscope.1
    have hlabelNe : compactCommentLabel u (labelSource context) ≠ [] :=
      List.length_pos_iff.mp hlabel.length_pos
    simp [hscopeNe, hlabelNe, haction]
  rw [hlengths, hpresent, hlower, Bool.false_or, if_neg Bool.false_ne_true]
  by_cases hsettled : Settled u tag
  · have hback : normalizeRequestTag u tag tag.length = tag := hsettled
    rw [hback, if_pos hsettled]
    simp [h]
  · have hother : normalizeRequestTag u tag tag.length ≠ tag := hsettled
    rw [if_neg hsettled]
    by_cases hnil : normalizeRequestTag u tag tag.length = []
    · simp [hnil]
    · simp [hnil, hother]

theorem rtakeWhile_append_separator (front : Text) {back : Text} (h : '_' ∉ back) :
    (front ++ '_' :: back).rtakeWhile (fun c => c ≠ '_') = back := by
  have hback : ∀ c ∈ back.reverse, decide (c ≠ '_') = true := by
    intro c hc
    apply decide_eq_true
    rintro rfl
    exact h (List.mem_reverse.mp hc)
  rw [List.rtakeWhile, List.reverse_append, List.reverse_cons, List.append_assoc,
    List.takeWhile_append_of_pos hback]
  simp

/-- The pattern of old comments looks at what stands after the last underscore. -/
theorem legacyRequestTag_append (front : Text) {back : Text} (h : '_' ∉ back) :
    legacyRequestTag u (front ++ '_' :: back) = tagAfterR u back := by
  unfold legacyRequestTag
  rw [if_pos (List.mem_append_right _ List.mem_cons_self), rtakeWhile_append_separator front h]

/-- A comment is what stands before its last part, an underscore, and that part. -/
theorem exists_front (requestId : Text) (context : CommentContext) :
    ∃ front, buildTradeComment u requestId context = front ++ '_' ::
      if normalizeRequestTag u requestId 8 = [] then
        normalizeAction u context.side context.orderKind
      else normalizeRequestTag u requestId 8 := by
  rw [buildTradeComment_eq, presentParts, contextParts]
  split
  · refine ⟨['_'].intercalate
      [normalizeScope u context.timeframe, compactCommentLabel u (labelSource context)], ?_⟩
    simp [List.intercalate_cons_cons, List.intercalate_singleton]
  · refine ⟨['_'].intercalate
      [normalizeScope u context.timeframe, compactCommentLabel u (labelSource context),
        normalizeAction u context.side context.orderKind], ?_⟩
    simp [List.intercalate_cons_cons, List.intercalate_singleton]

/-- The tag of an old comment is read neither off an action nor off a tag that does not
read back. -/
theorem legacyRequestTag_buildTradeComment (context : CommentContext)
    (h : normalizeRequestTag u requestId 8 = [] ∨
      ¬ Settled u (normalizeRequestTag u requestId 8)) :
    legacyRequestTag u (u.lower (stripText (buildTradeComment u requestId context))) = [] := by
  obtain ⟨front, hfront⟩ := exists_front (u := u) requestId context
  rw [stripText_buildTradeComment, hfront, u.lower_split]
  by_cases hnone : normalizeRequestTag u requestId 8 = []
  · rw [if_pos hnone, legacyRequestTag_append]
    · obtain ⟨rest, hrest⟩ := u.lower_side _ (sideCode_mem context.side)
        [kindCode u context.orderKind]
      have hside : ∀ d ∈ ['b', 's', 't'], d ≠ 'r' ∧ d ≠ 'R' := by simp
      obtain ⟨hlower, hupper⟩ := hside _ (sideCode_mem (u := u) context.side)
      rw [normalizeAction, hrest, tagAfterR]
      simp [hlower, hupper]
    · intro hmem
      exact (u.lower_alnum _ (isAlnum_normalizeAction _ _) '_' hmem).1 rfl
  · rw [if_neg hnone, lower_normalizeRequestTag, legacyRequestTag_append]
    · have hnot := h.resolve_left hnone
      have hback := lower_normalizeRequestTag (u := u) requestId 8
      generalize normalizeRequestTag u requestId 8 = tag at *
      cases tag with
      | nil => rfl
      | cons r rest =>
        rw [tagAfterR, if_neg]
        intro hmatch
        simp only [Bool.and_eq_true, Bool.or_eq_true, decide_eq_true_eq] at hmatch
        obtain ⟨⟨⟨hr, _⟩, _⟩, hall⟩ := hmatch
        apply hnot
        apply settled_of_alnum hback
        intro c hc
        apply u.isAlnum_tag
        rcases List.mem_cons.mp hc with rfl | hrest
        · rcases hr with rfl | rfl
          · decide
          · decide
        · exact List.all_eq_true.mp hall c hrest
    · intro hmem
      exact (mem_normalizeRequestTag hmem).1 rfl

/-- The tag read off a comment is the tag of its request id, or nothing. -/
theorem extractCommentRequestTag_buildTradeComment (requestId : Text) (context : CommentContext) :
    extractCommentRequestTag u (buildTradeComment u requestId context) =
      if Settled u (normalizeRequestTag u requestId 8) then normalizeRequestTag u requestId 8
      else [] := by
  have hnone : ∀ {comment : Text}, parseTradeComment u comment = none →
      extractCommentRequestTag u comment =
        legacyRequestTag u (u.lower (stripText comment)) := by
    intro comment hparse
    rw [extractCommentRequestTag, hparse]
  by_cases htag : normalizeRequestTag u requestId 8 = []
  · rw [hnone (parseTradeComment_of_nil context htag),
      legacyRequestTag_buildTradeComment context (Or.inl htag), htag]
    exact (ite_self _).symm
  · have hparse := parseTradeComment_of_ne (u := u) context htag
    by_cases hsettled : Settled u (normalizeRequestTag u requestId 8)
    · rw [if_pos hsettled] at hparse ⊢
      obtain ⟨parsed, hparsed, hequal⟩ := Option.map_eq_some_iff.mp hparse
      rw [extractCommentRequestTag, hparsed]
      exact hequal
    · rw [if_neg hsettled] at hparse ⊢
      rw [hnone (Option.map_eq_none_iff.mp hparse),
        legacyRequestTag_buildTradeComment context (Or.inr hsettled)]

end Parts

section Ascii

theorem toNat_toLower (c : Char) :
    c.toLower.toNat = if 65 ≤ c.toNat ∧ c.toNat ≤ 90 then c.toNat + 32 else c.toNat := by
  unfold Char.toLower
  by_cases h : c.val ≥ 'A'.val ∧ c.val ≤ 'Z'.val
  · have hnat : 65 ≤ c.toNat ∧ c.toNat ≤ 90 := h
    rw [dif_pos h, if_pos hnat]
    show (c.val + 32).toNat = c.val.toNat + 32
    rw [UInt32.toNat_add]
    have hle : c.val.toNat ≤ 90 := hnat.2
    have h32 : (32 : UInt32).toNat = 32 := rfl
    omega
  · have hnat : ¬ (65 ≤ c.toNat ∧ c.toNat ≤ 90) := h
    rw [dif_neg h, if_neg hnat]

theorem toLower_toLower (c : Char) : c.toLower.toLower = c.toLower := by
  apply Char.toNat_inj.mp
  rw [toNat_toLower, toNat_toLower]
  split_ifs
  all_goals omega

theorem isAlphanum_iff (c : Char) : c.isAlphanum = true ↔
    ((65 ≤ c.toNat ∧ c.toNat ≤ 90) ∨ (97 ≤ c.toNat ∧ c.toNat ≤ 122)) ∨
      (48 ≤ c.toNat ∧ c.toNat ≤ 57) := by
  show ((decide (c.val ≥ 65 ∧ c.val ≤ 90) || (decide (c.val ≥ 97) && decide (c.val ≤ 122))) ||
    (decide (c.val ≥ 48) && decide (c.val ≤ 57))) = true ↔ _
  simp only [Bool.or_eq_true, Bool.and_eq_true, decide_eq_true_eq]
  exact Iff.rfl

theorem isTagChar_iff (c : Char) : isTagChar c = true ↔
    (65 ≤ c.toNat ∧ c.toNat ≤ 90) ∨ (97 ≤ c.toNat ∧ c.toNat ≤ 122) ∨
      (48 ≤ c.toNat ∧ c.toNat ≤ 57) ∨ c.toNat = 304 ∨ c.toNat = 305 ∨ c.toNat = 383 ∨
      c.toNat = 8490 := by
  simp [isTagChar, isAlphanum_iff, or_assoc]

theorem isTagChar_toLower {c : Char} (h : isTagChar c = true) : isTagChar c.toLower = true := by
  rw [isTagChar_iff] at h ⊢
  rw [toNat_toLower]
  split_ifs
  all_goals omega

theorem of_isTagChar {c : Char} (h : isTagChar c = true) : c ≠ '_' ∧ isSpace c = false := by
  constructor
  · rintro rfl
    exact absurd h (by decide)
  · have hcode := (isTagChar_iff c).mp h
    simp only [isSpace, decide_eq_false_iff_not]
    omega

/-- Letters and case as for the texts of ASCII. -/
def ascii : Unicode where
  isAlnum := isTagChar
  lower := List.map Char.toLower
  upper := List.map Char.toUpper
  isAlnum_tag := fun _ h => h
  isAlnum_underscore := by decide
  isAlnum_space := fun _ h => (of_isTagChar h).2
  lower_alnum := by
    intro text htext c hc
    obtain ⟨d, hd, rfl⟩ := List.mem_map.mp hc
    exact of_isTagChar (isTagChar_toLower (htext d hd))
  lower_front := by
    intro text front hfront
    have hkeep : ∀ c ∈ front, c.toLower = id c := by
      intro c hc
      obtain ⟨d, _, rfl⟩ := List.mem_map.mp (hfront.subset hc)
      exact toLower_toLower d
    rw [List.map_congr_left hkeep, List.map_id]
  lower_split := by
    intro front back
    rw [List.map_append, List.map_cons]
    rfl
  lower_side := by
    intro c hc text
    have hside : ∀ d ∈ ['b', 's', 't'], d.toLower = d := by simp
    exact ⟨text.map Char.toLower, by rw [List.map_cons, hside c hc]⟩

end Ascii

end MT5Services.TradeComments
