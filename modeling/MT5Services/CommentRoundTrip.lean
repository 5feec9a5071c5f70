import MT5Services.TradeComments

/-!
A comment that is built for an ASCII request id parses, and what is read is what was written:
scope, label, action and tag. The parts come back because they are in their case already: a
text of characters that `upper` has given is in upper case, and likewise for `lower`. So the
comment matches its request id, and its timeframe and strategy when a strategy was named.
-/
namespace MT5Services.CommentRoundTrip

open TradeComments

/-- What `str.upper` and `str.lower` promise besides. -/
structure CasedUnicode extends Unicode where
  upper_settled : ∀ part, (∀ c ∈ part, ∃ text, c ∈ upper text) → upper part = part
  lower_settled : ∀ part, (∀ c ∈ part, ∃ text, c ∈ lower text) → lower part = part
  isAlnum_ascii : ∀ c, c.toNat < 128 → isAlnum c = c.isAlphanum
  upper_ascii : ∀ text, (∀ c ∈ text, c.toNat < 128) → upper text = text.map Char.toUpper
  lower_ascii : ∀ text, (∀ c ∈ text, c.toNat < 128) → lower text = text.map Char.toLower

section Codec

variable (u : Unicode)

/-- What a comment of the old form starts with. -/
def legacyPrefix (timeframe strategy : Text) : Text :=
  u.lower (stripText timeframe) ++ ':' :: (u.lower (stripText strategy) ++ [':'])

/-- `comment_matches_semantics`: the label of today or the one of old comments. -/
def commentMatchesSemantics (comment timeframe strategy : Text) : Bool :=
  match parseTradeComment u comment with
  | some parsed =>
    if parsed.scope ≠ normalizeScope u timeframe then false
    else if parsed.label = compactCommentLabel u strategy then true
    else legacyCompactLabel u strategy ≠ compactCommentLabel u strategy &&
      parsed.label = legacyCompactLabel u strategy
  | none => (legacyPrefix u timeframe strategy).isPrefixOf (u.lower (stripText comment))

/-- What is read off a comment is what it was built of. -/
structure RoundTrips (requestId : Text) (context : CommentContext) : Prop where
  length_le : (buildTradeComment u requestId context).length ≤ 27
  parsed : ∃ parsed, parseTradeComment u (buildTradeComment u requestId context) = some parsed ∧
    parsed.scope = normalizeScope u context.timeframe ∧
    parsed.label = compactCommentLabel u (labelSource context) ∧
    parsed.action = normalizeAction u context.side context.orderKind ∧
    parsed.requestTag = normalizeRequestTag u requestId 8
  matchesRequestId :
    commentMatchesRequestId u (buildTradeComment u requestId context) requestId = true
  matchesSemantics : context.strategy ≠ [] →
    commentMatchesSemantics u (buildTradeComment u requestId context) context.timeframe
      context.strategy = true

end Codec

section Parts

variable {u : CasedUnicode}

theorem upper_normalizeScope (timeframe : Text) :
    u.upper (normalizeScope u.toUnicode timeframe) = normalizeScope u.toUnicode timeframe := by
  apply u.upper_settled
  intro c hc
  unfold normalizeScope at hc
  dsimp only at hc
  have hmem := List.mem_of_mem_take hc
  split at hmem
  · refine ⟨"TR".toList, ?_⟩
    rw [u.upper_ascii "TR".toList (by simp)]
    have hsame : "TR".toList.map Char.toUpper = "TR".toList := by decide
    rwa [hsame]
  · exact ⟨timeframe, (List.mem_filter.mp hmem).1⟩

theorem mem_lower_of_mem_labelTokens {value token : Text}
    (h : token ∈ labelTokens u.toUnicode value) {c : Char} (hc : c ∈ token) : c ∈ u.lower value :=
  (mem_of_mem_splitOnP (List.mem_filter.mp h).1 c hc).1

theorem lower_of_ascii {text : Text} (hascii : ∀ c ∈ text, c.toNat < 128)
    (hlower : text.map Char.toLower = text) : u.lower text = text := by
  rw [u.lower_ascii text hascii, hlower]

/-- A label is taken from what was lowered. -/
theorem lower_legacyCompactLabel (value : Text) :
    u.lower (legacyCompactLabel u.toUnicode value) = legacyCompactLabel u.toUnicode value := by
  unfold legacyCompactLabel
  split
  · exact lower_of_ascii (by simp) (by decide)
  · rename_i token htokens
    have htoken : token ∈ labelTokens u.toUnicode value := by simp [htokens]
    apply u.lower_settled
    intro c hc
    exact ⟨value, mem_lower_of_mem_labelTokens htoken (List.mem_of_mem_take hc)⟩
  · dsimp only
    apply u.lower_settled
    intro c hc
    have hmem := List.mem_of_mem_take hc
    split at hmem
    · obtain ⟨token, htoken, hmem⟩ := List.mem_flatten.mp (List.mem_of_mem_take hmem)
      exact ⟨value, mem_lower_of_mem_labelTokens htoken hmem⟩
    · obtain ⟨token, htoken, hmem⟩ := mem_tokenParts hmem
      exact ⟨value, mem_lower_of_mem_labelTokens htoken hmem⟩

theorem lower_compactCommentLabel (value : Text) :
    u.lower (compactCommentLabel u.toUnicode value) = compactCommentLabel u.toUnicode value := by
  unfold compactCommentLabel
  split
  · exact lower_of_ascii (by simp) (by decide)
  · exact lower_legacyCompactLabel value

theorem mem_lower_self {c : Char} (hascii : c.toNat < 128) (hlower : c.toLower = c) :
    ∃ text, c ∈ u.lower text := by
  refine ⟨[c], ?_⟩
  rw [u.lower_ascii [c] (by simpa using hascii), List.map_singleton, hlower]
  exact List.mem_singleton_self c

/-- The code of an order kind is a fixed letter or one of the lowered kind. -/
theorem kindCode_mem_lower (orderKind : Text) :
    ∃ text, kindCode u.toUnicode orderKind ∈ u.lower text := by
  have hfiltered : ∃ text, (((u.lower (stripText orderKind)).map fun c =>
      if c = '-' then '_' else c).filter u.isAlnum).headD 'm' ∈ u.lower text := by
    cases hkind : ((u.lower (stripText orderKind)).map fun c =>
        if c = '-' then '_' else c).filter u.isAlnum with
    | nil => exact mem_lower_self (by decide) (by decide)
    | cons c rest =>
      have hmem : c ∈ ((u.lower (stripText orderKind)).map fun c =>
          if c = '-' then '_' else c).filter u.isAlnum := by simp [hkind]
      obtain ⟨hkind, halnum⟩ := List.mem_filter.mp hmem
      obtain ⟨d, hd, hc⟩ := List.mem_map.mp hkind
      by_cases hdash : d = '-'
      · rw [if_pos hdash] at hc
        rw [← hc, u.isAlnum_underscore] at halnum
        cases halnum
      · rw [if_neg hdash] at hc
        exact ⟨stripText orderKind, hc ▸ hd⟩
  unfold kindCode
  dsimp only
  split_ifs
  all_goals first | exact mem_lower_self (by decide) (by decide) | exact hfiltered

theorem lower_normalizeAction (side orderKind : Text) :
    u.lower (normalizeAction u.toUnicode side orderKind) =
      normalizeAction u.toUnicode side orderKind := by
  apply u.lower_settled
  intro c hc
  rcases List.mem_cons.mp hc with rfl | hkind
  · have hsides : ∀ d ∈ ['b', 's', 't'], d.toNat < 128 ∧ d.toLower = d := by simp
    obtain ⟨hascii, hlower⟩ := hsides _ (sideCode_mem (u := u.toUnicode) side)
    exact mem_lower_self hascii hlower
  · rw [List.mem_singleton.mp hkind]
    exact kindCode_mem_lower orderKind

theorem isAlphanum_toLower {c : Char} (h : c.isAlphanum = true) : c.toLower.isAlphanum = true := by
  rw [isAlphanum_iff] at h ⊢
  rw [toNat_toLower]
  split_ifs
  all_goals omega

/-- The tag of an ASCII request id consists of letters and digits, and reads back. -/
theorem settled_of_ascii {requestId : Text} (hascii : ∀ c ∈ requestId, c.toNat < 128) :
    Settled u.toUnicode (normalizeRequestTag u.toUnicode requestId 8) := by
  apply settled_of_alnum (lower_normalizeRequestTag requestId 8)
  intro c hc
  have hmem : c ∈ u.lower (requestId.filter u.isAlnum) := List.mem_of_mem_take hc
  rw [u.lower_ascii _ fun d hd => hascii d (List.mem_filter.mp hd).1] at hmem
  obtain ⟨d, hd, rfl⟩ := List.mem_map.mp hmem
  obtain ⟨hrequest, halnum⟩ := List.mem_filter.mp hd
  rw [u.isAlnum_ascii d (hascii d hrequest)] at halnum
  exact isAlnum_of_isAlphanum u.toUnicode (isAlphanum_toLower halnum)

theorem tag_ne_nil {requestId : Text} (hascii : ∀ c ∈ requestId, c.toNat < 128)
    (halnum : ∃ c ∈ requestId, u.isAlnum c = true) :
    normalizeRequestTag u.toUnicode requestId 8 ≠ [] := by
  obtain ⟨c, hc, hcalnum⟩ := halnum
  have hmem : c ∈ requestId.filter u.isAlnum := List.mem_filter.mpr ⟨hc, hcalnum⟩
  have hpos : 0 < (requestId.filter u.isAlnum).length := List.length_pos_of_mem hmem
  unfold normalizeRequestTag
  rw [u.lower_ascii _ fun d hd => hascii d (List.mem_filter.mp hd).1]
  apply List.ne_nil_of_length_pos
  rw [List.length_take, List.length_map]
  omega

end Parts

section RoundTrip

/-- A comment that parses has four parts, and they are read in upper or lower case. -/
theorem parsed_of_parts {u : Unicode} {comment scope label action requestTag : Text}
    {parsed : ParsedTradeComment} (h : parseTradeComment u comment = some parsed)
    (hsplit : (stripText comment).splitOn '_' = [scope, label, action, requestTag]) :
    parsed =
      ⟨stripText comment, u.upper scope, u.lower label, u.lower action, u.lower requestTag⟩ := by
  unfold parseTradeComment at h
  dsimp only at h
  split at h
  · cases h
  rw [hsplit] at h
  dsimp only at h
  split at h
  · cases h
  split at h
  · cases h
  split at h
  · cases h
  cases h
  rfl

theorem parse_buildTradeComment {u : CasedUnicode} {requestId : Text} (context : CommentContext)
    (hsettled : Settled u.toUnicode (normalizeRequestTag u.toUnicode requestId 8))
    (htag : normalizeRequestTag u.toUnicode requestId 8 ≠ []) :
    parseTradeComment u.toUnicode (buildTradeComment u.toUnicode requestId context) =
      some ⟨buildTradeComment u.toUnicode requestId context,
        normalizeScope u.toUnicode context.timeframe,
        compactCommentLabel u.toUnicode (labelSource context),
        normalizeAction u.toUnicode context.side context.orderKind,
        normalizeRequestTag u.toUnicode requestId 8⟩ := by
  have hread := parseTradeComment_of_ne context htag
  rw [if_pos hsettled] at hread
  obtain ⟨parsed, hparsed, _⟩ := Option.map_eq_some_iff.mp hread
  have hsplit : (stripText (buildTradeComment u.toUnicode requestId context)).splitOn '_' =
      [normalizeScope u.toUnicode context.timeframe,
        compactCommentLabel u.toUnicode (labelSource context),
        normalizeAction u.toUnicode context.side context.orderKind,
        normalizeRequestTag u.toUnicode requestId 8] := by
    rw [stripText_buildTradeComment, splitOn_buildTradeComment, presentParts, if_neg htag]
    rfl
  rw [hparsed, parsed_of_parts hparsed hsplit, stripText_buildTradeComment, upper_normalizeScope,
    lower_compactCommentLabel, lower_normalizeAction, lower_normalizeRequestTag]

theorem matchesSemantics_of_parsed {u : Unicode} {comment timeframe strategy : Text}
    {parsed : ParsedTradeComment} (h : parseTradeComment u comment = some parsed)
    (hscope : parsed.scope = normalizeScope u timeframe)
    (hlabel : parsed.label = compactCommentLabel u strategy) :
    commentMatchesSemantics u comment timeframe strategy = true := by
  rw [commentMatchesSemantics, h]
  dsimp only
  rw [if_neg (not_not.mpr hscope), if_pos hlabel]

/-- For an ASCII request id with a letter or digit, the comment reads back. -/
theorem comment_round_trips (u : CasedUnicode) (requestId : Text) (context : CommentContext)
    (hascii : ∀ c ∈ requestId, c.toNat < 128) (halnum : ∃ c ∈ requestId, u.isAlnum c = true) :
    RoundTrips u.toUnicode requestId context := by
  have hsettled := settled_of_ascii (u := u) hascii
  have htag := tag_ne_nil hascii halnum
  have hparse := parse_buildTradeComment context hsettled htag
  refine ⟨List.length_take_le _ _, ⟨_, hparse, rfl, rfl, rfl, rfl⟩, ?_, ?_⟩
  · rw [commentMatchesRequestId, extractCommentRequestTag_buildTradeComment, if_pos hsettled]
    simp [htag]
  · intro hstrategy
    refine matchesSemantics_of_parsed hparse rfl ?_
    rw [labelSource, if_pos hstrategy]

end RoundTrip

theorem toNat_toUpper (c : Char) :
    c.toUpper.toNat = if 97 ≤ c.toNat ∧ c.toNat ≤ 122 then c.toNat - 32 else c.toNat := by
  unfold Char.toUpper
  by_cases h : c.val ≥ 'a'.val ∧ c.val ≤ 'z'.val
  · have hnat : 97 ≤ c.toNat ∧ c.toNat ≤ 122 := h
    rw [dif_pos h, if_pos hnat]
    show (c.val + ('A'.val - 'a'.val)).toNat = c.val.toNat - 32
    rw [UInt32.toNat_add]
    have hbounds : 97 ≤ c.val.toNat ∧ c.val.toNat ≤ 122 := hnat
    have hshift : ('A'.val - 'a'.val).toNat = 2 ^ 32 - 32 := by decide
    omega
  · have hnat : ¬ (97 ≤ c.toNat ∧ c.toNat ≤ 122) := h
    rw [dif_neg h, if_neg hnat]

theorem toUpper_toUpper (c : Char) : c.toUpper.toUpper = c.toUpper := by
  apply Char.toNat_inj.mp
  rw [toNat_toUpper, toNat_toUpper]
  split_ifs
  all_goals omega

/-- What a mapping that settles has given it leaves as it is. -/
theorem map_eq_self_of_settles {f : Char → Char} (hf : ∀ c, f (f c) = f c) {part : Text}
    (h : ∀ c ∈ part, ∃ text : Text, c ∈ text.map f) : part.map f = part := by
  have hkeep : ∀ c ∈ part, f c = id c := by
    intro c hc
    obtain ⟨text, hmem⟩ := h c hc
    obtain ⟨d, _, rfl⟩ := List.mem_map.mp hmem
    exact hf d
  rw [List.map_congr_left hkeep, List.map_id]

/-- Letters and case as for the texts of ASCII. -/
def casedAscii : CasedUnicode where
  toUnicode := ascii
  upper_settled := fun _ h => map_eq_self_of_settles toUpper_toUpper h
  lower_settled := fun _ h => map_eq_self_of_settles toLower_toLower h
  isAlnum_ascii := by
    intro c hc
    have hother : [304, 305, 383, 8490].contains c.toNat = false := by
      simp only [List.contains_eq_mem, List.mem_cons, List.not_mem_nil, or_false,
        decide_eq_false_iff_not]
      omega
    show (c.isAlphanum || _) = _
    rw [hother, Bool.or_false]
  upper_ascii := fun _ _ => rfl
  lower_ascii := fun _ _ => rfl

def goldContext : CommentContext :=
  ⟨"m5".toList, "trend_rider".toList, " Buy".toList, "stop-limit".toList, []⟩

theorem comment_round_trips_gold :
    RoundTrips casedAscii.toUnicode "SIG_4f-09a2b7c1".toList goldContext :=
  comment_round_trips casedAscii "SIG_4f-09a2b7c1".toList goldContext (by simp)
    ⟨'S', by decide, by decide⟩

end MT5Services.CommentRoundTrip
