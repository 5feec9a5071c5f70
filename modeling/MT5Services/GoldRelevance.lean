import Mathlib.Data.List.Infix
import MT5Services.PyText

/-!
Which events bear on gold: the category holds one of the configured texts, or a keyword
stands in the name as a word of its own. Upper and lower case are those an ASCII text can
tell apart.
-/
namespace MT5Services.GoldRelevance

open PyText

/-- `EventSummary`, as `__post_init__` lets it be built. -/
structure EventSummary where
  name : String
  category : Option String
  name_ne : name ≠ ""
  category_ne : category ≠ some ""

def EventSummary.make? (name : String) (category : Option String) : Option EventSummary :=
  if h : name ≠ "" ∧ category ≠ some "" then some ⟨name, category, h.1, h.2⟩ else none

/-- `_parse_csv`. -/
def parseCsv (raw : String) : List String :=
  if raw = "" then []
  else
    let items := (raw.toList.splitOn ',').map fun item => lower (strip (String.ofList item))
    (items.filter (· ≠ "")).eraseDups

structure GoldRelevancePolicy where
  keywords : List String
  categories : List String

namespace GoldRelevancePolicy

def fromCsv (keywordsCsv categoriesCsv : String) : GoldRelevancePolicy where
  keywords := parseCsv keywordsCsv
  categories := parseCsv categoriesCsv

def isEmpty (policy : GoldRelevancePolicy) : Bool :=
  policy.keywords.isEmpty && policy.categories.isEmpty

end GoldRelevancePolicy

/-- A keyword as it is searched for: a letter, or the gap `[-\s]+`. -/
inductive PatternItem
  | letter (c : Char)
  | gap

/-- `re.escape` puts a backslash before ASCII blanks and the hyphen; these become gaps. -/
def patternItem (c : Char) : PatternItem :=
  if c = '-' ∨ (9 ≤ c.toNat ∧ c.toNat ≤ 13) ∨ c = ' ' then .gap else .letter c

/-- `[A-Za-z]` without regard to case, where four more characters count as letters. -/
def isWordLetter (c : Char) : Bool :=
  c.isAlpha ∨ c.toNat ∈ [304, 305, 383, 8490]

/-- The case that `IGNORECASE` compares. -/
def ignoreCase (c : Char) : Char :=
  match c.toNat with
  | 304 => 'i'
  | 305 => 'i'
  | 383 => 's'
  | 8490 => 'k'
  | _ => c.toLower

/-- The keyword stands at the front of the text and no letter follows it. -/
def matchesAt : List PatternItem → List Char → Bool
  | [], text => !(text.head?.any isWordLetter)
  | .letter c :: items, d :: text => ignoreCase c == ignoreCase d && matchesAt items text
  | .gap :: items, d :: text =>
    (d == '-' || isSpace d) && (matchesAt items text || matchesAt (.gap :: items) text)
  | _ :: _, [] => false

/-- `search` from the character after `before` on. -/
def searchFrom (patterns : List (List PatternItem)) (before : Option Char) : List Char → Bool
  | [] => !(before.any isWordLetter) && patterns.any (matchesAt · [])
  | c :: text =>
    (!(before.any isWordLetter) && patterns.any (matchesAt · (c :: text))) ||
      searchFrom patterns (some c) text

/-- `_compile_keyword_pattern(keywords).search(name)`; no keywords, no pattern. -/
def keywordSearch (keywords : List String) (name : String) : Bool :=
  !keywords.isEmpty &&
    searchFrom (keywords.map fun keyword => keyword.toList.map patternItem) none name.toList

/-- `EventRelevanceMatcher`; only a policy that is not empty makes one. -/
structure EventRelevanceMatcher where
  policy : GoldRelevancePolicy
  not_empty : policy.isEmpty = false

namespace EventRelevanceMatcher

variable (matcher : EventRelevanceMatcher)

def hasCategory (category : Option String) : Bool :=
  category.any fun text =>
    matcher.policy.categories.any fun part => part.toList <:+: (lower text).toList

/-- `is_relevant`. -/
def isRelevant (event : EventSummary) : Bool :=
  matcher.hasCategory event.category || keywordSearch matcher.policy.keywords event.name

end EventRelevanceMatcher

def emptyPolicy : String :=
  "GoldRelevancePolicy is empty; caller must decide whether to skip " ++
    "relevance filtering rather than rely on a silent pass-through."

/-- `build_relevance_matcher`. -/
def buildRelevanceMatcher (policy : GoldRelevancePolicy) :
    Except String EventRelevanceMatcher :=
  if h : policy.isEmpty = false then .ok ⟨policy, h⟩ else .error emptyPolicy

end MT5Services.GoldRelevance
