import Mathlib.Data.List.DropRight

/-!
Text normalisation as the services write it: `str(x or "").strip()`, followed by
a default for the empty text. `strip` removes the characters for which Python's
`str.isspace` holds.
-/
namespace MT5Services.PyText

def isSpace (c : Char) : Bool :=
  (9 ≤ c.toNat ∧ c.toNat ≤ 13) ∨ (28 ≤ c.toNat ∧ c.toNat ≤ 32) ∨ c.toNat = 133 ∨ c.toNat = 160 ∨
    c.toNat = 5760 ∨ (8192 ≤ c.toNat ∧ c.toNat ≤ 8202) ∨ c.toNat = 8232 ∨ c.toNat = 8233 ∨
    c.toNat = 8239 ∨ c.toNat = 8287 ∨ c.toNat = 12288

def strip (text : String) : String :=
  String.ofList ((text.toList.dropWhile isSpace).rdropWhile isSpace)

/-- `str(text or "").strip() or None`. -/
def stripOrNone (text : Option String) : Option String :=
  if strip (text.getD "") = "" then none else some (strip (text.getD ""))

/-- `str(text or "").strip() or fallback`. -/
def stripOr (text : Option String) (fallback : String) : String :=
  (stripOrNone text).getD fallback

/-- `str.lower` as far as a comparison with an ASCII text can tell: besides the ASCII
capitals only the Kelvin sign has an ASCII lower case. -/
def lower (text : String) : String :=
  String.ofList (text.toList.map fun c => if c.toNat = 8490 then 'k' else c.toLower)

/-- The characters whose `str.upper` is ASCII. -/
def upperChar (c : Char) : List Char :=
  match c.toNat with
  | 223 => ['S', 'S']
  | 305 => ['I']
  | 383 => ['S']
  | 64256 => ['F', 'F']
  | 64257 => ['F', 'I']
  | 64258 => ['F', 'L']
  | 64259 => ['F', 'F', 'I']
  | 64260 => ['F', 'F', 'L']
  | 64261 => ['S', 'T']
  | 64262 => ['S', 'T']
  | _ => [c.toUpper]

/-- `str.upper` as far as a comparison with an ASCII text can tell. -/
def upper (text : String) : String := String.ofList (text.toList.flatMap upperChar)

theorem dropWhile_eq_self_of_prefix {α : Type*} (p : α → Bool) (front whole : List α)
    (hfront : front <+: whole) (hwhole : whole.dropWhile p = whole) :
    front.dropWhile p = front := by
  cases front with
  | nil => rfl
  | cons a front =>
    obtain ⟨back, rfl⟩ := hfront
    by_cases ha : p a = true
    · have hlength := congrArg List.length hwhole
      have hle : ((front ++ back).dropWhile p).length ≤ (front ++ back).length :=
        List.length_dropWhile_le _ _
      simp only [List.cons_append, List.dropWhile_cons, ha, if_true, List.length_cons] at hlength
      omega
    · simp [ha]

@[simp]
theorem strip_strip (text : String) : strip (strip text) = strip text := by
  have hfront : ((text.toList.dropWhile isSpace).rdropWhile isSpace).dropWhile isSpace =
      (text.toList.dropWhile isSpace).rdropWhile isSpace :=
    dropWhile_eq_self_of_prefix isSpace _ _ (List.rdropWhile_prefix isSpace _)
      (List.dropWhile_idempotent _ _)
  simp only [strip, String.toList_ofList, hfront, List.rdropWhile_idempotent]

theorem stripOrNone_stripOrNone (text : Option String) :
    stripOrNone (stripOrNone text) = stripOrNone text := by
  unfold stripOrNone
  split
  · rename_i hempty
    have hnone : strip "" = "" := by decide
    simp [hnone]
  · rename_i hne
    simp [hne]

/-- Normalising twice with a fallback that is itself normal changes nothing. -/
theorem stripOr_stripOr (text : Option String) (fallback : String)
    (hfallback : strip fallback = fallback) :
    stripOr (some (stripOr text fallback)) fallback = stripOr text fallback := by
  cases htext : stripOrNone text with
  | none =>
    have hclean : stripOr text fallback = fallback := by rw [stripOr, htext, Option.getD_none]
    rw [hclean]
    simp only [stripOr, stripOrNone, Option.getD_some, hfallback]
    split
    · rfl
    · rfl
  | some clean =>
    have hclean : stripOr text fallback = clean := by rw [stripOr, htext, Option.getD_some]
    have hagain := stripOrNone_stripOrNone text
    rw [htext] at hagain
    rw [hclean, stripOr, hagain, Option.getD_some]

end MT5Services.PyText
