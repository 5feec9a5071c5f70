import Mathlib.Data.Int.Notation
import Mathlib.Data.List.Basic
import Mathlib.Data.List.TakeWhile
import Mathlib.Data.Nat.Notation

/-!
JSON text as `json.dumps(value, default=str)` writes it and as `json.loads` reads it. A value
that JSON does not know is written as the text that `str` makes of it. Reading gives back what
was written, with such a value replaced by its text, and the written text is one line.
-/
namespace MT5Services.JsonText

/-! ### Values -/

def isNumberChar (c : Char) : Bool := c.isDigit || c ∈ ['-', '+', '.', 'e', 'E']

/-- `0` or digits without a leading zero. -/
def isWhole (digits : List Char) : Bool :=
  !digits.isEmpty && digits.all Char.isDigit && (digits.length = 1 || digits.head? ≠ some '0')

def isMark (c : Char) : Bool := c = 'e' || c = 'E'

def isExponent : List Char → Bool
  | mark :: '-' :: digits => isMark mark && !digits.isEmpty && digits.all Char.isDigit
  | mark :: '+' :: digits => isMark mark && !digits.isEmpty && digits.all Char.isDigit
  | mark :: digits => isMark mark && !digits.isEmpty && digits.all Char.isDigit
  | [] => false

/-- A fraction, an exponent or both. -/
def isFraction : List Char → Bool
  | '.' :: rest =>
    !(rest.takeWhile Char.isDigit).isEmpty &&
      ((rest.dropWhile Char.isDigit).isEmpty || isExponent (rest.dropWhile Char.isDigit))
  | rest => isExponent rest

def unsigned : List Char → List Char
  | '-' :: rest => rest
  | text => text

def IsFloat (text : List Char) : Prop :=
  (isWhole ((unsigned text).takeWhile Char.isDigit) &&
    isFraction ((unsigned text).dropWhile Char.isDigit) && text.all isNumberChar) = true

instance (text : List Char) : Decidable (IsFloat text) :=
  inferInstanceAs (Decidable (_ = true))

/-- A finite float, by the shortest text that reads as it. -/
structure FloatText where
  text : List Char
  isFloat : IsFloat text

/-- What a row can hold; an object by its fields in order. -/
inductive Value
  | null
  | bool (b : Bool)
  | int (n : ℤ)
  | float (x : FloatText)
  | nan
  | infinity (negative : Bool)
  | str (text : String)
  | array (items : List Value)
  | object (fields : List (String × Value))
  /-- Any other value, by what `str` makes of it. -/
  | foreign (text : String)

mutual

/-- The value with every foreign value as text. -/
def rendered : Value → Value
  | .foreign text => .str text
  | .array items => .array (renderedItems items)
  | .object fields => .object (renderedFields fields)
  | .null => .null
  | .bool b => .bool b
  | .int n => .int n
  | .float x => .float x
  | .nan => .nan
  | .infinity negative => .infinity negative
  | .str text => .str text

def renderedItems : List Value → List Value
  | [] => []
  | item :: rest => rendered item :: renderedItems rest

def renderedFields : List (String × Value) → List (String × Value)
  | [] => []
  | field :: rest => renderedField field :: renderedFields rest

def renderedField : String × Value → String × Value
  | (key, value) => (key, rendered value)

end

/-! ### Writing -/

def hex4 (n : ℕ) : List Char :=
  [Nat.digitChar (n / 4096 % 16), Nat.digitChar (n / 256 % 16), Nat.digitChar (n / 16 % 16),
    Nat.digitChar (n % 16)]

def unicodeEscape (n : ℕ) : List Char := '\\' :: 'u' :: hex4 n

/-- `py_encode_basestring_ascii`, one character. -/
def escape (c : Char) : List Char :=
  if c = '"' then ['\\', '"']
  else if c = '\\' then ['\\', '\\']
  else if c = '\n' then ['\\', 'n']
  else if c = '\r' then ['\\', 'r']
  else if c = '\t' then ['\\', 't']
  else if c = Char.ofNat 12 then ['\\', 'f']
  else if c = Char.ofNat 8 then ['\\', 'b']
  else if 32 ≤ c.toNat ∧ c.toNat ≤ 126 then [c]
  else if c.toNat < 65536 then unicodeEscape c.toNat
  else
    unicodeEscape (55296 + (c.toNat - 65536) / 1024) ++
      unicodeEscape (56320 + (c.toNat - 65536) % 1024)

def quoted (text : String) : List Char := '"' :: (text.toList.flatMap escape ++ ['"'])

def intText (n : ℤ) : List Char :=
  if n < 0 then '-' :: Nat.toDigits 10 n.natAbs else Nat.toDigits 10 n.natAbs

def infinityText (negative : Bool) : List Char :=
  if negative then "-Infinity".toList else "Infinity".toList

def boolText (b : Bool) : List Char := if b then "true".toList else "false".toList

mutual

/-- `json.dumps(value, default=str)`. -/
def dumps : Value → List Char
  | .null => "null".toList
  | .bool b => boolText b
  | .int n => intText n
  | .float x => x.text
  | .nan => "NaN".toList
  | .infinity negative => infinityText negative
  | .str text => quoted text
  | .array [] => ['[', ']']
  | .array (item :: rest) => '[' :: (dumps item ++ dumpsItems rest)
  | .object [] => ['{', '}']
  | .object (field :: rest) => '{' :: (dumpsField field ++ dumpsFields rest)
  | .foreign text => quoted text

/-- The items behind the first one. -/
def dumpsItems : List Value → List Char
  | [] => [']']
  | item :: rest => ',' :: ' ' :: (dumps item ++ dumpsItems rest)

def dumpsFields : List (String × Value) → List Char
  | [] => ['}']
  | field :: rest => ',' :: ' ' :: (dumpsField field ++ dumpsFields rest)

def dumpsField : String × Value → List Char
  | (key, value) => quoted key ++ ':' :: ' ' :: dumps value

end

/-! ### Reading -/

def isWhitespace (c : Char) : Bool := c ∈ [' ', '\t', '\n', '\r']

def skipWhitespace (input : List Char) : List Char := input.dropWhile isWhitespace

def hexVal (c : Char) : Option ℕ :=
  if 48 ≤ c.toNat ∧ c.toNat ≤ 57 then some (c.toNat - 48)
  else if 97 ≤ c.toNat ∧ c.toNat ≤ 102 then some (c.toNat - 87)
  else if 65 ≤ c.toNat ∧ c.toNat ≤ 70 then some (c.toNat - 55)
  else none

def hex4Val (a b c d : Char) : Option ℕ := do
  let a ← hexVal a
  let b ← hexVal b
  let c ← hexVal c
  let d ← hexVal d
  return ((a * 16 + b) * 16 + c) * 16 + d

def escapeVal (c : Char) : Option ℕ :=
  if c = '"' then some 34
  else if c = '\\' then some 92
  else if c = '/' then some 47
  else if c = 'b' then some 8
  else if c = 'f' then some 12
  else if c = 'n' then some 10
  else if c = 'r' then some 13
  else if c = 't' then some 9
  else none

/-- The code units up to the closing quote, and what follows it. -/
def scanUnits : List Char → Option (List ℕ × List Char)
  | [] => none
  | '"' :: rest => some ([], rest)
  | '\\' :: 'u' :: a :: b :: c :: d :: rest => do
    let unit ← hex4Val a b c d
    let (units, after) ← scanUnits rest
    return (unit :: units, after)
  | '\\' :: c :: rest => do
    let unit ← escapeVal c
    let (units, after) ← scanUnits rest
    return (unit :: units, after)
  | c :: rest =>
    if 32 ≤ c.toNat then do
      let (units, after) ← scanUnits rest
      return (c.toNat :: units, after)
    else none

theorem hexVal_digitChar : ∀ digit, digit < 16 → hexVal (Nat.digitChar digit) = some digit := by
  decide

/-- The units read so far stand before those of the rest. -/
def withUnits (units : List ℕ) (rest : Option (List ℕ × List Char)) :
    Option (List ℕ × List Char) :=
  rest.map fun scanned => (units ++ scanned.1, scanned.2)

theorem scanUnits_unicodeEscape {n : ℕ} (hn : n < 65536) (rest : List Char) :
    scanUnits (unicodeEscape n ++ rest) = withUnits [n] (scanUnits rest) := by
  have hval : hex4Val (Nat.digitChar (n / 4096 % 16)) (Nat.digitChar (n / 256 % 16))
      (Nat.digitChar (n / 16 % 16)) (Nat.digitChar (n % 16)) = some n := by
    unfold hex4Val
    rw [hexVal_digitChar _ (by omega), hexVal_digitChar _ (by omega),
      hexVal_digitChar _ (by omega), hexVal_digitChar _ (by omega)]
    show some _ = some n
    congr 1
    omega
  show scanUnits ('\\' :: 'u' :: _ :: _ :: _ :: _ :: rest) = _
  rw [scanUnits, hval]
  cases scanUnits rest with
  | none => rfl
  | some scanned => rfl

theorem scanUnits_short {c : Char} {unit : ℕ} (hc : c ≠ 'u') (hval : escapeVal c = some unit)
    (rest : List Char) : scanUnits ('\\' :: c :: rest) = withUnits [unit] (scanUnits rest) := by
  rw [scanUnits]
  · rw [hval]
    cases scanUnits rest with
    | none => rfl
    | some scanned => rfl
  · intro a b d e after hu
    exact absurd hu hc

theorem scanUnits_plain {c : Char} (hquote : c ≠ '"') (hslash : c ≠ '\\') (hc : 32 ≤ c.toNat)
    (rest : List Char) : scanUnits (c :: rest) = withUnits [c.toNat] (scanUnits rest) := by
  rw [scanUnits]
  · rw [if_pos hc]
    cases scanUnits rest with
    | none => rfl
    | some scanned => rfl
  · exact hquote
  · intro a b d e after hu
    exact absurd hu hslash
  · intro d after hu
    exact absurd hu hslash

/-- Surrogate pairs joined; a surrogate on its own is no text here. -/
def join : List ℕ → Option (List Char)
  | [] => some []
  | high :: low :: rest =>
    if (55296 ≤ high ∧ high < 56320) ∧ 56320 ≤ low ∧ low < 57344 then
      (join rest).map (Char.ofNat (65536 + (high - 55296) * 1024 + (low - 56320)) :: ·)
    else if high < 55296 ∨ 57344 ≤ high then (join (low :: rest)).map (Char.ofNat high :: ·)
    else none
  | [unit] => if unit < 55296 ∨ 57344 ≤ unit then some [Char.ofNat unit] else none

/-- `py_scanstring`, behind the opening quote. -/
def scanString (input : List Char) : Option (String × List Char) := do
  let (units, rest) ← scanUnits input
  let text ← join units
  return (String.ofList text, rest)

def readInt : List Char → Option ℤ
  | '-' :: digits => if isWhole digits then some (-(Nat.ofDigitChars 10 digits 0 : ℤ)) else none
  | digits => if isWhole digits then some (Nat.ofDigitChars 10 digits 0 : ℤ) else none

/-- The longest run of characters of a number. -/
def scanNumber (input : List Char) : Option (Value × List Char) :=
  if h : IsFloat (input.takeWhile isNumberChar) then
    some (.float ⟨input.takeWhile isNumberChar, h⟩, input.dropWhile isNumberChar)
  else
    (readInt (input.takeWhile isNumberChar)).map fun n => (.int n, input.dropWhile isNumberChar)

/-- What follows an expected text. -/
def expect : List Char → List Char → Option (List Char)
  | [], input => some input
  | _ :: _, [] => none
  | c :: text, d :: input => if c = d then expect text input else none

def literals : List (List Char × Value) :=
  [("null".toList, .null), ("true".toList, .bool true), ("false".toList, .bool false),
    ("NaN".toList, .nan), ("Infinity".toList, .infinity false),
    ("-Infinity".toList, .infinity true)]

def scanLiteral (input : List Char) : Option (Value × List Char) :=
  literals.findSome? fun literal => (expect literal.1 input).map fun rest => (literal.2, rest)

mutual

/-- `_scan_once`. -/
def scanOnce : ℕ → List Char → Option (Value × List Char)
  | 0, _ => none
  | _ + 1, '"' :: rest => (scanString rest).map fun result => (.str result.1, result.2)
  | fuel + 1, '[' :: rest =>
    match skipWhitespace rest with
    | ']' :: after => some (.array [], after)
    | input => do
      let (item, after) ← scanOnce fuel input
      let (items, after) ← scanItems fuel after
      return (.array (item :: items), after)
  | fuel + 1, '{' :: rest =>
    match skipWhitespace rest with
    | '}' :: after => some (.object [], after)
    | input => do
      let (field, after) ← scanField fuel input
      let (fields, after) ← scanFields fuel after
      return (.object (field :: fields), after)
  | _ + 1, input => (scanNumber input).or (scanLiteral input)

/-- The rest of an array behind an item. -/
def scanItems : ℕ → List Char → Option (List Value × List Char)
  | 0, _ => none
  | fuel + 1, input =>
    match skipWhitespace input with
    | ']' :: after => some ([], after)
    | ',' :: rest => do
      let (item, after) ← scanOnce fuel (skipWhitespace rest)
      let (items, after) ← scanItems fuel after
      return (item :: items, after)
    | _ => none

/-- A key, a colon and a value. -/
def scanField : ℕ → List Char → Option ((String × Value) × List Char)
  | 0, _ => none
  | fuel + 1, '"' :: rest => do
    let (key, after) ← scanString rest
    let after ← expect [':'] (skipWhitespace after)
    let (value, after) ← scanOnce fuel (skipWhitespace after)
    return ((key, value), after)
  | _ + 1, _ => none

def scanFields : ℕ → List Char → Option (List (String × Value) × List Char)
  | 0, _ => none
  | fuel + 1, input =>
    match skipWhitespace input with
    | '}' :: after => some ([], after)
    | ',' :: rest => do
      let (field, after) ← scanField fuel (skipWhitespace rest)
      let (fields, after) ← scanFields fuel after
      return (field :: fields, after)
    | _ => none

end

/-- `json.loads`; a value nests no deeper than its text is long. -/
def loads (input : List Char) : Option Value := do
  let (value, rest) ← scanOnce (input.length + 1) (skipWhitespace input)
  guard (skipWhitespace rest).isEmpty
  return value

/-! ### Strings -/

/-- The code units of a character. -/
def unitsOf (c : Char) : List ℕ :=
  if c.toNat < 65536 then [c.toNat]
  else [55296 + (c.toNat - 65536) / 1024, 56320 + (c.toNat - 65536) % 1024]

/-- A character is no surrogate. -/
theorem toNat_valid (c : Char) :
    c.toNat < 55296 ∨ (57343 < c.toNat ∧ c.toNat < 1114112) := c.valid

variable {c : Char}

/-- A character that has an escape of one letter. -/
theorem scanUnits_letter {letter : Char} (hletter : letter ≠ 'u')
    (hval : escapeVal letter = some c.toNat) (hc : c.toNat < 65536) (rest : List Char) :
    scanUnits (['\\', letter] ++ rest) = withUnits (unitsOf c) (scanUnits rest) := by
  rw [unitsOf, if_pos hc]
  exact scanUnits_short hletter hval rest

theorem scanUnits_escape (c : Char) (rest : List Char) :
    scanUnits (escape c ++ rest) = withUnits (unitsOf c) (scanUnits rest) := by
  unfold escape
  split_ifs with hquote hslash hnewline hreturn htab hfeed hback hplain hshort
  · subst hquote
    exact scanUnits_letter (by decide) rfl (by decide) rest
  · subst hslash
    exact scanUnits_letter (by decide) rfl (by decide) rest
  · subst hnewline
    exact scanUnits_letter (by decide) rfl (by decide) rest
  · subst hreturn
    exact scanUnits_letter (by decide) rfl (by decide) rest
  · subst htab
    exact scanUnits_letter (by decide) rfl (by decide) rest
  · subst hfeed
    exact scanUnits_letter (by decide) rfl (by decide) rest
  · subst hback
    exact scanUnits_letter (by decide) rfl (by decide) rest
  · rw [unitsOf, if_pos (by omega)]
    exact scanUnits_plain hquote hslash hplain.1 rest
  · rw [unitsOf, if_pos hshort]
    exact scanUnits_unicodeEscape hshort rest
  · have hvalid := toNat_valid c
    rw [unitsOf, if_neg hshort, List.append_assoc, scanUnits_unicodeEscape (by omega),
      scanUnits_unicodeEscape (by omega)]
    cases scanUnits rest with
    | none => rfl
    | some scanned => rfl

theorem scanUnits_quoted (text : List Char) (rest : List Char) :
    scanUnits (text.flatMap escape ++ '"' :: rest) = some (text.flatMap unitsOf, rest) := by
  induction text with
  | nil => rw [List.flatMap_nil, List.nil_append, scanUnits, List.flatMap_nil]
  | cons c text ih =>
    rw [List.flatMap_cons, List.append_assoc, scanUnits_escape, ih, List.flatMap_cons]
    rfl

theorem join_single {unit : ℕ} (hunit : unit < 55296 ∨ 57344 ≤ unit) (units : List ℕ) :
    join (unit :: units) = (join units).map (Char.ofNat unit :: ·) := by
  cases units with
  | nil => exact if_pos hunit
  | cons low rest => rw [join, if_neg (by omega), if_pos hunit]

/-- The units of a character join to it again. -/
theorem join_unitsOf (c : Char) (units : List ℕ) :
    join (unitsOf c ++ units) = (join units).map (c :: ·) := by
  have hvalid := toNat_valid c
  by_cases hshort : c.toNat < 65536
  · rw [unitsOf, if_pos hshort, List.singleton_append, join_single (by omega), Char.ofNat_toNat]
  · have hcode : 65536 + (55296 + (c.toNat - 65536) / 1024 - 55296) * 1024 +
        (56320 + (c.toNat - 65536) % 1024 - 56320) = c.toNat := by omega
    rw [unitsOf, if_neg hshort, List.cons_append, List.singleton_append, join, if_pos (by omega),
      hcode, Char.ofNat_toNat]

theorem join_flatMap_unitsOf (text : List Char) : join (text.flatMap unitsOf) = some text := by
  induction text with
  | nil => rfl
  | cons c text ih => rw [List.flatMap_cons, join_unitsOf, ih, Option.map_some]

theorem scanString_quoted (text : String) (rest : List Char) :
    scanString (text.toList.flatMap escape ++ '"' :: rest) = some (text, rest) := by
  rw [scanString, scanUnits_quoted]
  show (join (text.toList.flatMap unitsOf)).bind _ = _
  rw [join_flatMap_unitsOf]
  show some (String.ofList text.toList, rest) = _
  rw [String.ofList_toList]

/-! ### Numbers -/

/-- What follows a number cannot continue it. -/
def EndsNumber (rest : List Char) : Prop := ∀ c, rest.head? = some c → isNumberChar c = false

variable {rest text : List Char}

theorem takeWhile_number (htext : text.all isNumberChar = true)
    (hrest : EndsNumber rest) : (text ++ rest).takeWhile isNumberChar = text ∧
      (text ++ rest).dropWhile isNumberChar = rest := by
  have hall : ∀ c ∈ text, isNumberChar c = true := List.all_eq_true.mp htext
  rw [List.takeWhile_append_of_pos hall, List.dropWhile_append_of_pos hall]
  cases rest with
  | nil => simp
  | cons c after => simp [hrest c rfl]

theorem isDigit_of_mem (n : ℕ) : ∀ c ∈ Nat.toDigits 10 n, c.isDigit = true :=
  fun _ hc => Nat.isDigit_of_mem_toDigits (by decide) (by decide) hc

theorem digitChar_ne_zero : ∀ digit, digit < 10 → 0 < digit → Nat.digitChar digit ≠ '0' := by
  decide

theorem head_toDigits (n : ℕ) (hn : 0 < n) : (Nat.toDigits 10 n).head? ≠ some '0' := by
  induction n using Nat.strongRecOn with
  | ind n ih =>
    by_cases hsmall : n < 10
    · rw [Nat.toDigits_of_lt_base hsmall]
      exact fun hhead => digitChar_ne_zero n hsmall hn (Option.some.inj hhead)
    · rw [Nat.toDigits_of_base_le (by decide) (by omega),
        List.head?_append_of_ne_nil _ Nat.toDigits_ne_nil]
      exact ih (n / 10) (by omega) (by omega)

theorem isWhole_toDigits (n : ℕ) : isWhole (Nat.toDigits 10 n) = true := by
  rcases Nat.eq_zero_or_pos n with rfl | hn
  · decide
  · have hne : Nat.toDigits 10 n ≠ [] := Nat.toDigits_ne_nil
    have hall : (Nat.toDigits 10 n).all Char.isDigit = true :=
      List.all_eq_true.mpr (isDigit_of_mem n)
    simp [isWhole, hne, hall, head_toDigits n hn]

section Digits

variable {digits : List Char}

theorem unsigned_digits (h : ∀ c ∈ digits, c.isDigit = true) : unsigned digits = digits := by
  unfold unsigned
  split
  · exact absurd (h '-' List.mem_cons_self) (by decide)
  · rfl

theorem readInt_digits (h : ∀ c ∈ digits, c.isDigit = true) (hwhole : isWhole digits = true) :
    readInt digits = some (Nat.ofDigitChars 10 digits 0 : ℤ) := by
  unfold readInt
  split
  · exact absurd (h '-' List.mem_cons_self) (by decide)
  · rw [if_pos hwhole]

/-- Digits alone are no float, with a sign or without. -/
theorem not_isFloat {text : List Char} (htext : unsigned text = digits)
    (h : ∀ c ∈ digits, c.isDigit = true) : ¬ IsFloat text := by
  unfold IsFloat
  rw [htext, List.dropWhile_eq_nil_iff.mpr h]
  simp [isFraction, isExponent]

theorem all_isNumberChar (h : ∀ c ∈ digits, c.isDigit = true) : digits.all isNumberChar = true := by
  refine List.all_eq_true.mpr fun c hc => ?_
  rw [isNumberChar, h c hc, Bool.true_or]

end Digits

theorem readInt_intText (n : ℤ) : readInt (intText n) = some n := by
  have hdigits := isDigit_of_mem n.natAbs
  unfold intText
  split
  · show (if isWhole (Nat.toDigits 10 n.natAbs) = true then _ else _) = _
    rw [if_pos (isWhole_toDigits _), Nat.ofDigitChars_ten_toDigits]
    congr 1
    omega
  · rw [readInt_digits hdigits (isWhole_toDigits _), Nat.ofDigitChars_ten_toDigits]
    congr 1
    omega

theorem unsigned_intText (n : ℤ) : unsigned (intText n) = Nat.toDigits 10 n.natAbs := by
  unfold intText
  split
  · rfl
  · exact unsigned_digits (isDigit_of_mem _)

theorem all_intText (n : ℤ) : (intText n).all isNumberChar = true := by
  have hdigits := all_isNumberChar (isDigit_of_mem n.natAbs)
  unfold intText
  split
  · rw [List.all_cons, hdigits]
    decide
  · exact hdigits

theorem scanNumber_intText (n : ℤ) (hrest : EndsNumber rest) :
    scanNumber (intText n ++ rest) = some (.int n, rest) := by
  obtain ⟨htake, hdrop⟩ := takeWhile_number (all_intText n) hrest
  unfold scanNumber
  simp only [htake, hdrop]
  rw [dif_neg (not_isFloat (unsigned_intText n) (isDigit_of_mem _)), readInt_intText,
    Option.map_some]

theorem scanNumber_float (x : FloatText) (hrest : EndsNumber rest) :
    scanNumber (x.text ++ rest) = some (.float x, rest) := by
  obtain ⟨text, hfloat⟩ := x
  have hchars : text.all isNumberChar = true := (Bool.and_eq_true_iff.mp hfloat).2
  obtain ⟨htake, hdrop⟩ := takeWhile_number hchars hrest
  unfold scanNumber
  simp only [htake, hdrop]
  rw [dif_pos hfloat]

/-! ### Values read back -/

/-- Where no value starts. -/
def StartsValue (text : List Char) : Prop :=
  ∃ c rest, text = c :: rest ∧ isWhitespace c = false ∧ c ≠ ']' ∧ c ≠ '}'

theorem skipWhitespace_of_starts (h : StartsValue text) (rest : List Char) :
    skipWhitespace (text ++ rest) = text ++ rest := by
  obtain ⟨c, after, rfl, hspace, -, -⟩ := h
  rw [skipWhitespace, List.cons_append, List.dropWhile_cons_of_neg (by rw [hspace]; decide)]

theorem startsValue_of_number (hne : text ≠ [])
    (hall : text.all isNumberChar = true) : StartsValue text := by
  obtain ⟨c, rest, rfl⟩ := List.exists_cons_of_ne_nil hne
  have hc : isNumberChar c = true := List.all_eq_true.mp hall c List.mem_cons_self
  have hnot : ∀ d, isNumberChar d = false → c ≠ d := by
    rintro d hd rfl
    rw [hc] at hd
    cases hd
  refine ⟨c, rest, rfl, ?_, hnot _ (by decide), hnot _ (by decide)⟩
  simp [isWhitespace, hnot ' ' (by decide), hnot '\t' (by decide), hnot '\n' (by decide),
    hnot '\r' (by decide)]

theorem FloatText.text_ne_nil (x : FloatText) : x.text ≠ [] := by
  intro hnil
  have hfloat := x.isFloat
  rw [hnil] at hfloat
  exact absurd hfloat (by decide)

theorem intText_ne_nil (n : ℤ) : intText n ≠ [] := by
  unfold intText
  split
  · exact List.cons_ne_nil _ _
  · exact Nat.toDigits_ne_nil

theorem startsValue_dumps (v : Value) : StartsValue (dumps v) := by
  cases v with
  | null => exact ⟨'n', _, rfl, by decide, by decide, by decide⟩
  | bool b => cases b <;> exact ⟨_, _, rfl, by decide, by decide, by decide⟩
  | int n => exact startsValue_of_number (intText_ne_nil n) (all_intText n)
  | float x =>
    exact startsValue_of_number x.text_ne_nil (Bool.and_eq_true_iff.mp x.isFloat).2
  | nan => exact ⟨'N', _, rfl, by decide, by decide, by decide⟩
  | infinity negative => cases negative <;> exact ⟨_, _, rfl, by decide, by decide, by decide⟩
  | str text => exact ⟨'"', _, rfl, by decide, by decide, by decide⟩
  | foreign text => exact ⟨'"', _, rfl, by decide, by decide, by decide⟩
  | array items =>
    cases items with
    | nil => exact ⟨'[', _, rfl, by decide, by decide, by decide⟩
    | cons item rest => exact ⟨'[', _, rfl, by decide, by decide, by decide⟩
  | object fields =>
    cases fields with
    | nil => exact ⟨'{', _, rfl, by decide, by decide, by decide⟩
    | cons field rest => exact ⟨'{', _, rfl, by decide, by decide, by decide⟩

/-- With this much fuel every text that is no longer reads back. -/
structure ReadsBack (fuel : ℕ) : Prop where
  value : ∀ v rest, (dumps v).length ≤ fuel → EndsNumber rest →
    scanOnce fuel (dumps v ++ rest) = some (rendered v, rest)
  items : ∀ items rest, (dumpsItems items).length ≤ fuel →
    scanItems fuel (dumpsItems items ++ rest) = some (renderedItems items, rest)
  field : ∀ field rest, (dumpsField field).length ≤ fuel → EndsNumber rest →
    scanField fuel (dumpsField field ++ rest) = some (renderedField field, rest)
  fields : ∀ fields rest, (dumpsFields fields).length ≤ fuel →
    scanFields fuel (dumpsFields fields ++ rest) = some (renderedFields fields, rest)

theorem endsNumber_cons (hc : isNumberChar c = false) (rest : List Char) :
    EndsNumber (c :: rest) := by
  intro d hd
  cases Option.some.inj hd
  exact hc

theorem endsNumber_items (items : List Value) (rest : List Char) :
    EndsNumber (dumpsItems items ++ rest) := by
  cases items with
  | nil => exact endsNumber_cons (by decide) _
  | cons item others => exact endsNumber_cons (by decide) _

theorem endsNumber_fields (fields : List (String × Value)) (rest : List Char) :
    EndsNumber (dumpsFields fields ++ rest) := by
  cases fields with
  | nil => exact endsNumber_cons (by decide) _
  | cons field others => exact endsNumber_cons (by decide) _

theorem scanOnce_quoted (fuel : ℕ) (text : String) (rest : List Char) :
    scanOnce (fuel + 1) (quoted text ++ rest) = some (.str text, rest) := by
  rw [quoted, List.cons_append, List.append_assoc, List.singleton_append, scanOnce,
    scanString_quoted, Option.map_some]

variable {fuel : ℕ}

/-- Where a number stands, the scan reads a number. -/
theorem scanOnce_number {v : Value} (hne : text ≠ []) (hall : text.all isNumberChar = true)
    (hscan : scanNumber (text ++ rest) = some (v, rest)) :
    scanOnce (fuel + 1) (text ++ rest) = some (v, rest) := by
  obtain ⟨c, after, rfl⟩ := List.exists_cons_of_ne_nil hne
  have hc : isNumberChar c = true := List.all_eq_true.mp hall c List.mem_cons_self
  rw [List.cons_append] at hscan ⊢
  rw [scanOnce]
  · rw [hscan, Option.some_or]
  · intro rest hcons
    cases hcons
    exact absurd hc (by decide)
  · intro rest hcons
    cases hcons
    exact absurd hc (by decide)
  · intro rest hcons
    cases hcons
    exact absurd hc (by decide)

theorem scanOnce_array (h : ReadsBack fuel) (item : Value) (items : List Value)
    (rest : List Char) (hlength : (dumps (.array (item :: items))).length ≤ fuel + 1) :
    scanOnce (fuel + 1) (dumps (.array (item :: items)) ++ rest) =
      some (rendered (.array (item :: items)), rest) := by
  rw [dumps, List.length_cons, List.length_append] at hlength
  have hitem := h.value item (dumpsItems items ++ rest) (by omega) (endsNumber_items items rest)
  have hitems := h.items items rest (by omega)
  rw [dumps, List.cons_append, List.append_assoc, scanOnce,
    skipWhitespace_of_starts (startsValue_dumps item)]
  split
  · rename_i after hclose
    obtain ⟨c, others, hc, -, hne, -⟩ := startsValue_dumps item
    rw [hc] at hclose
    cases hclose
    exact absurd rfl hne
  · rw [hitem]
    show (scanItems fuel (dumpsItems items ++ rest)).bind _ = _
    rw [hitems]
    rfl

theorem startsValue_dumpsField (field : String × Value) : StartsValue (dumpsField field) := by
  obtain ⟨key, value⟩ := field
  exact ⟨'"', _, rfl, by decide, by decide, by decide⟩

theorem scanOnce_object (h : ReadsBack fuel) (field : String × Value)
    (fields : List (String × Value)) (rest : List Char)
    (hlength : (dumps (.object (field :: fields))).length ≤ fuel + 1) :
    scanOnce (fuel + 1) (dumps (.object (field :: fields)) ++ rest) =
      some (rendered (.object (field :: fields)), rest) := by
  rw [dumps, List.length_cons, List.length_append] at hlength
  have hfield := h.field field (dumpsFields fields ++ rest) (by omega)
    (endsNumber_fields fields rest)
  have hfields := h.fields fields rest (by omega)
  rw [dumps, List.cons_append, List.append_assoc, scanOnce,
    skipWhitespace_of_starts (startsValue_dumpsField field)]
  split
  · rename_i after hclose
    obtain ⟨c, others, hc, -, -, hne⟩ := startsValue_dumpsField field
    rw [hc] at hclose
    cases hclose
    exact absurd rfl hne
  · rw [hfield]
    show (scanFields fuel (dumpsFields fields ++ rest)).bind _ = _
    rw [hfields]
    rfl

theorem scanOnce_dumps (h : ReadsBack fuel) (v : Value) (rest : List Char)
    (hlength : (dumps v).length ≤ fuel + 1) (hrest : EndsNumber rest) :
    scanOnce (fuel + 1) (dumps v ++ rest) = some (rendered v, rest) := by
  cases v with
  | null => rfl
  | bool b => cases b <;> rfl
  | int n => exact scanOnce_number (intText_ne_nil n) (all_intText n) (scanNumber_intText n hrest)
  | float x =>
    exact scanOnce_number x.text_ne_nil (Bool.and_eq_true_iff.mp x.isFloat).2
      (scanNumber_float x hrest)
  | nan => rfl
  | infinity negative => cases negative <;> rfl
  | str text => exact scanOnce_quoted fuel text rest
  | foreign text => exact scanOnce_quoted fuel text rest
  | array items =>
    cases items with
    | nil => rfl
    | cons item others => exact scanOnce_array h item others rest hlength
  | object fields =>
    cases fields with
    | nil => rfl
    | cons field others => exact scanOnce_object h field others rest hlength

theorem scanItems_dumpsItems (h : ReadsBack fuel) (items : List Value)
    (rest : List Char) (hlength : (dumpsItems items).length ≤ fuel + 1) :
    scanItems (fuel + 1) (dumpsItems items ++ rest) = some (renderedItems items, rest) := by
  cases items with
  | nil => rfl
  | cons item others =>
    rw [dumpsItems, List.length_cons, List.length_cons, List.length_append] at hlength
    have hitem := h.value item (dumpsItems others ++ rest) (by omega) (endsNumber_items others rest)
    have hitems := h.items others rest (by omega)
    have hskip : skipWhitespace (' ' :: (dumps item ++ (dumpsItems others ++ rest))) =
        dumps item ++ (dumpsItems others ++ rest) :=
      skipWhitespace_of_starts (startsValue_dumps item) _
    show (scanOnce fuel
      (skipWhitespace (' ' :: (dumps item ++ dumpsItems others ++ rest)))).bind _ = _
    rw [List.append_assoc, hskip, hitem]
    show (scanItems fuel (dumpsItems others ++ rest)).bind _ = _
    rw [hitems]
    rfl

theorem scanFields_dumpsFields (h : ReadsBack fuel) (fields : List (String × Value))
    (rest : List Char) (hlength : (dumpsFields fields).length ≤ fuel + 1) :
    scanFields (fuel + 1) (dumpsFields fields ++ rest) = some (renderedFields fields, rest) := by
  cases fields with
  | nil => rfl
  | cons field others =>
    rw [dumpsFields, List.length_cons, List.length_cons, List.length_append] at hlength
    have hfield := h.field field (dumpsFields others ++ rest) (by omega)
      (endsNumber_fields others rest)
    have hfields := h.fields others rest (by omega)
    have hskip : skipWhitespace (' ' :: (dumpsField field ++ (dumpsFields others ++ rest))) =
        dumpsField field ++ (dumpsFields others ++ rest) :=
      skipWhitespace_of_starts (startsValue_dumpsField field) _
    show (scanField fuel
      (skipWhitespace (' ' :: (dumpsField field ++ dumpsFields others ++ rest)))).bind _ = _
    rw [List.append_assoc, hskip, hfield]
    show (scanFields fuel (dumpsFields others ++ rest)).bind _ = _
    rw [hfields]
    rfl

theorem scanField_dumpsField (h : ReadsBack fuel) (field : String × Value)
    (rest : List Char) (hlength : (dumpsField field).length ≤ fuel + 1) (hrest : EndsNumber rest) :
    scanField (fuel + 1) (dumpsField field ++ rest) = some (renderedField field, rest) := by
  obtain ⟨key, value⟩ := field
  rw [dumpsField, quoted, List.length_append, List.length_cons, List.length_cons,
    List.length_cons] at hlength
  have hvalue := h.value value rest (by omega) hrest
  have hskip : skipWhitespace (' ' :: (dumps value ++ rest)) = dumps value ++ rest :=
    skipWhitespace_of_starts (startsValue_dumps value) rest
  rw [dumpsField, quoted, List.cons_append, List.cons_append, List.append_assoc, List.append_assoc,
    List.singleton_append, scanField, List.cons_append, scanString_quoted]
  show (scanOnce fuel (skipWhitespace (' ' :: (dumps value ++ rest)))).bind _ = _
  rw [hskip, hvalue]
  rfl

theorem readsBack (fuel : ℕ) : ReadsBack fuel := by
  induction fuel with
  | zero =>
    refine ⟨fun v rest hlength => ?_, fun items rest hlength => ?_, fun field rest hlength => ?_,
      fun fields rest hlength => ?_⟩
    · obtain ⟨c, after, hc, -⟩ := startsValue_dumps v
      rw [hc] at hlength
      cases hlength
    · cases items <;> cases hlength
    · obtain ⟨c, after, hc, -⟩ := startsValue_dumpsField field
      rw [hc] at hlength
      cases hlength
    · cases fields <;> cases hlength
  | succ fuel ih =>
    exact ⟨scanOnce_dumps ih, scanItems_dumpsItems ih, scanField_dumpsField ih,
      scanFields_dumpsFields ih⟩

theorem endsNumber_of_blank (h : rest.all isWhitespace = true) : EndsNumber rest := by
  intro c hc
  have hspace : isWhitespace c = true := List.all_eq_true.mp h c (List.mem_of_mem_head? hc)
  have hcases : c = ' ' ∨ c = '\t' ∨ c = '\n' ∨ c = '\r' := by simpa [isWhitespace] using hspace
  rcases hcases with rfl | rfl | rfl | rfl
  · decide
  · decide
  · decide
  · decide

/-- What was written reads back, with every foreign value as text and whatever blanks follow. -/
theorem loads_dumps (v : Value) (hrest : rest.all isWhitespace = true) :
    loads (dumps v ++ rest) = some (rendered v) := by
  have hblank : skipWhitespace rest = [] :=
    List.dropWhile_eq_nil_iff.mpr (List.all_eq_true.mp hrest)
  have hlength : (dumps v).length ≤ (dumps v ++ rest).length + 1 := by
    rw [List.length_append]
    omega
  have hscan := (readsBack ((dumps v ++ rest).length + 1)).value v rest hlength
    (endsNumber_of_blank hrest)
  rw [loads, skipWhitespace_of_starts (startsValue_dumps v), hscan]
  show (guard (skipWhitespace rest).isEmpty : Option Unit).bind _ = _
  rw [hblank]
  rfl

/-! ### One line -/

theorem newline_not_mem_of_number (hall : text.all isNumberChar = true) :
    '\n' ∉ text := fun hmem => absurd (List.all_eq_true.mp hall _ hmem) (by decide)

theorem digitChar_ne_newline : ∀ digit, digit < 16 → '\n' ≠ Nat.digitChar digit := by
  decide

theorem newline_not_mem_unicodeEscape (n : ℕ) : '\n' ∉ unicodeEscape n := by
  have hdigit : ∀ m, '\n' ≠ Nat.digitChar (m % 16) := fun m =>
    digitChar_ne_newline _ (Nat.mod_lt _ (by decide))
  simp [unicodeEscape, hex4, hdigit]

theorem newline_not_mem_escape (c : Char) : '\n' ∉ escape c := by
  unfold escape
  split_ifs with hquote hslash hnewline hreturn htab hfeed hback hplain hshort
  · decide
  · decide
  · decide
  · decide
  · decide
  · decide
  · decide
  · rw [List.mem_singleton]
    exact Ne.symm hnewline
  · exact newline_not_mem_unicodeEscape _
  · rw [List.mem_append, not_or]
    exact ⟨newline_not_mem_unicodeEscape _, newline_not_mem_unicodeEscape _⟩

theorem newline_not_mem_quoted (text : String) : '\n' ∉ quoted text := by
  have hescaped : '\n' ∉ text.toList.flatMap escape := by
    rw [List.mem_flatMap]
    rintro ⟨c, -, hc⟩
    exact newline_not_mem_escape c hc
  simp [quoted, hescaped]

/-- No text of at most this length has a line break. -/
structure OneLine (size : ℕ) : Prop where
  value : ∀ v, (dumps v).length ≤ size → '\n' ∉ dumps v
  items : ∀ items, (dumpsItems items).length ≤ size → '\n' ∉ dumpsItems items
  field : ∀ field, (dumpsField field).length ≤ size → '\n' ∉ dumpsField field
  fields : ∀ fields, (dumpsFields fields).length ≤ size → '\n' ∉ dumpsFields fields

section OneLine

variable {size : ℕ}

theorem OneLine.of_dumps (h : OneLine size) (v : Value) (hsize : (dumps v).length ≤ size + 1) :
    '\n' ∉ dumps v := by
  cases v with
  | null => decide
  | bool b => cases b <;> decide
  | int n => exact newline_not_mem_of_number (all_intText n)
  | float x => exact newline_not_mem_of_number (Bool.and_eq_true_iff.mp x.isFloat).2
  | nan => decide
  | infinity negative => cases negative <;> decide
  | str text => exact newline_not_mem_quoted text
  | foreign text => exact newline_not_mem_quoted text
  | array items =>
    cases items with
    | nil => decide
    | cons item rest =>
      rw [dumps, List.length_cons, List.length_append] at hsize
      have hitem := h.value item (by omega)
      have hrest := h.items rest (by omega)
      simp [dumps, hitem, hrest]
  | object fields =>
    cases fields with
    | nil => decide
    | cons field rest =>
      rw [dumps, List.length_cons, List.length_append] at hsize
      have hfield := h.field field (by omega)
      have hrest := h.fields rest (by omega)
      simp [dumps, hfield, hrest]

theorem OneLine.of_items (h : OneLine size) (items : List Value)
    (hsize : (dumpsItems items).length ≤ size + 1) : '\n' ∉ dumpsItems items := by
  cases items with
  | nil => decide
  | cons item rest =>
    rw [dumpsItems, List.length_cons, List.length_cons, List.length_append] at hsize
    have hitem := h.value item (by omega)
    have hrest := h.items rest (by omega)
    simp [dumpsItems, hitem, hrest]

theorem OneLine.of_field (h : OneLine size) (field : String × Value)
    (hsize : (dumpsField field).length ≤ size + 1) : '\n' ∉ dumpsField field := by
  obtain ⟨key, value⟩ := field
  rw [dumpsField, List.length_append, List.length_cons, List.length_cons] at hsize
  have hkey := newline_not_mem_quoted key
  have hvalue := h.value value (by omega)
  simp [dumpsField, hkey, hvalue]

theorem OneLine.of_fields (h : OneLine size) (fields : List (String × Value))
    (hsize : (dumpsFields fields).length ≤ size + 1) : '\n' ∉ dumpsFields fields := by
  cases fields with
  | nil => decide
  | cons field rest =>
    rw [dumpsFields, List.length_cons, List.length_cons, List.length_append] at hsize
    have hfield := h.field field (by omega)
    have hrest := h.fields rest (by omega)
    simp [dumpsFields, hfield, hrest]

theorem oneLine (size : ℕ) : OneLine size := by
  induction size with
  | zero =>
    refine ⟨fun v hsize => ?_, fun items hsize => ?_, fun field hsize => ?_,
      fun fields hsize => ?_⟩
    · rw [List.eq_nil_of_length_eq_zero (Nat.le_zero.mp hsize)]
      exact List.not_mem_nil
    · rw [List.eq_nil_of_length_eq_zero (Nat.le_zero.mp hsize)]
      exact List.not_mem_nil
    · rw [List.eq_nil_of_length_eq_zero (Nat.le_zero.mp hsize)]
      exact List.not_mem_nil
    · rw [List.eq_nil_of_length_eq_zero (Nat.le_zero.mp hsize)]
      exact List.not_mem_nil
  | succ size ih => exact ⟨ih.of_dumps, ih.of_items, ih.of_field, ih.of_fields⟩

end OneLine

/-- No value is written with a line break. -/
theorem newline_not_mem_dumps (v : Value) : '\n' ∉ dumps v :=
  (oneLine (dumps v).length).value v le_rfl

end MT5Services.JsonText
