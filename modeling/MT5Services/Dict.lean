import Mathlib.Data.List.Nodup

/-!
Insertion-ordered dictionaries with unique keys, as in Python: assigning to a
present key keeps its place, a new key goes to the end, and iteration follows
that order. Uniqueness of the keys is a field, so a table with two rows under
one key cannot be built. The same structure carries a database table under its
row identifier, with `updateWhere` as one `UPDATE` statement.
-/
namespace MT5Services

structure Dict (K V : Type*) where
  items : List (K × V)
  nodup : (items.map Prod.fst).Nodup

namespace Dict

variable {K V W : Type*}

def empty : Dict K V := ⟨[], List.nodup_nil⟩

def keys (d : Dict K V) : List K := d.items.map Prod.fst

def values (d : Dict K V) : List V := d.items.map Prod.snd

/-- What every item contributes, in the order of the items. -/
def gather {R : Type*} (f : K → V → List R) (d : Dict K V) : List R :=
  d.items.flatMap fun p => f p.1 p.2

def mapValues (f : K → V → W) (d : Dict K V) : Dict K W where
  items := d.items.map fun p => (p.1, f p.1 p.2)
  nodup := by simpa only [List.map_map, Function.comp_def] using d.nodup

/-- `UPDATE … SET change WHERE cond`. -/
def updateWhere (d : Dict K V) (cond : K → V → Bool) (change : V → V) : Dict K V :=
  d.mapValues fun key value => if cond key value then change value else value

/-- `cursor.rowcount` of the `UPDATE` with this condition. -/
def rowcount (d : Dict K V) (cond : K → V → Bool) : ℕ :=
  d.items.countP fun p => cond p.1 p.2

/-- The items whose key is wanted. -/
def pick (d : Dict K V) (wanted : K → Bool) : Dict K V where
  items := d.items.filter fun p => wanted p.1
  nodup := d.nodup.sublist (List.filter_sublist.map Prod.fst)

variable [DecidableEq K]

def get? (d : Dict K V) (key : K) : Option V := d.items.lookup key

def contains (d : Dict K V) (key : K) : Bool := (d.get? key).isSome

/-- `d.pop(key, None)` without its result. -/
def pop (d : Dict K V) (key : K) : Dict K V where
  items := d.items.filter fun p => p.1 ≠ key
  nodup := d.nodup.sublist (List.filter_sublist.map Prod.fst)

theorem not_mem_keys_of_contains_false (d : Dict K V) (key : K)
    (h : d.contains key = false) : key ∉ d.items.map Prod.fst := by
  intro hmem
  obtain ⟨p, hp, rfl⟩ := List.mem_map.mp hmem
  have hnone : d.items.lookup p.1 = none := by simpa [contains, get?] using h
  simpa using List.lookup_eq_none_iff.mp hnone p hp

theorem nodup_keys_append (d : Dict K V) (key : K) (value : V)
    (h : d.contains key = false) : ((d.items ++ [(key, value)]).map Prod.fst).Nodup := by
  rw [List.map_append, List.nodup_append]
  refine ⟨d.nodup, List.nodup_singleton _, ?_⟩
  intro a ha b hb hab
  rw [List.map_singleton, List.mem_singleton] at hb
  have hkey : a = key := hab.trans hb
  exact not_mem_keys_of_contains_false d key h (hkey ▸ ha)

/-- Python's `d[key] = value`. -/
def set (d : Dict K V) (key : K) (value : V) : Dict K V :=
  if h : d.contains key = false then
    ⟨d.items ++ [(key, value)], nodup_keys_append d key value h⟩
  else d.mapValues fun k old => if k = key then value else old

theorem mem_items_iff_get? (d : Dict K V) (key : K) (value : V) :
    (key, value) ∈ d.items ↔ d.get? key = some value := by
  obtain ⟨items, hnodup⟩ := d
  simp only [get?]
  induction items with
  | nil => simp
  | cons p rest ih =>
    obtain ⟨first, old⟩ := p
    simp only [List.map_cons, List.nodup_cons] at hnodup
    by_cases hk : key = first
    · subst hk
      have hrest : (key, value) ∉ rest := by
        intro hmem
        exact hnodup.1 (List.mem_map.mpr ⟨_, hmem, rfl⟩)
      simp [hrest, eq_comm]
    · simpa [List.lookup_cons, beq_false_of_ne hk, hk] using ih hnodup.2

theorem rowcount_pos_iff (d : Dict K V) (cond : K → V → Bool) :
    0 < d.rowcount cond ↔ ∃ key value, d.get? key = some value ∧ cond key value = true := by
  simp only [rowcount, List.countP_pos_iff, ← mem_items_iff_get?, Prod.exists]

@[simp]
theorem get?_empty (key : K) : (empty : Dict K V).get? key = none := rfl

@[simp]
theorem get?_mapValues (f : K → V → W) (d : Dict K V) (key : K) :
    (d.mapValues f).get? key = (d.get? key).map (f key) := by
  simp only [get?, mapValues]
  induction d.items with
  | nil => rfl
  | cons p rest ih =>
    obtain ⟨first, value⟩ := p
    by_cases hk : key = first
    · subst hk
      simp
    · simp [List.lookup_cons, beq_false_of_ne hk, ih]

@[simp]
theorem get?_updateWhere (d : Dict K V) (cond : K → V → Bool) (change : V → V) (key : K) :
    (d.updateWhere cond change).get? key =
      (d.get? key).map fun value => if cond key value then change value else value :=
  get?_mapValues _ d key

@[simp]
theorem get?_pick (d : Dict K V) (wanted : K → Bool) (key : K) :
    (d.pick wanted).get? key = if wanted key then d.get? key else none := by
  simp only [get?, pick]
  induction d.items with
  | nil => simp
  | cons p rest ih =>
    obtain ⟨first, value⟩ := p
    by_cases hf : wanted first = true
    · by_cases hk : key = first
      · subst hk
        simp [hf]
      · simpa [hf, List.lookup_cons, beq_false_of_ne hk] using ih
    · by_cases hk : key = first
      · subst hk
        simpa [hf] using ih
      · simpa [hf, List.lookup_cons, beq_false_of_ne hk] using ih

@[simp]
theorem get?_pop (d : Dict K V) (gone key : K) :
    (d.pop gone).get? key = if key = gone then none else d.get? key := by
  have hpick : d.pop gone = d.pick fun key => key ≠ gone := rfl
  rw [hpick, get?_pick]
  by_cases hk : key = gone
  · simp [hk]
  · simp [hk]

@[simp]
theorem get?_set (d : Dict K V) (key k : K) (value : V) :
    (d.set key value).get? k = if k = key then some value else d.get? k := by
  unfold set
  split
  · rename_i hnew
    have hnone : d.get? key = none := by simpa [contains] using hnew
    by_cases hk : k = key
    · subst hk
      have hlookup : d.items.lookup k = none := hnone
      simp [get?, List.lookup_append, hlookup]
    · simp [get?, List.lookup_append, List.lookup_cons, beq_false_of_ne hk, hk]
  · rename_i hold
    rw [get?_mapValues]
    by_cases hk : k = key
    · subst hk
      obtain ⟨old, hget⟩ : ∃ old, d.get? k = some old := by
        simpa [contains, Option.ne_none_iff_exists'] using hold
      simp [hget]
    · simp [hk]

theorem contains_set (d : Dict K V) (key k : K) (value : V) :
    (d.set key value).contains k = (decide (k = key) || d.contains k) := by
  rw [contains, get?_set, contains]
  by_cases h : k = key
  · rw [if_pos h, decide_eq_true h, Option.isSome_some, Bool.true_or]
  · rw [if_neg h, decide_eq_false h, Bool.false_or]

variable {d : Dict K V} {key : K}

theorem pop_items_of_get?_none (h : d.get? key = none) : (d.pop key).items = d.items := by
  rw [pop, List.filter_eq_self]
  intro p hp
  refine decide_eq_true ?_
  rintro rfl
  rw [get?, List.lookup_eq_none_iff] at h
  simpa using h p hp

/-- The items with one of them in front. -/
theorem perm_of_get? {value : V} (h : d.get? key = some value) :
    d.items.Perm ((key, value) :: (d.pop key).items) := by
  obtain ⟨front, back, hitems⟩ := List.append_of_mem ((mem_items_iff_get? d key value).mpr h)
  have hnodup := d.nodup
  rw [hitems, List.map_append, List.map_cons, List.nodup_append] at hnodup
  obtain ⟨-, hback, hdisjoint⟩ := hnodup
  have hfront : front.filter (fun p => decide (p.1 ≠ key)) = front := by
    rw [List.filter_eq_self]
    intro p hp
    exact decide_eq_true
      (hdisjoint p.1 (List.mem_map.mpr ⟨p, hp, rfl⟩) key List.mem_cons_self)
  have hrest : back.filter (fun p => decide (p.1 ≠ key)) = back := by
    rw [List.filter_eq_self]
    intro p hp
    refine decide_eq_true ?_
    rintro rfl
    exact (List.nodup_cons.mp hback).1 (List.mem_map.mpr ⟨p, hp, rfl⟩)
  have hpop : (d.pop key).items = front ++ back := by
    change d.items.filter (fun p => decide (p.1 ≠ key)) = front ++ back
    rw [hitems, List.filter_append, List.filter_cons_of_neg (by simp), hfront, hrest]
  rw [hpop, hitems]
  exact List.perm_middle

theorem pop_set (d : Dict K V) (key : K) (value : V) :
    ((d.set key value).pop key).items = (d.pop key).items := by
  unfold set
  split
  · simp [pop]
  · change List.filter (fun p => decide (p.1 ≠ key))
        (d.items.map fun p => (p.1, if p.1 = key then value else p.2)) =
      d.items.filter fun p => decide (p.1 ≠ key)
    rw [List.filter_map]
    have hsame : ∀ p ∈ d.items.filter (fun p => decide (p.1 ≠ key)),
        (p.1, if p.1 = key then value else p.2) = p := by
      intro p hp
      rw [if_neg (of_decide_eq_true (List.mem_filter.mp hp).2)]
    exact (List.map_congr_left hsame).trans (List.map_id _)

theorem perm_set (d : Dict K V) (key : K) (value : V) :
    (d.set key value).items.Perm ((key, value) :: (d.pop key).items) := by
  have hset : (d.set key value).get? key = some value := by
    rw [get?_set, if_pos rfl]
  rw [← pop_set d key value]
  exact perm_of_get? hset

theorem set_items_of_get?_none (value : V) (h : d.get? key = none) :
    (d.set key value).items = d.items ++ [(key, value)] := by
  have hnew : d.contains key = false := by rw [contains, h, Option.isSome_none]
  rw [set, dif_pos hnew]

/-- A key that is there keeps its place. -/
theorem set_items_of_split {front back : List (K × V)} {old : V}
    (value : V) (h : d.items = front ++ (key, old) :: back) :
    (d.set key value).items = front ++ (key, value) :: back := by
  have hget : d.get? key = some old :=
    (mem_items_iff_get? d key old).mp (h ▸ List.mem_append_right _ List.mem_cons_self)
  have hold : ¬ d.contains key = false := by simp [contains, hget]
  have hnodup := d.nodup
  rw [h, List.map_append, List.map_cons, List.nodup_append] at hnodup
  obtain ⟨-, hback, hdisjoint⟩ := hnodup
  have hkeep : ∀ p ∈ front ++ back, (p.1, if p.1 = key then value else p.2) = p := by
    intro p hp
    have hkey : p.1 ≠ key := by
      rcases List.mem_append.mp hp with hp | hp
      · exact hdisjoint p.1 (List.mem_map_of_mem hp) key List.mem_cons_self
      · intro heq
        exact (List.nodup_cons.mp hback).1 (List.mem_map.mpr ⟨p, hp, heq⟩)
    rw [if_neg hkey]
  rw [set, dif_neg hold]
  change d.items.map (fun p => (p.1, if p.1 = key then value else p.2)) = _
  rw [h, List.map_append, List.map_cons, if_pos rfl]
  congr 1
  · exact (List.map_congr_left fun p hp => hkeep p (List.mem_append_left _ hp)).trans (List.map_id _)
  · congr 1
    exact (List.map_congr_left fun p hp => hkeep p (List.mem_append_right _ hp)).trans
      (List.map_id _)

/-- A table without rows to change is left as it is. -/
theorem updateWhere_eq_self {cond : K → V → Bool} {change : V → V}
    (h : ∀ key value, d.get? key = some value → cond key value = false) :
    d.updateWhere cond change = d := by
  obtain ⟨items, hnodup⟩ := d
  have hsame : ∀ p ∈ items, (p.1, if cond p.1 p.2 then change p.2 else p.2) = p := by
    intro p hp
    have hget : get? ⟨items, hnodup⟩ p.1 = some p.2 := (mem_items_iff_get? _ _ _).mp hp
    rw [h p.1 p.2 hget]
    rfl
  have hitems : items.map (fun p => (p.1, if cond p.1 p.2 then change p.2 else p.2)) = items :=
    (List.map_congr_left hsame).trans (List.map_id _)
  simp only [updateWhere, mapValues, hitems]

omit [DecidableEq K] in
theorem pick_eq_self {wanted : K → Bool} (h : ∀ key, wanted key = true) : d.pick wanted = d := by
  obtain ⟨items, hnodup⟩ := d
  have hitems : items.filter (fun p => wanted p.1) = items :=
    List.filter_eq_self.mpr fun p _ => h p.1
  simp only [pick, hitems]

section Related

variable {R : V → V → Prop}

/-- Rows under the same keys, each related to the one that stood there. -/
def Related (R : V → V → Prop) (d e : Dict K V) : Prop :=
  ∀ key, Option.Rel R (d.get? key) (e.get? key)

theorem related_refl (hrefl : ∀ value, R value value) (d : Dict K V) : Related R d d := by
  intro key
  cases d.get? key with
  | none => exact Option.Rel.none
  | some value => exact Option.Rel.some (hrefl value)

theorem related_updateWhere (hrefl : ∀ value, R value value) {d : Dict K V}
    {cond : K → V → Bool} {change : V → V}
    (h : ∀ key value, d.get? key = some value → cond key value = true →
      R value (change value)) : Related R d (d.updateWhere cond change) := by
  intro key
  rw [get?_updateWhere]
  cases hget : d.get? key with
  | none => exact Option.Rel.none
  | some value =>
    rw [Option.map_some]
    split
    · rename_i hcond
      exact Option.Rel.some (h key value hget hcond)
    · exact Option.Rel.some (hrefl value)

theorem Related.mono {S : V → V → Prop} {d e : Dict K V} (h : Related R d e)
    (hmono : ∀ before after, R before after → S before after) : Related S d e := by
  intro key
  have hrow := h key
  revert hrow
  generalize d.get? key = before
  generalize e.get? key = after
  rintro (hvalue | _)
  · exact Option.Rel.some (hmono _ _ hvalue)
  · exact Option.Rel.none

theorem Related.forward {d e : Dict K V} (h : Related R d e) {key : K} {value : V}
    (hget : d.get? key = some value) :
    ∃ after, e.get? key = some after ∧ R value after := by
  have hrow := h key
  rw [hget] at hrow
  generalize hafter : e.get? key = after at hrow
  cases hrow with
  | some hvalue => exact ⟨_, rfl, hvalue⟩

theorem Related.backward {d e : Dict K V} (h : Related R d e) {key : K} {value : V}
    (hget : e.get? key = some value) :
    ∃ before, d.get? key = some before ∧ R before value := by
  have hrow := h key
  rw [hget] at hrow
  generalize hbefore : d.get? key = before at hrow
  cases hrow with
  | some hvalue => exact ⟨_, rfl, hvalue⟩

end Related

section Gather

variable {R : Type*} (f : K → V → List R)

theorem gather_pop_of_get?_none {d : Dict K V} {key : K} (h : d.get? key = none) :
    (d.pop key).gather f = d.gather f := by
  rw [gather, pop_items_of_get?_none h, gather]

variable [DecidableEq R]

theorem count_gather {d : Dict K V} {key : K} {value : V} (h : d.get? key = some value) (r : R) :
    (d.gather f).count r = (f key value).count r + ((d.pop key).gather f).count r := by
  rw [gather, ((perm_of_get? h).flatMap_right _).count_eq, List.flatMap_cons, List.count_append,
    gather]

theorem count_gather_set (d : Dict K V) (key : K) (value : V) (r : R) :
    ((d.set key value).gather f).count r =
      (f key value).count r + ((d.pop key).gather f).count r := by
  rw [gather, ((perm_set d key value).flatMap_right _).count_eq, List.flatMap_cons,
    List.count_append, gather]

end Gather

end Dict

end MT5Services
