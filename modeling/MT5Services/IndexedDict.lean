import MT5Services.Dict
import Mathlib.Data.Finset.Sort

/-!
A dictionary with an index by a label that a row may have: under each label the set
of the keys whose rows have it. Writing and removing a row take its key out of the set of the
row that stood there, drop a set that becomes empty, and add the key to the set of the new
row. That the index says what the rows say is a field.
-/
namespace MT5Services

structure IndexedDict (K A V : Type*) [DecidableEq K] [DecidableEq A] (label : V → Option A)
    where
  rows : Dict K V
  index : Dict A (Finset K)
  indexed : ∀ a key, key ∈ (index.get? a).getD ∅ ↔
    ∃ row, rows.get? key = some row ∧ label row = some a

namespace IndexedDict

variable {K A V : Type*} [DecidableEq K] [DecidableEq A] {label : V → Option A}

def empty : IndexedDict K A V label where
  rows := Dict.empty
  index := Dict.empty
  indexed := by
    intro a key
    simp

def get? (d : IndexedDict K A V label) (key : K) : Option V := d.rows.get? key

/-- The keys under a label. -/
def keysOf (d : IndexedDict K A V label) (a : A) : Finset K := (d.index.get? a).getD ∅

variable {d : IndexedDict K A V label} {key : K} {a : A}

theorem mem_keysOf : key ∈ d.keysOf a ↔ ∃ row, d.get? key = some row ∧ label row = some a :=
  d.indexed a key

/-- A key taken out of the set under a label; an empty set is dropped. -/
def discard (index : Dict A (Finset K)) (a : A) (key : K) : Dict A (Finset K) :=
  match index.get? a with
  | some keys => if keys.erase key = ∅ then index.pop a else index.set a (keys.erase key)
  | none => index

/-- A key added to the set under a label. -/
def add (index : Dict A (Finset K)) (a : A) (key : K) : Dict A (Finset K) :=
  index.set a (insert key ((index.get? a).getD ∅))

variable {b : A} {index : Dict A (Finset K)} {other : K}

theorem mem_discard : other ∈ ((discard index a key).get? b).getD ∅ ↔
      other ∈ (index.get? b).getD ∅ ∧ ¬ (b = a ∧ other = key) := by
  unfold discard
  cases hkeys : index.get? a with
  | none =>
    dsimp only
    constructor
    · intro h
      refine ⟨h, ?_⟩
      rintro ⟨rfl, _⟩
      rw [hkeys] at h
      exact absurd h (Finset.notMem_empty other)
    · exact fun h => h.1
  | some keys =>
    dsimp only
    by_cases hab : b = a
    · subst hab
      have herase : other ∈ keys.erase key ↔ other ∈ keys ∧ ¬ (b = b ∧ other = key) := by
        rw [Finset.mem_erase]
        simp only [true_and]
        exact and_comm
      by_cases hempty : keys.erase key = ∅
      · rw [if_pos hempty, Dict.get?_pop, if_pos rfl, hkeys, Option.getD_some, ← herase, hempty]
        rfl
      · rw [if_neg hempty, Dict.get?_set, if_pos rfl, hkeys, Option.getD_some, Option.getD_some,
          herase]
    · by_cases hempty : keys.erase key = ∅
      · rw [if_pos hempty, Dict.get?_pop, if_neg hab]
        simp [hab]
      · rw [if_neg hempty, Dict.get?_set, if_neg hab]
        simp [hab]

theorem mem_add : other ∈ ((add index a key).get? b).getD ∅ ↔
      other ∈ (index.get? b).getD ∅ ∨ (b = a ∧ other = key) := by
  unfold add
  rw [Dict.get?_set]
  by_cases hab : b = a
  · subst hab
    rw [if_pos rfl, Option.getD_some, Finset.mem_insert]
    simp [or_comm]
  · rw [if_neg hab]
    simp [hab]

/-- The index without the key of the row that stands under it. -/
def forget (d : IndexedDict K A V label) (key : K) : Dict A (Finset K) :=
  match (d.rows.get? key).bind label with
  | some a => discard d.index a key
  | none => d.index

theorem mem_forget : other ∈ ((d.forget key).get? b).getD ∅ ↔
      other ∈ (d.index.get? b).getD ∅ ∧ other ≠ key := by
  have hsame : ∀ a, (d.rows.get? key).bind label = some a →
      (key ∈ (d.index.get? b).getD ∅ ↔ b = a) := by
    intro a ha
    rw [d.indexed b key]
    obtain ⟨row, hrow, hlabel⟩ := Option.bind_eq_some_iff.mp ha
    constructor
    · rintro ⟨row', hrow', hlabel'⟩
      rw [hrow] at hrow'
      cases hrow'
      rw [hlabel] at hlabel'
      exact (Option.some.inj hlabel').symm
    · rintro rfl
      exact ⟨row, hrow, hlabel⟩
  unfold forget
  cases hlabel : (d.rows.get? key).bind label with
  | none =>
    dsimp only
    constructor
    · intro h
      refine ⟨h, ?_⟩
      rintro rfl
      obtain ⟨row, hrow, hrowLabel⟩ := (d.indexed b other).mp h
      rw [hrow, Option.bind_some, hrowLabel] at hlabel
      cases hlabel
    · exact fun h => h.1
  | some a =>
    dsimp only
    rw [mem_discard]
    refine and_congr_right fun h => not_congr ?_
    constructor
    · exact fun hboth => hboth.2
    · rintro rfl
      exact ⟨(hsame a hlabel).mp h, rfl⟩

/-- A row is taken out. -/
def remove (d : IndexedDict K A V label) (key : K) : IndexedDict K A V label where
  rows := d.rows.pop key
  index := d.forget key
  indexed := by
    intro a other
    rw [mem_forget, d.indexed, Dict.get?_pop]
    by_cases hkey : other = key
    · simp [hkey]
    · simp [hkey]

/-- The index once a row is written. -/
def indexAfter (d : IndexedDict K A V label) (key : K) (row : V) : Dict A (Finset K) :=
  match label row with
  | some a => add (d.forget key) a key
  | none => d.forget key

theorem mem_indexAfter {row : V} : other ∈ ((d.indexAfter key row).get? b).getD ∅ ↔
      (other ∈ (d.index.get? b).getD ∅ ∧ other ≠ key) ∨
        (label row = some b ∧ other = key) := by
  unfold indexAfter
  cases hlabel : label row with
  | none =>
    dsimp only
    rw [mem_forget]
    simp
  | some a =>
    dsimp only
    rw [mem_add, mem_forget, Option.some.injEq]
    exact or_congr_right (and_congr_left fun _ => eq_comm)

/-- A row is written over the one that stands there, if any. -/
def insert (d : IndexedDict K A V label) (key : K) (row : V) : IndexedDict K A V label where
  rows := d.rows.set key row
  index := d.indexAfter key row
  indexed := by
    intro a other
    rw [mem_indexAfter, d.indexed, Dict.get?_set]
    by_cases hkey : other = key
    · simp [hkey]
    · simp [hkey]

@[simp]
theorem get?_remove (d : IndexedDict K A V label) (key other : K) :
    (d.remove key).get? other = if other = key then none else d.get? other :=
  Dict.get?_pop _ _ _

@[simp]
theorem get?_insert (d : IndexedDict K A V label) (key other : K) (row : V) :
    (d.insert key row).get? other = if other = key then some row else d.get? other :=
  Dict.get?_set _ _ _ _

/-- No label has an empty set. -/
def Tight (d : IndexedDict K A V label) : Prop :=
  ∀ a keys, d.index.get? a = some keys → keys ≠ ∅

theorem tight_empty : (empty : IndexedDict K A V label).Tight := by
  intro a keys h
  cases h

variable {keys : Finset K}

theorem tight_discard (h : ∀ a keys, index.get? a = some keys → keys ≠ ∅)
    (hkeys : (discard index a key).get? b = some keys) : keys ≠ ∅ := by
  unfold discard at hkeys
  split at hkeys
  · split at hkeys
    · rw [Dict.get?_pop] at hkeys
      split at hkeys
      · cases hkeys
      · exact h _ _ hkeys
    · rename_i hleft
      rw [Dict.get?_set] at hkeys
      split at hkeys
      · rw [← Option.some.inj hkeys]
        exact hleft
      · exact h _ _ hkeys
  · exact h _ _ hkeys

theorem tight_add (h : ∀ a keys, index.get? a = some keys → keys ≠ ∅)
    (hkeys : (add index a key).get? b = some keys) : keys ≠ ∅ := by
  unfold add at hkeys
  rw [Dict.get?_set] at hkeys
  split at hkeys
  · rw [← Option.some.inj hkeys]
    exact Finset.insert_ne_empty _ _
  · exact h _ _ hkeys

theorem Tight.forget (h : d.Tight) (key : K)
    (hkeys : (d.forget key).get? b = some keys) : keys ≠ ∅ := by
  unfold IndexedDict.forget at hkeys
  split at hkeys
  · exact tight_discard h hkeys
  · exact h _ _ hkeys

theorem Tight.remove (h : d.Tight) (key : K) : (d.remove key).Tight :=
  fun _ _ hkeys => h.forget key hkeys

theorem Tight.insert (h : d.Tight) (key : K) (row : V) : (d.insert key row).Tight := by
  intro a keys hkeys
  have hafter : (d.indexAfter key row).get? a = some keys := hkeys
  unfold indexAfter at hafter
  split at hafter
  · exact tight_add (fun _ _ hother => h.forget key hother) hafter
  · exact h.forget key hafter

/-- The rows under a label, in the order of their keys. -/
def rowsOf [LinearOrder K] (d : IndexedDict K A V label) (a : A) : List V :=
  (d.keysOf a).sort.filterMap d.get?

theorem mem_rowsOf [LinearOrder K] {row : V} :
    row ∈ d.rowsOf a ↔ label row = some a ∧ ∃ key, d.get? key = some row := by
  rw [rowsOf, List.mem_filterMap]
  constructor
  · rintro ⟨key, hkey, hrow⟩
    obtain ⟨row', hrow', hlabel⟩ := mem_keysOf.mp ((Finset.mem_sort _).mp hkey)
    rw [hrow] at hrow'
    cases hrow'
    exact ⟨hlabel, key, hrow⟩
  · rintro ⟨hlabel, key, hrow⟩
    exact ⟨key, (Finset.mem_sort _).mpr (mem_keysOf.mpr ⟨row, hrow, hlabel⟩), hrow⟩

end IndexedDict

end MT5Services
