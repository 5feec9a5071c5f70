import Mathlib.Data.List.Sort

/-!
Lists into which elements were inserted, anywhere and in any number. A stable sort keeps
the relation, and so does a filter. Insertions that have a property make the leading run
of that property longer; insertions that lack it cut the run, and leave its first elements
exactly when none of them falls among these.
-/
namespace MT5Services.Insertions

variable {α : Type*} {P : α → Prop}

/-- The second list is the first one with elements inserted that all satisfy `P`. -/
inductive Inserts (P : α → Prop) : List α → List α → Prop
  | nil : Inserts P [] []
  | keep (a : α) {list longer : List α} (h : Inserts P list longer) :
      Inserts P (a :: list) (a :: longer)
  | insert (a : α) {list longer : List α} (ha : P a) (h : Inserts P list longer) :
      Inserts P list (a :: longer)

namespace Inserts

theorem refl (list : List α) : Inserts P list list := by
  induction list with
  | nil => exact .nil
  | cons a list ih => exact .keep a ih

/-- One element inserted at any position. -/
theorem single (front back : List α) {a : α} (ha : P a) :
    Inserts P (front ++ back) (front ++ a :: back) := by
  induction front with
  | nil => exact .insert a ha (refl back)
  | cons b front ih => exact .keep b ih

theorem sublist {list longer : List α} (h : Inserts P list longer) : List.Sublist list longer := by
  induction h with
  | nil => exact List.Sublist.slnil
  | keep a _ ih => exact ih.cons_cons a
  | insert a _ _ ih => exact ih.cons a

theorem filter {list longer : List α} (h : Inserts P list longer) (q : α → Bool) :
    Inserts P (list.filter q) (longer.filter q) := by
  induction h with
  | nil => exact .nil
  | keep a _ ih =>
    by_cases hq : q a = true
    · rw [List.filter_cons_of_pos hq, List.filter_cons_of_pos hq]
      exact .keep a ih
    · rw [List.filter_cons_of_neg hq, List.filter_cons_of_neg hq]
      exact ih
  | insert a ha _ ih =>
    by_cases hq : q a = true
    · rw [List.filter_cons_of_pos hq]
      exact .insert a ha ih
    · rw [List.filter_cons_of_neg hq]
      exact ih

section Sorting

variable {r : α → α → Prop} [DecidableRel r]

theorem insert_orderedInsert (a : α) (ha : P a) {list longer : List α}
    (h : Inserts P list longer) : Inserts P list (longer.orderedInsert r a) := by
  induction h with
  | nil => exact .insert a ha .nil
  | keep b h ih =>
    rw [List.orderedInsert_cons]
    split
    · exact .insert a ha (.keep b h)
    · exact .keep b ih
  | insert b hb h ih =>
    rw [List.orderedInsert_cons]
    split
    · exact .insert a ha (.insert b hb h)
    · exact .insert b hb ih

/-- Where the longer list has more in front of the new element, the shorter list has it
no later. -/
theorem orderedInsert [IsTrans α r] (a : α) {list longer : List α} (h : Inserts P list longer)
    (hsorted : longer.Pairwise r) :
    Inserts P (list.orderedInsert r a) (longer.orderedInsert r a) := by
  induction h with
  | nil => exact refl _
  | keep b h ih =>
    rw [List.orderedInsert_cons, List.orderedInsert_cons]
    split
    · exact .keep a (.keep b h)
    · exact .keep b (ih hsorted.of_cons)
  | @insert b list longer hb h ih =>
    rw [List.orderedInsert_cons]
    split
    · rename_i hab
      have hfirst : list.orderedInsert r a = a :: list := by
        cases list with
        | nil => rfl
        | cons c rest =>
          have hc : c ∈ longer := h.sublist.subset List.mem_cons_self
          have hbc : r b c := List.rel_of_pairwise_cons hsorted hc
          exact List.orderedInsert_cons_of_le r rest (IsTrans.trans a b c hab hbc)
      rw [hfirst]
      exact .keep a (.insert b hb h)
    · exact .insert b hb (ih hsorted.of_cons)

theorem insertionSort [IsTrans α r] [Std.Total r] {list longer : List α}
    (h : Inserts P list longer) :
    Inserts P (list.insertionSort r) (longer.insertionSort r) := by
  induction h with
  | nil => exact .nil
  | @keep a list longer _ ih =>
    exact ih.orderedInsert a (List.pairwise_insertionSort r longer)
  | @insert a list longer ha _ ih =>
    exact ih.insert_orderedInsert a ha

end Sorting

section Run

variable {p : α → Bool}

theorem length_takeWhile_le {list longer : List α} (h : Inserts P list longer)
    (hp : ∀ a, P a → p a = true) :
    (list.takeWhile p).length ≤ (longer.takeWhile p).length := by
  induction h with
  | nil => exact le_rfl
  | keep a _ ih =>
    rw [List.takeWhile_cons, List.takeWhile_cons]
    split
    · exact Nat.succ_le_succ ih
    · exact le_rfl
  | insert a ha _ ih =>
    rw [List.takeWhile_cons_of_pos (hp a ha), List.length_cons]
    omega

theorem takeWhile_front {list longer : List α} (h : Inserts P list longer)
    (hp : ∀ a, P a → p a = false) : longer.takeWhile p <+: list.takeWhile p := by
  induction h with
  | nil => exact List.prefix_rfl
  | keep a _ ih =>
    rw [List.takeWhile_cons, List.takeWhile_cons]
    split
    · exact List.cons_prefix_cons.mpr ⟨rfl, ih⟩
    · exact List.prefix_rfl
  | insert a ha _ ih =>
    rw [List.takeWhile_cons_of_neg (by simp [hp a ha])]
    exact List.nil_prefix

end Run

end Inserts

/-- The leading run has the first elements as long as none of them lacks the property. -/
theorem le_length_takeWhile_iff {p : α → Bool} {list : List α} {n : ℕ} :
    n ≤ (list.takeWhile p).length ↔ n ≤ list.length ∧ ∀ a ∈ list.take n, p a = true := by
  induction list generalizing n with
  | nil => simp
  | cons a list ih =>
    cases n with
    | zero => simp
    | succ n =>
      rw [List.takeWhile_cons, List.take_succ_cons, List.forall_mem_cons, List.length_cons]
      split
      · rename_i ha
        simp [ih, ha]
      · rename_i ha
        simp [ha]

theorem take_of_front {front list : List α} {n : ℕ} (h : front <+: list) (hn : n ≤ front.length) :
    list.take n = front.take n := by
  obtain ⟨back, rfl⟩ := h
  exact List.take_append_of_le_length hn

end MT5Services.Insertions
