import Mathlib.Data.List.Dedup
import Mathlib.Data.List.DropRight
import Mathlib.Data.List.Sort

/-!
The last elements of a list, Python's `items[-n:]`, as Mathlib's `List.rtake`. A window
that slides by one element loses its first and gains the newest. In a strictly sorted list
the windows are the parts closed upwards, and a part that holds the last elements has the
window of the whole list.
-/
namespace MT5Services.Windows

variable {α β : Type*}

theorem length_rtake (list : List α) (n : ℕ) : (list.rtake n).length = min n list.length := by
  rw [List.rtake, List.length_drop]
  omega

variable {n : ℕ} {list : List α}

theorem length_rtake_of_le (h : n ≤ list.length) : (list.rtake n).length = n := by
  rw [length_rtake]
  omega

theorem map_rtake (f : α → β) (list : List α) (n : ℕ) :
    (list.rtake n).map f = (list.map f).rtake n := by
  rw [List.rtake, List.rtake, List.map_drop, List.length_map]

/-- The window with the newest element in it, and what stood before that element. -/
theorem rtake_eq_concat {newest : α} (hn : 0 < n) (hnewest : list.getLast? = some newest) :
    list.rtake n = list.dropLast.rtake (n - 1) ++ [newest] := by
  have hlist : list = list.dropLast ++ [newest] := by
    obtain ⟨front, rfl⟩ := List.getLast?_eq_some_iff.mp hnewest
    rw [List.dropLast_concat]
  have hsucc : n = n - 1 + 1 := by omega
  conv_lhs => rw [hlist, hsucc]
  exact List.rtake_concat_succ ..

theorem rtake_suffix (list : List α) (n : ℕ) : list.rtake n <:+ list := List.drop_suffix _ list

theorem rtake_of_length_le (h : list.length ≤ n) : list.rtake n = list := by
  rw [List.rtake, Nat.sub_eq_zero_of_le h, List.drop_zero]

theorem rtake_of_suffix {part list : List α} (h : part <:+ list) (hn : n ≤ part.length) :
    part.rtake n = list.rtake n := by
  obtain ⟨front, rfl⟩ := h
  have hdrop : (front ++ part).length - n = front.length + (part.length - n) := by
    rw [List.length_append]
    omega
  rw [List.rtake, List.rtake, hdrop, ← List.drop_drop, List.drop_left]

theorem rtake_cons (head : α) (tail : List α) (n : ℕ) :
    (head :: tail).rtake n = if tail.length < n then head :: tail else tail.rtake n := by
  split
  · exact rtake_of_length_le (by rw [List.length_cons]; omega)
  · have hdrop : (head :: tail).length - n = tail.length - n + 1 := by
      rw [List.length_cons]
      omega
    rw [List.rtake, hdrop, List.drop_succ_cons, List.rtake]

/-- `items[-n:]`, which for `n = 0` is the whole list. -/
def lastItems (items : List α) (n : ℕ) : List α := if n = 0 then items else items.rtake n

theorem lastItems_of_pos (items : List α) (hn : 0 < n) : lastItems items n = items.rtake n :=
  if_neg (by omega)

theorem lastItems_suffix (items : List α) (n : ℕ) : lastItems items n <:+ items := by
  unfold lastItems
  split
  · exact List.suffix_rfl
  · exact rtake_suffix items n

theorem rtake_append (front back : List α) (n : ℕ) :
    (front ++ back).rtake n =
      if n ≤ back.length then back.rtake n else front.rtake (n - back.length) ++ back := by
  split
  · exact (rtake_of_suffix (List.suffix_append front back) ‹_›).symm
  · have hdrop : (front ++ back).length - n = front.length - (n - back.length) := by
      rw [List.length_append]
      omega
    rw [List.rtake, hdrop, List.drop_append_of_le_length (by omega), List.rtake]

section Sorted

variable [LinearOrder α]

/-- The sorted list of the members of both. -/
def mergeSorted (existing incoming : List α) : List α :=
  (existing ++ incoming).dedup.insertionSort (· ≤ ·)

variable {x : α}

theorem mem_mergeSorted {existing incoming : List α} :
    x ∈ mergeSorted existing incoming ↔ x ∈ existing ∨ x ∈ incoming := by
  rw [mergeSorted, List.mem_insertionSort, List.mem_dedup, List.mem_append]

theorem mergeSorted_sorted (existing incoming : List α) :
    (mergeSorted existing incoming).Pairwise (· < ·) := by
  have hsorted : (mergeSorted existing incoming).Pairwise (· ≤ ·) := List.pairwise_insertionSort ..
  have hnodup : (mergeSorted existing incoming).Nodup :=
    (List.perm_insertionSort _ _).nodup_iff.mpr (List.nodup_dedup _)
  exact (hsorted.and hnodup).imp fun h => lt_of_le_of_ne h.1 h.2

variable {list : List α}

theorem le_getLast (hlist : list.Pairwise (· < ·)) {last : α}
    (hlast : list.getLast? = some last) : ∀ x ∈ list, x ≤ last := by
  obtain ⟨front, rfl⟩ := List.getLast?_eq_some_iff.mp hlast
  intro x hx
  rcases List.mem_append.mp hx with hfront | hx
  · exact le_of_lt ((List.pairwise_append.mp hlist).2.2 x hfront last (List.mem_singleton_self last))
  · exact le_of_eq (List.mem_singleton.mp hx)

variable {part : List α}

theorem sublist_of_subset (hpart : part.Pairwise (· < ·))
    (hlist : list.Pairwise (· < ·)) (h : part ⊆ list) : part.Sublist list :=
  List.sublist_of_subperm_of_pairwise (List.subperm_of_subset hpart.nodup h) hpart hlist

/-- A part closed upwards is the end of the list. -/
theorem suffix_of_upper (hpart : part.Pairwise (· < ·))
    (hlist : list.Pairwise (· < ·)) (hsub : part ⊆ list)
    (hupper : ∀ x ∈ part, ∀ y ∈ list, x ≤ y → y ∈ part) : part <:+ list := by
  induction list with
  | nil =>
    have hnil := List.eq_nil_of_subset_nil hsub
    exact hnil ▸ List.suffix_rfl
  | cons head tail ih =>
    have hhead : ∀ y ∈ tail, head < y := (List.pairwise_cons.mp hlist).1
    by_cases hmem : head ∈ part
    · have hall : ∀ y, y ∈ part ↔ y ∈ head :: tail := by
        intro y
        refine ⟨fun hy => hsub hy, fun hy => hupper head hmem y hy ?_⟩
        rcases List.mem_cons.mp hy with rfl | htail
        · exact le_refl y
        · exact le_of_lt (hhead _ htail)
      have hequal := hpart.eq_of_mem_iff hlist hall
      exact hequal ▸ List.suffix_rfl
    · have htail : part ⊆ tail := by
        intro x hx
        rcases List.mem_cons.mp (hsub hx) with rfl | hmem'
        · exact absurd hx hmem
        · exact hmem'
      exact (ih hlist.of_cons htail fun x hx y hy => hupper x hx y (List.mem_cons_of_mem head hy)).trans
        (List.suffix_cons head tail)

theorem upper_of_suffix (hlist : list.Pairwise (· < ·)) (h : part <:+ list)
    {x y : α} (hx : x ∈ part) (hy : y ∈ list) (hxy : x ≤ y) : y ∈ part := by
  obtain ⟨front, rfl⟩ := h
  rcases List.mem_append.mp hy with hfront | hpart
  · have hlt := (List.pairwise_append.mp hlist).2.2 y hfront x hx
    exact absurd hxy (not_le.mpr hlt)
  · exact hpart

variable {n : ℕ}

/-- The last elements are those with few elements after them. -/
theorem mem_rtake_iff (hlist : list.Pairwise (· < ·)) :
    x ∈ list.rtake n ↔ x ∈ list ∧ (list.filter (x < ·)).length < n := by
  induction list with
  | nil => simp
  | cons head tail ih =>
    have hhead : ∀ y ∈ tail, head < y := (List.pairwise_cons.mp hlist).1
    have hle : (tail.filter (x < ·)).length ≤ tail.length := List.length_filter_le _ _
    rw [rtake_cons]
    by_cases hx : x = head
    · subst hx
      have hfilter : (x :: tail).filter (x < ·) = tail := by
        rw [List.filter_cons_of_neg (by simp), List.filter_eq_self.mpr]
        intro y hy
        exact decide_eq_true (hhead y hy)
      rw [hfilter]
      split
      · simp [*]
      · have hnot : x ∉ tail.rtake n := fun h =>
          lt_irrefl x (hhead x ((rtake_suffix tail n).mem h))
        simp [*]
    · have hmem : x ∈ head :: tail ↔ x ∈ tail := by simp [hx]
      by_cases htail : x ∈ tail
      · have hfilter : (head :: tail).filter (x < ·) = tail.filter (x < ·) :=
          List.filter_cons_of_neg (by simpa using le_of_lt (hhead _ htail))
        rw [hfilter, hmem]
        split
        · rw [hmem]
          refine ⟨fun _ => ⟨htail, ?_⟩, fun _ => htail⟩
          omega
        · exact ih hlist.of_cons
      · have hnot : x ∉ tail.rtake n := fun h => htail ((rtake_suffix tail n).mem h)
        rw [hmem]
        split <;> simp [hx, htail, hnot]

theorem mem_rtake_of_subset (hpart : part.Pairwise (· < ·))
    (hlist : list.Pairwise (· < ·)) (hsub : part ⊆ list) (hx : x ∈ part)
    (hwindow : x ∈ list.rtake n) : x ∈ part.rtake n := by
  refine (mem_rtake_iff hpart).mpr ⟨hx, ?_⟩
  have hfew := ((mem_rtake_iff hlist).mp hwindow).2
  have hle := ((sublist_of_subset hpart hlist hsub).filter (x < ·)).length_le
  omega

/-- A part that holds the last elements of the list has the same window. -/
theorem rtake_of_window_subset (hpart : part.Pairwise (· < ·))
    (hlist : list.Pairwise (· < ·)) (hsub : part ⊆ list) (hwindow : list.rtake n ⊆ part) :
    part.rtake n = list.rtake n := by
  have hsorted : (list.rtake n).Pairwise (· < ·) := hlist.sublist (rtake_suffix list n).sublist
  refine (hpart.sublist (rtake_suffix part n).sublist).eq_of_mem_iff hsorted ?_
  intro x
  constructor
  · intro hx
    by_cases hshort : list.length ≤ n
    · rw [rtake_of_length_le hshort]
      exact hsub ((rtake_suffix part n).mem hx)
    · -- the window of the list is an end of the part, as long as the part's own window
      have hend : list.rtake n <:+ part := by
        refine suffix_of_upper hsorted hpart hwindow ?_
        intro y hy z hz hyz
        exact upper_of_suffix hlist (rtake_suffix list n) hy (hsub hz) hyz
      have hlength : n ≤ (list.rtake n).length := by
        rw [length_rtake]
        omega
      rw [← rtake_of_suffix hend hlength] at hx
      exact (rtake_suffix _ n).mem hx
  · intro hx
    exact mem_rtake_of_subset hpart hlist hsub (hwindow hx) hx

/-- A sorted list up to an element and after it. -/
theorem split_at (hlist : list.Pairwise (· < ·)) (x : α) :
    list.filter (· ≤ x) ++ list.filter (x < ·) = list := by
  induction list with
  | nil => rfl
  | cons head tail ih =>
    have hhead : ∀ y ∈ tail, head < y := (List.pairwise_cons.mp hlist).1
    by_cases hx : head ≤ x
    · rw [List.filter_cons_of_pos (by simpa using hx), List.filter_cons_of_neg (by simpa using hx),
        List.cons_append, ih hlist.of_cons]
    · have hlt : x < head := not_le.mp hx
      have hnone : (head :: tail).filter (· ≤ x) = [] := by
        rw [List.filter_eq_nil_iff]
        intro y hy
        rcases List.mem_cons.mp hy with rfl | htail
        · simpa using hlt
        · simpa using lt_trans hlt (hhead y htail)
      have hall : (head :: tail).filter (x < ·) = head :: tail := by
        rw [List.filter_eq_self]
        intro y hy
        rcases List.mem_cons.mp hy with rfl | htail
        · simpa using hlt
        · simpa using lt_trans hlt (hhead y htail)
      rw [hnone, hall, List.nil_append]

theorem filter_le_filter_lt (list : List α) (x : α) :
    (list.filter (x < ·)).filter (· ≤ x) = [] := by
  rw [List.filter_eq_nil_iff]
  intro y hy
  simpa using (List.mem_filter.mp hy).2

/-- What a window holds up to an element of the list, as a window of the list up to there. -/
theorem filter_rtake (hlist : list.Pairwise (· < ·)) (x : α) (n : ℕ) :
    (list.rtake n).filter (· ≤ x) =
      (list.filter (· ≤ x)).rtake (n - (list.filter (x < ·)).length) := by
  have hself : (list.filter (· ≤ x)).filter (· ≤ x) = list.filter (· ≤ x) := by
    rw [List.filter_filter]
    simp
  conv_lhs => rw [← split_at hlist x, rtake_append]
  split
  · have hnone : ((list.filter (x < ·)).rtake n).filter (· ≤ x) = [] := by
      have hsuffix := (rtake_suffix (list.filter (x < ·)) n).filter (· ≤ x)
      rw [filter_le_filter_lt] at hsuffix
      exact List.suffix_nil.mp hsuffix
    rw [hnone, Nat.sub_eq_zero_of_le ‹_›, List.rtake_zero]
  · rw [List.filter_append, filter_le_filter_lt, List.append_nil, List.filter_eq_self.mpr]
    intro y hy
    exact (List.mem_filter.mp ((rtake_suffix _ _).mem hy)).2

/-- The elements up to one of them, as an index reads them. -/
theorem take_idxOf (hlist : list.Pairwise (· < ·)) (hx : x ∈ list) :
    list.take (list.idxOf x + 1) = list.filter (· ≤ x) := by
  induction list with
  | nil => exact absurd hx List.not_mem_nil
  | cons head tail ih =>
    have hhead : ∀ y ∈ tail, head < y := (List.pairwise_cons.mp hlist).1
    by_cases hhere : head = x
    · subst hhere
      have hnone : tail.filter (· ≤ head) = [] := by
        rw [List.filter_eq_nil_iff]
        intro y hy
        simpa using hhead y hy
      rw [List.idxOf_cons_self, List.filter_cons_of_pos (by simp), hnone, List.take_succ_cons,
        List.take_zero]
    · have htail : x ∈ tail := by
        rcases List.mem_cons.mp hx with rfl | htail
        · exact absurd rfl hhere
        · exact htail
      rw [List.idxOf_cons_ne tail hhere, List.take_succ_cons, ih hlist.of_cons htail,
        List.filter_cons_of_pos (by simpa using le_of_lt (hhead x htail))]

end Sorted

end MT5Services.Windows
