import Mathlib.Data.List.Sort
import Mathlib.Order.Basic

/-!
Lists from new to old. Two such lists are put together by a stable sort and cut off at a
limit: the first entry of a kind that only the first list has, and what stands ahead of
it.
-/
namespace MT5Services.NewestFirst

variable {α T : Type*} [LinearOrder T] (time : α → T)

def Descending (list : List α) : Prop := list.Pairwise fun a b => time b ≤ time a

/-- Stable: entries of one time stay in their order. -/
def sort (list : List α) : List α := list.insertionSort fun a b => time b ≤ time a

variable {list : List α}

theorem sort_of_descending (h : Descending time list) : sort time list = list :=
  List.Pairwise.insertionSort_eq h

variable {a : α}

theorem orderedInsert_of_older (h : ∀ b ∈ list, time b ≤ time a) :
    list.orderedInsert (fun a b => time b ≤ time a) a = a :: list := by
  cases list with
  | nil => rfl
  | cons b rest => exact List.orderedInsert_cons_of_le _ rest (h b List.mem_cons_self)

theorem orderedInsert_append_of_newer {front : List α} (back : List α)
    (h : ∀ b ∈ front, time a < time b) :
    (front ++ back).orderedInsert (fun a b => time b ≤ time a) a =
      front ++ back.orderedInsert (fun a b => time b ≤ time a) a := by
  induction front with
  | nil => rfl
  | cons b front ih =>
    have hnewer : ¬ time b ≤ time a := not_le.mpr (h b List.mem_cons_self)
    rw [List.cons_append, List.orderedInsert_cons, if_neg hnewer,
      ih fun c hc => h c (List.mem_cons_of_mem b hc), List.cons_append]

/-- What is newer than all of the first list comes before it. -/
theorem sort_skip {first front back : List α} (hback : Descending time (front ++ back))
    (hnewer : ∀ a ∈ first, ∀ b ∈ front, time a < time b) :
    sort time (first ++ (front ++ back)) = front ++ sort time (first ++ back) := by
  induction first with
  | nil =>
    rw [List.nil_append, List.nil_append, sort_of_descending time hback,
      sort_of_descending time (List.pairwise_append.mp hback).2.1]
  | cons a first ih =>
    have hrest := ih fun c hc => hnewer c (List.mem_cons_of_mem a hc)
    simp only [sort, List.cons_append, List.insertionSort_cons] at hrest ⊢
    rw [hrest, orderedInsert_append_of_newer time _ (hnewer a List.mem_cons_self)]

def newer (a : α) (list : List α) : List α := list.filter fun b => time a < time b

def older (a : α) (list : List α) : List α := list.filter fun b => time b ≤ time a

theorem mem_newer {a b : α} : b ∈ newer time a list ↔ b ∈ list ∧ time a < time b := by
  simp [newer]

theorem mem_older {a b : α} : b ∈ older time a list ↔ b ∈ list ∧ time b ≤ time a := by
  simp [older]

theorem newer_append_older (a : α) (h : Descending time list) :
    newer time a list ++ older time a list = list := by
  induction list with
  | nil => rfl
  | cons b rest ih =>
    obtain ⟨hhead, htail⟩ := List.pairwise_cons.mp h
    by_cases hnewer : time a < time b
    · have hfirst : newer time a (b :: rest) = b :: newer time a rest := by
        simp [newer, hnewer]
      have hsecond : older time a (b :: rest) = older time a rest := by
        simp [older, hnewer]
      rw [hfirst, hsecond, List.cons_append, ih htail]
    · have hall : ∀ c ∈ b :: rest, time c ≤ time a := by
        intro c hc
        rcases List.mem_cons.mp hc with rfl | hc
        · exact not_lt.mp hnewer
        · exact (hhead c hc).trans (not_lt.mp hnewer)
      have hfirst : newer time a (b :: rest) = [] := by
        rw [newer, List.filter_eq_nil_iff]
        intro c hc
        simpa using hall c hc
      have hsecond : older time a (b :: rest) = b :: rest := by
        rw [older, List.filter_eq_self]
        intro c hc
        simpa using hall c hc
      rw [hfirst, hsecond, List.nil_append]

theorem older_descending (a : α) (h : Descending time list) : Descending time (older time a list) :=
  h.sublist List.filter_sublist

/-- Newer than an old entry are all that are newer than a younger one, and some others. -/
theorem countP_newer {a r : α} (h : Descending time list) (hr : time r ≤ time a) :
    list.countP (fun b => time r < time b) = (newer time a list).length +
      (older time a list).countP (fun b => time r < time b) := by
  have hall : (newer time a list).countP (fun b => time r < time b) =
      (newer time a list).length := by
    rw [List.countP_eq_length]
    intro b hb
    simpa using hr.trans_lt ((mem_newer time).mp hb).2
  rw [← hall, ← List.countP_append, newer_append_older time a h]

variable {first second : List α}

/-- The newer entries of the second list come first, then the first list goes on. -/
theorem sort_cons_append (hfirst : Descending time (a :: first))
    (hsecond : Descending time second) : sort time (a :: first ++ second) =
      newer time a second ++ a :: sort time (first ++ older time a second) := by
  obtain ⟨hhead, _⟩ := List.pairwise_cons.mp hfirst
  have hskip : ∀ b ∈ a :: first, ∀ c ∈ newer time a second, time b < time c := by
    intro b hb c hc
    have hc := ((mem_newer time).mp hc).2
    rcases List.mem_cons.mp hb with rfl | hb
    · exact hc
    · exact (hhead b hb).trans_lt hc
  have hsplit := newer_append_older time a hsecond
  have hsorted := sort_skip time (hsplit.symm ▸ hsecond) hskip
  rw [hsplit] at hsorted
  rw [hsorted, List.cons_append, sort, List.insertionSort_cons]
  congr 1
  apply orderedInsert_of_older
  intro b hb
  rcases List.mem_append.mp ((List.mem_insertionSort _).mp hb) with hb | hb
  · exact hhead b hb
  · exact ((mem_older time).mp hb).2

variable {p : α → Bool}

theorem find?_take_append {front : List α} (back : List α) (limit : ℕ)
    (h : ∀ a ∈ front, p a = false) :
    ((front ++ back).take limit).find? p = (back.take (limit - front.length)).find? p := by
  have hnone : (front.take limit).find? p = none := by
    rw [List.find?_eq_none]
    intro a ha
    simp [h a (List.mem_of_mem_take ha)]
  rw [List.take_append, List.find?_append, hnone, Option.none_or]

/-- The first entry with `p` in the first list, with fewer than `limit` entries ahead of it:
the earlier ones there, and the newer ones of the second list. -/
def Reached (p : α → Bool) (first second : List α) (limit : ℕ) (r : α) : Prop :=
  ∃ front back, first = front ++ r :: back ∧ (∀ a ∈ front, p a = false) ∧ p r = true ∧
    front.length + second.countP (fun b => time r < time b) < limit

theorem not_reached_nil (p : α → Bool) (second : List α) (limit : ℕ) (r : α) :
    ¬ Reached time p [] second limit r := by
  rintro ⟨front, back, hsplit, _⟩
  cases front <;> cases hsplit

theorem reached_cons_of_pos (hpa : p a = true) (first second : List α)
    (limit : ℕ) (r : α) : Reached time p (a :: first) second limit r ↔
      r = a ∧ second.countP (fun b => time a < time b) < limit := by
  constructor
  · rintro ⟨front, back, hsplit, hskipped, _, hlt⟩
    cases front with
    | nil =>
      cases (List.cons.inj hsplit).1
      rw [List.length_nil, Nat.zero_add] at hlt
      exact ⟨rfl, hlt⟩
    | cons c front =>
      have hc := hskipped c List.mem_cons_self
      rw [← (List.cons.inj hsplit).1, hpa] at hc
      cases hc
  · rintro ⟨rfl, hlt⟩
    refine ⟨[], first, rfl, by simp, hpa, ?_⟩
    rw [List.length_nil, Nat.zero_add]
    exact hlt

theorem reached_cons_of_neg (hpa : p a = false) (first second : List α)
    (limit : ℕ) (r : α) : Reached time p (a :: first) second limit r ↔
      Reached time p first second (limit - 1) r := by
  constructor
  · rintro ⟨front, back, hsplit, hskipped, hpr, hlt⟩
    cases front with
    | nil =>
      rw [(List.cons.inj hsplit).1, hpr] at hpa
      cases hpa
    | cons c front =>
      obtain ⟨_, hrest⟩ := List.cons.inj hsplit
      rw [List.length_cons] at hlt
      exact ⟨front, back, hrest, fun d hd => hskipped d (List.mem_cons_of_mem c hd), hpr, by omega⟩
  · rintro ⟨front, back, hsplit, hskipped, hpr, hlt⟩
    refine ⟨a :: front, back, ?_, ?_, hpr, ?_⟩
    · rw [hsplit, List.cons_append]
    · intro c hc
      rcases List.mem_cons.mp hc with rfl | hc
      · exact hpa
      · exact hskipped c hc
    · rw [List.length_cons]
      omega

/-- What is newer than all of the first list counts for every entry. -/
theorem reached_older
    (hfirst : ∀ b ∈ first, time b ≤ time a) (hsecond : Descending time second) (limit : ℕ)
    (r : α) : Reached time p first second limit r ↔
      Reached time p first (older time a second) (limit - (newer time a second).length) r := by
  have hcount : ∀ front back, first = front ++ r :: back →
      second.countP (fun b => time r < time b) = (newer time a second).length +
        (older time a second).countP (fun b => time r < time b) := by
    intro front back hsplit
    apply countP_newer time hsecond
    apply hfirst
    rw [hsplit]
    simp
  constructor
  · rintro ⟨front, back, hsplit, hskipped, hpr, hlt⟩
    have hsum := hcount front back hsplit
    exact ⟨front, back, hsplit, hskipped, hpr, by omega⟩
  · rintro ⟨front, back, hsplit, hskipped, hpr, hlt⟩
    have hsum := hcount front back hsplit
    exact ⟨front, back, hsplit, hskipped, hpr, by omega⟩

theorem find?_take_sort (r : α) (hp : ∀ a ∈ second, p a = false) (hfirst : Descending time first)
    (hsecond : Descending time second) (limit : ℕ) :
    ((sort time (first ++ second)).take limit).find? p = some r ↔
      Reached time p first second limit r := by
  induction first generalizing second limit with
  | nil =>
    rw [List.nil_append, sort_of_descending time hsecond]
    have hnone : (second.take limit).find? p = none := by
      rw [List.find?_eq_none]
      intro a ha
      simp [hp a (List.mem_of_mem_take ha)]
    simp [hnone, not_reached_nil]
  | cons a first ih =>
    obtain ⟨hhead, htail⟩ := List.pairwise_cons.mp hfirst
    have hnewer : ∀ b ∈ newer time a second, p b = false :=
      fun b hb => hp b ((mem_newer time).mp hb).1
    have holder : ∀ b ∈ older time a second, p b = false :=
      fun b hb => hp b ((mem_older time).mp hb).1
    have hall : ∀ b ∈ a :: first, time b ≤ time a := by
      intro b hb
      rcases List.mem_cons.mp hb with rfl | hb
      · exact le_refl _
      · exact hhead b hb
    rw [sort_cons_append time hfirst hsecond, find?_take_append _ limit hnewer,
      reached_older time hall hsecond]
    generalize limit - (newer time a second).length = left
    cases left with
    | zero =>
      rw [List.take_zero, List.find?_nil]
      constructor
      · intro hnone
        cases hnone
      · rintro ⟨front, back, _, _, _, hlt⟩
        omega
    | succ left =>
      rw [List.take_succ_cons, List.find?_cons]
      cases hpa : p a with
      | true =>
        have hnone : (older time a second).countP (fun b => time a < time b) = 0 := by
          rw [List.countP_eq_zero]
          intro b hb
          simpa using ((mem_older time).mp hb).2
        rw [reached_cons_of_pos time hpa, hnone]
        simp [eq_comm]
      | false =>
        rw [reached_cons_of_neg time hpa, Nat.add_sub_cancel]
        exact ih holder htail (older_descending time a hsecond) left

theorem countP_take_newer {r : α} (h : Descending time list) (limit : ℕ) :
    (list.take limit).countP (fun b => time r < time b) =
      min limit (list.countP fun b => time r < time b) := by
  have hnewer : ∀ b ∈ newer time r list, time r < time b := fun b hb => ((mem_newer time).mp hb).2
  have hcount := countP_newer time h (le_refl (time r))
  have hnone : ∀ n, ((older time r list).take n).countP (fun b => time r < time b) = 0 := by
    intro n
    rw [List.countP_eq_zero]
    intro b hb
    simpa using ((mem_older time).mp (List.mem_of_mem_take hb)).2
  have hall : ((newer time r list).take limit).countP (fun b => time r < time b) =
      ((newer time r list).take limit).length := by
    rw [List.countP_eq_length]
    intro b hb
    simpa using hnewer b (List.mem_of_mem_take hb)
  have holder := hnone (older time r list).length
  rw [List.take_length] at holder
  rw [hcount, holder, Nat.add_zero, ← List.length_take, ← hall]
  conv_lhs => rw [← newer_append_older time r h]
  rw [List.take_append, List.countP_append, hnone, Nat.add_zero]

/-- The same when of each list only the newest entries up to the limit are there. -/
theorem reached_take (hsecond : Descending time second) (limit : ℕ) (r : α) :
    Reached time p (first.take limit) (second.take limit) limit r ↔
      Reached time p first second limit r := by
  have hcount := countP_take_newer time (r := r) hsecond limit
  constructor
  · rintro ⟨front, back, hsplit, hskipped, hpr, hlt⟩
    refine ⟨front, back ++ first.drop limit, ?_, hskipped, hpr, by omega⟩
    have hwhole := List.take_append_drop limit first
    rw [hsplit, List.append_assoc, List.cons_append] at hwhole
    exact hwhole.symm
  · rintro ⟨front, back, hsplit, hskipped, hpr, hlt⟩
    obtain ⟨left, hleft⟩ := Nat.exists_eq_add_of_lt (Nat.lt_of_le_of_lt (Nat.le_add_right _ _) hlt)
    refine ⟨front, back.take left, ?_, hskipped, hpr, by omega⟩
    rw [hsplit, List.take_append, List.take_of_length_le (by omega)]
    have hroom : limit - front.length = left + 1 := by omega
    rw [hroom, List.take_succ_cons]

end MT5Services.NewestFirst
