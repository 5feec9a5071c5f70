import Mathlib.Data.List.Count
import Mathlib.Logic.Function.Basic

/-!
Work that runs at most once. An item is settled by winning a compare-and-set, the
winner alone carries its mark, and the mark is given up when the work is logged.
Whatever else the workers do leaves the settled items settled and adds no mark. Then
no item is logged twice.
-/
namespace MT5Services.AtMostOnce

variable {ι K : Type*}

/-- What counts of a system: the settled items, the mark of each worker, the log. -/
structure View (ι K : Type*) where
  settled : K → Prop
  marked : ι → Option K
  log : List K

variable [DecidableEq ι] [DecidableEq K]

/-- What a step may do: nothing of note, win an item, or log the item it won. -/
inductive Step (v w : View ι K) : Prop
  | quiet (hsettled : ∀ k, v.settled k → w.settled k)
      (hmarked : ∀ i k, w.marked i = some k → v.marked i = some k) (hlog : w.log = v.log)
  | won (i : ι) (k : K) (hsettled : ∀ k, v.settled k → w.settled k)
      (hmarked : w.marked = Function.update v.marked i (some k)) (hlog : w.log = v.log)
      (hbefore : ¬ v.settled k) (hafter : w.settled k)
  | ran (i : ι) (k : K) (hsettled : ∀ k, v.settled k → w.settled k)
      (hmarked : w.marked = Function.update v.marked i none) (hlog : w.log = v.log ++ [k])
      (hbefore : v.marked i = some k)

/-- Marks and log entries are settled, a mark belongs to one worker and is not logged
yet, and nothing is logged twice. -/
structure Inv (v : View ι K) : Prop where
  logged_once : ∀ k, v.log.count k ≤ 1
  logged_settled : ∀ k ∈ v.log, v.settled k
  marked_settled : ∀ i k, v.marked i = some k → v.settled k
  marked_not_logged : ∀ i k, v.marked i = some k → k ∉ v.log
  marked_once : ∀ i j k, v.marked i = some k → v.marked j = some k → i = j

omit [DecidableEq ι] in
theorem inv_initial {v : View ι K} (hmarked : ∀ i, v.marked i = none) (hlog : v.log = []) :
    Inv v := by
  have hnone : ∀ i k, v.marked i ≠ some k := by
    intro i k hk
    rw [hmarked i] at hk
    cases hk
  refine ⟨?_, ?_, fun i k hk => absurd hk (hnone i k), fun i k hk => absurd hk (hnone i k),
    fun i _ k hk => absurd hk (hnone i k)⟩
  · intro k
    simp [hlog]
  · intro k hk
    rw [hlog] at hk
    cases hk

omit [DecidableEq K] in
theorem marked_update {marked : ι → Option K} {i j : ι} {mark : Option K} {k : K}
    (h : Function.update marked i mark j = some k) :
    (j = i ∧ mark = some k) ∨ (j ≠ i ∧ marked j = some k) := by
  by_cases hj : j = i
  · subst hj
    rw [Function.update_self] at h
    exact Or.inl ⟨rfl, h⟩
  · rw [Function.update_of_ne hj] at h
    exact Or.inr ⟨hj, h⟩

omit [DecidableEq K] in
/-- A worker that gives its mark up or keeps it does nothing of note. -/
theorem Step.of_update {v w : View ι K} (i : ι) {mark : Option K}
    (hsettled : ∀ k, v.settled k → w.settled k)
    (hmarked : w.marked = Function.update v.marked i mark)
    (hmark : mark = none ∨ mark = v.marked i) (hlog : w.log = v.log) : Step v w := by
  refine .quiet hsettled ?_ hlog
  intro j k hk
  rw [hmarked] at hk
  rcases marked_update hk with ⟨rfl, hnew⟩ | ⟨_, hold⟩
  · rcases hmark with hnone | hsame
    · rw [hnone] at hnew
      cases hnew
    · rw [← hsame]
      exact hnew
  · exact hold

/-- The winner is the only one to mark the item. -/
theorem Inv.won {v w : View ι K} (hv : Inv v) (i : ι) (k : K)
    (hsettled : ∀ k, v.settled k → w.settled k)
    (hmarked : w.marked = Function.update v.marked i (some k)) (hlog : w.log = v.log)
    (hbefore : ¬ v.settled k) (hafter : w.settled k) : Inv w := by
  have hfresh : ∀ j, v.marked j ≠ some k := by
    intro j hj
    exact hbefore (hv.marked_settled j k hj)
  refine ⟨?_, ?_, ?_, ?_, ?_⟩
  · intro key
    rw [hlog]
    exact hv.logged_once key
  · intro key hkey
    rw [hlog] at hkey
    exact hsettled key (hv.logged_settled key hkey)
  · intro j key hkey
    rw [hmarked] at hkey
    rcases marked_update hkey with ⟨_, hk⟩ | ⟨_, hold⟩
    · cases hk
      exact hafter
    · exact hsettled key (hv.marked_settled j key hold)
  · intro j key hkey
    rw [hlog]
    rw [hmarked] at hkey
    rcases marked_update hkey with ⟨_, hk⟩ | ⟨_, hold⟩
    · cases hk
      exact fun hlogged => hbefore (hv.logged_settled k hlogged)
    · exact hv.marked_not_logged j key hold
  · intro j l key hj hl
    rw [hmarked] at hj hl
    rcases marked_update hj with ⟨rfl, hkj⟩ | ⟨_, holdj⟩
    · rcases marked_update hl with ⟨rfl, _⟩ | ⟨_, holdl⟩
      · rfl
      · cases hkj
        exact absurd holdl (hfresh l)
    · rcases marked_update hl with ⟨rfl, hkl⟩ | ⟨_, holdl⟩
      · cases hkl
        exact absurd holdj (hfresh j)
      · exact hv.marked_once j l key holdj holdl

/-- The work on a marked item is logged for the first time. -/
theorem Inv.ran {v w : View ι K} (hv : Inv v) (i : ι) (k : K)
    (hsettled : ∀ k, v.settled k → w.settled k)
    (hmarked : w.marked = Function.update v.marked i none) (hlog : w.log = v.log ++ [k])
    (hbefore : v.marked i = some k) : Inv w := by
  have hnew : k ∉ v.log := hv.marked_not_logged i k hbefore
  have hothers : ∀ j key, w.marked j = some key → j ≠ i ∧ v.marked j = some key := by
    intro j key hkey
    rw [hmarked] at hkey
    rcases marked_update hkey with ⟨_, hnone⟩ | hold
    · cases hnone
    · exact hold
  refine ⟨?_, ?_, ?_, ?_, ?_⟩
  · intro key
    rw [hlog, List.count_append]
    by_cases hkey : key = k
    · subst hkey
      simp [List.count_eq_zero.mpr hnew]
    · have hone := hv.logged_once key
      have hzero : [k].count key = 0 := by simp [List.count_eq_zero, hkey]
      omega
  · intro key hkey
    rw [hlog] at hkey
    rcases List.mem_append.mp hkey with hold | hlast
    · exact hsettled key (hv.logged_settled key hold)
    · rw [List.mem_singleton.mp hlast]
      exact hsettled k (hv.marked_settled i k hbefore)
  · intro j key hkey
    exact hsettled key (hv.marked_settled j key (hothers j key hkey).2)
  · intro j key hkey hlogged
    obtain ⟨hne, hold⟩ := hothers j key hkey
    rw [hlog] at hlogged
    rcases List.mem_append.mp hlogged with hin | hlast
    · exact hv.marked_not_logged j key hold hin
    · rw [List.mem_singleton.mp hlast] at hold
      exact hne (hv.marked_once j i k hold hbefore)
  · intro j l key hj hl
    exact hv.marked_once j l key (hothers j key hj).2 (hothers l key hl).2

theorem Inv.step {v w : View ι K} (hv : Inv v) (h : Step v w) : Inv w := by
  cases h with
  | quiet hsettled hmarked hlog =>
    refine ⟨?_, ?_, ?_, ?_, ?_⟩
    · intro k
      rw [hlog]
      exact hv.logged_once k
    · intro k hk
      rw [hlog] at hk
      exact hsettled k (hv.logged_settled k hk)
    · intro i k hk
      exact hsettled k (hv.marked_settled i k (hmarked i k hk))
    · intro i k hk
      rw [hlog]
      exact hv.marked_not_logged i k (hmarked i k hk)
    · intro i j k hi hj
      exact hv.marked_once i j k (hmarked i k hi) (hmarked j k hj)
  | won i k hsettled hmarked hlog hbefore hafter =>
    exact hv.won i k hsettled hmarked hlog hbefore hafter
  | ran i k hsettled hmarked hlog hbefore =>
    exact hv.ran i k hsettled hmarked hlog hbefore

end MT5Services.AtMostOnce
