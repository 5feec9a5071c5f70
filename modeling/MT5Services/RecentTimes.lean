import Mathlib.Algebra.Order.Group.Defs
import Mathlib.Algebra.Order.Sub.Defs
import Mathlib.Data.List.Basic
import Mathlib.Tactic.Abel

/-!
Limits on a sliding interval of time, kept by a window of recent times. The window forgets the
times before a bound and has every event from there on. As long as an event is taken only while
the window is shorter than the limit, no closed interval of the width holds more events than that.
-/
namespace MT5Services.RecentTimes

variable {T : Type*} [LinearOrder T]

/-- From the bound on the window has all events. -/
def Covers (bound : T) (window events : List T) : Prop :=
  ∀ oldest, bound ≤ oldest →
    (events.countP fun time => oldest ≤ time) ≤ window.countP fun time => oldest ≤ time

theorem Covers.mono {bound later : T} {window events : List T} (h : Covers bound window events)
    (hle : bound ≤ later) : Covers later window events :=
  fun oldest holdest => h oldest (hle.trans holdest)

theorem covers_nil (bound : T) : Covers bound [] [] := fun _ _ => le_rfl

/-- What lies before the bound is forgotten, what lies behind it is not. -/
theorem countP_dropWhile_lt (bound oldest : T) (h : bound ≤ oldest) (window : List T) :
    ((window.dropWhile fun time => time < bound).countP fun time => oldest ≤ time) =
      window.countP fun time => oldest ≤ time := by
  induction window with
  | nil => rfl
  | cons first rest ih =>
    by_cases hfirst : first < bound
    · have hearly : ¬oldest ≤ first := not_le.mpr (hfirst.trans_le h)
      rw [List.dropWhile_cons_of_pos (by simpa using hfirst), ih,
        List.countP_cons_of_neg (by simpa using hearly)]
    · rw [List.dropWhile_cons_of_neg (by simpa using hfirst)]

theorem Covers.dropWhile_lt {bound later : T} {window events : List T}
    (h : Covers bound window events) (hle : bound ≤ later) :
    Covers later (window.dropWhile fun time => time < later) events := by
  intro oldest holdest
  rw [countP_dropWhile_lt later oldest holdest]
  exact h oldest (hle.trans holdest)

theorem Covers.append {bound : T} {window events : List T} (h : Covers bound window events)
    (added : List T) : Covers bound (window ++ added) (events ++ added) := by
  intro oldest holdest
  rw [List.countP_append, List.countP_append]
  exact Nat.add_le_add_right (h oldest holdest) _

section Width

variable [AddCommGroup T]

/-- No closed interval of the width holds more events than the limit. -/
def AtMostIn (width : T) (limit : ℕ) (events : List T) : Prop :=
  ∀ start, (events.countP fun time => start ≤ time ∧ time ≤ start + width) ≤ limit

theorem atMostIn_nil (width : T) (limit : ℕ) : AtMostIn width limit [] := fun _ => Nat.zero_le _

variable [IsOrderedAddMonoid T]

/-- An event that is taken while the covering window is shorter than the limit. -/
theorem AtMostIn.append {width now : T} {limit : ℕ} {window events : List T}
    (h : AtMostIn width limit events) (hcovers : Covers (now - width) window events)
    (hfree : window.length < limit) : AtMostIn width limit (events ++ [now]) := by
  intro start
  rw [List.countP_append]
  by_cases hnow : start ≤ now ∧ now ≤ start + width
  · have hrecent : (events.countP fun time => start ≤ time ∧ time ≤ start + width) ≤
        events.countP fun time => now - width ≤ time := by
      apply List.countP_mono_left
      intro time _ hin
      simp only [decide_eq_true_eq] at hin ⊢
      exact (sub_le_iff_le_add.mpr hnow.2).trans hin.1
    have hwindow := hcovers (now - width) le_rfl
    have hlength := List.countP_le_length (p := fun time => decide (now - width ≤ time))
      (l := window)
    have hone : ([now].countP fun time => start ≤ time ∧ time ≤ start + width) = 1 := by
      simp [hnow]
    omega
  · have hnone : ([now].countP fun time => start ≤ time ∧ time ≤ start + width) = 0 := by
      simpa using hnow
    rw [hnone]
    exact h start

end Width

end MT5Services.RecentTimes
