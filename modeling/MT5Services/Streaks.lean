import MT5Services.Histories
import Mathlib.Data.List.Induction

/-!
Two summaries of a log that grows at its end: how many counted events there are since the
last interruption, and the last mark since the log was cleared. Both can be kept along with
the log, one event at a time, and both are read off any split of the log. A counter with a
flag finds the first event of a streak that is ready when it comes. Two interruptions give
the same first events as long as their streaks reach the limit at the same events.
-/
namespace MT5Services.Streaks

open Histories

variable {E T : Type*}

def extend (counted interrupts : E → Bool) (n : ℕ) (e : E) : ℕ :=
  if interrupts e then 0 else if counted e then n + 1 else n

/-- The counted events since the last interruption. -/
def streak (counted interrupts : E → Bool) (log : List E) : ℕ :=
  log.foldl (extend counted interrupts) 0

def remark (mark : E → Option T) (clears : E → Bool) (last : Option T) (e : E) : Option T :=
  if clears e then none else mark e <|> last

/-- The last mark that no later event has cleared. -/
def lastMark (mark : E → Option T) (clears : E → Bool) (log : List E) : Option T :=
  log.foldl (remark mark clears) none

section Streak

variable {counted interrupts : E → Bool}

theorem streak_append (log more : List E) :
    streak counted interrupts (log ++ more) =
      more.foldl (extend counted interrupts) (streak counted interrupts log) :=
  List.foldl_append

@[simp] theorem streak_concat (log : List E) (e : E) :
    streak counted interrupts (log ++ [e]) =
      extend counted interrupts (streak counted interrupts log) e :=
  streak_append log [e]

/-- Without an interruption every counted event counts. -/
theorem foldl_extend_eq (more : List E) (n : ℕ) (h : ∀ e ∈ more, interrupts e = false) :
    more.foldl (extend counted interrupts) n = n + more.countP counted := by
  induction more generalizing n with
  | nil => rfl
  | cons e rest ih =>
    have hrest : ∀ e ∈ rest, interrupts e = false := fun a ha => h a (List.mem_cons_of_mem e ha)
    rw [List.foldl_cons, ih _ hrest, List.countP_cons, extend, h e List.mem_cons_self]
    cases counted e with
    | false => simp
    | true =>
      simp only [Bool.false_eq_true, if_false, if_true]
      omega

theorem countP_le_streak (earlier later : List E) (h : ∀ e ∈ later, interrupts e = false) :
    later.countP counted ≤ streak counted interrupts (earlier ++ later) := by
  rw [streak_append, foldl_extend_eq later _ h]
  exact Nat.le_add_left _ _

theorem streak_map {F : Type*} (f : F → E) (log : List F) :
    streak counted interrupts (log.map f) =
      streak (fun e => counted (f e)) (fun e => interrupts (f e)) log := by
  rw [streak, List.foldl_map]
  rfl

/-- Events that are not counted never lengthen a streak. -/
theorem streak_append_le (log more : List E) (h : ∀ e ∈ more, counted e = false) :
    streak counted interrupts (log ++ more) ≤ streak counted interrupts log := by
  rw [streak_append]
  induction more using List.reverseRecOn with
  | nil => exact Nat.le_refl _
  | append_singleton rest e ih =>
    have hrest := ih fun a ha => h a (List.mem_append_left [e] ha)
    have he : counted e = false := h e (List.mem_append_right rest List.mem_cons_self)
    rw [List.foldl_append, List.foldl_cons, List.foldl_nil, extend, he]
    split
    · exact Nat.zero_le _
    · exact hrest

/-- Without a counted event there is no streak. -/
theorem exists_counted {log : List E} (h : streak counted interrupts log ≠ 0) :
    ∃ e ∈ log, counted e = true := by
  by_contra hnone
  apply h
  have hzero : streak counted interrupts ([] ++ log) ≤ 0 := by
    apply streak_append_le
    intro e he
    exact Bool.eq_false_iff.mpr fun hcounted => hnone ⟨e, he, hcounted⟩
  exact Nat.le_zero.mp hzero

end Streak

section LastMark

variable {mark : E → Option T} {clears : E → Bool}

theorem lastMark_append (log more : List E) :
    lastMark mark clears (log ++ more) =
      more.foldl (remark mark clears) (lastMark mark clears log) :=
  List.foldl_append

@[simp] theorem lastMark_concat (log : List E) (e : E) :
    lastMark mark clears (log ++ [e]) = remark mark clears (lastMark mark clears log) e :=
  lastMark_append log [e]

/-- Events that neither mark nor clear leave the last mark. -/
theorem lastMark_append_eq (log more : List E)
    (h : ∀ e ∈ more, mark e = none ∧ clears e = false) :
    lastMark mark clears (log ++ more) = lastMark mark clears log := by
  rw [lastMark_append]
  induction more using List.reverseRecOn with
  | nil => rfl
  | append_singleton rest e ih =>
    obtain ⟨hmark, hclears⟩ := h e (List.mem_append_right rest List.mem_cons_self)
    rw [List.foldl_append, ih fun a ha => h a (List.mem_append_left [e] ha)]
    simp [remark, hmark, hclears]

theorem lastMark_of_mark {earlier later : List E} {e : E} {t : T} (hmark : mark e = some t)
    (hclears : clears e = false) (h : ∀ e ∈ later, mark e = none ∧ clears e = false) :
    lastMark mark clears (earlier ++ e :: later) = some t := by
  rw [List.append_cons, lastMark_append_eq _ later h, lastMark_concat]
  simp [remark, hmark, hclears]

end LastMark

section First

variable (counted interrupts : E → Bool) (ready : ℕ → E → Bool)

/-- Keep the streak, and whether an event of it was ready when it came. -/
def observe (s : ℕ × Bool) (e : E) : ℕ × Bool :=
  if interrupts e then (0, false)
  else if counted e then (s.1 + 1, s.2 || ready (s.1 + 1) e)
  else s

def summary (log : List E) : ℕ × Bool := log.foldl (observe counted interrupts ready) (0, false)

/-- The event is ready when it comes after the log, and no earlier event of its streak was. -/
def First (log : List E) (e : E) : Prop :=
  ready (streak counted interrupts log + 1) e = true ∧
    ∀ front c back, log = front ++ c :: back → (∀ x ∈ c :: back, interrupts x = false) →
      counted c = true → ready (streak counted interrupts front + 1) c = false

variable {counted interrupts ready}

@[simp] theorem summary_concat (log : List E) (e : E) :
    summary counted interrupts ready (log ++ [e]) =
      observe counted interrupts ready (summary counted interrupts ready log) e :=
  List.foldl_append

variable (ready) in
@[simp] theorem summary_fst (log : List E) :
    (summary counted interrupts ready log).1 = streak counted interrupts log := by
  induction log using List.reverseRecOn with
  | nil => rfl
  | append_singleton front e ih =>
    rw [summary_concat, streak_concat, observe, extend, ih]
    split
    · rfl
    · split
      · rfl
      · exact ih

/-- Some event of the streak was ready when it came. -/
def Readied (counted interrupts : E → Bool) (ready : ℕ → E → Bool) (log : List E) : Prop :=
  ∃ front c back, log = front ++ c :: back ∧ (∀ x ∈ c :: back, interrupts x = false) ∧
    counted c = true ∧ ready (streak counted interrupts front + 1) c = true

theorem not_readied_nil : ¬Readied counted interrupts ready [] := by
  intro h
  obtain ⟨front, c, back, hsplit, -⟩ := h
  exact absurd hsplit.symm (List.append_ne_nil_of_right_ne_nil front (List.cons_ne_nil c back))

theorem Readied.concat {log : List E} {e : E} (h : Readied counted interrupts ready log)
    (hend : interrupts e = false) : Readied counted interrupts ready (log ++ [e]) := by
  obtain ⟨front, c, back, rfl, hback, hcounted, hready⟩ := h
  refine ⟨front, c, back ++ [e], by simp, ?_, hcounted, hready⟩
  intro x hx
  rw [← List.cons_append, List.mem_append, List.mem_singleton] at hx
  rcases hx with hx | rfl
  · exact hback x hx
  · exact hend

/-- An event keeps the streak going or is itself the one that was ready. -/
theorem readied_concat_iff (log : List E) (e : E) :
    Readied counted interrupts ready (log ++ [e]) ↔
      interrupts e = false ∧ (Readied counted interrupts ready log ∨
        counted e = true ∧ ready (streak counted interrupts log + 1) e = true) := by
  constructor
  · intro h
    obtain ⟨front, c, back, hsplit, hback, hcounted, hready⟩ := h
    rcases List.eq_nil_or_concat back with rfl | ⟨back, last, rfl⟩
    · obtain ⟨rfl, hlast⟩ := List.append_inj' hsplit rfl
      cases hlast
      exact ⟨hback e List.mem_cons_self, Or.inr ⟨hcounted, hready⟩⟩
    · have hconcat : log ++ [e] = (front ++ c :: back) ++ [last] := by
        rw [hsplit, List.concat_eq_append, List.append_assoc, List.cons_append]
      obtain ⟨rfl, hlast⟩ := List.append_inj' hconcat rfl
      cases hlast
      refine ⟨hback e (by simp), Or.inl ⟨front, c, back, rfl, ?_, hcounted, hready⟩⟩
      intro x hx
      apply hback
      rw [List.concat_eq_append, ← List.cons_append]
      exact List.mem_append_left [e] hx
  · intro h
    obtain ⟨hend, hold | ⟨hcounted, hready⟩⟩ := h
    · exact hold.concat hend
    · refine ⟨log, e, [], rfl, ?_, hcounted, hready⟩
      intro x hx
      rwa [List.mem_singleton.mp hx]

/-- The flag is up when some event of the streak was ready. -/
theorem summary_snd_iff (log : List E) :
    (summary counted interrupts ready log).2 = true ↔ Readied counted interrupts ready log := by
  induction log using List.reverseRecOn with
  | nil => exact iff_of_false Bool.false_ne_true not_readied_nil
  | append_singleton log e ih =>
    rw [readied_concat_iff, ← ih, ← summary_fst ready log, summary_concat, observe]
    cases interrupts e with
    | true => simp
    | false => cases counted e <;> simp

theorem first_iff (log : List E) (e : E) :
    First counted interrupts ready log e ↔
      ready (streak counted interrupts log + 1) e = true ∧
        (summary counted interrupts ready log).2 = false := by
  refine and_congr_right fun _ => ?_
  rw [← Bool.not_eq_true, summary_snd_iff]
  constructor
  · intro h hreadied
    obtain ⟨front, c, back, hsplit, hback, hcounted, hready⟩ := hreadied
    exact Bool.false_ne_true ((h front c back hsplit hback hcounted).symm.trans hready)
  · intro h front c back hsplit hback hcounted
    by_contra hready
    exact h ⟨front, c, back, hsplit, hback, hcounted, Bool.not_eq_false _ ▸ hready⟩

/-- Where nothing was ready before, an event is the first when it is ready. -/
theorem first_of_calm {log : List E} {e : E} (h : ∀ c ∈ log, ∀ n, ready n c = false) :
    First counted interrupts ready log e ↔
      ready (streak counted interrupts log + 1) e = true := by
  refine and_iff_left ?_
  intro front c back hsplit _ _
  exact h c (by rw [hsplit]; simp) _

end First

section Compared

variable {counted interrupts other : E → Bool} {ready : ℕ → E → Bool} {limit : ℕ}

/-- The two streaks reach the limit at the same counted events. -/
def EvenAt (counted interrupts other : E → Bool) (limit : ℕ) (front : List E) (c : E) : Prop :=
  counted c = true →
    (limit ≤ streak counted interrupts front + 1 ↔ limit ≤ streak counted other front + 1)

/-- The two streaks are at one, or both are short of the limit, or only one of them has reached
it and the other has to begin. -/
inductive Alike (limit : ℕ) (s t : ℕ × Bool) : Prop
  | same (h : s = t) (hflag : s.2 = true → limit ≤ s.1)
  | short (hs : s.1 < limit ∧ s.2 = false) (ht : t.1 < limit ∧ t.2 = false)
  | ahead (hs : limit ≤ s.1) (ht : t = (0, false))
  | behind (hs : s = (0, false)) (ht : limit ≤ t.1)

theorem Alike.symm {s t : ℕ × Bool} (h : Alike limit s t) : Alike limit t s := by
  cases h with
  | same h hflag => exact .same h.symm (h ▸ hflag)
  | short hs ht => exact .short ht hs
  | ahead hs ht => exact .behind ht hs
  | behind hs ht => exact .ahead ht hs

/-- Only the second streak is interrupted. -/
theorem Alike.interrupted {s t : ℕ × Bool} (h : Alike limit s t) (hlimit : 0 < limit) :
    Alike limit s (0, false) := by
  cases h with
  | same h hflag =>
    by_cases hs : limit ≤ s.1
    · exact .ahead hs rfl
    · refine .short ⟨by omega, ?_⟩ ⟨hlimit, rfl⟩
      exact Bool.eq_false_iff.mpr fun htrue => hs (hflag htrue)
  | short hs ht => exact .short hs ⟨hlimit, rfl⟩
  | ahead hs ht => exact .ahead hs rfl
  | behind hs ht =>
    rw [hs]
    exact .short ⟨hlimit, rfl⟩ ⟨hlimit, rfl⟩

/-- Both streaks count the event. -/
theorem Alike.extended {s t : ℕ × Bool} (h : Alike limit s t) (hlimit : 2 ≤ limit) {e : E}
    (hready : ∀ n c, ready n c = true → limit ≤ n) (heven : limit ≤ s.1 + 1 ↔ limit ≤ t.1 + 1) :
    Alike limit (s.1 + 1, s.2 || ready (s.1 + 1) e) (t.1 + 1, t.2 || ready (t.1 + 1) e) := by
  have hnot {n : ℕ} (hn : n < limit) : ready n e = false :=
    Bool.eq_false_iff.mpr fun htrue => absurd (hready n e htrue) (by omega)
  cases h with
  | same h hflag =>
    refine .same (by rw [h]) fun hup => ?_
    rcases Bool.or_eq_true_iff.mp hup with hold | hnew
    · exact Nat.le_succ_of_le (hflag hold)
    · exact hready _ e hnew
  | short hs ht =>
    by_cases hreached : limit ≤ s.1 + 1
    · have hcount : s.1 = t.1 := by have := heven.mp hreached; omega
      rw [hs.2, ht.2, hcount]
      refine .same rfl fun hup => ?_
      rw [Bool.false_or] at hup
      exact hready _ e hup
    · have hother : ¬limit ≤ t.1 + 1 := fun hle => hreached (heven.mpr hle)
      refine .short ⟨by omega, ?_⟩ ⟨by omega, ?_⟩
      · rw [hs.2, Bool.false_or, hnot (by omega)]
      · rw [ht.2, Bool.false_or, hnot (by omega)]
  | ahead hs ht =>
    rw [ht] at heven
    have := heven.mp (by omega)
    omega
  | behind hs ht =>
    rw [hs] at heven
    have := heven.mpr (by omega)
    omega

theorem alike_summary (hlimit : 2 ≤ limit) (hready : ∀ n c, ready n c = true → limit ≤ n)
    (hcounted : ∀ e, counted e = true → interrupts e = false ∧ other e = false) {log : List E}
    (heven : AtEach (EvenAt counted interrupts other limit) log) :
    Alike limit (summary counted interrupts ready log) (summary counted other ready log) := by
  have hpos : 0 < limit := by omega
  induction log using List.reverseRecOn with
  | nil => exact .same rfl fun h => absurd h Bool.false_ne_true
  | append_singleton log e ih =>
    obtain ⟨hlog, he⟩ := atEach_concat.mp heven
    have halike := ih hlog
    rw [summary_concat, summary_concat, observe, observe]
    cases hc : counted e with
    | true =>
      obtain ⟨hinterrupts, hother⟩ := hcounted e hc
      simp only [hinterrupts, hother, Bool.false_eq_true, if_false, if_true]
      apply halike.extended hlimit hready
      rw [summary_fst, summary_fst]
      exact he hc
    | false =>
      simp only [Bool.false_eq_true, if_false]
      cases interrupts e <;> cases other e
      · exact halike
      · exact halike.interrupted hpos
      · exact (halike.symm.interrupted hpos).symm
      · exact .short ⟨hpos, rfl⟩ ⟨hpos, rfl⟩

/-- Streaks that reach the limit at the same events have the same first events. -/
theorem first_congr (hlimit : 2 ≤ limit) (hready : ∀ n c, ready n c = true → limit ≤ n)
    (hcounted : ∀ e, counted e = true → interrupts e = false ∧ other e = false) {log : List E}
    {e : E} (he : counted e = true)
    (heven : AtEach (EvenAt counted interrupts other limit) (log ++ [e])) :
    First counted interrupts ready log e ↔ First counted other ready log e := by
  obtain ⟨hlog, hlast⟩ := atEach_concat.mp heven
  have hreached := hlast he
  rw [← summary_fst ready, ← summary_fst ready] at hreached
  rw [first_iff, first_iff, ← summary_fst ready, ← summary_fst ready]
  rcases alike_summary hlimit hready hcounted hlog with
    ⟨hsame, -⟩ | ⟨hs, ht⟩ | ⟨hs, ht⟩ | ⟨hs, ht⟩
  · rw [hsame]
  · rw [hs.2, ht.2]
    by_cases hle : limit ≤ (summary counted interrupts ready log).1 + 1
    · have := hreached.mp hle
      rw [show (summary counted interrupts ready log).1 = (summary counted other ready log).1
        by omega]
    · have hother := fun h => hle (hreached.mpr h)
      refine iff_of_false ?_ ?_
      · exact fun h => hle (hready _ e h.1)
      · exact fun h => hother (hready _ e h.1)
  · rw [ht] at hreached
    have := hreached.mp (by omega)
    omega
  · rw [hs] at hreached
    have := hreached.mpr (by omega)
    omega

end Compared

end MT5Services.Streaks
