import Mathlib.Data.List.Basic

/-!
Logs of what happened, oldest first. A property of a log that speaks about every entry
and what came before it is kept by appending one entry at a time.
-/
namespace MT5Services.Histories

variable {α : Type*}

/-- Every entry of the log is allowed by what came before it. -/
def AtEach (allowed : List α → α → Prop) (log : List α) : Prop :=
  ∀ earlier entry later, log = earlier ++ entry :: later → allowed earlier entry

theorem atEach_nil (allowed : List α → α → Prop) : AtEach allowed [] := by
  intro earlier entry later h
  exact absurd h.symm (List.append_ne_nil_of_right_ne_nil earlier (List.cons_ne_nil entry later))

theorem atEach_concat {allowed : List α → α → Prop} {log : List α} {entry : α} :
    AtEach allowed (log ++ [entry]) ↔ AtEach allowed log ∧ allowed log entry := by
  constructor
  · intro h
    refine ⟨?_, h log entry [] rfl⟩
    intro earlier other later hlog
    apply h earlier other (later ++ [entry])
    rw [hlog, List.append_assoc, List.cons_append]
  · rintro ⟨hlog, hentry⟩ earlier other later hsplit
    rcases List.eq_nil_or_concat later with rfl | ⟨front, last, rfl⟩
    · obtain ⟨rfl, hlast⟩ := List.append_inj' hsplit rfl
      cases hlast
      exact hentry
    · have hconcat : log ++ [entry] = (earlier ++ other :: front) ++ [last] := by
        rw [hsplit, List.concat_eq_append, List.append_assoc, List.cons_append]
      exact hlog earlier other front (List.append_inj' hconcat rfl).1

end MT5Services.Histories
