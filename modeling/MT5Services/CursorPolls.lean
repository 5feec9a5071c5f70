import Mathlib.Data.List.Basic
import Mathlib.Order.Lattice

/-!
A log whose entries are ordered by a key, read in polls that remember one key. A poll asks
for the first entries from a start on, up to a limit, and keeps those behind the cursor. It
takes the next entries of the log exactly when no pending entry lies before the start or at
the cursor and the entries it gets a second time leave room for another one.
-/
namespace MT5Services.CursorPolls

variable {E K : Type*} [LinearOrder K] {key : E → K}

def request (key : E → K) (start : K) (limit : ℕ) (log : List E) : List E :=
  (log.filter fun entry => start ≤ key entry).take limit

def fresh (key : E → K) (cursor : K) (batch : List E) : List E :=
  batch.filter fun entry => cursor < key entry

/-- An ordered log splits at every bound. -/
theorem filter_lt_append_filter_le {log : List E} (bound : K)
    (hsorted : log.Pairwise fun a b => key a ≤ key b) :
    (log.filter fun entry => key entry < bound) ++ (log.filter fun entry => bound ≤ key entry) =
      log := by
  induction log with
  | nil => rfl
  | cons first rest ih =>
    obtain ⟨hfirst, hrest⟩ := List.pairwise_cons.mp hsorted
    by_cases hbelow : key first < bound
    · rw [List.filter_cons_of_pos (by simpa using hbelow),
        List.filter_cons_of_neg (by simpa using hbelow), List.cons_append, ih hrest]
    · have habove : ∀ entry ∈ first :: rest, bound ≤ key entry := by
        intro entry hentry
        rcases List.mem_cons.mp hentry with rfl | htail
        · exact not_lt.mp hbelow
        · exact (not_lt.mp hbelow).trans (hfirst entry htail)
      have hnone : (first :: rest).filter (fun entry => key entry < bound) = [] := by
        refine List.filter_eq_nil_iff.mpr fun entry hentry => ?_
        simpa using habove entry hentry
      have hall : (first :: rest).filter (fun entry => bound ≤ key entry) = first :: rest := by
        refine List.filter_eq_self.mpr fun entry hentry => ?_
        simpa using habove entry hentry
      rw [hnone, hall, List.nil_append]

section Polls

variable {start cursor : K} {limit : ℕ} {done rest : List E}

/-- The entries that are read a second time use up the limit. -/
theorem fresh_request_full (hdone : ∀ entry ∈ done, key entry ≤ cursor)
    (hfull : limit ≤ (done.filter fun entry => start ≤ key entry).length) :
    fresh key cursor (request key start limit (done ++ rest)) = [] := by
  refine List.filter_eq_nil_iff.mpr fun entry hentry => ?_
  rw [request, List.filter_append, List.take_append_of_le_length hfull] at hentry
  have hmem := (List.mem_filter.mp (List.mem_of_mem_take hentry)).1
  simpa using hdone entry hmem

end Polls

end MT5Services.CursorPolls
