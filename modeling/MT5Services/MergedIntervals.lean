import Mathlib.Data.List.Induction
import Mathlib.Data.List.Sort
import Mathlib.Order.MinMax

/-!
Intervals taken by their start and put together where they meet: the next one joins the
current one when it starts before the end reached so far, otherwise it begins another.
What one interval says about the record that took it up still holds when the sweep is over.
-/
namespace MT5Services.MergedIntervals

/-- The records `M` that intervals `W` are put together in: each begins where its first
interval starts and reaches as far as any of them. -/
structure Merging (W M T : Type*) [LinearOrder T] where
  start : W → T
  finish : W → T
  begins : M → T
  reach : M → T
  single : W → M
  join : M → W → M
  begins_single : ∀ w, begins (single w) = start w
  reach_single : ∀ w, reach (single w) = finish w
  begins_join : ∀ m w, begins (join m w) = begins m
  reach_join : ∀ m w, reach (join m w) = max (reach m) (finish w)

variable {W M T : Type*} [LinearOrder T] (k : Merging W M T)

/-- The sweep over what is left, with the record that is still open. -/
def mergeFrom (current : M) : List W → List M
  | [] => [current]
  | w :: rest =>
    if k.reach current < k.start w then current :: mergeFrom (k.single w) rest
    else mergeFrom (k.join current w) rest

def sweep : List W → List M
  | [] => []
  | w :: rest => mergeFrom k (k.single w) rest

/-- Stable: intervals with one start stay in their order. -/
def sortByStart (windows : List W) : List W :=
  windows.insertionSort fun a b => k.start a ≤ k.start b

def merge (windows : List W) : List M := sweep k (sortByStart k windows)

/-- The record covers the interval and says of it what `holds` says. -/
structure Covers (holds : W → M → Prop) (w : W) (m : M) : Prop where
  begins : k.begins m ≤ k.start w
  reach : k.finish w ≤ k.reach m
  holds : holds w m

section Rules

variable {k} {holds : W → M → Prop}

theorem covers_single (hsingle : ∀ w, holds w (k.single w)) (w : W) :
    Covers k holds w (k.single w) :=
  ⟨(k.begins_single w).le, (k.reach_single w).ge, hsingle w⟩

theorem covers_join (hjoin : ∀ m w, holds w (k.join m w)) {m : M} {w : W}
    (hle : k.begins m ≤ k.start w) : Covers k holds w (k.join m w) := by
  refine ⟨?_, ?_, hjoin m w⟩
  · rw [k.begins_join]
    exact hle
  · rw [k.reach_join]
    exact le_max_right _ _

theorem Covers.join (hstays : ∀ m v w, holds w m → holds w (k.join m v)) {m : M} {w : W}
    (h : Covers k holds w m) (v : W) : Covers k holds w (k.join m v) := by
  refine ⟨?_, ?_, hstays m v w h.holds⟩
  · rw [k.begins_join]
    exact h.begins
  · rw [k.reach_join]
    exact le_trans h.reach (le_max_left _ _)

/-- A record is only added to, and then left as it is. -/
theorem exists_covers_of_current (hstays : ∀ m v w, holds w m → holds w (k.join m v)) {w : W}
    {current : M} (h : Covers k holds w current) (rest : List W) :
    ∃ m ∈ mergeFrom k current rest, Covers k holds w m := by
  induction rest generalizing current with
  | nil => exact ⟨current, List.mem_cons_self, h⟩
  | cons v rest ih =>
    rw [mergeFrom]
    split
    · exact ⟨current, List.mem_cons_self, h⟩
    · exact ih (h.join hstays v)

/-- Every interval ahead ends up in a record. The sort carries the induction: what is
still to come starts no earlier than the open record begins. -/
theorem exists_covers_mergeFrom (hsingle : ∀ w, holds w (k.single w))
    (hjoin : ∀ m w, holds w (k.join m w)) (hstays : ∀ m v w, holds w m → holds w (k.join m v))
    {rest : List W} (hsorted : rest.Pairwise fun a b => k.start a ≤ k.start b) {current : M}
    (hcurrent : ∀ v ∈ rest, k.begins current ≤ k.start v) {w : W} (hw : w ∈ rest) :
    ∃ m ∈ mergeFrom k current rest, Covers k holds w m := by
  induction rest generalizing current with
  | nil => simp at hw
  | cons v rest ih =>
    obtain ⟨hfirst, hlater⟩ := List.pairwise_cons.mp hsorted
    have hv : k.begins current ≤ k.start v := hcurrent v List.mem_cons_self
    rw [mergeFrom]
    split
    · rcases List.mem_cons.mp hw with rfl | hrest
      · obtain ⟨m, hm, hcovers⟩ := exists_covers_of_current hstays (covers_single hsingle w) rest
        exact ⟨m, List.mem_cons_of_mem _ hm, hcovers⟩
      · have hsingle : ∀ u ∈ rest, k.begins (k.single v) ≤ k.start u := by
          intro u hu
          rw [k.begins_single]
          exact hfirst u hu
        obtain ⟨m, hm, hcovers⟩ := ih hlater hsingle hrest
        exact ⟨m, List.mem_cons_of_mem _ hm, hcovers⟩
    · rcases List.mem_cons.mp hw with rfl | hrest
      · exact exists_covers_of_current hstays (covers_join hjoin hv) rest
      · refine ih hlater ?_ hrest
        intro u hu
        rw [k.begins_join]
        exact le_trans hv (hfirst u hu)

theorem pairwise_sortByStart (windows : List W) :
    (sortByStart k windows).Pairwise fun a b => k.start a ≤ k.start b := by
  have htotal : Std.Total fun a b : W => k.start a ≤ k.start b := ⟨fun a b => le_total _ _⟩
  have htrans : IsTrans W fun a b => k.start a ≤ k.start b := ⟨fun _ _ _ => le_trans⟩
  exact List.pairwise_insertionSort _ windows

theorem mem_sortByStart {windows : List W} {w : W} :
    w ∈ sortByStart k windows ↔ w ∈ windows :=
  List.mem_insertionSort _

/-- No interval is lost: one merged record covers it and keeps what it says. -/
theorem exists_covers_merge (hsingle : ∀ w, holds w (k.single w))
    (hjoin : ∀ m w, holds w (k.join m w)) (hstays : ∀ m v w, holds w m → holds w (k.join m v))
    {windows : List W} {w : W} (hw : w ∈ windows) :
    ∃ m ∈ merge k windows, Covers k holds w m := by
  have hmem : w ∈ sortByStart k windows := mem_sortByStart.mpr hw
  have hsorted := pairwise_sortByStart (k := k) windows
  rw [merge]
  cases hlist : sortByStart k windows with
  | nil =>
    rw [hlist] at hmem
    simp at hmem
  | cons v rest =>
    rw [hlist] at hmem hsorted
    obtain ⟨hfirst, hlater⟩ := List.pairwise_cons.mp hsorted
    rw [sweep]
    rcases List.mem_cons.mp hmem with rfl | hrest
    · exact exists_covers_of_current hstays (covers_single hsingle w) rest
    · refine exists_covers_mergeFrom hsingle hjoin hstays hlater ?_ hrest
      intro u hu
      rw [k.begins_single]
      exact hfirst u hu

end Rules

section Built

variable {k} {P : M → Prop} {windows : List W}

theorem mergeFrom_built {rest : List W} (hsingle : ∀ w ∈ rest, P (k.single w))
    (hjoin : ∀ m, ∀ w ∈ rest, P m → P (k.join m w)) {current : M} (hcurrent : P current) :
    ∀ m ∈ mergeFrom k current rest, P m := by
  induction rest generalizing current with
  | nil =>
    intro m hm
    rw [mergeFrom, List.mem_singleton] at hm
    rw [hm]
    exact hcurrent
  | cons v rest ih =>
    have hlater := fun w hw => hsingle w (List.mem_cons_of_mem v hw)
    have hlaterJoin := fun m w hw => hjoin m w (List.mem_cons_of_mem v hw)
    intro m hm
    rw [mergeFrom] at hm
    split at hm
    · rcases List.mem_cons.mp hm with rfl | hm
      · exact hcurrent
      · exact ih hlater hlaterJoin (hsingle v List.mem_cons_self) m hm
    · exact ih hlater hlaterJoin (hjoin current v List.mem_cons_self hcurrent) m hm

/-- What holds of one interval's record and survives every join holds of every merged
record. -/
theorem merge_built (hsingle : ∀ w ∈ windows, P (k.single w))
    (hjoin : ∀ m, ∀ w ∈ windows, P m → P (k.join m w)) : ∀ m ∈ merge k windows, P m := by
  have hsingle' : ∀ w ∈ sortByStart k windows, P (k.single w) := by
    intro w hw
    exact hsingle w (mem_sortByStart.mp hw)
  have hjoin' : ∀ m, ∀ w ∈ sortByStart k windows, P m → P (k.join m w) := by
    intro m w hw
    exact hjoin m w (mem_sortByStart.mp hw)
  intro m hm
  rw [merge] at hm
  cases hlist : sortByStart k windows with
  | nil =>
    rw [hlist] at hm
    simp [sweep] at hm
  | cons v rest =>
    rw [hlist] at hm hsingle' hjoin'
    rw [sweep] at hm
    exact mergeFrom_built (fun w hw => hsingle' w (List.mem_cons_of_mem v hw))
      (fun m w hw => hjoin' m w (List.mem_cons_of_mem v hw))
      (hsingle' v List.mem_cons_self) m hm

end Built

section Chains

variable {k} {windows : List W}

/-- Every interval but the first starts before the end of an earlier one. -/
def Linked (k : Merging W M T) (chain : List W) : Prop :=
  ∀ front v back, chain = front ++ v :: back → front ≠ [] → ∃ u ∈ front, k.start v ≤ k.finish u

theorem linked_singleton (w : W) : Linked k [w] := by
  intro front v back heq hfront
  cases front with
  | nil => exact absurd rfl hfront
  | cons first rest => simp at heq

variable {chain : List W}

theorem Linked.concat (h : Linked k chain) {v : W}
    (hv : ∃ u ∈ chain, k.start v ≤ k.finish u) : Linked k (chain ++ [v]) := by
  intro front x back heq hfront
  rcases List.eq_nil_or_concat back with rfl | ⟨earlier, last, rfl⟩
  · have hsame : chain = front ∧ v = x := by simpa using List.append_inj' heq rfl
    obtain ⟨rfl, rfl⟩ := hsame
    exact hv
  · have hsplit : chain ++ [v] = (front ++ x :: earlier) ++ [last] := by simpa using heq
    obtain ⟨hchain, _⟩ := List.append_inj' hsplit rfl
    exact h front x earlier hchain hfront

theorem Linked.front {v : W} (h : Linked k (chain ++ [v])) : Linked k chain := by
  intro front x back heq hfront
  refine h front x (back ++ [v]) ?_ hfront
  rw [heq, List.append_assoc, List.cons_append]

/-- The record that a chain is put together in. -/
def pooled (k : Merging W M T) (w : W) (ws : List W) : M := ws.foldl k.join (k.single w)

theorem pooled_concat (w : W) (ws : List W) (v : W) :
    pooled k w (ws ++ [v]) = k.join (pooled k w ws) v := by
  rw [pooled, pooled, List.foldl_concat]

/-- A chain reaches as far as one of its intervals. -/
theorem exists_reach_pooled (w : W) (ws : List W) :
    ∃ u ∈ w :: ws, k.reach (pooled k w ws) = k.finish u := by
  induction ws using List.reverseRecOn with
  | nil => exact ⟨w, List.mem_cons_self, k.reach_single w⟩
  | append_singleton ws v ih =>
    obtain ⟨u, hu, hreach⟩ := ih
    rw [pooled_concat, k.reach_join, hreach, ← List.cons_append]
    rcases le_total (k.finish u) (k.finish v) with hle | hle
    · exact ⟨v, List.mem_append_right _ (List.mem_singleton_self v), max_eq_right hle⟩
    · exact ⟨u, List.mem_append_left _ hu, max_eq_left hle⟩

variable {ws : List W}

theorem finish_le_reach_pooled {w u : W} (hu : u ∈ w :: ws) :
    k.finish u ≤ k.reach (pooled k w ws) := by
  induction ws using List.reverseRecOn with
  | nil =>
    rw [List.mem_singleton.mp hu]
    exact (k.reach_single w).ge
  | append_singleton ws v ih =>
    rw [pooled_concat, k.reach_join]
    rw [← List.cons_append] at hu
    rcases List.mem_append.mp hu with hold | hnew
    · exact le_trans (ih hold) (le_max_left _ _)
    · rw [List.mem_singleton.mp hnew]
      exact le_max_right _ _

variable {w : W}

/-- What lies in the record of a chain lies in one of its intervals. -/
theorem exists_holds_of_pooled {t : T} (hlinked : Linked k (w :: ws))
    (hbegins : k.begins (pooled k w ws) ≤ t) (hreach : t ≤ k.reach (pooled k w ws)) :
    ∃ u ∈ w :: ws, k.start u ≤ t ∧ t ≤ k.finish u := by
  induction ws using List.reverseRecOn with
  | nil =>
    have hsingle : pooled k w [] = k.single w := rfl
    rw [hsingle, k.begins_single] at hbegins
    rw [hsingle, k.reach_single] at hreach
    exact ⟨w, List.mem_cons_self, hbegins, hreach⟩
  | append_singleton ws v ih =>
    rw [pooled_concat, k.begins_join] at hbegins
    rw [pooled_concat, k.reach_join] at hreach
    rw [← List.cons_append] at hlinked ⊢
    by_cases hearlier : t ≤ k.reach (pooled k w ws)
    · obtain ⟨u, hu, hholds⟩ := ih hlinked.front hbegins hearlier
      exact ⟨u, List.mem_append_left _ hu, hholds⟩
    · -- past the reach so far only the interval that was put in last holds it
      obtain ⟨u, hu, hstart⟩ := hlinked (w :: ws) v [] rfl (List.cons_ne_nil w ws)
      have hbefore : k.finish u ≤ k.reach (pooled k w ws) := finish_le_reach_pooled hu
      have hlate := not_le.mp hearlier
      refine ⟨v, List.mem_append_right _ (List.mem_singleton_self v), ?_, ?_⟩
      · exact le_trans hstart (le_trans hbefore hlate.le)
      · exact (le_max_iff.mp hreach).resolve_left hearlier

/-- A run of intervals, in the order of their starts, that are linked. -/
structure Chain (k : Merging W M T) (windows chain : List W) : Prop where
  run : chain <:+: sortByStart k windows
  linked : Linked k chain

theorem exists_chain_of_mem_mergeFrom {front rest : List W}
    (hsplit : sortByStart k windows = front ++ (w :: ws) ++ rest) (hlinked : Linked k (w :: ws))
    {m : M} (h : m ∈ mergeFrom k (pooled k w ws) rest) :
    ∃ first others, Chain k windows (first :: others) ∧ m = pooled k first others := by
  induction rest generalizing front w ws with
  | nil =>
    rw [mergeFrom, List.mem_singleton] at h
    exact ⟨w, ws, ⟨⟨front, [], hsplit.symm⟩, hlinked⟩, h⟩
  | cons v rest ih =>
    rw [mergeFrom] at h
    split at h
    · rcases List.mem_cons.mp h with hclosed | hlater
      · exact ⟨w, ws, ⟨⟨front, v :: rest, hsplit.symm⟩, hlinked⟩, hclosed⟩
      · have hnext : sortByStart k windows = (front ++ (w :: ws)) ++ [v] ++ rest := by
          rw [hsplit]
          simp
        exact ih hnext (linked_singleton v) hlater
    · rename_i hmeets
      rw [← pooled_concat] at h
      obtain ⟨u, hu, hreach⟩ := exists_reach_pooled (k := k) w ws
      have hnext : sortByStart k windows = front ++ (w :: (ws ++ [v])) ++ rest := by
        rw [hsplit]
        simp
      refine ih hnext ?_ h
      rw [← List.cons_append]
      refine hlinked.concat ⟨u, hu, ?_⟩
      rw [← hreach]
      exact not_lt.mp hmeets

/-- Every merged record is that of a chain. -/
theorem exists_chain_of_mem_merge {m : M} (h : m ∈ merge k windows) :
    ∃ first others, Chain k windows (first :: others) ∧ m = pooled k first others := by
  rw [merge] at h
  cases hlist : sortByStart k windows with
  | nil =>
    rw [hlist, sweep] at h
    cases h
  | cons w rest =>
    rw [hlist, sweep] at h
    have hsplit : sortByStart k windows = [] ++ [w] ++ rest := hlist
    exact exists_chain_of_mem_mergeFrom hsplit (linked_singleton w) h

theorem Chain.mem (h : Chain k windows chain) (hw : w ∈ chain) : w ∈ windows :=
  mem_sortByStart.mp (h.run.subset hw)

/-- Where no interval starts inside another one, a chain is one interval. -/
theorem Chain.eq_nil_of_apart (h : Chain k windows (w :: ws))
    (hapart : windows.Pairwise fun a b =>
      ¬ (k.start a ≤ k.start b ∧ k.start b ≤ k.finish a) ∧
        ¬ (k.start b ≤ k.start a ∧ k.start a ≤ k.finish b)) : ws = [] := by
  cases ws with
  | nil => rfl
  | cons v rest =>
    exfalso
    have hsorted := (pairwise_sortByStart (k := k) windows).sublist h.run.sublist
    have hperm : (sortByStart k windows).Perm windows := List.perm_insertionSort _ windows
    have hpairwise := (hperm.pairwise_iff (fun hab => ⟨hab.2, hab.1⟩)).mpr hapart
    have hmeet := hpairwise.sublist h.run.sublist
    have hfirst := (List.pairwise_cons.mp hsorted).1 v List.mem_cons_self
    obtain ⟨u, hu, hstart⟩ := h.linked [w] v rest rfl (List.cons_ne_nil w [])
    rw [List.mem_singleton.mp hu] at hstart
    exact ((List.pairwise_cons.mp hmeet).1 v List.mem_cons_self).1 ⟨hfirst, hstart⟩

end Chains

end MT5Services.MergedIntervals
