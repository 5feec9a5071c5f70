import Mathlib.Data.List.Induction

/-!
Functions between lists that work in step with their input: what they give up to a
position is decided by the input up to there. A window that ends at each element, and a
pass that may look back at what it has written so far, are of this kind, and the kind is
closed under composition. Inputs that agree up to a position have outputs that agree
up to it. A list that only grows keeps its front, and so does a list that is cut where a
property ends. What a fold chooses from the front is one of its arguments, and no member
betters it.
-/
namespace MT5Services.Prefixes

variable {α β γ : Type*}

/-- The output for a front of the input is the front of the output. -/
def Causal (f : List α → List β) : Prop := ∀ list n, f (list.take n) = (f list).take n

/-- The value at each position, from the input up to it. -/
def onFronts (g : ℕ → List α → β) (list : List α) : List β :=
  (List.range list.length).map fun i => g i (list.take (i + 1))

/-- A pass from the left that sees what it has written. -/
def withHistory (f : List β → α → β) (list : List α) : List β :=
  list.foldl (fun done a => done ++ [f done a]) []

theorem Causal.comp {f : List α → List β} {g : List β → List γ} (hf : Causal f) (hg : Causal g) :
    Causal fun list => g (f list) := by
  intro list n
  change g (f (list.take n)) = (g (f list)).take n
  rw [hf, hg]

/-- Inputs that agree up to a position. -/
theorem Causal.take_eq {f : List α → List β} (hf : Causal f) {list other : List α} {n : ℕ}
    (h : list.take n = other.take n) : (f list).take n = (f other).take n := by
  rw [← hf, ← hf, h]

theorem Causal.getElem?_eq {f : List α → List β} (hf : Causal f) {list other : List α} {n i : ℕ}
    (h : list.take n = other.take n) (hi : i < n) : (f list)[i]? = (f other)[i]? := by
  have htake := congrArg (fun l => l[i]?) (hf.take_eq h)
  simpa only [List.getElem?_take, if_pos hi] using htake

theorem onFronts_causal (g : ℕ → List α → β) : Causal (onFronts g) := by
  intro list n
  rw [onFronts, onFronts, ← List.map_take, List.take_range, List.length_take]
  apply List.map_congr_left
  intro i hi
  have hlt : i < min n list.length := List.mem_range.mp hi
  rw [List.take_take, Nat.min_eq_left (by omega)]

theorem onFronts_concat (g : ℕ → List α → β) (list : List α) (a : α) :
    onFronts g (list ++ [a]) = onFronts g list ++ [g list.length (list ++ [a])] := by
  have hfront : (List.range list.length).map (fun i => g i ((list ++ [a]).take (i + 1))) =
      onFronts g list := by
    refine List.map_congr_left fun i hi => ?_
    have hlt := List.mem_range.mp hi
    rw [List.take_append_of_le_length (by omega)]
  have hall : (list ++ [a]).take (list.length + 1) = list ++ [a] :=
    List.take_of_length_le (Nat.le_of_eq (List.length_append ..))
  rw [onFronts, List.length_append, List.length_singleton, List.range_succ, List.map_append,
    hfront, List.map_singleton, hall]

theorem withHistory_concat (f : List β → α → β) (list : List α) (a : α) :
    withHistory f (list ++ [a]) = withHistory f list ++ [f (withHistory f list) a] := by
  rw [withHistory, List.foldl_append, List.foldl_cons, List.foldl_nil, withHistory]

theorem length_withHistory (f : List β → α → β) (list : List α) :
    (withHistory f list).length = list.length := by
  induction list using List.reverseRecOn with
  | nil => rfl
  | append_singleton front a ih =>
    rw [withHistory_concat, List.length_append, List.length_append, ih, List.length_singleton,
      List.length_singleton]

theorem withHistory_causal (f : List β → α → β) : Causal (withHistory f) := by
  intro list n
  induction list using List.reverseRecOn with
  | nil => rw [List.take_nil, withHistory, List.foldl_nil, List.take_nil]
  | append_singleton front a ih =>
    have hlength := length_withHistory f front
    by_cases hn : n ≤ front.length
    · rw [List.take_append_of_le_length hn, ih, withHistory_concat,
        List.take_append_of_le_length (by omega)]
    · rw [List.take_of_length_le (by rw [List.length_append, List.length_singleton]; omega),
        List.take_of_length_le]
      rw [length_withHistory, List.length_append, List.length_singleton]
      omega

/-- The longer list begins with the list, and what it adds has the property. -/
def Adds (P : α → Prop) (list longer : List α) : Prop :=
  ∃ new, longer = list ++ new ∧ ∀ a ∈ new, P a

theorem Adds.refl (P : α → Prop) (list : List α) : Adds P list list :=
  ⟨[], (List.append_nil list).symm, fun _ ha => absurd ha List.not_mem_nil⟩

theorem Adds.trans {P : α → Prop} {list longer longest : List α} (h : Adds P list longer)
    (hnext : Adds P longer longest) : Adds P list longest := by
  obtain ⟨new, rfl, hnew⟩ := h
  obtain ⟨last, rfl, hlast⟩ := hnext
  refine ⟨new ++ last, List.append_assoc _ _ _, fun a ha => ?_⟩
  rcases List.mem_append.mp ha with hold | hadded
  · exact hnew a hold
  · exact hlast a hadded

theorem Adds.mono {P Q : α → Prop} {list longer : List α} (h : Adds P list longer)
    (himp : ∀ a, P a → Q a) : Adds Q list longer := by
  obtain ⟨new, hnew, hall⟩ := h
  exact ⟨new, hnew, fun a ha => himp a (hall a ha)⟩

/-- What is added is not seen by a filter that refuses it. -/
theorem Adds.filter_eq {P : α → Prop} {list longer : List α} (h : Adds P list longer)
    {p : α → Bool} (hp : ∀ a, P a → p a = false) : longer.filter p = list.filter p := by
  obtain ⟨new, rfl, hnew⟩ := h
  have hnone : new.filter p = [] := by
    rw [List.filter_eq_nil_iff]
    intro a ha htrue
    rw [hp a (hnew a ha)] at htrue
    exact Bool.false_ne_true htrue
  rw [List.filter_append, hnone, List.append_nil]

/-- Lists that agree on a property agree on a stronger one. -/
theorem filter_eq_of_imp {p q : α → Bool} {list other : List α}
    (h : list.filter p = other.filter p) (hlist : ∀ a ∈ list, q a = true → p a = true)
    (hother : ∀ a ∈ other, q a = true → p a = true) : list.filter q = other.filter q := by
  have hboth {list : List α} (himp : ∀ a ∈ list, q a = true → p a = true) :
      (list.filter p).filter q = list.filter q := by
    rw [List.filter_filter]
    refine List.filter_congr fun a ha => ?_
    cases hq : q a with
    | false => rfl
    | true => rw [himp a ha hq, Bool.and_true]
  rw [← hboth hlist, h, hboth hother]

/-- Where a property ends for good the list is cut in two. -/
theorem filter_append_filter_not {p : α → Bool} {list : List α}
    (h : list.Pairwise fun a b => p b = true → p a = true) :
    list.filter p ++ list.filter (fun a => !p a) = list := by
  induction list with
  | nil => rfl
  | cons a rest ih =>
    obtain ⟨hfirst, hrest⟩ := List.pairwise_cons.mp h
    cases ha : p a with
    | true =>
      rw [List.filter_cons_of_pos ha, List.filter_cons_of_neg (by rw [ha]; decide),
        List.cons_append, ih hrest]
    | false =>
      have hnone : rest.filter p = [] := by
        rw [List.filter_eq_nil_iff]
        intro b hb htrue
        exact absurd (ha.symm.trans (hfirst b hb htrue)) Bool.false_ne_true
      rw [List.filter_cons_of_neg (by rw [ha]; decide), hnone, List.nil_append,
        List.filter_eq_self]
      intro b hb
      rcases List.mem_cons.mp hb with rfl | hmem
      · rw [ha]
        rfl
      · rw [List.filter_eq_nil_iff] at hnone
        rw [Bool.eq_false_iff.mpr (hnone b hmem)]
        rfl

/-- A front keeps what the property admits of it. -/
theorem filter_take {p : α → Bool} {list : List α}
    (h : list.Pairwise fun a b => p b = true → p a = true) (n : ℕ) :
    (list.take n).filter p = (list.filter p).take n := by
  have hnone : ((list.filter fun a => !p a).take (n - (list.filter p).length)).filter p = [] := by
    rw [List.filter_eq_nil_iff]
    intro a ha htrue
    have hnot := (List.mem_filter.mp (List.mem_of_mem_take ha)).2
    rw [htrue] at hnot
    exact Bool.false_ne_true hnot
  have hall : ((list.filter p).take n).filter p = (list.filter p).take n := by
    rw [List.filter_eq_self]
    intro a ha
    exact (List.mem_filter.mp (List.mem_of_mem_take ha)).2
  conv_lhs => rw [← filter_append_filter_not h]
  rw [List.take_append, List.filter_append, hnone, hall, List.append_nil]

/-- What is read while a property holds does not go into a part where it never holds. -/
theorem takeWhile_append_of_forall_not {p : α → Bool} {later : List α}
    (h : ∀ a ∈ later, p a = false) (list : List α) :
    (list ++ later).takeWhile p = list.takeWhile p := by
  have hnone : later.takeWhile p = [] := by
    cases later with
    | nil => rfl
    | cons a rest =>
      rw [List.takeWhile_cons, if_neg (by rw [h a List.mem_cons_self]; exact Bool.false_ne_true)]
  rw [List.takeWhile_append, hnone, List.append_nil]
  split
  · rename_i hlength
    exact ((List.takeWhile_prefix p).eq_of_length hlength).symm
  · rfl

theorem find?_append_of_forall_not {p : α → Bool} {later : List α}
    (h : ∀ a ∈ later, p a = false) (list : List α) : (list ++ later).find? p = list.find? p := by
  have hnone : later.find? p = none := by
    rw [List.find?_eq_none]
    intro a ha
    rw [h a ha]
    exact Bool.false_ne_true
  rw [List.find?_append, hnone, Option.or_none]

/-- A condition at every place where a list splits is one on the first member and one at every
place of the rest. -/
theorem forall_splits_cons {holds : List α → α → List α → Prop} {first : α} {rest : List α} :
    (∀ before a after, first :: rest = before ++ a :: after → holds before a after) ↔
      holds [] first rest ∧
        ∀ before a after, rest = before ++ a :: after → holds (first :: before) a after := by
  constructor
  · intro h
    refine ⟨h [] first rest rfl, ?_⟩
    intro before a after hsplit
    exact h (first :: before) a after (by rw [hsplit, List.cons_append])
  · intro ⟨hfirst, hrest⟩ before a after hsplit
    cases before with
    | nil =>
      obtain ⟨rfl, rfl⟩ := List.cons.inj hsplit
      exact hfirst
    | cons head before =>
      obtain ⟨rfl, hlater⟩ := List.cons.inj hsplit
      exact hrest before a after hlater

/-- A fold that chooses between its two arguments ends at the start or at a member. -/
theorem foldl_choice {f : α → α → α} (hchoice : ∀ a b, f a b = a ∨ f a b = b) (start : α)
    (list : List α) : list.foldl f start = start ∨ list.foldl f start ∈ list := by
  induction list generalizing start with
  | nil => exact Or.inl rfl
  | cons first rest ih =>
    rw [List.foldl_cons]
    rcases ih (f start first) with hstart | hrest
    · rw [hstart]
      rcases hchoice start first with hold | hnew
      · exact Or.inl hold
      · exact Or.inr (by rw [hnew]; exact List.mem_cons_self)
    · exact Or.inr (List.mem_cons_of_mem first hrest)

/-- A fold that never gets worse is at least as good as its start and its members. -/
theorem foldl_bound {R : α → α → Prop} (hrefl : ∀ a, R a a)
    (htrans : ∀ a b c, R a b → R b c → R a c) {f : α → α → α} (hleft : ∀ a b, R a (f a b))
    (hright : ∀ a b, R b (f a b)) (start : α) (list : List α) :
    R start (list.foldl f start) ∧ ∀ member ∈ list, R member (list.foldl f start) := by
  induction list generalizing start with
  | nil =>
    refine ⟨hrefl start, ?_⟩
    intro member hmember
    cases hmember
  | cons first rest ih =>
    obtain ⟨hstart, hrest⟩ := ih (f start first)
    refine ⟨htrans _ _ _ (hleft start first) hstart, ?_⟩
    intro member hmember
    rcases List.mem_cons.mp hmember with rfl | hlater
    · exact htrans _ _ _ (hright start member) hstart
    · exact hrest member hlater

end MT5Services.Prefixes
