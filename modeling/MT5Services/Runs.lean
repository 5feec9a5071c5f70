import Mathlib.Logic.Relation

/-!
Finite runs of a partial step function. A label carries every choice the
environment makes at its step, so a run is a list of labels and the final state
is computed from it. The rules below lift what one step preserves to whole runs,
with or without a guard that every step of the run meets.
-/
namespace MT5Services.Runs

variable {S A : Type*}

/-- Take the labelled steps in order; `none` when some step is not enabled. -/
def run (step : S → A → Option S) : S → List A → Option S
  | s, [] => some s
  | s, a :: rest => (step s a).bind fun t => run step t rest

theorem run_cons {step : S → A → Option S} {s u : S} {a : A} {rest : List A}
    (h : run step s (a :: rest) = some u) :
    ∃ t, step s a = some t ∧ run step t rest = some u := by
  simpa only [run, Option.bind_eq_some_iff] using h

theorem run_append {step : S → A → Option S} (s : S) (front back : List A) :
    run step s (front ++ back) = (run step s front).bind fun t => run step t back := by
  induction front generalizing s with
  | nil => rfl
  | cons a rest ih =>
    simp only [List.cons_append, run]
    cases hs : step s a with
    | none => rfl
    | some t => simpa only [Option.bind_some] using ih t

/-- Every step of the run meets the guard in the state it is taken from. -/
def Along (step : S → A → Option S) (guard : S → A → Prop) : S → List A → Prop
  | _, [] => True
  | s, a :: rest => guard s a ∧ ∀ t, step s a = some t → Along step guard t rest

/-- With a decidable guard the condition can be evaluated along a given run. -/
instance decidableAlong (step : S → A → Option S) (guard : S → A → Prop)
    [∀ s a, Decidable (guard s a)] : ∀ s labels, Decidable (Along step guard s labels)
  | _, [] => isTrue trivial
  | s, a :: rest =>
    match h : step s a with
    | none => decidable_of_iff (guard s a)
      ⟨fun hguard => ⟨hguard, fun _ ht => nomatch h.symm.trans ht⟩, fun halong => halong.1⟩
    | some t =>
      have : Decidable (Along step guard t rest) := decidableAlong step guard t rest
      decidable_of_iff (guard s a ∧ Along step guard t rest)
        ⟨fun hboth => ⟨hboth.1, fun _ hu => Option.some.inj (h.symm.trans hu) ▸ hboth.2⟩,
          fun halong => ⟨halong.1, halong.2 t h⟩⟩

/-- Every step of the run meets the relation with every earlier one, each in the state it is
taken from. -/
def AlongPairs (step : S → A → Option S) (related : S → A → S → A → Prop) : S → List A → Prop
  | _, [] => True
  | s, a :: rest => ∀ t, step s a = some t →
    Along step (related s a) t rest ∧ AlongPairs step related t rest

instance decidableAlongPairs (step : S → A → Option S) (related : S → A → S → A → Prop)
    [∀ s a t b, Decidable (related s a t b)] : ∀ s labels,
      Decidable (AlongPairs step related s labels)
  | _, [] => isTrue trivial
  | s, a :: rest =>
    match h : step s a with
    | none => isTrue fun _ ht => nomatch h.symm.trans ht
    | some t =>
      have : Decidable (AlongPairs step related t rest) :=
        decidableAlongPairs step related t rest
      decidable_of_iff (Along step (related s a) t rest ∧ AlongPairs step related t rest)
        ⟨fun hboth _ hu => Option.some.inj (h.symm.trans hu) ▸ hboth, fun hall => hall t h⟩

/-- Where a run stops: at its end, or before the step that is not enabled. -/
def reach (step : S → A → Option S) : S → List A → S
  | s, [] => s
  | s, a :: rest =>
    match step s a with
    | none => s
    | some t => reach step t rest

variable {step : S → A → Option S}

theorem reach_eq_of_run {s u : S} {labels : List A} (h : run step s labels = some u) :
    reach step s labels = u := by
  induction labels generalizing s with
  | nil => exact Option.some.inj h
  | cons a rest ih =>
    obtain ⟨t, ht, hrest⟩ := run_cons h
    rw [reach, ht]
    exact ih hrest

theorem reach_append (s : S) (front back : List A) :
    reach step s (front ++ back) =
      ((run step s front).map fun t => reach step t back).getD (reach step s front) := by
  induction front generalizing s with
  | nil => rfl
  | cons a rest ih =>
    simp only [List.cons_append, run, reach]
    cases hs : step s a with
    | none => rfl
    | some t => simpa only [Option.bind_some] using ih t

/-- A preorder that every step respects relates the start to where the run stops. -/
theorem reach_related {R : S → S → Prop} (hrefl : ∀ s, R s s)
    (htrans : ∀ s t u, R s t → R t u → R s u) {labels : List A}
    (hstep : ∀ s t, ∀ a ∈ labels, step s a = some t → R s t) (s : S) :
    R s (reach step s labels) := by
  induction labels generalizing s with
  | nil => exact hrefl s
  | cons a rest ih =>
    rw [reach]
    cases hs : step s a with
    | none => exact hrefl s
    | some t =>
      have hrest : R t (reach step t rest) :=
        ih (fun u v b hb => hstep u v b (List.mem_cons_of_mem a hb)) t
      exact htrans s t _ (hstep s t a List.mem_cons_self hs) hrest

/-- A step invariant that may use the guard holds after every guarded run. -/
theorem run_invariant_along {guard : S → A → Prop} {I : S → Prop}
    (hstep : ∀ s a t, I s → guard s a → step s a = some t → I t)
    {s u : S} {labels : List A} (hs : I s) (halong : Along step guard s labels)
    (hrun : run step s labels = some u) : I u := by
  induction labels generalizing s with
  | nil =>
    cases Option.some.inj hrun
    exact hs
  | cons a rest ih =>
    obtain ⟨t, ht, hrest⟩ := run_cons hrun
    exact ih (hstep s a t hs halong.1 ht) (halong.2 t ht) hrest

theorem along_mono {guard weaker : S → A → Prop} {s : S} {labels : List A}
    (h : ∀ s a, guard s a → weaker s a) (halong : Along step guard s labels) :
    Along step weaker s labels := by
  induction labels generalizing s with
  | nil => trivial
  | cons a rest ih => exact ⟨h s a halong.1, fun t ht => ih (halong.2 t ht)⟩

/-- What an invariant and the guard give of one step is met along every guarded run. -/
theorem along_of_invariant {guard goal : S → A → Prop} {I : S → Prop}
    (hstep : ∀ s a t, I s → guard s a → step s a = some t → I t)
    (hgoal : ∀ s a, I s → guard s a → goal s a) {s : S} {labels : List A} (hs : I s)
    (halong : Along step guard s labels) : Along step goal s labels := by
  induction labels generalizing s with
  | nil => trivial
  | cons a rest ih =>
    exact ⟨hgoal s a hs halong.1, fun t ht => ih (hstep s a t hs halong.1 ht) (halong.2 t ht)⟩

/-- The invariant speaks of the steps taken so far, and may use how the next one is related to
each of them. -/
theorem along_of_pairs {related : S → A → S → A → Prop} {I : (S → A → Prop) → S → Prop}
    {goal : S → A → Prop}
    (hgoal : ∀ past s a, I past s → (∀ u b, past u b → related u b s a) → goal s a)
    (hstep : ∀ past s a t, I past s → (∀ u b, past u b → related u b s a) → step s a = some t →
      I (fun u b => past u b ∨ (u = s ∧ b = a)) t)
    {past : S → A → Prop} {s : S} {labels : List A} (hs : I past s)
    (hpast : ∀ u b, past u b → Along step (related u b) s labels)
    (hpairs : AlongPairs step related s labels) : Along step goal s labels := by
  induction labels generalizing s past with
  | nil => trivial
  | cons a rest ih =>
    have hnow : ∀ u b, past u b → related u b s a := fun u b hub => (hpast u b hub).1
    refine ⟨hgoal past s a hs hnow, ?_⟩
    intro t ht
    obtain ⟨hlater, hrest⟩ := hpairs t ht
    refine ih (hstep past s a t hs hnow ht) ?_ hrest
    rintro u b (hub | ⟨rfl, rfl⟩)
    · exact (hpast u b hub).2 t ht
    · exact hlater

/-- What every step meets is what is met at every place where the labels split. -/
theorem along_iff_splits {guard : S → A → Prop} (s : S) (labels : List A) :
    Along step guard s labels ↔
      ∀ front a back t, labels = front ++ a :: back → run step s front = some t → guard t a := by
  constructor
  · intro halong front a back t hlabels hrun
    subst hlabels
    induction front generalizing s with
    | nil =>
      cases Option.some.inj hrun
      exact halong.1
    | cons first front ih =>
      obtain ⟨u, hu, hrest⟩ := run_cons hrun
      exact ih u hrest (halong.2 u hu)
  · intro hsplits
    induction labels generalizing s with
    | nil => trivial
    | cons first rest ih =>
      refine ⟨hsplits [] first rest s rfl rfl, ?_⟩
      intro t ht
      apply ih
      intro front a back u hrest hrun
      refine hsplits (first :: front) a back u (by rw [hrest, List.cons_append]) ?_
      rw [run, ht, Option.bind_some]
      exact hrun

/-- When a step from an invariant state keeps the invariant exactly under the guard, so does a
run: the invariant holds in all its states or some step does not meet the guard. -/
theorem forall_reached_iff_along {guard : S → A → Prop} {I J : S → Prop}
    (hstep : ∀ s a t, I s → J s → step s a = some t → (I t ↔ guard s a) ∧ J t)
    (hstuck : ∀ s a, step s a = none → guard s a) {s : S} (hI : I s) (hJ : J s)
    (labels : List A) :
    (∀ front back t, labels = front ++ back → run step s front = some t → I t) ↔
      Along step guard s labels := by
  induction labels generalizing s with
  | nil =>
    refine iff_of_true ?_ trivial
    intro front back t hlabels hrun
    rw [(List.append_eq_nil_iff.mp hlabels.symm).1] at hrun
    exact Option.some.inj hrun ▸ hI
  | cons a rest ih =>
    constructor
    · intro hall
      refine ⟨?_, ?_⟩
      · cases hs : step s a with
        | none => exact hstuck s a hs
        | some t =>
          have hrun : run step s [a] = some t := by rw [run, hs]; rfl
          exact (hstep s a t hI hJ hs).1.mp (hall [a] rest t rfl hrun)
      · intro t ht
        have hrun : ∀ front, run step s (a :: front) = run step t front := by
          intro front
          rw [run, ht]
          rfl
        have hIt : I t := hall [a] rest t rfl (hrun [])
        refine (ih hIt (hstep s a t hI hJ ht).2).mp ?_
        intro front back u hrest hreached
        exact hall (a :: front) back u (by rw [hrest, List.cons_append])
          ((hrun front).trans hreached)
    · intro halong front back u hlabels hrun
      cases front with
      | nil => exact Option.some.inj hrun ▸ hI
      | cons first front =>
        obtain ⟨rfl, hrest⟩ := List.cons.inj hlabels
        obtain ⟨t, ht, hreached⟩ := run_cons hrun
        obtain ⟨hkeeps, hJt⟩ := hstep s a t hI hJ ht
        exact (ih (hkeeps.mpr halong.1) hJt).mpr (halong.2 t ht) front back u hrest hreached

/-- Where the guard is not met along a run there is a first step that does not meet it. -/
theorem exists_first_of_not_along {guard : S → A → Prop} {s : S} {labels : List A}
    (h : ¬ Along step guard s labels) :
    ∃ front a back t, labels = front ++ a :: back ∧ Along step guard s front ∧
      run step s front = some t ∧ ¬ guard t a := by
  induction labels generalizing s with
  | nil => exact absurd trivial h
  | cons first rest ih =>
    rcases Classical.em (guard s first) with hfirst | hfirst
    · obtain ⟨t, hnot⟩ := Classical.not_forall.mp fun hall => h ⟨hfirst, hall⟩
      obtain ⟨ht, hrest⟩ := Classical.not_imp.mp hnot
      obtain ⟨front, a, back, u, hlabels, halong, hrun, hbad⟩ := ih hrest
      refine ⟨first :: front, a, back, u, ?_, ⟨hfirst, ?_⟩, ?_, hbad⟩
      · rw [hlabels, List.cons_append]
      · intro v hv
        cases Option.some.inj (ht.symm.trans hv)
        exact halong
      · rw [run, ht, Option.bind_some]
        exact hrun
    · exact ⟨[], first, rest, s, rfl, trivial, rfl, hfirst⟩

theorem along_front {guard : S → A → Prop} {s : S} {front back : List A}
    (halong : Along step guard s (front ++ back)) : Along step guard s front := by
  apply (along_iff_splits s front).mpr
  intro first a rest t hfront hrun
  apply (along_iff_splits s (front ++ back)).mp halong first a (rest ++ back) t ?_ hrun
  rw [hfront, List.append_assoc, List.cons_append]

/-- The rest of a guarded run is guarded from where its front ends. -/
theorem along_back {guard : S → A → Prop} {s t : S} {front back : List A}
    (halong : Along step guard s (front ++ back)) (hrun : run step s front = some t) :
    Along step guard t back := by
  induction front generalizing s with
  | nil =>
    cases Option.some.inj hrun
    exact halong
  | cons a rest ih =>
    obtain ⟨u, hu, hrest⟩ := run_cons hrun
    exact ih (halong.2 u hu) hrest

theorem along_and {guard other : S → A → Prop} {s : S} {labels : List A}
    (hguard : Along step guard s labels) (hother : Along step other s labels) :
    Along step (fun s a => guard s a ∧ other s a) s labels := by
  induction labels generalizing s with
  | nil => trivial
  | cons a rest ih => exact ⟨⟨hguard.1, hother.1⟩, fun t ht => ih (hguard.2 t ht) (hother.2 t ht)⟩

theorem along_of_forall {admits : A → Prop} {s : S} {labels : List A}
    (h : ∀ a ∈ labels, admits a) : Along step (fun _ a => admits a) s labels := by
  induction labels generalizing s with
  | nil => trivial
  | cons a rest ih =>
    refine ⟨h a List.mem_cons_self, ?_⟩
    intro t _
    exact ih fun b hb => h b (List.mem_cons_of_mem a hb)

/-- What every enabled step meets is met along a run that goes to its end. -/
theorem along_of_run {goal : S → A → Prop} (hgoal : ∀ s a t, step s a = some t → goal s a)
    {s u : S} {labels : List A} (hrun : run step s labels = some u) :
    Along step goal s labels := by
  induction labels generalizing s with
  | nil => trivial
  | cons a rest ih =>
    obtain ⟨t, ht, hrest⟩ := run_cons hrun
    refine ⟨hgoal s a t ht, ?_⟩
    intro other hother
    cases Option.some.inj (ht.symm.trans hother)
    exact ih hrest

/-- A number that no step lowers, and that exactly the guarded steps leave as it is, is at
the end what it was when every step of the run was guarded. -/
theorem unchanged_iff_along {guard : S → A → Prop} (measure : S → Nat)
    (hstep : ∀ s a t, step s a = some t →
      measure s ≤ measure t ∧ (measure t = measure s ↔ guard s a))
    {s u : S} {labels : List A} (hrun : run step s labels = some u) :
    measure s ≤ measure u ∧ (measure u = measure s ↔ Along step guard s labels) := by
  induction labels generalizing s with
  | nil =>
    cases Option.some.inj hrun
    exact ⟨Nat.le_refl _, fun _ => trivial, fun _ => rfl⟩
  | cons a rest ih =>
    obtain ⟨t, ht, hrest⟩ := run_cons hrun
    obtain ⟨hfirst, hguard⟩ := hstep s a t ht
    obtain ⟨hlater, halong⟩ := ih hrest
    refine ⟨Nat.le_trans hfirst hlater, ?_, ?_⟩
    · intro hsame
      refine ⟨hguard.mp (by omega), ?_⟩
      intro other hother
      cases Option.some.inj (ht.symm.trans hother)
      exact halong.mp (by omega)
    · intro hall
      have hsame := hguard.mpr hall.1
      have hrestSame := halong.mpr (hall.2 t ht)
      omega

theorem run_invariant {I : S → Prop} (hstep : ∀ s a t, I s → step s a = some t → I t)
    {s u : S} {labels : List A} (hs : I s) (hrun : run step s labels = some u) : I u := by
  induction labels generalizing s with
  | nil =>
    cases Option.some.inj hrun
    exact hs
  | cons a rest ih =>
    obtain ⟨t, ht, hrest⟩ := run_cons hrun
    exact ih (hstep s a t hs ht) hrest

/-- A preorder that every step respects, under an invariant, relates the two
ends of every run. -/
theorem run_related {I : S → Prop} {R : S → S → Prop} (hrefl : ∀ s, R s s)
    (htrans : ∀ s t u, R s t → R t u → R s u)
    (hinv : ∀ s a t, I s → step s a = some t → I t)
    (hstep : ∀ s a t, I s → step s a = some t → R s t)
    {s u : S} {labels : List A} (hs : I s) (hrun : run step s labels = some u) : R s u := by
  induction labels generalizing s with
  | nil =>
    cases Option.some.inj hrun
    exact hrefl _
  | cons a rest ih =>
    obtain ⟨t, ht, hrest⟩ := run_cons hrun
    exact htrans s t u (hstep s a t hs ht) (ih (hinv s a t hs ht) hrest)

/-- Steps that each respect a preorder relate the two ends of the run. -/
theorem related_of_along {R : S → S → Prop} (hrefl : ∀ s, R s s)
    (htrans : ∀ s t u, R s t → R t u → R s u) {s u : S} {labels : List A}
    (halong : Along step (fun s a => ∀ t, step s a = some t → R s t) s labels)
    (hrun : run step s labels = some u) : R s u := by
  induction labels generalizing s with
  | nil =>
    cases Option.some.inj hrun
    exact hrefl _
  | cons a rest ih =>
    obtain ⟨t, ht, hrest⟩ := run_cons hrun
    exact htrans s t u (halong.1 t ht) (ih (halong.2 t ht) hrest)

/-- A loop that may fail, under a preorder that each of its rounds respects. -/
theorem foldlM_related {R : S → S → Prop} (hrefl : ∀ s, R s s)
    (htrans : ∀ s t u, R s t → R t u → R s u) {f : S → A → Option S} {list : List A}
    (hstep : ∀ s t, ∀ a ∈ list, f s a = some t → R s t) {s u : S}
    (h : list.foldlM f s = some u) : R s u := by
  induction list generalizing s with
  | nil =>
    cases Option.some.inj h
    exact hrefl _
  | cons a rest ih =>
    rw [List.foldlM_cons] at h
    obtain ⟨t, ht, hrest⟩ := Option.bind_eq_some_iff.mp h
    have hlast : R t u := ih (fun v w b hb => hstep v w b (List.mem_cons_of_mem a hb)) hrest
    exact htrans s t u (hstep s t a List.mem_cons_self ht) hlast

/-- A fold whose steps all leave one view of the state alone leaves it alone. -/
theorem foldl_frame {V : Type*} (f : S → A → S) (view : S → V) (list : List A)
    (h : ∀ s, ∀ a ∈ list, view (f s a) = view s) (s : S) :
    view (list.foldl f s) = view s := by
  induction list generalizing s with
  | nil => rfl
  | cons a rest ih =>
    rw [List.foldl_cons, ih fun t b hb => h t b (List.mem_cons_of_mem a hb)]
    exact h s a List.mem_cons_self

/-- Under an invariant, what one element of the list brings about and the others keep
holds after the fold. -/
theorem foldl_reaches {I G : S → Prop} {f : S → A → S} {list : List A} {x : A} (hx : x ∈ list)
    (hkeep : ∀ s, ∀ a ∈ list, I s → I (f s a)) (hgoal : ∀ s, I s → G (f s x))
    (hstay : ∀ s, ∀ a ∈ list, I s → G s → G (f s a)) {s : S} (hs : I s) : G (list.foldl f s) := by
  obtain ⟨front, back, rfl⟩ := List.append_of_mem hx
  have hfront : I (front.foldl f s) :=
    List.foldlRecOn (motive := I) front f hs fun t ht a ha =>
      hkeep t a (List.mem_append_left _ ha) ht
  rw [List.foldl_append, List.foldl_cons]
  refine (List.foldlRecOn (motive := fun t => I t ∧ G t) back f
    ⟨hkeep _ x hx hfront, hgoal _ hfront⟩ ?_).2
  intro t ht a ha
  have hmem : a ∈ front ++ x :: back :=
    List.mem_append_right front (List.mem_cons_of_mem x ha)
  exact ⟨hkeep t a hmem ht.1, hstay t a hmem ht.1 ht.2⟩

end MT5Services.Runs
