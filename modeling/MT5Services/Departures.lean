import MT5Services.Prefixes
import Mathlib.Data.List.Basic

/-!
A loop over the members of a list that takes some of them out. Every member is visited once
and either stays, perhaps changed, or leaves with a departure that acts on a state; a visit
that raises ends the loop. The departures of a loop are known without its state, and each of
them comes with the members that are still there: those that stayed and those not visited
yet.
-/
namespace MT5Services.Departures

variable {S P E : Type*}

inductive Visit (P E : Type*)
  | leaves (departure : E)
  | stays (member : P)

/-- One round of the loop on the state and the members kept so far. -/
def take (act : S → E → S) (loop : S × List P) : Visit P E → S × List P
  | .leaves departure => (act loop.1 departure, loop.2)
  | .stays member => (loop.1, loop.2 ++ [member])

def walk (act : S → E → S) (visit : P → Option (Visit P E)) (loop : S × List P)
    (members : List P) : Option (S × List P) :=
  members.foldlM (fun loop member => (visit member).map (take act loop)) loop

/-- The departures, up to a visit that raises. -/
def left (visit : P → Option (Visit P E)) : List P → List E
  | [] => []
  | member :: rest =>
    match visit member with
    | none => []
    | some (.leaves departure) => departure :: left visit rest
    | some (.stays _) => left visit rest

/-- The members that stay, as the loop leaves them. -/
def staying (visit : P → Option (Visit P E)) (members : List P) : List P :=
  members.filterMap fun member =>
    match visit member with
    | some (.stays changed) => some changed
    | _ => none

/-- The states after each departure, with the members that are still there. -/
def departures (act : S → E → S) (visit : P → Option (Visit P E)) :
    S → List P → List P → List (S × List P)
  | _, _, [] => []
  | s, kept, member :: rest =>
    match visit member with
    | none => []
    | some (.leaves departure) =>
      (act s departure, kept ++ rest) :: departures act visit (act s departure) kept rest
    | some (.stays changed) => departures act visit s (kept ++ [changed]) rest

/-- No visit before the member raises. -/
def Passes (visit : P → Option (Visit P E)) (before : List P) : Prop :=
  ∀ member ∈ before, visit member ≠ none

/-- The loop comes to the member. -/
def Comes (visit : P → Option (Visit P E)) (members : List P) (member : P) : Prop :=
  ∃ before after, members = before ++ member :: after ∧ Passes visit before

section Loop

variable {act : S → E → S} {visit : P → Option (Visit P E)}

variable {last loop : S × List P}

theorem walk_cons {member : P} {rest : List P}
    (h : walk act visit loop (member :: rest) = some last) :
    ∃ visited, visit member = some visited ∧
      walk act visit (take act loop visited) rest = some last := by
  unfold walk at h ⊢
  rw [List.foldlM_cons] at h
  obtain ⟨next, hnext, hrest⟩ := Option.bind_eq_some_iff.mp h
  obtain ⟨visited, hvisited, rfl⟩ := Option.map_eq_some_iff.mp hnext
  exact ⟨visited, hvisited, hrest⟩

variable {members : List P}

/-- A loop that comes to its end has done every departure, and keeps the others. -/
theorem walk_eq (h : walk act visit loop members = some last) :
    last.1 = (left visit members).foldl act loop.1 ∧
      last.2 = loop.2 ++ staying visit members := by
  induction members generalizing loop with
  | nil =>
    cases Option.some.inj h
    exact ⟨rfl, (List.append_nil _).symm⟩
  | cons member rest ih =>
    obtain ⟨visited, hvisit, hrest⟩ := walk_cons h
    obtain ⟨hstate, hkept⟩ := ih hrest
    cases visited with
    | leaves departure =>
      refine ⟨by rw [hstate, left, hvisit]; rfl, ?_⟩
      rw [hkept, staying, staying, List.filterMap_cons, hvisit]
      rfl
    | stays changed =>
      refine ⟨by rw [hstate, left, hvisit]; rfl, ?_⟩
      rw [hkept, staying, staying, List.filterMap_cons, hvisit]
      exact List.append_assoc loop.2 [changed] _

theorem mem_staying {changed : P} : changed ∈ staying visit members ↔
      ∃ member ∈ members, visit member = some (.stays changed) := by
  unfold staying
  rw [List.mem_filterMap]
  constructor
  · rintro ⟨member, hmember, hstays⟩
    refine ⟨member, hmember, ?_⟩
    split at hstays
    · rename_i other hvisit
      cases Option.some.inj hstays
      exact hvisit
    · cases hstays
  · rintro ⟨member, hmember, hvisit⟩
    exact ⟨member, hmember, by rw [hvisit]⟩

theorem passes_cons {first : P} {before : List P} :
    Passes visit (first :: before) ↔ visit first ≠ none ∧ Passes visit before := by
  unfold Passes
  exact List.forall_mem_cons

/-- The loop comes to the first member, or past it to a later one. -/
theorem comes_cons {first member : P} {rest : List P} :
    Comes visit (first :: rest) member ↔
      member = first ∨ (visit first ≠ none ∧ Comes visit rest member) := by
  constructor
  · rintro ⟨before, after, hsplit, hpasses⟩
    cases before with
    | nil =>
      rw [List.nil_append, List.cons.injEq] at hsplit
      exact Or.inl hsplit.1.symm
    | cons head before =>
      rw [List.cons_append, List.cons.injEq] at hsplit
      obtain ⟨rfl, hrest⟩ := hsplit
      obtain ⟨hfirst, hlater⟩ := passes_cons.mp hpasses
      exact Or.inr ⟨hfirst, before, after, hrest, hlater⟩
  · rintro (rfl | ⟨hfirst, before, after, rfl, hpasses⟩)
    · refine ⟨[], rest, rfl, ?_⟩
      intro other hother
      cases hother
    · exact ⟨first :: before, after, rfl, passes_cons.mpr ⟨hfirst, hpasses⟩⟩

theorem mem_left {departure : E} : departure ∈ left visit members ↔
      ∃ member, Comes visit members member ∧ visit member = some (.leaves departure) := by
  induction members with
  | nil =>
    rw [left]
    refine iff_of_false List.not_mem_nil ?_
    rintro ⟨member, ⟨before, after, hsplit, -⟩, -⟩
    simp at hsplit
  | cons first rest ih =>
    simp only [comes_cons, or_and_right, exists_or, exists_eq_left]
    rw [left]
    cases hvisit : visit first with
    | none => simp
    | some visited =>
      cases visited with
      | leaves other =>
        simp only [List.mem_cons, ih, Option.some.injEq, Visit.leaves.injEq, ne_eq,
          reduceCtorEq, not_false_eq_true, true_and]
        rw [eq_comm]
      | stays changed =>
        simp [ih]

/-- Every departure meets a condition on those still there exactly when the condition is
met wherever the loop comes to a member that leaves. -/
theorem forall_departures_iff (act : S → E → S) (visit : P → Option (Visit P E))
    (still : List P → Prop) (s : S) (kept members : List P) :
    (∀ d ∈ departures act visit s kept members, still d.2) ↔
      ∀ before member after, members = before ++ member :: after → Passes visit before →
        (∃ departure, visit member = some (.leaves departure)) →
        still (kept ++ staying visit before ++ after) := by
  induction members generalizing s kept with
  | nil => simp [departures]
  | cons first rest ih =>
    have hhere : (Passes visit [] → (∃ departure, visit first = some (.leaves departure)) →
        still (kept ++ staying visit [] ++ rest)) ↔
        ((∃ departure, visit first = some (.leaves departure)) → still (kept ++ rest)) := by
      simp [Passes, staying]
    have hlater : (∀ before member after, rest = before ++ member :: after →
        Passes visit (first :: before) → (∃ departure, visit member = some (.leaves departure)) →
        still (kept ++ staying visit (first :: before) ++ after)) ↔
        (visit first ≠ none → ∀ before member after, rest = before ++ member :: after →
          Passes visit before → (∃ departure, visit member = some (.leaves departure)) →
          still (kept ++ staying visit (first :: before) ++ after)) := by
      simp only [passes_cons]
      constructor
      · intro h hfirst before member after hsplit hpasses
        exact h before member after hsplit ⟨hfirst, hpasses⟩
      · intro h before member after hsplit hpasses
        exact h hpasses.1 before member after hsplit hpasses.2
    rw [Prefixes.forall_splits_cons, hhere, hlater, departures]
    cases hvisit : visit first with
    | none => simp
    | some visited =>
      cases visited with
      | leaves departure =>
        have hstaying : ∀ before : List P,
            staying visit (first :: before) = staying visit before := by
          intro before
          rw [staying, List.filterMap_cons, hvisit]
          rfl
        simp only [List.forall_mem_cons, ih, hstaying]
        simp
      | stays changed =>
        have hstaying : ∀ before : List P,
            staying visit (first :: before) = changed :: staying visit before := by
          intro before
          rw [staying, List.filterMap_cons, hvisit]
          rfl
        simp only [ih, hstaying]
        simp

theorem exists_of_mem_departures {s : S} {kept members : List P} {d : S × List P}
    (h : d ∈ departures act visit s kept members) : ∃ before departure, d.1 = act before departure := by
  induction members generalizing s kept with
  | nil => cases h
  | cons first rest ih =>
    rw [departures] at h
    split at h
    · cases h
    · rename_i departure _
      rcases List.mem_cons.mp h with rfl | hlater
      · exact ⟨s, departure, rfl⟩
      · exact ih hlater
    · exact ih h

/-- A log to which every departure adds one entry grows by the last entries after each. -/
theorem log_walk {T : Type*} {log : S → List T}
    (hact : ∀ s departure, ∃ entry, log (act s departure) = log s ++ [entry])
    (h : walk act visit loop members = some last) : log last.1 = log loop.1 ++
      (departures act visit loop.1 loop.2 members).filterMap fun d => (log d.1).getLast? := by
  induction members generalizing loop with
  | nil =>
    cases Option.some.inj h
    exact (List.append_nil _).symm
  | cons first rest ih =>
    obtain ⟨visited, hvisit, hrest⟩ := walk_cons h
    rw [ih hrest, departures, hvisit]
    cases visited with
    | leaves departure =>
      obtain ⟨entry, hentry⟩ := hact loop.1 departure
      simp [take, hentry]
    | stays changed => rfl

end Loop

end MT5Services.Departures
