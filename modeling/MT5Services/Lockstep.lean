import MT5Services.Runs
import Mathlib.Data.List.Forall2

/-!
Two computations in lockstep. Both may fail, and they do so together: `Option.Rel` lifts a
relation between the two states to their results. A relation that every pair of
corresponding steps keeps is kept by loops over corresponding lists, by runs over them,
and by what a run has reached when it stops.
-/
namespace MT5Services.Lockstep

open Runs

variable {S T U W A B : Type*} {R : S → T → Prop} {Q : U → W → Prop} {P : A → B → Prop}

theorem rel_bind {x : Option S} {y : Option T} {f : S → Option U} {g : T → Option W}
    (h : Option.Rel R x y) (hnext : ∀ s t, R s t → Option.Rel Q (f s) (g t)) :
    Option.Rel Q (x.bind f) (y.bind g) := by
  cases h with
  | none => exact Option.Rel.none
  | some hst => exact hnext _ _ hst

theorem rel_map {x : Option S} {y : Option T} {f : S → U} {g : T → W} (h : Option.Rel R x y)
    (hnext : ∀ s t, R s t → Q (f s) (g t)) : Option.Rel Q (x.map f) (y.map g) := by
  cases h with
  | none => exact Option.Rel.none
  | some hst => exact Option.Rel.some (hnext _ _ hst)

/-- The two go on from one common result. -/
theorem rel_bind_same {C : Type*} (x : Option C) {f : C → Option U} {g : C → Option W}
    (hnext : ∀ a, Option.Rel Q (f a) (g a)) : Option.Rel Q (x.bind f) (x.bind g) := by
  cases x with
  | none => exact Option.Rel.none
  | some a => exact hnext a

theorem rel_of_eq_none {x : Option S} {y : Option T} (h : Option.Rel R x y) (hx : x = none) :
    y = none := by
  cases h with
  | none => rfl
  | some _ => cases hx

theorem exists_rel_of_eq_some {x : Option S} {y : Option T} {s : S} (h : Option.Rel R x y)
    (hx : x = some s) : ∃ t, y = some t ∧ R s t := by
  cases h with
  | none => cases hx
  | some hst =>
    cases Option.some.inj hx
    exact ⟨_, rfl, hst⟩

/-- Loops over corresponding lists. -/
theorem rel_foldlM {f : S → A → Option S} {g : T → B → Option T}
    (hstep : ∀ s t a b, R s t → P a b → Option.Rel R (f s a) (g t b)) {as : List A} {bs : List B}
    (hlists : List.Forall₂ P as bs) {s : S} {t : T} (h : R s t) :
    Option.Rel R (as.foldlM f s) (bs.foldlM g t) := by
  induction hlists generalizing s t with
  | nil => exact Option.Rel.some h
  | cons hab _ ih =>
    rw [List.foldlM_cons, List.foldlM_cons]
    exact rel_bind (hstep s t _ _ h hab) fun _ _ hnext => ih hnext

/-- Loops over one list. -/
theorem rel_foldlM_same {f : S → A → Option S} {g : T → A → Option T}
    (hstep : ∀ s t a, R s t → Option.Rel R (f s a) (g t a)) (list : List A) {s : S} {t : T}
    (h : R s t) : Option.Rel R (list.foldlM f s) (list.foldlM g t) :=
  rel_foldlM (P := Eq) (fun s t a _ hst hab => hab ▸ hstep s t a hst) (List.forall₂_refl list) h

/-- Two readings of one list correspond where they do at every position. -/
theorem forall₂_mapIdx {C : Type*} {f : ℕ → C → A} {g : ℕ → C → B} {list : List C}
    (h : ∀ i (hi : i < list.length), P (f i list[i]) (g i list[i])) :
    List.Forall₂ P (list.mapIdx f) (list.mapIdx g) := by
  rw [List.forall₂_iff_get]
  refine ⟨by rw [List.length_mapIdx, List.length_mapIdx], fun i hi _ => ?_⟩
  rw [List.length_mapIdx] at hi
  rw [List.get_eq_getElem, List.get_eq_getElem, List.getElem_mapIdx, List.getElem_mapIdx]
  exact h i hi

theorem rel_find? {as : List A} {bs : List B} {p : A → Bool} {q : B → Bool}
    (hsame : ∀ a b, P a b → q b = p a) (h : List.Forall₂ P as bs) :
    Option.Rel P (as.find? p) (bs.find? q) := by
  induction h with
  | nil => exact Option.Rel.none
  | cons hab _ ih =>
    rw [List.find?_cons, List.find?_cons, hsame _ _ hab]
    split
    · exact Option.Rel.some hab
    · exact ih

theorem forall₂_takeWhile {as : List A} {bs : List B} {p : A → Bool} {q : B → Bool}
    (hsame : ∀ a b, P a b → q b = p a) (h : List.Forall₂ P as bs) :
    List.Forall₂ P (as.takeWhile p) (bs.takeWhile q) := by
  induction h with
  | nil => exact List.Forall₂.nil
  | cons hab _ ih =>
    rw [List.takeWhile_cons, List.takeWhile_cons, hsame _ _ hab]
    split
    · exact List.Forall₂.cons hab ih
    · exact List.Forall₂.nil

theorem run_eq_foldlM (step : S → A → Option S) (s : S) (labels : List A) :
    run step s labels = labels.foldlM step s := by
  induction labels generalizing s with
  | nil => rfl
  | cons a rest ih =>
    rw [List.foldlM_cons, run]
    exact Option.bind_congr fun t _ => ih t

theorem rel_run {f : S → A → Option S} {g : T → B → Option T}
    (hstep : ∀ s t a b, R s t → P a b → Option.Rel R (f s a) (g t b)) {as : List A} {bs : List B}
    (hlists : List.Forall₂ P as bs) {s : S} {t : T} (h : R s t) :
    Option.Rel R (run f s as) (run g t bs) := by
  rw [run_eq_foldlM, run_eq_foldlM]
  exact rel_foldlM hstep hlists h

theorem rel_reach {f : S → A → Option S} {g : T → B → Option T}
    (hstep : ∀ s t a b, R s t → P a b → Option.Rel R (f s a) (g t b)) {as : List A} {bs : List B}
    (hlists : List.Forall₂ P as bs) {s : S} {t : T} (h : R s t) :
    R (reach f s as) (reach g t bs) := by
  induction hlists generalizing s t with
  | nil => exact h
  | @cons a b as bs hab _ ih =>
    have hrel := hstep s t a b h hab
    rw [reach, reach]
    cases hs : f s a with
    | none =>
      rw [rel_of_eq_none hrel hs]
      exact h
    | some u =>
      obtain ⟨w, hw, huw⟩ := exists_rel_of_eq_some hrel hs
      rw [hw]
      exact ih huw

end MT5Services.Lockstep
