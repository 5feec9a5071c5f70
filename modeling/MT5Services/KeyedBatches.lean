import Mathlib.Data.List.Nodup

/-!
Batches of items with keys. An insert that skips known keys takes the first item of
every new key, a table filled in order keeps the last item of every key. The two agree
exactly when no new key occurs twice in the batch.
-/
namespace MT5Services.KeyedBatches

variable {I K : Type*} [DecidableEq K]

/-- The items that an insert takes when it skips the keys it knows. -/
def taken (key : I → K) : (K → Bool) → List I → List I
  | _, [] => []
  | known, item :: rest =>
    if known (key item) then taken key known rest
    else item :: taken key (fun k => decide (k = key item) || known k) rest

/-- The item that a table filled in order keeps for a key. -/
def kept (key : I → K) (items : List I) (k : K) : Option I :=
  items.reverse.find? fun item => key item = k

variable {key : I → K} {items : List I} {item : I} {known : K → Bool}

theorem mem_of_mem_taken (h : item ∈ taken key known items) : item ∈ items := by
  induction items generalizing known with
  | nil => cases h
  | cons first rest ih =>
    unfold taken at h
    split at h
    · exact List.mem_cons_of_mem _ (ih h)
    · rcases List.mem_cons.mp h with rfl | hrest
      · exact List.mem_cons_self
      · exact List.mem_cons_of_mem _ (ih hrest)

/-- Taken are the first items of the new keys. -/
theorem mem_taken : item ∈ taken key known items ↔ known (key item) = false ∧
      items.find? (fun other => key other = key item) = some item := by
  induction items generalizing known with
  | nil => simp [taken]
  | cons first rest ih =>
    unfold taken
    by_cases hsame : key first = key item
    · rw [List.find?_cons_of_pos (by simpa using hsame)]
      split
      · rename_i hknown
        rw [ih]
        refine iff_of_false ?_ ?_
        · rintro ⟨hnew, _⟩
          rw [← hsame, hknown] at hnew
          cases hnew
        · rintro ⟨hnew, _⟩
          rw [← hsame, hknown] at hnew
          cases hnew
      · rename_i hknown
        rw [List.mem_cons, ih]
        constructor
        · rintro (rfl | ⟨hnew, _⟩)
          · exact ⟨Bool.eq_false_iff.mpr hknown, rfl⟩
          · simp [hsame] at hnew
        · rintro ⟨_, hfirst⟩
          exact Or.inl (Option.some.inj hfirst).symm
    · rw [List.find?_cons_of_neg (by simpa using hsame)]
      split
      · exact ih
      · have hne : item ≠ first := fun heq => hsame (by rw [heq])
        have hother : ¬ key item = key first := fun heq => hsame heq.symm
        rw [List.mem_cons, ih]
        simp [hne, hother]

theorem taken_keys_nodup (key : I → K) (known : K → Bool) (items : List I) :
    ((taken key known items).map key).Nodup := by
  induction items generalizing known with
  | nil => exact List.nodup_nil
  | cons first rest ih =>
    unfold taken
    split
    · exact ih known
    · rw [List.map_cons, List.nodup_cons]
      refine ⟨?_, ih _⟩
      intro hmem
      obtain ⟨item, hitem, hkey⟩ := List.mem_map.mp hmem
      have hnew := (mem_taken.mp hitem).1
      simp [hkey] at hnew

theorem exists_taken (hitem : item ∈ items) (hnew : known (key item) = false) :
    ∃ first ∈ taken key known items, key first = key item := by
  have hsome : (items.find? fun other => key other = key item).isSome = true :=
    List.find?_isSome.mpr ⟨item, hitem, decide_eq_true rfl⟩
  obtain ⟨first, hfirst⟩ := Option.isSome_iff_exists.mp hsome
  have hkey : key first = key item := by simpa using List.find?_some hfirst
  refine ⟨first, mem_taken.mpr ⟨by rw [hkey]; exact hnew, ?_⟩, hkey⟩
  rw [hkey]
  exact hfirst

theorem kept_some {k : K} (h : kept key items k = some item) : item ∈ items ∧ key item = k := by
  have hmem := List.mem_of_find?_eq_some h
  have hkey := List.find?_some h
  exact ⟨List.mem_reverse.mp hmem, of_decide_eq_true hkey⟩

theorem exists_kept (hitem : item ∈ items) : ∃ last, kept key items (key item) = some last := by
  have hsome : (items.reverse.find? fun other => key other = key item).isSome = true :=
    List.find?_isSome.mpr ⟨item, List.mem_reverse.mpr hitem, decide_eq_true rfl⟩
  exact Option.isSome_iff_exists.mp hsome

/-- Where the first and the last item of a key are one, it has no other item. -/
theorem eq_of_find?_of_kept (hnodup : items.Nodup) {item other : I}
    (hfirst : items.find? (fun candidate => key candidate = key item) = some item)
    (hlast : kept key items (key item) = some item) (hother : other ∈ items)
    (hkey : key other = key item) : other = item := by
  obtain ⟨_, front, back, hitems, hfront⟩ := List.find?_eq_some_iff_append.mp hfirst
  rw [hitems, List.nodup_append, List.nodup_cons] at hnodup
  rw [hitems, List.mem_append, List.mem_cons] at hother
  rcases hother with hbefore | hsame | hafter
  · have hnot := hfront other hbefore
    simp [hkey] at hnot
  · exact hsame
  · have hsome : (back.reverse.find? fun candidate => key candidate = key item).isSome = true :=
      List.find?_isSome.mpr ⟨other, List.mem_reverse.mpr hafter, decide_eq_true hkey⟩
    obtain ⟨last, hfound⟩ := Option.isSome_iff_exists.mp hsome
    have hmem : last ∈ back := List.mem_reverse.mp (List.mem_of_find?_eq_some hfound)
    rw [kept, hitems, List.reverse_append, List.reverse_cons, List.append_assoc,
      List.find?_append, hfound, Option.some_or] at hlast
    cases hlast
    exact absurd hmem hnodup.2.1.1

/-- The last items of the taken keys are the taken items exactly when the new keys of the
batch are distinct. -/
theorem kept_iff_taken (hnodup : items.Nodup) : (∀ item, item ∈ taken key known items ↔
        ∃ first ∈ taken key known items, kept key items (key first) = some item) ↔
      ((items.map key).filter fun k => !known k).Nodup := by
  rw [List.filter_map]
  constructor
  · intro hsame
    refine List.Nodup.map_on ?_ (hnodup.filter _)
    have hfirst : ∀ item ∈ items.filter ((fun k => !known k) ∘ key),
        ∃ first ∈ taken key known items, key first = key item ∧
          ∀ other ∈ items, key other = key item → other = first := by
      intro item hitem
      obtain ⟨hmem, hnew⟩ := List.mem_filter.mp hitem
      have hunknown : known (key item) = false := by simpa using hnew
      obtain ⟨first, htaken, hkey⟩ := exists_taken hmem hunknown
      refine ⟨first, htaken, hkey, ?_⟩
      obtain ⟨last, hlast⟩ := @exists_kept _ _ _ key _ _ (mem_of_mem_taken htaken)
      have hlasttaken : last ∈ taken key known items := (hsame last).mpr ⟨first, htaken, hlast⟩
      have heq : last = first :=
        List.inj_on_of_nodup_map (taken_keys_nodup key known items) hlasttaken htaken
          (kept_some hlast).2
      rw [heq] at hlast
      intro other hother hotherkey
      exact eq_of_find?_of_kept hnodup (mem_taken.mp htaken).2 hlast hother
        (hotherkey.trans hkey.symm)
    intro item hitem other hother hkeys
    obtain ⟨first, _, _, hunique⟩ := hfirst item hitem
    have hleft := hunique item (List.mem_filter.mp hitem).1 rfl
    have hright := hunique other (List.mem_filter.mp hother).1 hkeys.symm
    exact hleft.trans hright.symm
  · intro hdistinct item
    have hlast : ∀ first ∈ taken key known items, kept key items (key first) = some first := by
      intro first htaken
      have hmem := mem_of_mem_taken htaken
      have hnew : ∀ other, other ∈ items → key other = key first →
          other ∈ items.filter ((fun k => !known k) ∘ key) := by
        intro other hother hkey
        refine List.mem_filter.mpr ⟨hother, ?_⟩
        simp [hkey, (mem_taken.mp htaken).1]
      obtain ⟨last, hfound⟩ := @exists_kept _ _ _ key _ _ hmem
      obtain ⟨hlastmem, hlastkey⟩ := kept_some hfound
      rw [hfound, List.inj_on_of_nodup_map hdistinct (hnew last hlastmem hlastkey)
        (hnew first hmem rfl) hlastkey]
    constructor
    · exact fun htaken => ⟨item, htaken, hlast item htaken⟩
    · rintro ⟨first, htaken, hfound⟩
      rw [hlast first htaken] at hfound
      cases hfound
      exact htaken

end MT5Services.KeyedBatches
