import Mathlib.Algebra.Order.Ring.Rat
import Mathlib.Data.List.Basic

/-!
`SmartCache`: a cache with a bound on its size and an age limit. The entries stand least
recently used first; a read moves its entry to the end or drops it when it is too old, and
a write into a full cache drops the first entry. Whatever the cache returns was written
under the key that is asked for.
-/
namespace MT5Services

structure CacheEntry (V : Type*) where
  key : String
  value : V
  timestamp : ℚ
  ttl : Option ℚ
  deriving DecidableEq

structure SmartCache (V : Type*) where
  entries : List (CacheEntry V) := []
  maxsize : ℕ := 1000
  ttl : ℚ := 300
  deriving DecidableEq

namespace SmartCache

variable {V : Type*}

/-- The age limit of the entry goes before that of the cache. -/
def expired (c : SmartCache V) (now : ℚ) (entry : CacheEntry V) : Bool :=
  decide (entry.ttl.getD c.ttl < now - entry.timestamp)

def get (c : SmartCache V) (now : ℚ) (key : String) : Option V × SmartCache V :=
  match c.entries.find? fun entry => entry.key = key with
  | none => (none, c)
  | some entry =>
    let others := c.entries.filter fun other => other.key ≠ key
    if c.expired now entry then (none, { c with entries := others })
    else (some entry.value, { c with entries := others ++ [entry] })

/-- A write; it raises when there is no entry to drop. -/
def set (c : SmartCache V) (now : ℚ) (key : String) (value : V) (ttl : Option ℚ) :
    Option (SmartCache V) :=
  let room := if c.maxsize ≤ c.entries.length then c.entries.tail? else some c.entries
  let entry : CacheEntry V := ⟨key, value, now, ttl⟩
  room.map fun entries =>
    { c with
      entries :=
        if entries.any fun other => other.key = key then
          entries.map fun other => if other.key = key then entry else other
        else entries ++ [entry] }

def delete (c : SmartCache V) (key : String) : Bool × SmartCache V :=
  if c.entries.any fun entry => entry.key = key then
    (true, { c with entries := c.entries.filter fun entry => entry.key ≠ key })
  else (false, c)

def clear (c : SmartCache V) : SmartCache V := { c with entries := [] }

/-- The number of entries dropped, and the cache without them. -/
def cleanupExpired (c : SmartCache V) (now : ℚ) : ℕ × SmartCache V :=
  (c.entries.countP (c.expired now),
    { c with entries := c.entries.filter fun entry => !c.expired now entry })

def resize (c : SmartCache V) (maxsize : ℕ) : SmartCache V :=
  { c with
    entries := if maxsize < c.maxsize then c.entries.drop (c.entries.length - maxsize)
      else c.entries
    maxsize := maxsize }

theorem expired_congr {c d : SmartCache V} (h : d.ttl = c.ttl) (now : ℚ)
    (entry : CacheEntry V) : d.expired now entry = c.expired now entry := by
  unfold expired
  rw [h]

variable {c rest : SmartCache V} {now : ℚ} {key : String} {value : V}

theorem get_mem (h : c.get now key = (some value, rest)) :
    ∃ entry ∈ c.entries, entry.key = key ∧ c.expired now entry = false ∧ entry.value = value := by
  unfold get at h
  split at h
  · cases h
  · next entry hfind =>
    have hkey : entry.key = key := by simpa using List.find?_some hfind
    dsimp only at h
    split_ifs at h with hexpired
    · cases h
    · cases h
      exact ⟨entry, List.mem_of_find?_eq_some hfind, hkey, Bool.eq_false_iff.mpr hexpired, rfl⟩

/-- A read adds nothing. -/
theorem get_subset {found : Option V} (h : c.get now key = (found, rest)) :
    rest.entries ⊆ c.entries ∧ rest.maxsize = c.maxsize ∧ rest.ttl = c.ttl := by
  unfold get at h
  split at h
  · cases h
    exact ⟨List.Subset.refl _, rfl, rfl⟩
  · next entry hfind =>
    have hothers : (c.entries.filter fun other => other.key ≠ key) ⊆ c.entries :=
      List.filter_subset_self _
    dsimp only at h
    split_ifs at h
    · cases h
      exact ⟨hothers, rfl, rfl⟩
    · cases h
      refine ⟨?_, rfl, rfl⟩
      apply List.append_subset.mpr
      exact ⟨hothers, List.cons_subset.mpr ⟨List.mem_of_find?_eq_some hfind, List.nil_subset _⟩⟩

theorem set_isSome (h : 0 < c.maxsize) (now : ℚ) (key : String) (value : V)
    (ttl : Option ℚ) : ∃ rest, c.set now key value ttl = some rest := by
  unfold set
  split_ifs with hfull
  · cases hentries : c.entries with
    | nil =>
      rw [hentries, List.length_nil] at hfull
      omega
    | cons first rest => exact ⟨_, rfl⟩
  · exact ⟨_, rfl⟩

/-- After a miss nothing is left under the key. -/
theorem get_miss (h : c.get now key = (none, rest)) : ∀ entry ∈ rest.entries, entry.key ≠ key := by
  unfold get at h
  split at h
  · next hfind =>
    cases h
    intro entry hentry
    simpa using List.find?_eq_none.mp hfind entry hentry
  · next found hfind =>
    dsimp only at h
    split_ifs at h
    · cases h
      intro entry hentry
      simpa using (List.mem_filter.mp hentry).2
    · cases h

theorem set_entry {ttl : Option ℚ}
    (h : c.set now key value ttl = some rest) {entry : CacheEntry V} (hentry : entry ∈ rest.entries) :
    entry ∈ c.entries ∨ entry = ⟨key, value, now, ttl⟩ := by
  unfold set at h
  obtain ⟨entries, hroom, rfl⟩ := Option.map_eq_some_iff.mp h
  have hkept : entries ⊆ c.entries := by
    split_ifs at hroom
    · cases hentries : c.entries with
      | nil =>
        rw [hentries] at hroom
        cases hroom
      | cons first others =>
        rw [hentries] at hroom
        cases Option.some.inj hroom
        exact List.subset_cons_self first entries
    · cases Option.some.inj hroom
      exact List.Subset.refl _
  dsimp only at hentry
  split_ifs at hentry
  · obtain ⟨other, hother, rfl⟩ := List.mem_map.mp hentry
    split_ifs
    · exact .inr rfl
    · exact .inl (hkept hother)
  · rcases List.mem_append.mp hentry with hold | hnew
    · exact .inl (hkept hold)
    · exact .inr (List.mem_singleton.mp hnew)

/-- A write adds its own entry only. -/
theorem set_mem {ttl : Option ℚ} (h : c.set now key value ttl = some rest) :
    rest.maxsize = c.maxsize ∧ rest.ttl = c.ttl ∧ ∀ entry ∈ rest.entries,
      entry ∈ c.entries ∨ (entry.key = key ∧ entry.value = value) := by
  have hsame : rest.maxsize = c.maxsize ∧ rest.ttl = c.ttl := by
    unfold set at h
    obtain ⟨entries, _, rfl⟩ := Option.map_eq_some_iff.mp h
    exact ⟨rfl, rfl⟩
  refine ⟨hsame.1, hsame.2, ?_⟩
  intro entry hentry
  rcases set_entry h hentry with hold | rfl
  · exact .inl hold
  · exact .inr ⟨rfl, rfl⟩

theorem resize_subset (c : SmartCache V) (maxsize : ℕ) :
    (c.resize maxsize).entries ⊆ c.entries := by
  unfold resize
  dsimp only
  split_ifs
  · exact List.drop_subset _ _
  · exact List.Subset.refl _

end SmartCache

end MT5Services
