import MT5Services.Runs
import MT5Services.SmartCache
import Mathlib.Data.List.Nodup
import Mathlib.Tactic.Linarith

/-!
The runs of a `SmartCache` beside the history of its entries: what was written, read and
deleted, and which entries that were not too old were lost. The cache is held against a
reference map with a bound, an age limit and the rule that the entry least recently read
or written makes room. The order of the entries is the order in which they were last read
or inserted: a write over an entry that is there leaves it in its place, and a full cache
drops an entry before it knows whether the key is new.
-/
namespace MT5Services.CacheHistory

open Runs SmartCache

variable {V : Type*}

inductive CacheOp (V : Type*)
  | get (key : String)
  | set (key : String) (value : V) (ttl : Option ℚ)
  | delete (key : String)
  | resize (maxsize : ℕ)
  | cleanupExpired

structure CacheCall (V : Type*) where
  now : ℚ
  op : CacheOp V

/-- The cache after a call; a write into a cache without any room raises and leaves it. -/
def after (c : SmartCache V) (call : CacheCall V) : SmartCache V :=
  match call.op with
  | .get key => (c.get call.now key).2
  | .set key value ttl => (c.set call.now key value ttl).getD c
  | .delete key => (c.delete key).2
  | .resize maxsize => c.resize maxsize
  | .cleanupExpired => (c.cleanupExpired call.now).2

/-- What happened to the entry of a key. A write either places its entry at the end or
writes over the one that is there. -/
inductive Note (V : Type*)
  | wrote (entry : CacheEntry V) (placed : Bool)
  | read (key : String)
  | deleted (key : String)
  | evicted (key : String)
  deriving DecidableEq

def Note.uses (key : String) : Note V → Bool
  | .wrote entry _ => entry.key = key
  | .read other => other = key
  | .deleted _ | .evicted _ => false

def Note.places (key : String) : Note V → Bool
  | .wrote entry placed => placed && entry.key = key
  | .read other => other = key
  | .deleted _ | .evicted _ => false

/-- The place of the latest note of a kind in a log that stands newest first, from one on;
zero when there is none. -/
def latest (kind : Note V → Bool) : List (Note V) → ℕ
  | [] => 0
  | note :: older => if kind note then older.length + 1 else latest kind older

/-- When the key was last read or written. -/
def lastUse (log : List (Note V)) (key : String) : ℕ := latest (Note.uses key) log

/-- When the key was last read or inserted. -/
def lastPlaced (log : List (Note V)) (key : String) : ℕ := latest (Note.places key) log

/-- The key was written over since it was last read or inserted. -/
def WrittenOver (log : List (Note V)) (key : String) : Prop :=
  lastPlaced log key < lastUse log key

/-- The entry last written under the key, unless it was deleted or evicted. -/
def remembered (key : String) : List (Note V) → Option (CacheEntry V)
  | [] => none
  | .wrote entry _ :: older => if entry.key = key then some entry else remembered key older
  | .read _ :: older => remembered key older
  | .deleted other :: older => if other = key then none else remembered key older
  | .evicted other :: older => if other = key then none else remembered key older

/-- What the key still holds: the entry last written, unless it is too old. -/
def recalled (c : SmartCache V) (log : List (Note V)) (now : ℚ) (key : String) : Option V :=
  ((remembered key log).filter fun entry => !c.expired now entry).map CacheEntry.value

def Holds (c : SmartCache V) (key : String) : Prop := ∃ entry ∈ c.entries, entry.key = key

instance (c : SmartCache V) (key : String) : Decidable (Holds c key) :=
  inferInstanceAs (Decidable (∃ entry ∈ c.entries, entry.key = key))

/-- The entries that a call loses though they are not too old and it does not delete them. -/
def evicted (c : SmartCache V) (call : CacheCall V) : List (CacheEntry V) :=
  match call.op with
  | .delete _ => []
  | _ => c.entries.filter fun entry =>
      !c.expired call.now entry && !decide (Holds (after c call) entry.key)

/-- How many entries the front of a cache loses to a write. -/
def surplus (c : SmartCache V) : ℕ := if c.maxsize ≤ c.entries.length then 1 else 0

/-- What a call does to its own key. -/
def ownNotes (c : SmartCache V) (call : CacheCall V) : List (Note V) :=
  match call.op with
  | .get key => if (c.get call.now key).1.isSome then [.read key] else []
  | .set key value ttl =>
    if (c.set call.now key value ttl).isSome then
      [.wrote ⟨key, value, call.now, ttl⟩
        !((c.entries.drop (surplus c)).any fun entry => entry.key = key)]
    else []
  | .delete key => [.deleted key]
  | .resize _ | .cleanupExpired => []

structure Cached (V : Type*) where
  cache : SmartCache V
  log : List (Note V) := []
  clock : ℚ
  deriving DecidableEq

def start (maxsize : ℕ) (ttl opened : ℚ) : Cached V where
  cache := { maxsize := maxsize, ttl := ttl }
  clock := opened

/-- A call at a time that is not before the last one. -/
def step (s : Cached V) (call : CacheCall V) : Option (Cached V) :=
  if s.clock ≤ call.now then
    some
      { cache := after s.cache call
        log := ownNotes s.cache call ++ (evicted s.cache call).map (fun entry => .evicted entry.key)
          ++ s.log
        clock := call.now }
  else none

/-- An entry may have to go: a new key comes into a full cache, or the cache shrinks. -/
def NeedsRoom (c : SmartCache V) : CacheOp V → Prop
  | .set key _ _ => c.maxsize ≤ c.entries.length ∧ ¬ Holds c key
  | .resize maxsize => maxsize < c.maxsize
  | _ => False

/-- The call does what the reference map does. -/
structure AsReference (s : Cached V) (call : CacheCall V) : Prop where
  size : (after s.cache call).entries.length ≤ (after s.cache call).maxsize
  recalls : ∀ key, call.op = .get key →
    (s.cache.get call.now key).1 = recalled s.cache s.log call.now key
  room : evicted s.cache call ≠ [] → NeedsRoom s.cache call.op
  oldest : ∀ entry ∈ evicted s.cache call, ∀ other ∈ s.cache.entries,
    Holds (after s.cache call) other.key → lastUse s.log entry.key < lastUse s.log other.key

/-- The entry may be dropped before the others: where it was written over in its place, all
of them have been read or written since. -/
def InTurn (log : List (Note V)) (entry : CacheEntry V) (others : List (CacheEntry V)) : Prop :=
  WrittenOver log entry.key → ∀ other ∈ others, lastUse log entry.key < lastUse log other.key

/-- The entries at the front of the cache that a call drops are too old or in turn, and a
write into a full cache finds its own key there or none in the rest. -/
def Undisturbed (s : Cached V) (call : CacheCall V) : Prop :=
  match call.op with
  | .set key _ _ =>
    ∀ first ∈ s.cache.entries.take (surplus s.cache), s.cache.expired call.now first = false →
      first.key ≠ key → ¬ Holds s.cache key ∧
        InTurn s.log first (s.cache.entries.drop (surplus s.cache))
  | .resize maxsize =>
    maxsize < s.cache.maxsize →
      ∀ first ∈ s.cache.entries.take (s.cache.entries.length - maxsize),
        s.cache.expired call.now first = false →
          InTurn s.log first (s.cache.entries.drop (s.cache.entries.length - maxsize))
  | _ => True

theorem latest_le_length (kind : Note V → Bool) (log : List (Note V)) :
    latest kind log ≤ log.length := by
  induction log with
  | nil => exact le_refl 0
  | cons note older ih =>
    simp only [latest, List.length_cons]
    split_ifs <;> omega

variable {front : List (Note V)}

theorem latest_append_of_none {kind : Note V → Bool}
    (h : ∀ note ∈ front, kind note = false) (log : List (Note V)) :
    latest kind (front ++ log) = latest kind log := by
  induction front with
  | nil => rfl
  | cons note rest ih =>
    rw [List.cons_append, latest, h note List.mem_cons_self, if_neg Bool.false_ne_true]
    exact ih fun other hother => h other (List.mem_cons_of_mem note hother)

theorem latest_mono {kind wider : Note V → Bool} (h : ∀ note, kind note = true → wider note = true)
    (log : List (Note V)) : latest kind log ≤ latest wider log := by
  induction log with
  | nil => exact le_refl 0
  | cons note older ih =>
    rw [latest, latest]
    by_cases hkind : kind note = true
    · rw [if_pos hkind, if_pos (h note hkind)]
    · rw [if_neg hkind]
      have hbound := latest_le_length kind older
      split_ifs
      · omega
      · exact ih

theorem lastPlaced_le_lastUse (log : List (Note V)) (key : String) :
    lastPlaced log key ≤ lastUse log key := by
  apply latest_mono
  intro note hplaces
  cases note with
  | wrote entry placed => exact (Bool.and_eq_true_iff.mp hplaces).2
  | read other => exact hplaces
  | deleted other => cases hplaces
  | evicted other => cases hplaces

/-- Lost entries are no insertions. -/
theorem lastPlaced_lost (lost : List (CacheEntry V)) (log : List (Note V)) (key : String) :
    lastPlaced (lost.map (fun entry => .evicted entry.key) ++ log) key = lastPlaced log key := by
  apply latest_append_of_none
  intro note hnote
  obtain ⟨entry, -, rfl⟩ := List.mem_map.mp hnote
  rfl

theorem remembered_lost (lost : List (CacheEntry V)) (log : List (Note V)) (key : String) :
    remembered key (lost.map (fun entry => .evicted entry.key) ++ log) =
      if ∃ entry ∈ lost, entry.key = key then none else remembered key log := by
  induction lost with
  | nil => simp only [List.map_nil, List.nil_append, List.not_mem_nil, false_and, exists_false,
      if_false]
  | cons entry rest ih =>
    rw [List.map_cons, List.cons_append, remembered, ih]
    by_cases hkey : entry.key = key
    · rw [if_pos hkey, if_pos ⟨entry, List.mem_cons_self, hkey⟩]
    · simp only [List.mem_cons, exists_eq_or_imp, hkey, false_or, if_false]

variable {entry : CacheEntry V} {key : String} {log : List (Note V)}

theorem remembered_key (h : remembered key log = some entry) : entry.key = key := by
  induction log with
  | nil => cases h
  | cons note older ih =>
    cases note with
    | wrote other placed =>
      rw [remembered] at h
      split_ifs at h with hkey
      · cases h
        exact hkey
      · exact ih h
    | read other => exact ih h
    | deleted other =>
      rw [remembered] at h
      split_ifs at h
      exact ih h
    | evicted other =>
      rw [remembered] at h
      split_ifs at h
      exact ih h

/-- The entry of a write on the entries that stay: over the one of its key, or at the end. -/
def put (kept : List (CacheEntry V)) (entry : CacheEntry V) : List (CacheEntry V) :=
  if kept.any fun other => other.key = entry.key then
    kept.map fun other => if other.key = entry.key then entry else other
  else kept ++ [entry]

variable {now : ℚ} {value : V} {ttl : Option ℚ}

theorem set_eq_some {c rest : SmartCache V} (h : c.set now key value ttl = some rest) :
    rest = { c with entries := put (c.entries.drop (surplus c)) ⟨key, value, now, ttl⟩ } := by
  unfold SmartCache.set at h
  obtain ⟨entries, hroom, rfl⟩ := Option.map_eq_some_iff.mp h
  have hdrop : entries = c.entries.drop (surplus c) := by
    unfold surplus
    split_ifs at hroom ⊢
    · cases hentries : c.entries with
      | nil =>
        rw [hentries] at hroom
        cases hroom
      | cons first others =>
        rw [hentries] at hroom
        exact (Option.some.inj hroom).symm
    · exact (Option.some.inj hroom).symm
  rw [hdrop]
  rfl

variable {c : SmartCache V}

/-- A write that raises found no entry to drop. -/
theorem entries_of_set_eq_none (h : c.set now key value ttl = none) : c.entries = [] := by
  unfold SmartCache.set at h
  rw [Option.map_eq_none_iff] at h
  split_ifs at h
  cases hentries : c.entries with
  | nil => rfl
  | cons first others =>
    rw [hentries] at h
    cases h

variable {other : CacheEntry V} {kept : List (CacheEntry V)}

theorem mem_put :
    other ∈ put kept entry ↔ other = entry ∨ other ∈ kept ∧ other.key ≠ entry.key := by
  unfold put
  split_ifs with hany
  · obtain ⟨found, hfound, hkey⟩ := List.any_eq_true.mp hany
    rw [List.mem_map]
    constructor
    · rintro ⟨old, hold, rfl⟩
      split_ifs with hsame
      · exact .inl rfl
      · exact .inr ⟨hold, hsame⟩
    · rintro (rfl | ⟨hold, hother⟩)
      · exact ⟨found, hfound, if_pos (of_decide_eq_true hkey)⟩
      · exact ⟨other, hold, if_neg hother⟩
  · have hnone : ∀ old ∈ kept, old.key ≠ entry.key := by
      intro old hold hkey
      exact hany (List.any_eq_true.mpr ⟨old, hold, decide_eq_true hkey⟩)
    rw [List.mem_append, List.mem_singleton]
    constructor
    · rintro (hold | rfl)
      · exact .inr ⟨hold, hnone other hold⟩
      · exact .inl rfl
    · rintro (rfl | ⟨hold, -⟩)
      · exact .inr rfl
      · exact .inl hold

/-- The cache and its history agree: the entries stand in the order in which their keys were
placed, each is the one last written, and what is remembered without being there is too
old. -/
structure Kept (s : Cached V) : Prop where
  size : s.cache.entries.length ≤ s.cache.maxsize
  ordered : (s.cache.entries.map CacheEntry.key).Pairwise fun a b =>
    lastPlaced s.log a < lastPlaced s.log b
  known : ∀ entry ∈ s.cache.entries, remembered entry.key s.log = some entry
  lost : ∀ key entry, remembered key s.log = some entry →
    entry ∈ s.cache.entries ∨ s.cache.expired s.clock entry = true

variable {s : Cached V}

theorem Kept.nodup (h : Kept s) : (s.cache.entries.map CacheEntry.key).Nodup := by
  apply h.ordered.imp
  intro a b hless heq
  rw [heq] at hless
  exact lt_irrefl _ hless

theorem Kept.eq_of_key (h : Kept s)
    (hentry : entry ∈ s.cache.entries) (hother : other ∈ s.cache.entries)
    (hkey : entry.key = other.key) : entry = other :=
  List.inj_on_of_nodup_map h.nodup hentry hother hkey

theorem expired_mono {earlier now : ℚ} (hle : earlier ≤ now)
    (h : c.expired earlier entry = true) : c.expired now entry = true := by
  have hlimit := of_decide_eq_true h
  apply decide_eq_true
  linarith

variable {call : CacheCall V}

theorem mem_evicted (hdelete : ∀ key, call.op ≠ .delete key) :
    entry ∈ evicted c call ↔ entry ∈ c.entries ∧ c.expired call.now entry = false ∧
      ¬ Holds (after c call) entry.key := by
  have hfilter : evicted c call = c.entries.filter fun entry =>
      !c.expired call.now entry && !decide (Holds (after c call) entry.key) := by
    unfold evicted
    split
    · next key hop => exact absurd hop (hdelete key)
    · rfl
  rw [hfilter, List.mem_filter, Bool.and_eq_true, Bool.not_eq_true', Bool.not_eq_true',
    decide_eq_false_iff_not]

/-- The log beneath the notes on the call's own key. -/
def lostLog (s : Cached V) (call : CacheCall V) : List (Note V) :=
  (evicted s.cache call).map (fun entry => .evicted entry.key) ++ s.log

/-- An entry whose key the cache still holds is still remembered. -/
theorem Kept.remembered_of_holds (h : Kept s) (hdelete : ∀ key, call.op ≠ .delete key)
    (hentry : entry ∈ s.cache.entries) (hholds : Holds (after s.cache call) entry.key) :
    remembered entry.key (lostLog s call) = some entry := by
  rw [lostLog, remembered_lost, if_neg]
  · exact h.known entry hentry
  · rintro ⟨gone, hgone, hkey⟩
    have hnot := ((mem_evicted hdelete).mp hgone).2.2
    rw [hkey] at hnot
    exact hnot hholds

/-- What is remembered beneath the own notes was there and its key is held, or is too old. -/
theorem Kept.held_of_remembered (h : Kept s)
    (hdelete : ∀ key, call.op ≠ .delete key) (hnow : s.clock ≤ call.now)
    (hremembered : remembered key (lostLog s call) = some entry) :
    (entry ∈ s.cache.entries ∧ Holds (after s.cache call) key) ∨
      s.cache.expired call.now entry = true := by
  rw [lostLog, remembered_lost] at hremembered
  split_ifs at hremembered with hgone
  rcases h.lost key entry hremembered with hentry | hexpired
  · cases hlive : s.cache.expired call.now entry with
    | true => exact .inr rfl
    | false =>
      refine .inl ⟨hentry, ?_⟩
      by_contra hnot
      have hkey := remembered_key hremembered
      rw [← hkey] at hnot
      exact hgone ⟨entry, (mem_evicted hdelete).mpr ⟨hentry, hlive, hnot⟩, hkey⟩
  · exact .inr (expired_mono hnow hexpired)

/-- What is still remembered of a key after the losses is the entry held under it. -/
theorem Kept.eq_of_lostLog (h : Kept s) (hremembered : remembered key (lostLog s call) = some entry)
    (hentry : entry ∈ s.cache.entries) (hother : other ∈ s.cache.entries)
    (hkey : other.key = key) : other = entry := by
  rw [lostLog, remembered_lost] at hremembered
  split_ifs at hremembered
  exact h.eq_of_key hother hentry (hkey.trans (remembered_key hremembered).symm)

/-- A call that only drops entries. -/
theorem Kept.sublist (h : Kept s)
    (hdelete : ∀ key, call.op ≠ .delete key) (hnow : s.clock ≤ call.now)
    (hsub : (after s.cache call).entries.Sublist s.cache.entries)
    (httl : (after s.cache call).ttl = s.cache.ttl)
    (hsize : (after s.cache call).entries.length ≤ (after s.cache call).maxsize) :
    Kept ⟨after s.cache call, lostLog s call, call.now⟩ where
  size := hsize
  ordered := by
    simp only [lostLog, lastPlaced_lost]
    exact h.ordered.sublist (hsub.map CacheEntry.key)
  known := by
    intro entry hentry
    exact h.remembered_of_holds hdelete (hsub.subset hentry) ⟨entry, hentry, rfl⟩
  lost := by
    intro key entry hremembered
    rcases h.held_of_remembered hdelete hnow hremembered with ⟨hentry, other, hother, hkey⟩ | hold
    · refine .inl ?_
      rw [← h.eq_of_lostLog hremembered hentry (hsub.subset hother) hkey]
      exact hother
    · refine .inr ?_
      rw [expired_congr httl]
      exact hold

/-- The order of the keys when one of them is placed at the end. -/
theorem ordered_concat {keys : List String}
    {note : Note V} (hordered : keys.Pairwise fun a b => lastPlaced log a < lastPlaced log b)
    (hkey : key ∉ keys) (hplaces : ∀ other, note.places other = decide (key = other))
    (hfront : ∀ other, lastPlaced (front ++ log) other = lastPlaced log other) :
    (keys ++ [key]).Pairwise fun a b =>
      lastPlaced (note :: (front ++ log)) a < lastPlaced (note :: (front ++ log)) b := by
  have hothers : ∀ other ∈ keys,
      lastPlaced (note :: (front ++ log)) other = lastPlaced log other := by
    intro other hother
    have hne : key ≠ other := by
      rintro rfl
      exact hkey hother
    rw [← hfront other, lastPlaced, latest, hplaces, decide_eq_false hne,
      if_neg Bool.false_ne_true, lastPlaced]
  have hnew : lastPlaced (note :: (front ++ log)) key = (front ++ log).length + 1 := by
    rw [lastPlaced, latest, hplaces, decide_eq_true rfl, if_pos rfl]
  rw [List.pairwise_append]
  refine ⟨?_, List.pairwise_singleton _ _, ?_⟩
  · apply hordered.imp_of_mem
    intro a b ha hb hless
    rw [hothers a ha, hothers b hb]
    exact hless
  · intro a ha b hb
    rw [List.mem_singleton.mp hb, hnew, hothers a ha, ← hfront a]
    exact Nat.lt_succ_of_le (latest_le_length _ _)

/-- The entry found by a read. -/
theorem get_cases (c : SmartCache V) (now : ℚ) (key : String) :
    (¬ Holds c key ∧ c.get now key = (none, c)) ∨
      ∃ entry ∈ c.entries, entry.key = key ∧
        c.get now key =
          if c.expired now entry then
            (none, { c with entries := c.entries.filter fun other => other.key ≠ key })
          else
            (some entry.value,
              { c with
                entries := (c.entries.filter fun other => other.key ≠ key) ++ [entry] }) := by
  unfold SmartCache.get
  cases hfind : c.entries.find? fun entry => entry.key = key with
  | none =>
    refine .inl ⟨?_, rfl⟩
    rintro ⟨entry, hentry, hkey⟩
    exact List.find?_eq_none.mp hfind entry hentry (decide_eq_true hkey)
  | some entry =>
    refine .inr ⟨entry, List.mem_of_find?_eq_some hfind, ?_, rfl⟩
    have hkey := List.find?_some hfind
    exact of_decide_eq_true hkey

theorem length_filter_lt {entries : List (CacheEntry V)} (hentry : entry ∈ entries) :
    (entries.filter fun other => other.key ≠ entry.key).length < entries.length := by
  rw [List.length_filter_lt_length_iff_exists]
  exact ⟨entry, hentry, by simp⟩

/-- The entry read stands last and no entry is gone. -/
theorem Kept.mem_toBack (h : Kept s) (hentry : entry ∈ s.cache.entries) (other : CacheEntry V) :
    other ∈ (s.cache.entries.filter fun other => other.key ≠ entry.key) ++ [entry] ↔
      other ∈ s.cache.entries := by
  simp only [List.mem_append, List.mem_filter, List.mem_singleton, decide_eq_true_eq]
  constructor
  · rintro (⟨hother, -⟩ | rfl)
    · exact hother
    · exact hentry
  · intro hother
    by_cases hkey : other.key = entry.key
    · exact .inr (h.eq_of_key hother hentry hkey)
    · exact .inl ⟨hother, hkey⟩

/-- A read that finds an entry alive. -/
theorem Kept.read (h : Kept s) (hnow : s.clock ≤ now) (hentry : entry ∈ s.cache.entries)
    (hget : s.cache.get now entry.key = (some entry.value,
      { s.cache with
        entries := (s.cache.entries.filter fun other => other.key ≠ entry.key) ++ [entry] })) :
    Kept ⟨after s.cache ⟨now, .get entry.key⟩,
      .read entry.key :: lostLog s ⟨now, .get entry.key⟩, now⟩ := by
  have hdelete : ∀ other, (⟨now, .get entry.key⟩ : CacheCall V).op ≠ .delete other := by
    intro other hop
    cases hop
  have hafter : after s.cache ⟨now, .get entry.key⟩ = _ := congrArg Prod.snd hget
  have hmem := h.mem_toBack hentry
  refine ⟨?_, ?_, ?_, ?_⟩
  · have hless := length_filter_lt hentry
    have hsize := h.size
    rw [hafter]
    simp only [List.length_append, List.length_singleton]
    omega
  · show ((after s.cache ⟨now, .get entry.key⟩).entries.map CacheEntry.key).Pairwise _
    rw [hafter]
    simp only [List.map_append, List.map_cons, List.map_nil, lostLog]
    apply ordered_concat
    · exact h.ordered.sublist (List.filter_sublist.map CacheEntry.key)
    · intro hkey
      obtain ⟨other, hother, hsame⟩ := List.mem_map.mp hkey
      exact of_decide_eq_true (List.mem_filter.mp hother).2 hsame
    · intro other
      rfl
    · intro other
      exact lastPlaced_lost _ _ _
  · intro other hother
    rw [hafter] at hother
    exact h.remembered_of_holds hdelete ((hmem other).mp hother) ⟨other, hafter ▸ hother, rfl⟩
  · intro key other hremembered
    rcases h.held_of_remembered hdelete hnow hremembered with ⟨hother, -⟩ | hold
    · refine .inl ?_
      rw [hafter]
      exact (hmem other).mpr hother
    · refine .inr ?_
      rw [hafter]
      exact hold

theorem Kept.get (h : Kept s) (hnow : s.clock ≤ now) (key : String) :
    Kept ⟨after s.cache ⟨now, .get key⟩,
      ownNotes s.cache ⟨now, .get key⟩ ++ lostLog s ⟨now, .get key⟩, now⟩ := by
  have hdelete : ∀ other, (⟨now, .get key⟩ : CacheCall V).op ≠ .delete other := by
    intro other hop
    cases hop
  rcases get_cases s.cache now key with ⟨-, hget⟩ | ⟨entry, hentry, rfl, hget⟩
  · have hafter : after s.cache ⟨now, .get key⟩ = s.cache := congrArg Prod.snd hget
    have hown : ownNotes s.cache ⟨now, .get key⟩ = [] := by
      simp only [ownNotes, hget, Option.isSome_none, Bool.false_eq_true, if_false]
    rw [hown, List.nil_append]
    apply h.sublist hdelete hnow
    · rw [hafter]
    · rw [hafter]
    · rw [hafter]
      exact h.size
  · cases hlive : s.cache.expired now entry with
    | true =>
      rw [hlive, if_pos rfl] at hget
      have hafter : after s.cache ⟨now, .get entry.key⟩ = _ := congrArg Prod.snd hget
      have hown : ownNotes s.cache ⟨now, .get entry.key⟩ = [] := by
        simp only [ownNotes, hget, Option.isSome_none, Bool.false_eq_true, if_false]
      rw [hown, List.nil_append]
      apply h.sublist hdelete hnow
      · rw [hafter]
        exact List.filter_sublist
      · rw [hafter]
      · rw [hafter]
        exact (List.length_filter_le _ _).trans h.size
    | false =>
      rw [hlive, if_neg Bool.false_ne_true] at hget
      have hown : ownNotes s.cache ⟨now, .get entry.key⟩ = [.read entry.key] := by
        simp only [ownNotes, hget, Option.isSome_some, if_true]
      rw [hown]
      exact h.read hnow hentry hget

theorem Kept.delete (h : Kept s) (hnow : s.clock ≤ now) (key : String) :
    Kept ⟨after s.cache ⟨now, .delete key⟩, .deleted key :: s.log, now⟩ := by
  have hentries : (after s.cache ⟨now, .delete key⟩).entries =
      s.cache.entries.filter fun entry => entry.key ≠ key := by
    simp only [after, SmartCache.delete]
    split_ifs with hany
    · rfl
    · symm
      apply List.filter_eq_self.mpr
      intro entry hentry
      apply decide_eq_true
      intro hkey
      exact hany (List.any_eq_true.mpr ⟨entry, hentry, decide_eq_true hkey⟩)
  have hsame : (after s.cache ⟨now, .delete key⟩).ttl = s.cache.ttl ∧
      (after s.cache ⟨now, .delete key⟩).maxsize = s.cache.maxsize := by
    simp only [after, SmartCache.delete]
    split_ifs
    · exact ⟨rfl, rfl⟩
    · exact ⟨rfl, rfl⟩
  refine ⟨?_, ?_, ?_, ?_⟩
  · rw [hentries, hsame.2]
    exact (List.length_filter_le _ _).trans h.size
  · rw [hentries]
    exact h.ordered.sublist (List.filter_sublist.map CacheEntry.key)
  · intro entry hentry
    rw [hentries, List.mem_filter] at hentry
    have hkey : key ≠ entry.key := Ne.symm (of_decide_eq_true hentry.2)
    rw [remembered, if_neg hkey]
    exact h.known entry hentry.1
  · intro other entry hremembered
    rw [remembered] at hremembered
    split_ifs at hremembered with hkey
    rcases h.lost other entry hremembered with hentry | hexpired
    · refine .inl ?_
      rw [hentries, List.mem_filter]
      refine ⟨hentry, decide_eq_true ?_⟩
      rw [remembered_key hremembered]
      exact Ne.symm hkey
    · refine .inr ?_
      rw [expired_congr hsame.1]
      exact expired_mono hnow hexpired

theorem Kept.cleanupExpired (h : Kept s) (hnow : s.clock ≤ now) :
    Kept ⟨after s.cache ⟨now, .cleanupExpired⟩, lostLog s ⟨now, .cleanupExpired⟩, now⟩ := by
  refine h.sublist ?_ hnow List.filter_sublist rfl ?_
  · intro key hop
    cases hop
  · exact (List.length_filter_le _ _).trans h.size

theorem Kept.resize (h : Kept s) (hnow : s.clock ≤ now) (maxsize : ℕ) :
    Kept ⟨after s.cache ⟨now, .resize maxsize⟩, lostLog s ⟨now, .resize maxsize⟩, now⟩ := by
  have hsize := h.size
  refine h.sublist ?_ hnow ?_ rfl ?_
  · intro key hop
    cases hop
  · show ((s.cache.resize maxsize).entries).Sublist _
    unfold SmartCache.resize
    dsimp only
    split_ifs
    · exact List.drop_sublist _ _
    · exact List.Sublist.refl _
  · show (s.cache.resize maxsize).entries.length ≤ maxsize
    unfold SmartCache.resize
    dsimp only
    split_ifs
    · rw [List.length_drop]
      omega
    · omega

/-- What a write into a cache with room leaves of the size. -/
theorem length_kept (hsize : c.entries.length ≤ c.maxsize)
    (hroom : c.entries ≠ [] ∨ c.maxsize ≠ 0) :
    (c.entries.drop (surplus c)).length + 1 ≤ c.maxsize := by
  have hpos : c.entries ≠ [] → 0 < c.entries.length := List.length_pos_of_ne_nil
  rw [List.length_drop, surplus]
  split_ifs with hfull
  · rcases hroom with hentries | hmax
    · have := hpos hentries
      omega
    · omega
  · omega

theorem room_of_set_eq_some {c rest : SmartCache V} (h : c.set now key value ttl = some rest) :
    c.entries ≠ [] ∨ c.maxsize ≠ 0 := by
  by_contra hnone
  rw [not_or, not_not, not_not] at hnone
  unfold SmartCache.set at h
  rw [if_pos (by rw [hnone.2]; exact Nat.zero_le _), hnone.1] at h
  cases h

theorem length_put (entry : CacheEntry V) : (put kept entry).length ≤ kept.length + 1 := by
  unfold put
  split_ifs
  · rw [List.length_map]
    exact Nat.le_succ _
  · rw [List.length_append, List.length_singleton]

/-- A write keeps the keys in the order of their places. -/
theorem ordered_put
    (hordered : (kept.map CacheEntry.key).Pairwise fun a b => lastPlaced log a < lastPlaced log b)
    (hfront : ∀ other, lastPlaced (front ++ log) other = lastPlaced log other) :
    ((put kept entry).map CacheEntry.key).Pairwise fun a b =>
      lastPlaced (Note.wrote entry (!kept.any fun other => other.key = entry.key) ::
        (front ++ log)) a <
      lastPlaced (Note.wrote entry (!kept.any fun other => other.key = entry.key) ::
        (front ++ log)) b := by
  unfold put
  cases hany : kept.any fun other => other.key = entry.key with
  | true =>
    have hkeys : (kept.map fun other => if other.key = entry.key then entry else other).map
        CacheEntry.key = kept.map CacheEntry.key := by
      rw [List.map_map]
      apply List.map_congr_left
      intro other _
      show (if other.key = entry.key then entry else other).key = other.key
      split_ifs with hkey
      · exact hkey.symm
      · rfl
    rw [if_pos rfl, hkeys]
    apply hordered.imp
    intro a b hless
    rw [← hfront a, ← hfront b] at hless
    exact hless
  | false =>
    rw [if_neg Bool.false_ne_true, List.map_append, List.map_singleton]
    refine ordered_concat hordered ?_ ?_ hfront
    · intro hkey
      obtain ⟨other, hother, hsame⟩ := List.mem_map.mp hkey
      have hhit := List.any_eq_false.mp hany other hother
      exact hhit (decide_eq_true hsame)
    · intro other
      rfl

/-- A write that the cache takes. -/
theorem Kept.write (h : Kept s) (hnow : s.clock ≤ now)
    (hafter : after s.cache ⟨now, .set key value ttl⟩ =
      { s.cache with
        entries := put (s.cache.entries.drop (surplus s.cache)) ⟨key, value, now, ttl⟩ })
    (hroom : s.cache.entries ≠ [] ∨ s.cache.maxsize ≠ 0) :
    Kept ⟨after s.cache ⟨now, .set key value ttl⟩,
      .wrote ⟨key, value, now, ttl⟩
        (!(s.cache.entries.drop (surplus s.cache)).any fun entry => entry.key = key) ::
        lostLog s ⟨now, .set key value ttl⟩, now⟩ := by
  have hdelete : ∀ other, (⟨now, .set key value ttl⟩ : CacheCall V).op ≠ .delete other := by
    intro other hop
    cases hop
  have hkept := List.drop_sublist (surplus s.cache) s.cache.entries
  refine ⟨?_, ?_, ?_, ?_⟩
  · rw [hafter]
    exact (length_put _).trans (length_kept h.size hroom)
  · rw [hafter]
    apply ordered_put
    · exact h.ordered.sublist (hkept.map CacheEntry.key)
    · intro other
      exact lastPlaced_lost _ _ _
  · intro entry hentry
    have hput := hentry
    rw [hafter] at hput
    rcases mem_put.mp hput with rfl | ⟨hold, hother⟩
    · rw [remembered, if_pos rfl]
    · rw [remembered, if_neg (Ne.symm hother)]
      exact h.remembered_of_holds hdelete (hkept.subset hold) ⟨entry, hentry, rfl⟩
  · intro other entry hremembered
    rw [remembered] at hremembered
    split_ifs at hremembered with hkey
    · cases Option.some.inj hremembered
      refine .inl ?_
      rw [hafter]
      exact mem_put.mpr (.inl rfl)
    · rcases h.held_of_remembered hdelete hnow hremembered with ⟨hentry, holder, hholder, hsame⟩
        | hold
      · refine .inl ?_
        rw [hafter] at hholder ⊢
        rcases mem_put.mp hholder with rfl | ⟨hdropped, hne⟩
        · exact absurd hsame hkey
        · rw [← h.eq_of_lostLog hremembered hentry (hkept.subset hdropped) hsame]
          exact hholder
      · refine .inr ?_
        rw [hafter]
        exact hold

theorem Kept.set (h : Kept s) (hnow : s.clock ≤ now) (key : String) (value : V) (ttl : Option ℚ) :
    Kept ⟨after s.cache ⟨now, .set key value ttl⟩,
      ownNotes s.cache ⟨now, .set key value ttl⟩ ++ lostLog s ⟨now, .set key value ttl⟩,
      now⟩ := by
  cases hset : s.cache.set now key value ttl with
  | none =>
    have hafter : after s.cache ⟨now, .set key value ttl⟩ = s.cache := by
      simp only [after, hset, Option.getD_none]
    have hown : ownNotes s.cache ⟨now, .set key value ttl⟩ = [] := by
      simp only [ownNotes, hset, Option.isSome_none, Bool.false_eq_true, if_false]
    rw [hown, List.nil_append]
    refine h.sublist ?_ hnow ?_ ?_ ?_
    · intro other hop
      cases hop
    · rw [hafter]
    · rw [hafter]
    · rw [hafter]
      exact h.size
  | some rest =>
    have hroom := room_of_set_eq_some hset
    obtain rfl := set_eq_some hset
    have hown : ownNotes s.cache ⟨now, .set key value ttl⟩ =
        [.wrote ⟨key, value, now, ttl⟩
          !((s.cache.entries.drop (surplus s.cache)).any fun entry => entry.key = key)] := by
      simp only [ownNotes, hset, Option.isSome_some, if_true]
    rw [hown, List.cons_append, List.nil_append]
    apply h.write hnow _ hroom
    simp only [after, hset, Option.getD_some]

theorem start_kept (maxsize : ℕ) (ttl opened : ℚ) : Kept (start maxsize ttl opened : Cached V) where
  size := Nat.zero_le _
  ordered := List.Pairwise.nil
  known := by
    intro entry hentry
    cases hentry
  lost := by
    intro key entry hremembered
    cases hremembered

theorem step_kept (s : Cached V) (call : CacheCall V) (t : Cached V) (h : Kept s)
    (hstep : step s call = some t) : Kept t := by
  unfold step at hstep
  split_ifs at hstep with hnow
  cases Option.some.inj hstep
  obtain ⟨now, op⟩ := call
  rw [List.append_assoc]
  cases op with
  | get key => exact h.get hnow key
  | set key value ttl => exact h.set hnow key value ttl
  | delete key => exact h.delete hnow key
  | resize maxsize => exact h.resize hnow maxsize
  | cleanupExpired => exact h.cleanupExpired hnow

variable {first : CacheEntry V}

/-- What stands before another entry was placed before it. -/
theorem Kept.placed_before (h : Kept s) (n : ℕ)
    (hfirst : first ∈ s.cache.entries.take n) (hother : other ∈ s.cache.entries.drop n) :
    lastPlaced s.log first.key < lastPlaced s.log other.key := by
  have hordered := h.ordered
  rw [← List.take_append_drop n s.cache.entries, List.map_append, List.pairwise_append]
    at hordered
  exact hordered.2.2 _ (List.mem_map_of_mem hfirst) _ (List.mem_map_of_mem hother)

/-- An entry at the front that was not written over is the one least recently used. -/
theorem Kept.inTurn_iff (h : Kept s) (n : ℕ) (hfirst : first ∈ s.cache.entries.take n) :
    InTurn s.log first (s.cache.entries.drop n) ↔
      ∀ other ∈ s.cache.entries.drop n, lastUse s.log first.key < lastUse s.log other.key := by
  constructor
  · intro hturn other hother
    by_cases hover : WrittenOver s.log first.key
    · exact hturn hover other hother
    · have hplaced := h.placed_before n hfirst hother
      have hfirstUse := lastPlaced_le_lastUse s.log first.key
      have hotherUse := lastPlaced_le_lastUse s.log other.key
      unfold WrittenOver at hover
      omega
  · intro hall _
    exact hall

theorem Kept.not_mem_drop (h : Kept s) (n : ℕ)
    (hfirst : first ∈ s.cache.entries.take n) : first ∉ s.cache.entries.drop n := by
  intro hdrop
  exact lt_irrefl _ (h.placed_before n hfirst hdrop)

theorem mem_take_or_drop {entries : List (CacheEntry V)} (n : ℕ)
    (hentry : entry ∈ entries) : entry ∈ entries.take n ∨ entry ∈ entries.drop n := by
  rw [← List.mem_append, List.take_append_drop]
  exact hentry

/-- The keys that a write leaves in the cache. -/
theorem Kept.holds_after_set (h : Kept s) (now : ℚ) (key : String) (value : V)
    (ttl : Option ℚ) (hentry : entry ∈ s.cache.entries) :
    Holds (after s.cache ⟨now, .set key value ttl⟩) entry.key ↔
      entry ∈ s.cache.entries.drop (surplus s.cache) ∨ entry.key = key := by
  cases hset : s.cache.set now key value ttl with
  | none =>
    rw [entries_of_set_eq_none hset] at hentry
    cases hentry
  | some rest =>
    obtain rfl := set_eq_some hset
    have hdropped := (List.drop_sublist (surplus s.cache) s.cache.entries).subset
    simp only [Holds, after, hset, Option.getD_some]
    constructor
    · rintro ⟨other, hother, hsame⟩
      rcases mem_put.mp hother with rfl | ⟨hkept, -⟩
      · exact .inr hsame.symm
      · rw [← h.eq_of_key (hdropped hkept) hentry hsame]
        exact .inl hkept
    · intro hcases
      by_cases hkey : entry.key = key
      · exact ⟨_, mem_put.mpr (.inl rfl), hkey.symm⟩
      · exact ⟨entry, mem_put.mpr (.inr ⟨hcases.resolve_right hkey, hkey⟩), rfl⟩

theorem Kept.holds_after_get (h : Kept s) (now : ℚ) (key : String)
    (hentry : entry ∈ s.cache.entries) (hlive : s.cache.expired now entry = false) :
    Holds (after s.cache ⟨now, .get key⟩) entry.key := by
  rcases get_cases s.cache now key with ⟨-, hget⟩ | ⟨found, hfound, rfl, hget⟩
  · have hafter : after s.cache ⟨now, .get key⟩ = s.cache := congrArg Prod.snd hget
    rw [hafter]
    exact ⟨entry, hentry, rfl⟩
  · have hother : entry.key ≠ found.key →
        entry ∈ s.cache.entries.filter fun other => other.key ≠ found.key := by
      intro hkey
      exact List.mem_filter.mpr ⟨hentry, decide_eq_true hkey⟩
    have hafter : after s.cache ⟨now, .get found.key⟩ = _ := congrArg Prod.snd hget
    rw [hafter]
    split_ifs with hexpired
    · refine ⟨entry, hother ?_, rfl⟩
      intro hkey
      rw [h.eq_of_key hentry hfound hkey, hexpired] at hlive
      cases hlive
    · by_cases hkey : entry.key = found.key
      · exact ⟨found, List.mem_append_right _ (List.mem_singleton_self found), hkey.symm⟩
      · exact ⟨entry, List.mem_append_left _ (hother hkey), rfl⟩

/-- How many entries the front of a cache loses to a new size. -/
theorem entries_resize (c : SmartCache V) (maxsize : ℕ) (hless : maxsize < c.maxsize) :
    (c.resize maxsize).entries = c.entries.drop (c.entries.length - maxsize) := by
  simp only [SmartCache.resize, if_pos hless]

theorem Kept.holds_after_resize (h : Kept s) (now : ℚ) {maxsize : ℕ}
    (hless : maxsize < s.cache.maxsize) (hentry : entry ∈ s.cache.entries) :
    Holds (after s.cache ⟨now, .resize maxsize⟩) entry.key ↔
      entry ∈ s.cache.entries.drop (s.cache.entries.length - maxsize) := by
  have hdropped := (List.drop_sublist (s.cache.entries.length - maxsize) s.cache.entries).subset
  simp only [Holds, after, entries_resize s.cache maxsize hless]
  constructor
  · rintro ⟨other, hother, hsame⟩
    rw [← h.eq_of_key (hdropped hother) hentry hsame]
    exact hother
  · intro hkept
    exact ⟨entry, hkept, rfl⟩

theorem Kept.size_after (h : Kept s) (hnow : s.clock ≤ call.now) :
    (after s.cache call).entries.length ≤ (after s.cache call).maxsize := by
  have hkept := step_kept s call _ h (if_pos hnow)
  exact hkept.size

/-- A read answers with what the key still holds. -/
theorem Kept.get_eq_recalled (h : Kept s) (hnow : s.clock ≤ now)
    (key : String) : (s.cache.get now key).1 = recalled s.cache s.log now key := by
  unfold recalled
  rcases get_cases s.cache now key with ⟨hnone, hget⟩ | ⟨entry, hentry, rfl, hget⟩
  · rw [hget]
    cases hremembered : remembered key s.log with
    | none => rfl
    | some entry =>
      rcases h.lost key entry hremembered with hentry | hexpired
      · exact absurd ⟨entry, hentry, remembered_key hremembered⟩ hnone
      · rw [Option.filter_some, expired_mono hnow hexpired]
        rfl
  · rw [hget, h.known entry hentry, Option.filter_some]
    cases s.cache.expired now entry <;> rfl

/-- Nothing is lost, so only the size and the answer are left to look at. -/
theorem asReference_of_evicted_eq_nil (h : Kept s)
    (hnow : s.clock ≤ call.now) (hnil : evicted s.cache call = []) : AsReference s call where
  size := h.size_after hnow
  recalls := fun key _ => h.get_eq_recalled hnow key
  room := fun hsome => absurd hnil hsome
  oldest := by
    intro entry hentry
    rw [hnil] at hentry
    cases hentry

/-- A write loses the live ones of the first entries, but for the key that it writes. -/
theorem Kept.mem_evicted_set (h : Kept s) (now : ℚ) (key : String) (value : V) (ttl : Option ℚ) :
    entry ∈ evicted s.cache ⟨now, .set key value ttl⟩ ↔
      entry ∈ s.cache.entries.take (surplus s.cache) ∧ s.cache.expired now entry = false ∧
        entry.key ≠ key := by
  have hdelete : ∀ other, (⟨now, .set key value ttl⟩ : CacheCall V).op ≠ .delete other := by
    intro other hop
    cases hop
  have htaken := (List.take_sublist (surplus s.cache) s.cache.entries).subset
  rw [mem_evicted hdelete]
  constructor
  · rintro ⟨hentry, hlive, hgone⟩
    rw [h.holds_after_set now key value ttl hentry, not_or] at hgone
    exact ⟨(mem_take_or_drop _ hentry).resolve_right hgone.1, hlive, hgone.2⟩
  · rintro ⟨hfirst, hlive, hother⟩
    refine ⟨htaken hfirst, hlive, ?_⟩
    rw [h.holds_after_set now key value ttl (htaken hfirst), not_or]
    exact ⟨h.not_mem_drop _ hfirst, hother⟩

theorem asReference_set_iff (h : Kept s) (hnow : s.clock ≤ now)
    (key : String) (value : V) (ttl : Option ℚ) :
    AsReference s ⟨now, .set key value ttl⟩ ↔ Undisturbed s ⟨now, .set key value ttl⟩ := by
  have hdropped := (List.drop_sublist (surplus s.cache) s.cache.entries).subset
  have hevicted : ∀ entry, entry ∈ evicted s.cache ⟨now, .set key value ttl⟩ ↔ _ :=
    fun _ => h.mem_evicted_set now key value ttl
  constructor
  · intro href first hfirst hlive hother
    have hgone := (hevicted first).mpr ⟨hfirst, hlive, hother⟩
    refine ⟨(href.room (List.ne_nil_of_mem hgone)).2, ?_⟩
    rw [h.inTurn_iff _ hfirst]
    intro other hkept
    apply href.oldest first hgone other (hdropped hkept)
    exact (h.holds_after_set now key value ttl (hdropped hkept)).mpr (.inl hkept)
  · intro hundisturbed
    refine ⟨h.size_after hnow, fun other _ => h.get_eq_recalled hnow other, ?_, ?_⟩
    · intro hsome
      obtain ⟨entry, hentry⟩ := List.exists_mem_of_ne_nil _ hsome
      obtain ⟨hfirst, hlive, hother⟩ := (hevicted entry).mp hentry
      refine ⟨?_, (hundisturbed entry hfirst hlive hother).1⟩
      by_contra hroom
      rw [surplus, if_neg hroom] at hfirst
      cases hfirst
    · intro entry hentry other hmem hholds
      obtain ⟨hfirst, hlive, hother⟩ := (hevicted entry).mp hentry
      obtain ⟨hnew, hturn⟩ := hundisturbed entry hfirst hlive hother
      rcases (h.holds_after_set now key value ttl hmem).mp hholds with hkept | hkey
      · exact (h.inTurn_iff _ hfirst).mp hturn other hkept
      · exact absurd ⟨other, hmem, hkey⟩ hnew

/-- Shrinking loses the live ones of the first entries. -/
theorem Kept.mem_evicted_resize (h : Kept s) (now : ℚ) {maxsize : ℕ}
    (hless : maxsize < s.cache.maxsize) : entry ∈ evicted s.cache ⟨now, .resize maxsize⟩ ↔
      entry ∈ s.cache.entries.take (s.cache.entries.length - maxsize) ∧
        s.cache.expired now entry = false := by
  have hdelete : ∀ other, (⟨now, .resize maxsize⟩ : CacheCall V).op ≠ .delete other := by
    intro other hop
    cases hop
  have htaken := (List.take_sublist (s.cache.entries.length - maxsize) s.cache.entries).subset
  rw [mem_evicted hdelete]
  constructor
  · rintro ⟨hentry, hlive, hgone⟩
    rw [h.holds_after_resize now hless hentry] at hgone
    exact ⟨(mem_take_or_drop _ hentry).resolve_right hgone, hlive⟩
  · rintro ⟨hfirst, hlive⟩
    refine ⟨htaken hfirst, hlive, ?_⟩
    rw [h.holds_after_resize now hless (htaken hfirst)]
    exact h.not_mem_drop _ hfirst

theorem asReference_resize_iff (h : Kept s) (hnow : s.clock ≤ now) (maxsize : ℕ) :
    AsReference s ⟨now, .resize maxsize⟩ ↔ Undisturbed s ⟨now, .resize maxsize⟩ := by
  have hdelete : ∀ other, (⟨now, .resize maxsize⟩ : CacheCall V).op ≠ .delete other := by
    intro other hop
    cases hop
  by_cases hless : maxsize < s.cache.maxsize
  · have hdropped :=
      (List.drop_sublist (s.cache.entries.length - maxsize) s.cache.entries).subset
    have hevicted : ∀ entry, entry ∈ evicted s.cache ⟨now, .resize maxsize⟩ ↔ _ :=
      fun _ => h.mem_evicted_resize now hless
    constructor
    · intro href _ first hfirst hlive
      rw [h.inTurn_iff _ hfirst]
      intro other hkept
      apply href.oldest first ((hevicted first).mpr ⟨hfirst, hlive⟩) other (hdropped hkept)
      exact (h.holds_after_resize now hless (hdropped hkept)).mpr hkept
    · intro hundisturbed
      refine ⟨h.size_after hnow, fun other _ => h.get_eq_recalled hnow other, ?_, ?_⟩
      · intro _
        exact hless
      · intro entry hentry other hmem hholds
        obtain ⟨hfirst, hlive⟩ := (hevicted entry).mp hentry
        have hturn := hundisturbed hless entry hfirst hlive
        exact (h.inTurn_iff _ hfirst).mp hturn other
          ((h.holds_after_resize now hless hmem).mp hholds)
  · refine iff_of_true ?_ fun hshrinks => absurd hshrinks hless
    apply asReference_of_evicted_eq_nil h hnow
    apply List.eq_nil_iff_forall_not_mem.mpr
    intro entry hentry
    obtain ⟨hmem, -, hgone⟩ := (mem_evicted hdelete).mp hentry
    apply hgone
    refine ⟨entry, ?_, rfl⟩
    simp only [after, SmartCache.resize, if_neg hless]
    exact hmem

theorem asReference_iff (h : Kept s)
    (hnow : s.clock ≤ call.now) : AsReference s call ↔ Undisturbed s call := by
  obtain ⟨now, op⟩ := call
  cases op with
  | get key =>
    refine iff_of_true ?_ trivial
    apply asReference_of_evicted_eq_nil h hnow
    apply List.eq_nil_iff_forall_not_mem.mpr
    intro entry hentry
    obtain ⟨hmem, hlive, hgone⟩ := (mem_evicted (by simp)).mp hentry
    exact hgone (h.holds_after_get now key hmem hlive)
  | set key value ttl => exact asReference_set_iff h hnow key value ttl
  | delete key =>
    refine iff_of_true ?_ trivial
    exact asReference_of_evicted_eq_nil h hnow rfl
  | resize maxsize => exact asReference_resize_iff h hnow maxsize
  | cleanupExpired =>
    refine iff_of_true ?_ trivial
    apply asReference_of_evicted_eq_nil h hnow
    apply List.eq_nil_iff_forall_not_mem.mpr
    intro entry hentry
    obtain ⟨hmem, hlive, hgone⟩ := (mem_evicted (by simp)).mp hentry
    apply hgone
    refine ⟨entry, List.mem_filter.mpr ⟨hmem, ?_⟩, rfl⟩
    rw [hlive]
    rfl

/-- Over calls in the order of their times the cache is the reference map in every call as
long as, and no longer than, no call disturbs the order. -/
theorem asReference_along_iff (maxsize : ℕ) (ttl opened : ℚ) (calls : List (CacheCall V))
    {final : Cached V} (hrun : run step (start maxsize ttl opened) calls = some final) :
    Along step AsReference (start maxsize ttl opened) calls ↔
      Along step Undisturbed (start maxsize ttl opened) calls := by
  have htimes : Along step (fun s call => s.clock ≤ call.now) (start maxsize ttl opened) calls := by
    refine along_of_run ?_ hrun
    intro s call t hstep
    by_contra hlate
    rw [step, if_neg hlate] at hstep
    cases hstep
  have hkept : ∀ guard : Cached V → CacheCall V → Prop, ∀ s call t, Kept s →
      (s.clock ≤ call.now ∧ guard s call) → step s call = some t → Kept t :=
    fun _ s call t h _ hstep => step_kept s call t h hstep
  constructor
  · intro href
    refine along_of_invariant (hkept AsReference) ?_ (start_kept maxsize ttl opened)
      (along_and htimes href)
    intro s call h hguard
    exact (asReference_iff h hguard.1).mp hguard.2
  · intro hundisturbed
    refine along_of_invariant (hkept Undisturbed) ?_ (start_kept maxsize ttl opened)
      (along_and htimes hundisturbed)
    intro s call h hguard
    exact (asReference_iff h hguard.1).mpr hguard.2

def writeTwice : List (CacheCall ℕ) :=
  [⟨0, .set "a" 1 none⟩, ⟨1, .get "a"⟩, ⟨2, .set "b" 2 (some 5)⟩]

theorem asReference_along_iff_writeTwice :
    Along step AsReference (start 2 300 0) writeTwice ↔
      Along step Undisturbed (start 2 300 0) writeTwice := by
  have hrun : run step (start 2 300 0) writeTwice =
      some ⟨⟨[⟨"a", 1, 0, none⟩, ⟨"b", 2, 2, some 5⟩], 2, 300⟩,
        [.wrote ⟨"b", 2, 2, some 5⟩ true, .read "a", .wrote ⟨"a", 1, 0, none⟩ true], 2⟩ := by
    decide +kernel
  exact asReference_along_iff 2 300 0 writeTwice hrun

/-- A write over a key that is there drops another key from the full cache. -/
theorem not_asReference :
    ¬ ∀ (maxsize : ℕ) (ttl opened : ℚ) (calls : List (CacheCall ℕ)) (final : Cached ℕ),
      1 ≤ maxsize → run step (start maxsize ttl opened) calls = some final →
        Along step AsReference (start maxsize ttl opened) calls := by
  intro hall
  have halong := hall 2 300 0
    [⟨0, .set "a" 1 none⟩, ⟨1, .set "b" 2 none⟩, ⟨2, .set "b" 3 none⟩]
    ⟨⟨[⟨"b", 3, 2, none⟩], 2, 300⟩,
      [.wrote ⟨"b", 3, 2, none⟩ false, .evicted "a", .wrote ⟨"b", 2, 1, none⟩ true,
        .wrote ⟨"a", 1, 0, none⟩ true], 2⟩
    (by omega) (by decide +kernel)
  have hlast := ((halong.2 _ rfl).2 _ rfl).1
  have hroom := hlast.room (by decide +kernel)
  exact hroom.2 (by decide +kernel)

end MT5Services.CacheHistory
