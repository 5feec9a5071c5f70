import MT5Services.Dict
import MT5Services.JsonText
import MT5Services.PyNumber
import MT5Services.PyText
import MT5Services.StorageWriter
import Mathlib.Data.List.Flatten
import Mathlib.Data.List.Induction
import Mathlib.Data.List.Sort

/-!
The dead letter files of `StorageWriter`: a batch whose flush failed goes to a file named by
its channel and a millisecond clock, one JSON array a line, and the next start replays the
files. The name gives the channel back whatever underscores it has and the lines give the rows
back, so every batch arrives once, unless a later batch of the channel fails within the same
millisecond: it takes the name of the earlier one and overwrites its file.
-/
namespace MT5Services.DeadLetters

open JsonText

abbrev Row := List Value

/-! ### File names -/

/-- The text before the last such character. -/
def beforeLast (c : Char) (text : List Char) : Option (List Char) :=
  match text.reverse.dropWhile (· ≠ c) with
  | [] => none
  | _ :: front => some front.reverse

/-- `f"{channel}_{ts}.jsonl"`. -/
def fileName (channel : String) (ts : ℤ) : String :=
  String.ofList (channel.toList ++ '_' :: (intText ts ++ ".jsonl".toList))

/-- `Path.stem`. -/
def stem (name : String) : List Char :=
  match beforeLast '.' name.toList with
  | none => name.toList
  | some front =>
    if 0 < front.length ∧ front.length + 1 < name.toList.length then front else name.toList

/-- `path.stem.rsplit("_", 1)[0]`. -/
def channelOf (name : String) : String :=
  String.ofList ((beforeLast '_' (stem name)).getD (stem name))

/-- What `glob("*.jsonl")` finds. -/
def isJsonl (name : String) : Bool := ".jsonl".toList.isSuffixOf name.toList

/-! ### Files -/

structure DlqFile where
  content : List Char
  mtime : ℚ

abbrev DlqDir := Dict String DlqFile

def fileText (rows : List Row) : List Char :=
  rows.flatMap fun row => dumps (.array row) ++ ['\n']

/-- A batch that `_flush_if_due` gives up, with the clock of the dump and the file's own. -/
structure FailedFlush where
  channel : String
  rows : List Row
  nonempty : rows ≠ []
  time : ℚ
  mtime : ℚ

namespace FailedFlush

/-- `int(time.time() * 1000)`. -/
def stamp (f : FailedFlush) : ℤ := PyNumber.toInt (f.time * 1000)

def name (f : FailedFlush) : String := fileName f.channel f.stamp

end FailedFlush

/-- `_dump_to_dlq`; a name that the file system does not accept is logged only. -/
def dumpToDlq (accepts : String → Bool) (dir : DlqDir) (f : FailedFlush) : DlqDir :=
  if f.rows = [] then dir
  else if accepts f.name then dir.set f.name ⟨fileText f.rows, f.mtime⟩
  else dir

def dlqAfter (accepts : String → Bool) (flushes : List FailedFlush) : DlqDir :=
  flushes.foldl (dumpToDlq accepts) Dict.empty

/-! ### The replay -/

/-- The lines of a text file, each with its line break. -/
def lines : List Char → List (List Char)
  | [] => []
  | c :: rest =>
    if c = '\n' then [c] :: lines rest
    else
      match lines rest with
      | [] => [[c]]
      | line :: others => (c :: line) :: others

/-- `tuple(value)`. -/
def toTuple : Value → Option Row
  | .array items => some items
  | .object fields => some (fields.map fun field => .str field.1)
  | .str text => some (text.toList.map fun c => .str (String.ofList [c]))
  | _ => none

def isBlank (line : List Char) : Bool := line.all PyText.isSpace

def readRows (content : List Char) : Option (List Row) :=
  ((lines content).filter fun line => !isBlank line).mapM fun line => (loads line).bind toTuple

/-- What a start does with the files: a call of a channel's `write_fn` and whether it returns,
and the removal of a file. -/
inductive Effect
  | write (channel : String) (rows : List Row) (returned : Bool)
  | remove (name : String)

def replayFile (registered : List String) (returns : String → List Row → Bool) (name : String)
    (file : DlqFile) : List Effect :=
  if channelOf name ∉ registered then [.remove name]
  else
    match readRows file.content with
    | none => []
    | some [] => [.remove name]
    | some rows =>
      if returns (channelOf name) rows then [.write (channelOf name) rows true, .remove name]
      else [.write (channelOf name) rows false]

/-- Seven days. -/
def maxAge : ℚ := 7 * 86400

def isStale (dir : DlqDir) (now : ℚ) (name : String) : Bool :=
  isJsonl name && (dir.get? name).any fun file => file.mtime < now - maxAge

/-- What `_cleanup_stale_dlq` removes. -/
def stale (dir : DlqDir) (now : ℚ) : List String := dir.keys.filter (isStale dir now)

def kept (dir : DlqDir) (now : ℚ) : DlqDir := dir.pick fun name => !isStale dir now name

/-- `_replay_dlq`. -/
def replayDlq (registered : List String) (returns : String → List Row → Bool) (now : ℚ)
    (dir : DlqDir) : List Effect :=
  (stale dir now).map .remove ++
    (((kept dir now).keys.filter isJsonl).insertionSort (· ≤ ·)).flatMap fun name =>
      ((kept dir now).get? name).elim [] (replayFile registered returns name)

/-! ### The promise -/

/-- The rows that a channel's `write_fn` takes. -/
def Effect.delivered (channel : String) : Effect → List Row
  | .write target rows true => if target = channel then rows else []
  | _ => []

/-- The rows of a channel's failed batches, datetimes as text. -/
def failedRows (channel : String) (flushes : List FailedFlush) : List Row :=
  flushes.flatMap fun f => if f.channel = channel then f.rows.map renderedItems else []

/-- Files go only after their rows were written. -/
def RemovesWritten (dir : DlqDir) (effects : List Effect) : Prop :=
  ∀ front name back, effects = front ++ .remove name :: back →
    ∃ file rows, dir.get? name = some file ∧ readRows file.content = some rows ∧
      .write (channelOf name) rows true ∈ front

/-- Every channel gets the rows of its failed batches, each once, and a file goes only after
its rows were written. -/
structure RoundTrip (flushes : List FailedFlush) (dir : DlqDir) (effects : List Effect) :
    Prop where
  delivered : ∀ channel,
    (effects.flatMap (Effect.delivered channel)).Perm (failedRows channel flushes)
  removed : RemovesWritten dir effects

/-! ### Names and lines read back -/

theorem beforeLast_append {c : Char} {tail : List Char} (hc : c ∉ tail) (front : List Char) :
    beforeLast c (front ++ c :: tail) = some front := by
  have htail : ∀ d ∈ tail.reverse, decide (d ≠ c) = true := by
    intro d hd
    refine decide_eq_true ?_
    rintro rfl
    exact hc (List.mem_reverse.mp hd)
  unfold beforeLast
  rw [List.reverse_append, List.reverse_cons, List.append_assoc, List.singleton_append,
    List.dropWhile_append_of_pos htail, List.dropWhile_cons_of_neg (by simp)]
  show some front.reverse.reverse = some front
  rw [List.reverse_reverse]

/-- The digits of a stamp hold neither mark of the name. -/
theorem not_mem_intText {c : Char} (hdigit : c.isDigit = false) (hsign : c ≠ '-') (n : ℤ) :
    c ∉ intText n := by
  have hdigits : c ∉ Nat.toDigits 10 n.natAbs := by
    intro hc
    rw [isDigit_of_mem _ c hc] at hdigit
    cases hdigit
  unfold intText
  split
  · rw [List.mem_cons, not_or]
    exact ⟨hsign, hdigits⟩
  · exact hdigits

theorem toList_fileName (channel : String) (ts : ℤ) : (fileName channel ts).toList =
    (channel.toList ++ '_' :: intText ts) ++ '.' :: "jsonl".toList := by
  rw [fileName, String.toList_ofList, List.append_assoc, List.cons_append]
  rfl

theorem stem_fileName (channel : String) (ts : ℤ) :
    stem (fileName channel ts) = channel.toList ++ '_' :: intText ts := by
  unfold stem
  rw [toList_fileName, beforeLast_append (by decide)]
  dsimp only
  rw [if_pos]
  constructor
  · rw [List.length_append, List.length_cons]
    omega
  · have hsuffix : "jsonl".toList.length = 5 := by decide
    simp only [List.length_append, List.length_cons, hsuffix]
    omega

theorem channelOf_fileName (channel : String) (ts : ℤ) :
    channelOf (fileName channel ts) = channel := by
  rw [channelOf, stem_fileName, beforeLast_append (not_mem_intText (by decide) (by decide) ts),
    Option.getD_some, String.ofList_toList]

theorem isJsonl_fileName (channel : String) (ts : ℤ) : isJsonl (fileName channel ts) = true := by
  rw [isJsonl, List.isSuffixOf_iff_suffix, toList_fileName]
  exact List.suffix_append _ _

theorem fileName_inj {channel other : String} {ts late : ℤ}
    (h : fileName channel ts = fileName other late) : channel = other ∧ ts = late := by
  have hchannel : channel = other := by
    rw [← channelOf_fileName channel ts, h, channelOf_fileName]
  subst hchannel
  have hstem := congrArg stem h
  rw [stem_fileName, stem_fileName] at hstem
  have hdigits := (List.cons.inj (List.append_cancel_left hstem)).2
  have hread := congrArg readInt hdigits
  rw [readInt_intText, readInt_intText] at hread
  exact ⟨rfl, Option.some.inj hread⟩

theorem lines_line {line : List Char} (hline : '\n' ∉ line) (rest : List Char) :
    lines (line ++ '\n' :: rest) = (line ++ ['\n']) :: lines rest := by
  induction line with
  | nil => rw [List.nil_append, lines, if_pos rfl, List.nil_append]
  | cons c line ih =>
    rw [List.mem_cons, not_or] at hline
    rw [List.cons_append, lines, if_neg (Ne.symm hline.1), ih hline.2, List.cons_append]

theorem lines_fileText (rows : List Row) :
    lines (fileText rows) = rows.map fun row => dumps (.array row) ++ ['\n'] := by
  induction rows with
  | nil => rfl
  | cons row rows ih =>
    rw [fileText, List.flatMap_cons, List.append_assoc, List.singleton_append,
      lines_line (newline_not_mem_dumps _), List.map_cons]
    exact congrArg _ ih

theorem isBlank_line (row : Row) : isBlank (dumps (.array row) ++ ['\n']) = false := by
  have hbracket : PyText.isSpace '[' = false := by decide
  cases row with
  | nil => decide
  | cons item rest =>
    rw [dumps, List.cons_append, isBlank, List.all_cons, hbracket, Bool.false_and]

theorem readLine (row : Row) :
    (loads (dumps (.array row) ++ ['\n'])).bind toTuple = some (renderedItems row) := by
  rw [loads_dumps _ (by decide)]
  rfl

theorem mapM_readLine (rows : List Row) :
    (rows.map fun row => dumps (.array row) ++ ['\n']).mapM
      (fun line => (loads line).bind toTuple) = some (rows.map renderedItems) := by
  induction rows with
  | nil => rfl
  | cons row rows ih =>
    rw [List.map_cons, List.mapM_cons, readLine, ih]
    rfl

/-- The rows read back, datetimes as text. -/
theorem readRows_fileText (rows : List Row) :
    readRows (fileText rows) = some (rows.map renderedItems) := by
  have hkept : (rows.map fun row => dumps (.array row) ++ ['\n']).filter
      (fun line => !isBlank line) = rows.map fun row => dumps (.array row) ++ ['\n'] := by
    refine List.filter_eq_self.mpr fun line hline => ?_
    obtain ⟨row, -, rfl⟩ := List.mem_map.mp hline
    rw [isBlank_line]
    rfl
  rw [readRows, lines_fileText, hkept, mapM_readLine]

/-! ### The directory after failed flushes -/

section Directory

variable {accepts : String → Bool} {flushes : List FailedFlush}

theorem dlqAfter_concat (accepts : String → Bool) (flushes : List FailedFlush)
    (f : FailedFlush) :
    dlqAfter accepts (flushes ++ [f]) = dumpToDlq accepts (dlqAfter accepts flushes) f := by
  rw [dlqAfter, List.foldl_append]
  rfl

variable {f : FailedFlush}

theorem dumpToDlq_accepted (h : accepts f.name = true) (dir : DlqDir) :
    dumpToDlq accepts dir f = dir.set f.name ⟨fileText f.rows, f.mtime⟩ := by
  rw [dumpToDlq, if_neg f.nonempty, if_pos h]

theorem dumpToDlq_refused (h : accepts f.name ≠ true) (dir : DlqDir) :
    dumpToDlq accepts dir f = dir := by
  rw [dumpToDlq, if_neg f.nonempty, if_neg h]

variable {name : String}

/-- Every file is the dump of a failed flush. -/
theorem exists_of_get?_dlqAfter {file : DlqFile}
    (h : (dlqAfter accepts flushes).get? name = some file) :
    ∃ f ∈ flushes, f.name = name ∧ file = ⟨fileText f.rows, f.mtime⟩ := by
  induction flushes using List.reverseRecOn with
  | nil => cases h
  | append_singleton flushes f ih =>
    rw [dlqAfter_concat] at h
    by_cases haccepts : accepts f.name = true
    · rw [dumpToDlq_accepted haccepts, Dict.get?_set] at h
      split at h
      · rename_i hname
        exact ⟨f, List.mem_append_right _ (List.mem_singleton_self _), hname.symm,
          (Option.some.inj h).symm⟩
      · obtain ⟨g, hg, hnamed⟩ := ih h
        exact ⟨g, List.mem_append_left _ hg, hnamed⟩
    · rw [dumpToDlq_refused haccepts] at h
      obtain ⟨g, hg, hnamed⟩ := ih h
      exact ⟨g, List.mem_append_left _ hg, hnamed⟩

/-- The rows that a file holds for a channel. -/
def rowsFor (channel : String) (name : String) (file : DlqFile) : List Row :=
  if channelOf name = channel then (readRows file.content).getD [] else []

/-- What the directory holds for a channel. -/
def held (channel : String) (dir : DlqDir) : List Row := dir.gather (rowsFor channel)

theorem rowsFor_dump (channel : String) (f : FailedFlush) :
    rowsFor channel f.name ⟨fileText f.rows, f.mtime⟩ =
      if f.channel = channel then f.rows.map renderedItems else [] := by
  unfold rowsFor FailedFlush.name
  rw [channelOf_fileName, readRows_fileText, Option.getD_some]

theorem held_set (channel : String) (dir : DlqDir) (f : FailedFlush) :
    (held channel (dir.set f.name ⟨fileText f.rows, f.mtime⟩)).Perm
      ((if f.channel = channel then f.rows.map renderedItems else []) ++
        held channel (dir.pop f.name)) := by
  have hperm := (Dict.perm_set dir f.name ⟨fileText f.rows, f.mtime⟩).flatMap_right
    fun p => rowsFor channel p.1 p.2
  rw [List.flatMap_cons, rowsFor_dump] at hperm
  exact hperm

theorem failedRows_concat (channel : String) (flushes : List FailedFlush) (f : FailedFlush) :
    failedRows channel (flushes ++ [f]) = failedRows channel flushes ++
      if f.channel = channel then f.rows.map renderedItems else [] := by
  rw [failedRows, List.flatMap_append, List.flatMap_singleton]
  rfl

theorem length_held_pop_le (channel : String) (dir : DlqDir) (name : String) :
    (held channel (dir.pop name)).length ≤ (held channel dir).length := by
  have hsublist : (dir.pop name).items.Sublist dir.items := List.filter_sublist
  exact (hsublist.flatMap _).length_le

/-- No channel can get more than it lost. -/
theorem length_held_le (accepts : String → Bool) (flushes : List FailedFlush) (channel : String) :
    (held channel (dlqAfter accepts flushes)).length ≤ (failedRows channel flushes).length := by
  induction flushes using List.reverseRecOn with
  | nil => exact le_rfl
  | append_singleton flushes f ih =>
    rw [dlqAfter_concat, failedRows_concat, List.length_append]
    by_cases haccepts : accepts f.name = true
    · rw [dumpToDlq_accepted haccepts, (held_set channel _ f).length_eq, List.length_append]
      have hpop := length_held_pop_le channel (dlqAfter accepts flushes) f.name
      omega
    · rw [dumpToDlq_refused haccepts]
      omega

theorem held_of_get? (channel : String) {dir : DlqDir} {file : DlqFile}
    (h : dir.get? name = some file) :
    (held channel dir).Perm (rowsFor channel name file ++ held channel (dir.pop name)) := by
  have hperm := (Dict.perm_of_get? h).flatMap_right fun p => rowsFor channel p.1 p.2
  rw [List.flatMap_cons] at hperm
  exact hperm

/-- A file stays until the replay. -/
theorem get?_dlqAfter_ne_none (hf : f ∈ flushes)
    (haccepts : accepts f.name = true) : (dlqAfter accepts flushes).get? f.name ≠ none := by
  induction flushes using List.reverseRecOn with
  | nil => cases hf
  | append_singleton flushes g ih =>
    rw [dlqAfter_concat]
    by_cases hg : accepts g.name = true
    · rw [dumpToDlq_accepted hg, Dict.get?_set]
      split
      · exact Option.some_ne_none _
      · rename_i hname
        rcases List.mem_append.mp hf with hearlier | hself
        · exact ih hearlier
        · rw [List.mem_singleton.mp hself] at hname
          exact absurd rfl hname
    · rw [dumpToDlq_refused hg]
      rcases List.mem_append.mp hf with hearlier | hself
      · exact ih hearlier
      · rw [List.mem_singleton.mp hself] at haccepts
        exact absurd haccepts hg

/-- A name that was free is in no earlier dump that was accepted. -/
theorem name_not_mem (haccepts : ∀ f ∈ flushes, accepts f.name = true)
    (hnone : (dlqAfter accepts flushes).get? name = none) :
    name ∉ flushes.map FailedFlush.name := by
  intro hmem
  obtain ⟨f, hf, rfl⟩ := List.mem_map.mp hmem
  exact get?_dlqAfter_ne_none hf (haccepts f hf) hnone

theorem get?_dlqAfter_eq_none (h : name ∉ flushes.map FailedFlush.name) :
    (dlqAfter accepts flushes).get? name = none := by
  rw [Option.eq_none_iff_forall_ne_some]
  intro file hfile
  obtain ⟨f, hf, hname, -⟩ := exists_of_get?_dlqAfter hfile
  exact h (List.mem_map.mpr ⟨f, hf, hname⟩)

/-- A later batch of the name would have overwritten rows of its own channel. -/
theorem get?_eq_none_of_length
    (h : (held f.channel ((dlqAfter accepts flushes).pop f.name)).length =
      (failedRows f.channel flushes).length) : (dlqAfter accepts flushes).get? f.name = none := by
  rw [Option.eq_none_iff_forall_ne_some]
  intro file hfile
  obtain ⟨g, -, hname, rfl⟩ := exists_of_get?_dlqAfter hfile
  obtain ⟨hchannel, -⟩ := fileName_inj hname
  have hle := length_held_le accepts flushes f.channel
  have hsplit := (held_of_get? f.channel hfile).length_eq
  rw [← hname, rowsFor_dump, if_pos hchannel, List.length_append, List.length_map, hname] at hsplit
  have hrows := List.length_pos_of_ne_nil g.nonempty
  omega

/-- When every channel has all its rows, every name was accepted and used once. -/
theorem distinct_of_length (h : ∀ channel, (held channel (dlqAfter accepts flushes)).length =
    (failedRows channel flushes).length) :
    (∀ f ∈ flushes, accepts f.name = true) ∧ (flushes.map FailedFlush.name).Nodup := by
  induction flushes using List.reverseRecOn with
  | nil => exact ⟨fun _ hf => absurd hf List.not_mem_nil, List.nodup_nil⟩
  | append_singleton flushes f ih =>
    have hrows := List.length_pos_of_ne_nil f.nonempty
    have hle := length_held_le accepts flushes f.channel
    have hown := h f.channel
    rw [dlqAfter_concat, failedRows_concat, List.length_append, if_pos rfl, List.length_map] at hown
    by_cases haccepts : accepts f.name = true
    · rw [dumpToDlq_accepted haccepts, (held_set f.channel _ f).length_eq, List.length_append,
        if_pos rfl, List.length_map] at hown
      have hnone : (dlqAfter accepts flushes).get? f.name = none :=
        get?_eq_none_of_length (by omega)
      have hearlier : ∀ channel, (held channel (dlqAfter accepts flushes)).length =
          (failedRows channel flushes).length := by
        intro channel
        have hall := h channel
        rw [dlqAfter_concat, failedRows_concat, dumpToDlq_accepted haccepts,
          (held_set channel _ f).length_eq, List.length_append, List.length_append, held,
          Dict.gather_pop_of_get?_none _ hnone, ← held] at hall
        omega
      obtain ⟨haccepted, hnodup⟩ := ih hearlier
      refine ⟨?_, ?_⟩
      · intro g hg
        rcases List.mem_append.mp hg with hold | hself
        · exact haccepted g hold
        · rw [List.mem_singleton.mp hself]
          exact haccepts
      · rw [List.map_append, List.map_singleton, ← List.concat_eq_append]
        exact hnodup.concat (name_not_mem haccepted hnone)
    · rw [dumpToDlq_refused haccepts] at hown
      omega

/-- With names that are accepted and used once the directory holds every failed row. -/
theorem held_perm (haccepts : ∀ f ∈ flushes, accepts f.name = true)
    (hnodup : (flushes.map FailedFlush.name).Nodup) (channel : String) :
    (held channel (dlqAfter accepts flushes)).Perm (failedRows channel flushes) := by
  induction flushes using List.reverseRecOn with
  | nil => exact List.Perm.refl _
  | append_singleton flushes f ih =>
    rw [List.map_append, List.map_singleton, List.nodup_append] at hnodup
    obtain ⟨hearlier, -, hdisjoint⟩ := hnodup
    have hfresh : f.name ∉ flushes.map FailedFlush.name := fun hmem =>
      hdisjoint _ hmem _ (List.mem_singleton_self _) rfl
    have hheld := ih (fun g hg => haccepts g (List.mem_append_left _ hg)) hearlier
    have haccepted := haccepts f (List.mem_append_right _ (List.mem_singleton_self _))
    have hpop : held channel ((dlqAfter accepts flushes).pop f.name) =
        held channel (dlqAfter accepts flushes) :=
      Dict.gather_pop_of_get?_none _ (get?_dlqAfter_eq_none hfresh)
    rw [dlqAfter_concat, dumpToDlq_accepted haccepted, failedRows_concat]
    refine (held_set channel _ f).trans ?_
    rw [hpop]
    exact List.perm_append_comm.trans (hheld.append_right _)

end Directory

/-! ### What a start does with the files -/

section Replay

variable {accepts : String → Bool} {flushes : List FailedFlush} {registered : List String}
  {returns : String → List Row → Bool} {now : ℚ}

theorem isStale_eq_false (hyoung : ∀ f ∈ flushes, now - maxAge ≤ f.mtime) (name : String) :
    isStale (dlqAfter accepts flushes) now name = false := by
  unfold isStale
  cases hfile : (dlqAfter accepts flushes).get? name with
  | none => rw [Option.any_none, Bool.and_false]
  | some file =>
    obtain ⟨f, hf, -, rfl⟩ := exists_of_get?_dlqAfter hfile
    rw [Option.any_some, decide_eq_false (not_lt.mpr (hyoung f hf)), Bool.and_false]

/-- Young files are all replayed, in the order of their names. -/
theorem replayDlq_eq (hyoung : ∀ f ∈ flushes, now - maxAge ≤ f.mtime) :
    replayDlq registered returns now (dlqAfter accepts flushes) =
      ((dlqAfter accepts flushes).keys.insertionSort (· ≤ ·)).flatMap fun name =>
        ((dlqAfter accepts flushes).get? name).elim [] (replayFile registered returns name) := by
  have hfresh : ∀ name, isStale (dlqAfter accepts flushes) now name = false :=
    isStale_eq_false hyoung
  have hkept : kept (dlqAfter accepts flushes) now = dlqAfter accepts flushes := by
    refine Dict.pick_eq_self fun name => ?_
    rw [hfresh name]
    rfl
  have hstale : stale (dlqAfter accepts flushes) now = [] := by
    refine List.filter_eq_nil_iff.mpr fun name _ => ?_
    rw [hfresh name]
    decide
  have hnames : (dlqAfter accepts flushes).keys.filter isJsonl =
      (dlqAfter accepts flushes).keys := by
    refine List.filter_eq_self.mpr fun name hname => ?_
    obtain ⟨p, hp, rfl⟩ := List.mem_map.mp hname
    obtain ⟨f, -, hnamed, -⟩ := exists_of_get?_dlqAfter ((Dict.mem_items_iff_get? _ _ _).mp hp)
    rw [← hnamed]
    exact isJsonl_fileName _ _
  rw [replayDlq, hstale, List.map_nil, List.nil_append, hkept, hnames]

/-- The replay of the dump of a registered channel. -/
theorem replayFile_dump {f : FailedFlush} (hregistered : f.channel ∈ registered) :
    replayFile registered returns f.name ⟨fileText f.rows, f.mtime⟩ =
      if returns f.channel (f.rows.map renderedItems) then
        [.write f.channel (f.rows.map renderedItems) true, .remove f.name]
      else [.write f.channel (f.rows.map renderedItems) false] := by
  have hchannel : channelOf f.name = f.channel := channelOf_fileName _ _
  unfold replayFile
  rw [hchannel, if_neg (not_not.mpr hregistered), readRows_fileText]
  obtain ⟨row, rows, hrows⟩ := List.exists_cons_of_ne_nil f.nonempty
  rw [hrows]
  rfl

theorem RemovesWritten.append {dir : DlqDir} {effects others : List Effect}
    (h : RemovesWritten dir effects) (hothers : RemovesWritten dir others) :
    RemovesWritten dir (effects ++ others) := by
  intro front name back hsplit
  rcases List.append_eq_append_iff.mp hsplit with ⟨middle, hfront, hback⟩ | ⟨middle, hfront, hback⟩
  · obtain ⟨file, rows, hfile, hrows, hwritten⟩ := hothers middle name back hback
    refine ⟨file, rows, hfile, hrows, ?_⟩
    rw [hfront]
    exact List.mem_append_right _ hwritten
  · cases middle with
    | nil =>
      rw [List.append_nil] at hfront
      rw [List.nil_append] at hback
      obtain ⟨file, rows, hfile, hrows, hwritten⟩ := hothers [] name back hback.symm
      cases hwritten
    | cons first middle =>
      rw [List.cons_append] at hback
      obtain ⟨rfl, -⟩ := List.cons.inj hback
      exact h front name middle hfront

theorem RemovesWritten.flatMap {dir : DlqDir} {names : List String}
    {effects : String → List Effect} (h : ∀ name ∈ names, RemovesWritten dir (effects name)) :
    RemovesWritten dir (names.flatMap effects) := by
  induction names with
  | nil =>
    intro front name back hsplit
    cases front <;> cases hsplit
  | cons name names ih =>
    rw [List.flatMap_cons]
    exact (h name List.mem_cons_self).append
      (ih fun other hother => h other (List.mem_cons_of_mem _ hother))

theorem replayFile_removesWritten (hregistered : ∀ f ∈ flushes, f.channel ∈ registered)
    {name : String} {file : DlqFile} (hfile : (dlqAfter accepts flushes).get? name = some file) :
    RemovesWritten (dlqAfter accepts flushes) (replayFile registered returns name file) := by
  obtain ⟨f, hf, rfl, rfl⟩ := exists_of_get?_dlqAfter hfile
  rw [replayFile_dump (hregistered f hf)]
  intro front name back hsplit
  split at hsplit
  · cases front with
    | nil => cases hsplit
    | cons first front =>
      cases front with
      | nil =>
        rw [List.singleton_append] at hsplit
        obtain ⟨rfl, hrest⟩ := List.cons.inj hsplit
        obtain ⟨hname, -⟩ := List.cons.inj hrest
        cases hname
        refine ⟨_, _, hfile, readRows_fileText _, ?_⟩
        rw [FailedFlush.name, channelOf_fileName]
        exact List.mem_singleton_self _
      | cons second front =>
        have hlength := congrArg List.length hsplit
        simp only [List.length_append, List.length_cons, List.length_nil] at hlength
        omega
  · cases front with
    | nil => cases hsplit
    | cons first front =>
      have hlength := congrArg List.length hsplit
      simp only [List.length_append, List.length_cons, List.length_nil] at hlength
      omega

/-- Whatever `write_fn` does, no file goes before its rows were written. -/
theorem replayDlq_removesWritten (hregistered : ∀ f ∈ flushes, f.channel ∈ registered)
    (hyoung : ∀ f ∈ flushes, now - maxAge ≤ f.mtime) :
    RemovesWritten (dlqAfter accepts flushes)
      (replayDlq registered returns now (dlqAfter accepts flushes)) := by
  rw [replayDlq_eq hyoung]
  refine RemovesWritten.flatMap fun name _ => ?_
  cases hfile : (dlqAfter accepts flushes).get? name with
  | none =>
    intro front name back hsplit
    cases front <;> cases hsplit
  | some file => exact replayFile_removesWritten hregistered hfile

/-- A channel is given what the directory holds for it. -/
theorem delivered_replayDlq (hregistered : ∀ f ∈ flushes, f.channel ∈ registered)
    (hyoung : ∀ f ∈ flushes, now - maxAge ≤ f.mtime) (channel : String) :
    ((replayDlq registered (fun _ _ => true) now (dlqAfter accepts flushes)).flatMap
      (Effect.delivered channel)).Perm (held channel (dlqAfter accepts flushes)) := by
  rw [replayDlq_eq hyoung, List.flatMap_assoc]
  refine ((List.perm_insertionSort _ _).flatMap_right _).trans (List.Perm.of_eq ?_)
  rw [Dict.keys, List.flatMap_map]
  refine List.flatMap_congr fun p hp => ?_
  have hfile := (Dict.mem_items_iff_get? _ _ _).mp hp
  obtain ⟨f, hf, hname, hdump⟩ := exists_of_get?_dlqAfter hfile
  rw [hfile, Option.elim_some, ← hname, hdump, replayFile_dump (hregistered f hf), rowsFor_dump,
    if_pos rfl]
  simp [Effect.delivered]

/-- Names are distinct as channels and stamps are. -/
theorem nodup_names_iff :
    (flushes.map FailedFlush.name).Nodup ↔
      (flushes.map fun f => (f.channel, f.stamp)).Nodup := by
  have hinjective : Function.Injective fun p : String × ℤ => fileName p.1 p.2 := by
    intro p q h
    obtain ⟨hchannel, hstamp⟩ := fileName_inj h
    exact Prod.ext hchannel hstamp
  rw [← List.nodup_map_iff hinjective, List.map_map]
  rfl

/-- Rows that all arrive were in files of their own. -/
theorem distinct_of_delivered (hregistered : ∀ f ∈ flushes, f.channel ∈ registered)
    (hyoung : ∀ f ∈ flushes, now - maxAge ≤ f.mtime)
    (h : RoundTrip flushes (dlqAfter accepts flushes)
      (replayDlq registered (fun _ _ => true) now (dlqAfter accepts flushes))) :
    (∀ f ∈ flushes, accepts f.name = true) ∧ (flushes.map FailedFlush.name).Nodup := by
  refine distinct_of_length fun channel => ?_
  rw [← (delivered_replayDlq hregistered hyoung channel).length_eq]
  exact (h.delivered channel).length_eq

end Replay

/-- The dead letters come back exactly when every file could be made and no two batches of a
channel failed within the same millisecond. -/
theorem round_trip_iff (accepts : String → Bool) (registered : List String)
    (flushes : List FailedFlush) (now : ℚ)
    (hregistered : ∀ f ∈ flushes, f.channel ∈ registered)
    (hyoung : ∀ f ∈ flushes, now - maxAge ≤ f.mtime) :
    RoundTrip flushes (dlqAfter accepts flushes)
        (replayDlq registered (fun _ _ => true) now (dlqAfter accepts flushes)) ↔
      (∀ f ∈ flushes, accepts f.name = true) ∧
        (flushes.map fun f => (f.channel, f.stamp)).Nodup := by
  rw [← nodup_names_iff]
  constructor
  · exact distinct_of_delivered hregistered hyoung
  · rintro ⟨haccepts, hnodup⟩
    constructor
    · intro channel
      exact (delivered_replayDlq hregistered hyoung channel).trans
        (held_perm haccepts hnodup channel)
    · exact replayDlq_removesWritten hregistered hyoung

/-! ### The table of the writer -/

section Table

variable {accepts : String → Bool} {dir : DlqDir} {table : Dict ℤ (List Row)}

/-- The files of a channel by their stamp. -/
def Files (channel : String) (dir : DlqDir) (table : Dict ℤ (List Row)) : Prop :=
  ∀ stamp, (dir.get? (fileName channel stamp)).map DlqFile.content =
    (table.get? stamp).map fileText

/-- A whole dump of the writer's model is the dump into a file. -/
theorem Files.dump {c : StorageWriter.Channel Row} {flush : StorageWriter.Flush}
    {f : FailedFlush} (h : Files f.channel dir c.dlq) (haccepts : accepts f.name = true)
    (hrows : f.rows = c.pending) (hstamp : f.stamp = flush.stamp)
    (hwhole : flush.dumped = some c.pending.length) :
    Files f.channel (dumpToDlq accepts dir f) (c.dumpToDlq flush).dlq := by
  intro stamp
  rw [dumpToDlq_accepted haccepts, StorageWriter.Channel.dumpToDlq, hwhole, Dict.get?_set]
  dsimp only
  rw [Dict.get?_set, ← hstamp, List.take_length, ← hrows]
  by_cases hsame : stamp = f.stamp
  · have hname : fileName f.channel stamp = f.name := by rw [hsame, FailedFlush.name]
    rw [if_pos hsame, if_pos hname]
    rfl
  · have hname : fileName f.channel stamp ≠ f.name := fun hname => hsame (fileName_inj hname).2
    rw [if_neg hsame, if_neg hname]
    exact h stamp

/-- The files of the other channels stay as they are. -/
theorem Files.other {channel : String} {f : FailedFlush} (h : Files channel dir table)
    (hother : f.channel ≠ channel) : Files channel (dumpToDlq accepts dir f) table := by
  intro stamp
  by_cases haccepts : accepts f.name = true
  · have hname : fileName channel stamp ≠ f.name := fun hname =>
      hother (fileName_inj hname).1.symm
    rw [dumpToDlq_accepted haccepts, Dict.get?_set, if_neg hname]
    exact h stamp
  · rw [dumpToDlq_refused haccepts]
    exact h stamp

end Table

/-! ### Two failed batches -/

/-- A tick whose write failed at this time in ms. -/
def failedTick (channel : String) (time : ℚ) : FailedFlush where
  channel := channel
  rows := [[.str "XAUUSD", .int 2000, .foreign "2024-01-02 03:04:05+00:00"]]
  nonempty := List.cons_ne_nil _ _
  time := time / 1000
  mtime := time / 1000

/-- Two channels of which one name begins as the other. -/
theorem round_trip_ohlc :
    RoundTrip [failedTick "ohlc" 5, failedTick "ohlc_indicators" 5]
      (dlqAfter (fun _ => true) [failedTick "ohlc" 5, failedTick "ohlc_indicators" 5])
      (replayDlq ["ohlc", "ohlc_indicators"] (fun _ _ => true) 60
        (dlqAfter (fun _ => true) [failedTick "ohlc" 5, failedTick "ohlc_indicators" 5])) := by
  refine (round_trip_iff (fun _ => true) ["ohlc", "ohlc_indicators"]
    [failedTick "ohlc" 5, failedTick "ohlc_indicators" 5] 60 (by simp [failedTick])
    (by norm_num [failedTick, maxAge])).mpr ⟨fun _ _ => rfl, ?_⟩
  simp [failedTick]

/-- The first batch is lost. -/
theorem same_millisecond_loses :
    ¬ ∀ (registered : List String) (flushes : List FailedFlush) (now : ℚ),
      (∀ f ∈ flushes, f.channel ∈ registered) → (∀ f ∈ flushes, now - maxAge ≤ f.mtime) →
        RoundTrip flushes (dlqAfter (fun _ => true) flushes)
          (replayDlq registered (fun _ _ => true) now (dlqAfter (fun _ => true) flushes)) := by
  intro hclaim
  have hregistered : ∀ f ∈ [failedTick "ticks" 5, failedTick "ticks" 5],
      f.channel ∈ ["ticks"] := by simp [failedTick]
  have hyoung : ∀ f ∈ [failedTick "ticks" 5, failedTick "ticks" 5],
      60 - maxAge ≤ f.mtime := by norm_num [failedTick, maxAge]
  have hdistinct := distinct_of_delivered hregistered hyoung
    (hclaim ["ticks"] [failedTick "ticks" 5, failedTick "ticks" 5] 60 hregistered hyoung)
  simpa using hdistinct.2

end MT5Services.DeadLetters
