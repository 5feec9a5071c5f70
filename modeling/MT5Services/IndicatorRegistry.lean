import MT5Services.IndicatorPipeline
import Mathlib.Data.Finset.Basic

/-!
The registry of `UnifiedIndicatorManager`: the list of indicator configurations, the table
of loaded functions, the dependency manager, the incremental instances and two eligibility
caches. Every mutation stores the configuration first and then rebuilds the rest by one loop
that clears the table, only adds edges, may raise in the middle and leaves the eligible names
empty at its end.
-/
namespace MT5Services.IndicatorRegistry

open DependencyGraph
open IndicatorPipeline (Incremental registerIncremental)
open Runs

inductive ComputeMode
  | standard
  | incremental
  | parallel
  deriving DecidableEq, Repr

/-- `ref` is the identity of the object: an update changes every place it stands at. -/
structure IndicatorConfig (P : Type*) where
  ref : ℕ
  name : String
  funcPath : String
  params : P
  dependencies : List String := []
  computeMode : ComputeMode := .standard
  display : Bool := false
  description : String := ""
  tags : List String := []
  deltaBars : List ℤ := []
  cacheTtl : Option ℚ := none
  deriving DecidableEq

/-- The keyword arguments of `update_indicator` that are fields. -/
structure Changes (P : Type*) where
  name : Option String := none
  funcPath : Option String := none
  params : Option P := none
  dependencies : Option (List String) := none
  computeMode : Option ComputeMode := none
  display : Option Bool := none
  description : Option String := none
  tags : Option (List String) := none
  deltaBars : Option (List ℤ) := none
  cacheTtl : Option (Option ℚ) := none
  deriving DecidableEq

variable {F P C : Type*}

def Changes.apply (changes : Changes P) (config : IndicatorConfig P) : IndicatorConfig P :=
  { config with
    name := changes.name.getD config.name
    funcPath := changes.funcPath.getD config.funcPath
    params := changes.params.getD config.params
    dependencies := changes.dependencies.getD config.dependencies
    computeMode := changes.computeMode.getD config.computeMode
    display := changes.display.getD config.display
    description := changes.description.getD config.description
    tags := changes.tags.getD config.tags
    deltaBars := changes.deltaBars.getD config.deltaBars
    cacheTtl := changes.cacheTtl.getD config.cacheTtl }

/-- What Python finds under a function path, `none` where the split, the import or the lookup
raises, and whether the constructor of an incremental class goes through. -/
structure Modules (F P C : Type*) where
  func : String → Option F
  incrementalClass : String → Option C
  constructs : C → P → Bool

structure Manager (F P C : Type*) where
  config : List (IndicatorConfig P) := []
  indicatorFuncs : Dict String F := Dict.empty
  dependencyManager : DependencyManager F P := {}
  incrementalIndicators : Dict String (Incremental P C) := Dict.empty
  intrabarEligibleCache : Option (Finset String) := none
  confirmedEligibleCache : Option (Finset String) := none

def registeredNames (config : List (IndicatorConfig P)) : Finset String :=
  (config.map IndicatorConfig.name).toFinset

/-- `ConfigManager.add_indicator`: in the place of the first entry with its name. -/
def addConfig : List (IndicatorConfig P) → IndicatorConfig P → List (IndicatorConfig P)
  | [], config => [config]
  | existing :: rest, config =>
    if existing.name = config.name then config :: rest else existing :: addConfig rest config

/-- The live object is changed before it is stored. -/
def updateConfig (configs : List (IndicatorConfig P)) (config : IndicatorConfig P)
    (changes : Changes P) : List (IndicatorConfig P) :=
  addConfig (configs.map fun other => if other.ref = config.ref then changes.apply config else other)
    (changes.apply config)

def loadIncrementalClass (env : Modules F P C) (config : IndicatorConfig P) : Option C :=
  if config.computeMode = .incremental then env.incrementalClass config.funcPath else none

namespace Manager

def setConfirmedEligibleOverride (m : Manager F P C) (names : Finset String) : Manager F P C :=
  { m with confirmedEligibleCache := some (names ∩ registeredNames m.config) }

def setIntrabarEligibleOverride (m : Manager F P C) (names : Finset String) : Manager F P C :=
  { m with intrabarEligibleCache := some (names ∩ registeredNames m.config) }

def getIntrabarEligibleNames (m : Manager F P C) : Finset String :=
  m.intrabarEligibleCache.getD ∅

def removeIndicator (m : Manager F P C) (name : String) : Manager F P C × Bool :=
  if m.config.any fun config => config.name = name then
    ({ m with
        config := m.config.eraseP fun config => config.name = name
        dependencyManager := (m.dependencyManager.removeIndicator name).2
        indicatorFuncs := m.indicatorFuncs.pop name }, true)
  else (m, false)

end Manager

section Registration

variable [DecidableEq P] [DecidableEq C]

/-- `register_indicator` for the incremental instances; `none` where the constructor raises. -/
def registerInstance (env : Modules F P C) (instances : Dict String (Incremental P C))
    (config : IndicatorConfig P) : Option (Dict String (Incremental P C)) :=
  match loadIncrementalClass env config with
  | none => some instances
  | some newClass =>
    if env.constructs newClass config.params then
      some (instances.set config.name
        (registerIncremental (instances.get? config.name) newClass config.params))
    else none

/-- The age limit of an earlier registration stays where the configuration sets none. -/
def setCacheTtl (m : DependencyManager F P) (config : IndicatorConfig P) : DependencyManager F P :=
  match config.cacheTtl with
  | none => m
  | some ttl => { m with indicatorCacheTtl := m.indicatorCacheTtl.set config.name ttl }

/-- One turn of the loop of `_register_indicators`; the flag is false where it raises. -/
def registerOne (env : Modules F P C) (m : Manager F P C) (config : IndicatorConfig P) :
    Manager F P C × Bool :=
  match (m.indicatorFuncs.get? config.name).or (env.func config.funcPath) with
  | none => (m, false)
  | some func =>
    let added := m.dependencyManager.addIndicator config.name func config.params
      config.dependencies
    match registerInstance env m.incrementalIndicators config with
    | none => ({ m with dependencyManager := added }, false)
    | some instances =>
      ({ m with
          dependencyManager := setCacheTtl added config
          incrementalIndicators := instances
          indicatorFuncs := m.indicatorFuncs.set config.name func }, true)

def registerAll (env : Modules F P C) : Manager F P C → List (IndicatorConfig P) →
    Manager F P C × Bool
  | m, [] => (m, true)
  | m, config :: rest =>
    match registerOne env m config with
    | (t, true) => registerAll env t rest
    | (t, false) => (t, false)

def registerIndicators (env : Modules F P C) (m : Manager F P C) : Manager F P C × Bool :=
  let cleared := { m with indicatorFuncs := Dict.empty, intrabarEligibleCache := none }
  match registerAll env cleared m.config with
  | (t, true) => ({ t with intrabarEligibleCache := some ∅ }, true)
  | (t, false) => (t, false)

namespace Manager

def addIndicator (env : Modules F P C) (m : Manager F P C) (config : IndicatorConfig P) :
    Manager F P C × Bool :=
  registerIndicators env { m with config := addConfig m.config config }

def updateIndicator (env : Modules F P C) (m : Manager F P C) (name : String)
    (changes : Changes P) : Manager F P C × Bool :=
  match m.config.find? (·.name = name) with
  | none => (m, false)
  | some config => registerIndicators env { m with config := updateConfig m.config config changes }

/-- A hot reload, and the constructor: the dependency manager starts anew. -/
def reinitialize (env : Modules F P C) (m : Manager F P C) (config : List (IndicatorConfig P)) :
    Manager F P C × Bool :=
  registerIndicators env
    { m with config := config, dependencyManager := m.dependencyManager.clear }

end Manager

end Registration

inductive Act (P : Type*)
  | setConfirmed (names : Finset String)
  | setIntrabar (names : Finset String)
  | add (config : IndicatorConfig P)
  | update (name : String) (changes : Changes P)
  | remove (name : String)
  | reload (config : List (IndicatorConfig P))

/-- The manager with the last intrabar override. -/
structure State (F P C : Type*) where
  manager : Manager F P C
  lastOverride : Finset String := ∅

section Acts

variable [DecidableEq P] [DecidableEq C]

/-- The manager after a call and what the call returns. -/
def perform (env : Modules F P C) (m : Manager F P C) : Act P → Manager F P C × Bool
  | .setConfirmed names => (m.setConfirmedEligibleOverride names, true)
  | .setIntrabar names => (m.setIntrabarEligibleOverride names, true)
  | .add config => m.addIndicator env config
  | .update name changes => m.updateIndicator env name changes
  | .remove name => m.removeIndicator name
  | .reload config => m.reinitialize env config

def State.after (env : Modules F P C) (s : State F P C) (act : Act P) : State F P C :=
  { manager := (perform env s.manager act).1
    lastOverride :=
      match act with
      | .setIntrabar names => names
      | _ => s.lastOverride }

/-- An object that is passed again has the fields it has where it stands. -/
def step (env : Modules F P C) (s : State F P C) (act : Act P) : Option (State F P C) :=
  match act with
  | .add config =>
    if ∀ other ∈ s.manager.config, other.ref = config.ref → other = config then
      some (s.after env act)
    else none
  | _ => some (s.after env act)

/-- The constructor, which raises where a registration does. -/
def construct (env : Modules F P C) (config : List (IndicatorConfig P)) : Option (State F P C) :=
  match Manager.reinitialize env {} config with
  | (m, true) => some { manager := m }
  | (_, false) => none

end Acts

def Declares (config : List (IndicatorConfig P)) (name dependsOn : String) : Prop :=
  ∃ entry ∈ config, entry.name = name ∧ dependsOn ∈ entry.dependencies

instance (config : List (IndicatorConfig P)) (name dependsOn : String) :
    Decidable (Declares config name dependsOn) :=
  inferInstanceAs (Decidable (∃ entry ∈ config, _ ∧ _))

def EligibleAgrees (s : State F P C) : Prop :=
  s.manager.getIntrabarEligibleNames = s.lastOverride ∩ registeredNames s.manager.config

instance (s : State F P C) : Decidable (EligibleAgrees s) := inferInstanceAs (Decidable (_ = _))

def GraphAgrees (m : Manager F P C) : Prop :=
  ∀ name dependsOn, m.dependencyManager.DependsOn name dependsOn ↔ Declares m.config name dependsOn

/-- Configurations, functions, graph and eligible names are the same. -/
structure Unchanged (m t : Manager F P C) : Prop where
  config : t.config = m.config
  indicatorFuncs : t.indicatorFuncs = m.indicatorFuncs
  graph : t.dependencyManager.graph = m.dependencyManager.graph
  intrabar : t.intrabarEligibleCache = m.intrabarEligibleCache
  confirmed : t.confirmedEligibleCache = m.confirmedEligibleCache

/-- A call leaves the registry consistent, and an addition or update that returns `False`
leaves it as it was. -/
structure Consistent [DecidableEq P] [DecidableEq C] (env : Modules F P C) (s : State F P C)
    (act : Act P) : Prop where
  eligible : EligibleAgrees (s.after env act)
  graph : GraphAgrees (s.after env act).manager
  failed : ((∃ config, act = .add config) ∨ ∃ name changes, act = .update name changes) →
    (perform env s.manager act).2 = false → Unchanged s.manager (s.after env act).manager

def Registers (env : Modules F P C) (config : IndicatorConfig P) : Prop :=
  (env.func config.funcPath).isSome = true ∧
    ∀ newClass ∈ loadIncrementalClass env config, env.constructs newClass config.params = true

instance (env : Modules F P C) (config : IndicatorConfig P) : Decidable (Registers env config) :=
  inferInstanceAs (Decidable (_ ∧ _))

/-- All entries register, none depends on itself, and none of them is in the last override. -/
structure Loads (env : Modules F P C) (s : State F P C) (config : List (IndicatorConfig P)) :
    Prop where
  registers : ∀ entry ∈ config, Registers env entry
  noSelf : ∀ entry ∈ config, entry.name ∉ entry.dependencies
  override : s.lastOverride ∩ registeredNames config = ∅

instance (env : Modules F P C) (s : State F P C) (config : List (IndicatorConfig P)) :
    Decidable (Loads env s config) :=
  decidable_of_iff
    ((∀ entry ∈ config, Registers env entry) ∧ (∀ entry ∈ config, entry.name ∉ entry.dependencies) ∧
      s.lastOverride ∩ registeredNames config = ∅)
    ⟨fun h => ⟨h.1, h.2.1, h.2.2⟩, fun h => ⟨h.registers, h.noSelf, h.override⟩⟩

/-- No dependency that is declared now is left out. -/
def KeepsDependencies (old config : List (IndicatorConfig P)) : Prop :=
  ∀ entry ∈ old, ∀ dependsOn ∈ entry.dependencies, Declares config entry.name dependsOn

instance (old config : List (IndicatorConfig P)) : Decidable (KeepsDependencies old config) :=
  inferInstanceAs (Decidable (∀ entry ∈ old, ∀ dependsOn ∈ entry.dependencies, _))

/-- An indicator is removed that no other depends on and that is not in the last override. -/
def RemovesLeaf (s : State F P C) (name : String) : Prop :=
  (∀ entry ∈ s.manager.config.eraseP (·.name = name),
    (entry.name = name → entry.dependencies = []) ∧ name ∉ entry.dependencies) ∧
  s.lastOverride ∩ registeredNames (s.manager.config.eraseP (·.name = name)) =
    s.lastOverride ∩ registeredNames s.manager.config

instance (s : State F P C) (name : String) : Decidable (RemovesLeaf s name) :=
  inferInstanceAs (Decidable (_ ∧ _))

def Safe (env : Modules F P C) (s : State F P C) : Act P → Prop
  | .setConfirmed _ | .setIntrabar _ => True
  | .add config =>
    Loads env s (addConfig s.manager.config config) ∧
      KeepsDependencies s.manager.config (addConfig s.manager.config config)
  | .update name changes =>
    ∀ config ∈ s.manager.config.find? (·.name = name),
      Loads env s (updateConfig s.manager.config config changes) ∧
        KeepsDependencies s.manager.config (updateConfig s.manager.config config changes)
  | .remove name => RemovesLeaf s name
  | .reload config => Loads env s config

instance (env : Modules F P C) (s : State F P C) : ∀ act, Decidable (Safe env s act)
  | .setConfirmed _ | .setIntrabar _ => inferInstanceAs (Decidable True)
  | .add _ => inferInstanceAs (Decidable (_ ∧ _))
  | .update name changes =>
    inferInstanceAs (Decidable (∀ config ∈ s.manager.config.find? (·.name = name),
      Loads env s (updateConfig s.manager.config config changes) ∧
        KeepsDependencies s.manager.config (updateConfig s.manager.config config changes)))
  | .remove name => inferInstanceAs (Decidable (RemovesLeaf s name))
  | .reload config => inferInstanceAs (Decidable (Loads env s config))

/-- Only the age limits are touched. -/
theorem setCacheTtl_eq (m : DependencyManager F P) (config : IndicatorConfig P) :
    ∃ ttl, setCacheTtl m config = { m with indicatorCacheTtl := ttl } := by
  unfold setCacheTtl
  split
  · exact ⟨_, rfl⟩
  · exact ⟨_, rfl⟩

/-- The registry between two calls. -/
structure Sound (s : State F P C) : Prop where
  eligible : EligibleAgrees s
  inverse : s.manager.dependencyManager.Inverse
  graph : GraphAgrees s.manager
  known : ∀ entry ∈ s.manager.config, s.manager.dependencyManager.Known entry.name

theorem declares_ne {config : List (IndicatorConfig P)}
    (h : ∀ entry ∈ config, entry.name ∉ entry.dependencies) {a b : String}
    (hdeclares : Declares config a b) : a ≠ b := by
  rintro rfl
  obtain ⟨entry, hentry, rfl, hmem⟩ := hdeclares
  exact h entry hentry hmem

theorem RemovesLeaf.declares_iff {s : State F P C} (hs : Sound s) {name : String}
    (hleaf : RemovesLeaf s name) (a b : String) :
    Declares (s.manager.config.eraseP (·.name = name)) a b ↔
      s.manager.dependencyManager.DependsOn a b ∧ a ≠ name ∧ b ≠ name := by
  rw [hs.graph]
  constructor
  · rintro ⟨other, hother, rfl, hb⟩
    obtain ⟨hempty, hfree⟩ := hleaf.1 other hother
    refine ⟨⟨other, List.mem_of_mem_eraseP hother, rfl, hb⟩, ?_, ?_⟩
    · intro hsame
      rw [hempty hsame] at hb
      exact List.not_mem_nil hb
    · rintro rfl
      exact hfree hb
  · rintro ⟨⟨other, hother, rfl, hb⟩, ha, -⟩
    refine ⟨other, ?_, rfl, hb⟩
    exact (List.mem_eraseP_of_neg (by simpa using ha)).mpr hother

theorem remove_sound {s : State F P C} (hs : Sound s) {name : String} (hleaf : RemovesLeaf s name) :
    Sound { manager := (s.manager.removeIndicator name).1, lastOverride := s.lastOverride } := by
  unfold Manager.removeIndicator
  by_cases hany : s.manager.config.any (·.name = name) = true
  · rw [if_pos hany]
    obtain ⟨gone, hgone, hname⟩ := List.any_eq_true.mp hany
    have hknown : s.manager.dependencyManager.Known name := by
      rw [← of_decide_eq_true hname]
      exact hs.known gone hgone
    refine ⟨?_, hs.inverse.removeIndicator name, ?_, ?_⟩
    · exact Eq.trans hs.eligible hleaf.2.symm
    · intro a b
      exact (hs.inverse.depends_removeIndicator hknown a b).trans
        (hleaf.declares_iff hs a b).symm
    · intro other hother
      exact hknown.removeIndicator hs.inverse (hs.known other (List.mem_of_mem_eraseP hother))
  · rw [if_neg hany]
    exact hs

/-- A rebuild that does not raise: the graph only grows and no name is eligible. -/
structure Rebuilt (m t : Manager F P C) : Prop where
  config : t.config = m.config
  intrabar : t.intrabarEligibleCache = some ∅
  graph : ∀ a b, t.dependencyManager.DependsOn a b ↔
    m.dependencyManager.DependsOn a b ∨ (Declares m.config a b ∧ a ≠ b)
  known : ∀ entry ∈ m.config, t.dependencyManager.indicatorFuncs.contains entry.name = true
  inverse : m.dependencyManager.Inverse → t.dependencyManager.Inverse

/-- A rebuild with a configuration that loads and drops no edge of the graph. -/
theorem Rebuilt.sound {env : Modules F P C} {s : State F P C} {m t : Manager F P C}
    (h : Rebuilt m t) (hinverse : m.dependencyManager.Inverse) (hloads : Loads env s m.config)
    (hgraph : ∀ a b, m.dependencyManager.DependsOn a b → Declares m.config a b) :
    Sound { manager := t, lastOverride := s.lastOverride } := by
  refine ⟨?_, h.inverse hinverse, ?_, ?_⟩
  · change t.intrabarEligibleCache.getD ∅ = s.lastOverride ∩ registeredNames t.config
    rw [h.intrabar, h.config, hloads.override]
    rfl
  · intro a b
    change t.dependencyManager.DependsOn a b ↔ Declares t.config a b
    rw [h.graph, h.config]
    constructor
    · rintro (hold | hdeclared)
      · exact hgraph a b hold
      · exact hdeclared.1
    · intro hdeclared
      exact Or.inr ⟨hdeclared, declares_ne hloads.noSelf hdeclared⟩
  · intro entry hentry
    rw [h.config] at hentry
    exact Or.inl (h.known entry hentry)

section Registration

variable [DecidableEq P] [DecidableEq C]

variable {m : Manager F P C}

/-- What every addition keeps of the dependency manager the loop keeps, also where it raises. -/
theorem registerAll_keeps (env : Modules F P C) {I : DependencyManager F P → Prop}
    (hadd : ∀ m name func params dependencies,
      I m → I (m.addIndicator name func params dependencies))
    (httl : ∀ m ttl, I m → I { m with indicatorCacheTtl := ttl })
    (entries : List (IndicatorConfig P)) (h : I m.dependencyManager) :
    I (registerAll env m entries).1.dependencyManager := by
  induction entries generalizing m with
  | nil => exact h
  | cons entry rest ih =>
    have hone : I (registerOne env m entry).1.dependencyManager := by
      unfold registerOne
      split
      · exact h
      · next func _ =>
        have hadded := hadd m.dependencyManager entry.name func entry.params
          entry.dependencies h
        dsimp only
        split
        · exact hadded
        · obtain ⟨ttl, hset⟩ := setCacheTtl_eq (m.dependencyManager.addIndicator entry.name func
            entry.params entry.dependencies) entry
          dsimp only
          rw [hset]
          exact httl _ ttl hadded
    unfold registerAll
    split
    · next t heq =>
      rw [heq] at hone
      exact ih hone
    · next t heq =>
      rw [heq] at hone
      exact hone

theorem registerIndicators_keeps (env : Modules F P C) {I : DependencyManager F P → Prop}
    (hadd : ∀ m name func params dependencies,
      I m → I (m.addIndicator name func params dependencies))
    (httl : ∀ m ttl, I m → I { m with indicatorCacheTtl := ttl })
    (h : I m.dependencyManager) : I (registerIndicators env m).1.dependencyManager := by
  have hall := registerAll_keeps env hadd httl m.config
    (m := { m with indicatorFuncs := Dict.empty, intrabarEligibleCache := none }) h
  unfold registerIndicators
  dsimp only
  split
  · next t heq =>
    rw [heq] at hall
    exact hall
  · next t heq =>
    rw [heq] at hall
    exact hall

/-- What the loop brings about over a list of entries, when it does not raise. -/
structure Registered (m t : Manager F P C) (entries : List (IndicatorConfig P)) : Prop where
  config : t.config = m.config
  intrabar : t.intrabarEligibleCache = m.intrabarEligibleCache
  graph : ∀ a b, t.dependencyManager.DependsOn a b ↔ m.dependencyManager.DependsOn a b ∨
    ∃ entry ∈ entries, entry.name = a ∧ b ∈ entry.dependencies ∧ a ≠ b
  known : ∀ name, m.dependencyManager.indicatorFuncs.contains name = true ∨
      name ∈ entries.map IndicatorConfig.name →
    t.dependencyManager.indicatorFuncs.contains name = true

variable {env : Modules F P C} {t : Manager F P C}

theorem registerOne_spec {entry : IndicatorConfig P}
    (h : registerOne env m entry = (t, true)) : Registered m t [entry] := by
  unfold registerOne at h
  split at h
  · cases h
  · next func _ =>
    dsimp only at h
    split at h
    · cases h
    · cases h
      obtain ⟨ttl, hset⟩ := setCacheTtl_eq (m.dependencyManager.addIndicator entry.name func
        entry.params entry.dependencies) entry
      refine ⟨rfl, rfl, ?_, ?_⟩
      · intro a b
        dsimp only
        rw [hset]
        refine (DependencyManager.depends_addIndicator _ _ func entry.params _ a b).trans ?_
        apply or_congr_right
        constructor
        · rintro ⟨rfl, hb, hne⟩
          exact ⟨entry, List.mem_singleton_self entry, rfl, hb, hne⟩
        · rintro ⟨other, hother, rfl, hb, hne⟩
          obtain rfl := List.mem_singleton.mp hother
          exact ⟨rfl, hb, hne⟩
      · intro name hname
        dsimp only
        rw [hset]
        dsimp only
        rw [(DependencyManager.addIndicator_tables _ _ func entry.params _).2.1, Dict.contains,
          Dict.get?_set]
        by_cases hself : name = entry.name
        · rw [if_pos hself]
          rfl
        · rw [if_neg hself]
          refine hname.resolve_right ?_
          rw [List.map_singleton, List.mem_singleton]
          exact hself

theorem registerAll_spec
    {entries : List (IndicatorConfig P)} (h : registerAll env m entries = (t, true)) :
    Registered m t entries := by
  induction entries generalizing m with
  | nil =>
    cases h
    refine ⟨rfl, rfl, ?_, ?_⟩
    · intro a b
      simp
    · intro name hname
      exact hname.resolve_right List.not_mem_nil
  | cons entry rest ih =>
    rw [registerAll] at h
    split at h
    · rename_i middle hmiddle
      have hone := registerOne_spec hmiddle
      have hrest := ih h
      refine ⟨hrest.config.trans hone.config, hrest.intrabar.trans hone.intrabar, ?_, ?_⟩
      · intro a b
        rw [hrest.graph, hone.graph, or_assoc]
        apply or_congr_right
        simp only [List.mem_cons, exists_eq_or_imp, List.not_mem_nil, or_false,
          exists_eq_left]
      · intro name hname
        apply hrest.known name
        rcases hname with hold | hnew
        · exact Or.inl (hone.known name (Or.inl hold))
        · rcases List.mem_cons.mp hnew with hself | hlater
          · exact Or.inl (hone.known name (Or.inr (List.mem_singleton.mpr hself)))
          · exact Or.inr hlater
    · cases h

theorem registerOne_succeeds (env : Modules F P C) (m : Manager F P C)
    {entry : IndicatorConfig P} (h : Registers env entry) :
    ∃ t, registerOne env m entry = (t, true) := by
  obtain ⟨hload, hconstructs⟩ := h
  obtain ⟨loaded, hload⟩ := Option.isSome_iff_exists.mp hload
  obtain ⟨func, hfunc⟩ : ∃ func, (m.indicatorFuncs.get? entry.name).or
      (env.func entry.funcPath) = some func := by
    rw [hload]
    cases m.indicatorFuncs.get? entry.name with
    | none => exact ⟨loaded, rfl⟩
    | some cached => exact ⟨cached, rfl⟩
  obtain ⟨instances, hinstances⟩ : ∃ instances,
      registerInstance env m.incrementalIndicators entry = some instances := by
    unfold registerInstance
    cases hclass : loadIncrementalClass env entry with
    | none => exact ⟨_, rfl⟩
    | some newClass => exact ⟨_, if_pos (hconstructs newClass hclass)⟩
  unfold registerOne
  rw [hfunc]
  dsimp only
  rw [hinstances]
  exact ⟨_, rfl⟩

/-- The loop does not raise where every entry registers. -/
theorem registerAll_succeeds (env : Modules F P C) (m : Manager F P C)
    {entries : List (IndicatorConfig P)} (h : ∀ entry ∈ entries, Registers env entry) :
    (registerAll env m entries).2 = true := by
  induction entries generalizing m with
  | nil => rfl
  | cons entry rest ih =>
    obtain ⟨t, ht⟩ := registerOne_succeeds env m (h entry List.mem_cons_self)
    rw [registerAll, ht]
    exact ih t fun other hother => h other (List.mem_cons_of_mem entry hother)

theorem registerIndicators_spec (h : registerIndicators env m = (t, true)) : Rebuilt m t := by
  have hinverse : m.dependencyManager.Inverse → t.dependencyManager.Inverse := by
    intro hm
    have hkept := registerIndicators_keeps env
      (fun _ name func params dependencies h => h.addIndicator name func params dependencies)
      (fun _ ttl h => h.withTtl ttl) hm
    rwa [h] at hkept
  unfold registerIndicators at h
  dsimp only at h
  split at h
  · rename_i u hu
    cases h
    have hall := registerAll_spec hu
    refine ⟨hall.config, rfl, ?_, ?_, hinverse⟩
    · intro a b
      rw [hall.graph]
      apply or_congr_right
      constructor
      · rintro ⟨entry, hentry, hname, hb, hne⟩
        exact ⟨⟨entry, hentry, hname, hb⟩, hne⟩
      · rintro ⟨⟨entry, hentry, hname, hb⟩, hne⟩
        exact ⟨entry, hentry, hname, hb, hne⟩
    · intro entry hentry
      exact hall.known entry.name (Or.inr (List.mem_map.mpr ⟨entry, hentry, rfl⟩))
  · cases h

theorem registerIndicators_succeeds (env : Modules F P C)
    (h : ∀ entry ∈ m.config, Registers env entry) : ∃ t, registerIndicators env m = (t, true) := by
  unfold registerIndicators
  dsimp only
  split
  · exact ⟨_, rfl⟩
  · rename_i u hu
    have htrue := registerAll_succeeds env
      { m with indicatorFuncs := Dict.empty, intrabarEligibleCache := none } h
    rw [hu] at htrue
    cases htrue

variable {s : State F P C} {config : List (IndicatorConfig P)}

/-- An addition or update of a sound registry, with the new configuration in its place. -/
theorem rebuild_sound (hs : Sound s) (hloads : Loads env s config)
    (hkeeps : KeepsDependencies s.manager.config config) :
    ∃ t, registerIndicators env { s.manager with config := config } = (t, true) ∧
      Sound { manager := t, lastOverride := s.lastOverride } := by
  obtain ⟨t, ht⟩ := registerIndicators_succeeds env (m := { s.manager with config := config })
    hloads.registers
  refine ⟨t, ht, (registerIndicators_spec ht).sound hs.inverse hloads ?_⟩
  intro a b hdepends
  obtain ⟨entry, hentry, rfl, hmem⟩ := (hs.graph a b).mp hdepends
  exact hkeeps entry hentry b hmem

/-- An update of an unknown name returns `False` and does nothing; any other rebuilds. -/
theorem update_sound (hs : Sound s) {name : String}
    {changes : Changes P} (hsafe : Safe env s (.update name changes)) :
    s.manager.updateIndicator env name changes = (s.manager, false) ∨
      ∃ t, s.manager.updateIndicator env name changes = (t, true) ∧
        Sound { manager := t, lastOverride := s.lastOverride } := by
  cases hfind : s.manager.config.find? (·.name = name) with
  | none =>
    left
    simp only [Manager.updateIndicator, hfind]
  | some config =>
    obtain ⟨hloads, hkeeps⟩ := hsafe config hfind
    obtain ⟨t, ht, hsound⟩ := rebuild_sound hs hloads hkeeps
    right
    refine ⟨t, ?_, hsound⟩
    simp only [Manager.updateIndicator, hfind]
    exact ht

theorem reload_sound (m : Manager F P C) (hloads : Loads env s config) :
    ∃ t, m.reinitialize env config = (t, true) ∧
      Sound { manager := t, lastOverride := s.lastOverride } := by
  obtain ⟨t, ht⟩ := registerIndicators_succeeds env
    (m := { m with config := config, dependencyManager := m.dependencyManager.clear })
    hloads.registers
  refine ⟨t, ht, (registerIndicators_spec ht).sound
    ( DependencyManager.empty_inverse _) hloads ?_⟩
  intro a b hdepends
  exact absurd hdepends List.not_mem_nil

variable {act : Act P}

theorem Sound.after (hs : Sound s) (hsafe : Safe env s act) : Sound (s.after env act) := by
  cases act with
  | setConfirmed names => exact ⟨hs.eligible, hs.inverse, hs.graph, hs.known⟩
  | setIntrabar names => exact ⟨rfl, hs.inverse, hs.graph, hs.known⟩
  | add config =>
    obtain ⟨t, ht, hsound⟩ := rebuild_sound hs hsafe.1 hsafe.2
    change Sound { manager := (s.manager.addIndicator env config).1, lastOverride := s.lastOverride }
    rw [Manager.addIndicator, ht]
    exact hsound
  | update name changes =>
    change Sound { manager := (s.manager.updateIndicator env name changes).1
                   lastOverride := s.lastOverride }
    rcases update_sound hs hsafe with hsame | ⟨t, ht, hsound⟩
    · rw [hsame]
      exact hs
    · rw [ht]
      exact hsound
  | remove name => exact remove_sound hs hsafe
  | reload config =>
    obtain ⟨t, ht, hsound⟩ := reload_sound s.manager hsafe
    change Sound { manager := ( Manager.reinitialize env s.manager config).1
                   lastOverride := s.lastOverride }
    rw [ht]
    exact hsound

theorem Sound.consistent (hs : Sound s) (hsafe : Safe env s act) : Consistent env s act := by
  have hafter := hs.after hsafe
  refine ⟨hafter.eligible, hafter.graph, ?_⟩
  rintro (⟨config, rfl⟩ | ⟨name, changes, rfl⟩) hfalse
  · obtain ⟨t, ht, -⟩ := rebuild_sound hs hsafe.1 hsafe.2
    have htrue : (perform env s.manager (.add config)).2 = true := congrArg Prod.snd ht
    rw [htrue] at hfalse
    cases hfalse
  · rcases update_sound hs hsafe with hsame | ⟨t, ht, -⟩
    · have hmanager : (s.after env (.update name changes)).manager = s.manager :=
        congrArg Prod.fst hsame
      rw [hmanager]
      exact ⟨rfl, rfl, rfl, rfl, rfl⟩
    · have htrue : (perform env s.manager (.update name changes)).2 = true := congrArg Prod.snd ht
      rw [htrue] at hfalse
      cases hfalse

theorem construct_sound
    (h : construct env config = some s) (hself : ∀ entry ∈ config, entry.name ∉ entry.dependencies) :
    Sound s := by
  unfold construct at h
  split at h
  · rename_i m hm
    cases h
    have hrebuilt := registerIndicators_spec hm
    have hconfig : m.config = config := hrebuilt.config
    refine ⟨?_, hrebuilt.inverse ( DependencyManager.empty_inverse _), ?_, ?_⟩
    · change m.intrabarEligibleCache.getD ∅ = ∅ ∩ _
      rw [hrebuilt.intrabar, Finset.empty_inter]
      rfl
    · intro a b
      change m.dependencyManager.DependsOn a b ↔ Declares m.config a b
      rw [hrebuilt.graph, hconfig]
      constructor
      · rintro (hold | hdeclared)
        · exact absurd hold List.not_mem_nil
        · exact hdeclared.1
      · intro hdeclared
        exact Or.inr ⟨hdeclared, declares_ne hself hdeclared⟩
    · intro entry hentry
      change entry ∈ m.config at hentry
      rw [hconfig] at hentry
      exact Or.inl (hrebuilt.known entry hentry)
  · cases h

theorem step_eq_after {s t : State F P C} (h : step env s act = some t) : t = s.after env act := by
  cases act with
  | add config =>
    rw [step] at h
    split at h
    · exact (Option.some.inj h).symm
    · cases h
  | setConfirmed names => exact (Option.some.inj h).symm
  | setIntrabar names => exact (Option.some.inj h).symm
  | update name changes => exact (Option.some.inj h).symm
  | remove name => exact (Option.some.inj h).symm
  | reload config => exact (Option.some.inj h).symm

/-- Any calls in any order on a manager whose first configuration has no self-dependency. -/
theorem registry_consistent (env : Modules F P C) (config : List (IndicatorConfig P))
    (hself : ∀ entry ∈ config, entry.name ∉ entry.dependencies) (s : State F P C)
    (hstart : construct env config = some s) (acts : List (Act P))
    (hsafe : Along (step env) (Safe env) s acts) : Along (step env) (Consistent env) s acts :=
  along_of_invariant (fun _ _ _ hs hact hstep => step_eq_after hstep ▸ hs.after hact)
    (fun _ _ hs hact => hs.consistent hact) (construct_sound hstart hself) hsafe

end Registration

/-- Every path but one is found. -/
def someModules : Modules ℕ Unit Unit where
  func := fun path => if path = "src.indicators.missing.ema" then none else some 0
  incrementalClass := fun _ => none
  constructs := fun _ _ => true

def indicator (ref : ℕ) (name : String) (dependencies : List String) : IndicatorConfig Unit where
  ref := ref
  name := name
  funcPath := "src.indicators.core.mean." ++ name
  params := ()
  dependencies := dependencies

/-- An addition, an update that adds a dependency, an update of an unknown name, an override,
the removal of an indicator nothing depends on, and a reload. -/
def safeActs : List (Act Unit) :=
  [.add (indicator 2 "sma" []), .update "sma" { dependencies := some ["ema"] },
    .update "wma" {}, .setIntrabar {"ema", "rsi"}, .remove "sma", .reload [indicator 3 "atr" []]]

theorem safeActs_consistent :
    ∃ s, construct someModules [indicator 1 "ema" []] = some s ∧
      Along (step someModules) (Consistent someModules) s safeActs :=
  ⟨_, rfl, registry_consistent someModules [indicator 1 "ema" []] (by decide) _ rfl safeActs
    (by decide +kernel)⟩

/-- An override is lost by an addition, an edge outlives its declaration, and an addition that
returns `False` leaves its configuration behind. -/
theorem registry_inconsistent :
    (∃ s, construct someModules [indicator 1 "sma" []] = some s ∧
      ¬ Along (step someModules) (Consistent someModules) s
        [.setIntrabar {"sma"}, .add (indicator 2 "ema" [])]) ∧
    (∃ s, construct someModules [indicator 1 "sma" [], indicator 2 "ema" ["sma"]] = some s ∧
      ¬ Along (step someModules) (Consistent someModules) s
        [.update "ema" { dependencies := some [] }]) ∧
    ∃ s, construct someModules [indicator 1 "sma" []] = some s ∧
      ¬ Along (step someModules) (Consistent someModules) s
        [.add { indicator 2 "ema" [] with funcPath := "src.indicators.missing.ema" }] := by
  refine ⟨⟨_, rfl, ?_⟩, ⟨_, rfl, ?_⟩, ⟨_, rfl, ?_⟩⟩
  · intro h
    have heligible := (h.2 _ rfl).1.eligible
    revert heligible
    decide +kernel
  · intro h
    have hdeclared := (h.1.graph "ema" "sma").mp (by decide +kernel)
    revert hdeclared
    decide +kernel
  · intro h
    have hunchanged := h.1.failed (Or.inl ⟨_, rfl⟩) (by decide +kernel)
    have hlength := congrArg List.length hunchanged.config
    revert hlength
    decide +kernel

end MT5Services.IndicatorRegistry
