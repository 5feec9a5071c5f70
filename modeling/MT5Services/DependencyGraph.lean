import MT5Services.Dict
import MT5Services.Levels
import Mathlib.Data.Rat.Defs

/-!
`DependencyManager`: the indicators with what they depend on, in two adjacency maps that
five mutations keep in step, and the execution order by levels. Its sets have no order of
their own, so the order in which a set is gone through is the environment's.
-/
namespace MT5Services.DependencyGraph

open Levels Relation

/-- A map from names to sets of names. -/
abbrev Adjacency := Dict String (Dict String Unit)

/-- `graph.get(name, set())`. -/
def linked (graph : Adjacency) (name : String) : List String :=
  ((graph.get? name).getD Dict.empty).keys

/-- `graph[name].add(other)` on a `defaultdict`. -/
def link (graph : Adjacency) (name other : String) : Adjacency :=
  graph.set name (((graph.get? name).getD Dict.empty).set other ())

/-- `graph[name].discard(other)`; a set that is empty then is deleted. -/
def unlink (graph : Adjacency) (name other : String) : Adjacency :=
  match graph.get? name with
  | none => graph
  | some others =>
    let rest := others.pop other
    if rest.keys = [] then graph.pop name else graph.set name rest

/-- The name leaves the set of the node if it is there. -/
def discardFrom (name : String) (graph : Adjacency) (node : String) : Adjacency :=
  if name ∈ linked graph node then unlink graph node name else graph

structure DependencyManager (F P : Type*) where
  graph : Adjacency := Dict.empty
  reverseGraph : Adjacency := Dict.empty
  indicatorParams : Dict String P := Dict.empty
  indicatorFuncs : Dict String F := Dict.empty
  indicatorCacheTtl : Dict String ℚ := Dict.empty

namespace DependencyManager

variable {F P : Type*}

def addDependency (m : DependencyManager F P) (indicator dependsOn : String) :
    DependencyManager F P :=
  if indicator = dependsOn then m
  else
    { m with
      graph := link m.graph indicator dependsOn
      reverseGraph := link m.reverseGraph dependsOn indicator }

def addIndicator (m : DependencyManager F P) (name : String) (func : F) (params : P)
    (dependencies : List String) : DependencyManager F P :=
  dependencies.foldl (fun m dep => m.addDependency name dep)
    { m with
      indicatorParams := m.indicatorParams.set name params
      indicatorFuncs := m.indicatorFuncs.set name func }

def removeDependency (m : DependencyManager F P) (indicator dependsOn : String) :
    DependencyManager F P :=
  { m with
    graph := unlink m.graph indicator dependsOn
    reverseGraph := unlink m.reverseGraph dependsOn indicator }

def removeIndicator (m : DependencyManager F P) (name : String) :
    Bool × DependencyManager F P :=
  if m.indicatorFuncs.contains name then
    let dependents := linked m.reverseGraph name
    let reverse := m.reverseGraph.pop name
    (true,
      { m with
        graph := dependents.foldl (fun graph dependent => unlink graph dependent name)
          (m.graph.pop name)
        reverseGraph := reverse.keys.foldl (discardFrom name) reverse
        indicatorParams := m.indicatorParams.pop name
        indicatorFuncs := m.indicatorFuncs.pop name })
  else (false, m)

/-- The age limits stay. -/
def clear (m : DependencyManager F P) : DependencyManager F P :=
  { indicatorCacheTtl := m.indicatorCacheTtl }

/-- How Python goes through the sets: those of the graph and the two of one call. -/
structure SetOrder (m : DependencyManager F P) where
  neighbors : String → List String
  neighbors_perm : ∀ name, (neighbors name).Perm (linked m.graph name)
  targets : List String → List String
  targets_perm : ∀ names, (targets names).Perm names
  nodes : List String → List String
  nodes_perm : ∀ names, (nodes names).Perm names

/-- The names that stand in the graph as dependencies. -/
def dependencyNames (m : DependencyManager F P) : List String :=
  m.graph.values.flatMap fun dependencies => dependencies.keys

def targetIndicators (m : DependencyManager F P) (indicators : Option (List String)) :
    List String :=
  match indicators with
  | none => m.indicatorFuncs.keys
  | some names => names.dedup

def relevantNodes (m : DependencyManager F P) (order : SetOrder m)
    (indicators : Option (List String)) : List String :=
  order.nodes (closure order.neighbors (m.dependencyNames.length + 1)
    (order.targets (m.targetIndicators indicators)))

/-- The levels, those without dependencies first, or the nodes that the `ValueError` names. -/
def getExecutionOrder (m : DependencyManager F P) (order : SetOrder m)
    (indicators : Option (List String)) : Except (List String) (List (List String)) :=
  let nodes := m.relevantNodes order indicators
  match levels order.neighbors nodes with
  | none => .error (leftover order.neighbors nodes)
  | some result => .ok result

def DependsOn (m : DependencyManager F P) (name dep : String) : Prop := dep ∈ linked m.graph name

instance (m : DependencyManager F P) (name dep : String) : Decidable (m.DependsOn name dep) :=
  inferInstanceAs (Decidable (dep ∈ _))

/-- What is asked for and all it depends on. -/
def InClosure (m : DependencyManager F P) (indicators : Option (List String)) (name : String) :
    Prop :=
  ∃ first ∈ m.targetIndicators indicators, ReflTransGen m.DependsOn first name

/-- The levels are a partition of the closure in which dependencies come first. -/
structure Ordered (m : DependencyManager F P) (indicators : Option (List String))
    (result : List (List String)) : Prop where
  nodup : result.flatten.Nodup
  filled : ∀ level ∈ result, level ≠ []
  complete : ∀ name, name ∈ result.flatten ↔ m.InClosure indicators name
  earlier : ∀ front level back, result = front ++ level :: back → ∀ name ∈ level, ∀ dep,
    m.DependsOn name dep → dep ∈ front.flatten

/-- Each of the two maps says the converse of the other, and holds no empty set. -/
structure Inverse (m : DependencyManager F P) : Prop where
  inverse : ∀ name dep, dep ∈ linked m.graph name ↔ name ∈ linked m.reverseGraph dep
  filled : ∀ name others, m.graph.get? name = some others → others.keys ≠ []
  reverseFilled : ∀ name others, m.reverseGraph.get? name = some others → others.keys ≠ []

end DependencyManager

inductive Mutation (F P : Type*)
  | addIndicator (name : String) (func : F) (params : P) (dependencies : List String)
  | addDependency (indicator dependsOn : String)
  | removeDependency (indicator dependsOn : String)
  | removeIndicator (name : String)
  | clear

variable {F P : Type*}

def mutate (m : DependencyManager F P) : Mutation F P → DependencyManager F P
  | .addIndicator name func params dependencies => m.addIndicator name func params dependencies
  | .addDependency indicator dependsOn => m.addDependency indicator dependsOn
  | .removeDependency indicator dependsOn => m.removeDependency indicator dependsOn
  | .removeIndicator name => (m.removeIndicator name).2
  | .clear => m.clear

/-- No set of the map is empty. -/
def Filled (graph : Adjacency) : Prop :=
  ∀ name others, graph.get? name = some others → others.keys ≠ []

theorem mem_keys_set (d : Dict String Unit) (key other : String) :
    other ∈ (d.set key ()).keys ↔ other ∈ d.keys ∨ other = key := by
  have hmem : ∀ e : Dict String Unit, ∀ name, name ∈ e.keys ↔ e.get? name = some () := by
    intro e name
    rw [← Dict.mem_items_iff_get?]
    constructor
    · intro hname
      obtain ⟨item, hitem, rfl⟩ := List.mem_map.mp hname
      exact hitem
    · intro hitem
      exact List.mem_map.mpr ⟨(name, ()), hitem, rfl⟩
  rw [hmem, hmem, Dict.get?_set]
  split_ifs with hkey
  · exact iff_of_true rfl (.inr hkey)
  · rw [or_iff_left hkey]

theorem mem_keys_pop (d : Dict String Unit) (key other : String) :
    other ∈ (d.pop key).keys ↔ other ∈ d.keys ∧ other ≠ key := by
  unfold Dict.keys Dict.pop
  rw [List.mem_map, List.mem_map]
  constructor
  · rintro ⟨item, hitem, rfl⟩
    obtain ⟨hold, hkey⟩ := List.mem_filter.mp hitem
    exact ⟨⟨item, hold, rfl⟩, of_decide_eq_true hkey⟩
  · rintro ⟨⟨item, hold, rfl⟩, hkey⟩
    exact ⟨item, List.mem_filter.mpr ⟨hold, decide_eq_true hkey⟩, rfl⟩

theorem mem_linked_link (graph : Adjacency) (name other x y : String) :
    y ∈ linked (link graph name other) x ↔ y ∈ linked graph x ∨ (x = name ∧ y = other) := by
  unfold linked link
  rw [Dict.get?_set]
  by_cases hname : x = name
  · rw [if_pos hname, Option.getD_some, mem_keys_set, hname]
    simp only [true_and]
  · rw [if_neg hname]
    simp only [hname, false_and, or_false]

variable {graph : Adjacency}

theorem filled_link (h : Filled graph) (name other : String) : Filled (link graph name other) := by
  intro x others hget
  unfold link at hget
  rw [Dict.get?_set] at hget
  split_ifs at hget
  · obtain rfl := Option.some.inj hget
    exact List.ne_nil_of_mem ((mem_keys_set _ other other).mpr (.inr rfl))
  · exact h x others hget

theorem mem_linked_pop (graph : Adjacency) (name x y : String) :
    y ∈ linked (graph.pop name) x ↔ x ≠ name ∧ y ∈ linked graph x := by
  unfold linked
  rw [Dict.get?_pop]
  by_cases hname : x = name
  · rw [if_pos hname]
    refine iff_of_false ?_ fun h => h.1 hname
    exact List.not_mem_nil
  · rw [if_neg hname]
    exact ⟨fun h => ⟨hname, h⟩, And.right⟩

theorem filled_pop (h : Filled graph) (name : String) : Filled (graph.pop name) := by
  intro x others hget
  rw [Dict.get?_pop] at hget
  split_ifs at hget
  exact h x others hget

theorem mem_linked_unlink (graph : Adjacency) (name other x y : String) :
    y ∈ linked (unlink graph name other) x ↔ y ∈ linked graph x ∧ ¬ (x = name ∧ y = other) := by
  unfold unlink
  cases hget : graph.get? name with
  | none =>
    refine ⟨fun h => ⟨h, ?_⟩, And.left⟩
    rintro ⟨rfl, -⟩
    unfold linked at h
    rw [hget] at h
    cases h
  | some others =>
    have hold : linked graph name = others.keys := by
      unfold linked
      rw [hget, Option.getD_some]
    have hrest := mem_keys_pop others other y
    dsimp only
    by_cases hname : x = name
    · rw [hname, hold]
      split_ifs with hempty
      · rw [mem_linked_pop]
        rw [hempty] at hrest
        simp only [List.not_mem_nil, false_iff] at hrest
        simp only [ne_eq, not_true_eq_false, false_and, true_and, false_iff]
        exact hrest
      · unfold linked
        rw [Dict.get?_set, if_pos rfl, Option.getD_some, hrest]
        simp only [true_and, ne_eq]
    · have hother : ¬ (x = name ∧ y = other) := fun h => hname h.1
      split_ifs
      · rw [mem_linked_pop]
        exact ⟨fun h => ⟨h.2, hother⟩, fun h => ⟨hname, h.1⟩⟩
      · unfold linked
        rw [Dict.get?_set, if_neg hname]
        exact ⟨fun h => ⟨h, hother⟩, And.left⟩

theorem filled_unlink (h : Filled graph) (name other : String) :
    Filled (unlink graph name other) := by
  unfold unlink
  cases hget : graph.get? name with
  | none => exact h
  | some others =>
    dsimp only
    split_ifs with hempty
    · exact filled_pop h name
    · intro x rest hrest
      rw [Dict.get?_set] at hrest
      split_ifs at hrest
      · rw [← Option.some.inj hrest]
        exact hempty
      · exact h x rest hrest

theorem mem_linked_discardFrom (name : String) (graph : Adjacency) (node x y : String) :
    y ∈ linked (discardFrom name graph node) x ↔
      y ∈ linked graph x ∧ ¬ (x = node ∧ y = name) := by
  unfold discardFrom
  split_ifs with hmem
  · exact mem_linked_unlink graph node name x y
  · refine ⟨fun h => ⟨h, ?_⟩, And.left⟩
    rintro ⟨rfl, rfl⟩
    exact hmem h

theorem filled_discardFrom (name : String) (h : Filled graph)
    (node : String) : Filled (discardFrom name graph node) := by
  unfold discardFrom
  split_ifs
  · exact filled_unlink h node name
  · exact h

/-- A loop that takes one name out of the sets of some nodes. -/
theorem mem_linked_foldl {f : Adjacency → String → Adjacency} {name : String}
    (hf : ∀ graph node x y, y ∈ linked (f graph node) x ↔
      y ∈ linked graph x ∧ ¬ (x = node ∧ y = name)) (nodes : List String) (graph : Adjacency)
    (x y : String) :
    y ∈ linked (nodes.foldl f graph) x ↔ y ∈ linked graph x ∧ ¬ (x ∈ nodes ∧ y = name) := by
  induction nodes generalizing graph with
  | nil => simp only [List.foldl_nil, List.not_mem_nil, false_and, not_false_eq_true, and_true]
  | cons node rest ih =>
    rw [List.foldl_cons, ih, hf, List.mem_cons]
    tauto

theorem filled_foldl {f : Adjacency → String → Adjacency}
    (hf : ∀ graph node, Filled graph → Filled (f graph node)) (nodes : List String)
    (h : Filled graph) : Filled (nodes.foldl f graph) := by
  induction nodes generalizing graph with
  | nil => exact h
  | cons node rest ih => exact ih (hf graph node h)

theorem mem_keys_of_linked {x y : String} (h : y ∈ linked graph x) : x ∈ graph.keys := by
  unfold linked at h
  cases hget : graph.get? x with
  | none =>
    rw [hget] at h
    cases h
  | some others =>
    exact List.mem_map.mpr ⟨(x, others), (Dict.mem_items_iff_get? _ _ _).mpr hget, rfl⟩

namespace DependencyManager

theorem depends_addDependency (m : DependencyManager F P) (indicator dependsOn a b : String) :
    (m.addDependency indicator dependsOn).DependsOn a b ↔
      m.DependsOn a b ∨ (a = indicator ∧ b = dependsOn ∧ a ≠ b) := by
  unfold DependencyManager.addDependency DependsOn
  split_ifs with hself
  · rw [or_iff_left]
    rintro ⟨rfl, rfl, hne⟩
    exact hne hself
  · rw [mem_linked_link]
    apply or_congr_right
    constructor
    · rintro ⟨rfl, rfl⟩
      exact ⟨rfl, rfl, hself⟩
    · rintro ⟨rfl, rfl, -⟩
      exact ⟨rfl, rfl⟩

theorem depends_addIndicator (m : DependencyManager F P) (name : String) (func : F) (params : P)
    (dependencies : List String) (a b : String) :
    (m.addIndicator name func params dependencies).DependsOn a b ↔
      m.DependsOn a b ∨ (a = name ∧ b ∈ dependencies ∧ a ≠ b) := by
  suffices hfold : ∀ t : DependencyManager F P,
      (dependencies.foldl (fun t dep => t.addDependency name dep) t).DependsOn a b ↔
        t.DependsOn a b ∨ (a = name ∧ b ∈ dependencies ∧ a ≠ b) from hfold _
  induction dependencies with
  | nil =>
    intro t
    simp only [List.foldl_nil, List.not_mem_nil, false_and, and_false, or_false]
  | cons dep rest ih =>
    intro t
    rw [List.foldl_cons, ih, depends_addDependency, List.mem_cons, or_assoc]
    tauto

/-- The tables of the dependency manager after an addition. -/
theorem addIndicator_tables (m : DependencyManager F P) (name : String) (func : F) (params : P)
    (dependencies : List String) :
    (m.addIndicator name func params dependencies).indicatorParams =
        m.indicatorParams.set name params ∧
      (m.addIndicator name func params dependencies).indicatorFuncs =
        m.indicatorFuncs.set name func ∧
      (m.addIndicator name func params dependencies).indicatorCacheTtl = m.indicatorCacheTtl := by
  unfold DependencyManager.addIndicator
  refine List.foldlRecOn (motive := fun t : DependencyManager F P =>
    t.indicatorParams = m.indicatorParams.set name params ∧
      t.indicatorFuncs = m.indicatorFuncs.set name func ∧
      t.indicatorCacheTtl = m.indicatorCacheTtl) _ _ ⟨rfl, rfl, rfl⟩ ?_
  intro t ht dep _
  unfold DependencyManager.addDependency
  split_ifs
  · exact ht
  · exact ht

/-- The tables after a removal. -/
theorem removeIndicator_tables (m : DependencyManager F P) (name other : String) :
    (m.removeIndicator name).2.indicatorFuncs.get? other =
        (if other = name then none else m.indicatorFuncs.get? other) ∧
      (m.indicatorFuncs.get? name = none → (m.removeIndicator name).2 = m) ∧
      (m.indicatorFuncs.get? name ≠ none →
        (m.removeIndicator name).2.indicatorParams.get? other =
          if other = name then none else m.indicatorParams.get? other) ∧
      (m.removeIndicator name).2.indicatorCacheTtl = m.indicatorCacheTtl := by
  unfold DependencyManager.removeIndicator Dict.contains
  cases hfunc : m.indicatorFuncs.get? name with
  | none =>
    rw [Option.isSome_none, if_neg Bool.false_ne_true]
    refine ⟨?_, fun _ => rfl, fun hne => absurd rfl hne, rfl⟩
    split_ifs with hother
    · rw [hother]
      exact hfunc
    · rfl
  | some func =>
    rw [Option.isSome_some, if_pos rfl]
    refine ⟨Dict.get?_pop _ _ _, ?_, fun _ => Dict.get?_pop _ _ _, rfl⟩
    intro hnone
    cases hnone

variable {m : DependencyManager F P}

theorem Inverse.addDependency (h : m.Inverse)
    (indicator dependsOn : String) : (m.addDependency indicator dependsOn).Inverse := by
  unfold DependencyManager.addDependency
  split_ifs
  · exact h
  · refine ⟨?_, filled_link h.filled _ _, filled_link h.reverseFilled _ _⟩
    intro name dep
    rw [mem_linked_link, mem_linked_link, h.inverse, and_comm]

theorem Inverse.addIndicator (h : m.Inverse) (name : String) (func : F)
    (params : P) (dependencies : List String) :
    (m.addIndicator name func params dependencies).Inverse := by
  unfold DependencyManager.addIndicator
  have hset : ({ m with
      indicatorParams := m.indicatorParams.set name params
      indicatorFuncs := m.indicatorFuncs.set name func } : DependencyManager F P).Inverse :=
    ⟨h.inverse, h.filled, h.reverseFilled⟩
  revert hset
  generalize ({ m with
    indicatorParams := m.indicatorParams.set name params
    indicatorFuncs := m.indicatorFuncs.set name func } : DependencyManager F P) = added
  intro hadded
  induction dependencies generalizing added with
  | nil => exact hadded
  | cons dep rest ih => exact ih _ (hadded.addDependency name dep)

theorem Inverse.removeDependency (h : m.Inverse)
    (indicator dependsOn : String) : (m.removeDependency indicator dependsOn).Inverse := by
  refine ⟨?_, filled_unlink h.filled _ _, filled_unlink h.reverseFilled _ _⟩
  intro name dep
  show dep ∈ linked (unlink m.graph _ _) name ↔ name ∈ linked (unlink m.reverseGraph _ _) dep
  rw [mem_linked_unlink, mem_linked_unlink, h.inverse, and_comm (a := name = indicator)]

variable {name : String}

/-- After a removal the edges are those between the other indicators. -/
theorem Inverse.mem_removeIndicator (h : m.Inverse)
    (hknown : m.indicatorFuncs.contains name = true) (x y : String) :
    y ∈ linked (m.removeIndicator name).2.graph x ↔
      y ∈ linked m.graph x ∧ x ≠ name ∧ y ≠ name := by
  unfold DependencyManager.removeIndicator
  rw [if_pos hknown]
  show y ∈ linked (List.foldl _ _ _) x ↔ _
  rw [mem_linked_foldl fun graph node x y => mem_linked_unlink graph node name x y,
    mem_linked_pop, ← h.inverse x name]
  constructor
  · rintro ⟨⟨hx, hedge⟩, hnot⟩
    refine ⟨hedge, hx, ?_⟩
    rintro rfl
    exact hnot ⟨hedge, rfl⟩
  · rintro ⟨hedge, hx, hy⟩
    exact ⟨⟨hx, hedge⟩, fun hboth => hy hboth.2⟩

/-- The name has a function, or no edge is at it. -/
def Known (m : DependencyManager F P) (name : String) : Prop :=
  m.indicatorFuncs.contains name = true ∨ ∀ a b, m.DependsOn a b → a ≠ name ∧ b ≠ name

theorem Inverse.depends_removeIndicator (h : m.Inverse) (hknown : m.Known name) (a b : String) :
    (m.removeIndicator name).2.DependsOn a b ↔ m.DependsOn a b ∧ a ≠ name ∧ b ≠ name := by
  cases hfunc : m.indicatorFuncs.contains name with
  | true => exact h.mem_removeIndicator hfunc a b
  | false =>
    have hfree := hknown.resolve_left (by rw [hfunc]; exact Bool.false_ne_true)
    unfold DependencyManager.removeIndicator
    rw [hfunc, if_neg Bool.false_ne_true]
    exact ⟨fun hedge => ⟨hedge, hfree a b hedge⟩, And.left⟩

theorem Known.removeIndicator {name other : String}
    (h : m.Inverse) (hknown : m.Known name) (hother : m.Known other) :
    (m.removeIndicator name).2.Known other := by
  by_cases hsame : other = name
  · refine .inr fun a b hedge => ?_
    rw [hsame]
    exact ((h.depends_removeIndicator hknown a b).mp hedge).2
  · refine hother.imp ?_ ?_
    · intro hfunc
      rw [Dict.contains, (removeIndicator_tables m name other).1, if_neg hsame]
      exact hfunc
    · intro hfree a b hedge
      exact hfree a b ((h.depends_removeIndicator hknown a b).mp hedge).1

theorem Inverse.mem_reverse_removeIndicator
    (hknown : m.indicatorFuncs.contains name = true) (x y : String) :
    y ∈ linked (m.removeIndicator name).2.reverseGraph x ↔
      y ∈ linked m.reverseGraph x ∧ x ≠ name ∧ y ≠ name := by
  unfold DependencyManager.removeIndicator
  rw [if_pos hknown]
  show y ∈ linked (List.foldl _ _ _) x ↔ _
  rw [mem_linked_foldl (mem_linked_discardFrom name), mem_linked_pop]
  constructor
  · rintro ⟨⟨hx, hedge⟩, hnot⟩
    refine ⟨hedge, hx, ?_⟩
    rintro rfl
    apply hnot
    refine ⟨?_, rfl⟩
    exact mem_keys_of_linked ((mem_linked_pop m.reverseGraph _ x y).mpr ⟨hx, hedge⟩)
  · rintro ⟨hedge, hx, hy⟩
    exact ⟨⟨hx, hedge⟩, fun hboth => hy hboth.2⟩

theorem Inverse.removeIndicator (h : m.Inverse) (name : String) :
    (m.removeIndicator name).2.Inverse := by
  cases hknown : m.indicatorFuncs.contains name with
  | false =>
    unfold DependencyManager.removeIndicator
    rw [hknown, if_neg Bool.false_ne_true]
    exact h
  | true =>
    refine ⟨?_, ?_, ?_⟩
    · intro x y
      rw [h.mem_removeIndicator hknown, Inverse.mem_reverse_removeIndicator hknown, h.inverse,
        and_comm (a := x ≠ name)]
    · unfold DependencyManager.removeIndicator
      rw [if_pos hknown]
      exact filled_foldl (fun _ node hgraph => filled_unlink hgraph node name) _
        (filled_pop h.filled name)
    · unfold DependencyManager.removeIndicator
      rw [if_pos hknown]
      exact filled_foldl (fun _ node hgraph => filled_discardFrom name hgraph node) _
        (filled_pop h.reverseFilled name)

theorem Inverse.withTtl (h : m.Inverse) (ttl : Dict String ℚ) :
    ({ m with indicatorCacheTtl := ttl } : DependencyManager F P).Inverse :=
  ⟨h.inverse, h.filled, h.reverseFilled⟩

theorem empty_inverse (ttl : Dict String ℚ) :
    ({ indicatorCacheTtl := ttl } : DependencyManager F P).Inverse := by
  refine ⟨?_, ?_, ?_⟩
  · intro name dep
    exact iff_of_false List.not_mem_nil List.not_mem_nil
  · intro name others hget
    cases hget
  · intro name others hget
    cases hget

theorem mutate_inverse (h : m.Inverse) (mutation : Mutation F P) : (mutate m mutation).Inverse := by
  cases mutation with
  | addIndicator name func params dependencies => exact h.addIndicator name func params dependencies
  | addDependency indicator dependsOn => exact h.addDependency indicator dependsOn
  | removeDependency indicator dependsOn => exact h.removeDependency indicator dependsOn
  | removeIndicator name => exact h.removeIndicator name
  | clear => exact empty_inverse m.indicatorCacheTtl

theorem inverse_of_mutations (mutations : List (Mutation F P)) :
    (mutations.foldl mutate ({} : DependencyManager F P)).Inverse := by
  induction mutations using List.reverseRecOn with
  | nil => exact empty_inverse Dict.empty
  | append_singleton front last ih =>
    rw [List.foldl_append, List.foldl_cons, List.foldl_nil]
    exact mutate_inverse ih last

section Order

variable {m : DependencyManager F P} (order : SetOrder m)

theorem SetOrder.nodup (name : String) : (order.neighbors name).Nodup :=
  (order.neighbors_perm name).nodup_iff.mpr ((m.graph.get? name).getD Dict.empty).nodup

theorem SetOrder.edge_iff (name dep : String) :
    Edge order.neighbors name dep ↔ m.DependsOn name dep :=
  (order.neighbors_perm name).mem_iff

theorem SetOrder.edge_eq : Edge order.neighbors = m.DependsOn := by
  funext name dep
  exact propext (order.edge_iff name dep)

theorem SetOrder.neighbors_known (name : String) :
    ∀ next ∈ order.neighbors name, next ∈ m.dependencyNames.toFinset := by
  intro next hnext
  have hlinked := (order.edge_iff name next).mp hnext
  unfold DependsOn linked at hlinked
  rw [List.mem_toFinset]
  cases hget : m.graph.get? name with
  | none =>
    rw [hget] at hlinked
    cases hlinked
  | some dependencies =>
    rw [hget] at hlinked
    apply List.mem_flatMap.mpr
    refine ⟨dependencies, ?_, hlinked⟩
    exact List.mem_map.mpr
      ⟨(name, dependencies), (Dict.mem_items_iff_get? _ _ _).mpr hget, rfl⟩

theorem mem_relevantNodes (indicators : Option (List String)) (name : String) :
    name ∈ m.relevantNodes order indicators ↔ m.InClosure indicators name := by
  unfold relevantNodes InClosure
  rw [(order.nodes_perm _).mem_iff, mem_closure_iff order.nodup order.neighbors_known
    (Nat.succ_le_succ (List.toFinset_card_le _)), order.edge_eq]
  simp only [(order.targets_perm _).mem_iff]

theorem relevantNodes_nodup (indicators : Option (List String)) :
    (m.relevantNodes order indicators).Nodup :=
  (order.nodes_perm _).nodup_iff.mpr (closure_nodup order.nodup _ _)

theorem relevantNodes_closed (indicators : Option (List String)) :
    ∀ name ∈ m.relevantNodes order indicators,
      order.neighbors name ⊆ m.relevantNodes order indicators := by
  intro name hname next hnext
  rw [mem_relevantNodes] at hname ⊢
  obtain ⟨first, hfirst, hpath⟩ := hname
  exact ⟨first, hfirst, hpath.tail ((order.edge_iff name next).mp hnext)⟩

/-- The order fails exactly when there is a cycle in the closure. -/
theorem getExecutionOrder_error_iff (indicators : Option (List String)) :
    (∃ remaining, m.getExecutionOrder order indicators = .error remaining) ↔
      ∃ name, m.InClosure indicators name ∧ TransGen m.DependsOn name name := by
  have hcycle := levels_eq_none_iff order.nodup (relevantNodes_nodup order indicators)
    (relevantNodes_closed order indicators)
  rw [order.edge_eq] at hcycle
  simp only [mem_relevantNodes] at hcycle
  rw [← hcycle]
  unfold getExecutionOrder
  dsimp only
  cases levels order.neighbors (m.relevantNodes order indicators) with
  | none => exact iff_of_true ⟨_, rfl⟩ rfl
  | some result =>
    refine iff_of_false ?_ (Option.some_ne_none result)
    rintro ⟨remaining, herror⟩
    cases herror

theorem getExecutionOrder_ordered {indicators : Option (List String)} {result : List (List String)}
    (h : m.getExecutionOrder order indicators = .ok result) : m.Ordered indicators result := by
  have hlevels : levels order.neighbors (m.relevantNodes order indicators) = some result := by
    unfold getExecutionOrder at h
    dsimp only at h
    split at h
    · cases h
    · next found hfound =>
      cases h
      exact hfound
  have hnodup := relevantNodes_nodup order indicators
  have hperm := levels_perm order.nodup hnodup hlevels
  refine ⟨hperm.nodup_iff.mpr hnodup, levels_filled order.nodup hlevels, ?_, ?_⟩
  · intro name
    rw [hperm.mem_iff, mem_relevantNodes]
  · intro front level back hsplit name hname dep hdep
    exact levels_earlier order.nodup (relevantNodes_closed order indicators) hlevels hsplit hname
      ((order.edge_iff name dep).mpr hdep)

end Order

/-- After any mutations the two maps are inverse to each other and every execution order is
right, however Python goes through its sets. -/
theorem execution_order_sound (mutations : List (Mutation F P)) :
    let m := mutations.foldl mutate ({} : DependencyManager F P)
    m.Inverse ∧ ∀ (order : SetOrder m) (indicators : Option (List String)),
      ((∃ remaining, m.getExecutionOrder order indicators = .error remaining) ↔
        ∃ name, m.InClosure indicators name ∧ TransGen m.DependsOn name name) ∧
      ∀ result, m.getExecutionOrder order indicators = .ok result →
        m.Ordered indicators result := by
  intro m
  refine ⟨inverse_of_mutations mutations, ?_⟩
  intro order indicators
  refine ⟨getExecutionOrder_error_iff order indicators, ?_⟩
  intro result hresult
  exact getExecutionOrder_ordered order hresult

end DependencyManager

end MT5Services.DependencyGraph
