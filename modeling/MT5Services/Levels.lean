import Mathlib.Data.Finset.Card
import Mathlib.Data.Finset.SDiff
import Mathlib.Data.Fintype.EquivFin
import Mathlib.Data.Fintype.Sets
import Mathlib.Data.List.Dedup
import Mathlib.Data.List.Nodup
import Mathlib.Data.List.Perm.Subperm
import Mathlib.Logic.Function.Basic
import Mathlib.Logic.Relation
import Mathlib.Order.WellFounded
import Mathlib.Tactic.Linarith

/-!
A search along the edges of a graph, and Kahn's topological sort by levels, over any type
of nodes. The search stacks a node once only, so it ends closed under the edges. A round of
the sort takes all nodes whose degree has come down to zero; when the rounds are over, every
node of degree zero or less has been in a round, and there are no more rounds than nodes. On
a closed list the sort fails exactly when there is a cycle, and else every edge leads to an
earlier level.
-/
namespace MT5Services.Levels

variable {K : Type*}

/-- The degrees as they stand and the nodes of degree zero found in this round. -/
structure Round (K : Type*) where
  degree : K → ℤ
  next : List K

/-- The nodes of degree zero or less are those queued so far, each once. -/
structure Queued (nodes : List K) (taken : List K) (r : Round K) : Prop where
  low : ∀ node ∈ taken ++ r.next, r.degree node ≤ 0
  all : ∀ node ∈ nodes, r.degree node ≤ 0 → node ∈ taken ++ r.next
  nodup : (taken ++ r.next).Nodup
  known : taken ++ r.next ⊆ nodes

variable {nodes queue taken : List K} {degree : K → ℤ}

/-- The queue is taken and a new one begins. -/
theorem Queued.takeAll
    (h : Queued nodes taken ⟨degree, queue⟩) : Queued nodes (taken ++ queue) ⟨degree, []⟩ where
  low := by
    rw [List.append_nil]
    exact h.low
  all := by
    rw [List.append_nil]
    exact h.all
  nodup := by
    rw [List.append_nil]
    exact h.nodup
  known := by
    rw [List.append_nil]
    exact h.known

variable {r : Round K}

theorem foldl_queued {f : Round K → K → Round K}
    (hf : ∀ r node, Queued nodes taken r → Queued nodes taken (f r node)) (list : List K)
    (h : Queued nodes taken r) : Queued nodes taken (list.foldl f r) := by
  induction list generalizing r with
  | nil => exact h
  | cons node rest ih => exact ih (hf r node h)

def Edge (graph : K → List K) (a b : K) : Prop := b ∈ graph a

variable {graph : K → List K}

/-- A closed list holds all that paths from its nodes lead to. -/
theorem mem_of_path
    (hclosed : ∀ node ∈ nodes, graph node ⊆ nodes) {first last : K} (hfirst : first ∈ nodes)
    (hpath : Relation.ReflTransGen (Edge graph) first last) : last ∈ nodes := by
  induction hpath with
  | refl => exact hfirst
  | tail _ hedge ih => exact hclosed _ ih hedge

variable [DecidableEq K]

/-- The nodes found from a stack of them, after those found before. -/
def search (graph : K → List K) : ℕ → List K → List K → List K
  | 0, _, found => found
  | _ + 1, [], found => found
  | fuel + 1, current :: stack, found =>
    let new := (graph current).filter fun next => next ∉ found
    search graph fuel (new.reverse ++ stack) (found ++ new)

theorem subset_search (graph : K → List K) (fuel : ℕ) (stack found : List K) :
    found ⊆ search graph fuel stack found := by
  induction fuel generalizing stack found with
  | zero => exact List.Subset.refl found
  | succ fuel ih =>
    cases stack with
    | nil => exact List.Subset.refl found
    | cons current stack =>
      exact List.Subset.trans (List.subset_append_left found _) (ih _ _)

/-- What is newly found was among the nodes not found before. -/
theorem card_left_add_length_le {nodes : Finset K} {found new : List K} (hnew : new.Nodup)
    (hnodes : ∀ next ∈ new, next ∈ nodes) (hfresh : ∀ next ∈ new, next ∉ found) :
    (nodes \ (found ++ new).toFinset).card + new.length ≤ (nodes \ found.toFinset).card := by
  have hleft : (nodes \ (found ++ new).toFinset) ∪ new.toFinset ⊆ nodes \ found.toFinset := by
    intro next hnext
    rw [Finset.mem_union, Finset.mem_sdiff, List.mem_toFinset, List.mem_toFinset] at hnext
    rw [Finset.mem_sdiff, List.mem_toFinset]
    rcases hnext with ⟨hnode, hout⟩ | hnext
    · exact ⟨hnode, fun hfound => hout (List.mem_append_left new hfound)⟩
    · exact ⟨hnodes next hnext, hfresh next hnext⟩
  have hdisjoint : Disjoint (nodes \ (found ++ new).toFinset) new.toFinset := by
    rw [Finset.disjoint_left]
    intro next hnext hin
    rw [Finset.mem_sdiff, List.mem_toFinset] at hnext
    exact hnext.2 (List.mem_append_right found (List.mem_toFinset.mp hin))
  have hcard := Finset.card_le_card hleft
  rwa [Finset.card_union_of_disjoint hdisjoint, List.toFinset_card_of_nodup hnew] at hcard

variable {fuel : ℕ} {found stack : List K}

/-- With one unit of fuel for every node on the stack or not yet found, the search ends
closed under the edges. -/
theorem search_closed (hnodup : ∀ node, (graph node).Nodup)
    {nodes : Finset K} (hnodes : ∀ node, ∀ next ∈ graph node, next ∈ nodes)
    (hfuel : stack.length + (nodes \ found.toFinset).card ≤ fuel)
    (hopen : ∀ node ∈ found, node ∈ stack ∨ graph node ⊆ found) :
    ∀ node ∈ search graph fuel stack found, graph node ⊆ search graph fuel stack found := by
  induction fuel generalizing stack found with
  | zero =>
    intro node hnode
    have hempty : stack = [] := List.eq_nil_of_length_eq_zero (by omega)
    rcases hopen node hnode with hstack | hclosed
    · rw [hempty] at hstack
      cases hstack
    · exact hclosed
  | succ fuel ih =>
    cases stack with
    | nil =>
      intro node hnode
      rcases hopen node hnode with hstack | hclosed
      · cases hstack
      · exact hclosed
    | cons current stack =>
      let new := (graph current).filter fun next => next ∉ found
      have hnew : new.Nodup := (hnodup current).filter _
      have hknown : ∀ next ∈ new, next ∈ nodes := fun next hnext =>
        hnodes current next (List.mem_of_mem_filter hnext)
      have hfresh : ∀ next ∈ new, next ∉ found := fun next hnext =>
        of_decide_eq_true (List.mem_filter.mp hnext).2
      change ∀ node ∈ search graph fuel (new.reverse ++ stack) (found ++ new),
        graph node ⊆ search graph fuel (new.reverse ++ stack) (found ++ new)
      apply ih
      · have hcard := card_left_add_length_le hnew hknown hfresh
        rw [List.length_append, List.length_reverse]
        rw [List.length_cons] at hfuel
        omega
      · intro node hnode
        rw [List.mem_append, List.mem_reverse]
        rcases List.mem_append.mp hnode with hold | hin
        · rcases hopen node hold with hstack | hclosed
          · rcases List.mem_cons.mp hstack with rfl | hstack
            · right
              intro next hnext
              rw [List.mem_append]
              by_cases hfound : next ∈ found
              · exact .inl hfound
              · exact .inr (List.mem_filter.mpr ⟨hnext, decide_eq_true hfound⟩)
            · exact .inl (.inr hstack)
          · exact .inr (List.Subset.trans hclosed (List.subset_append_left found new))
        · exact .inl (.inl hin)

/-- The nodes found from each of the listed ones in turn. -/
def closure (graph : K → List K) (fuel : ℕ) (starts : List K) : List K :=
  starts.foldl (fun found first =>
    search graph fuel [first] (if first ∈ found then found else found ++ [first])) []

/-- The number of listed nodes with an edge to this one. -/
def inDegree (graph : K → List K) (nodes : List K) (node : K) : ℤ :=
  nodes.countP fun other => node ∈ graph other

/-- An edge of a node taken: the degree of its end goes down. -/
def relax (nodes : List K) (r : Round K) (neighbor : K) : Round K :=
  if neighbor ∈ nodes then
    { degree := Function.update r.degree neighbor (r.degree neighbor - 1)
      next := if r.degree neighbor - 1 = 0 then r.next ++ [neighbor] else r.next }
  else r

def takeNode (graph : K → List K) (nodes : List K) (r : Round K) (node : K) : Round K :=
  (graph node).foldl (relax nodes) r

/-- The rounds from a queue on, with the degrees that are left. -/
def rounds (graph : K → List K) (nodes : List K) : ℕ → (K → ℤ) → List K → List (List K) × (K → ℤ)
  | 0, degree, _ => ([], degree)
  | fuel + 1, degree, queue =>
    if queue = [] then ([], degree)
    else
      let r := queue.foldl (takeNode graph nodes) ⟨degree, []⟩
      let rest := rounds graph nodes fuel r.degree r.next
      (queue :: rest.1, rest.2)

/-- The levels from the last to be taken to the first, or `none` when there is a cycle. -/
def levels (graph : K → List K) (nodes : List K) : Option (List (List K)) :=
  let degree := inDegree graph nodes
  let first := nodes.dedup.filter fun node => degree node = 0
  let result := rounds graph nodes nodes.length degree first
  if nodes.any fun node => 0 < result.2 node then none else some result.1.reverse

theorem update_pred_le (degree : K → ℤ) (neighbor node : K) :
    Function.update degree neighbor (degree neighbor - 1) node ≤ degree node := by
  by_cases hnode : node = neighbor
  · rw [hnode, Function.update_self]
    omega
  · rw [Function.update_of_ne hnode]

theorem Queued.low_relaxed (h : Queued nodes taken r) (neighbor : K) :
    ∀ node ∈ taken ++ r.next,
      Function.update r.degree neighbor (r.degree neighbor - 1) node ≤ 0 := by
  intro node hnode
  have hbefore := h.low node hnode
  have hafter := update_pred_le r.degree neighbor node
  omega

/-- A node whose last edge is taken joins the queue. -/
theorem Queued.join (h : Queued nodes taken r) {neighbor : K} (hknown : neighbor ∈ nodes)
    (hzero : r.degree neighbor - 1 = 0) :
    Queued nodes taken
      ⟨Function.update r.degree neighbor (r.degree neighbor - 1), r.next ++ [neighbor]⟩ := by
  have hfresh : neighbor ∉ taken ++ r.next := by
    intro hmem
    have hbefore := h.low neighbor hmem
    omega
  have hqueue : taken ++ (r.next ++ [neighbor]) = (taken ++ r.next) ++ [neighbor] :=
    (List.append_assoc taken r.next [neighbor]).symm
  refine ⟨?_, ?_, ?_, ?_⟩
  · intro node hnode
    dsimp only at hnode ⊢
    rw [hqueue, List.mem_append, List.mem_singleton] at hnode
    rcases hnode with hnode | rfl
    · exact h.low_relaxed neighbor node hnode
    · rw [Function.update_self]
      omega
  · intro node hnode hdegree
    dsimp only at hdegree ⊢
    rw [hqueue, List.mem_append, List.mem_singleton]
    by_cases hsame : node = neighbor
    · exact .inr hsame
    · rw [Function.update_of_ne hsame] at hdegree
      exact .inl (h.all node hnode hdegree)
  · dsimp only
    rw [hqueue]
    exact List.Nodup.append h.nodup (List.nodup_singleton neighbor)
      (List.disjoint_singleton.mpr hfresh)
  · dsimp only
    rw [hqueue]
    exact List.append_subset.mpr ⟨h.known, List.cons_subset.mpr ⟨hknown, List.nil_subset nodes⟩⟩

theorem relax_queued (h : Queued nodes taken r)
    (neighbor : K) : Queued nodes taken (relax nodes r neighbor) := by
  unfold relax
  split_ifs with hknown hzero
  · exact h.join hknown hzero
  · refine ⟨h.low_relaxed neighbor, ?_, h.nodup, h.known⟩
    intro node hnode hdegree
    dsimp only at hdegree
    by_cases hsame : node = neighbor
    · rw [hsame, Function.update_self] at hdegree
      apply h.all node hnode
      rw [hsame]
      omega
    · rw [Function.update_of_ne hsame] at hdegree
      exact h.all node hnode hdegree
  · exact h

theorem Queued.takeRound (h : Queued nodes taken ⟨degree, queue⟩) :
    Queued nodes (taken ++ queue) (queue.foldl (takeNode graph nodes) ⟨degree, []⟩) := by
  apply foldl_queued _ queue h.takeAll
  intro r taking hr
  exact foldl_queued (fun r neighbor hr => relax_queued hr neighbor) (graph taking) hr

/-- With as many rounds left as nodes not yet taken, the rounds take every node whose
degree comes down to zero. -/
theorem rounds_all (graph : K → List K) (h : Queued nodes taken ⟨degree, queue⟩)
    (hfuel : nodes.length ≤ fuel + taken.length) :
    ∀ node ∈ nodes, (rounds graph nodes fuel degree queue).2 node ≤ 0 →
      node ∈ taken ++ (rounds graph nodes fuel degree queue).1.flatten := by
  have hlength : (taken ++ queue).length ≤ nodes.length :=
    (List.subperm_of_subset h.nodup h.known).length_le
  rw [List.length_append] at hlength
  induction fuel generalizing taken degree queue with
  | zero =>
    intro node hnode hdegree
    have hempty : queue = [] := List.eq_nil_of_length_eq_zero (by omega)
    have hmem := h.all node hnode hdegree
    rw [hempty] at hmem
    exact hmem
  | succ fuel ih =>
    intro node hnode hdegree
    unfold rounds at hdegree ⊢
    by_cases hempty : queue = []
    · rw [if_pos hempty] at hdegree ⊢
      have hmem := h.all node hnode hdegree
      dsimp only at hmem
      rw [hempty] at hmem
      exact hmem
    · rw [if_neg hempty] at hdegree ⊢
      have hround : Queued nodes (taken ++ queue)
          (queue.foldl (takeNode graph nodes) ⟨degree, []⟩) := h.takeRound
      have hsize : 1 ≤ queue.length := List.length_pos_of_ne_nil hempty
      have hnext := (List.subperm_of_subset hround.nodup hround.known).length_le
      simp only [List.length_append] at hnext
      have hrest := ih hround (by rw [List.length_append]; omega)
        (by rw [List.length_append]; omega) node hnode hdegree
      rw [List.append_assoc] at hrest
      exact hrest

/-- All rounds of the sort, with the degrees that are left. -/
def finalRounds (graph : K → List K) (nodes : List K) : List (List K) × (K → ℤ) :=
  rounds graph nodes nodes.length (inDegree graph nodes)
    (nodes.dedup.filter fun node => inDegree graph nodes node = 0)

/-- The nodes that no round takes. -/
def leftover (graph : K → List K) (nodes : List K) : List K :=
  nodes.filter fun node => 0 < (finalRounds graph nodes).2 node

theorem queued_start (graph : K → List K) (nodes : List K) :
    Queued nodes []
      ⟨inDegree graph nodes, nodes.dedup.filter fun node => inDegree graph nodes node = 0⟩ := by
  refine ⟨?_, ?_, ?_, ?_⟩
  · intro other hother
    have hzero := of_decide_eq_true (List.mem_filter.mp hother).2
    exact le_of_eq hzero
  · intro other hother hdegree
    have hzero : inDegree graph nodes other = 0 := by
      have hnonneg : 0 ≤ inDegree graph nodes other := Int.natCast_nonneg _
      exact le_antisymm hdegree hnonneg
    exact List.mem_filter.mpr ⟨List.mem_dedup.mpr hother, decide_eq_true hzero⟩
  · exact (List.nodup_dedup nodes).filter _
  · intro other hother
    exact List.mem_dedup.mp (List.mem_of_mem_filter hother)

variable {result : List (List K)}

theorem levels_eq_some_iff : levels graph nodes = some result ↔
      leftover graph nodes = [] ∧ (finalRounds graph nodes).1.reverse = result := by
  have hlevels : levels graph nodes =
      if nodes.any fun node => 0 < (finalRounds graph nodes).2 node then none
      else some (finalRounds graph nodes).1.reverse := rfl
  have hempty : leftover graph nodes = [] ↔
      ¬ (nodes.any fun node => 0 < (finalRounds graph nodes).2 node) = true := by
    rw [leftover, List.filter_eq_nil_iff, List.any_eq_true]
    constructor
    · rintro hnone ⟨node, hnode, hpositive⟩
      exact hnone node hnode hpositive
    · intro hnone node hnode hpositive
      exact hnone ⟨node, hnode, hpositive⟩
  rw [hlevels, hempty]
  constructor
  · intro h
    split_ifs at h with hany
    exact ⟨hany, Option.some.inj h⟩
  · rintro ⟨hany, rfl⟩
    rw [if_neg hany]

variable {node : K}

/-- A node is in some round or left over. -/
theorem mem_finalRounds (graph : K → List K) (hnode : node ∈ nodes)
    (hlow : (finalRounds graph nodes).2 node ≤ 0) : node ∈ (finalRounds graph nodes).1.flatten := by
  have hmem := rounds_all graph (queued_start graph nodes) (by simp) node hnode hlow
  rw [List.nil_append] at hmem
  exact hmem

theorem low_of_leftover_nil (h : leftover graph nodes = [])
    (hnode : node ∈ nodes) : (finalRounds graph nodes).2 node ≤ 0 := by
  by_contra hpositive
  exact List.filter_eq_nil_iff.mp h node hnode (decide_eq_true (not_le.mp hpositive))

/-- When the sort succeeds every node has its level. -/
theorem mem_levels
    (h : levels graph nodes = some result) : ∀ node ∈ nodes, node ∈ result.flatten := by
  intro node hnode
  obtain ⟨hnone, rfl⟩ := levels_eq_some_iff.mp h
  have hmem := mem_finalRounds graph hnode (low_of_leftover_nil hnone hnode)
  rw [List.mem_flatten] at hmem ⊢
  obtain ⟨level, hlevel, hin⟩ := hmem
  exact ⟨level, List.mem_reverse.mpr hlevel, hin⟩

/-- Every degree counts the listed nodes with an edge to the node that are not yet taken. -/
def Exact (graph : K → List K) (nodes taken : List K) (degree : K → ℤ) : Prop :=
  ∀ node ∈ nodes, degree node = inDegree graph nodes node - inDegree graph taken node

theorem inDegree_append (graph : K → List K) (front back : List K) (node : K) :
    inDegree graph (front ++ back) node = inDegree graph front node + inDegree graph back node := by
  unfold inDegree
  rw [List.countP_append, Nat.cast_add]

theorem inDegree_singleton (graph : K → List K) (other node : K) :
    inDegree graph [other] node = if node ∈ graph other then 1 else 0 := by
  unfold inDegree
  rw [List.countP_singleton]
  split_ifs with hdec hmem hmem
  · rfl
  · exact absurd (of_decide_eq_true hdec) hmem
  · exact absurd (decide_eq_true hmem) hdec
  · rfl

/-- The edges of one node are taken off one by one. -/
theorem relax_foldl_degree (hnode : node ∈ nodes) {edges : List K}
    (hnodup : edges.Nodup) (r : Round K) :
    (edges.foldl (relax nodes) r).degree node = r.degree node - if node ∈ edges then 1 else 0 := by
  induction edges generalizing r with
  | nil =>
    rw [List.foldl_nil, if_neg List.not_mem_nil]
    omega
  | cons first rest ih =>
    rw [List.nodup_cons] at hnodup
    rw [List.foldl_cons, ih hnodup.2]
    by_cases hsame : node = first
    · subst hsame
      have hrelaxed : (relax nodes r node).degree node = r.degree node - 1 := by
        unfold relax
        rw [if_pos hnode]
        exact Function.update_self _ _ _
      rw [hrelaxed, if_neg hnodup.1, if_pos List.mem_cons_self]
      omega
    · have hrelaxed : (relax nodes r first).degree node = r.degree node := by
        unfold relax
        split_ifs
        · exact Function.update_of_ne hsame _ _
        · exact Function.update_of_ne hsame _ _
        · rfl
      rw [hrelaxed]
      simp only [List.mem_cons, hsame, false_or]

theorem Exact.afterNode (hgraph : ∀ node, (graph node).Nodup)
    (h : Exact graph nodes taken r.degree) (other : K) :
    Exact graph nodes (taken ++ [other]) (takeNode graph nodes r other).degree := by
  intro node hnode
  have hbefore := h node hnode
  have hafter := relax_foldl_degree hnode (hgraph other) r
  rw [inDegree_append, inDegree_singleton]
  unfold takeNode
  omega

theorem Exact.afterAll (hgraph : ∀ node, (graph node).Nodup)
    (queue : List K) (h : Exact graph nodes taken r.degree) :
    Exact graph nodes (taken ++ queue) (queue.foldl (takeNode graph nodes) r).degree := by
  induction queue generalizing taken r with
  | nil =>
    rw [List.append_nil]
    exact h
  | cons first rest ih =>
    have hrest := ih (h.afterNode hgraph first)
    rw [List.append_assoc, List.singleton_append] at hrest
    exact hrest

/-- At degree zero all that has an edge to the node is taken. -/
theorem Exact.mem_taken
    (h : Exact graph nodes taken degree) (hnodup : taken.Nodup) (hknown : taken ⊆ nodes)
    (hnode : node ∈ nodes) (hlow : degree node ≤ 0) :
    ∀ other ∈ nodes, node ∈ graph other → other ∈ taken := by
  intro other hother hedge
  by_contra hout
  have hsub : (other :: taken).Subperm nodes := by
    apply List.subperm_of_subset
    · exact List.nodup_cons.mpr ⟨hout, hnodup⟩
    · exact List.cons_subset.mpr ⟨hother, hknown⟩
  have hcount := hsub.countP_le fun other => decide (node ∈ graph other)
  have hcounted : (other :: taken).countP (fun other => decide (node ∈ graph other)) =
      taken.countP (fun other => decide (node ∈ graph other)) + 1 :=
    List.countP_cons_of_pos (decide_eq_true hedge)
  have hexact := h node hnode
  unfold inDegree at hexact
  omega

/-- What the rounds from a queue on come to: each node is taken once, the degrees stay exact,
and a node is taken in a round after all that have an edge to it. -/
structure Taken (graph : K → List K) (nodes taken : List K) (result : List (List K) × (K → ℤ)) :
    Prop where
  nodup : (taken ++ result.1.flatten).Nodup
  known : taken ++ result.1.flatten ⊆ nodes
  degrees : Exact graph nodes (taken ++ result.1.flatten) result.2
  low : ∀ node ∈ taken ++ result.1.flatten, result.2 node ≤ 0
  filled : ∀ level ∈ result.1, level ≠ []
  later : ∀ front level back, result.1 = front ++ level :: back → ∀ node ∈ level,
    ∀ other ∈ nodes, node ∈ graph other → other ∈ taken ++ front.flatten

/-- No round is left. -/
theorem Queued.taken_nil
    (h : Queued nodes taken ⟨degree, queue⟩) (hexact : Exact graph nodes taken degree) :
    Taken graph nodes taken ([], degree) where
  nodup := by
    rw [List.flatten_nil, List.append_nil]
    exact (List.nodup_append.mp h.nodup).1
  known := by
    rw [List.flatten_nil, List.append_nil]
    exact List.Subset.trans (List.subset_append_left taken queue) h.known
  degrees := by
    rw [List.flatten_nil, List.append_nil]
    exact hexact
  low := by
    rw [List.flatten_nil, List.append_nil]
    intro node hnode
    exact h.low node (List.mem_append_left queue hnode)
  filled := by
    intro level hlevel
    cases hlevel
  later := by
    intro front level back hsplit
    exact absurd hsplit.symm (List.append_ne_nil_of_right_ne_nil front (List.cons_ne_nil _ _))

theorem rounds_taken (hgraph : ∀ node, (graph node).Nodup)
    (h : Queued nodes taken ⟨degree, queue⟩) (hexact : Exact graph nodes taken degree) :
    Taken graph nodes taken (rounds graph nodes fuel degree queue) := by
  induction fuel generalizing taken degree queue with
  | zero => exact h.taken_nil hexact
  | succ fuel ih =>
    unfold rounds
    by_cases hempty : queue = []
    · rw [if_pos hempty]
      exact h.taken_nil hexact
    · rw [if_neg hempty]
      have hrest := ih h.takeRound (hexact.afterAll (r := ⟨degree, []⟩) hgraph queue)
      have hflatten : ∀ rest : List (List K),
          (taken ++ queue) ++ rest.flatten = taken ++ (queue :: rest).flatten := by
        intro rest
        rw [List.flatten_cons, List.append_assoc]
      refine ⟨?_, ?_, ?_, ?_, ?_, ?_⟩
      · rw [← hflatten]
        exact hrest.nodup
      · rw [← hflatten]
        exact hrest.known
      · rw [← hflatten]
        exact hrest.degrees
      · rw [← hflatten]
        exact hrest.low
      · intro level hlevel
        rcases List.mem_cons.mp hlevel with rfl | hlevel
        · exact hempty
        · exact hrest.filled level hlevel
      · intro front level back hsplit node hnode other hother hedge
        cases front with
        | nil =>
          obtain ⟨rfl, -⟩ := List.cons.inj hsplit
          rw [List.flatten_nil, List.append_nil]
          have hmem := List.mem_append_right taken hnode
          refine hexact.mem_taken (List.nodup_append.mp h.nodup).1 ?_ (h.known hmem)
            (h.low node hmem) other hother hedge
          exact List.Subset.trans (List.subset_append_left taken queue) h.known
        | cons first front =>
          obtain ⟨rfl, hback⟩ := List.cons.inj hsplit
          rw [← hflatten]
          exact hrest.later front level back hback node hnode other hother hedge

theorem finalRounds_taken (hgraph : ∀ node, (graph node).Nodup)
    (nodes : List K) : Taken graph nodes [] (finalRounds graph nodes) := by
  apply rounds_taken hgraph (queued_start graph nodes)
  intro node _
  unfold inDegree
  rw [List.countP_nil]
  omega

/-- The levels of a successful sort hold every node once. -/
theorem levels_perm (hgraph : ∀ node, (graph node).Nodup)
    (hnodup : nodes.Nodup) (h : levels graph nodes = some result) : result.flatten.Perm nodes := by
  have htaken := finalRounds_taken hgraph nodes
  have hmem := mem_levels h
  obtain ⟨-, rfl⟩ := levels_eq_some_iff.mp h
  have hperm := (List.reverse_perm (finalRounds graph nodes).1).flatten
  apply (List.perm_ext_iff_of_nodup (hperm.nodup_iff.mpr htaken.nodup) hnodup).mpr
  intro node
  constructor
  · intro hnode
    exact htaken.known (hperm.mem_iff.mp hnode)
  · exact hmem node

theorem levels_filled (hgraph : ∀ node, (graph node).Nodup) (h : levels graph nodes = some result) :
    ∀ level ∈ result, level ≠ [] := by
  obtain ⟨-, rfl⟩ := levels_eq_some_iff.mp h
  intro level hlevel
  exact (finalRounds_taken hgraph nodes).filled level (List.mem_reverse.mp hlevel)

/-- In the levels of a successful sort an edge leads to an earlier level. -/
theorem levels_earlier (hgraph : ∀ node, (graph node).Nodup)
    (hclosed : ∀ node ∈ nodes, graph node ⊆ nodes)
    (h : levels graph nodes = some result) {front back : List (List K)} {level : List K}
    (hsplit : result = front ++ level :: back) {node next : K} (hnode : node ∈ level)
    (hedge : next ∈ graph node) : next ∈ front.flatten := by
  have htaken := finalRounds_taken hgraph nodes
  have hmem := mem_levels h
  obtain ⟨-, hresult⟩ := levels_eq_some_iff.mp h
  have hrounds : (finalRounds graph nodes).1 = back.reverse ++ level :: front.reverse := by
    rw [← List.reverse_reverse (finalRounds graph nodes).1, hresult, hsplit, List.reverse_append,
      List.reverse_cons, List.append_assoc, List.singleton_append]
  have hnodes : node ∈ nodes := by
    apply htaken.known
    rw [List.nil_append, hrounds, List.flatten_append, List.flatten_cons]
    exact List.mem_append_right _ (List.mem_append_left _ hnode)
  have hnext := hmem next (hclosed node hnodes hedge)
  rw [hsplit, List.flatten_append, List.mem_append] at hnext
  refine hnext.resolve_right ?_
  intro hlater
  obtain ⟨block, hblock, hin⟩ := List.mem_flatten.mp hlater
  obtain ⟨first, rest, hblocks⟩ := List.append_of_mem hblock
  -- the node is an earlier one of its own round or of a round before
  have hround : (finalRounds graph nodes).1 =
      rest.reverse ++ block :: (first.reverse ++ front.reverse) := by
    have hreverse := congrArg List.reverse hblocks
    rw [List.reverse_cons, List.reverse_append, List.reverse_cons, List.append_assoc,
      List.singleton_append] at hreverse
    rw [hrounds, ← List.singleton_append, ← List.append_assoc, hreverse, List.append_assoc,
      List.cons_append]
  have hbefore := htaken.later _ block _ hround next hin node hnodes hedge
  rw [List.nil_append] at hbefore
  have hafter : node ∈ (block :: (first.reverse ++ front.reverse)).flatten := by
    have hlevel : level ∈ first ++ [block] := by
      cases first with
      | nil =>
        obtain ⟨rfl, -⟩ := List.cons.inj hblocks
        exact List.mem_singleton_self _
      | cons other first =>
        obtain ⟨rfl, -⟩ := List.cons.inj hblocks
        exact List.mem_append_left _ List.mem_cons_self
    rw [List.mem_flatten]
    refine ⟨level, ?_, hnode⟩
    rcases List.mem_append.mp hlevel with hfirst | hlast
    · exact List.mem_cons_of_mem _ (List.mem_append_left _ (List.mem_reverse.mpr hfirst))
    · rw [List.mem_singleton.mp hlast]
      exact List.mem_cons_self
  have hnodup := htaken.nodup
  rw [List.nil_append, hround, List.flatten_append] at hnodup
  exact List.disjoint_of_nodup_append hnodup hbefore hafter

/-- An edge leads down in the flattened levels. -/
theorem idxOf_lt_of_edge (hgraph : ∀ node, (graph node).Nodup)
    (hnodup : nodes.Nodup) (hclosed : ∀ node ∈ nodes, graph node ⊆ nodes)
    (h : levels graph nodes = some result) {node next : K}
    (hnode : node ∈ nodes) (hedge : next ∈ graph node) :
    result.flatten.idxOf next < result.flatten.idxOf node := by
  obtain ⟨level, hlevel, hin⟩ := List.mem_flatten.mp (mem_levels h node hnode)
  obtain ⟨front, back, hsplit⟩ := List.append_of_mem hlevel
  have hnext := levels_earlier hgraph hclosed h hsplit hin hedge
  have hflat := (levels_perm hgraph hnodup h).nodup_iff.mpr hnodup
  rw [hsplit, List.flatten_append] at hflat ⊢
  have hout : node ∉ front.flatten := by
    intro hfront
    apply List.disjoint_of_nodup_append hflat hfront
    rw [List.flatten_cons]
    exact List.mem_append_left _ hin
  rw [List.idxOf_append_of_mem hnext, List.idxOf_append_of_notMem hout]
  have hlt := List.idxOf_lt_length_of_mem hnext
  omega

/-- Each node left over has an edge from another one. -/
theorem exists_edge_of_leftover (hgraph : ∀ node, (graph node).Nodup)
    (hnodup : nodes.Nodup) (hnode : node ∈ leftover graph nodes) :
    ∃ other ∈ leftover graph nodes, node ∈ graph other := by
  have htaken := finalRounds_taken hgraph nodes
  obtain ⟨hmem, hpositive⟩ := List.mem_filter.mp hnode
  have hdegree := of_decide_eq_true hpositive
  have hexact := htaken.degrees node hmem
  by_contra hnone
  have hsub : (nodes.filter fun other => node ∈ graph other) ⊆
      ([] ++ (finalRounds graph nodes).1.flatten).filter fun other => node ∈ graph other := by
    intro other hother
    obtain ⟨hlisted, hedge⟩ := List.mem_filter.mp hother
    refine List.mem_filter.mpr ⟨?_, hedge⟩
    apply mem_finalRounds graph hlisted
    by_contra hleft
    refine hnone ⟨other, List.mem_filter.mpr ⟨hlisted, ?_⟩, of_decide_eq_true hedge⟩
    exact decide_eq_true (not_le.mp hleft)
  have hle := (List.subperm_of_subset (hnodup.filter _) hsub).length_le
  rw [← List.countP_eq_length_filter, ← List.countP_eq_length_filter] at hle
  unfold inDegree at hexact
  omega

/-- Where no node lies on a cycle nothing is left over. -/
theorem leftover_eq_nil (hgraph : ∀ node, (graph node).Nodup) (hnodup : nodes.Nodup)
    (hacyclic : ∀ node ∈ nodes, ¬ Relation.TransGen (Edge graph) node node) :
    leftover graph nodes = [] := by
  let before := fun a b : {node // node ∈ nodes} => Relation.TransGen (Edge graph) a.1 b.1
  have htrans : IsTrans _ before := ⟨fun _ _ _ hab hbc => hab.trans hbc⟩
  have hirrefl : Std.Irrefl before := ⟨fun a => hacyclic a.1 a.2⟩
  have hwf : WellFounded before := Finite.wellFounded_of_trans_of_irrefl before
  by_contra hsome
  obtain ⟨node, hnode⟩ := List.exists_mem_of_ne_nil _ hsome
  -- a first one among them would have an edge from one before it
  obtain ⟨first, hfirst, hmin⟩ := hwf.has_min {a | a.1 ∈ leftover graph nodes}
    ⟨⟨node, List.mem_of_mem_filter hnode⟩, hnode⟩
  obtain ⟨other, hother, hedge⟩ := exists_edge_of_leftover hgraph hnodup hfirst
  exact hmin ⟨other, List.mem_of_mem_filter hother⟩ hother (Relation.TransGen.single hedge)

theorem idxOf_lt_of_path (hgraph : ∀ node, (graph node).Nodup)
    (hnodup : nodes.Nodup) (hclosed : ∀ node ∈ nodes, graph node ⊆ nodes)
    (h : levels graph nodes = some result) {node last : K}
    (hnode : node ∈ nodes) (hpath : Relation.TransGen (Edge graph) node last) :
    last ∈ nodes ∧ result.flatten.idxOf last < result.flatten.idxOf node := by
  induction hpath with
  | single hedge =>
    exact ⟨hclosed node hnode hedge, idxOf_lt_of_edge hgraph hnodup hclosed h hnode hedge⟩
  | tail _ hedge ih =>
    refine ⟨hclosed _ ih.1 hedge, ?_⟩
    exact (idxOf_lt_of_edge hgraph hnodup hclosed h ih.1 hedge).trans ih.2

/-- The sort fails on a cycle and on nothing else. -/
theorem levels_eq_none_iff (hgraph : ∀ node, (graph node).Nodup)
    (hnodup : nodes.Nodup) (hclosed : ∀ node ∈ nodes, graph node ⊆ nodes) :
    levels graph nodes = none ↔
      ∃ node ∈ nodes, Relation.TransGen (Edge graph) node node := by
  constructor
  · intro hnone
    by_contra hacyclic
    have hleft := leftover_eq_nil hgraph hnodup fun node hnode hcycle =>
      hacyclic ⟨node, hnode, hcycle⟩
    rw [levels_eq_some_iff.mpr ⟨hleft, rfl⟩] at hnone
    cases hnone
  · rintro ⟨node, hnode, hcycle⟩
    cases hlevels : levels graph nodes with
    | none => rfl
    | some result =>
      have hless := (idxOf_lt_of_path hgraph hnodup hclosed hlevels hnode hcycle).2
      exact absurd hless (lt_irrefl _)

/-- The search finds nothing that no path leads to, and nothing twice. -/
theorem search_reachable (starts : Set K) (fuel : ℕ) (hstack : stack ⊆ found)
    (hfound : ∀ node ∈ found, ∃ first ∈ starts, Relation.ReflTransGen (Edge graph) first node) :
    ∀ node ∈ search graph fuel stack found,
      ∃ first ∈ starts, Relation.ReflTransGen (Edge graph) first node := by
  induction fuel generalizing stack found with
  | zero => exact hfound
  | succ fuel ih =>
    cases stack with
    | nil => exact hfound
    | cons current stack =>
      obtain ⟨hcurrent, hrest⟩ := List.cons_subset.mp hstack
      apply ih
      · apply List.append_subset.mpr
        constructor
        · intro node hnode
          exact List.mem_append_right found (List.mem_reverse.mp hnode)
        · exact List.Subset.trans hrest (List.subset_append_left found _)
      · intro node hnode
        rcases List.mem_append.mp hnode with hold | hnew
        · exact hfound node hold
        · obtain ⟨first, hfirst, hpath⟩ := hfound current hcurrent
          exact ⟨first, hfirst, hpath.tail (List.mem_of_mem_filter hnew)⟩

theorem search_nodup (hgraph : ∀ node, (graph node).Nodup) (fuel : ℕ)
    (hfound : found.Nodup) : (search graph fuel stack found).Nodup := by
  induction fuel generalizing stack found with
  | zero => exact hfound
  | succ fuel ih =>
    cases stack with
    | nil => exact hfound
    | cons current stack =>
      apply ih
      refine List.Nodup.append hfound ((hgraph current).filter _) ?_
      intro node hold hnew
      exact of_decide_eq_true (List.mem_filter.mp hnew).2 hold

theorem subset_closure (graph : K → List K) (fuel : ℕ) (starts : List K) :
    starts ⊆ closure graph fuel starts := by
  unfold closure
  induction starts using List.reverseRecOn with
  | nil => exact List.Subset.refl []
  | append_singleton front last ih =>
    rw [List.foldl_append, List.foldl_cons, List.foldl_nil]
    apply List.append_subset.mpr
    constructor
    · refine List.Subset.trans ih (List.Subset.trans ?_ (subset_search _ _ _ _))
      split_ifs
      · exact List.Subset.refl _
      · exact List.subset_append_left _ _
    · apply List.Subset.trans _ (subset_search _ _ _ _)
      apply List.cons_subset.mpr
      refine ⟨?_, List.nil_subset _⟩
      split_ifs with hmem
      · exact hmem
      · exact List.mem_append_right _ (List.mem_singleton_self last)

/-- The fuel is enough when it exceeds the number of nodes that edges lead to. -/
theorem closure_closed (hgraph : ∀ node, (graph node).Nodup)
    {nodes : Finset K} (hnodes : ∀ node, ∀ next ∈ graph node, next ∈ nodes)
    (hfuel : nodes.card + 1 ≤ fuel) (starts : List K) :
    ∀ node ∈ closure graph fuel starts, graph node ⊆ closure graph fuel starts := by
  unfold closure
  induction starts using List.reverseRecOn with
  | nil =>
    intro node hnode
    cases hnode
  | append_singleton front last ih =>
    rw [List.foldl_append, List.foldl_cons, List.foldl_nil]
    apply search_closed hgraph hnodes
    · have hcard := Finset.card_le_card (s := nodes \ (if last ∈ closure graph fuel front then
        closure graph fuel front else closure graph fuel front ++ [last]).toFinset)
        (t := nodes) Finset.sdiff_subset
      rw [List.length_singleton]
      unfold closure at hcard
      omega
    · intro node hnode
      split_ifs at hnode ⊢ with hlast
      · exact .inr (ih node hnode)
      · rcases List.mem_append.mp hnode with hold | hnew
        · exact .inr (List.Subset.trans (ih node hold) (List.subset_append_left _ _))
        · exact .inl hnew

theorem closure_reachable (graph : K → List K) (fuel : ℕ) (starts : List K) :
    ∀ node ∈ closure graph fuel starts,
      ∃ first ∈ starts, Relation.ReflTransGen (Edge graph) first node := by
  unfold closure
  induction starts using List.reverseRecOn with
  | nil =>
    intro node hnode
    cases hnode
  | append_singleton front last ih =>
    rw [List.foldl_append, List.foldl_cons, List.foldl_nil]
    apply search_reachable {first | first ∈ front ++ [last]}
    · apply List.cons_subset.mpr
      refine ⟨?_, List.nil_subset _⟩
      split_ifs with hmem
      · exact hmem
      · exact List.mem_append_right _ (List.mem_singleton_self last)
    · intro node hnode
      have hlast : last ∈ front ++ [last] := List.mem_append_right _ (List.mem_singleton_self last)
      have hold : node ∈ closure graph fuel front →
          ∃ first ∈ front ++ [last], Relation.ReflTransGen (Edge graph) first node := by
        intro hmem
        obtain ⟨first, hfirst, hpath⟩ := ih node hmem
        exact ⟨first, List.mem_append_left _ hfirst, hpath⟩
      split_ifs at hnode
      · exact hold hnode
      · rcases List.mem_append.mp hnode with hmem | hnew
        · exact hold hmem
        · rw [List.mem_singleton.mp hnew]
          exact ⟨last, hlast, Relation.ReflTransGen.refl⟩

theorem closure_nodup (hgraph : ∀ node, (graph node).Nodup) (fuel : ℕ)
    (starts : List K) : (closure graph fuel starts).Nodup := by
  unfold closure
  induction starts using List.reverseRecOn with
  | nil => exact List.nodup_nil
  | append_singleton front last ih =>
    rw [List.foldl_append, List.foldl_cons, List.foldl_nil]
    apply search_nodup hgraph
    split_ifs with hmem
    · exact ih
    · exact List.Nodup.append ih (List.nodup_singleton last) (List.disjoint_singleton.mpr hmem)

/-- The closure of a list is what paths lead to from it. -/
theorem mem_closure_iff (hgraph : ∀ node, (graph node).Nodup)
    {nodes : Finset K} (hnodes : ∀ node, ∀ next ∈ graph node, next ∈ nodes)
    (hfuel : nodes.card + 1 ≤ fuel) {starts : List K} : node ∈ closure graph fuel starts ↔
      ∃ first ∈ starts, Relation.ReflTransGen (Edge graph) first node := by
  constructor
  · exact closure_reachable graph fuel starts node
  · rintro ⟨first, hfirst, hpath⟩
    exact mem_of_path (closure_closed hgraph hnodes hfuel starts)
      (subset_closure graph fuel starts hfirst) hpath

end MT5Services.Levels
