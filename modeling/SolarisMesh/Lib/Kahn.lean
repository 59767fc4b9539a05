import Mathlib.Order.Preorder.Finite

/-!
# Taking the nodes of a graph in the order of their edges

Kahn's loop: a node without open dependencies is visited and closes one dependency of a child for
each edge between them. The graph lists each node with its dependencies, which may repeat. The loop
ends, it visits no node twice, and it misses a node exactly if the dependencies have a cycle.
-/

namespace SolarisMesh.Lib.Kahn

open Function List

variable {α : Type} [DecidableEq α]

/-- The open dependencies of each node, the nodes that have none, and the visited nodes with the
last one first. -/
structure State (α : Type) where
  indegree : α → ℕ
  ready : List α
  visited : List α

/-- A child as often as it depends on the node. -/
def children (graph : List (α × List α)) (node : α) : List α :=
  graph.flatMap fun (child, dependencies) =>
    dependencies.filterMap fun dependency => if dependency = node then some child else none

/-- One edge is closed. -/
def relax (state : (α → ℕ) × List α) (child : α) : (α → ℕ) × List α :=
  let degree := state.1 child - 1
  (Function.update state.1 child degree, if degree = 0 then child :: state.2 else state.2)

/-- The loop while a node is ready; `none` if the fuel is spent before that. -/
def loop (graph : List (α × List α)) : ℕ → State α → Option (State α)
  | _, ⟨indegree, [], visited⟩ => some ⟨indegree, [], visited⟩
  | 0, ⟨_, _ :: _, _⟩ => none
  | fuel + 1, ⟨indegree, node :: ready, visited⟩ =>
    let relaxed := (children graph node).foldl relax (indegree, ready)
    loop graph fuel ⟨relaxed.1, relaxed.2, node :: visited⟩

/-! ## One node -/

/-- As long as no child has fewer open dependencies than edges are closed, the ones whose last
dependency is closed are ready, each of them once. -/
lemma foldl_relax (edges : List α) (indegree : α → ℕ) (ready : List α)
    (h : ∀ child, edges.count child ≤ indegree child) :
    ∃ freed, edges.foldl relax (indegree, ready) =
        (fun child => indegree child - edges.count child, freed ++ ready) ∧ freed.Nodup ∧
      ∀ child, child ∈ freed ↔ child ∈ edges ∧ indegree child = edges.count child := by
  induction edges generalizing indegree ready with
  | nil => exact ⟨[], rfl, nodup_nil, fun child => by simp⟩
  | cons first edges ih =>
    have hfirst := h first
    rw [count_cons_self] at hfirst
    obtain ⟨freed, hfold, hnodup, hfreed⟩ := ih
      (Function.update indegree first (indegree first - 1))
      (if indegree first - 1 = 0 then first :: ready else ready) fun child => by
        by_cases heq : child = first
        · subst heq
          rw [update_self]
          omega
        · rw [update_of_ne heq]
          exact (count_cons_of_ne (Ne.symm heq) ▸ h child :)
    have hdegrees : (fun child => Function.update indegree first (indegree first - 1) child -
        edges.count child) = fun child => indegree child - (first :: edges).count child := by
      funext child
      by_cases heq : child = first
      · subst heq
        rw [update_self, count_cons_self]
        omega
      · rw [update_of_ne heq, count_cons_of_ne (Ne.symm heq)]
    -- a child other than the first is freed by the other edges
    have hother : ∀ child, child ≠ first →
        (child ∈ freed ↔ child ∈ first :: edges ∧ indegree child =
          (first :: edges).count child) := by
      intro child hne
      rw [hfreed, update_of_ne hne, count_cons_of_ne (Ne.symm hne), mem_cons,
        or_iff_right hne]
    have hself := hfreed first
    rw [update_self] at hself
    rw [foldl_cons, relax]
    dsimp only
    rw [hfold, hdegrees]
    by_cases hlast : indegree first - 1 = 0
    · have hcount : edges.count first = 0 := by omega
      have hnew : first ∉ edges := count_eq_zero.1 hcount
      refine ⟨freed ++ [first], by simp [hlast], ?_, fun child => ?_⟩
      · refine nodup_append.2 ⟨hnodup, nodup_singleton _, ?_⟩
        rintro child hchild _ hmem rfl
        rw [mem_singleton.1 hmem] at hchild
        exact hnew (hself.1 hchild).1
      · by_cases heq : child = first
        · subst heq
          have hone : indegree child = edges.count child + 1 := by omega
          simp [hone]
        · rw [mem_append, mem_singleton, or_iff_left heq]
          exact hother child heq
    · refine ⟨freed, by simp [hlast], hnodup, fun child => ?_⟩
      by_cases heq : child = first
      · subst heq
        rw [hself, count_cons_self]
        constructor
        · rintro ⟨-, hcount⟩
          exact ⟨mem_cons_self, by omega⟩
        · rintro ⟨-, hcount⟩
          refine ⟨count_pos_iff.1 (by omega), by omega⟩
      · exact hother child heq

lemma children_cons (child : α) (dependencies : List α) (graph : List (α × List α)) (node : α) :
    children ((child, dependencies) :: graph) node =
      (dependencies.filterMap fun dependency => if dependency = node then some child else none) ++
        children graph node := rfl

lemma count_edges (dependencies : List α) (node child other : α) :
    (dependencies.filterMap fun dependency =>
      if dependency = node then some child else none).count other =
      if other = child then dependencies.count node else 0 := by
  rw [count_filterMap]
  by_cases hchild : other = child
  · rw [if_pos hchild]
    exact countP_congr fun dependency _ => by simp [hchild]
  · rw [if_neg hchild]
    simp [countP_eq_zero, Ne.symm hchild]

variable {graph : List (α × List α)}

lemma count_children_of_not_mem {child : α} (h : child ∉ graph.map (·.1)) (node : α) :
    (children graph node).count child = 0 := by
  induction graph with
  | nil => rfl
  | cons entry graph ih =>
    rw [map_cons, mem_cons, not_or] at h
    rw [children_cons, count_append, count_edges, if_neg h.1, ih h.2]

/-- A child appears once for each time it names the node. -/
lemma count_children (hkeys : (graph.map (·.1)).Nodup) {child : α} {dependencies : List α}
    (h : (child, dependencies) ∈ graph) (node : α) :
    (children graph node).count child = dependencies.count node := by
  induction graph with
  | nil => cases h
  | cons entry graph ih =>
    rw [map_cons, nodup_cons] at hkeys
    rw [children_cons, count_append, count_edges]
    rcases mem_cons.1 h with rfl | hrest
    · rw [if_pos rfl, count_children_of_not_mem hkeys.1, Nat.add_zero]
    · have hne : child ≠ entry.1 := by
        rintro rfl
        exact hkeys.1 (mem_map.2 ⟨_, hrest, rfl⟩)
      rw [if_neg hne, ih hkeys.2 hrest, Nat.zero_add]

/-! ## What the loop preserves -/

/-- One node of the graph depends on the other. -/
def Before (graph : List (α × List α)) (dependency node : α) : Prop :=
  ∃ dependencies, (node, dependencies) ∈ graph ∧ dependency ∈ dependencies

/-- Each node comes after its dependencies; the last one is the head. -/
def Ordered (graph : List (α × List α)) : List α → Prop
  | [] => True
  | node :: visited => (∀ dependency, Before graph dependency node → dependency ∈ visited) ∧
      Ordered graph visited

/-- The nodes that are visited or ready are those without open dependencies. -/
structure Invariant (graph : List (α × List α)) (s : State α) : Prop where
  nodup : (s.visited ++ s.ready).Nodup
  known : ∀ node ∈ s.visited ++ s.ready, node ∈ graph.map (·.1)
  open_eq : ∀ entry ∈ graph, s.indegree entry.1 = entry.2.countP (· ∉ s.visited)
  closed : ∀ entry ∈ graph, entry.1 ∈ s.visited ++ s.ready ↔ s.indegree entry.1 = 0
  ordered : Ordered graph s.visited

section Graph

variable (hkeys : (graph.map (·.1)).Nodup)

include hkeys

lemma Invariant.visit {indegree : α → ℕ} {node : α} {ready visited : List α}
    (h : Invariant graph ⟨indegree, node :: ready, visited⟩) :
    Invariant graph
      ⟨((children graph node).foldl relax (indegree, ready)).1,
        ((children graph node).foldl relax (indegree, ready)).2, node :: visited⟩ := by
  obtain ⟨hnodup, hknown, hopen, hclosed, hordered⟩ := h
  dsimp only at hnodup hknown hopen hclosed hordered
  have hnew : node ∉ visited := fun hmem =>
    (nodup_append.1 hnodup).2.2 node hmem node mem_cons_self rfl
  -- the open dependencies of a node are those on the visited one and the others
  have hsplit : ∀ entry ∈ graph, indegree entry.1 =
      entry.2.count node + entry.2.countP (· ∉ node :: visited) := by
    intro entry hentry
    rw [hopen entry hentry]
    clear hentry
    induction entry.2 with
    | nil => rfl
    | cons dependency dependencies ih =>
      rw [countP_cons, countP_cons, count_cons, ih]
      by_cases heq : dependency = node
      · subst heq
        simp [hnew]
        omega
      · by_cases hvisited : dependency ∈ visited <;> simp [heq, hvisited]
        omega
  have hcount : ∀ child, (children graph node).count child ≤ indegree child := by
    intro child
    by_cases hchild : child ∈ graph.map (·.1)
    · obtain ⟨entry, hentry, rfl⟩ := mem_map.1 hchild
      rw [count_children hkeys hentry, hsplit entry hentry]
      exact Nat.le_add_right _ _
    · rw [count_children_of_not_mem hchild]
      exact Nat.zero_le _
  obtain ⟨freed, hfold, hfreedNodup, hfreed⟩ :=
    foldl_relax (children graph node) indegree ready hcount
  rw [hfold]
  have hdegree : ∀ entry ∈ graph, indegree entry.1 - (children graph node).count entry.1 =
      entry.2.countP (· ∉ node :: visited) := by
    intro entry hentry
    rw [count_children hkeys hentry, hsplit entry hentry, Nat.add_sub_cancel_left]
  -- a freed node had an open dependency, so it was neither visited nor ready
  have hfresh : ∀ child ∈ freed, child ∈ graph.map (·.1) ∧ child ∉ visited ++ node :: ready := by
    intro child hchild
    obtain ⟨hedge, hall⟩ := (hfreed child).1 hchild
    have hpos : 0 < (children graph node).count child := count_pos_iff.2 hedge
    have hgraph : child ∈ graph.map (·.1) := by
      by_contra hnot
      rw [count_children_of_not_mem hnot] at hpos
      exact absurd hpos (lt_irrefl 0)
    refine ⟨hgraph, fun hmem => ?_⟩
    obtain ⟨entry, hentry, rfl⟩ := mem_map.1 hgraph
    have hzero := (hclosed entry hentry).1 hmem
    omega
  have hperm : (node :: visited ++ (freed ++ ready)).Perm
    (freed ++ (visited ++ node :: ready)) := by
    refine perm_iff_count.2 fun child => ?_
    simp only [count_append, count_cons]
    omega
  refine ⟨hperm.nodup_iff.2 ?_, fun child hchild => ?_, fun entry hentry => hdegree entry hentry,
    fun entry hentry => ?_, ⟨?_, hordered⟩⟩
  · refine nodup_append.2 ⟨hfreedNodup, hnodup, ?_⟩
    rintro child hchild _ hmem rfl
    exact (hfresh child hchild).2 hmem
  · rcases mem_append.1 (hperm.mem_iff.1 hchild) with hchild | hchild
    · exact (hfresh child hchild).1
    · exact hknown child hchild
  · rw [hperm.mem_iff, mem_append, hclosed entry hentry, hfreed]
    have hle := hcount entry.1
    constructor
    · rintro (⟨-, hall⟩ | hzero) <;> dsimp only <;> omega
    · intro hzero
      dsimp only at hzero
      by_cases hedge : entry.1 ∈ children graph node
      · exact .inl ⟨hedge, by omega⟩
      · rw [count_eq_zero.2 hedge] at hzero
        exact .inr hzero
  · rintro dependency ⟨dependencies, hentry, hmem⟩
    have hzero := (hclosed (node, dependencies) hentry).1 (by simp)
    rw [hopen (node, dependencies) hentry, countP_eq_zero] at hzero
    simpa using hzero dependency hmem

/-- With fuel for the nodes that are not visited yet, the loop ends. -/
lemma Invariant.loop {s : State α} (h : Invariant graph s) {fuel : ℕ}
    (hfuel : graph.length ≤ s.visited.length + fuel) :
    ∃ s', Kahn.loop graph fuel s = some s' ∧ Invariant graph s' ∧ s'.ready = [] := by
  induction fuel generalizing s with
  | zero =>
    obtain ⟨indegree, ready, visited⟩ := s
    cases ready with
    | nil => exact ⟨_, rfl, h, rfl⟩
    | cons node ready =>
      have hlength := (h.nodup.subperm h.known).length_le
      rw [length_append, length_map, length_cons] at hlength
      dsimp only at hlength hfuel
      omega
  | succ fuel ih =>
    obtain ⟨indegree, ready, visited⟩ := s
    cases ready with
    | nil => exact ⟨_, rfl, h, rfl⟩
    | cons node ready =>
      refine ih (h.visit hkeys) ?_
      dsimp only at hfuel ⊢
      rw [length_cons]
      omega

/-! ## Cycles -/

omit hkeys in
lemma Ordered.idxOf_lt {visited : List α} (h : Ordered graph visited) (hnodup : visited.Nodup)
    {dependency node : α} (hnode : node ∈ visited) (hbefore : Before graph dependency node) :
    dependency ∈ visited ∧ visited.idxOf node < visited.idxOf dependency := by
  induction visited with
  | nil => cases hnode
  | cons last visited ih =>
    rw [nodup_cons] at hnodup
    rcases mem_cons.1 hnode with rfl | hrest
    · have hmem := h.1 dependency hbefore
      have hne : node ≠ dependency := by
        rintro rfl
        exact hnodup.1 hmem
      refine ⟨mem_cons_of_mem _ hmem, ?_⟩
      rw [idxOf_cons_self, idxOf_cons_ne _ hne]
      exact Nat.succ_pos _
    · obtain ⟨hmem, hlt⟩ := ih h.2 hnodup.2 hrest
      have hlast : ∀ other ∈ visited, last ≠ other := by
        rintro other hother rfl
        exact hnodup.1 hother
      refine ⟨mem_cons_of_mem _ hmem, ?_⟩
      rw [idxOf_cons_ne _ (hlast _ hrest), idxOf_cons_ne _ (hlast _ hmem)]
      exact Nat.succ_lt_succ hlt

/-- At its end the loop has missed a node exactly if there is a cycle. -/
lemma Invariant.visited_ne_iff (hclosed : ∀ entry ∈ graph, ∀ dependency ∈ entry.2,
      dependency ∈ graph.map (·.1)) {s : State α} (h : Invariant graph s) (hready : s.ready = []) :
    s.visited.length ≠ graph.length ↔ ∃ node, Relation.TransGen (Before graph) node node := by
  have hnodup : s.visited.Nodup := by simpa [hready] using h.nodup
  have hknown : s.visited ⊆ graph.map (·.1) := fun node hnode =>
    h.known node (mem_append_left _ hnode)
  have hsubperm := hnodup.subperm hknown
  constructor
  · intro hne
    by_contra hacyclic
    rw [not_exists] at hacyclic
    -- the dependencies are well-founded, so a first node is missing
    let R (a b : { node // node ∈ graph.map (·.1) }) := Relation.TransGen (Before graph) a.1 b.1
    have htrans : IsTrans _ R := ⟨fun _ _ _ => Relation.TransGen.trans⟩
    have hirrefl : Std.Irrefl R := ⟨fun node => hacyclic node.1⟩
    have hwf : WellFounded R := Finite.wellFounded_of_trans_of_irrefl R
    have hmissing :
        { node : { node // node ∈ graph.map (·.1) } | node.1 ∉ s.visited }.Nonempty := by
      by_contra hnone
      have hall : graph.map (·.1) ⊆ s.visited := fun node hnode => by
        by_contra hnot
        exact hnone ⟨⟨node, hnode⟩, hnot⟩
      have hlength := (hsubperm.antisymm (hkeys.subperm hall)).length_eq
      exact hne (hlength.trans (length_map _))
    obtain ⟨first, hfirst, hmin⟩ := hwf.has_min _ hmissing
    obtain ⟨entry, hentry, hkey⟩ := mem_map.1 first.2
    have hopen : s.indegree entry.1 ≠ 0 := fun hzero => by
      have hmem := (h.closed entry hentry).2 hzero
      rw [hready, append_nil, hkey] at hmem
      exact hfirst hmem
    rw [h.open_eq entry hentry, Ne, countP_eq_zero] at hopen
    push Not at hopen
    obtain ⟨dependency, hmem, hvisited⟩ := hopen
    rw [decide_eq_true_eq] at hvisited
    refine hmin ⟨dependency, hclosed entry hentry dependency hmem⟩ hvisited ?_
    exact .single ⟨entry.2, hkey ▸ hentry, hmem⟩
  · rintro ⟨node, hcycle⟩ hlength
    have hperm : s.visited.Perm (graph.map (·.1)) :=
      hsubperm.perm_of_length_le (by rw [hlength, length_map])
    have hstep : Before graph ≤ ((· > ·) on s.visited.idxOf) := by
      rintro a b ⟨dependencies, hentry, hmem⟩
      have hnode := hperm.mem_iff.2 (mem_map.2 ⟨_, hentry, rfl⟩)
      exact (h.ordered.idxOf_lt hnodup hnode ⟨dependencies, hentry, hmem⟩).2
    have hlt := hcycle.lift _ hstep
    rw [Relation.transGen_eq_self] at hlt
    exact lt_irrefl _ hlt

end Graph

end SolarisMesh.Lib.Kahn
