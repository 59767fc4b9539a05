import SolarisMesh.Lib.Checked
import SolarisMesh.Lib.Kahn
import SolarisMesh.Workflow.Definition

/-!
# The check of a workflow definition

A definition is refused with the first check that fails. The last one looks for a cycle of
dependencies by Kahn's loop over the nodes.
-/

namespace SolarisMesh.Workflow

open List Lib WorkflowDefinition

/-- The checks of a node that do not concern other nodes, and how a text is quoted. -/
structure NodeChecks where
  validateCollaboration : ℕ → WorkflowNode → Except String Unit
  validateCondition : WorkflowNode → Json → Except String Unit
  debug : String → String

/-! ## The checks -/

def checkDependency (ids : List String) (node : WorkflowNode) (dependency : String) :
    Except String Unit := do
  require (ids.contains dependency) s!"workflow node {node.id} depends on unknown node {dependency}"
  require (dependency ≠ node.id) s!"workflow node {node.id} cannot depend on itself"

def checkBinding (node : WorkflowNode) (binding : OutputBinding) : Except String Unit := do
  require ((pathParts binding.destination).any (· ≠ ""))
    s!"workflow node {node.id} has an empty output binding destination"
  let source ← orElseThrow s!"workflow node {node.id} has an empty output binding source"
    ((pathParts binding.source).head?.filter (· ≠ ""))
  require (node.dependsOn.contains source)
    s!"workflow node {node.id} binding source {source} must be an explicit dependency"

def checkNode (checks : NodeChecks) (definition : WorkflowDefinition) (ids : List String)
    (node : WorkflowNode) : Except String Unit := do
  require (!isBlank node.id) s!"workflow {definition.id} contains an empty node id"
  require (!node.workflowRef.any isBlank) s!"workflow node {node.id} has an empty workflow_ref"
  checks.validateCollaboration definition.schemaVersion node
  node.dependsOn.forM (checkDependency ids node)
  node.when.forM (checks.validateCondition node)
  node.outputBindings.forM (checkBinding node)

/-- The checks before the one for cycles. -/
def checkDefinition (checks : NodeChecks) (definition : WorkflowDefinition) :
    Except String Unit := do
  require (!isBlank definition.id) "workflow id cannot be empty"
  require (definition.schemaVersion = 1 || definition.schemaVersion = 2)
    s!"workflow {definition.id} uses unsupported schema version {definition.schemaVersion}; only versions 1 and 2 are accepted"
  require (!isBlank definition.version) s!"workflow {definition.id} version cannot be empty"
  require (!isBlank definition.description) s!"workflow {definition.id} description cannot be empty"
  let ids := definition.nodes.map (·.id)
  require (decide ids.Nodup) s!"workflow {definition.id} contains duplicate node ids"
  definition.nodes.forM (checkNode checks definition ids)
  definition.outputs.forM fun (outputName, nodeId) =>
    let quoted := checks.debug outputName
    require (!isBlank outputName && ids.contains nodeId)
      s!"workflow {definition.id} output {quoted} references unknown node {nodeId}"

namespace WorkflowDefinition

variable (definition : WorkflowDefinition)

/-- Each node with its dependencies. -/
def graph : List (String × List String) :=
  definition.nodes.map fun node => (node.id, node.dependsOn)

def indegree (id : String) : ℕ :=
  (definition.graph.lookup id).elim 0 List.length

/-- The nodes that are ready first, in the order of the nodes; the source takes them in the order
of a hash map. -/
def unblocked : List String :=
  (definition.nodes.filter fun node => definition.indegree node.id = 0).map (·.id)

def cycleError : String :=
  s!"workflow {definition.id} contains a dependency cycle"

/-- The loop over the nodes that are ready; the nodes it counts are listed. -/
def visitReady (fuel : ℕ) (ready : List String) : Option (Kahn.State String) :=
  Kahn.loop definition.graph fuel ⟨definition.indegree, ready, []⟩

def checkCycle (fuel : ℕ) (ready : List String) : Option (Except String Unit) :=
  (definition.visitReady fuel ready).map fun s =>
    require (s.visited.length = definition.nodes.length) definition.cycleError

end WorkflowDefinition

/-- `none` if the fuel of the last loop is spent. -/
def validateDefinition (checks : NodeChecks) (fuel : ℕ) (ready : List String)
    (definition : WorkflowDefinition) : Option (Except String Unit) :=
  match checkDefinition checks definition with
  | .error error => some (.error error)
  | .ok () => definition.checkCycle fuel ready

/-! ## What the last check can rely on -/

variable {checks : NodeChecks} {definition : WorkflowDefinition}

/-- The ids are distinct and the dependencies are nodes. -/
lemma checkDefinition_eq_ok (h : checkDefinition checks definition = .ok ()) :
    (definition.graph.map (·.1)).Nodup ∧
      ∀ entry ∈ definition.graph, ∀ dependency ∈ entry.2,
        dependency ∈ definition.graph.map (·.1) := by
  have hkeys : definition.graph.map (·.1) = definition.nodes.map (·.id) := by
    rw [graph, map_map]
    rfl
  simp only [checkDefinition, check_bind_eq_ok, require_eq_ok] at h
  obtain ⟨-, -, -, -, hnodup, hnodes, -⟩ := h
  rw [hkeys]
  refine ⟨of_decide_eq_true hnodup, fun entry hentry => ?_⟩
  obtain ⟨node, hnode, rfl⟩ := mem_map.1 hentry
  have hchecked := forM_eq_ok hnodes node hnode
  simp only [checkNode, check_bind_eq_ok] at hchecked
  obtain ⟨-, -, -, hdependencies, -⟩ := hchecked
  intro dependency hmem
  have hdependency := forM_eq_ok hdependencies dependency hmem
  simp only [checkDependency, check_bind_eq_ok, require_eq_ok] at hdependency
  simpa using hdependency.1

/-! ## Cycles -/

/-- The first node names the second one. -/
def WorkflowDefinition.DependsOn (definition : WorkflowDefinition) (id dependency : String) :
    Prop :=
  ∃ node ∈ definition.nodes, node.id = id ∧ dependency ∈ node.dependsOn

def WorkflowDefinition.HasCycle (definition : WorkflowDefinition) : Prop :=
  ∃ id, Relation.TransGen definition.DependsOn id id

lemma hasCycle_iff :
    definition.HasCycle ↔ ∃ id, Relation.TransGen (Kahn.Before definition.graph) id id := by
  have hswap : Kahn.Before definition.graph = Function.swap definition.DependsOn := by
    funext dependency id
    simp only [Kahn.Before, graph, Function.swap,
      WorkflowDefinition.DependsOn, mem_map, Prod.mk.injEq, eq_iff_iff]
    constructor
    · rintro ⟨_, ⟨node, hnode, hid, rfl⟩, hmem⟩
      exact ⟨node, hnode, hid, hmem⟩
    · rintro ⟨node, hnode, hid, hmem⟩
      exact ⟨_, ⟨node, hnode, hid, rfl⟩, hmem⟩
  rw [hswap]
  exact exists_congr fun id => Relation.transGen_swap.symm

lemma indegree_of_mem (hkeys : (definition.graph.map (·.1)).Nodup)
    {entry : String × List String} (h : entry ∈ definition.graph) :
    definition.indegree entry.1 = entry.2.length := by
  rw [indegree, lookup_of_mem hkeys h]
  rfl

/-- Before the loop no dependency is closed. -/
lemma invariant_start (hkeys : (definition.graph.map (·.1)).Nodup) {ready : List String}
    (hready : ready.Perm definition.unblocked) :
    Kahn.Invariant definition.graph ⟨definition.indegree, ready, []⟩ := by
  have hids : definition.graph.map (·.1) = definition.nodes.map (·.id) := by
    rw [graph, map_map]
    rfl
  have hsublist : definition.unblocked.Sublist (definition.nodes.map (·.id)) :=
    filter_sublist.map _
  refine ⟨?_, fun id hid => ?_, fun entry hentry => ?_, fun entry hentry => ?_, trivial⟩
  · exact hready.nodup_iff.2 (hsublist.nodup (hids ▸ hkeys))
  · rw [hids]
    exact hsublist.subset (hready.mem_iff.1 hid)
  · dsimp only
    rw [indegree_of_mem hkeys hentry]
    simp
  · rw [nil_append, hready.mem_iff, unblocked, mem_map]
    constructor
    · rintro ⟨node, hnode, hid⟩
      exact hid ▸ of_decide_eq_true (mem_filter.1 hnode).2
    · intro hzero
      obtain ⟨node, hnode, rfl⟩ := mem_map.1 hentry
      exact ⟨node, mem_filter.2 ⟨hnode, decide_eq_true hzero⟩, rfl⟩

/-- Whatever the order in which the first nodes are taken, the loop ends after it has visited each
node at most once, and a cycle is reported exactly if there is one. A node may name a dependency
several times. -/
theorem validateDefinition_cycle_iff (checks : NodeChecks) (definition : WorkflowDefinition)
    (ready : List String) (fuel : ℕ) (hchecked : checkDefinition checks definition = .ok ())
    (hready : ready.Perm definition.unblocked) (hfuel : definition.nodes.length ≤ fuel) :
    (validateDefinition checks fuel ready definition = some (.error definition.cycleError) ↔
        definition.HasCycle) ∧
      (validateDefinition checks fuel ready definition = some (.ok ()) ↔ ¬ definition.HasCycle) ∧
      ∃ s, definition.visitReady fuel ready = some s ∧ s.visited.Nodup ∧
        ∀ id ∈ s.visited, id ∈ definition.nodes.map (·.id) := by
  obtain ⟨hkeys, hknown⟩ := checkDefinition_eq_ok hchecked
  have hlength : definition.graph.length = definition.nodes.length := length_map _
  have hroom : definition.graph.length ≤ ([] : List String).length + fuel := by
    rw [hlength, length_nil, Nat.zero_add]
    exact hfuel
  obtain ⟨s, hloop, hs, hempty⟩ := (invariant_start hkeys hready).loop hkeys hroom
  have hcycle := hs.visited_ne_iff hkeys hknown hempty
  rw [hlength, ← hasCycle_iff] at hcycle
  have hresult : validateDefinition checks fuel ready definition =
      some (require (s.visited.length = definition.nodes.length) definition.cycleError) := by
    rw [validateDefinition, hchecked]
    dsimp only
    rw [checkCycle, visitReady, hloop]
    rfl
  rw [hresult, ← hcycle]
  refine ⟨?_, ?_, s, hloop, ?_, fun id hid => ?_⟩
  · by_cases hall : s.visited.length = definition.nodes.length <;> simp [require, hall]
  · by_cases hall : s.visited.length = definition.nodes.length <;> simp [require, hall]
  · exact (nodup_append.1 hs.nodup).1
  · have hid := hs.known id (mem_append_left _ hid)
    rwa [graph, map_map] at hid

/-- A node that names its dependency twice. -/
def repeatedDependency : WorkflowDefinition where
  id := "release"
  version := "1"
  description := "Build, then publish."
  nodes := [{ id := "publish", dependsOn := ["build", "build"] }, { id := "build" }]

theorem repeatedDependency_no_cycle :
    validateDefinition ⟨fun _ _ => .ok (), fun _ _ => .ok (), id⟩ 2 ["build"] repeatedDependency =
        some (.ok ()) ∧ ¬ repeatedDependency.HasCycle := by
  have h := validateDefinition_cycle_iff ⟨fun _ _ => .ok (), fun _ _ => .ok (), id⟩
    repeatedDependency ["build"] 2 (by decide +kernel) (by decide +kernel) (by decide)
  have hok : validateDefinition ⟨fun _ _ => .ok (), fun _ _ => .ok (), id⟩ 2 ["build"]
      repeatedDependency = some (.ok ()) := by decide +kernel
  exact ⟨hok, h.2.1.1 hok⟩

end SolarisMesh.Workflow
