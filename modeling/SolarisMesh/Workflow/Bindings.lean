import SolarisMesh.Lib.Checked
import SolarisMesh.Lib.JsonPath
import SolarisMesh.Workflow.Definition

/-!
# The bound inputs of a node

Each binding selects a value of a dependency's output and writes it into one object. Bindings whose
destinations do not lead to each other can be written in any order.
-/

namespace SolarisMesh.Workflow

open List Lib

/-- The parts of a path that are not empty. -/
def segments (path : String) : List String := (pathParts path).filter (· ≠ "")

def jsonPath (value : Json) (path : String) : Option Json := value.descend (segments path)

def setJsonPath (root : Json) (path : String) (value : Json) : Except String Json := do
  require (segments path ≠ []) "output binding destination cannot be empty"
  return Json.write value (segments path) root

/-- The value the source path of a binding selects. -/
def selectOutput (nodeId : String) (outputs : List (String × Json)) (binding : OutputBinding) :
    Except String Json := do
  let sourceNode ← orElseThrow s!"workflow node {nodeId} has empty output binding source"
    ((pathParts binding.source).head?.filter (· ≠ ""))
  let output ← orElseThrow s!"workflow node {nodeId} binding source {sourceNode} is unavailable"
    (outputs.lookup sourceNode)
  let source := binding.source
  orElseThrow s!"workflow node {nodeId} binding path {source} is unavailable"
    (output.descend (pathParts binding.source).tail)

def buildBoundInputs (node : WorkflowNode) (outputs : List (String × Json)) : Except String Json :=
  node.outputBindings.foldlM (fun root binding => do
    let value ← selectOutput node.id outputs binding
    setJsonPath root binding.destination value) (.object [])

/-! ## What the bindings write -/

section Writes

variable (nodeId : String) (outputs : List (String × Json))

/-- What a binding writes, and where. -/
def writeOf (binding : OutputBinding) : Option (List String × Json) :=
  (selectOutput nodeId outputs binding).toOption.map (segments binding.destination, ·)

/-- A binding can be written. -/
def Binds (binding : OutputBinding) : Prop :=
  segments binding.destination ≠ [] ∧ ∃ value, selectOutput nodeId outputs binding = .ok value

variable {nodeId outputs}

lemma writeOf_eq_some {binding : OutputBinding} {entry : List String × Json} :
    writeOf nodeId outputs binding = some entry ↔
      selectOutput nodeId outputs binding = .ok entry.2 ∧ entry.1 =
        segments binding.destination := by
  rw [writeOf, Option.map_eq_some_iff]
  constructor
  · rintro ⟨value, hvalue, rfl⟩
    exact ⟨toOption_eq_some.1 hvalue, rfl⟩
  · rintro ⟨hvalue, hpath⟩
    exact ⟨entry.2, toOption_eq_some.2 hvalue, by rw [← hpath]⟩

lemma setJsonPath_eq_ok {root value next : Json} {path : String} :
    setJsonPath root path value = .ok next ↔
      segments path ≠ [] ∧ next = Json.write value (segments path) root := by
  rw [setJsonPath, check_bind_eq_ok, require_eq_ok, decide_eq_true_eq, pure_eq_ok,
    eq_comm (a := next)]

variable {bindings : List OutputBinding}

/-- The inputs are built if every binding can be written, by writing them in order. -/
lemma foldlM_eq_ok {root result : Json} :
    bindings.foldlM (fun root binding => do
        let value ← selectOutput nodeId outputs binding
        setJsonPath root binding.destination value) root = .ok result ↔
      (∀ binding ∈ bindings, Binds nodeId outputs binding) ∧
        result = (bindings.filterMap (writeOf nodeId outputs)).foldl
          (fun root entry => Json.write entry.2 entry.1 root) root := by
  induction bindings generalizing root with
  | nil =>
    rw [foldlM_nil, pure_eq_ok]
    exact ⟨fun heq => ⟨by simp, heq.symm⟩, fun h => h.2.symm⟩
  | cons binding bindings ih =>
    rw [foldlM_cons, bind_eq_ok, forall_mem_cons]
    constructor
    · rintro ⟨next, hnext, hrest⟩
      obtain ⟨hall, rfl⟩ := ih.1 hrest
      obtain ⟨value, hvalue, hset⟩ := bind_eq_ok.1 hnext
      obtain ⟨hne, rfl⟩ := setJsonPath_eq_ok.1 hset
      have hwrite : writeOf nodeId outputs binding = some (segments binding.destination, value) :=
        writeOf_eq_some.2 ⟨hvalue, rfl⟩
      rw [filterMap_cons_some hwrite]
      exact ⟨⟨⟨hne, value, hvalue⟩, hall⟩, rfl⟩
    · rintro ⟨⟨⟨hne, value, hvalue⟩, hall⟩, rfl⟩
      have hwrite : writeOf nodeId outputs binding = some (segments binding.destination, value) :=
        writeOf_eq_some.2 ⟨hvalue, rfl⟩
      refine ⟨_, bind_eq_ok.2 ⟨value, hvalue, setJsonPath_eq_ok.2 ⟨hne, rfl⟩⟩, ih.2 ⟨hall, ?_⟩⟩
      rw [filterMap_cons_some hwrite]
      rfl

/-- The destinations do not lead to each other. -/
def DestinationsApart (bindings : List OutputBinding) : Prop :=
  bindings.Pairwise fun binding other =>
    Json.Apart (segments binding.destination) (segments other.destination)

lemma DestinationsApart.perm {bindings' : List OutputBinding} (h : DestinationsApart bindings)
    (hperm : bindings.Perm bindings') :
    DestinationsApart bindings' :=
  (hperm.pairwise_iff fun hapart => And.symm hapart).1 h

lemma written_of_bindings (hbinds : ∀ binding ∈ bindings, Binds nodeId outputs binding)
    (hapart : DestinationsApart bindings) :
    Json.Written (bindings.filterMap (writeOf nodeId outputs))
      ((bindings.filterMap (writeOf nodeId outputs)).foldl
        (fun root entry => Json.write entry.2 entry.1 root) (.object [])) := by
  refine Json.written_nil.foldl (fun entry hentry => ?_) ?_
  · obtain ⟨binding, hbinding, hwrite⟩ := mem_filterMap.1 hentry
    rw [(writeOf_eq_some.1 hwrite).2]
    exact (hbinds binding hbinding).1
  · refine pairwise_filterMap.2 (hapart.imp fun hapart entry hentry other hother => ?_)
    rw [(writeOf_eq_some.1 hentry).2, (writeOf_eq_some.1 hother).2]
    exact hapart

end Writes

/-- A value without members. -/
def IsLeaf (value : Json) : Prop := ∀ key, value.get key = none

/-- If the inputs are built from bindings whose destinations do not lead to each other, each
destination holds what its source selects, no leaf lies outside of the destinations, and the
bindings can be written in any order. -/
theorem buildBoundInputs_exact (node : WorkflowNode) (outputs : List (String × Json))
    (result : Json) (h : buildBoundInputs node outputs = .ok result)
    (hapart : DestinationsApart node.outputBindings) :
    (∀ binding ∈ node.outputBindings, ∃ value,
        selectOutput node.id outputs binding = .ok value ∧
          jsonPath result binding.destination = some value) ∧
      (∀ path value, path ≠ [] → result.descend path = some value → IsLeaf value →
        ∃ binding ∈ node.outputBindings, segments binding.destination <+: path) ∧
      ∀ bindings, bindings.Perm node.outputBindings → ∃ result',
        buildBoundInputs { node with outputBindings := bindings } outputs = .ok result' ∧
          Json.Alike result result' := by
  obtain ⟨hbinds, rfl⟩ := foldlM_eq_ok.1 h
  have hwritten := written_of_bindings hbinds hapart
  refine ⟨fun binding hbinding => ?_, fun path value hpath hvalue hleaf => ?_, fun bindings hperm =>
    ?_⟩
  · obtain ⟨-, value, hvalue⟩ := hbinds binding hbinding
    have hwrite : writeOf node.id outputs binding = some (segments binding.destination, value) :=
      writeOf_eq_some.2 ⟨hvalue, rfl⟩
    have hfound := hwritten.found _ (mem_filterMap.2 ⟨binding, hbinding, hwrite⟩) []
    rw [append_nil] at hfound
    exact ⟨value, hvalue, hfound⟩
  · obtain ⟨entry, hentry, hknown⟩ := hwritten.known path hpath (Option.isSome_of_eq_some hvalue)
    obtain ⟨binding, hbinding, hwrite⟩ := mem_filterMap.1 hentry
    refine ⟨binding, hbinding, ?_⟩
    rw [← (writeOf_eq_some.1 hwrite).2]
    rcases hknown with hinside | hway
    · exact hinside
    · by_contra hnot
      have hne : path ≠ entry.1 := fun heq => hnot (heq ▸ prefix_rfl)
      obtain ⟨key, member, hmember⟩ := hwritten.way hentry hway hne
      rw [hvalue, Option.bind_some, hleaf key] at hmember
      cases hmember
  · have hbinds' : ∀ binding ∈ bindings, Binds node.id outputs binding := fun binding hbinding =>
      hbinds binding (hperm.mem_iff.1 hbinding)
    have hwritten' := written_of_bindings hbinds' (hapart.perm hperm.symm)
    refine ⟨_, foldlM_eq_ok.2 ⟨hbinds', rfl⟩, hwritten.alike hwritten' fun entry => ?_⟩
    exact (hperm.filterMap _).mem_iff.symm

/-- Two bindings into one object. -/
def reportNode : WorkflowNode where
  id := "report"
  dependsOn := ["build"]
  outputBindings := [⟨"build.log", "inputs.log"⟩, ⟨"build", ".inputs..result"⟩]

def buildOutputs : List (String × Json) := [("build", .object [("log", .string "ok")])]

def reportInputs : Json :=
  .object [("inputs", .object [("log", .string "ok"), ("result", .object [("log", .string "ok")])])]

theorem reportInputs_exact :
    buildBoundInputs reportNode buildOutputs = .ok reportInputs ∧
      jsonPath reportInputs "inputs.log" = some (.string "ok") := by
  have hok : buildBoundInputs reportNode buildOutputs = .ok reportInputs := by decide +kernel
  have hapart : DestinationsApart reportNode.outputBindings := by
    unfold DestinationsApart Json.Apart
    decide +kernel
  obtain ⟨value, hvalue, hpath⟩ := (buildBoundInputs_exact reportNode buildOutputs reportInputs hok
    hapart).1 ⟨"build.log", "inputs.log"⟩ mem_cons_self
  have hselected : selectOutput reportNode.id buildOutputs ⟨"build.log", "inputs.log"⟩ =
      .ok (.string "ok") := by decide +kernel
  rw [hselected] at hvalue
  cases hvalue
  exact ⟨hok, hpath⟩

end SolarisMesh.Workflow
