import SolarisMesh.Workflow.Snapshot

/-!
# What the failures of a run amount to

A failed run is summed up by the class of its failures with the highest priority. A node that runs
a workflow of its own fails with the class its child run is summed up by, so the classes go up level
by level. A node that does not wait for its child to settle fails with a class of its own.
-/

namespace SolarisMesh.Workflow

open List SolarisMesh.Types

/-! ## Summaries -/

def failurePriority : TaskFailureClass → ℕ
  | .reconciliationRequired => 9
  | .sideEffectUnknown => 8
  | .outcomeUnknown => 7
  | .cancelled => 6
  | .permissionDenied => 5
  | .nonConvergent => 4
  | .maxTurns => 3
  | .nonRetryable => 2
  | .retryable => 1

/-- The class of the highest priority, the last one of several. -/
def maxByPriority : List TaskFailureClass → Option TaskFailureClass
  | [] => none
  | failureClass :: rest =>
    match maxByPriority rest with
    | none => some failureClass
    | some best => if failurePriority failureClass ≤ failurePriority best then some best
      else some failureClass

/-- The failed nodes. -/
def failedNodes (nodes : List (String × WorkflowNodeAttempt)) : List (String × TaskFailureClass) :=
  (nodes.filter (·.2.status = .failed)).map fun node =>
    (node.1, node.2.failureClass.getD .nonRetryable)

def aggregateWorkflowFailures (nodes : List (String × WorkflowNodeAttempt)) :
    Option WorkflowFailureSummary :=
  (maxByPriority ((failedNodes nodes).map (·.2))).map fun primary => ⟨primary, failedNodes nodes⟩

def WorkflowFailureSummary.primaryForParent (summary : WorkflowFailureSummary) : TaskFailureClass :=
  if summary.failures.all (·.2 = .retryable) then .retryable
  else if summary.primaryFailureClass = .retryable then .nonRetryable
  else summary.primaryFailureClass

/-- `settle`, without the ledger and the deferred writes of tasks. -/
def WorkflowRunSnapshot.settle (snapshot : WorkflowRunSnapshot) : WorkflowRunSnapshot :=
  if snapshot.nodes.any (·.2.status = .running) then snapshot
  else
    let status :=
      if snapshot.nodes.any (·.2.status = .failed) then .failed
      else if snapshot.nodes.all (·.2.status.isSettled) then .completed
      else snapshot.status
    { snapshot with
      status
      failureSummary :=
        if status = .failed then aggregateWorkflowFailures snapshot.nodes else none }

/-! ## Nodes that run a workflow -/

structure WorkflowNodeError where
  failureClass : TaskFailureClass
  message : String
deriving DecidableEq, Repr

/-- How the wait for a child run ends. -/
inductive ChildEnding where
  /-- `start_child` fails. -/
  | notStarted (message : String)
  /-- `execute_until_settled` returns what `settle` made of the run. -/
  | settled
  /-- `execute_until_settled` fails on the way. -/
  | interrupted (message : String)
  | timedOut (timeoutMs : ℕ)
  /-- The child is completed and its definition is gone. -/
  | undefined
deriving DecidableEq, Repr

def WorkflowRunSnapshot.failureForParent (snapshot : WorkflowRunSnapshot) : TaskFailureClass :=
  ((snapshot.failureSummary.or (aggregateWorkflowFailures snapshot.nodes)).map
    (·.primaryForParent)).getD .nonRetryable

/-- What `execute_context` makes of a child run; `none` if the node completes. -/
def executeContext (workflowRef : String) (child : WorkflowRunSnapshot) :
    ChildEnding → Option WorkflowNodeError
  | .notStarted message => some ⟨.nonRetryable, message⟩
  | .timedOut timeoutMs => some ⟨.outcomeUnknown,
      s!"workflow node timed out after {timeoutMs}ms; child execution outcome is unknown"⟩
  | .interrupted message => some ⟨child.failureForParent, message⟩
  | .undefined => some ⟨.nonRetryable, s!"subworkflow definition disappeared: {workflowRef}"⟩
  | .settled =>
    let settled := child.settle
    let status := settled.status.debugName
    let message := s!"subworkflow {workflowRef} settled as {status}"
    match settled.status with
    | .completed => none
    | .cancelled => some ⟨.cancelled, message⟩
    | .failed => some ⟨settled.failureForParent, message⟩
    | .running => some ⟨.nonRetryable, message⟩

/-- A run is running or cancelled until it is settled, and has no summary. -/
def UnsettledRun : Type :=
  { run : WorkflowRunSnapshot //
    (run.status = .running ∨ run.status = .cancelled) ∧ run.failureSummary = none }

def UnsettledRun.withNodes (run : UnsettledRun) (nodes : List (String × WorkflowNodeAttempt)) :
    WorkflowRunSnapshot :=
  { run.1 with nodes }

/-- An attempt that still runs or was cancelled. -/
def OpenAttempt : Type :=
  { attempt : WorkflowNodeAttempt // attempt.status = .running ∨ attempt.status = .cancelled }

/-- A node with its last attempt, or with the child run of that attempt,
which may have ended or not. -/
inductive NodeRun where
  | leaf (attempt : WorkflowNodeAttempt)
  | unended (attempt : OpenAttempt) (child : UnsettledRun) (nodes : List (String × NodeRun))
  | subworkflow (workflowRef : String) (ending : ChildEnding) (child : UnsettledRun)
      (nodes : List (String × NodeRun))

/-- The last attempt of a node that ran a workflow, as `complete_node` and `fail_node` leave it. -/
def endedAttempt : Option WorkflowNodeError → WorkflowNodeAttempt
  | none => { attemptId := "", status := .completed }
  | some error =>
    { attemptId := "", status := .failed, error := some error.message
      failureClass := some error.failureClass }

mutual

def NodeRun.attempt : NodeRun → WorkflowNodeAttempt
  | .leaf attempt => attempt
  | .unended attempt _ _ => attempt.1
  | .subworkflow workflowRef ending child nodes =>
    endedAttempt (executeContext workflowRef (child.withNodes (attempts nodes)) ending)
termination_by structural run => run

/-- The nodes of a run with their last attempts. -/
def attempts : List (String × NodeRun) → List (String × WorkflowNodeAttempt)
  | [] => []
  | node :: nodes => attemptOf node :: attempts nodes

def attemptOf : String × NodeRun → String × WorkflowNodeAttempt
  | (id, run) => (id, run.attempt)

end

/-! ## Failures of leaves -/

/-- The node failed because its child run had failed. -/
def ChildEnding.passesOn (child : WorkflowRunSnapshot) : ChildEnding → Bool
  | .settled => child.settle.status = .failed
  | .interrupted _ => child.nodes.any (·.2.status = .failed)
  | .notStarted _ | .timedOut _ | .undefined => false

/-- The class a node failed with. -/
def WorkflowNodeAttempt.failures (attempt : WorkflowNodeAttempt) : List TaskFailureClass :=
  if attempt.status = .failed then [attempt.failureClass.getD .nonRetryable] else []

mutual

/-- The classes of the failed leaves of a run. A node that failed counts as a leaf unless it failed
because its child run had failed; what is below a node that runs or was cancelled does not count. -/
def NodeRun.leafFailures : NodeRun → List TaskFailureClass
  | .leaf attempt => attempt.failures
  | .unended attempt _ _ => attempt.1.failures
  | .subworkflow workflowRef ending child nodes =>
    if ending.passesOn (child.withNodes (attempts nodes)) then leavesOf nodes
    else (endedAttempt
      (executeContext workflowRef (child.withNodes (attempts nodes)) ending)).failures
termination_by structural run => run

def leavesOf : List (String × NodeRun) → List TaskFailureClass
  | [] => []
  | node :: nodes => leavesOfNode node ++ leavesOf nodes

def leavesOfNode : String × NodeRun → List TaskFailureClass
  | (_, run) => run.leafFailures

end

/-- The class of the highest priority among others. -/
structure IsWorst (failures : List TaskFailureClass) (failureClass : TaskFailureClass) : Prop where
  mem : failureClass ∈ failures
  le : ∀ other ∈ failures, failurePriority other ≤ failurePriority failureClass

lemma maxByPriority_eq_some {failures : List TaskFailureClass} {best : TaskFailureClass}
    (h : maxByPriority failures = some best) : IsWorst failures best := by
  induction failures generalizing best with
  | nil => cases h
  | cons failureClass rest ih =>
    rw [maxByPriority] at h
    cases hrest : maxByPriority rest with
    | none =>
      rw [hrest] at h
      cases h
      have hnil : rest = [] := by
        cases rest with
        | nil => rfl
        | cons other rest =>
          rw [maxByPriority] at hrest
          split at hrest
          · cases hrest
          · split_ifs at hrest
      subst hnil
      exact ⟨mem_cons_self, by simp⟩
    | some other =>
      obtain ⟨hmem, hle⟩ := ih hrest
      rw [hrest] at h
      dsimp only at h
      split_ifs at h with hpriority
      · cases h
        exact ⟨mem_cons_of_mem _ hmem, forall_mem_cons.2 ⟨hpriority, hle⟩⟩
      · cases h
        refine ⟨mem_cons_self, forall_mem_cons.2 ⟨Nat.le_refl _, fun other hother => ?_⟩⟩
        exact (hle other hother).trans (Nat.le_of_not_le hpriority)

/-- Retryable is the class of no failure but retryable ones. -/
lemma IsWorst.eq_retryable_iff {failures : List TaskFailureClass} {worst : TaskFailureClass}
    (h : IsWorst failures worst) :
    worst = .retryable ↔ ∀ other ∈ failures, other = .retryable := by
  constructor
  · rintro rfl other hother
    have hle := h.le other hother
    revert hle
    cases other <;> decide
  · exact fun hall => hall worst h.mem

/-- What is to be reconciled or has an unknown effect or outcome. -/
def isUnknown : TaskFailureClass → Bool
  | .reconciliationRequired | .sideEffectUnknown | .outcomeUnknown => true
  | _ => false

lemma isUnknown_of_le {a b : TaskFailureClass} (ha : isUnknown a = true)
    (hle : failurePriority a ≤ failurePriority b) : isUnknown b = true := by
  revert ha hle
  cases a <;> cases b <;> decide

lemma aggregateWorkflowFailures_isSome {nodes : List (String × WorkflowNodeAttempt)}
    (h : nodes.any (·.2.status = .failed) = true) :
    ∃ summary, aggregateWorkflowFailures nodes = some summary := by
  obtain ⟨node, hnode, hstatus⟩ := any_eq_true.1 h
  have hmem : (node.1, node.2.failureClass.getD .nonRetryable) ∈ failedNodes nodes :=
    mem_map.2 ⟨node, mem_filter.2 ⟨hnode, hstatus⟩, rfl⟩
  rw [aggregateWorkflowFailures]
  cases hfailed : failedNodes nodes with
  | nil =>
    rw [hfailed] at hmem
    cases hmem
  | cons first rest =>
    rw [map_cons, maxByPriority]
    split
    · exact ⟨_, rfl⟩
    · split_ifs <;> exact ⟨_, rfl⟩

lemma map_failedNodes (nodes : List (String × WorkflowNodeAttempt)) :
    (failedNodes nodes).map (·.2) = nodes.flatMap (·.2.failures) := by
  induction nodes with
  | nil => rfl
  | cons node nodes ih =>
    rw [flatMap_cons, ← ih, WorkflowNodeAttempt.failures, failedNodes, filter_cons]
    by_cases hstatus : node.2.status = .failed <;> simp [hstatus, failedNodes]

/-- The summary is worst among what the nodes failed with, and so is what the parent gets. -/
lemma isWorst_of_aggregate {nodes : List (String × WorkflowNodeAttempt)}
    {summary : WorkflowFailureSummary} (h : aggregateWorkflowFailures nodes = some summary) :
    IsWorst (nodes.flatMap (·.2.failures)) summary.primaryForParent := by
  rw [aggregateWorkflowFailures, Option.map_eq_some_iff] at h
  obtain ⟨primary, hprimary, rfl⟩ := h
  have hworst := maxByPriority_eq_some hprimary
  have hall : (failedNodes nodes).all (·.2 = .retryable) = true ↔ primary = .retryable := by
    rw [hworst.eq_retryable_iff, forall_mem_map, all_eq_true]
    exact forall₂_congr fun _ _ => decide_eq_true_iff
  rw [← map_failedNodes]
  -- the projection for the parent only repeats what the priorities say already
  have hprojected : WorkflowFailureSummary.primaryForParent ⟨primary, failedNodes nodes⟩ =
      primary := by
    rw [WorkflowFailureSummary.primaryForParent]
    split_ifs with hretryable hprimary
    · exact (hall.1 hretryable).symm
    · exact absurd (hall.2 hprimary) hretryable
    · rfl
  rw [hprojected]
  exact hworst

/-! ## Level by level -/

lemma attempts_eq (nodes : List (String × NodeRun)) :
    attempts nodes = nodes.map fun node => (node.1, node.2.attempt) := by
  induction nodes with
  | nil => rfl
  | cons node nodes ih => rw [attempts, ih, map_cons, attemptOf]

lemma leavesOf_eq (nodes : List (String × NodeRun)) :
    leavesOf nodes = nodes.flatMap (·.2.leafFailures) := by
  induction nodes with
  | nil => rfl
  | cons node nodes ih => rw [leavesOf, ih, flatMap_cons, leavesOfNode]

/-- What a node failed with is worst among its failed leaves. -/
def SumsUp (own leaves : List TaskFailureClass) : Prop :=
  own = [] ∧ leaves = [] ∨ ∃ failureClass, own = [failureClass] ∧ IsWorst leaves failureClass

lemma sumsUp_failures (attempt : WorkflowNodeAttempt) :
    SumsUp attempt.failures attempt.failures := by
  rw [WorkflowNodeAttempt.failures]
  split_ifs
  · exact .inr ⟨_, rfl, mem_singleton_self _, by simp⟩
  · exact .inl ⟨rfl, rfl⟩

/-- The worst of what the nodes failed with is worst among all their leaves. -/
lemma IsWorst.of_sumsUp {α : Type} {nodes : List α} {own leaves : α → List TaskFailureClass}
    (hsums : ∀ node ∈ nodes, SumsUp (own node) (leaves node)) {worst : TaskFailureClass}
    (h : IsWorst (nodes.flatMap own) worst) : IsWorst (nodes.flatMap leaves) worst := by
  obtain ⟨hmem, hle⟩ := h
  constructor
  · obtain ⟨node, hnode, hown⟩ := mem_flatMap.1 hmem
    rcases hsums node hnode with ⟨hnone, -⟩ | ⟨failureClass, hclass, hworst⟩
    · rw [hnone] at hown
      cases hown
    · rw [hclass, mem_singleton] at hown
      exact mem_flatMap.2 ⟨node, hnode, hown ▸ hworst.mem⟩
  · intro other hother
    obtain ⟨node, hnode, hleaf⟩ := mem_flatMap.1 hother
    rcases hsums node hnode with ⟨-, hnone⟩ | ⟨failureClass, hclass, hworst⟩
    · rw [hnone] at hleaf
      cases hleaf
    · refine (hworst.le other hleaf).trans (hle failureClass (mem_flatMap.2 ⟨node, hnode, ?_⟩))
      rw [hclass]
      exact mem_singleton_self _

section Run

variable {run : UnsettledRun} {nodes : List (String × NodeRun)}

/-- What a run with failed nodes is summed up by is worst among its leaves. -/
lemma isWorst_failureForParent
    (hsums : ∀ node ∈ nodes, SumsUp node.2.attempt.failures node.2.leafFailures)
    {snapshot : WorkflowRunSnapshot} (hnodes : snapshot.nodes = attempts nodes)
    (hsummary : snapshot.failureSummary = none ∨
      snapshot.failureSummary = aggregateWorkflowFailures (attempts nodes))
    (hfailed : (attempts nodes).any (·.2.status = .failed) = true) :
    IsWorst (leavesOf nodes) snapshot.failureForParent := by
  obtain ⟨summary, haggregate⟩ := aggregateWorkflowFailures_isSome hfailed
  have hparent : snapshot.failureForParent = summary.primaryForParent := by
    rw [WorkflowRunSnapshot.failureForParent, hnodes]
    rcases hsummary with hsummary | hsummary <;> rw [hsummary, haggregate] <;> rfl
  have hworst := isWorst_of_aggregate haggregate
  rw [attempts_eq, flatMap_map] at hworst
  rw [hparent, leavesOf_eq]
  exact hworst.of_sumsUp hsums

/-- A run that settles as failed has a failed node and the summary of its nodes. -/
lemma settle_failed {nodes : List (String × WorkflowNodeAttempt)}
    (h : (run.withNodes nodes).settle.status = .failed) :
    (run.withNodes nodes).settle.nodes = nodes ∧
      (run.withNodes nodes).settle.failureSummary = aggregateWorkflowFailures nodes ∧
      nodes.any (·.2.status = .failed) = true := by
  have hunsettled : run.1.status ≠ .failed := by
    rcases run.2.1 with hstatus | hstatus <;> rw [hstatus] <;> decide
  rw [UnsettledRun.withNodes, WorkflowRunSnapshot.settle] at h ⊢
  by_cases hrunning : nodes.any (·.2.status = .running) = true
  · rw [if_pos hrunning] at h
    exact absurd h hunsettled
  · rw [if_neg hrunning] at h ⊢
    dsimp only at h ⊢
    by_cases hfailed : nodes.any (·.2.status = .failed) = true
    · rw [if_pos hfailed]
      exact ⟨rfl, if_pos rfl, hfailed⟩
    · rw [if_neg hfailed] at h
      split_ifs at h
      exact absurd h hunsettled

lemma executeContext_failed (workflowRef : String) {child : WorkflowRunSnapshot}
    (h : child.settle.status = .failed) : ∃ message,
    executeContext workflowRef child .settled = some ⟨child.settle.failureForParent, message⟩ := by
  refine ⟨s!"subworkflow {workflowRef} settled as " ++ "Failed", ?_⟩
  simp only [executeContext, h, WorkflowRunStatus.debugName]
  rfl

lemma sumsUp_subworkflow (workflowRef : String) (ending : ChildEnding)
    (hsums : ∀ node ∈ nodes, SumsUp node.2.attempt.failures node.2.leafFailures) :
    SumsUp (NodeRun.subworkflow workflowRef ending run nodes).attempt.failures
      (NodeRun.subworkflow workflowRef ending run nodes).leafFailures := by
  rw [NodeRun.attempt, NodeRun.leafFailures]
  split_ifs with hpasses
  · -- the node fails with what its child is summed up by
    cases ending with
    | settled =>
      have hstatus := of_decide_eq_true hpasses
      obtain ⟨hnodes, hsummary, hfailed⟩ := settle_failed hstatus
      obtain ⟨message, hexecute⟩ := executeContext_failed workflowRef hstatus
      rw [hexecute]
      exact .inr ⟨_, rfl, isWorst_failureForParent hsums hnodes (.inr hsummary) hfailed⟩
    | interrupted message =>
      exact .inr ⟨_, rfl, isWorst_failureForParent hsums rfl (.inl run.2.2) hpasses⟩
    | notStarted | timedOut | undefined => cases hpasses
  · exact sumsUp_failures _

end Run

mutual

lemma NodeRun.sumsUp : (run : NodeRun) → SumsUp run.attempt.failures run.leafFailures
  | .leaf attempt => sumsUp_failures attempt
  | .unended attempt _ _ => sumsUp_failures attempt.1
  | .subworkflow workflowRef ending _ nodes => sumsUp_subworkflow workflowRef ending
    (sumsUp_nodes nodes)
termination_by structural run => run

lemma sumsUp_nodes : (nodes : List (String × NodeRun)) →
    ∀ node ∈ nodes, SumsUp node.2.attempt.failures node.2.leafFailures
  | [] => fun _ h => by cases h
  | node :: nodes => forall_mem_cons.2 ⟨sumsUp_node node, sumsUp_nodes nodes⟩

lemma sumsUp_node : (node : String × NodeRun) →
    SumsUp node.2.attempt.failures node.2.leafFailures
  | (_, run) => run.sumsUp

end

/-- At any depth of nested runs: if a child settles as failed, its parent gets the class of the
highest priority at its failed leaves, and so retryable exactly if they all are. None of them is
hidden: an unknown or reconciliation failure is passed on as one. -/
theorem failed_child_class (workflowRef : String) (run : UnsettledRun)
    (nodes : List (String × NodeRun))
    (hfailed : (run.withNodes (attempts nodes)).settle.status = .failed) :
    ∃ error, executeContext workflowRef (run.withNodes (attempts nodes)) .settled = some error ∧
      (error.failureClass = .retryable ↔ ∀ leaf ∈ leavesOf nodes, leaf = .retryable) ∧
      IsWorst (leavesOf nodes) error.failureClass ∧
      ((∃ leaf ∈ leavesOf nodes, isUnknown leaf = true) → isUnknown error.failureClass = true) := by
  obtain ⟨hnodes, hsummary, hany⟩ := settle_failed hfailed
  have hworst := isWorst_failureForParent (sumsUp_nodes nodes) hnodes (.inr hsummary) hany
  obtain ⟨message, hexecute⟩ := executeContext_failed workflowRef hfailed
  refine ⟨_, hexecute, hworst.eq_retryable_iff, hworst, ?_⟩
  rintro ⟨leaf, hleaf, hunknown⟩
  exact isUnknown_of_le hunknown (hworst.le leaf hleaf)

/-! ### A node that does not wait -/

def freshRun : UnsettledRun :=
  ⟨⟨"1", none, .running, none, [], .null⟩, .inl rfl, rfl⟩

def unreconciled : WorkflowNodeAttempt where
  attemptId := "1"
  status := .failed
  failureClass := some .reconciliationRequired

/-- One node of the inner run needs a reconciliation, another one is still running. -/
def deployment (ending : ChildEnding) : List (String × NodeRun) :=
  [("deploy", .subworkflow "deploy" ending freshRun
    [("apply", .leaf unreconciled), ("verify", .leaf { attemptId := "1", status := .running })])]

/-- The outer node times out and fails with a class of its own. -/
theorem timeout_hides_reconciliation :
    (freshRun.withNodes (attempts (deployment (.timedOut 1000)))).settle.status = .failed ∧
      (executeContext "release" (freshRun.withNodes (attempts (deployment (.timedOut 1000))))
        .settled).map (·.failureClass) = some .outcomeUnknown := by
  decide +kernel

/-- The outer node fails because the ledger does, and passes on what has failed so far. -/
theorem failed_child_class_interrupted :
    let nodes := deployment (.interrupted "disk full")
    (freshRun.withNodes (attempts nodes)).settle.status = .failed ∧
      ∃ error, executeContext "release" (freshRun.withNodes (attempts nodes)) .settled =
          some error ∧
        (error.failureClass = .retryable ↔ ∀ leaf ∈ leavesOf nodes, leaf = .retryable) ∧
        IsWorst (leavesOf nodes) error.failureClass ∧
        ((∃ leaf ∈ leavesOf nodes, isUnknown leaf = true) → isUnknown error.failureClass = true) :=
  ⟨by decide +kernel, failed_child_class "release" freshRun _ (by decide +kernel)⟩

end SolarisMesh.Workflow
