import SolarisMesh.Tasks.Lifecycle

/-!
# Restored compare-and-sets

A durable record is restored in two steps: its operation is remembered, then its task is put in
place. The second step can refuse the record after the first has been done.
-/

namespace SolarisMesh.Tasks

open Lib SolarisMesh.Types Ledger

namespace TaskRegistry

variable (registry : TaskRegistry) (record : TaskRecord)

/-- The second step, over whatever the first has remembered. -/
def restoreTask : TaskRegistry × IoResult Unit :=
  match registry.tasks record.taskId with
  | none => (registry.upsert record, .ok ())
  | some current =>
    if current.revision > record.revision then (registry, .ok ())
    else if current.revision = record.revision then
      let revision := record.revision
      if current = record then (registry, .ok ())
      else (registry, .error (otherError s!"conflicting task projection at revision {revision}"))
    else (registry.upsert record, .ok ())

def restoreCas (operationId : OperationId) (mutationDigest : String)
    (expectedRevision newRevision : ℕ) : TaskRegistry × IoResult Unit :=
  if record.revision ≠ newRevision ∨ u64CheckedAdd expectedRevision 1 ≠ some newRevision then
    (registry, .error (otherError "invalid durable task CAS revision pair"))
  else
    let applied : AppliedTaskCas :=
      ⟨record.taskId, mutationDigest, expectedRevision, newRevision, record⟩
    match registry.applied operationId with
    | some existing =>
      if existing ≠ applied then
        (registry,
          .error (otherError s!"task operation {operationId} has conflicting durable results"))
      else registry.restoreTask record
    | none => (registry.insertApplied operationId applied).restoreTask record

/-- A rejected record leaves both maps as they were, and no later call of its operation gives a
result that was neither accepted before nor is written by the call. -/
def Rejects (operationId : OperationId) (after : TaskRegistry × IoResult Unit) : Prop :=
  ∀ error, after.2 = .error error → after.1 = registry ∧
    ∀ (α : Type) taskId expectedRevision mutationDigest mutation (persist : TaskRecord → IoResult α)
      next written result,
      after.1.casDurable taskId expectedRevision operationId mutationDigest mutation persist =
        .ok (next, written, result) →
      written.isSome ∨ ∃ applied ∈ registry.applied operationId, applied.result = result

/-- The task has another record of the same revision. -/
def Conflicts : Prop :=
  ∃ current, registry.tasks record.taskId = some current ∧ current.revision = record.revision ∧
    current ≠ record

lemma restoreTask_cases :
    (registry.Conflicts record ∧ ∃ error, registry.restoreTask record = (registry, .error error)) ∨
      ¬ registry.Conflicts record ∧ (registry.restoreTask record).2 = .ok () := by
  unfold restoreTask Conflicts
  cases registry.tasks record.taskId with
  | none => exact .inr ⟨by simp, rfl⟩
  | some current =>
    simp only [Option.some.injEq, exists_eq_left']
    split_ifs with hlater hsame hequal
    · exact .inr ⟨fun h => absurd h.1 hlater.ne', rfl⟩
    · exact .inr ⟨fun h => h.2 hequal, rfl⟩
    · exact .inl ⟨⟨hsame, hequal⟩, _, rfl⟩
    · exact .inr ⟨fun h => hsame h.1, rfl⟩

variable {registry record}

lemma rejects_of_unchanged {operationId : OperationId} {after : TaskRegistry × IoResult Unit}
    (h : ∀ error, after.2 = .error error → after.1 = registry) :
    registry.Rejects operationId after := by
  intro error herror
  refine ⟨h error herror, fun α _ _ _ _ _ _ _ _ hcas => ?_⟩
  rw [h error herror] at hcas
  obtain ⟨applied, happlied, -, -, -, rfl⟩ | ⟨-, _, _, -, -, -, -, -, rfl, -⟩ :=
    casDurable_eq_ok hcas
  · exact .inr ⟨applied, happlied, rfl⟩
  · exact .inl rfl

/-- A rejected record leaves no trace exactly if it does not, with an operation that is not known,
conflict with its task. -/
theorem restoreCas_rejects_iff (operationId : OperationId) (mutationDigest : String)
    (expectedRevision newRevision : ℕ) :
    registry.Rejects operationId
        (registry.restoreCas record operationId mutationDigest expectedRevision newRevision) ↔
      ¬ (record.revision = newRevision ∧ u64CheckedAdd expectedRevision 1 = some newRevision ∧
        registry.applied operationId = none ∧ registry.Conflicts record) := by
  unfold restoreCas
  split_ifs with hpair
  · refine iff_of_true (rejects_of_unchanged fun _ _ => rfl) fun h => ?_
    exact hpair.elim (· h.1) (· h.2.1)
  rw [not_or, not_not, not_not] at hpair
  dsimp only
  cases happlied : registry.applied operationId with
  | some existing =>
    refine iff_of_true (rejects_of_unchanged fun error herror => ?_)
      fun h => absurd h.2.2.1 (Option.some_ne_none _)
    dsimp only at herror ⊢
    split_ifs at herror ⊢ with hexisting
    · rfl
    · obtain ⟨-, _, heq⟩ | ⟨-, hok⟩ := registry.restoreTask_cases record
      · rw [heq]
      · cases hok.symm.trans herror
  | none =>
    obtain ⟨hconflicts, error, heq⟩ | ⟨hconflicts, hok⟩ :=
      (registry.insertApplied operationId _).restoreTask_cases record
    · -- the operation is remembered although its record is refused
      refine iff_of_false (fun h => ?_) (not_not.2 ⟨hpair.1, hpair.2, rfl, hconflicts⟩)
      rw [heq] at h
      have hsame := congrArg (·.applied operationId) (h error rfl).1
      rw [happlied, insertApplied_self] at hsame
      cases hsame
    · refine iff_of_true (rejects_of_unchanged fun error herror => ?_) fun h => hconflicts h.2.2.2
      cases hok.symm.trans herror

/-! ### Restoring again -/

/-- `restore_cas` with what it is given of a payload. -/
def restoring : Machine TaskRegistry TaskCasPayload (IoResult Unit) where
  step registry payload := registry.restoreCas payload.task payload.operationId
    payload.mutationDigest payload.expectedRevision payload.newRevision

/-- Operations are kept, and the revisions of tasks do not decrease. -/
structure Grows (before after : TaskRegistry) : Prop where
  applied {id x} : before.applied id = some x → after.applied id = some x
  tasks {id x} : before.tasks id = some x → ∃ y, after.tasks id = some y ∧ x.revision ≤ y.revision

lemma Grows.refl (registry : TaskRegistry) : registry.Grows registry :=
  ⟨id, fun hx => ⟨_, hx, le_rfl⟩⟩

lemma Grows.trans {before between after : TaskRegistry} (h : before.Grows between)
    (h' : between.Grows after) : before.Grows after := by
  refine ⟨fun hx => h'.applied (h.applied hx), fun hx => ?_⟩
  obtain ⟨y, hy, hle⟩ := h.tasks hx
  obtain ⟨z, hz, hle'⟩ := h'.tasks hy
  exact ⟨z, hz, hle.trans hle'⟩

variable (registry record) in
lemma restoreTask_grows : registry.Grows (registry.restoreTask record).1 ∧
    ∃ task, (registry.restoreTask record).1.tasks record.taskId = some task ∧
      record.revision ≤ task.revision := by
  have hupsert (h : ∀ x, registry.tasks record.taskId = some x → x.revision ≤ record.revision) :
      registry.Grows (registry.upsert record) :=
    ⟨id, by simp only [upsert, insertTask, Function.update_apply]; grind⟩
  unfold restoreTask
  split
  · exact ⟨hupsert (by simp [*]), record, by simp [upsert], le_rfl⟩
  · split_ifs
    all_goals first
      | exact ⟨.refl _, _, ‹_›, by omega⟩
      | exact ⟨hupsert (by grind), record, by simp [upsert], le_rfl⟩

/-- A restored payload is not restored again, whatever is restored in between. -/
lemma restoring_spec (registry : TaskRegistry) (payload : TaskCasPayload) :
    let next := restoring.next registry payload
    registry.Grows next ∧ ∀ after, next.Grows after → restoring.next after payload = after := by
  simp only [Machine.next, restoring, restoreCas]
  split_ifs with hpair
  · exact ⟨.refl _, fun _ _ => rfl⟩
  generalize AppliedTaskCas.mk .. = applied
  -- the operation is known as this one
  have hknown {known after : TaskRegistry} (h : known.applied payload.operationId = some applied)
      (hafter : (known.restoreTask payload.task).1.Grows after) :
      after.applied payload.operationId = some applied ∧
        (after.restoreTask payload.task).1 = after := by
    obtain ⟨hgrows, task, htask, hle⟩ := known.restoreTask_grows payload.task
    obtain ⟨later, hlater, hle'⟩ := hafter.tasks htask
    exact ⟨hafter.applied (hgrows.applied h), by grind [restoreTask]⟩
  cases hfound : registry.applied payload.operationId with
  | none =>
    have hinsert : registry.Grows (registry.insertApplied payload.operationId applied) :=
      ⟨by simp only [insertApplied, Function.update_apply]; grind, (Grows.refl _).tasks⟩
    refine ⟨hinsert.trans (restoreTask_grows ..).1, fun after h => ?_⟩
    simp [hknown (insertApplied_self ..) h]
  | some existing =>
    obtain rfl | hne := eq_or_ne existing applied
    · simp only [ne_eq, not_true_eq_false, if_false]
      exact ⟨(restoreTask_grows ..).1, fun after h => by simp [hknown hfound h]⟩
    · simp only [ne_eq, hne, not_false_eq_true, if_true]
      exact ⟨.refl _, fun after h => by simp [h.applied hfound, hne]⟩

/-- Restoring payloads again, any of them in any order, changes nothing. -/
theorem restoring_again (payloads : List TaskCasPayload) (again : List (Fin payloads.length)) :
    restoring.run registry (payloads ++ again.map payloads.get) =
      restoring.run registry payloads := by
  rw [Machine.run_append]
  induction again with
  | nil => rfl
  | cons place again ih =>
    obtain ⟨earlier, later, hsplit⟩ := List.append_of_mem (payloads.get_mem place)
    rw [List.map_cons, Machine.run_cons, (restoring_spec (restoring.run registry earlier) _).2, ih]
    nth_rewrite 2 [hsplit]
    rw [Machine.run_append]
    exact restoring.run_invariant (fun _ _ h => h.trans (restoring_spec ..).1) (.refl _) later

end TaskRegistry

/-- A record that conflicts with the task is rejected, and the next call of its operation gives it
as the result, with nothing written. -/
theorem rejected_record_answers :
    let registry := TaskRegistry.empty.upsert { retriedTask with revision := 1 }
    let record := { retriedTask with revision := 1, ownerAgentId := some "other" }
    let after := registry.restoreCas record "operation" "digest" 0 1
    after.2 = .error (otherError "conflicting task projection at revision 1") ∧
      (after.1.casDurable "task" 0 "operation" "digest" (.assign "worker") fun _ =>
        (.error (otherError "not written") : IoResult Unit)) = .ok (after.1, none, record) ∧
      ¬ registry.Rejects "operation" after := by
  refine ⟨rfl, rfl, fun h => ?_⟩
  have hsame := congrArg (·.applied "operation") (h _ rfl).1
  cases hsame

end SolarisMesh.Tasks
