import SolarisMesh.Effects.Recovery

/-!
# What recovery decides

The decision of `recover_effect` over every ledger history: when an effect is executed, when
its recorded output is reused, and when the recovery itself fails. In all other cases the
effect is handed to reconciliation.
-/

namespace SolarisMesh.Effects

open Lib SolarisMesh.Types

variable {ctx : EffectContext} {request : EffectRequest}
  {implementation : Option ImplementationIdentity} {records : List EffectRecord}
  {intent first candidate : EffectRecord} {rest : List EffectRecord}

/-! ## The parts of the decision -/

/-- The intent was recorded for this request, in an environment that is still the same. -/
def Resumable (ctx : EffectContext) (request : EffectRequest)
    (implementation : Option ImplementationIdentity) (intent : EffectRecord) : Prop :=
  intentMatches ctx request intent = true ∧
    ∃ recorded, recordedEnvironment ctx intent = .ok recorded ∧
      environmentConflict request recorded (currentEnvironment ctx request implementation) = .ok ()

/-- A later outcome passes the check and is equal to the first one. -/
def Repeated (ctx : EffectContext) (request : EffectRequest) (intent first record : EffectRecord) :
    Prop :=
  (∃ found, checkOutcome ctx request intent record = .ok found) ∧
    Json.same record.payload first.payload = true

/-- The outcome belongs to the request, its outcome is known, and `output` is the stored text
it refers to, unaltered. -/
def RecordsOutput (ctx : EffectContext) (request : EffectRequest) (intent record : EffectRecord)
    (output : String) : Prop :=
  outcomeMatches ctx request intent record = true ∧ outcomeUnknown record = false ∧
    ∃ outputRef, stringMember record.payload "output_ref" = some outputRef ∧
      ctx.readOutput outputRef = .ok output ∧
      (record.payload.get "output_bytes").bind Json.asU64 = some output.utf8ByteSize ∧
      stringMember record.payload "output_digest" = some (ctx.stableDigestBytes output)

lemma lastIntent_eq_none :
    lastIntent request records = none ↔ ∀ r ∈ records, isIntent request r = false := by
  unfold lastIntent
  rw [List.find?_eq_none]
  simp

variable {output : String}

lemma checkOutcome_eq_some :
    checkOutcome ctx request intent candidate = .ok (some output) ↔
      RecordsOutput ctx request intent candidate output := by
  unfold checkOutcome RecordsOutput
  simp only [check_bind_eq_ok, require_eq_ok]
  cases outcomeUnknown candidate with
  | true => simp
  | false =>
    simp only [Bool.false_eq_true, if_false, bind_eq_ok, require_eq_ok]
    simp

lemma checkOutcomes_eq_ok {xs : List EffectRecord} :
    (xs.forM fun r => (checkOutcome ctx request intent r).map fun _ => ()) = .ok () ↔
      ∀ r ∈ xs, ∃ found, checkOutcome ctx request intent r = .ok found := by
  induction xs with
  | nil => simp
  | cons r xs ih =>
    rw [List.forall_mem_cons, ← ih]
    show (((checkOutcome ctx request intent r).map fun _ => ()) >>= fun _ => xs.forM _) = _ ↔ _
    cases checkOutcome ctx request intent r <;> simp [Except.map]

lemma decideOutcomes_eq_reuse {isError : Bool} :
    decideOutcomes ctx request intent first rest = .ok (.reuse isError output) ↔
      RecordsOutput ctx request intent first output ∧
        isError = ((first.payload.get "is_error").bind Json.asBool).getD true ∧
        ∀ r ∈ rest, Repeated ctx request intent first r := by
  unfold decideOutcomes
  simp only [bind_eq_ok, require_eq_ok, orElseThrow_eq_ok, pure_eq_ok,
    EffectRecoveryDecision.reuse.injEq, List.all_eq_true]
  constructor
  · rintro ⟨found, hfirst, _, hrest, _, hsame, _, -, text, rfl, rfl, rfl⟩
    exact ⟨checkOutcome_eq_some.mp hfirst, rfl, fun r hr =>
      ⟨checkOutcomes_eq_ok.1 hrest r hr, hsame r hr⟩⟩
  · rintro ⟨hrecords, rfl, hrest⟩
    refine ⟨some output, checkOutcome_eq_some.mpr hrecords, (),
      checkOutcomes_eq_ok.2 fun r hr => (hrest r hr).1, (), fun r hr => (hrest r hr).2, (), ?_,
      output, rfl, rfl, rfl⟩
    rw [hrecords.2.1]
    rfl

lemma decideOutcomes_ne_execute : decideOutcomes ctx request intent first rest ≠ .ok .execute := by
  intro h
  simp only [decideOutcomes, bind_eq_ok, pure_eq_ok] at h
  obtain ⟨_, -, _, -, _, -, _, -, _, -, h⟩ := h
  cases h

lemma decideRecorded_eq_execute {recorded : OperationEnvironmentSnapshot} :
    decideRecorded ctx records request implementation intent recorded = .ok .execute ↔
      environmentConflict request recorded (currentEnvironment ctx request implementation) =
        .ok () ∧
      outcomesAfter request intent records = [] ∧ request.descriptor.isReplayable = true := by
  unfold decideRecorded
  cases outcomesAfter request intent records with
  | nil => simp only [check_bind_eq_ok, require_eq_ok, pure_eq_ok, and_true, true_and]
  | cons first rest =>
    simp only [check_bind_eq_ok, decideOutcomes_ne_execute, and_false, reduceCtorEq,
      false_and]

lemma decideRecorded_eq_reuse {recorded : OperationEnvironmentSnapshot} {isError : Bool} :
    decideRecorded ctx records request implementation intent recorded =
        .ok (.reuse isError output) ↔
      environmentConflict request recorded (currentEnvironment ctx request implementation) =
        .ok () ∧
      ∃ first rest, outcomesAfter request intent records = first :: rest ∧
        RecordsOutput ctx request intent first output ∧
        isError = ((first.payload.get "is_error").bind Json.asBool).getD true ∧
        ∀ r ∈ rest, Repeated ctx request intent first r := by
  unfold decideRecorded
  cases outcomesAfter request intent records with
  | nil =>
    simp only [check_bind_eq_ok, pure_eq_ok, reduceCtorEq, and_false, false_and,
      exists_false]
  | cons first rest =>
    simp only [check_bind_eq_ok, decideOutcomes_eq_reuse]
    simp

/-! ## The decision -/

lemma recoverEffect_eq :
    recoverEffectWithToolImplementation ctx (.ok records) request implementation =
      match lastIntent request records with
      | none => .ok .execute
      | some intent => decideIntent ctx records request implementation intent := rfl

/-- Only an effect without an intent or with its recorded environment is not reconciled. -/
lemma recoverEffect_eq_ok {decision : EffectRecoveryDecision}
    (hdecision : ∀ reason, decision ≠ .reconcile reason) :
    recoverEffectWithToolImplementation ctx (.ok records) request implementation = .ok decision ↔
      lastIntent request records = none ∧ .execute = decision ∨
      ∃ intent, lastIntent request records = some intent ∧ intentMatches ctx request intent = true ∧
        ∃ recorded, recordedEnvironment ctx intent = .ok recorded ∧
          decideRecorded ctx records request implementation intent recorded = .ok decision := by
  have hreconciled := fun reason => Ne.symm (hdecision reason)
  rw [recoverEffect_eq]
  cases lastIntent request records with
  | none => simp
  | some intent =>
    simp only [decideIntent, Option.some.injEq, exists_eq_left', reduceCtorEq, false_and, false_or]
    cases intentMatches ctx request intent with
    | false => simp [hreconciled]
    | true =>
      cases recordedEnvironment ctx intent with
      | error e => simp [Except.map]
      | ok recorded =>
        cases hrecorded : decideRecorded ctx records request implementation intent recorded <;>
          simp [Except.map, orReconcile, hreconciled, hrecorded]

/-- The decision of `recover_effect` on every history. -/
theorem recover_effect_decides (ctx : EffectContext) (records : List EffectRecord)
    (request : EffectRequest) (implementation : Option ImplementationIdentity) :
    let decision := recoverEffectWithToolImplementation ctx (.ok records) request implementation
    (decision = .ok .execute ↔
      (∀ r ∈ records, isIntent request r = false) ∨
        ∃ intent, lastIntent request records = some intent ∧
          Resumable ctx request implementation intent ∧
          outcomesAfter request intent records = [] ∧
          request.descriptor.effectClass = .readOnly ∧
          request.descriptor.replayPolicy = .replaySafe) ∧
    (∀ isError output, decision = .ok (.reuse isError output) ↔
      ∃ intent first rest, lastIntent request records = some intent ∧
        Resumable ctx request implementation intent ∧
        outcomesAfter request intent records = first :: rest ∧
        RecordsOutput ctx request intent first output ∧
        isError = ((first.payload.get "is_error").bind Json.asBool).getD true ∧
        ∀ r ∈ rest, Repeated ctx request intent first r) ∧
    (∀ error, decision = .error error ↔
      ∃ intent, lastIntent request records = some intent ∧
        intentMatches ctx request intent = true ∧ recordedEnvironment ctx intent = .error error) ∧
    (decision ≠ .ok .execute → (∀ isError output, decision ≠ .ok (.reuse isError output)) →
      (∀ error, decision ≠ .error error) → ∃ reason, decision = .ok (.reconcile reason)) ∧
    ((∃ r ∈ records, isIntent request r = true) → ¬ (request.descriptor.effectClass = .readOnly ∧
      request.descriptor.replayPolicy = .replaySafe) → decision ≠ .ok .execute) := by
  intro decision
  have hreplayable : request.descriptor.isReplayable = true ↔
      request.descriptor.effectClass = .readOnly ∧
        request.descriptor.replayPolicy = .replaySafe := by
    simp [EffectDescriptor.isReplayable]
  -- the last part follows from the first
  refine (fun hexecute => ⟨hexecute, ?_, ?_, ?_, ?_⟩) ?_
  · rw [← lastIntent_eq_none, recoverEffect_eq_ok (by intro reason h; cases h)]
    simp only [decideRecorded_eq_execute, hreplayable, and_true, Resumable]
    tauto
  · intro isError output
    rw [recoverEffect_eq_ok (by intro reason h; cases h)]
    simp only [decideRecorded_eq_reuse, reduceCtorEq, and_false, false_or, Resumable]
    constructor
    · rintro ⟨intent, hintent, hmatches, recorded, henvironment, hconflict, first, rest, hrest⟩
      exact ⟨intent, first, rest, hintent, ⟨hmatches, recorded, henvironment, hconflict⟩, hrest⟩
    · rintro ⟨intent, first, rest, hintent, ⟨hmatches, recorded, henvironment, hconflict⟩, hrest⟩
      exact ⟨intent, hintent, hmatches, recorded, henvironment, hconflict, first, rest, hrest⟩
  · intro error
    rw [show decision = _ from recoverEffect_eq]
    cases lastIntent request records with
    | none => simp
    | some intent =>
      simp only [decideIntent, Option.some.injEq, exists_eq_left']
      cases intentMatches ctx request intent with
      | false => simp
      | true => cases recordedEnvironment ctx intent <;> simp [Except.map]
  · intro hnot hreuse herror
    cases hdecision : decision with
    | error error => exact absurd hdecision (herror error)
    | ok answer =>
      cases answer with
      | execute => exact absurd hdecision hnot
      | reuse isError output => exact absurd hdecision (hreuse isError output)
      | reconcile reason => exact ⟨reason, rfl⟩
  · rintro ⟨r, hr, hintent⟩ hunsafe hdecision
    rcases hexecute.1 hdecision with hnone | ⟨_, -, -, -, hsafe⟩
    · rw [hnone r hr] at hintent
      cases hintent
    · exact hunsafe hsafe

/-! ## Histories in which an outcome precedes the last intent -/

section Repeated

private def repeatedContext : EffectContext where
  descriptorDigest _ := "descriptor"
  projectionDigest := Json.asStr
  parseDescriptor _ := none
  descriptorJson _ := .null
  stableDigestBytes text := text
  stableDigestArgv _ := ""
  parseEnvironment _ := .ok ⟨1, 1, none, [], [], [], none, none⟩
  environmentWithCurrentPermissions _ := ⟨1, 1, none, [], [], [], none, none⟩
  readOutput reference := .ok reference

private def repeatedRequest (effectClass : EffectClass) : EffectRequest :=
  ⟨"effect", "operation", "tool", ⟨effectClass, "act", {}, .replaySafe⟩, .null, none⟩

private def repeatedRecord (seq : ℕ) (recordType : String) (members : List (String × Json)) :
    EffectRecord :=
  ⟨1, seq, "run", 0, .syncCritical, recordType,
    .object ([("effect_id", .string "effect"), ("operation_id", .string "operation"),
      ("input_digest", .null), ("effect", .string "descriptor")] ++ members)⟩

private def repeatedIntent (seq : ℕ) : EffectRecord :=
  repeatedRecord seq "effect_intent" [("environment", .null)]

private def repeatedOutcome (seq : ℕ) (output : String) : EffectRecord :=
  repeatedRecord seq "effect_outcome" [("status", .string "executed"), ("is_error", .bool false),
    ("output_ref", .string output), ("output_digest", .string output),
    ("output_bytes", .number "1")]

/-- An outcome that was recorded before the last intent does not count: a read-only effect is
executed again although it has an outcome, and of two different outcomes of an effect the
second one is reused. -/
theorem outcome_before_last_intent_is_ignored :
    recoverEffect repeatedContext
        (.ok [repeatedIntent 1, repeatedOutcome 2 "a", repeatedIntent 3])
        (repeatedRequest .readOnly) = .ok .execute ∧
      recoverEffect repeatedContext
        (.ok [repeatedIntent 1, repeatedOutcome 2 "a", repeatedIntent 3, repeatedOutcome 4 "b"])
        (repeatedRequest .process) = .ok (.reuse false "b") := by
  decide +kernel

end Repeated

end SolarisMesh.Effects
