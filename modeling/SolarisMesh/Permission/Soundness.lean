import SolarisMesh.Permission.Evaluation

/-!
# What a permission decision guarantees

A denial written as a rule always wins. Outside bypass mode a request that is not denied
passed every check the scope cannot be talked out of, and one that is allowed is inside the
scope's boundary or covered by a lease.
-/

namespace SolarisMesh.Permission

open List SolarisMesh.Types

/-! ## Rules -/

namespace PermissionEngine

variable {host : Host} {capability : String} {descriptor : EffectDescriptor}

/-- The loop's second result is a denial, and is there once a denial matched. -/
lemma foldl_scanRule_deny (host : Host) (capability : String) (descriptor : EffectDescriptor)
    (entries : List (PermissionRule × ℕ)) :
    ∀ latest : Option Matched × Option Matched,
      (∀ found, latest.2 = some found → found.2 = .deny) →
      (latest.2.isSome = true ∨ ∃ entry ∈ entries, entry.1.decision = .deny ∧
        ruleMatches host entry.1 capability descriptor = true) →
      ∃ found, (entries.foldl (scanRule host capability descriptor) latest).2 = some found ∧
        found.2 = .deny := by
  induction entries with
  | nil =>
    intro latest hdeny hfound
    obtain hsome | ⟨_, hmem, _⟩ := hfound
    · obtain ⟨found, hlatest⟩ := Option.isSome_iff_exists.1 hsome
      exact ⟨found, hlatest, hdeny found hlatest⟩
    · cases hmem
  | cons entry entries ih =>
    intro latest hdeny hfound
    rw [foldl_cons]
    obtain ⟨rule, index⟩ := entry
    by_cases hmatch : ruleMatches host rule capability descriptor = true
    · by_cases hrule : rule.decision = .deny
      · -- this rule is the latest denial
        refine ih _ ?_ (.inl ?_)
        · intro found h
          simp only [scanRule, if_pos hmatch, if_pos hrule, Option.some.injEq] at h
          rw [← h]
          exact hrule
        · simp only [scanRule, if_pos hmatch, if_pos hrule, Option.isSome_some]
      · have hkept : (scanRule host capability descriptor latest (rule, index)).2 = latest.2 := by
          simp only [scanRule, if_pos hmatch, if_neg hrule]
        refine ih _ (by rw [hkept]; exact hdeny) ?_
        rw [hkept]
        refine hfound.imp_right ?_
        rintro ⟨entry, hmem, hentry, hmatches⟩
        obtain rfl | hmem := mem_cons.1 hmem
        · exact absurd hentry hrule
        · exact ⟨entry, hmem, hentry, hmatches⟩
    · have hkept : scanRule host capability descriptor latest (rule, index) = latest := by
        simp only [scanRule, if_neg hmatch]
      rw [hkept]
      refine ih _ hdeny (hfound.imp_right ?_)
      rintro ⟨entry, hmem, hentry, hmatches⟩
      obtain rfl | hmem := mem_cons.1 hmem
      · exact absurd hmatches hmatch
      · exact ⟨entry, hmem, hentry, hmatches⟩

lemma evaluate_deny {engine : PermissionEngine} {rule : PermissionRule}
    (hmem : rule ∈ engine.rules) (hrule : rule.decision = .deny)
    (hmatch : ruleMatches host rule capability descriptor = true) :
    (engine.evaluate host capability descriptor).decision = .deny := by
  unfold evaluate
  split
  · rfl
  · obtain ⟨index, hindex⟩ := mem_iff_getElem?.1 hmem
    have hentry : (rule, index) ∈ engine.rules.zipIdx := mem_zipIdx_iff_getElem?.2 hindex
    obtain ⟨found, hfound, hdeny⟩ := foldl_scanRule_deny host capability descriptor
      engine.rules.zipIdx (none, none) (by simp) (.inr ⟨_, hentry, hrule, hmatch⟩)
    have hmatched : engine.matched host capability descriptor = some found := by
      unfold matched
      simp only [hfound, Option.some_or]
    simp only [hmatched, Option.map_some, Option.getD_some, hdeny, modeDecision]

end PermissionEngine

/-! ## What a rule covers -/

section Covers

variable (host : Host) (prefixes : List String) (resources : ResourceFootprint)

/-- There is a resource a rule looks at. -/
def Named : Prop :=
  resources.fileReads ++ resources.fileWrites ++ resources.networkDomains ++
    resources.processCommands ++ resources.externalResources ++ resources.meshResources ≠ []

/-- The resources a rule looks at are covered, each in the way of its kind, and the commands
count. -/
structure AllCovered (counts : String → Prop) : Prop where
  files : ∀ path ∈ resources.fileReads ++ resources.fileWrites,
    ∃ allowed ∈ prefixes, permissionPathMatches host path allowed = true
  domains : ∀ domain ∈ resources.networkDomains,
    ∃ allowed ∈ prefixes, domainMatches host domain allowed = true
  commands : ∀ command ∈ resources.processCommands, command ∈ prefixes ∧ counts command
  named : ∀ resource ∈ resources.externalResources ++ resources.meshResources,
    ∃ allowed ∈ prefixes, namespacedResourceMatches resource allowed = true

/-- One of these resources is covered, of the commands one that counts. -/
def SomeCovered (counts : String → Prop) : Prop :=
  (∃ path ∈ resources.fileReads ++ resources.fileWrites,
    ∃ allowed ∈ prefixes, permissionPathMatches host path allowed = true) ∨
  (∃ domain ∈ resources.networkDomains,
    ∃ allowed ∈ prefixes, domainMatches host domain allowed = true) ∨
  (∃ command ∈ resources.processCommands, command ∈ prefixes ∧ counts command) ∨
  ∃ resource ∈ resources.externalResources ++ resources.meshResources,
    ∃ allowed ∈ prefixes, namespacedResourceMatches resource allowed = true

/-- No flag says that there are resources without a name. -/
def Restricted : Prop :=
  resources.unrestrictedFileReads = false ∧ resources.unrestrictedFileWrites = false ∧
    resources.unrestrictedNetwork = false ∧ resources.unrestrictedProcess = false

variable {host prefixes resources}

variable (host prefixes) in
lemma resourceMatches_ne_nil : resourceMatches host prefixes resources ≠ [] ↔ Named resources := by
  simp only [resourceMatches, Named, ne_eq, append_eq_nil_iff, map_eq_nil_iff]

/-- A command is looked up among the prefixes, and counts only if it is safe. -/
lemma exists_approved_iff (command : String) :
    (∃ approved ∈ prefixes, command = approved ∧ commandIsStructurallySafe command = true) ↔
      command ∈ prefixes ∧ commandIsStructurallySafe command = true :=
  ⟨fun ⟨_, hmem, rfl, hsafe⟩ => ⟨hmem, hsafe⟩, fun ⟨hmem, hsafe⟩ => ⟨_, hmem, rfl, hsafe⟩⟩

lemma all_resourceMatches_iff : (resourceMatches host prefixes resources).all id = true ↔
    AllCovered host prefixes resources (commandIsStructurallySafe · = true) := by
  simp only [resourceMatches, all_append, all_map, Bool.and_eq_true, all_eq_true,
    Function.comp_apply, id_eq, any_eq_true, decide_eq_true_eq, exists_approved_iff]
  constructor
  · rintro ⟨⟨⟨⟨⟨hreads, hwrites⟩, hdomains⟩, hcommands⟩, hexternal⟩, hmesh⟩
    exact ⟨forall_mem_append.2 ⟨hreads, hwrites⟩, hdomains, hcommands,
      forall_mem_append.2 ⟨hexternal, hmesh⟩⟩
  · rintro ⟨hfiles, hdomains, hcommands, hnamed⟩
    rw [forall_mem_append] at hfiles hnamed
    exact ⟨⟨⟨⟨hfiles, hdomains⟩, hcommands⟩, hnamed.1⟩, hnamed.2⟩

lemma any_resourceMatches_iff : (resourceMatches host prefixes resources).any id = true ↔
    SomeCovered host prefixes resources (commandIsStructurallySafe · = true) := by
  simp only [resourceMatches, SomeCovered, any_append, any_map, Bool.or_eq_true,
    any_eq_true, Function.comp_apply, id_eq, Bool.and_eq_true, decide_eq_true_eq,
    mem_append, or_and_right, exists_or, or_assoc, exists_approved_iff]

/-- A rule with prefixes, for a descriptor it agrees with otherwise. -/
lemma ruleMatches_iff {rule : PermissionRule} {capability : String} {descriptor : EffectDescriptor}
    (hprefixes : rule.resourcePrefixes ≠ [])
    (hagrees : rule.capability.all (· = capability) = true ∧
      rule.action.all (· = descriptor.action) = true ∧
      rule.effectClass.all (· = descriptor.effectClass) = true) :
    ruleMatches host rule capability descriptor = true ↔ Named descriptor.resources ∧
      if rule.decision = .deny
      then SomeCovered host rule.resourcePrefixes descriptor.resources
        (commandIsStructurallySafe · = true)
      else AllCovered host rule.resourcePrefixes descriptor.resources
        (commandIsStructurallySafe · = true) := by
  rw [← resourceMatches_ne_nil host rule.resourcePrefixes,
    ← any_resourceMatches_iff, ← all_resourceMatches_iff]
  unfold ruleMatches
  rw [hagrees.1, hagrees.2.1, hagrees.2.2]
  simp only [Bool.true_and, List.isEmpty_iff, if_neg hprefixes]
  by_cases hfound : resourceMatches host rule.resourcePrefixes descriptor.resources = []
  · simp [hfound]
  · by_cases hdeny : rule.decision = .deny <;> simp [hfound, hdeny]

/-- For a rule with prefixes and a descriptor it agrees with otherwise. A rule that does not deny
covers all of what it matches exactly if the flags and invocations, which it does not look at, say
nothing more where all that is named is covered by the prefixes and every command is safe. A denial
finds what it covers exactly if that is not an unsafe command alone. -/
theorem ruleMatches_covers_iff (host : Host) (covers : ProcessInvocation → String → Prop)
    (rule : PermissionRule) (capability : String) (descriptor : EffectDescriptor)
    (hprefixes : rule.resourcePrefixes ≠ [])
    (hagrees : rule.capability.all (· = capability) = true ∧
      rule.action.all (· = descriptor.action) = true ∧
      rule.effectClass.all (· = descriptor.effectClass) = true) :
    ((rule.decision ≠ .deny → ruleMatches host rule capability descriptor = true →
        Restricted descriptor.resources ∧
          AllCovered host rule.resourcePrefixes descriptor.resources (fun _ => True) ∧
          ∀ invocation ∈ descriptor.resources.processInvocations,
            ∃ allowed ∈ rule.resourcePrefixes, covers invocation allowed) ∧
      (rule.decision = .deny →
        SomeCovered host rule.resourcePrefixes descriptor.resources (fun _ => True) →
          ruleMatches host rule capability descriptor = true)) ↔
    (rule.decision ≠ .deny → Named descriptor.resources →
        AllCovered host rule.resourcePrefixes descriptor.resources
          (commandIsStructurallySafe · = true) →
        Restricted descriptor.resources ∧
          ∀ invocation ∈ descriptor.resources.processInvocations,
            ∃ allowed ∈ rule.resourcePrefixes, covers invocation allowed) ∧
      (rule.decision = .deny →
        (∃ command ∈ descriptor.resources.processCommands, command ∈ rule.resourcePrefixes ∧
          commandIsStructurallySafe command = false) →
        SomeCovered host rule.resourcePrefixes descriptor.resources
          (commandIsStructurallySafe · = true)) := by
  rw [ruleMatches_iff hprefixes hagrees]
  refine and_congr (forall_congr' fun hdecision => ?_) (forall_congr' fun hdecision => ?_)
  · rw [if_neg hdecision, and_imp]
    refine forall₂_congr fun _ hall => ⟨fun h => ⟨h.1, h.2.2⟩, fun h => ⟨h.1, ?_, h.2⟩⟩
    exact { hall with commands := fun command hmem => ⟨(hall.commands command hmem).1, trivial⟩ }
  · rw [if_pos hdecision]
    constructor
    · rintro h ⟨command, hmem, hallowed, -⟩
      exact (h (.inr (.inr (.inl ⟨command, hmem, hallowed, trivial⟩)))).2
    · intro h hsome
      have hsafe : SomeCovered host rule.resourcePrefixes descriptor.resources
          (commandIsStructurallySafe · = true) := by
        obtain hfile | hdomain | ⟨command, hmem, hallowed, -⟩ | hnamed := hsome
        · exact .inl hfile
        · exact .inr (.inl hdomain)
        · -- a command that is not safe is not seen, so something else has to be
          cases hsafe : commandIsStructurallySafe command with
          | true => exact .inr (.inr (.inl ⟨command, hmem, hallowed, hsafe⟩))
          | false => exact h ⟨command, hmem, hallowed, hsafe⟩
        · exact .inr (.inr (.inr hnamed))
      refine ⟨(resourceMatches_ne_nil host rule.resourcePrefixes).1 fun hnil => ?_, hsafe⟩
      have hany := any_resourceMatches_iff.2 hsafe
      rw [hnil] at hany
      cases hany

/-- A disk that holds the directory `/work` and nothing else. -/
def PermissionContext.workHost : Host where
  currentDir := none
  pathExists path := path = [] || path = ["work"]
  canonicalize := some
  rootKind _ := some .directory
  symlinkMetadata _ := .notFound
  fileIdentity _ := none
  directoryIdentity _ := none
  workspaceRootIdentity _ := some 1
  parsePermissionDomain _ := none

open PermissionContext (workHost)

/-- What is asked for without a name passes with what is named. -/
def openRequest : EffectDescriptor where
  effectClass := .network
  action := "sync"
  replayPolicy := .never
  resources := { unrestrictedNetwork := true, meshResources := ["room"] }

/-- A shell command that no rule names safely. -/
def unsafeRequest : EffectDescriptor where
  effectClass := .process
  action := "run"
  replayPolicy := .never
  resources := { processCommands := ["rm; ls"] }

theorem ruleMatches_leaves_uncovered :
    (ruleMatches workHost { resourcePrefixes := ["room"], decision := .allow } "Mesh"
        openRequest = true ∧ ¬ Restricted openRequest.resources) ∧
      ruleMatches workHost { resourcePrefixes := ["rm; ls"], decision := .deny } "Bash"
        unsafeRequest = false ∧
      SomeCovered workHost ["rm; ls"] unsafeRequest.resources (fun _ => True) :=
  ⟨⟨by decide +kernel, fun h => Bool.noConfusion h.2.2.1⟩, by decide +kernel,
    .inr (.inr (.inl ⟨_, mem_singleton_self _, mem_singleton_self _, trivial⟩))⟩

/-- What is asked for by name alone. -/
def roomRequest : EffectDescriptor where
  effectClass := .network
  action := "sync"
  replayPolicy := .never
  resources := { meshResources := ["room"] }

/-- A rule that allows a room matches what it covers, and the denial of a room finds it: there is
no command it could miss. -/
theorem ruleMatches_covers_room :
    (ruleMatches workHost { resourcePrefixes := ["room"], decision := .allow } "Mesh"
        roomRequest = true ∧
      Restricted roomRequest.resources ∧
        AllCovered workHost ["room"] roomRequest.resources (fun _ => True)) ∧
      (SomeCovered workHost ["room"] openRequest.resources (fun _ => True) →
        ruleMatches workHost { resourcePrefixes := ["room"], decision := .deny } "Mesh"
          openRequest = true) := by
  have hallows := (ruleMatches_covers_iff workHost (fun _ _ => False)
    { resourcePrefixes := ["room"], decision := .allow } "Mesh" roomRequest (by decide)
    (by decide)).2 ⟨fun _ _ _ => ⟨by simp [Restricted, roomRequest], by simp [roomRequest]⟩,
      by rintro ⟨⟩⟩
  have hdenies := (ruleMatches_covers_iff workHost (fun _ _ => False)
    { resourcePrefixes := ["room"], decision := .deny } "Mesh" openRequest (by decide)
    (by decide)).2 ⟨fun h => absurd rfl h, by rintro - ⟨_, hmem, -⟩; cases hmem⟩
  have hmatch : ruleMatches workHost { resourcePrefixes := ["room"], decision := .allow } "Mesh"
      roomRequest = true := by decide +kernel
  obtain ⟨hrestricted, hcovered, -⟩ := hallows.1 (by decide) hmatch
  exact ⟨⟨hmatch, hrestricted, hcovered⟩, hdenies.2 rfl⟩

end Covers

/-! ## Contexts -/

namespace PermissionContext

variable {host : Host} {context : PermissionContext} {runId : RunId} {capability : String}
  {request : EffectRequest} {mode : PermissionMode} {ceiling : PermissionCeiling}
  {invokeAutoReviewer : Bool} {now : ℤ}

/-- The checks no lease and no reviewer can lift. -/
structure Admitted (host : Host) (context : PermissionContext) (request : EffectRequest)
    (mode : PermissionMode) (ceiling : PermissionCeiling) : Prop where
  identities : context.boundaryIdentitiesValid host = true
  ceiling : (context.ceiling.intersect ceiling).allows request.descriptor.effectClass = true
  plan : mode = .plan → PermissionCeiling.plan.allows request.descriptor.effectClass = true
  unprotected : ∀ path ∈ request.descriptor.resources.fileReads ++
    request.descriptor.resources.fileWrites, context.protectedPaths.protects host path = false
  ceilings : ∀ boundary ∈ context.boundaryCeilings,
    boundaryAllows host boundary request.descriptor = true

/-- A lease that is still good for this request. -/
structure Leased (host : Host) (context : PermissionContext) (runId : RunId)
    (request : EffectRequest) (now : ℤ) (entry : LeaseEntry) : Prop where
  mem : entry ∈ context.leases
  capability : entry.lease.capability = request.capability
  action : ∀ action, entry.lease.action = some action → action = request.descriptor.action
  unexpired : ∀ expires, entry.lease.expiresAtUnixMs = some expires → now < expires
  unexhausted : ∀ maxUses, entry.lease.maxUses = some maxUses → entry.uses < maxUses
  covers : leaseMatches host entry runId request now = true

lemma leased_of_leasesCover (h : context.leasesCover host runId request now = true) :
    ∃ entry, Leased host context runId request now entry := by
  obtain ⟨entry, hmem, hentry⟩ := any_eq_true.1 h
  have hparts := hentry
  simp only [leaseMatches, Bool.and_eq_true, Bool.not_eq_true', decide_eq_true_eq] at hparts
  obtain ⟨⟨⟨⟨⟨hcapability, haction⟩, hexpires⟩, huses⟩, -⟩, -⟩ := hparts
  refine ⟨entry, hmem, hcapability, ?_, ?_, ?_, hentry⟩
  · intro action h
    rw [h] at haction
    simpa using haction
  · intro expires h
    rw [h] at hexpires
    simpa using hexpires
  · intro maxUses h
    rw [h] at huses
    simpa using huses

lemma allows_effectiveCeiling {effectClass : EffectClass}
    (h : (context.effectiveCeiling mode ceiling).allows effectClass = true) :
    (context.ceiling.intersect ceiling).allows effectClass = true ∧
      (mode = .plan → PermissionCeiling.plan.allows effectClass = true) := by
  unfold effectiveCeiling at h
  by_cases hmode : mode = .plan
  · rw [if_pos hmode, PermissionCeiling.allows_intersect, Bool.and_eq_true] at h
    exact ⟨h.1, fun _ => h.2⟩
  · rw [if_neg hmode] at h
    exact ⟨h, fun hplan => absurd hplan hmode⟩

/-- The engine of a context denies what the ceiling it is given does not allow. -/
lemma allows_of_engineEvaluation
    (h : (context.engineEvaluation host request mode ceiling).decision ≠ .deny) :
    ceiling.allows request.descriptor.effectClass = true := by
  -- the engine denies what its ceiling does not allow
  rw [engineEvaluation, PermissionEngine.evaluate] at h
  split at h
  · exact absurd rfl h
  next hallows =>
  unfold PermissionEngine.evaluatedCeiling PermissionEngine.effectiveCeiling at hallows
  split at hallows <;> simp_all

/-- What an evaluation that does not deny went through, and how it ended. -/
lemma evaluateWithin_cases
    (h : (context.evaluateWithin host runId request mode ceiling invokeAutoReviewer now).decision
      ≠ .deny) :
    (context.engineEvaluation host request mode ceiling).decision ≠ .deny ∧
    context.protectedPaths.protectsDescriptor host request.descriptor = false ∧
    (∀ boundary ∈ context.boundaryCeilings,
      boundaryAllows host boundary request.descriptor = true) ∧
    context.evaluateWithin host runId request mode ceiling invokeAutoReviewer now =
      if boundaryAllows host (context.boundaryForCapability request.capability)
          request.descriptor = true then
        context.evaluateInsideBoundary host runId request invokeAutoReviewer now
          (context.engineEvaluation host request mode ceiling)
      else
        context.evaluateOutsideBoundary host runId request mode ceiling now
          (context.engineEvaluation host request mode ceiling) := by
  unfold evaluateWithin at h ⊢
  dsimp only at h ⊢
  by_cases hdeny : (context.engineEvaluation host request mode ceiling).decision = .deny
  · rw [if_pos hdeny] at h
    exact absurd hdeny h
  rw [if_neg hdeny] at h ⊢
  by_cases hprotects :
      context.protectedPaths.protectsDescriptor host request.descriptor = true
  · rw [if_pos hprotects] at h
    exact absurd rfl h
  rw [if_neg hprotects] at h ⊢
  by_cases hceilings :
      context.boundaryCeilings.any (!boundaryAllows host · request.descriptor) = true
  · rw [if_pos hceilings] at h
    exact absurd rfl h
  rw [if_neg hceilings]
  refine ⟨hdeny, Bool.eq_false_iff.2 hprotects, ?_, ?_⟩
  · simpa using hceilings
  · cases boundaryAllows host (context.boundaryForCapability request.capability)
      request.descriptor <;> rfl

/-- Outside bypass mode an evaluation that does not deny is the one made once the roots are
confirmed. -/
lemma evaluateEffectWithReviewerPolicy_eq (hmode : mode ≠ .bypass)
    (h : (context.evaluateEffectWithReviewerPolicy host runId capability request mode ceiling
      invokeAutoReviewer now).decision ≠ .deny) :
    context.boundaryIdentitiesValid host = true ∧
    context.evaluateEffectWithReviewerPolicy host runId capability request mode ceiling
        invokeAutoReviewer now =
      context.evaluateWithin host runId request mode (context.effectiveCeiling mode ceiling)
        invokeAutoReviewer now := by
  unfold evaluateEffectWithReviewerPolicy at h ⊢
  by_cases hcapability : capability = request.capability
  · rw [if_neg (not_not.2 hcapability), if_neg hmode] at h ⊢
    by_cases hvalid : context.boundaryIdentitiesValid host = true
    · rw [if_neg (by simpa using hvalid)]
      exact ⟨hvalid, rfl⟩
    · rw [if_pos (by simpa using hvalid)] at h
      exact absurd rfl h
  · rw [if_pos hcapability] at h
    exact absurd rfl h

/-- A request that is not denied outside bypass mode was admitted. -/
lemma admitted_of_not_deny (hmode : mode ≠ .bypass)
    (h : (context.evaluateEffectWithReviewerPolicy host runId capability request mode ceiling
      invokeAutoReviewer now).decision ≠ .deny) :
    Admitted host context request mode ceiling := by
  obtain ⟨hvalid, heq⟩ := evaluateEffectWithReviewerPolicy_eq hmode h
  rw [heq] at h
  obtain ⟨hengine, hprotects, hceilings, -⟩ := evaluateWithin_cases h
  obtain ⟨hceiling, hplan⟩ := allows_effectiveCeiling (allows_of_engineEvaluation hengine)
  exact {
    identities := hvalid
    ceiling := hceiling
    plan := hplan
    unprotected := by
      intro path hpath
      unfold ProtectedPathPolicy.protectsDescriptor at hprotects
      by_cases hexhausted : context.protectedPaths.retentionExhausted = true
      · -- an exhausted policy passes only descriptors that name no path at all
        rw [if_pos hexhausted, Bool.not_eq_false', List.isEmpty_iff] at hprotects
        rw [hprotects] at hpath
        cases hpath
      · rw [if_neg hexhausted, List.any_eq_false] at hprotects
        exact Bool.eq_false_iff.2 (hprotects path hpath)
    ceilings := hceilings }

/-- An allowed request is inside the boundary of its capability, or leased. -/
lemma within_or_leased_of_allow (hmode : mode ≠ .bypass)
    (h : (context.evaluateEffectWithReviewerPolicy host runId capability request mode ceiling
      invokeAutoReviewer now).decision = .allow) :
    boundaryAllows host (context.boundaryForCapability request.capability) request.descriptor
        = true ∨
      ∃ entry, Leased host context runId request now entry := by
  obtain ⟨-, heq⟩ := evaluateEffectWithReviewerPolicy_eq hmode (by rw [h]; decide)
  rw [heq] at h
  obtain ⟨-, -, -, hend⟩ := evaluateWithin_cases (by rw [h]; decide)
  by_cases hwithin : boundaryAllows host (context.boundaryForCapability request.capability)
      request.descriptor = true
  · exact .inl hwithin
  · right
    rw [hend, if_neg hwithin] at h
    unfold evaluateOutsideBoundary at h
    by_cases hcover : context.leasesCover host runId request now = true
    · exact leased_of_leasesCover hcover
    · -- without a lease the end is a question or a denial
      rw [if_neg hcover] at h
      split at h <;> cases h

/-- A matching denial decides, in every mode and wherever it stands. -/
lemma deny_of_rule {rule : PermissionRule} (hmem : rule ∈ context.rules)
    (hrule : rule.decision = .deny)
    (hmatch : ruleMatches host rule request.capability request.descriptor = true) :
    (context.evaluateEffectWithReviewerPolicy host runId capability request mode ceiling
      invokeAutoReviewer now).decision = .deny := by
  by_cases hmode : mode = .bypass
  · unfold evaluateEffectWithReviewerPolicy
    split
    · rfl
    · exact PermissionEngine.evaluate_deny hmem hrule hmatch
  · by_contra h
    obtain ⟨-, heq⟩ := evaluateEffectWithReviewerPolicy_eq hmode h
    rw [heq] at h
    exact (evaluateWithin_cases h).1 (PermissionEngine.evaluate_deny hmem hrule hmatch)

/-- Denials always win, and an allowance outside bypass mode rests on every hard check and on
the boundary or a lease. -/
theorem evaluation_sound (host : Host) (context : PermissionContext) (runId : RunId)
    (capability : String) (request : EffectRequest) (mode : PermissionMode)
    (ceiling : PermissionCeiling) (invokeAutoReviewer : Bool) (now : ℤ) :
    ((∃ rule ∈ context.rules, rule.decision = .deny ∧
        ruleMatches host rule request.capability request.descriptor = true) →
      (context.evaluateEffectWithReviewerPolicy host runId capability request mode ceiling
        invokeAutoReviewer now).decision = .deny) ∧
    (mode ≠ .bypass →
      (context.evaluateEffectWithReviewerPolicy host runId capability request mode ceiling
        invokeAutoReviewer now).decision = .allow →
      Admitted host context request mode ceiling ∧
        (boundaryAllows host (context.boundaryForCapability request.capability)
            request.descriptor = true ∨
          ∃ entry, Leased host context runId request now entry)) := by
  constructor
  · rintro ⟨rule, hmem, hrule, hmatch⟩
    exact deny_of_rule hmem hrule hmatch
  · intro hmode h
    exact ⟨admitted_of_not_deny hmode (by rw [h]; decide), within_or_leased_of_allow hmode h⟩

def workLease : CapabilityLease where
  capability := "Write"
  scope := .run "run-1"
  grants := { fileWrites := ["/work"] }
  maxUses := some 1

/-- A scope with an empty boundary and one lease on `/work`. -/
def leasedContext : PermissionContext where
  mode := .auto
  userRules := []
  generatedRules := []
  ceiling := .unrestricted
  leases := [⟨workLease, 0⟩]
  boundary := {}
  boundaryCeilings := []
  boundaryIdentities := {}
  boundaryIdentityCeilings := []
  configuredEffects := []
  reviewer _ := .ask
  protectedPaths := {}

def writeRequest : EffectRequest where
  effectId := "effect-1"
  operationId := "operation-1"
  capability := "Write"
  descriptor :=
    { effectClass := .workspaceMutation, action := "write", replayPolicy := .never,
      resources := { fileWrites := ["/work/notes"] } }
  effectiveInput := .null
  inputDigest := none

/-- The lease lets a write through that is outside the empty boundary. -/
theorem evaluation_sound_leased :
    Admitted workHost leasedContext writeRequest .auto .unrestricted ∧
      (boundaryAllows workHost (leasedContext.boundaryForCapability "Write")
          writeRequest.descriptor = true ∨
        ∃ entry, Leased workHost leasedContext "run-1" writeRequest 0 entry) :=
  (evaluation_sound workHost leasedContext "run-1" "Write" writeRequest .auto .unrestricted true
    0).2 (by decide) (by decide +kernel)

end PermissionContext

end SolarisMesh.Permission
