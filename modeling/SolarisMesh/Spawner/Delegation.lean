import SolarisMesh.Spawner.Boundary

/-!
# Delegation

A child's boundary is always enclosed in the one asked for it. It is enclosed in its
parent's unless the request names an external resource whose text continues a parent prefix
without a separator. Every boundary handed down a chain of spawns stays a ceiling of all
that follow, so what holds for the first child holds for its descendants.
-/

namespace SolarisMesh.Spawner

open List SolarisMesh.Types Permission Lib PermissionContext
open BoundaryIdentityPolicy (capture)
open Lib.Scope (Enclosed)

/-! ## Path roots -/

lemma mem_pushMissing {α : Type} [DecidableEq α] {value : α} (added : List α) :
    ∀ values : List α, value ∈ pushMissing values added → value ∈ values ∨ value ∈ added := by
  induction added with
  | nil => exact fun values h => .inl h
  | cons head added ih =>
    intro values h
    obtain hmem | hmem := ih _ h
    · dsimp only at hmem
      split at hmem
      · exact .inl hmem
      · obtain hmem | hmem := mem_append.1 hmem
        · exact .inl hmem
        · exact .inr (mem_cons.2 (.inl (mem_singleton.1 hmem)))
    · exact .inr (mem_cons_of_mem _ hmem)

/-- A root of the intersection is a requested root inside a parent root, or the reverse. -/
structure Shared (host : Host) (parent requested : List String) (root : String) : Prop where
  inParent : ∃ parentRoot ∈ parent, root = parentRoot ∨ pathWithin host root parentRoot = true
  inRequested : ∃ requestedRoot ∈ requested,
    root = requestedRoot ∨ pathWithin host root requestedRoot = true

variable {host : Host}

lemma shared_of_mem_matchedRoots {parent requested : List String} {requestedRoot root : String}
    (hrequested : requestedRoot ∈ requested) (h : root ∈ matchedRoots host parent requestedRoot) :
    Shared host parent requested root := by
  obtain ⟨parentRoot, hparent, hroot⟩ := mem_filterMap.1 h
  by_cases hbelow : pathWithin host requestedRoot parentRoot = true
  · rw [if_pos hbelow, Option.some.injEq] at hroot
    subst hroot
    exact ⟨⟨parentRoot, hparent, .inr hbelow⟩, ⟨requestedRoot, hrequested, .inl rfl⟩⟩
  · rw [if_neg hbelow] at hroot
    by_cases habove : pathWithin host parentRoot requestedRoot = true
    · rw [if_pos habove, Option.some.injEq] at hroot
      subst hroot
      exact ⟨⟨parentRoot, hparent, .inl rfl⟩, ⟨requestedRoot, hrequested, .inr habove⟩⟩
    · rw [if_neg habove] at hroot
      cases hroot

/-- The loop over the requested roots collects shared roots only. -/
lemma shared_of_foldlM {parent requested roots : List String} {label : String}
    (h : requested.foldlM (intersectRequestedRoot host parent label) [] = .ok roots) :
    ∀ root ∈ roots, Shared host parent requested root := by
  refine foldlM_invariant (fun roots => ∀ root ∈ roots, Shared host parent requested root)
    ?_ (by simp) h
  intro intersection requestedRoot next hrequested hshared hnext root hroot
  unfold intersectRequestedRoot at hnext
  obtain ⟨-, hnext⟩ := check_bind_eq_ok.1 hnext
  rw [pure_eq_ok] at hnext
  rw [← hnext] at hroot
  obtain hold | hnew := mem_pushMissing _ _ hroot
  · exact hshared root hold
  · exact shared_of_mem_matchedRoots hrequested hnew

/-- Every root of `inner` is a root of `outer` or lies within one. -/
lemma enclosed_of_within {outerOpen innerOpen : Bool} {outer inner : List String}
    (hopened : innerOpen = true → outerOpen = true) (hwithin : outerOpen = false → ∀ root ∈ inner,
      ∃ outerRoot ∈ outer, root = outerRoot ∨ pathWithin host root outerRoot = true) :
    Enclosed (pathWithin host) outerOpen outer innerOpen inner where
  opened := hopened
  grants houter resource hinner := by
    obtain ⟨root, hroot, hresource⟩ := any_eq_true.1 hinner
    obtain ⟨outerRoot, hmem, hle⟩ := hwithin houter root hroot
    refine any_eq_true.2 ⟨outerRoot, hmem, ?_⟩
    obtain rfl | hle := hle
    · exact hresource
    · exact pathWithin_trans host hresource hle

section

variable {parent requested roots : List String} {parentOpen requestedOpen : Bool} {label : String}

lemma intersectPathRoots_requested
    (h : intersectPathRoots host parent parentOpen requested requestedOpen label = .ok roots) :
    Enclosed (pathWithin host) requestedOpen requested (parentOpen && requestedOpen) roots := by
  refine enclosed_of_within (fun hopen => (Bool.and_eq_true_iff.1 hopen).2) ?_
  intro hclosed root hroot
  unfold intersectPathRoots at h
  by_cases hparent : parentOpen = true
  · rw [if_pos hparent, if_neg (by rw [hclosed]; decide), Except.ok.injEq] at h
    subst h
    exact ⟨root, hroot, .inl rfl⟩
  · rw [if_neg hparent, if_neg (by rw [hclosed]; decide)] at h
    exact (shared_of_foldlM h root hroot).inRequested

lemma intersectPathRoots_parent
    (h : intersectPathRoots host parent parentOpen requested requestedOpen label = .ok roots) :
    Enclosed (pathWithin host) parentOpen parent (parentOpen && requestedOpen) roots := by
  refine enclosed_of_within (fun hopen => (Bool.and_eq_true_iff.1 hopen).1) ?_
  intro hclosed root hroot
  unfold intersectPathRoots at h
  rw [if_neg (by rw [hclosed]; decide)] at h
  by_cases hrequested : requestedOpen = true
  · rw [if_pos hrequested, Except.ok.injEq] at h
    subst h
    exact ⟨root, hroot, .inl rfl⟩
  · rw [if_neg hrequested] at h
    exact (shared_of_foldlM h root hroot).inParent

end

/-! ## Named scopes -/

section

variable {α β : Type} {hits : β → α → Bool} {parent requested : List α}
  {parentOpen requestedOpen : Bool} {coveredBy : α → α → Bool}

lemma intersectNamedScope_requested :
    Enclosed hits requestedOpen requested (parentOpen && requestedOpen)
      (intersectNamedScope parent parentOpen requested requestedOpen coveredBy) := by
  refine .of_subset (fun hopen => (Bool.and_eq_true_iff.1 hopen).2) ?_
  intro hclosed
  unfold intersectNamedScope
  rw [hclosed]
  cases parentOpen with
  | true => exact List.Subset.refl _
  | false => exact filter_subset_self _

/-- The parent encloses the intersection if covering grants hit what the covered ones hit. -/
lemma intersectNamedScope_parent
    (hcover : parentOpen = false → requestedOpen = false → ∀ candidate ∈ requested,
      (∃ allowed ∈ parent, coveredBy candidate allowed = true) →
      ∀ value, hits value candidate = true → ∃ allowed ∈ parent, hits value allowed = true) :
    Enclosed hits parentOpen parent (parentOpen && requestedOpen)
      (intersectNamedScope parent parentOpen requested requestedOpen coveredBy) where
  opened hopen := (Bool.and_eq_true_iff.1 hopen).1
  grants hclosed value hinner := by
    unfold intersectNamedScope at hinner
    rw [if_neg (by rw [hclosed]; decide)] at hinner
    by_cases hrequested : requestedOpen = true
    · rw [if_pos hrequested] at hinner
      exact hinner
    · rw [if_neg hrequested] at hinner
      obtain ⟨candidate, hmem, hhit⟩ := any_eq_true.1 hinner
      obtain ⟨hmem, hcovered⟩ := mem_filter.1 hmem
      exact any_eq_true.2
        (hcover hclosed (Bool.eq_false_iff.2 hrequested) candidate hmem
          (any_eq_true.1 hcovered) value hhit)

end

lemma intersectProcessInvocations_parent {parent requested : ExecutionBoundary} :
    Enclosed (fun invocation approved => invocation = approved) parent.unrestrictedProcess
      parent.processInvocations (parent.unrestrictedProcess && requested.unrestrictedProcess)
      (intersectProcessInvocations parent requested) := by
  refine .of_subset (fun hopen => (Bool.and_eq_true_iff.1 hopen).1) ?_
  intro hclosed
  unfold intersectProcessInvocations
  rw [hclosed]
  cases requested.unrestrictedProcess with
  | true => exact List.Subset.refl _
  | false =>
    intro invocation hmem
    exact contains_iff_mem.1 (mem_filter.1 hmem).2

/-! ## The intersection as a whole -/

/-- The requested boundary with its roots read from `cwd`. -/
def normalizedBoundary (requested : ExecutionBoundary) (cwd : String) :
    Except String ExecutionBoundary := do
  let readableRoots ← normalizeBoundaryRoots requested.readableRoots cwd
  let writableRoots ← normalizeBoundaryRoots requested.writableRoots cwd
  return { requested with readableRoots, writableRoots }

/-- A requested prefix that the parent's text covers is one the parent's names cover. -/
def PrefixesCovered (parent requested : ExecutionBoundary) : Prop :=
  parent.unrestrictedExternalSideEffects = false →
    requested.unrestrictedExternalSideEffects = false →
    ∀ candidate ∈ requested.externalResourcePrefixes,
      (∃ allowed ∈ parent.externalResourcePrefixes, textStartsWith candidate allowed = true) →
      ∃ allowed ∈ parent.externalResourcePrefixes,
        namespacedResourceMatches candidate allowed = true

section

variable {parent requested boundary : ExecutionBoundary} {cwd : String}

lemma intersectExecutionBoundary_requested
    (h : intersectExecutionBoundary host parent requested cwd = .ok boundary) :
    ∃ normalized, normalizedBoundary requested cwd = .ok normalized ∧
      Encloses host normalized boundary := by
  simp only [intersectExecutionBoundary, bind_eq_ok, pure_eq_ok] at h
  obtain ⟨reads, hreads, writes, hwrites, readable, hreadable, writable, hwritable, rfl⟩ := h
  refine ⟨{ requested with readableRoots := reads, writableRoots := writes }, ?_, ?_⟩
  · unfold normalizedBoundary
    rw [hreads, hwrites]
    rfl
  · exact {
      reads := intersectPathRoots_requested hreadable
      writes := intersectPathRoots_requested hwritable
      network := intersectNamedScope_requested
      commands := intersectNamedScope_requested
      invocations := by
        refine .of_subset (fun hopen => (Bool.and_eq_true_iff.1 hopen).2) fun hclosed => ?_
        unfold intersectProcessInvocations
        rw [hclosed]
        cases parent.unrestrictedProcess with
        | true => exact List.Subset.refl _
        | false => exact filter_subset_self _
      external := intersectNamedScope_requested }

/-- Two grants that must be equal to cover each other hit the same values. -/
lemma equal_covers {α β : Type} [DecidableEq α] (hits : β → α → Bool) {parent : List α}
    {candidate : α} (hcovered : ∃ allowed ∈ parent, decide (candidate = allowed) = true)
    {value : β} (hhit : hits value candidate = true) :
    ∃ allowed ∈ parent, hits value allowed = true := by
  obtain ⟨allowed, hmem, heq⟩ := hcovered
  rw [decide_eq_true_eq] at heq
  exact ⟨allowed, hmem, heq ▸ hhit⟩

lemma intersectExecutionBoundary_parent
    (h : intersectExecutionBoundary host parent requested cwd = .ok boundary)
    (hcovered : PrefixesCovered parent requested) : Encloses host parent boundary := by
  simp only [intersectExecutionBoundary, bind_eq_ok, pure_eq_ok] at h
  obtain ⟨reads, hreads, writes, hwrites, readable, hreadable, writable, hwritable, rfl⟩ := h
  exact {
    reads := intersectPathRoots_parent hreadable
    writes := intersectPathRoots_parent hwritable
    network := intersectNamedScope_parent fun _ _ _ _ hcover _ => equal_covers _ hcover
    commands := intersectNamedScope_parent fun _ _ _ _ hcover _ =>
      equal_covers (fun command approved => command = approved) hcover
    invocations := intersectProcessInvocations_parent
    external := by
      refine intersectNamedScope_parent fun hparent hrequested candidate hmem hcover value hhit =>
        ?_
      obtain ⟨allowed, hallowed, hname⟩ := hcovered hparent hrequested candidate hmem hcover
      exact ⟨allowed, hallowed, namespacedResourceMatches_trans hhit hname⟩ }

end

/-! ## Chains of children -/

/-- A context below `ancestor` has every ceiling `ancestor` has. -/
structure Below (ancestor context : PermissionContext) : Prop where
  ceiling : ∀ effectClass, context.ceiling.allows effectClass = true →
    ancestor.ceiling.allows effectClass = true
  boundaryCeilings : ancestor.boundaryCeilings ⊆ context.boundaryCeilings
  identities : ancestor.boundaryIdentities :: ancestor.boundaryIdentityCeilings ⊆
    context.boundaryIdentities :: context.boundaryIdentityCeilings

lemma Below.refl (context : PermissionContext) : Below context context :=
  ⟨fun _ h => h, List.Subset.refl _, List.Subset.refl _⟩

lemma Below.trans {ancestor middle context : PermissionContext} (h : Below ancestor middle)
    (h' : Below middle context) : Below ancestor context :=
  ⟨fun effectClass hallows => h.ceiling effectClass (h'.ceiling effectClass hallows),
    List.Subset.trans h.boundaryCeilings h'.boundaryCeilings,
    List.Subset.trans h.identities h'.identities⟩

section

variable {parent child : PermissionContext} {request : ChildRequest}

/-- A bounded child runs under the intersection, which is also its last ceiling. -/
lemma childPermissions_bounded {requested : ExecutionBoundary}
    (hbounded : request.executionBoundary = some requested)
    (h : childPermissions host parent request = .ok child) :
    ∃ boundary,
      intersectExecutionBoundary host parent.boundary requested request.cwd = .ok boundary ∧
      child = parent.narrowedWithBoundary host request.permissionCeiling boundary := by
  unfold childPermissions at h
  rw [hbounded] at h
  simp only [bind_eq_ok, mapError_eq_ok, pure_eq_ok] at h
  obtain ⟨boundary, hboundary, hchild⟩ := h
  exact ⟨boundary, hboundary, hchild.symm⟩

lemma childPermissions_below (h : childPermissions host parent request = .ok child) :
    Below parent child := by
  cases hbounded : request.executionBoundary with
  | some requested =>
    obtain ⟨boundary, -, rfl⟩ := childPermissions_bounded hbounded h
    refine ⟨fun effectClass hallows => ?_, subset_append_left _ _, cons_subset.2 ⟨?_, ?_⟩⟩
    · rw [narrowedWithBoundary, PermissionCeiling.allows_intersect, Bool.and_eq_true] at hallows
      exact hallows.1
    · exact mem_cons_of_mem _ (mem_append_right _ (mem_singleton.2 rfl))
    · exact fun _ hmem => mem_cons_of_mem _ (mem_append_left _ hmem)
  | none =>
    unfold childPermissions at h
    rw [hbounded, Except.ok.injEq] at h
    subst h
    refine ⟨fun effectClass hallows => ?_, List.Subset.refl _, List.Subset.refl _⟩
    rw [narrowed, PermissionCeiling.allows_intersect, Bool.and_eq_true] at hallows
    exact hallows.1

lemma descend_below {requests : List ChildRequest} {descendant : PermissionContext}
    (h : descend host parent requests = .ok descendant) : Below parent descendant :=
  foldlM_invariant (Below parent)
    (fun _ _ _ _ hbelow hchild => hbelow.trans (childPermissions_below hchild)) (.refl parent) h

end

/-- The boundary asked for, read from the directory it was asked in, allows the effect. -/
def RequestAllows (host : Host) (request : ChildRequest) (descriptor : EffectDescriptor) : Prop :=
  ∀ requested, request.executionBoundary = some requested →
    ∃ normalized, normalizedBoundary requested request.cwd = .ok normalized ∧
      boundaryAllows host normalized descriptor = true

/-- Every boundary asked for on the way down still holds at the end. -/
lemma requestAllows_of_descend {descriptor : EffectDescriptor} {requests : List ChildRequest} :
    ∀ {ancestor descendant : PermissionContext}, descend host ancestor requests = .ok descendant →
      (∀ boundary ∈ descendant.boundaryCeilings,
        boundaryAllows host boundary descriptor = true) →
      ∀ request ∈ requests, RequestAllows host request descriptor := by
  induction requests with
  | nil => exact fun _ _ request hmem => absurd hmem not_mem_nil
  | cons first rest ih =>
    intro ancestor descendant h hceilings request hmem
    rw [descend, foldlM_cons, bind_eq_ok] at h
    obtain ⟨child, hchild, hrest⟩ := h
    obtain rfl | hmem := mem_cons.1 hmem
    · intro requested hbounded
      obtain ⟨boundary, hboundary, rfl⟩ := childPermissions_bounded hbounded hchild
      have hkept : boundary ∈ descendant.boundaryCeilings :=
        (descend_below hrest).boundaryCeilings (by simp [narrowedWithBoundary])
      obtain ⟨normalized, hnormalized, hencloses⟩ := intersectExecutionBoundary_requested hboundary
      exact ⟨normalized, hnormalized, hencloses.boundaryAllows (hceilings boundary hkept)⟩
    · exact ih hrest hceilings request hmem

/-- Whatever a descendant may do or ask to do outside bypass mode, its ancestor's boundary and
ceiling allow, and so does every boundary asked for on the way. -/
def Confined (host : Host) (ancestor : PermissionContext) (requests : List ChildRequest) : Prop :=
  ∀ descendant, descend host ancestor requests = .ok descendant →
    ∀ runId capability request mode ceiling invokeAutoReviewer now, mode ≠ .bypass →
      (descendant.evaluateEffectWithReviewerPolicy host runId capability request mode ceiling
        invokeAutoReviewer now).decision ≠ .deny →
      boundaryAllows host ancestor.boundary request.descriptor = true ∧
      (∀ child ∈ requests, RequestAllows host child request.descriptor) ∧
      ancestor.ceiling.allows request.descriptor.effectClass = true

/-- The intersection, once its roots are confirmed on disk, takes external resources from the
parent's names only. -/
def NamesCovered (host : Host) (parent requested : ExecutionBoundary) (cwd : String) : Prop :=
  ∀ boundary, intersectExecutionBoundary host parent requested cwd = .ok boundary →
    (capture host boundary).validatesCurrentPaths host = true →
    PrefixesCovered parent requested

/-- With the parent's names covered, a bounded child and all below it are confined. -/
lemma confined_of_namesCovered {requested : ExecutionBoundary} {cwd : String}
    {ancestor : PermissionContext} (hcovered : NamesCovered host ancestor.boundary requested cwd)
    (ceiling : PermissionCeiling) (rest : List ChildRequest) :
    Confined host ancestor (⟨some requested, ceiling, cwd⟩ :: rest) := by
  intro descendant hdescend runId capability request mode passed invokeAutoReviewer now hmode h
  have hadmitted := admitted_of_not_deny hmode h
  have hbelow := descend_below hdescend
  refine ⟨?_, requestAllows_of_descend hdescend hadmitted.ceilings, ?_⟩
  · rw [descend, foldlM_cons, bind_eq_ok] at hdescend
    obtain ⟨child, hchild, hrest⟩ := hdescend
    obtain ⟨boundary, hboundary, rfl⟩ := childPermissions_bounded rfl hchild
    have hkept : boundary ∈ descendant.boundaryCeilings :=
      (descend_below hrest).boundaryCeilings (by simp [narrowedWithBoundary])
    -- the identities captured for the child are among those the descendant confirmed
    have hvalid : (capture host boundary).validatesCurrentPaths host
        = true := by
      have hmem := (descend_below hrest).identities (mem_cons_self ..)
      have hall := hadmitted.identities
      rw [boundaryIdentitiesValid, Bool.and_eq_true, all_eq_true] at hall
      obtain hhead | htail := mem_cons.1 hmem
      · have hhead : capture host boundary = descendant.boundaryIdentities :=
          hhead
        rw [hhead]
        exact hall.1
      · exact hall.2 _ htail
    have hencloses := intersectExecutionBoundary_parent hboundary
      (hcovered boundary hboundary hvalid)
    exact hencloses.boundaryAllows (hadmitted.ceilings boundary hkept)
  · have hceiling := hadmitted.ceiling
    rw [PermissionCeiling.allows_intersect, Bool.and_eq_true] at hceiling
    exact hbelow.ceiling _ hceiling.1

/-! ## Prefixes without a separator -/

/-- A scope that allows by its mode whatever its boundary does not stop. -/
def plainContext (boundary : ExecutionBoundary) : PermissionContext where
  mode := .auto
  userRules := []
  generatedRules := []
  ceiling := .unrestricted
  leases := []
  boundary
  boundaryCeilings := []
  boundaryIdentities := {}
  boundaryIdentityCeilings := []
  configuredEffects := []
  reviewer _ := .ask
  protectedPaths := {}

/-- A look at one external resource. -/
def externalRead (resource : String) : EffectRequest where
  effectId := "effect"
  operationId := "operation"
  capability := "Lookup"
  descriptor :=
    { effectClass := .readOnly
      action := "read"
      resources := { externalResources := [resource] }
      replayPolicy := .replaySafe }
  effectiveInput := .null
  inputDigest := none

lemma boundaryAllows_externalRead (host : Host) (boundary : ExecutionBoundary)
    (resource : String) :
    boundaryAllows host boundary (externalRead resource).descriptor =
      (boundary.unrestrictedExternalSideEffects ||
        boundary.externalResourcePrefixes.any (namespacedResourceMatches resource)) := by
  simp [boundaryAllows, readsAllowed, writesAllowed, networkAllowed, processAllowed,
    externalAllowed, externalRead]

variable {boundary : ExecutionBoundary}

/-- A child of a plain scope may look at whatever its own boundary names. -/
lemma externalRead_allowed {parent : ExecutionBoundary} {resource : String}
    (hvalid : (capture host boundary).validatesCurrentPaths host = true)
    (hallows : boundaryAllows host boundary (externalRead resource).descriptor = true) :
    (((plainContext parent).narrowedWithBoundary host .unrestricted
      boundary).evaluateEffectWithReviewerPolicy host "run" "Lookup" (externalRead resource) .auto
      .unrestricted true 0).decision = .allow := by
  have hidentities : ((plainContext parent).narrowedWithBoundary host .unrestricted
      boundary).boundaryIdentitiesValid host = true := by
    rw [boundaryIdentitiesValid, Bool.and_eq_true]
    exact ⟨hvalid, rfl⟩
  unfold evaluateEffectWithReviewerPolicy
  have hcapability : "Lookup" = (externalRead resource).capability := rfl
  rw [if_neg (not_not.2 hcapability), if_neg (by decide), if_neg (by rw [hidentities]; decide)]
  unfold evaluateWithin
  dsimp only
  -- no rule, no protected path; the boundary is the only ceiling and the scope's own
  rw [if_neg (by intro h; cases h), if_neg (by intro h; cases h)]
  have hceilings : ((plainContext parent).narrowedWithBoundary host .unrestricted
      boundary).boundaryCeilings = [boundary] := rfl
  have hown : ((plainContext parent).narrowedWithBoundary host .unrestricted
      boundary).boundaryForCapability (externalRead resource).capability = boundary := rfl
  rw [hceilings, hown, any_cons, hallows]
  rfl

lemma descend_plainContext {parent requested : ExecutionBoundary} {cwd : String}
    (hboundary : intersectExecutionBoundary host parent requested cwd = .ok boundary) :
    descend host (plainContext parent) [⟨some requested, .unrestricted, cwd⟩] =
      .ok ((plainContext parent).narrowedWithBoundary host .unrestricted boundary) := by
  have hboundary' : intersectExecutionBoundary host (plainContext parent).boundary requested cwd =
      .ok boundary := hboundary
  simp only [descend, foldlM_cons, foldlM_nil, childPermissions, hboundary']
  rfl

/-- A bounded child and all below it stay within its parent, for every parent with that
boundary, exactly when the parent's names cover the external resources handed down. -/
theorem confined_iff_namesCovered (host : Host) (parent requested : ExecutionBoundary)
    (cwd : String) :
    (∀ ancestor : PermissionContext, ancestor.boundary = parent →
      ∀ ceiling rest, Confined host ancestor (⟨some requested, ceiling, cwd⟩ :: rest)) ↔
    NamesCovered host parent requested cwd := by
  constructor
  · intro hconfined boundary hboundary hvalid hparent hrequested candidate hmem htext
    have hkept : candidate ∈ boundary.externalResourcePrefixes := by
      simp only [intersectExecutionBoundary, bind_eq_ok, pure_eq_ok] at hboundary
      obtain ⟨_, -, _, -, _, -, _, -, rfl⟩ := hboundary
      simp only [intersectNamedScope, hparent, hrequested, Bool.false_eq_true, if_false]
      exact mem_filter.2 ⟨hmem, any_eq_true.2 htext⟩
    have hself : namespacedResourceMatches candidate candidate = true := by
      simp [namespacedResourceMatches]
    have hallows : boundaryAllows host boundary (externalRead candidate).descriptor = true := by
      rw [boundaryAllows_externalRead, Bool.or_eq_true]
      exact .inr (any_eq_true.2 ⟨candidate, hkept, hself⟩)
    -- the parent would have to name the candidate itself
    have hparentAllows := (hconfined (plainContext parent) rfl .unrestricted [] _
      (descend_plainContext hboundary) "run" "Lookup" (externalRead candidate) .auto .unrestricted
      true 0 (by decide)
      (by rw [externalRead_allowed hvalid hallows]; decide)).1
    rw [boundaryAllows_externalRead] at hparentAllows
    have hclosed : (plainContext parent).boundary.unrestrictedExternalSideEffects = false := hparent
    rw [hclosed, Bool.false_or] at hparentAllows
    exact any_eq_true.1 hparentAllows
  · intro hcovered ancestor hancestor ceiling rest
    subst hancestor
    exact confined_of_namesCovered hcovered ceiling rest

def repoBoundary : ExecutionBoundary := { externalResourcePrefixes := ["github:repo"] }

def siblingBoundary : ExecutionBoundary := { externalResourcePrefixes := ["github:repository"] }

/-- A parent that may use `github:repo` hands down `github:repository`, which it may not use. -/
theorem sibling_resource_not_confined :
    ¬Confined workHost (plainContext repoBoundary)
      [⟨some siblingBoundary, .unrestricted, "/work"⟩] := by
  intro hconfined
  have hintersect : intersectExecutionBoundary workHost repoBoundary
      siblingBoundary "/work" = .ok siblingBoundary := by decide +kernel
  have hchild : boundaryAllows workHost siblingBoundary
      (externalRead "github:repository").descriptor = true := by decide +kernel
  have hparent : boundaryAllows workHost repoBoundary
      (externalRead "github:repository").descriptor = false := by decide +kernel
  have hallowed := (hconfined _ (descend_plainContext hintersect) "run" "Lookup"
    (externalRead "github:repository") .auto .unrestricted true 0 (by decide)
    (by rw [externalRead_allowed (by decide +kernel) hchild]; decide)).1
  exact absurd (hparent.symm.trans hallowed) (by decide)

end SolarisMesh.Spawner
