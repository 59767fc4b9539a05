import SolarisMesh.Lib.Checked
import SolarisMesh.Workflow.Definition

/-!
# Roles of registered workflows

The roles a definition embeds are registered for the workflow and its owner, under one text made of
both names, and go with the last text they are registered for. Roles a definition only refers to
are checked at its registration and not held.
-/

namespace SolarisMesh.Workflow

open List Lib

/-! ## The registry of roles -/

/-- A map of sets is the list of its pairs. -/
structure AgentRoleRegistry where
  roles : List AgentRoleDefinition
  owners : List (String × String)
deriving DecidableEq

namespace AgentRoleRegistry

def get (registry : AgentRoleRegistry) (id : String) : Option AgentRoleDefinition :=
  registry.roles.find? (·.id = id)

def registerOwned (registry : AgentRoleRegistry) (owner : String) (role : AgentRoleDefinition) :
    Except String AgentRoleRegistry := do
  require (!isBlank owner) "agent role owner must not be empty"
  let id := role.id
  require ((registry.get id).all (· = role))
    s!"agent role {id} is already registered with a different definition"
  return { roles := if (registry.get id).isSome then registry.roles else role :: registry.roles
           owners := registry.owners.insert (id, owner) }

def unregisterOwned (registry : AgentRoleRegistry) (owner roleId : String) : AgentRoleRegistry :=
  let owners := registry.owners.filter (· ≠ (roleId, owner))
  if (roleId, owner) ∉ registry.owners then registry
  else if owners.any (·.1 = roleId) then { registry with owners }
  else ⟨registry.roles.filter (·.id ≠ roleId), owners⟩

/-- The loop of a registration: what it has registered is taken back if a role is refused. -/
def registerAll (registry : AgentRoleRegistry) (registered : List (String × String)) :
    List (String × AgentRoleDefinition) → AgentRoleRegistry × Except String Unit
  | [] => (registry, .ok ())
  | (owner, role) :: rest =>
    match registry.registerOwned owner role with
    | .error e => (registered.foldl (fun registry x => registry.unregisterOwned x.2 x.1) registry,
      .error e)
    | .ok next => next.registerAll (registered ++ [(role.id, owner)]) rest

end AgentRoleRegistry

/-! ## The controller -/

structure WorkflowController where
  definitions : List WorkflowDefinition
  definitionOwners : List (String × String)
  roles : AgentRoleRegistry
deriving DecidableEq

/-- The checks of a definition that do not look at the controller, and the one of the references
between definitions. -/
structure DefinitionChecks where
  validateDefinition : WorkflowDefinition → Except String Unit
  validateRole : AgentRoleDefinition → Except String Unit
  validateWorkflowReferenceGraph : List (String × List String) → Except String Unit

/-- The roles a node refers to, with what is said if one is unknown. -/
def WorkflowNode.roleReferences (node : WorkflowNode) : List (String × String) :=
  let role key text (value : Json) := ((value.get key).bind Json.asStr).toList.map (text, ·)
  node.role.toList.map ("references unknown role", ·) ++ match node.collaboration with
    | .configured config =>
      (match config.get "worker_roles" with
        | some (.array policies) =>
          policies.flatMap (role "role" "collaboration references unknown role")
        | _ => []) ++
        role "primary_role" "independent_reviewer references unknown primary_role" config ++
        role "reviewer_role" "independent_reviewer references unknown reviewer_role" config
    | .auto | .fixed _ | .inherit => []

namespace WorkflowController

variable (controller : WorkflowController) (owner : String)

def definition (id : String) : Option WorkflowDefinition :=
  controller.definitions.find? (·.id = id)

def workflowRefs (definition : WorkflowDefinition) : List String :=
  definition.nodes.filterMap (·.workflowRef)

def preflightDefinition (checks : DefinitionChecks) (controller : WorkflowController)
    (batchIds : List String) (definition : WorkflowDefinition) : Except String Unit := do
  checks.validateDefinition definition
  let id := definition.id
  let embedded := definition.roles.map (·.id)
  require embedded.Nodup s!"workflow {id} contains duplicate role ids"
  definition.roles.forM checks.validateRole
  definition.nodes.forM fun node => node.roleReferences.forM fun (text, role) =>
    let node := node.id
    require (role ∈ embedded ∨ (controller.roles.get role).isSome)
      s!"workflow node {node} {text} {role}"
  definition.nodes.forM fun node => node.workflowRef.forM fun workflowRef =>
    let node := node.id
    require (workflowRef ∈ batchIds ∨ (controller.definition workflowRef).isSome)
      s!"workflow node {node} references unknown workflow {workflowRef}"
  require ((controller.definition id).all (· = definition))
    s!"workflow {id} is already registered with a different definition"

def preflightRegisterBatch (checks : DefinitionChecks) (controller : WorkflowController)
    (batch : List WorkflowDefinition) : Except String Unit := do
  let batchIds := batch.map (·.id)
  require batchIds.Nodup "workflow registration batch contains duplicate ids"
  batch.forM (preflightDefinition checks controller batchIds)
  checks.validateWorkflowReferenceGraph
    (((controller.definitions.filter (·.id ∉ batchIds)) ++ batch).map fun definition =>
      (definition.id, workflowRefs definition))

def roleOwner (workflowId owner : String) : String := s!"workflow:{workflowId}:{owner}"

/-- What a registration registers: the roles of the definitions the owner does not own yet. -/
def newRoles (batch : List WorkflowDefinition) : List (String × AgentRoleDefinition) :=
  (batch.filter fun definition => (definition.id, owner) ∉ controller.definitionOwners).flatMap
    fun definition => definition.roles.map (roleOwner definition.id owner, ·)

def checkBatch (checks : DefinitionChecks) (controller : WorkflowController) (owner : String)
    (batch : List WorkflowDefinition) : Except String Unit := do
  require (!isBlank owner) "workflow definition owner must not be empty"
  preflightRegisterBatch checks controller batch
  batch.forM fun definition => definition.roles.forM fun role =>
    let id := role.id
    require ((controller.roles.get id).all (· = role))
      s!"agent role {id} is already registered with a different definition"

def registerOwnedBatch (checks : DefinitionChecks) (controller : WorkflowController)
    (owner : String) (batch : List WorkflowDefinition) : WorkflowController × Except String Unit :=
  match checkBatch checks controller owner batch with
  | .error e => (controller, .error e)
  | .ok () =>
    match controller.roles.registerAll [] (newRoles controller owner batch) with
    | (roles, .error e) => ({ controller with roles }, .error e)
    | (roles, .ok ()) =>
      ({ definitions := controller.definitions ++
            batch.filter fun definition => (controller.definition definition.id).isNone
         definitionOwners :=
          (batch.map fun definition => (definition.id, owner)) ∪ controller.definitionOwners
         roles }, .ok ())

/-- The definition goes with its last owner. -/
def removeOwner (workflowId : String) : WorkflowController :=
  let definitionOwners := controller.definitionOwners.filter (· ≠ (workflowId, owner))
  { definitions := controller.definitions.filter fun definition =>
      definition.id ≠ workflowId ∨ definition.id ∈ definitionOwners.map (·.1)
    definitionOwners
    roles := ((controller.definition workflowId).elim [] (·.roles)).foldl
      (fun registry role => registry.unregisterOwned (roleOwner workflowId owner) role.id)
      controller.roles }

/-- Whether a run of the workflow is still running is given. -/
def unregisterOwned (workflowId : String) (running : Bool) :
    WorkflowController × Except String Bool :=
  let removeDefinition :=
    workflowId ∉ (controller.definitionOwners.filter (· ≠ (workflowId, owner))).map (·.1)
  if running then (controller, .error s!"workflow {workflowId} still has a running Run")
  else if (workflowId, owner) ∈ controller.definitionOwners then
    match controller.definitions.find? fun definition =>
        removeDefinition ∧ definition.id ≠ workflowId ∧ workflowId ∈ workflowRefs definition with
    | some definition =>
      let referencedBy := definition.id
      (controller, .error s!"workflow {workflowId} is still referenced by workflow {referencedBy}")
    | none => (controller.removeOwner owner workflowId, .ok removeDefinition)
  else (controller, .ok false)

end WorkflowController

inductive RegistrationEvent where
  | register (owner : String) (batch : List WorkflowDefinition)
  | unregister (owner workflowId : String) (running : Bool)
  /-- A role that does not belong to a workflow. -/
  | core (role : AgentRoleDefinition)
deriving DecidableEq

def WorkflowController.next (checks : DefinitionChecks) (controller : WorkflowController) :
    RegistrationEvent → WorkflowController
  | .register owner batch => (controller.registerOwnedBatch checks owner batch).1
  | .unregister owner workflowId running => (controller.unregisterOwned owner workflowId running).1
  | .core role =>
    { controller with
      roles := ((controller.roles.registerOwned "core" role).toOption).getD controller.roles }

/-! ## Who holds a role -/

namespace AgentRoleRegistry

variable {registry next : AgentRoleRegistry} {owner : String} {role : AgentRoleDefinition}
  {base registered : List (String × String)}

lemma get_isSome {id : String} :
    (registry.get id).isSome ↔ ∃ role ∈ registry.roles, role.id = id := by simp [get]

/-- A role is there while it is registered for someone. -/
def Held (registry : AgentRoleRegistry) : Prop :=
  ∀ id, (∃ role ∈ registry.roles, role.id = id) ↔ ∃ owner, (id, owner) ∈ registry.owners

lemma registerOwned_eq_ok (hheld : registry.Held)
    (h : registry.registerOwned owner role = .ok next) :
    next.Held ∧ ∀ x, x ∈ next.owners ↔ x = (role.id, owner) ∨ x ∈ registry.owners := by
  simp only [registerOwned, bind_eq_ok] at h
  obtain ⟨_, _, _, _, ⟨⟩⟩ := h
  refine ⟨fun id => ?_, fun x => mem_insert_iff⟩
  simp only [mem_insert_iff, exists_or, ← hheld id, Prod.mk.injEq, exists_eq_right]
  by_cases hthere : (registry.get role.id).isSome
  · rw [if_pos hthere, or_iff_right_of_imp]
    rintro rfl
    exact get_isSome.1 hthere
  · rw [if_neg hthere]
    simp only [mem_cons, exists_eq_or_imp]
    exact or_congr_left eq_comm

lemma unregisterOwned_spec (hheld : registry.Held) (owner roleId : String) :
    (registry.unregisterOwned owner roleId).Held ∧
      ∀ x, x ∈ (registry.unregisterOwned owner roleId).owners ↔
        x ∈ registry.owners ∧ x ≠ (roleId, owner) := by
  by_cases hnone : (roleId, owner) ∉ registry.owners
  · rw [unregisterOwned, if_pos hnone]
    exact ⟨hheld, fun x => ⟨fun hx => ⟨hx, fun heq => hnone (heq ▸ hx)⟩, And.left⟩⟩
  rw [unregisterOwned, if_neg hnone]
  by_cases hothers : (registry.owners.filter (· ≠ (roleId, owner))).any (·.1 = roleId)
  · rw [if_pos hothers]
    refine ⟨fun id => (hheld id).trans ⟨?_, ?_⟩, fun x => by simp⟩
    · rintro ⟨other, hother⟩
      by_cases hsame : (id, other) = (roleId, owner)
      · obtain ⟨⟨_, kept⟩, hkept, heq⟩ := any_eq_true.1 hothers
        obtain ⟨rfl, -⟩ := Prod.mk.inj hsame
        obtain rfl := of_decide_eq_true heq
        exact ⟨kept, hkept⟩
      · exact ⟨other, mem_filter.2 ⟨hother, decide_eq_true hsame⟩⟩
    · rintro ⟨other, hother⟩
      exact ⟨other, (mem_filter.1 hother).1⟩
  · rw [if_neg hothers]
    refine ⟨fun id => ?_, fun x => by simp⟩
    by_cases hid : id = roleId
    · subst hid
      refine iff_of_false ?_ fun ⟨_, hother⟩ =>
        hothers (any_eq_true.2 ⟨_, hother, decide_eq_true rfl⟩)
      rintro ⟨role, hrole, rfl⟩
      exact of_decide_eq_true (mem_filter.1 hrole).2 rfl
    · have hroles := hheld id
      simp only [mem_filter, decide_eq_true_eq, ne_eq, Prod.mk.injEq, hid, false_and,
        not_false_eq_true, and_true, ← hroles]
      exact exists_congr fun role => ⟨fun h => ⟨h.1.1, h.2⟩, fun h => ⟨⟨h.1, h.2 ▸ hid⟩, h.2⟩⟩

/-- The pairs of a list are taken out. -/
lemma foldl_unregisterOwned (hheld : registry.Held) (pairs : List (String × String)) :
    (pairs.foldl (fun registry x => registry.unregisterOwned x.2 x.1) registry).Held ∧
      ∀ x, x ∈ (pairs.foldl (fun registry x => registry.unregisterOwned x.2 x.1) registry).owners ↔
        x ∈ registry.owners ∧ x ∉ pairs := by
  induction pairs generalizing registry with
  | nil => exact ⟨hheld, by simp⟩
  | cons pair pairs ih =>
    obtain ⟨hnext, howners⟩ := unregisterOwned_spec hheld pair.2 pair.1
    refine ⟨(ih hnext).1, fun x => ((ih hnext).2 x).trans ?_⟩
    rw [howners, mem_cons, not_or, and_assoc]

/-- Either all pairs are registered, or what was registered is taken back. -/
lemma registerAll_spec {rest : List (String × AgentRoleDefinition)} (hheld : registry.Held)
    (howners : ∀ x, x ∈ registry.owners ↔ x ∈ registered ∨ x ∈ base)
    (hregistered : ∀ x ∈ registered, x ∉ base) (hrest : ∀ x ∈ rest, (x.2.id, x.1) ∉ base) :
    (registry.registerAll registered rest).1.Held ∧
      ((registry.registerAll registered rest).2 = .ok () ∧
        (∀ x, x ∈ (registry.registerAll registered rest).1.owners ↔
          x ∈ rest.map (fun x => (x.2.id, x.1)) ∨ x ∈ registered ∨ x ∈ base) ∨
      (∃ e, (registry.registerAll registered rest).2 = .error e) ∧
        ∀ x, x ∈ (registry.registerAll registered rest).1.owners ↔ x ∈ base) := by
  induction rest generalizing registry registered with
  | nil => exact ⟨hheld, .inl ⟨rfl, by simpa [registerAll] using howners⟩⟩
  | cons pair rest ih =>
    obtain ⟨hpair, hrest⟩ := forall_mem_cons.1 hrest
    rw [registerAll]
    cases hregister : registry.registerOwned pair.1 pair.2 with
    | error e =>
      obtain ⟨hback, hleft⟩ := foldl_unregisterOwned hheld registered
      refine ⟨hback, .inr ⟨⟨e, rfl⟩, fun x => (hleft x).trans ?_⟩⟩
      rw [howners]
      exact ⟨fun h => h.1.resolve_left h.2, fun h => ⟨.inr h, fun hx => hregistered x hx h⟩⟩
    | ok next =>
      obtain ⟨hnext, hadded⟩ := registerOwned_eq_ok hheld hregister
      have hbase : ∀ x ∈ registered ++ [(pair.2.id, pair.1)], x ∉ base :=
        forall_mem_append.2 ⟨hregistered, forall_mem_singleton.2 hpair⟩
      have hih := ih hnext
        (fun x => by rw [hadded, howners, mem_append, mem_singleton]; tauto) hbase hrest
      simpa [or_assoc, or_left_comm] using hih

end AgentRoleRegistry

lemma roleOwner_ne_core (workflowId owner : String) :
    WorkflowController.roleOwner workflowId owner ≠ "core" := by
  intro h
  have hhead := congrArg (·.toList.head?) h
  simp [WorkflowController.roleOwner, toString] at hhead

namespace WorkflowController

/-- A role that a registered definition embeds. -/
def Embeds (controller : WorkflowController) (x : String × String) (roleId : String) : Prop :=
  x ∈ controller.definitionOwners ∧
    ∃ definition ∈ controller.definitions, definition.id = x.1 ∧
      roleId ∈ definition.roles.map (·.id)

/-- Registered definitions have owners, and roles are registered for those that embed them. -/
structure Kept (known : String × String → Prop) (controller : WorkflowController) : Prop where
  apart : ∀ x y, known x → known y → roleOwner x.1 x.2 = roleOwner y.1 y.2 → x = y
  held : controller.roles.Held
  unique : ∀ d ∈ controller.definitions, ∀ d' ∈ controller.definitions, d.id = d'.id → d = d'
  owned : ∀ x ∈ controller.definitionOwners, known x ∧ ∃ d ∈ controller.definitions, d.id = x.1
  present : ∀ d ∈ controller.definitions, ∃ owner, (d.id, owner) ∈ controller.definitionOwners
  owners : ∀ roleId owner, owner ≠ "core" → ((roleId, owner) ∈ controller.roles.owners ↔
    ∃ x, controller.Embeds x roleId ∧ owner = roleOwner x.1 x.2)

variable {checks : DefinitionChecks} {controller : WorkflowController}
  {known : String × String → Prop}

lemma Kept.withRoles (hkept : controller.Kept known) {roles : AgentRoleRegistry}
    (hheld : roles.Held)
    (howners : ∀ x, x.2 ≠ "core" → (x ∈ roles.owners ↔ x ∈ controller.roles.owners)) :
    Kept known { controller with roles } where
  apart := hkept.apart
  held := hheld
  unique := hkept.unique
  owned := hkept.owned
  present := hkept.present
  owners _ _ hcore := (howners _ hcore).trans (hkept.owners _ _ hcore)

lemma checkBatch_eq_ok {owner : String} {batch : List WorkflowDefinition}
    (h : checkBatch checks controller owner batch = .ok ()) : (batch.map (·.id)).Nodup ∧
      ∀ d ∈ batch, (controller.definition d.id).isSome → d ∈ controller.definitions := by
  obtain ⟨-, h⟩ := check_bind_eq_ok.1 h
  obtain ⟨hpreflight, -⟩ := check_bind_eq_ok.1 h
  obtain ⟨hnodup, h⟩ := check_bind_eq_ok.1 hpreflight
  obtain ⟨hchecked, -⟩ := check_bind_eq_ok.1 h
  refine ⟨of_decide_eq_true (require_eq_ok.1 hnodup), fun d hd hsome => ?_⟩
  have hone := forM_eq_ok hchecked d hd
  simp only [preflightDefinition, check_bind_eq_ok, require_eq_ok] at hone
  obtain ⟨found, hfind⟩ := Option.isSome_iff_exists.1 hsome
  have hsame := hone.2.2.2.2.2
  rw [hfind] at hsame
  obtain rfl := of_decide_eq_true hsame
  exact mem_of_find?_eq_some hfind

lemma Kept.register (hkept : controller.Kept known)
    {owner : String} {batch : List WorkflowDefinition} (hbatch : ∀ d ∈ batch, known (d.id, owner)) :
    (registerOwnedBatch checks controller owner batch).1.Kept known := by
  rw [registerOwnedBatch]
  split
  · exact hkept
  next hcheck =>
  obtain ⟨hnodup, hsame⟩ := checkBatch_eq_ok hcheck
  -- what is registered is registered for pairs that are not registered yet
  have hnew : ∀ x ∈ newRoles controller owner batch, (x.2.id, x.1) ∉ controller.roles.owners := by
    intro x hx hmem
    obtain ⟨d, hd, hx⟩ := mem_flatMap.1 hx
    obtain ⟨hd, hfree⟩ := mem_filter.1 hd
    obtain ⟨role, -, rfl⟩ := mem_map.1 hx
    obtain ⟨y, hy, heq⟩ := (hkept.owners _ _ (roleOwner_ne_core _ _)).1 hmem
    obtain rfl := hkept.apart _ y (hbatch d hd) (hkept.owned y hy.1).1 heq
    exact of_decide_eq_true hfree hy.1
  have hspec := AgentRoleRegistry.registerAll_spec hkept.held
    (show ∀ x, x ∈ _ ↔ x ∈ [] ∨ x ∈ _ by simp) (by simp) hnew
  split
  · next roles e hall =>
    rw [hall] at hspec
    obtain ⟨hheld, ⟨hok, -⟩ | ⟨-, howners⟩⟩ := hspec
    · cases hok
    · exact hkept.withRoles hheld fun x _ => howners x
  · next roles hall =>
    rw [hall] at hspec
    obtain ⟨hheld, ⟨-, howners⟩ | ⟨⟨e, he⟩, -⟩⟩ := hspec
    swap
    · cases he
    have hdefinitions : ∀ d, d ∈ controller.definitions ++
        batch.filter (fun d => (controller.definition d.id).isNone) ↔
        d ∈ controller.definitions ∨ d ∈ batch := by
      intro d
      rw [mem_append, mem_filter, Option.isNone_iff_eq_none]
      refine or_congr_right' fun hold => and_iff_left_of_imp fun hd => ?_
      exact Option.not_isSome_iff_eq_none.1 (hold ∘ hsame d hd)
    -- a definition of the batch is the registered one with its id
    have hbatchId : ∀ d d', d ∈ controller.definitions ∨ d ∈ batch → d' ∈ batch →
        d.id = d'.id → d = d' := by
      rintro d d' (hd | hd) hd' hid
      · exact hkept.unique d hd d' (hsame d' hd' (List.find?_isSome.2 ⟨d, hd, decide_eq_true hid⟩))
          hid
      · exact inj_on_of_nodup_map hnodup hd hd' hid
    have hunique : ∀ d d', d ∈ controller.definitions ∨ d ∈ batch →
        d' ∈ controller.definitions ∨ d' ∈ batch → d.id = d'.id → d = d' := by
      rintro d d' (hd | hd) (hd' | hd') hid
      · exact hkept.unique d hd d' hd' hid
      · exact hbatchId d d' (.inl hd) hd' hid
      · exact (hbatchId d' d (.inl hd') hd hid.symm).symm
      · exact hbatchId d d' (.inr hd) hd' hid
    refine ⟨hkept.apart, hheld, ?_, ?_, ?_, fun roleId roleOwner' hcore => (howners _).trans ?_⟩
    · simp only [hdefinitions]
      exact fun d hd d' hd' => hunique d d' hd hd'
    · simp only [hdefinitions, mem_union_iff, mem_map]
      rintro x (⟨d, hd, rfl⟩ | hx)
      · exact ⟨hbatch d hd, d, .inr hd, rfl⟩
      · obtain ⟨hknown, d, hd, hid⟩ := hkept.owned x hx
        exact ⟨hknown, d, .inl hd, hid⟩
    · simp only [hdefinitions, mem_union_iff, mem_map]
      rintro d (hd | hd)
      · obtain ⟨first, hfirst⟩ := hkept.present d hd
        exact ⟨first, .inr hfirst⟩
      · exact ⟨owner, .inl ⟨d, hd, rfl⟩⟩
    · simp only [Embeds, hdefinitions, mem_union_iff, mem_map]
      rw [hkept.owners _ _ hcore]
      simp only [Embeds, mem_map]
      constructor
      · rintro (⟨x, hx, heq⟩ | hold | ⟨x, ⟨hx, d, hd, hrest⟩, heq⟩)
        · obtain ⟨d, hd, hx⟩ := mem_flatMap.1 hx
          obtain ⟨role, hrole, rfl⟩ := mem_map.1 hx
          obtain ⟨rfl, rfl⟩ := Prod.mk.inj heq
          have hd := (mem_filter.1 hd).1
          exact ⟨(d.id, owner), ⟨.inl ⟨d, hd, rfl⟩, d, .inr hd, rfl, role, hrole, rfl⟩, rfl⟩
        · cases hold
        · exact ⟨x, ⟨.inr hx, d, .inl hd, hrest⟩, heq⟩
      · rintro ⟨x, ⟨hx, d, hd, hid, role, hrole, rfl⟩, rfl⟩
        by_cases hold : x ∈ controller.definitionOwners
        · -- the owner had registered the definition before
          obtain ⟨-, d', hd', hid'⟩ := hkept.owned x hold
          obtain rfl := hunique d d' hd (.inl hd') (hid.trans hid'.symm)
          exact .inr (.inr ⟨x, ⟨hold, d, hd', hid, role, hrole, rfl⟩, rfl⟩)
        · obtain ⟨d', hd', rfl⟩ := hx.resolve_right hold
          obtain rfl := hbatchId d d' hd hd' hid
          exact .inl ⟨_, mem_flatMap.2 ⟨d, mem_filter.2 ⟨hd', decide_eq_true hold⟩,
            mem_map.2 ⟨role, hrole, rfl⟩⟩, rfl⟩

lemma removeOwner_embeds {owner workflowId roleId : String} {x : String × String} :
    (controller.removeOwner owner workflowId).Embeds x roleId ↔
      controller.Embeds x roleId ∧ x ≠ (workflowId, owner) := by
  simp only [Embeds, removeOwner, mem_filter, decide_eq_true_eq]
  constructor
  · rintro ⟨⟨hx, hother⟩, d, ⟨hd, -⟩, hrest⟩
    exact ⟨⟨hx, d, hd, hrest⟩, hother⟩
  · rintro ⟨⟨hx, d, hd, hid, hrole⟩, hother⟩
    refine ⟨⟨hx, hother⟩, d, ⟨hd, .inr (mem_map.2 ⟨x, ?_, hid.symm⟩)⟩, hid, hrole⟩
    exact mem_filter.2 ⟨hx, decide_eq_true hother⟩

lemma Kept.removeOwner (hkept : controller.Kept known)
    {owner workflowId : String} (hmem : (workflowId, owner) ∈ controller.definitionOwners) :
    (controller.removeOwner owner workflowId).Kept known := by
  obtain ⟨hknown, d, hd, hid⟩ := hkept.owned _ hmem
  have hfind : controller.definition workflowId = some d :=
    find?_eq_some_of_unique hd (decide_eq_true hid) fun found hfound hfoundId =>
      hkept.unique found hfound d hd ((of_decide_eq_true hfoundId).trans hid.symm)
  have hroles := AgentRoleRegistry.foldl_unregisterOwned hkept.held
    (d.roles.map fun role => (role.id, roleOwner workflowId owner))
  rw [foldl_map] at hroles
  have hsame : (controller.removeOwner owner workflowId).roles = d.roles.foldl
      (fun registry role => registry.unregisterOwned (roleOwner workflowId owner) role.id)
      controller.roles := by
    simp [WorkflowController.removeOwner, hfind]
  refine ⟨hkept.apart, hsame ▸ hroles.1, fun d hd d' hd' => ?_, fun x hx => ?_, fun d hd => ?_,
    fun roleId other hcore => ?_⟩
  · exact hkept.unique d (mem_filter.1 hd).1 d' (mem_filter.1 hd').1
  · obtain ⟨hknown, d, hd, hid⟩ := hkept.owned x (mem_filter.1 hx).1
    refine ⟨hknown, d, mem_filter.2 ⟨hd, ?_⟩, hid⟩
    exact decide_eq_true (.inr (mem_map.2 ⟨x, hx, hid.symm⟩))
  · obtain ⟨hd, hleft⟩ := mem_filter.1 hd
    rcases of_decide_eq_true hleft with hother | hleft
    · obtain ⟨first, hfirst⟩ := hkept.present d hd
      refine ⟨first, mem_filter.2 ⟨hfirst, decide_eq_true ?_⟩⟩
      exact fun heq => hother (Prod.mk.inj heq).1
    · obtain ⟨⟨_, first⟩, hfirst, rfl⟩ := mem_map.1 hleft
      exact ⟨first, hfirst⟩
  · rw [hsame, hroles.2, hkept.owners _ _ hcore]
    simp only [removeOwner_embeds]
    constructor
    · rintro ⟨⟨x, hx, rfl⟩, hout⟩
      refine ⟨x, ⟨hx, ?_⟩, rfl⟩
      rintro rfl
      obtain ⟨-, d', hd', hid', hrole⟩ := hx
      obtain rfl := hkept.unique d' hd' d hd (hid'.trans hid.symm)
      obtain ⟨role, hmem, rfl⟩ := mem_map.1 hrole
      exact hout (mem_map.2 ⟨role, hmem, rfl⟩)
    · rintro ⟨x, ⟨hx, hne⟩, rfl⟩
      refine ⟨⟨x, hx, rfl⟩, fun hin => hne ?_⟩
      obtain ⟨role, -, heq⟩ := mem_map.1 hin
      exact hkept.apart x _ (hkept.owned x hx.1).1 hknown (Prod.mk.inj heq).2.symm

lemma Kept.unregister (hkept : controller.Kept known)
    (owner workflowId : String) (running : Bool) :
    (controller.unregisterOwned owner workflowId running).1.Kept known ∧
      ∀ x roleId, x ≠ (workflowId, owner) → controller.Embeds x roleId →
        (controller.unregisterOwned owner workflowId running).1.Embeds x roleId := by
  dsimp only [unregisterOwned]
  split_ifs with _ hmem
  · exact ⟨hkept, fun _ _ _ => id⟩
  · split
    · exact ⟨hkept, fun _ _ _ => id⟩
    · exact ⟨hkept.removeOwner hmem, fun _ _ hne hx => removeOwner_embeds.2 ⟨hx, hne⟩⟩
  · exact ⟨hkept, fun _ _ _ => id⟩

lemma Kept.core (hkept : controller.Kept known) (role : AgentRoleDefinition) :
    (controller.next checks (.core role)).Kept known := by
  dsimp only [next]
  cases h : controller.roles.registerOwned "core" role with
  | error => exact hkept
  | ok roles =>
    obtain ⟨hheld, howners⟩ := AgentRoleRegistry.registerOwned_eq_ok hkept.held h
    refine hkept.withRoles hheld fun x hcore => (howners x).trans (or_iff_right ?_)
    rintro rfl
    exact hcore rfl

lemma Kept.get_isSome (hkept : controller.Kept known) (roleId : String) :
    (controller.roles.get roleId).isSome ↔
      (roleId, "core") ∈ controller.roles.owners ∨ ∃ x, controller.Embeds x roleId := by
  rw [AgentRoleRegistry.get_isSome, hkept.held]
  constructor
  · rintro ⟨owner, howner⟩
    by_cases hcore : owner = "core"
    · exact .inl (hcore ▸ howner)
    · obtain ⟨x, hx, -⟩ := (hkept.owners _ _ hcore).1 howner
      exact .inr ⟨x, hx⟩
  · rintro (hcore | ⟨x, hx⟩)
    · exact ⟨_, hcore⟩
    · exact ⟨_, (hkept.owners _ _ (roleOwner_ne_core _ _)).2 ⟨x, hx, rfl⟩⟩

def new : WorkflowController := ⟨[], [], [], []⟩

lemma Kept.new
    (hapart : ∀ x y, known x → known y → roleOwner x.1 x.2 = roleOwner y.1 y.2 → x = y) :
    WorkflowController.new.Kept known where
  apart := hapart
  held _ := by simp [WorkflowController.new]
  unique := nofun
  owned := nofun
  present := nofun
  owners _ _ _ := ⟨nofun, nofun⟩

/-- The pairs definitions are registered for. -/
def registrations (events : List RegistrationEvent) : List (String × String) :=
  events.flatMap fun
    | .register owner batch => batch.map fun definition => (definition.id, owner)
    | .unregister .. | .core _ => []

lemma run_kept (checks : DefinitionChecks) (events : List RegistrationEvent)
    (hapart : ∀ x ∈ registrations events, ∀ y ∈ registrations events,
      roleOwner x.1 x.2 = roleOwner y.1 y.2 → x = y) :
    (events.foldl (next checks) .new).Kept (· ∈ registrations events) := by
  refine List.foldlRecOn events _ (.new fun x y hx hy => hapart x hx y hy)
    fun controller hkept event hevent => ?_
  cases event with
  | register owner batch =>
    exact hkept.register fun d hd =>
      mem_flatMap.2 ⟨_, hevent, mem_map.2 ⟨d, hd, rfl⟩⟩
  | unregister owner workflowId running => exact (hkept.unregister owner workflowId running).1
  | core role => exact hkept.core role

/-- If different pairs registered for have different texts, the roles there are the core ones and
those registered definitions embed: an embedded role stays, for whatever pair it is registered, a
role a node refers to stays while it is one of these. -/
theorem registered_roles_stay (checks : DefinitionChecks) (events : List RegistrationEvent)
    (hapart : ∀ x ∈ registrations events, ∀ y ∈ registrations events,
      roleOwner x.1 x.2 = roleOwner y.1 y.2 → x = y) :
    let controller := events.foldl (next checks) .new
    (∀ definition ∈ controller.definitions, ∀ role ∈ definition.roles,
      (controller.roles.get role.id).isSome) ∧
    (∀ definition ∈ controller.definitions, ∀ node ∈ definition.nodes,
      ∀ reference ∈ node.roleReferences, (controller.roles.get reference.2).isSome ↔
        (reference.2, "core") ∈ controller.roles.owners ∨
          ∃ x, controller.Embeds x reference.2) ∧
    ∀ owner workflowId running x roleId, x ≠ (workflowId, owner) → controller.Embeds x roleId →
      ((controller.unregisterOwned owner workflowId running).1.roles.get roleId).isSome := by
  have hkept := run_kept checks events hapart
  refine ⟨fun d hd role hrole => ?_, fun _ _ _ _ reference _ => hkept.get_isSome reference.2,
    fun owner workflowId running x roleId hne hx => ?_⟩
  · obtain ⟨owner, howner⟩ := hkept.present d hd
    exact (hkept.get_isSome _).2 (.inr ⟨_, howner, d, hd, rfl, mem_map.2 ⟨role, hrole, rfl⟩⟩)
  · obtain ⟨hnext, hembeds⟩ := hkept.unregister owner workflowId running
    exact (hnext.get_isSome _).2 (.inr ⟨x, hembeds x roleId hne hx⟩)

section Removed

def accepting : DefinitionChecks := ⟨fun _ => .ok (), fun _ => .ok (), fun _ => .ok ()⟩

/-- A definition whose node refers to a role, embedded or not. -/
def referring (id : String) (roles : List AgentRoleDefinition) : WorkflowDefinition :=
  { id, version := "1", description := "", roles, nodes := [{ id := "n", role := some "r" }] }

def embedding (id : String) : WorkflowDefinition := referring id [{ id := "r", description := "" }]

def after (events : List RegistrationEvent) : WorkflowController :=
  events.foldl (next accepting) .new

/-- Two definitions embed one role, and it stays when one of them goes. -/
theorem registered_roles_stay_one :
    let events : List RegistrationEvent :=
      [.register "x" [embedding "a"], .register "y" [embedding "b"], .unregister "x" "a" false]
    (after events).definitions = [embedding "b"] ∧
      ∀ definition ∈ (after events).definitions, ∀ role ∈ definition.roles,
        ((after events).roles.get role.id).isSome :=
  ⟨by decide +kernel, (registered_roles_stay accepting _ (by decide)).1⟩

/-- Two pairs have one text, and the role goes with the first of them. -/
theorem unregistered_role_of_another :
    (let controller := after [.register "b:c" [embedding "a"], .register "c" [embedding "a:b"],
      .unregister "b:c" "a" false]
    controller.definitions = [embedding "a:b"] ∧ controller.roles.get "r" = none) ∧
    -- a role another definition refers to goes with the one that embeds it
    let controller := after [.register "x" [embedding "a"], .register "y" [referring "b" []],
      .unregister "x" "a" false]
    controller.definitions = [referring "b" []] ∧ controller.roles.get "r" = none := by
  decide +kernel

end Removed

end WorkflowController

end SolarisMesh.Workflow
