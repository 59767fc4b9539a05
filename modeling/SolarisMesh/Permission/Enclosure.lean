import SolarisMesh.Lib.Scope
import SolarisMesh.Permission.Evaluation

/-!
# Enclosed boundaries

The order on execution boundaries that delegation is meant to follow: a boundary encloses
another when each of its scopes does, and then allows every effect the inner one allows.
-/

namespace SolarisMesh.Permission

open List SolarisMesh.Types
open Lib.Scope (Enclosed)

/-- A name matches a prefix when it continues it at a separator, or not at all. -/
lemma namespacedResourceMatches_iff {resource allowed : String} :
    namespacedResourceMatches resource allowed = true ↔
      ∃ suffix, resource.toList = allowed.toList ++ suffix ∧
        ∀ first, suffix.head? = some first → first ∈ [':', '/', '#'] := by
  unfold namespacedResourceMatches
  rw [Bool.or_eq_true, decide_eq_true_eq]
  constructor
  · rintro (rfl | h)
    · exact ⟨[], by simp, by simp⟩
    · -- one case for each separator
      split at h <;> cases h
      all_goals
        next rest hrest =>
        rw [List.isPrefixOf?_eq_some_iff_append_eq] at hrest
        exact ⟨_, hrest.symm, by simp⟩
  · rintro ⟨suffix, hresource, hfirst⟩
    cases suffix with
    | nil =>
      left
      exact String.toList_inj.1 (by simpa using hresource)
    | cons first rest =>
      right
      have hrest : allowed.toList.isPrefixOf? resource.toList = some (first :: rest) :=
        List.isPrefixOf?_eq_some_iff_append_eq.2 hresource.symm
      rw [hrest]
      have hsep := hfirst first rfl
      simp only [mem_cons, not_mem_nil, or_false] at hsep
      obtain rfl | rfl | rfl := hsep <;> rfl

lemma namespacedResourceMatches_trans {resource middle allowed : String}
    (hresource : namespacedResourceMatches resource middle = true)
    (hmiddle : namespacedResourceMatches middle allowed = true) :
    namespacedResourceMatches resource allowed = true := by
  rw [namespacedResourceMatches_iff] at hresource hmiddle ⊢
  obtain ⟨below, hbelow, hfirst⟩ := hresource
  obtain ⟨above, habove, hfirst'⟩ := hmiddle
  refine ⟨above ++ below, by rw [hbelow, habove, append_assoc], ?_⟩
  cases above with
  | nil => exact hfirst
  | cons head tail => exact hfirst'

/-- Every scope of the inner boundary is enclosed in that of the outer one. -/
structure Encloses (host : Host) (outer inner : ExecutionBoundary) : Prop where
  reads : Enclosed (pathWithin host) outer.unrestrictedFileReads outer.readableRoots
    inner.unrestrictedFileReads inner.readableRoots
  writes : Enclosed (pathWithin host) outer.unrestrictedFileWrites outer.writableRoots
    inner.unrestrictedFileWrites inner.writableRoots
  network : Enclosed (domainMatches host) outer.unrestrictedNetwork outer.networkDomains
    inner.unrestrictedNetwork inner.networkDomains
  commands : Enclosed (fun command approved => command = approved) outer.unrestrictedProcess
    outer.processCommandPrefixes inner.unrestrictedProcess inner.processCommandPrefixes
  invocations : Enclosed (fun invocation approved => invocation = approved)
    outer.unrestrictedProcess outer.processInvocations inner.unrestrictedProcess
    inner.processInvocations
  external : Enclosed namespacedResourceMatches outer.unrestrictedExternalSideEffects
    outer.externalResourcePrefixes inner.unrestrictedExternalSideEffects
    inner.externalResourcePrefixes

variable {host : Host} {outer inner : ExecutionBoundary} {descriptor : EffectDescriptor}

section

variable (h : Encloses host outer inner)
include h

lemma Encloses.readsAllowed (hinner : readsAllowed host inner descriptor = true) :
    readsAllowed host outer descriptor = true := by
  unfold Permission.readsAllowed at hinner ⊢
  simp only [Bool.and_eq_true, Bool.or_assoc] at hinner ⊢
  obtain ⟨hall, hlisted⟩ := hinner
  constructor
  · rw [Bool.or_eq_true] at hall ⊢
    exact hall.imp_right h.reads.opened
  · rw [Bool.or_eq_true] at hlisted ⊢
    exact hlisted.imp_right h.reads.all

lemma Encloses.writesAllowed (hinner : writesAllowed host inner descriptor = true) :
    writesAllowed host outer descriptor = true :=
  h.writes.guarded _ hinner

lemma Encloses.networkAllowed (hinner : networkAllowed host inner descriptor = true) :
    networkAllowed host outer descriptor = true :=
  h.network.guarded _ hinner

lemma Encloses.externalAllowed (hinner : externalAllowed inner descriptor = true) :
    externalAllowed outer descriptor = true :=
  -- no descriptor demands every external resource at once
  h.external.guarded false hinner

lemma Encloses.processCommandsAllowed (hinner : processCommandsAllowed inner descriptor = true) :
    processCommandsAllowed outer descriptor = true := by
  unfold Permission.processCommandsAllowed at hinner ⊢
  simp only [Bool.or_assoc] at hinner ⊢
  rw [Bool.or_eq_true] at hinner ⊢
  refine hinner.imp_right fun hlisted => ?_
  -- how a command may be written depends on the descriptor alone, not on the boundary
  have hnarrow : Enclosed
      (fun command approved => command = approved &&
        (!descriptor.resources.processInvocations.isEmpty || commandIsStructurallySafe command))
      outer.unrestrictedProcess outer.processCommandPrefixes inner.unrestrictedProcess
      inner.processCommandPrefixes := h.commands.and_right _
  exact hnarrow.all hlisted

lemma Encloses.processInvocationsAllowed
    (hinner : processInvocationsAllowed inner descriptor = true) :
    processInvocationsAllowed outer descriptor = true := by
  unfold Permission.processInvocationsAllowed at hinner ⊢
  simp only [Bool.or_assoc, contains_eq_any_beq] at hinner ⊢
  rw [Bool.or_eq_true] at hinner ⊢
  exact hinner.imp_right h.invocations.all

lemma Encloses.processAllowed (hinner : processAllowed inner descriptor = true) :
    processAllowed outer descriptor = true := by
  unfold Permission.processAllowed at hinner ⊢
  dsimp only at hinner ⊢
  by_cases hdemanded : (descriptor.resources.unrestrictedProcess && !inner.unrestrictedProcess)
      = true
  · rw [if_pos hdemanded] at hinner
    cases hinner
  rw [if_neg hdemanded] at hinner
  rw [if_neg (h.commands.not_demanded hdemanded)]
  by_cases hempty : (descriptor.resources.processCommands.isEmpty &&
      descriptor.resources.processInvocations.isEmpty) = true
  · rw [if_pos hempty, Bool.or_eq_true] at hinner ⊢
    exact hinner.imp_right h.commands.opened
  · rw [if_neg hempty, Bool.and_eq_true] at hinner ⊢
    exact ⟨h.processCommandsAllowed hinner.1, h.processInvocationsAllowed hinner.2⟩

/-- What a boundary allows, every boundary that encloses it allows. -/
lemma Encloses.boundaryAllows (hinner : boundaryAllows host inner descriptor = true) :
    boundaryAllows host outer descriptor = true := by
  unfold Permission.boundaryAllows at hinner ⊢
  simp only [Bool.and_eq_true] at hinner ⊢
  obtain ⟨⟨⟨⟨hreads, hwrites⟩, hnetwork⟩, hprocess⟩, hexternal⟩ := hinner
  exact ⟨⟨⟨⟨h.readsAllowed hreads, h.writesAllowed hwrites⟩, h.networkAllowed hnetwork⟩,
    h.processAllowed hprocess⟩, h.externalAllowed hexternal⟩

end

end SolarisMesh.Permission
