import Mathlib.Data.Set.Finite.List
import SolarisMesh.Permission.Protection

/-!
# What a registration protects

A policy never gives up a path it protects. A registration that succeeds protects its state
paths; it protects its root too, unless the directory is known already from another place: then
only the identity is shared and the new path is not entered. Merging drops a root the same way.
-/

namespace SolarisMesh.Permission

open Function List Lib Machine
open Lib.Path (AbsolutePath startsWith startsWith_iff startsWith_trans)
open Lib.Retention

/-! ## Below a root -/

variable {path : AbsolutePath}

namespace ProtectedPathPolicy

lemma protectsResolved_iff {policy : ProtectedPathPolicy} :
    policy.protectsResolved path = true ↔ policy.retentionExhausted = true ∨
      (∃ root ∈ policy.roots, startsWith path root = true) ∨ path ∈ policy.files := by
  simp [protectsResolved, or_assoc]

/-- Finitely many entries cover everything below a root only if one of them covers the root: a
name that no entry ends in makes a path that no other entry reaches. -/
lemma protects_below_iff {policy : ProtectedPathPolicy} (hopen : policy.retentionExhausted = false)
    {root : AbsolutePath} :
    (∀ path, startsWith path root = true → policy.protectsResolved path = true) ↔
      ∃ above ∈ policy.roots, startsWith root above = true := by
  constructor
  · intro h
    obtain ⟨name, hname⟩ := Infinite.exists_notMem_finset
      ((policy.roots ++ policy.files).filterMap List.getLast?).toFinset
    have hends : ∀ entry ∈ policy.roots ++ policy.files, entry ≠ root ++ [name] := by
      rintro entry hentry rfl
      refine hname (mem_toFinset.2 (mem_filterMap.2 ⟨_, hentry, ?_⟩))
      exact List.getLast?_concat
    have hbelow := h (root ++ [name]) (startsWith_iff.2 (prefix_append _ _))
    rw [protectsResolved_iff, hopen] at hbelow
    obtain hexhausted | ⟨above, habove, hle⟩ | hfile := hbelow
    · cases hexhausted
    · obtain heq | hprefix := prefix_concat_iff.1 (startsWith_iff.1 hle)
      · exact absurd heq (hends above (mem_append_left _ habove))
      · exact ⟨above, habove, startsWith_iff.2 hprefix⟩
    · exact absurd rfl (hends _ (mem_append_right _ hfile))
  · rintro ⟨above, habove, hle⟩ path hpath
    exact protectsResolved_iff.2 (.inr (.inl ⟨above, habove, startsWith_trans hpath hle⟩))

end ProtectedPathPolicy

namespace RetainedPathPolicy

/-- Every text that resolves to `path`, on any disk, is protected. -/
def Guards (policy : RetainedPathPolicy) (path : AbsolutePath) : Prop :=
  ∀ host text, resolvePolicyPath host text = some path → policy.protects host text = true

/-- A disk on which `/link` leads to `path`. -/
def linkTo (path : AbsolutePath) : Host where
  currentDir := none
  pathExists _ := true
  canonicalize current := some (if current = ["link"] then path else current)
  rootKind _ := none
  symlinkMetadata _ := .found
  fileIdentity _ := none
  directoryIdentity _ := none
  workspaceRootIdentity _ := none
  parsePermissionDomain _ := none

lemma resolve_linkTo (path : AbsolutePath) :
    resolvePolicyPath (linkTo path) "/link" = some path := by
  have hnormal : normalizeAbsolutePath (linkTo path) "/link" = some ["link"] := by
    have habsolute : Lib.Path.isAbsolute "/link" = true := by decide
    have hwalk : Lib.Path.walk [] (Lib.Path.components "/link") = some ["link"] := by decide
    unfold normalizeAbsolutePath
    rw [if_pos habsolute]
    exact hwalk
  unfold resolvePolicyPath
  rw [hnormal]
  simp [resolveExistingPath, resolveExistingFrom, linkTo]

variable {policy : RetainedPathPolicy}

lemma guards_iff :
    policy.Guards path ↔ policy.paths.protectsResolved path = true := by
  constructor
  · intro h
    have hlink := h (linkTo path) "/link" (resolve_linkTo path)
    unfold protects ProtectedPathPolicy.protects at hlink
    rw [resolve_linkTo] at hlink
    split at hlink
    · next hexhausted => exact ProtectedPathPolicy.protectsResolved_iff.2 (.inl hexhausted)
    · exact hlink
  · intro h host text hresolve
    unfold protects ProtectedPathPolicy.protects
    rw [hresolve]
    split
    · rfl
    · exact h

lemma guards_iff_mem :
    policy.Guards path ↔ policy.retentionExhausted = true ∨
      (∃ root ∈ policy.roots, startsWith path root.path = true) ∨ path ∈ policy.files := by
  rw [guards_iff, ProtectedPathPolicy.protectsResolved_iff]
  simp [paths]

lemma guards_below_iff (hopen : policy.retentionExhausted = false) {root : AbsolutePath} :
    (∀ path, startsWith path root = true → policy.Guards path) ↔
      ∃ above ∈ policy.roots, startsWith root above.path = true := by
  simp only [guards_iff]
  rw [ProtectedPathPolicy.protects_below_iff hopen]
  simp [paths]

/-! ## Nothing is given up -/

structure Keeps (before after : RetainedPathPolicy) : Prop where
  roots : before.roots ⊆ after.roots
  files : before.files ⊆ after.files
  exhausted : before.retentionExhausted = true → after.retentionExhausted = true

namespace Keeps

variable {first second third : RetainedPathPolicy}

lemma refl (policy : RetainedPathPolicy) : Keeps policy policy :=
  ⟨fun _ h => h, fun _ h => h, id⟩

lemma trans (h : Keeps first second) (h' : Keeps second third) : Keeps first third :=
  ⟨List.Subset.trans h.roots h'.roots, List.Subset.trans h.files h'.files,
    h'.exhausted ∘ h.exhausted⟩

lemma guards (h : Keeps first second) (hguards : first.Guards path) :
    second.Guards path := by
  rw [guards_iff_mem] at hguards ⊢
  obtain hexhausted | ⟨root, hroot, hle⟩ | hfile := hguards
  · exact .inl (h.exhausted hexhausted)
  · exact .inr (.inl ⟨root, h.roots hroot, hle⟩)
  · exact .inr (.inr (h.files hfile))

end Keeps

variable {other : RetainedPathPolicy}

/-- No two roots are one directory. -/
def Distinct (policy : RetainedPathPolicy) : Prop :=
  policy.roots.Pairwise fun left right => sameRoot left right = false

/-- A policy gives up nothing, and its roots stay different directories. -/
structure Grows (before after : RetainedPathPolicy) : Prop where
  keeps : Keeps before after
  distinct : before.Distinct → after.Distinct

namespace Grows

lemma refl (policy : RetainedPathPolicy) : Grows policy policy := ⟨.refl policy, id⟩

lemma trans {first second third : RetainedPathPolicy} (h : Grows first second)
    (h' : Grows second third) : Grows first third :=
  ⟨h.keeps.trans h'.keeps, h'.distinct ∘ h.distinct⟩

lemma of_roots_eq (h : Keeps policy other) (heq : other.roots = policy.roots) :
    Grows policy other := by
  refine ⟨h, fun hdistinct => ?_⟩
  unfold Distinct
  rw [heq]
  exact hdistinct

end Grows

lemma exhaust_grows (policy : RetainedPathPolicy) : Grows policy policy.exhaust.1 :=
  .of_roots_eq ⟨fun _ h => h, fun _ h => h, fun _ => rfl⟩ rfl

lemma sorted_grows (policy : RetainedPathPolicy) : Grows policy policy.sorted where
  keeps := ⟨(perm_insertionSort _ _).symm.subset, (perm_insertionSort _ _).symm.subset, id⟩
  distinct h := (perm_insertionSort _ _).symm.pairwise h fun hxy => by
    unfold sameRoot at hxy ⊢
    rwa [Bool.beq_comm]

variable {changed : Changed} {next : RetainedPathPolicy → Changed}

lemma andThen_grows (hchanged : Grows policy changed.1)
    (hnext : ∀ later, Grows later (next later).1) :
    Grows policy (andThen changed next).1 := by
  unfold andThen
  split
  · exact hchanged.trans (hnext _)
  · exact hchanged

lemma andThen_ok (h : (andThen changed next).2 = .ok ()) :
    changed.2 = .ok () ∧ andThen changed next = next changed.1 := by
  unfold andThen at h ⊢
  split at h
  · next hok => exact ⟨hok, rfl⟩
  · cases h

lemma rememberFile_grows (path : AbsolutePath) (slot : ProtectedFileSlot)
    (identity : Option ObjectIdentity) (policy : RetainedPathPolicy) :
    Grows policy (policy.rememberFile path slot identity).1 := by
  unfold rememberFile
  dsimp only
  split
  · next hfiles _ _ => exact .of_roots_eq ⟨fun _ h => h, subset_of_retain hfiles, id⟩ rfl
  · exact policy.exhaust_grows

section Calls

variable (disk : Disk)

lemma registerRoot_grows (root : String) (policy : RetainedPathPolicy) :
    Grows policy (policy.registerRoot disk root).1 := by
  unfold registerRoot
  split
  · unfold rememberRoot
    split
    · next roots h =>
      exact ⟨⟨subset_of_retain h, fun _ h => h, id⟩,
        fun hdistinct => pairwise_of_retain hdistinct h⟩
    · exact policy.exhaust_grows
  · exact .refl policy

lemma registerStatePaths_grows (statePaths : List String) (policy : RetainedPathPolicy) :
    Grows policy (policy.registerStatePaths disk statePaths).1 := by
  induction statePaths generalizing policy with
  | nil => exact .refl policy
  | cons requested rest ih =>
    refine andThen_grows ?_ ih
    unfold registerStatePath
    split
    · exact policy.rememberFile_grows _ _ _
    · exact .refl policy

lemma register_grows (root : String) (statePaths : List String) (policy : RetainedPathPolicy) :
    Grows policy (policy.register disk root statePaths).1 := by
  unfold register
  split
  · exact .refl policy
  · exact andThen_grows (policy.registerRoot_grows disk root) fun later =>
      andThen_grows (later.registerStatePaths_grows disk statePaths) sorted_grows

lemma refreshSlots_grows (slots : List ProtectedFileSlot) (policy : RetainedPathPolicy) :
    Grows policy (policy.refreshSlots disk slots).1 := by
  induction slots generalizing policy with
  | nil => exact .refl policy
  | cons slot rest ih =>
    refine andThen_grows ?_ ih
    unfold refreshSlot
    split
    · unfold rememberFileIdentity
      split
      · exact .of_roots_eq ⟨fun _ h => h, fun _ h => h, id⟩ rfl
      · exact policy.exhaust_grows
    · exact .refl policy
    · exact .refl policy

end Calls

lemma absorb_grows {α : Type} {entered : List α × Bool} {put : List α → RetainedPathPolicy}
    (h : Grows policy (put entered.1)) : Grows policy (absorb entered put).1 := by
  unfold absorb
  split
  · exact h
  · exact h.trans (exhaust_grows _)

lemma merge_grows (policy other : RetainedPathPolicy) : Grows policy (policy.merge other) := by
  unfold merge
  split
  · exact policy.exhaust_grows
  · refine andThen_grows (absorb_grows ?_) fun _ => andThen_grows (absorb_grows ?_) fun _ =>
      andThen_grows (absorb_grows ?_) fun _ => andThen_grows (absorb_grows ?_) sorted_grows
    · exact ⟨⟨subset_retainAll, fun _ h => h, id⟩, pairwise_retainAll⟩
    · exact .of_roots_eq ⟨fun _ h => h, subset_retainAll, id⟩ rfl
    · exact .of_roots_eq ⟨fun _ h => h, fun _ h => h, id⟩ rfl
    · exact .of_roots_eq ⟨fun _ h => h, fun _ h => h, id⟩ rfl

/-! ## Successful changes -/

variable {statePaths : List String}

section Calls

variable {disk : Disk}

lemma registerStatePath_ok {requested : String}
    (h : (policy.registerStatePath disk requested).2 = .ok ()) :
    (∃ path, resolvePolicyPath disk.toHost requested = some path ∧
      path ∈ (policy.registerStatePath disk requested).1.files) ∧
      (policy.registerStatePath disk requested).1.roots = policy.roots ∧
      (policy.registerStatePath disk requested).1.retentionExhausted =
        policy.retentionExhausted := by
  unfold registerStatePath at h ⊢
  split at h
  · next path slot identity hopen =>
    simp only [openStatePath, bind_eq_ok, orElseThrow_eq_ok, pure_eq_ok, Prod.mk.injEq] at hopen
    obtain ⟨_, hresolve, _, _, _, _, rfl, -, -⟩ := hopen
    unfold rememberFile at h ⊢
    dsimp only at h ⊢
    split at h
    · next hfiles _ _ =>
      exact ⟨⟨_, hresolve, mem_of_retain (fun _ _ heq => eq_of_beq heq) hfiles⟩, rfl, rfl⟩
    · cases h
  · cases h

lemma registerStatePaths_ok (h : (policy.registerStatePaths disk statePaths).2 = .ok ()) :
    (∀ requested ∈ statePaths, ∃ path, resolvePolicyPath disk.toHost requested = some path ∧
      path ∈ (policy.registerStatePaths disk statePaths).1.files) ∧
      (policy.registerStatePaths disk statePaths).1.roots = policy.roots ∧
      (policy.registerStatePaths disk statePaths).1.retentionExhausted =
        policy.retentionExhausted := by
  induction statePaths generalizing policy with
  | nil => exact ⟨forall_mem_nil _, rfl, rfl⟩
  | cons requested rest ih =>
    unfold registerStatePaths at h ⊢
    obtain ⟨hfirst, heq⟩ := andThen_ok h
    rw [heq] at h ⊢
    obtain ⟨⟨path, hpath, hfile⟩, hroots, hexhausted⟩ := registerStatePath_ok hfirst
    obtain ⟨hrest, hroots', hexhausted'⟩ := ih h
    refine ⟨fun later hlater => ?_, hroots'.trans hroots, hexhausted'.trans hexhausted⟩
    obtain rfl | hlater := mem_cons.1 hlater
    · exact ⟨path, hpath, (registerStatePaths_grows disk rest _).keeps.files hfile⟩
    · exact hrest later hlater

/-- What a successful registration leaves. -/
structure Registers (disk : Disk) (root : String) (statePaths : List String)
    (before after : RetainedPathPolicy) (opened : ProtectedRoot) : Prop where
  opens : disk.openRoot root = .ok opened
  closed : after.retentionExhausted = false
  roots : ∀ entry, entry ∈ after.roots ↔ entry ∈ before.roots ∨
    known sameRoot before.roots opened = false ∧ entry = opened
  files : ∀ requested ∈ statePaths, ∃ path,
    resolvePolicyPath disk.toHost requested = some path ∧ path ∈ after.files

lemma registerRoot_ok {root : String} (h : (policy.registerRoot disk root).2 = .ok ()) :
    ∃ opened roots, disk.openRoot root = .ok opened ∧
      retain sameRoot maxRetainedIdentities policy.roots opened = some roots ∧
      (policy.registerRoot disk root).1 = { policy with roots := roots } := by
  unfold registerRoot at h ⊢
  split at h
  · next opened hopened =>
    unfold rememberRoot at h ⊢
    split at h
    · next roots hretain => exact ⟨opened, roots, hopened, hretain, rfl⟩
    · cases h
  · cases h

lemma mem_sorted_roots {entry : ProtectedRoot} : entry ∈ policy.sorted.roots ↔
    entry ∈ policy.roots :=
  (perm_insertionSort _ _).mem_iff

lemma register_ok {root : String} (h : (policy.register disk root statePaths).2 = .ok ()) :
    ∃ opened, Registers disk root statePaths policy (policy.register disk root statePaths).1
      opened := by
  unfold register at h ⊢
  split at h
  · cases h
  · next hopen =>
    rw [if_neg hopen]
    obtain ⟨hroot, heq⟩ := andThen_ok h
    rw [heq] at h ⊢
    obtain ⟨hpaths, heq⟩ := andThen_ok h
    rw [heq]
    obtain ⟨opened, roots, hopened, hretain, hremembered⟩ := registerRoot_ok hroot
    rw [hremembered] at hpaths ⊢
    obtain ⟨hfiles, hroots, hexhausted⟩ := registerStatePaths_ok hpaths
    refine ⟨opened, hopened, ?_, fun entry => ?_, fun requested hrequested => ?_⟩
    · exact hexhausted.trans (Bool.eq_false_iff.2 hopen)
    · rw [mem_sorted_roots, hroots]
      obtain ⟨hknown, rfl⟩ | ⟨hknown, rfl⟩ := retain_eq_some hretain
      · simp [hknown]
      · simp [hknown]
    · obtain ⟨path, hpath, hfile⟩ := hfiles requested hrequested
      exact ⟨path, hpath, (sorted_grows _).keeps.files hfile⟩

end Calls

/-- A step of a merge that finds no room leaves the policy exhausted, so after one that is not
all steps went through. -/
lemma andThen_absorb_open {α : Type} {entered : List α × Bool} {put : List α → RetainedPathPolicy}
    (h : (andThen (absorb entered put) next).1.retentionExhausted = false) :
    entered.2 = true ∧ andThen (absorb entered put) next = next (put entered.1) := by
  unfold absorb at h ⊢
  split at h
  · next hfits =>
    rw [if_pos hfits]
    exact ⟨hfits, rfl⟩
  · cases h

/-- The roots a merge has room for. -/
def mergedRoots (policy other : RetainedPathPolicy) : List ProtectedRoot :=
  policy.roots ++ other.roots.filter fun root => !known sameRoot policy.roots root

/-- What a merge leaves that finds room for everything. -/
structure Merges (policy other after : RetainedPathPolicy) : Prop where
  otherOpen : other.retentionExhausted = false
  roots : other.Distinct → ∀ entry, entry ∈ after.roots ↔ entry ∈ mergedRoots policy other
  files : other.files ⊆ after.files

lemma merge_open (h : (policy.merge other).retentionExhausted = false) :
    Merges policy other (policy.merge other) := by
  unfold merge at h ⊢
  split at h
  · cases h
  · next hopen =>
    rw [if_neg hopen]
    obtain ⟨-, hother⟩ := Bool.or_eq_false_iff.1 (Bool.eq_false_iff.2 hopen)
    unfold mergeRoots mergeFiles mergeSlots mergeFileIdentities at h ⊢
    obtain ⟨hroots, heq⟩ := andThen_absorb_open h
    rw [heq] at h ⊢
    obtain ⟨hfiles, heq⟩ := andThen_absorb_open h
    rw [heq] at h ⊢
    obtain ⟨-, heq⟩ := andThen_absorb_open h
    rw [heq] at h ⊢
    obtain ⟨-, heq⟩ := andThen_absorb_open h
    rw [heq]
    refine ⟨hother, fun hdiffer entry => ?_, fun path hpath => ?_⟩
    · rw [mem_sorted_roots]
      exact iff_of_eq (congrArg _ (retainAll_eq_append hdiffer hroots))
    · exact (sorted_grows _).keeps.files (mem_retainAll (fun _ _ heq => eq_of_beq heq) hfiles hpath)

/-! ## One call -/

/-- A path that a registration names: below its root, or one of its state paths. -/
def Names (disk : Disk) (root : String) (statePaths : List String) (path : AbsolutePath) : Prop :=
  (∃ above, resolvePolicyPath disk.toHost root = some above ∧ startsWith path above = true) ∨
    ∃ requested ∈ statePaths, resolvePolicyPath disk.toHost requested = some path

/-- The root is a new directory, or a registered root lies above its path. -/
def NewOrCovered (roots covering : List ProtectedRoot) (root : ProtectedRoot) : Prop :=
  known sameRoot roots root = true → ∃ above ∈ covering, startsWith root.path above.path = true

/-- A root that is entered or covered lies below an entry. -/
lemma NewOrCovered.exists_above {roots covering entered : List ProtectedRoot} {root : ProtectedRoot}
    (h : NewOrCovered roots covering root) (hcovering : covering ⊆ entered)
    (hnew : known sameRoot roots root = false → root ∈ entered) :
    ∃ above ∈ entered, startsWith root.path above.path = true := by
  cases hknown : known sameRoot roots root with
  | true => exact (h hknown).imp fun _ habove => ⟨hcovering habove.1, habove.2⟩
  | false => exact ⟨root, hnew hknown, startsWith_iff.2 prefix_rfl⟩

lemma Registers.guards_iff {disk : Disk} {root : String} {after : RetainedPathPolicy}
    {opened : ProtectedRoot} (h : Registers disk root statePaths policy after opened) :
    (∀ path, Names disk root statePaths path → after.Guards path) ↔
      NewOrCovered policy.roots policy.roots opened := by
  have hroot : resolvePolicyPath disk.toHost root = some opened.path := by
    have hopens := h.opens
    simp only [Disk.openRoot, bind_eq_ok, orElseThrow_eq_ok, pure_eq_ok] at hopens
    obtain ⟨path, hpath, identity, -, rfl⟩ := hopens
    exact hpath
  constructor
  · intro hguards hknown
    have hbelow : ∀ path, startsWith path opened.path = true → after.Guards path :=
      fun path hpath => hguards path (.inl ⟨opened.path, hroot, hpath⟩)
    obtain ⟨above, habove, hle⟩ := (guards_below_iff h.closed).1 hbelow
    obtain hold | ⟨hnew, -⟩ := (h.roots above).1 habove
    · exact ⟨above, hold, hle⟩
    · rw [hknown] at hnew
      cases hnew
  · intro hcovered
    have habove := hcovered.exists_above (fun above habove => (h.roots above).2 (.inl habove))
      fun hnew => (h.roots opened).2 (.inr ⟨hnew, rfl⟩)
    rintro path (⟨above, habove', hle⟩ | ⟨requested, hrequested, hresolve⟩)
    · obtain rfl : opened.path = above := Option.some.inj (hroot.symm.trans habove')
      exact (guards_below_iff h.closed).2 habove path hle
    · obtain ⟨path', hpath', hfile⟩ := h.files requested hrequested
      obtain rfl : path = path' := Option.some.inj (hresolve.symm.trans hpath')
      exact guards_iff_mem.2 (.inr (.inr hfile))

lemma merge_guards_iff (hdiffer : other.Distinct) :
    (∀ path, other.Guards path → (policy.merge other).Guards path) ↔
      ((policy.merge other).retentionExhausted = false →
        ∀ root ∈ other.roots, NewOrCovered policy.roots (mergedRoots policy other) root) := by
  cases hexhausted : (policy.merge other).retentionExhausted with
  | true =>
    refine ⟨fun _ hopen => ?_, fun _ path _ => guards_iff_mem.2 (.inl hexhausted)⟩
    cases hopen
  | false =>
    have hmerges := merge_open hexhausted
    have hroots := hmerges.roots hdiffer
    constructor
    · intro h _ root hroot _
      have hbelow : ∀ path, startsWith path root.path = true → (policy.merge other).Guards path :=
        fun path hpath => h path (guards_iff_mem.2 (.inr (.inl ⟨root, hroot, hpath⟩)))
      obtain ⟨above, habove, hle⟩ := (guards_below_iff hexhausted).1 hbelow
      exact ⟨above, (hroots above).1 habove, hle⟩
    · intro h path hpath
      rw [guards_iff_mem, hmerges.otherOpen] at hpath
      obtain hother | ⟨root, hroot, hle⟩ | hfile := hpath
      · cases hother
      · have habove := (h rfl root hroot).exists_above (fun above => (hroots above).2) fun hnew =>
          (hroots root).2 (mem_append_right _ (mem_filter.2 ⟨hroot, by rw [hnew]; rfl⟩))
        exact (guards_below_iff hexhausted).2 habove path hle
      · exact guards_iff_mem.2 (.inr (.inr (hmerges.files hfile)))

end RetainedPathPolicy

/-! ## Whole histories -/

open RetainedPathPolicy

abbrev ProtectionStep := Machine.Step Policies ProtectionEvent (Except String Unit)

namespace ProtectionStep

/-- The call hands on what it should: a successful registration guards all it names, and the
target of a merge all that the other policy guarded. -/
def HandsOn (x : ProtectionStep) : Prop :=
  match x.event.call with
  | .register policy root statePaths => x.answer = .ok () →
    ∀ path, Names x.event.disk root statePaths path → (x.after policy).Guards path
  | .refresh _ => True
  | .merge policy other => ∀ path, (x.before other).Guards path → (x.after policy).Guards path

/-- No root that the call brings is a directory known under another path, unless another root
covers that path as well. -/
def RootsNewOrCovered (x : ProtectionStep) : Prop :=
  match x.event.call with
  | .register policy root _ => x.answer = .ok () → ∀ opened, x.event.disk.openRoot root =
    .ok opened → NewOrCovered (x.before policy).roots (x.before policy).roots opened
  | .refresh _ => True
  | .merge policy other => ((x.before policy).merge (x.before other)).retentionExhausted = false →
    ∀ root ∈ (x.before other).roots,
      NewOrCovered (x.before policy).roots (mergedRoots (x.before policy) (x.before other)) root

end ProtectionStep

lemma step_grows (policies : Policies) (event : ProtectionEvent) (policy : ℕ) :
    Grows (policies policy) (protectionMachine.next policies event policy) := by
  obtain ⟨disk, call⟩ := event
  have hupdate : ∀ (changed : ℕ) (after : RetainedPathPolicy), Grows (policies changed) after →
      Grows (policies policy) (Function.update policies changed after policy) := by
    intro changed after h
    by_cases hpolicy : policy = changed
    · subst hpolicy
      rwa [update_self]
    · rw [update_of_ne hpolicy]
      exact .refl _
  cases call with
  | register changed root statePaths => exact hupdate _ _ (register_grows _ _ _ _)
  | refresh changed =>
    refine hupdate _ _ ?_
    unfold refreshFileIdentities
    split
    · exact .refl _
    · exact refreshSlots_grows _ _ _
  | merge changed other => exact hupdate _ _ (merge_grows _ _)

lemma handsOn_iff {policies : Policies} (event : ProtectionEvent)
    (hdistinct : ∀ policy, (policies policy).Distinct) :
    ProtectionStep.HandsOn (protectionMachine.stepAt policies event) ↔
      ProtectionStep.RootsNewOrCovered (protectionMachine.stepAt policies event) := by
  obtain ⟨disk, call⟩ := event
  cases call with
  | register policy root statePaths =>
    have hafter : protectionMachine.next policies ⟨disk, .register policy root statePaths⟩ policy =
        ((policies policy).register disk root statePaths).1 := update_self ..
    show (((policies policy).register disk root statePaths).2 = .ok () → _) ↔
      (((policies policy).register disk root statePaths).2 = .ok () → _)
    refine imp_congr_right fun hok => ?_
    obtain ⟨opened, hregisters⟩ := register_ok hok
    rw [← hafter] at hregisters
    refine hregisters.guards_iff.trans ⟨fun h opened' hopened' => ?_, fun h => h _ hregisters.opens⟩
    obtain rfl : opened = opened' := Except.ok.inj (hregisters.opens.symm.trans hopened')
    exact h
  | refresh policy => exact Iff.rfl
  | merge policy other =>
    have hafter : protectionMachine.next policies ⟨disk, .merge policy other⟩ policy =
        (policies policy).merge (policies other) := update_self ..
    show (∀ path, (policies other).Guards path →
      (protectionMachine.next policies ⟨disk, .merge policy other⟩ policy).Guards path) ↔ _
    rw [hafter]
    exact merge_guards_iff (hdistinct other)

/-- What the calls so far promise that a policy protects. -/
inductive Promised : List ProtectionEvent → ℕ → AbsolutePath → Prop
  | registered {events event policy root statePaths path} :
    event.call = .register policy root statePaths →
    protectionMachine.answer (protectionMachine.run noPolicies events) event = .ok () →
    Names event.disk root statePaths path → Promised (events ++ [event]) policy path
  | later {events event policy path} :
    Promised events policy path → Promised (events ++ [event]) policy path
  | merged {events event policy other path} : event.call = .merge policy other →
    Promised events other path → Promised (events ++ [event]) policy path

lemma guards_of_promised {events : List ProtectionEvent} {policy : ℕ}
    (h : Promised events policy path)
    (hsteps : ∀ x ∈ protectionMachine.trace noPolicies events, ProtectionStep.HandsOn x) :
    (protectionMachine.run noPolicies events policy).Guards path := by
  induction h with
  | @registered events event policy root statePaths path hcall hanswer hnames =>
    rw [trace_append, forall_mem_append] at hsteps
    have hlast := hsteps.2 _ mem_cons_self
    rw [run_append]
    simp only [ProtectionStep.HandsOn, stepAt, hcall] at hlast
    exact hlast hanswer path hnames
  | @later events event policy path _ ih =>
    rw [trace_append, forall_mem_append] at hsteps
    rw [run_append]
    exact (step_grows _ event policy).keeps.guards (ih hsteps.1)
  | @merged events event policy other path hcall _ ih =>
    rw [trace_append, forall_mem_append] at hsteps
    have hlast := hsteps.2 _ mem_cons_self
    rw [run_append]
    simp only [ProtectionStep.HandsOn, stepAt, hcall] at hlast
    exact hlast path (ih hsteps.1)

/-- Along every history of calls on any policies, the disk changing at will between them: a
call hands on what it should exactly if the roots it brings are new directories or covered; if
all calls do, every policy protects what was registered with it or merged into it; and a policy
that has run out of room protects every path from then on. -/
theorem registered_paths_protected_iff (events : List ProtectionEvent) :
    (∀ x ∈ protectionMachine.trace noPolicies events,
      ProtectionStep.HandsOn x ↔ ProtectionStep.RootsNewOrCovered x) ∧
    ((∀ x ∈ protectionMachine.trace noPolicies events, ProtectionStep.RootsNewOrCovered x) →
      ∀ policy path, Promised events policy path →
        (protectionMachine.run noPolicies events policy).Guards path) ∧
    ∀ policy later, (protectionMachine.run noPolicies events policy).retentionExhausted = true →
      ∀ host text,
        (protectionMachine.run noPolicies (events ++ later) policy).protects host text = true := by
  have hiff : ∀ x ∈ protectionMachine.trace noPolicies events,
      ProtectionStep.HandsOn x ↔ ProtectionStep.RootsNewOrCovered x := by
    intro x hx
    obtain ⟨before, -, -, hstep⟩ := protectionMachine.exists_of_mem_trace hx
    have hstart : ∀ policy, (noPolicies policy).Distinct := fun _ => List.Pairwise.nil
    have hdistinct : ∀ policy, (protectionMachine.run noPolicies before policy).Distinct :=
      run_invariant (P := fun policies : Policies => ∀ policy, (policies policy).Distinct)
        (fun _ event h policy => (step_grows _ event policy).distinct (h policy)) hstart before
    rw [hstep]
    exact handsOn_iff x.event hdistinct
  refine ⟨hiff, fun hnew policy path hpromised => ?_, fun policy later hexhausted host text => ?_⟩
  · exact guards_of_promised hpromised fun x hx => (hiff x hx).2 (hnew x hx)
  · rw [run_append]
    unfold RetainedPathPolicy.protects ProtectedPathPolicy.protects
    refine if_pos ?_
    exact run_invariant
      (P := fun policies : Policies => (policies policy).retentionExhausted = true)
      (fun policies event h => (step_grows policies event policy).keeps.exhausted h) hexhausted
        later

/-! ## A directory that moved -/

/-- A disk with one directory, number 7, at `/name`. -/
def oneDirectory (name : String) : Disk where
  currentDir := none
  pathExists path := path = [name] ∨ path = []
  canonicalize path := some path
  rootKind _ := none
  symlinkMetadata _ := .found
  fileIdentity _ := none
  directoryIdentity _ := none
  workspaceRootIdentity _ := none
  parsePermissionDomain _ := none
  openDirectory path := if path = [name] then .identified 7 else .notOpened
  openBeneath _ _ := .notFound

/-- The directory `/a` is registered, moved to `/b` and registered there. -/
def movedAndRegistered : List ProtectionEvent :=
  [⟨oneDirectory "a", .register 0 "/a" []⟩, ⟨oneDirectory "b", .register 0 "/b" []⟩]

/-- Both registrations succeed, and a file in `/b` is not protected. -/
theorem moved_root_unprotected :
    (∀ x ∈ protectionMachine.trace noPolicies movedAndRegistered, x.answer = .ok ()) ∧
      Promised movedAndRegistered 0 ["b", "settings"] ∧
      resolvePolicyPath (oneDirectory "b").toHost "/b/settings" = some ["b", "settings"] ∧
      (protectionMachine.run noPolicies movedAndRegistered 0).protects (oneDirectory "b").toHost
        "/b/settings" = false := by
  refine ⟨?_, ?_, by decide +kernel, by decide +kernel⟩
  · intro x hx
    simp only [movedAndRegistered, trace_cons, trace_nil, mem_cons,
      not_mem_nil, or_false] at hx
    obtain rfl | rfl := hx <;> decide +kernel
  · show Promised ([⟨oneDirectory "a", .register 0 "/a" []⟩] ++
      [⟨oneDirectory "b", .register 0 "/b" []⟩]) 0 ["b", "settings"]
    refine Promised.registered rfl ?_ (.inl ⟨["b"], ?_, ?_⟩) <;> decide +kernel

end SolarisMesh.Permission
