import SolarisMesh.Lib.Path
import SolarisMesh.Types.Permission

/-!
# Permission paths

How a permission decision reads paths: resolved on the disk against roots of a boundary,
lexically against relative rules, and against the runtime's own protected files. The disk
is a value that answers the questions the code asks of it.
-/

namespace SolarisMesh.Permission

open SolarisMesh.Types
open Lib.Path (AbsolutePath components isAbsolute join walk startsWith startsWith_trans)

inductive RootKind where
  | directory | file
deriving DecidableEq, Repr

/-- What asking for the metadata of a name finds, links not followed. -/
inductive SymlinkMetadata where
  | found | notFound | failed
deriving DecidableEq, Repr

abbrev ObjectIdentity := ℕ

/-- What a permission decision takes from its surroundings: the file system, and the
reading of a network permission as exact endpoints. -/
structure Host where
  currentDir : Option String
  pathExists : AbsolutePath → Bool
  canonicalize : AbsolutePath → Option AbsolutePath
  rootKind : AbsolutePath → Option RootKind
  symlinkMetadata : AbsolutePath → SymlinkMetadata
  fileIdentity : AbsolutePath → Option ObjectIdentity
  directoryIdentity : AbsolutePath → Option ObjectIdentity
  /-- The identity under which a directory can be taken as a workspace root. -/
  workspaceRootIdentity : AbsolutePath → Option ObjectIdentity
  parsePermissionDomain : String → Option (List (String × ℕ))

variable (host : Host)

def normalizeAbsolutePath (path : String) : Option AbsolutePath := do
  let absolute ← if isAbsolute path then some path else host.currentDir.map (join · path)
  walk [] (components absolute)

/-- Climb from a path to its first existing ancestor; `existing` is the path read upwards. -/
def resolveExistingFrom : List String → List String → Option AbsolutePath
  | [], missing =>
    if host.pathExists [] then (host.canonicalize []).map (· ++ missing) else none
  | name :: parent, missing =>
    if host.pathExists (name :: parent).reverse then
      (host.canonicalize (name :: parent).reverse).map (· ++ missing)
    else resolveExistingFrom parent (name :: missing)

def resolveExistingPath (normalized : AbsolutePath) : Option AbsolutePath :=
  resolveExistingFrom host normalized.reverse []

def resolvePolicyPath (path : String) : Option AbsolutePath := do
  let normalized ← normalizeAbsolutePath host path
  resolveExistingPath host normalized

def resolveBoundaryPath (path : String) : Option AbsolutePath :=
  if isAbsolute path then resolvePolicyPath host path else none

def pathWithin (resource root : String) : Bool :=
  match resolveBoundaryPath host resource, resolveBoundaryPath host root with
  | some resource, some root => startsWith resource root
  | _, _ => false

lemma pathWithin_iff {resource root : String} :
    pathWithin host resource root = true ↔
      ∃ below above, resolveBoundaryPath host resource = some below ∧
        resolveBoundaryPath host root = some above ∧ startsWith below above = true := by
  unfold pathWithin
  constructor
  · intro h
    split at h
    · next below above hbelow habove => exact ⟨below, above, hbelow, habove, h⟩
    · cases h
  · rintro ⟨below, above, hbelow, habove, h⟩
    rw [hbelow, habove]
    exact h

lemma pathWithin_trans {resource middle root : String}
    (hresource : pathWithin host resource middle = true)
    (hmiddle : pathWithin host middle root = true) : pathWithin host resource root = true := by
  rw [pathWithin_iff] at hresource hmiddle ⊢
  obtain ⟨below, between, hbelow, hbetween, hle⟩ := hresource
  obtain ⟨between', above, hbetween', habove, hle'⟩ := hmiddle
  obtain rfl : between = between' := Option.some_inj.1 (hbetween.symm.trans hbetween')
  exact ⟨below, above, hbelow, habove, startsWith_trans hle hle'⟩

def lexicalRelativePath (path : String) : Option (List String) :=
  if isAbsolute path then none
  else (components path).mapM fun
    | .normal name => some name
    | .parentDir => none

def permissionPathMatches (resource allowed : String) : Bool :=
  if isAbsolute resource || isAbsolute allowed then
    isAbsolute resource && isAbsolute allowed && pathWithin host resource allowed
  else
    match lexicalRelativePath resource, lexicalRelativePath allowed with
    | some resource, some allowed => startsWith resource allowed
    | _, _ => false

/-! ## The runtime's own files -/

/-- The roots and files the runtime keeps for itself. -/
structure ProtectedPathPolicy where
  roots : List AbsolutePath := []
  files : List AbsolutePath := []
  retentionExhausted : Bool := false

namespace ProtectedPathPolicy

def protectsResolved (policy : ProtectedPathPolicy) (path : AbsolutePath) : Bool :=
  policy.retentionExhausted || policy.roots.any (startsWith path ·) || policy.files.contains path

def protects (policy : ProtectedPathPolicy) (path : String) : Bool :=
  if policy.retentionExhausted then true
  else
    match resolvePolicyPath host path with
    | none => false
    | some path => policy.protectsResolved path

def protectsDescriptor (policy : ProtectedPathPolicy) (descriptor : EffectDescriptor) : Bool :=
  let paths := descriptor.resources.fileReads ++ descriptor.resources.fileWrites
  if policy.retentionExhausted then !paths.isEmpty
  else paths.any (policy.protects host ·)

end ProtectedPathPolicy

/-! ## Identities of boundary roots -/

structure BoundaryRoot where
  requestedPath : AbsolutePath
  anchorPath : AbsolutePath
  anchorIdentity : Option ObjectIdentity
  directoryAuthority : Option ObjectIdentity
  exactKind : Option RootKind

/-- The objects the roots of a boundary named when it was set. -/
structure BoundaryIdentityPolicy where
  roots : List BoundaryRoot := []
  invalid : Bool := false

def openIdentity (path : AbsolutePath) : Option RootKind → Option ObjectIdentity
  | some .file => host.fileIdentity path
  | some .directory | none => host.directoryIdentity path

def captureDirectoryRoot (path : AbsolutePath) :
    Option (Option ObjectIdentity × Option ObjectIdentity) :=
  match host.workspaceRootIdentity path with
  | some authority => some (none, some authority)
  | none => (openIdentity host path (some .directory)).map fun identity => (some identity, none)

/-- The first existing ancestor of a path read upwards. -/
def existingAncestor : List String → Option AbsolutePath
  | [] => if host.pathExists [] then some [] else none
  | name :: parent =>
    if host.pathExists (name :: parent).reverse then some (name :: parent).reverse
    else existingAncestor parent

def captureExactRoot (requestedPath : AbsolutePath) (kind : RootKind) : Option BoundaryRoot :=
  match kind with
  | .directory => do
    let (anchorIdentity, directoryAuthority) ← captureDirectoryRoot host requestedPath
    return ⟨requestedPath, requestedPath, anchorIdentity, directoryAuthority, some kind⟩
  | .file => do
    let identity ← openIdentity host requestedPath (some kind)
    return ⟨requestedPath, requestedPath, some identity, none, some kind⟩

def captureRoot (path : String) : Option BoundaryRoot := do
  let requestedPath ← normalizeAbsolutePath host path
  if host.pathExists requestedPath then
    let kind ← host.rootKind requestedPath
    captureExactRoot host requestedPath kind
  else
    let anchorPath ← existingAncestor host requestedPath.reverse
    let kind ← host.rootKind anchorPath
    if kind = .directory then
      let (anchorIdentity, directoryAuthority) ← captureDirectoryRoot host anchorPath
      return ⟨requestedPath, anchorPath, anchorIdentity, directoryAuthority, none⟩
    else none

namespace BoundaryIdentityPolicy

def capture (boundary : ExecutionBoundary) : BoundaryIdentityPolicy :=
  let captured := (boundary.readableRoots ++ boundary.writableRoots).dedup.map (captureRoot host ·)
  { roots := captured.filterMap id, invalid := captured.any Option.isNone }

end BoundaryIdentityPolicy

namespace BoundaryRoot

/-- Every name of `suffix` that exists below `current` resolves to a place below the anchor. -/
def staysBeneath (anchorResolved : AbsolutePath) : AbsolutePath → List String → Bool
  | _, [] => true
  | current, name :: suffix =>
    match host.symlinkMetadata (current ++ [name]) with
    | .notFound => true
    | .failed => false
    | .found =>
      match host.canonicalize (current ++ [name]) with
      | none => false
      | some resolved =>
        startsWith resolved anchorResolved &&
          staysBeneath anchorResolved (current ++ [name]) suffix

def missingSuffixStaysBeneathAnchor (root : BoundaryRoot) : Bool :=
  match root.anchorPath.isPrefixOf? root.requestedPath, host.canonicalize root.anchorPath with
  | some suffix, some anchorResolved => staysBeneath host anchorResolved root.anchorPath suffix
  | _, _ => false

def identityValid (root : BoundaryRoot) : Bool :=
  match root.directoryAuthority, root.anchorIdentity with
  | some authority, _ => host.workspaceRootIdentity root.anchorPath = some authority
  | none, some expected => openIdentity host root.anchorPath root.exactKind = some expected
  | none, none => false

def validatesCurrentPath (root : BoundaryRoot) : Bool :=
  root.identityValid host && (root.exactKind.isSome || root.missingSuffixStaysBeneathAnchor host)

end BoundaryRoot

def BoundaryIdentityPolicy.validatesCurrentPaths (policy : BoundaryIdentityPolicy) : Bool :=
  !policy.invalid && policy.roots.all (·.validatesCurrentPath host)

end SolarisMesh.Permission
