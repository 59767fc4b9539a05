import SolarisMesh.Permission.Enclosure
import SolarisMesh.Permission.Soundness

/-!
# Boundaries of children

A forked agent runs under the intersection of its parent's boundary and the one asked for
it. This module embeds that intersection and asks when the child can do nothing its parent
could not: paths, domains, commands and invocations are cut down to what both sides allow,
external resources by text that need not end at a separator.
-/

namespace SolarisMesh.Spawner

open SolarisMesh.Types Permission Lib
open Lib.Path (Component components isAbsolute join render)

/-- Descend `components`; a step up is refused. -/
def lexicalNames (path : String) : List Component → Except String (List String)
  | [] => .ok []
  | .normal name :: rest => do
    let names ← lexicalNames path rest
    return name :: names
  | .parentDir :: _ => .error ("boundary path contains '..': " ++ path)

def normalizeLexicalAbsolute (path : String) : Except String (List String) := do
  require (isAbsolute path) ("boundary path is not absolute: " ++ path)
  lexicalNames path (components path)

def normalizeBoundaryRoot (cwd root : String) : Except String String := do
  require (!root.toList.any (['*', '?', '[', ']', '\x7b', '\x7d'].contains ·))
    ("boundary path cannot contain a glob: " ++ root)
  require (!(components root).contains .parentDir)
    ("boundary path cannot contain '..': " ++ root)
  let names ← normalizeLexicalAbsolute (join cwd root)
  return render names

def normalizeBoundaryRoots (roots : List String) (cwd : String) : Except String (List String) :=
  roots.mapM (normalizeBoundaryRoot cwd)

variable (host : Host) (parent : List String)

/-- What is left of each parent root next to one requested root. -/
def matchedRoots (requestedRoot : String) : List String :=
  parent.filterMap fun parentRoot =>
    if pathWithin host requestedRoot parentRoot then some requestedRoot
    else if pathWithin host parentRoot requestedRoot then some parentRoot
    else none

def intersectRequestedRoot (label : String) (intersection : List String) (requestedRoot : String) :
    Except String (List String) := do
  let roots := matchedRoots host parent requestedRoot
  require (!roots.isEmpty)
    ("requested " ++ label ++ " root is outside the parent boundary: " ++ requestedRoot)
  return pushMissing intersection roots

def intersectPathRoots (parentUnrestricted : Bool) (requested : List String)
    (requestedUnrestricted : Bool) (label : String) : Except String (List String) :=
  if parentUnrestricted then .ok (if requestedUnrestricted then [] else requested)
  else if requestedUnrestricted then .ok parent
  else requested.foldlM (intersectRequestedRoot host parent label) []

def intersectNamedScope {α : Type} (parent : List α) (parentUnrestricted : Bool)
    (requested : List α) (requestedUnrestricted : Bool) (coveredBy : α → α → Bool) : List α :=
  if parentUnrestricted then if requestedUnrestricted then [] else requested
  else if requestedUnrestricted then parent
  else requested.filter fun candidate => parent.any (coveredBy candidate)

def intersectProcessInvocations (parent requested : ExecutionBoundary) : List ProcessInvocation :=
  if parent.unrestrictedProcess then requested.processInvocations
  else if requested.unrestrictedProcess then parent.processInvocations
  else requested.processInvocations.filter (parent.processInvocations.contains ·)

/-- `candidate.starts_with(allowed)` -/
def textStartsWith (candidate allowed : String) : Bool :=
  allowed.toList.isPrefixOf candidate.toList

def intersectExecutionBoundary (parent requested : ExecutionBoundary) (cwd : String) :
    Except String ExecutionBoundary := do
  let requestedReads ← normalizeBoundaryRoots requested.readableRoots cwd
  let requestedWrites ← normalizeBoundaryRoots requested.writableRoots cwd
  let readableRoots ← intersectPathRoots host parent.readableRoots parent.unrestrictedFileReads
    requestedReads requested.unrestrictedFileReads "read"
  let writableRoots ← intersectPathRoots host parent.writableRoots parent.unrestrictedFileWrites
    requestedWrites requested.unrestrictedFileWrites "write"
  return {
    readableRoots
    unrestrictedFileReads := parent.unrestrictedFileReads && requested.unrestrictedFileReads
    writableRoots
    unrestrictedFileWrites := parent.unrestrictedFileWrites && requested.unrestrictedFileWrites
    networkDomains :=
      intersectNamedScope parent.networkDomains parent.unrestrictedNetwork
        requested.networkDomains requested.unrestrictedNetwork
        (fun candidate allowed => candidate = allowed)
    processCommandPrefixes :=
      intersectNamedScope parent.processCommandPrefixes parent.unrestrictedProcess
        requested.processCommandPrefixes requested.unrestrictedProcess
        (fun candidate allowed => candidate = allowed)
    processInvocations := intersectProcessInvocations parent requested
    unrestrictedProcess := parent.unrestrictedProcess && requested.unrestrictedProcess
    externalResourcePrefixes :=
      intersectNamedScope parent.externalResourcePrefixes parent.unrestrictedExternalSideEffects
        requested.externalResourcePrefixes requested.unrestrictedExternalSideEffects
        textStartsWith
    unrestrictedExternalSideEffects :=
      parent.unrestrictedExternalSideEffects && requested.unrestrictedExternalSideEffects
    unrestrictedNetwork := parent.unrestrictedNetwork && requested.unrestrictedNetwork }

/-- What a spawn asks for its child: a boundary of its own, if any, and a ceiling. -/
structure ChildRequest where
  executionBoundary : Option ExecutionBoundary
  permissionCeiling : PermissionCeiling
  cwd : String

/-- `child_permissions` of `spawn_fork_authorized` -/
def childPermissions (parent : PermissionContext) (request : ChildRequest) :
    Except String PermissionContext :=
  match request.executionBoundary with
  | some requested => do
    let boundary ← (intersectExecutionBoundary host parent.boundary requested request.cwd).mapError
      ("invalid child execution boundary: " ++ ·)
    return parent.narrowedWithBoundary host request.permissionCeiling boundary
  | none => .ok (parent.narrowed request.permissionCeiling)

/-- The context at the end of a chain of spawns. -/
def descend (ancestor : PermissionContext) (requests : List ChildRequest) :
    Except String PermissionContext :=
  requests.foldlM (childPermissions host) ancestor

end SolarisMesh.Spawner
