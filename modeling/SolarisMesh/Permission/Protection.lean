import Mathlib.Data.List.Sort
import SolarisMesh.Lib.Machine
import SolarisMesh.Lib.Retention
import SolarisMesh.Permission.Paths

/-!
# Protected runtime paths

How the runtime registers the directories and state files it keeps for itself. Each is held
both by its resolved path and by the identity of the object found there, in tables of bounded
size that never give an object up. A table that is full closes the whole policy: it then
protects every path.
-/

namespace SolarisMesh.Permission

open Lib
open Lib.Path (AbsolutePath)
open Lib.Retention (retain retainAll)

/-- What opening a directory and asking for its identity comes to. -/
inductive OpenedDirectory where
  | identified (identity : ObjectIdentity)
  | notOpened
  | notRetained
  | notIdentified
deriving DecidableEq, Repr

/-- What opening a file by its name in a directory comes to. -/
inductive OpenedFile where
  | identified (identity : ObjectIdentity)
  | notFound
  | notOpened
  | notIdentified
deriving DecidableEq, Repr

/-- The file system while one call is made. A directory that is held open is found by its
identity, wherever it has been moved. -/
structure Disk extends Host where
  openDirectory : AbsolutePath → OpenedDirectory
  openBeneath : ObjectIdentity → String → OpenedFile

structure ProtectedRoot where
  path : AbsolutePath
  identity : ObjectIdentity
deriving DecidableEq, Repr

structure ProtectedFileSlot where
  parentIdentity : ObjectIdentity
  fileName : String
deriving DecidableEq, Repr

/-- A protected path policy with the objects it retains. -/
structure RetainedPathPolicy where
  roots : List ProtectedRoot := []
  files : List AbsolutePath := []
  slots : List ProtectedFileSlot := []
  fileIdentities : List ObjectIdentity := []
  retentionExhausted : Bool := false
deriving DecidableEq, Repr

def maxRetainedIdentities : ℕ := 64

def retainedIdentityCapacityError : String :=
  "protected runtime retained identity capacity exhausted"

/-- A root is known by the directory it is, not by its path. -/
def sameRoot (left right : ProtectedRoot) : Bool :=
  left.identity == right.identity

def sameSlot (left right : ProtectedFileSlot) : Bool :=
  left.fileName == right.fileName && left.parentIdentity == right.parentIdentity

namespace Disk

variable (disk : Disk)

def identityOfDirectory (path : AbsolutePath) (notOpened : String) :
    Except String ObjectIdentity :=
  match disk.openDirectory path with
  | .identified identity => .ok identity
  | .notOpened => .error notOpened
  | .notRetained => .error "failed to retain protected directory handle"
  | .notIdentified => .error "failed to identify protected directory"

def openRoot (root : String) : Except String ProtectedRoot := do
  let path ← orElseThrow "failed to resolve protected runtime root"
    (resolvePolicyPath disk.toHost root)
  let identity ← disk.identityOfDirectory path "failed to open protected runtime root"
  return ⟨path, identity⟩

def openFileSlot (path : AbsolutePath) : Except String ProtectedFileSlot := do
  let fileName ← orElseThrow "protected runtime state path has no parent" path.getLast?
  let parentIdentity ←
    disk.identityOfDirectory path.dropLast "failed to open protected runtime state parent"
  return ⟨parentIdentity, fileName⟩

def openSlotIdentity (slot : ProtectedFileSlot) : Except String (Option ObjectIdentity) :=
  match disk.openBeneath slot.parentIdentity slot.fileName with
  | .identified identity => .ok (some identity)
  | .notFound => .ok none
  | .notOpened => .error "failed to refresh protected runtime state identity"
  | .notIdentified => .error "failed to identify protected runtime state"

end Disk

namespace RetainedPathPolicy

/-- The part of the policy that decides about paths. -/
def paths (policy : RetainedPathPolicy) : ProtectedPathPolicy :=
  { roots := policy.roots.map (·.path)
    files := policy.files
    retentionExhausted := policy.retentionExhausted }

def protects (host : Host) (policy : RetainedPathPolicy) (path : String) : Bool :=
  policy.paths.protects host path

/-- A changed policy and whether the change succeeded. -/
abbrev Changed := RetainedPathPolicy × Except String Unit

/-- Go on with the changed policy, or keep it as it is at the failure. -/
def andThen (changed : Changed) (next : RetainedPathPolicy → Changed) : Changed :=
  match changed.2 with
  | .ok () => next changed.1
  | .error e => (changed.1, .error e)

def exhaust (policy : RetainedPathPolicy) : Changed :=
  ({ policy with retentionExhausted := true }, .error retainedIdentityCapacityError)

def sorted (policy : RetainedPathPolicy) : RetainedPathPolicy :=
  { policy with
    roots := policy.roots.insertionSort fun left right => ¬ right.path < left.path
    files := policy.files.insertionSort fun left right => ¬ right < left }

def rememberRoot (root : ProtectedRoot) (policy : RetainedPathPolicy) : Changed :=
  match retain sameRoot maxRetainedIdentities policy.roots root with
  | some roots => ({ policy with roots := roots }, .ok ())
  | none => policy.exhaust

def rememberFileIdentity (identity : ObjectIdentity) (policy : RetainedPathPolicy) : Changed :=
  match retain (· == ·) maxRetainedIdentities policy.fileIdentities identity with
  | some fileIdentities => ({ policy with fileIdentities := fileIdentities }, .ok ())
  | none => policy.exhaust

/-- Room is checked in all three tables before anything is entered in one of them. -/
def rememberFile (path : AbsolutePath) (slot : ProtectedFileSlot)
    (identity : Option ObjectIdentity) (policy : RetainedPathPolicy) : Changed :=
  let files := retain (· == ·) maxRetainedIdentities policy.files path
  let slots := retain sameSlot maxRetainedIdentities policy.slots slot
  let fileIdentities := identity.elim (some policy.fileIdentities)
    (retain (· == ·) maxRetainedIdentities policy.fileIdentities)
  match files, slots, fileIdentities with
  | some files, some slots, some fileIdentities =>
    ({ policy with files := files, slots := slots, fileIdentities := fileIdentities }, .ok ())
  | _, _, _ => policy.exhaust

section Calls

variable (disk : Disk)

def registerRoot (root : String) (policy : RetainedPathPolicy) : Changed :=
  match disk.openRoot root with
  | .ok root => policy.rememberRoot root
  | .error e => (policy, .error e)

def openStatePath (requested : String) :
    Except String (AbsolutePath × ProtectedFileSlot × Option ObjectIdentity) := do
  let path ← orElseThrow "failed to resolve protected runtime state path"
    (resolvePolicyPath disk.toHost requested)
  let slot ← disk.openFileSlot path
  let identity ← disk.openSlotIdentity slot
  return (path, slot, identity)

def registerStatePath (requested : String) (policy : RetainedPathPolicy) : Changed :=
  match openStatePath disk requested with
  | .ok (path, slot, identity) => policy.rememberFile path slot identity
  | .error e => (policy, .error e)

def registerStatePaths : List String → RetainedPathPolicy → Changed
  | [], policy => (policy, .ok ())
  | requested :: rest, policy =>
    andThen (policy.registerStatePath disk requested) (registerStatePaths rest)

def register (root : String) (statePaths : List String) (policy : RetainedPathPolicy) : Changed :=
  if policy.retentionExhausted then (policy, .error retainedIdentityCapacityError)
  else
    andThen (policy.registerRoot disk root) fun policy =>
      andThen (policy.registerStatePaths disk statePaths) fun policy => (policy.sorted, .ok ())

def refreshSlot (slot : ProtectedFileSlot) (policy : RetainedPathPolicy) : Changed :=
  match disk.openSlotIdentity slot with
  | .ok (some identity) => policy.rememberFileIdentity identity
  | .ok none => (policy, .ok ())
  | .error e => (policy, .error e)

def refreshSlots : List ProtectedFileSlot → RetainedPathPolicy → Changed
  | [], policy => (policy, .ok ())
  | slot :: rest, policy => andThen (policy.refreshSlot disk slot) (refreshSlots rest)

def refreshFileIdentities (policy : RetainedPathPolicy) : Changed :=
  if policy.retentionExhausted then (policy, .error retainedIdentityCapacityError)
  else policy.refreshSlots disk policy.slots

end Calls

/-- Put a table back, and close the policy if it had no room for all. -/
def absorb {α : Type} (entered : List α × Bool) (put : List α → RetainedPathPolicy) : Changed :=
  if entered.2 then (put entered.1, .ok ()) else (put entered.1).exhaust

def mergeRoots (roots : List ProtectedRoot) (policy : RetainedPathPolicy) : Changed :=
  absorb (retainAll sameRoot maxRetainedIdentities policy.roots roots)
    fun roots => { policy with roots := roots }

def mergeFiles (files : List AbsolutePath) (policy : RetainedPathPolicy) : Changed :=
  absorb (retainAll (· == ·) maxRetainedIdentities policy.files files)
    fun files => { policy with files := files }

def mergeSlots (slots : List ProtectedFileSlot) (policy : RetainedPathPolicy) : Changed :=
  absorb (retainAll sameSlot maxRetainedIdentities policy.slots slots)
    fun slots => { policy with slots := slots }

def mergeFileIdentities (identities : List ObjectIdentity) (policy : RetainedPathPolicy) :
    Changed :=
  absorb (retainAll (· == ·) maxRetainedIdentities policy.fileIdentities identities)
    fun identities => { policy with fileIdentities := identities }

/-- The failure of a merge shows only in the policy. -/
def merge (policy other : RetainedPathPolicy) : RetainedPathPolicy :=
  if policy.retentionExhausted || other.retentionExhausted then
    { policy with retentionExhausted := true }
  else
    Prod.fst <|
      andThen (policy.mergeRoots other.roots) fun policy =>
      andThen (policy.mergeFiles other.files) fun policy =>
      andThen (policy.mergeSlots other.slots) fun policy =>
      andThen (policy.mergeFileIdentities other.fileIdentities) fun policy =>
        (policy.sorted, .ok ())

end RetainedPathPolicy

/-! ## Policies over time -/

/-- The calls that change a policy; policies go by numbers. -/
inductive ProtectionCall where
  | register (policy : ℕ) (root : String) (statePaths : List String)
  | refresh (policy : ℕ)
  | merge (policy other : ℕ)

/-- A call, and the disk it is made on: between calls the disk changes at will. -/
structure ProtectionEvent where
  disk : Disk
  call : ProtectionCall

/-- All policies of a process. -/
abbrev Policies := ℕ → RetainedPathPolicy

def protectionMachine : Machine Policies ProtectionEvent (Except String Unit) where
  step policies event :=
    match event.call with
    | .register policy root statePaths =>
      let changed := (policies policy).register event.disk root statePaths
      (Function.update policies policy changed.1, changed.2)
    | .refresh policy =>
      let changed := (policies policy).refreshFileIdentities event.disk
      (Function.update policies policy changed.1, changed.2)
    | .merge policy other =>
      (Function.update policies policy ((policies policy).merge (policies other)), .ok ())

def noPolicies : Policies := fun _ => {}

end SolarisMesh.Permission
