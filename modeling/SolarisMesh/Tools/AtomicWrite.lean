import SolarisMesh.Lib.Checked

/-!
# Atomic writes

A file is written to a temporary file that is renamed over the target. Whatever step fails, the
target should be as before and the temporary file removed; the exit of the second inspection leaves
the temporary file.
-/

namespace SolarisMesh.Tools

open List Lib

variable {ι : Type} [DecidableEq ι]

/-- An object that a name of the directory stands for. -/
structure Entry (ι : Type) where
  identity : ι
  isFile : Bool
  content : List UInt8
  deriving DecidableEq

/-- The results of opening an object and asking for its metadata and identity. -/
structure Opening where
  opens : Bool
  metadata : Bool
  identity : Except String Unit

/-- The results of an inspection of the target, with the length that its metadata have and the sizes
that reads return, zero only at the end; a read after them fails. -/
structure Inspection extends Opening where
  allowed : Bool
  allowedOpened : Bool
  length : ℕ
  reads : List ℕ

def inspectTarget (inspection : Inspection) (target : Option (Entry ι)) :
    Except String (Option (Entry ι)) := do
  require inspection.allowed "workspace file access denied by policy"
  require inspection.opens "failed to open workspace file"
  match target with
  | none => return none
  | some entry =>
    require inspection.metadata "failed to inspect opened workspace file"
    require entry.isFile "workspace path is not a regular file"
    inspection.identity
    require inspection.allowedOpened "workspace file access denied by policy"
    return some entry

def inspectTemporaryFile (opening : Opening) (temporary : Entry ι) (expected : ι) :
    Except String Unit := do
  let changed := "workspace temporary file changed before atomic write"
  require (opening.opens && opening.metadata && temporary.isFile) changed
  opening.identity
  require (expected = temporary.identity) changed

def identityMatches : Option ι → Option ι → Bool
  | some expected, some actual => expected = actual
  | none, _ => true
  | some _, none => false

def optionalIdentityMatches : Option ι → Option ι → Bool
  | some before, some after => before = after
  | none, none => true
  | _, _ => false

/-- The loop over what is left of the file and of the expected bytes, and the read after it. -/
def readMatches : List ℕ → List UInt8 → List UInt8 → Except String Bool
  | [], _, _ => .error "failed to revalidate workspace file content"
  | _ :: _, file, [] => .ok (file.take 1).isEmpty
  | size :: reads, file, expected =>
    let read := file.take (max 1 (min size 8192))
    if read.isEmpty || !read.isPrefixOf expected then .ok false
    else readMatches reads (file.drop read.length) (expected.drop read.length)

def openedTargetMatchesContent (inspection : Inspection) (opened : Option (Entry ι))
    (expected : List UInt8) : Except String Bool :=
  match opened with
  | none => .ok false
  | some entry =>
    if inspection.length = expected.length then
      readMatches inspection.reads entry.content expected
    else .ok false

/-- The results of the operations of a write, in order. -/
structure Operations (ι : Type) where
  parent : Except String Unit
  hasFileName : Bool
  first : Inspection
  create : Except String Unit
  temporary : ι
  write : Except String Unit
  identity : Except String Unit
  last : Inspection
  reopened : Opening
  rename : Except String Unit

/-- What the directory has under the target's name and under that of the temporary file. -/
structure Directory (ι : Type) where
  target : Option (Entry ι)
  temporary : Option (Entry ι)

namespace Operations

variable (io : Operations ι) (expected : Option (ι × List UInt8))

def checkContent (inspection : Inspection) (opened : Option (Entry ι)) (message : String) :
    Except String Unit :=
  match expected with
  | none => .ok ()
  | some (_, bytes) => do require (← openedTargetMatchesContent inspection opened bytes) message

/-- The steps up to the one that creates the temporary file. -/
def prepare (target : Option (Entry ι)) : Except String (Option (Entry ι)) := do
  io.parent
  require io.hasFileName "workspace file path has no file name"
  let before ← inspectTarget io.first target
  require (identityMatches (expected.map (·.1)) (before.map (·.identity)))
    "workspace file changed before atomic write"
  checkContent expected io.first before "workspace file content changed before atomic write"
  io.create.mapError ("failed to create temporary workspace file: " ++ ·)
  return before

def writeTemporary : Except String Unit := do
  io.write.mapError ("failed to write temporary workspace file: " ++ ·)
  io.identity

/-- The steps after the second inspection. -/
def replaceTarget (temporary : Entry ι) (before current : Option (Entry ι)) :
    Except String Unit := do
  require (optionalIdentityMatches (before.map (·.identity)) (current.map (·.identity)))
    "workspace file changed during atomic write"
  checkContent expected io.last current "workspace file content changed during atomic write"
  inspectTemporaryFile io.reopened temporary io.temporary
  io.rename.mapError ("failed to replace workspace file atomically: " ++ ·)

/-- The target is `target` at the first inspection, and others have made `last` of it at the second
one. Removing the temporary file succeeds. -/
def writeAtomicIfUnchanged (content : List UInt8) (target last : Option (Entry ι)) :
    Directory ι × Except String Unit :=
  match io.prepare expected target with
  | .error error => (⟨last, none⟩, .error error)
  | .ok before =>
    let temporary : Entry ι := ⟨io.temporary, true, content⟩
    match io.writeTemporary with
    | .error error => (⟨last, none⟩, .error error)
    | .ok _ =>
      match inspectTarget io.last last with
      -- The `?` of the second inspection, without the removal that every other exit has.
      | .error error => (⟨last, some temporary⟩, .error error)
      | .ok current =>
        match io.replaceTarget expected temporary before current with
        | .error error => (⟨last, none⟩, .error error)
        | .ok _ => (⟨some temporary, none⟩, .ok ())

end Operations

/-- A write is done and only over the expected object and bytes, or it leaves no trace. -/
structure Directory.Atomic (content : List UInt8) (expected : Option (ι × List UInt8))
    (last : Option (Entry ι)) (after : Directory ι × Except String Unit) : Prop where
  done : after.2 = .ok () → ∃ identity, after.1 = ⟨some ⟨identity, true, content⟩, none⟩
  unchanged : after.2 = .ok () → ∀ object bytes, expected = some (object, bytes) →
    last = some ⟨object, true, bytes⟩
  failed : ∀ error, after.2 = .error error → after.1 = ⟨last, none⟩

lemma eq_of_readMatches {reads : List ℕ} {file expected : List UInt8}
    (h : readMatches reads file expected = .ok true) : file = expected := by
  fun_induction readMatches reads file expected with
  | case1 => cases h
  | case2 => simpa using h
  | case3 => cases h
  | case4 size reads file expected hne read hread ih =>
    have hread : read ≠ [] ∧ read <+: expected := by simpa using hread
    obtain ⟨rest, hrest⟩ := hread.2
    obtain ⟨left, hleft⟩ : read <+: file := List.take_prefix ..
    rw [← hleft, ← hrest, drop_left, drop_left] at ih h
    rw [← hleft, ← hrest, ih h]

namespace Operations

variable {io : Operations ι} {expected : Option (ι × List UInt8)}
  {target last before current opened : Option (Entry ι)}

omit [DecidableEq ι] in
lemma inspectTarget_eq_ok {inspection : Inspection}
    (h : inspectTarget inspection target = .ok opened) :
    opened = target ∧ ∀ entry, target = some entry → entry.isFile = true := by
  cases target with
  | none =>
    simp only [inspectTarget, check_bind_eq_ok, pure_eq_ok] at h
    refine ⟨h.2.2.symm, fun _ hentry => ?_⟩
    cases hentry
  | some entry =>
    simp only [inspectTarget, check_bind_eq_ok, require_eq_ok, pure_eq_ok] at h
    obtain ⟨-, -, -, hfile, -, -, rfl⟩ := h
    exact ⟨rfl, fun _ hentry => Option.some.inj hentry ▸ hfile⟩

/-- The object is the expected one by way of the first inspection; its bytes are compared again. -/
lemma replaceTarget_eq_ok {temporary : Entry ι}
    (hprepare : io.prepare expected target = .ok before)
    (hlast : inspectTarget io.last last = .ok current)
    (h : io.replaceTarget expected temporary before current = .ok ()) :
    ∀ object bytes, expected = some (object, bytes) → last = some ⟨object, true, bytes⟩ := by
  rintro object bytes rfl
  obtain ⟨rfl, hfile⟩ := inspectTarget_eq_ok hlast
  simp only [prepare, replaceTarget, checkContent, bind_eq_ok, require_eq_ok, pure_eq_ok,
    exists_eq_right, exists_const] at hprepare h
  obtain ⟨_, -, -, opened, -, hsame, -, _, -, rfl⟩ := hprepare
  obtain ⟨hkept, hmatch, -⟩ := h
  cases opened with
  | none => cases hsame
  | some opened =>
    cases current with
    | none => cases hkept
    | some current =>
      have hsame : object = opened.identity := of_decide_eq_true hsame
      have hkept : opened.identity = current.identity := of_decide_eq_true hkept
      have hcontent : current.content = bytes := by
        dsimp only [openedTargetMatchesContent] at hmatch
        split at hmatch
        · exact eq_of_readMatches hmatch
        · cases hmatch
      rw [hsame, hkept, ← hcontent, ← hfile current rfl]

/-- What the target's name stands for afterwards: the new content if the write is done, and
otherwise what others have made of it. -/
lemma writeAtomicIfUnchanged_target (io : Operations ι) (expected : Option (ι × List UInt8))
    (content : List UInt8) (target last : Option (Entry ι)) :
    ((io.writeAtomicIfUnchanged expected content target last).2 = .ok () ∧
        (io.writeAtomicIfUnchanged expected content target last).1.target =
          some ⟨io.temporary, true, content⟩ ∧
        ∀ object bytes, expected = some (object, bytes) → last = some ⟨object, true, bytes⟩) ∨
      ∃ error, (io.writeAtomicIfUnchanged expected content target last).2 = .error error ∧
        (io.writeAtomicIfUnchanged expected content target last).1.target = last := by
  unfold writeAtomicIfUnchanged
  cases hprepare : io.prepare expected target with
  | error error => exact .inr ⟨error, rfl, rfl⟩
  | ok before =>
    cases io.writeTemporary with
    | error error => exact .inr ⟨error, rfl, rfl⟩
    | ok written =>
      cases hlast : inspectTarget io.last last with
      | error error => exact .inr ⟨error, rfl, rfl⟩
      | ok current =>
        dsimp only
        cases hreplace : io.replaceTarget expected ⟨io.temporary, true, content⟩ before current with
        | error error => exact .inr ⟨error, rfl, rfl⟩
        | ok replaced => exact .inl ⟨rfl, rfl, replaceTarget_eq_ok hprepare hlast hreplace⟩

/-- A write is atomic exactly if the second inspection does not fail after the temporary file has
been written. -/
theorem writeAtomicIfUnchanged_atomic_iff (content : List UInt8) (target last : Option (Entry ι)) :
    Directory.Atomic content expected last
        (io.writeAtomicIfUnchanged expected content target last) ↔
      ¬ ((∃ before, io.prepare expected target = .ok before) ∧ io.writeTemporary = .ok () ∧
        ∃ error, inspectTarget io.last last = .error error) := by
  unfold writeAtomicIfUnchanged
  cases hprepare : io.prepare expected target with
  | error error =>
    refine ⟨fun _ ⟨⟨_, hbefore⟩, _⟩ => ?_, fun _ => ⟨nofun, nofun, fun _ _ => rfl⟩⟩
    cases hbefore
  | ok before =>
    cases hwrite : io.writeTemporary with
    | error error =>
      refine ⟨fun _ ⟨_, hwritten, _⟩ => ?_, fun _ => ⟨nofun, nofun, fun _ _ => rfl⟩⟩
      cases hwritten
    | ok written =>
      cases hlast : inspectTarget io.last last with
      | error error =>
        refine ⟨fun hatomic _ => ?_, fun h => absurd ⟨⟨before, rfl⟩, rfl, error, rfl⟩ h⟩
        cases hatomic.failed error rfl
      | ok current =>
        refine ⟨fun _ ⟨_, _, _, herror⟩ => ?_, fun _ => ?_⟩
        · cases herror
        dsimp only
        cases hreplace : io.replaceTarget expected ⟨io.temporary, true, content⟩ before current with
        | error error => exact ⟨nofun, nofun, fun _ _ => rfl⟩
        | ok replaced =>
          exact ⟨fun _ => ⟨io.temporary, rfl⟩,
            fun _ => replaceTarget_eq_ok hprepare hlast hreplace, nofun⟩

end Operations

/-- The target was absent, and others make a directory of it before the second inspection: the
temporary file stays. -/
theorem temporary_file_left :
    let opening : Opening := ⟨true, true, .ok ()⟩
    let inspection : Inspection := ⟨opening, true, true, 0, []⟩
    let io : Operations ℕ :=
      ⟨.ok (), true, inspection, .ok (), 1, .ok (), .ok (), inspection, opening, .ok ()⟩
    let after := io.writeAtomicIfUnchanged none [98] none (some ⟨2, false, []⟩)
    after = (⟨some ⟨2, false, []⟩, some ⟨1, true, [98]⟩⟩,
        .error "workspace path is not a regular file") ∧
      ¬ Directory.Atomic [98] none (some ⟨2, false, []⟩) after := by
  refine ⟨rfl, fun h => ?_⟩
  cases h.failed _ rfl

end SolarisMesh.Tools
