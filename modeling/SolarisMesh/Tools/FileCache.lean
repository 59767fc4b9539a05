import SolarisMesh.Lib.Lru
import SolarisMesh.Orchestration.ToolCalls

/-!
# Caches of file states and of read-only evidence

Both caches are under a limit of their entries and a limit of their bytes, and evict what was not
used for longest. They differ in a value over the byte limit: the file cache forgets the entry of
its path, the evidence index keeps the entry of its key.
-/

namespace SolarisMesh.Tools

open List Lib.Lru Orchestration

/-! ## Paths -/

/-- `std::path::Component`. -/
inductive PathComponent where
  | volume (name : String)
  | rootDir
  | curDir
  | parentDir
  | normal (name : String)
deriving DecidableEq, Repr

/-- The components are on a stack, the last on top. -/
def normalizeComponent (components : List PathComponent) : PathComponent → List PathComponent
  | .parentDir =>
    match components with
    | .normal _ :: rest => rest
    | .rootDir :: _ => components
    | _ => .parentDir :: components
  | .curDir => components
  | component => component :: components

def normalizePath (path : List PathComponent) : List PathComponent :=
  (path.foldl normalizeComponent []).reverse

/-- To remove a `.`, to resolve a `..` after a name, and the root is its own parent. -/
inductive Lexical : List PathComponent → List PathComponent → Prop where
  | curDir (before after) : Lexical (before ++ .curDir :: after) (before ++ after)
  | parentDir (before after name) :
    Lexical (before ++ .normal name :: .parentDir :: after) (before ++ after)
  | rootDir (before after) :
    Lexical (before ++ .rootDir :: .parentDir :: after) (before ++ .rootDir :: after)

lemma Lexical.normalizePath_eq {path other : List PathComponent} (h : Lexical path other) :
    normalizePath path = normalizePath other := by
  cases h with
  | curDir before | parentDir before | rootDir before =>
    rw [normalizePath, normalizePath, foldl_append, foldl_append]
    rfl

/-- The stack and the rest of the path have the meaning of the whole path. -/
lemma normalizeComponent_eqv (stack path : List PathComponent) (component : PathComponent) :
    Relation.EqvGen Lexical (stack.reverse ++ component :: path)
      ((normalizeComponent stack component).reverse ++ path) := by
  cases component with
  | curDir => exact .rel _ _ (.curDir _ _)
  | volume | rootDir | normal => simpa [normalizeComponent] using .refl _
  | parentDir =>
    simp only [normalizeComponent]
    split
    · simpa using .rel _ _ (.parentDir _ _ _)
    · simpa using .rel _ _ (.rootDir _ _)
    · simpa using .refl _

lemma normalizePath_eqv (path : List PathComponent) :
    Relation.EqvGen Lexical path (normalizePath path) := by
  suffices h : ∀ stack : List PathComponent, Relation.EqvGen Lexical (stack.reverse ++ path)
      (path.foldl normalizeComponent stack).reverse from h []
  induction path with
  | nil =>
    intro stack
    simpa using .refl _
  | cons component path ih =>
    intro stack
    exact .trans _ _ _ (normalizeComponent_eqv stack path component) (ih _)

lemma normalizePath_eq_iff {path other : List PathComponent} :
    normalizePath path = normalizePath other ↔ Relation.EqvGen Lexical path other := by
  refine ⟨fun h => ?_, fun h => ?_⟩
  · exact .trans _ _ _ (normalizePath_eqv path) (h ▸ .symm _ _ (normalizePath_eqv other))
  · induction h with
    | rel _ _ h => exact h.normalizePath_eq
    | refl => rfl
    | symm _ _ _ ih => exact ih.symm
    | trans _ _ _ _ _ ih ih' => exact ih.trans ih'

lemma foldl_normalizeComponent (path : List PathComponent) :
    path.foldl normalizeComponent [] = path.reverse ∨
      (path.foldl normalizeComponent []).length < path.length := by
  induction path using reverseRecOn with
  | nil => exact .inl rfl
  | append_singleton path component ih =>
    rw [foldl_append, foldl_cons, foldl_nil]
    generalize path.foldl normalizeComponent [] = stack at ih ⊢
    have hstep : normalizeComponent stack component = component :: stack ∨
        (normalizeComponent stack component).length ≤ stack.length := by
      unfold normalizeComponent
      split
      · split <;> simp
      all_goals simp
    obtain hpush | hdrop := hstep
    · simpa [hpush] using ih
    · have hle : stack.length ≤ path.length := ih.elim (fun heq => by simp [heq]) le_of_lt
      exact .inr (by simp; omega)

/-- Every other path with the meaning of a path is longer than the normal one. -/
theorem normalizePath_shortest (path : List PathComponent) :
    {other | Relation.EqvGen Lexical path other ∧ other.length ≤ (normalizePath path).length} =
      {normalizePath path} := by
  refine Set.eq_singleton_iff_unique_mem.2 ⟨⟨normalizePath_eqv path, le_rfl⟩, fun other h => ?_⟩
  rw [normalizePath_eq_iff.2 h.1] at h ⊢
  obtain hnormal | hshorter := foldl_normalizeComponent other
  · rw [normalizePath, hnormal, reverse_reverse]
  · exact absurd h.2 (by simpa [normalizePath] using hshorter)

/-! ## The file cache -/

structure FileState where
  content : String
  offset : Option ℕ
  limit : Option ℕ

structure CachedFileState (ι : Type) where
  state : FileState
  identity : Option ι
  contentDigest : Option (List UInt8)

def CachedFileState.contentBytes {ι : Type} (entry : CachedFileState ι) : ℕ :=
  entry.state.content.utf8ByteSize

abbrev FileStateCache (ι : Type) := Cache (List PathComponent) (CachedFileState ι)

structure FileCacheConfig where
  maxEntries : ℕ
  maxSizeBytes : ℕ

variable {ι : Type} [DecidableEq ι]

def CachedFileState.matchesOpened (entry : CachedFileState ι) (identity : ι)
    (contentDigest : List UInt8) (offset limit : Option ℕ) : Bool :=
  entry.state.offset = offset && entry.state.limit = limit && entry.identity = some identity &&
    entry.contentDigest = some contentDigest

namespace FileStateCache

def new (config : FileCacheConfig) : FileStateCache ι where
  capacity := if config.maxEntries = 0 then 100 else config.maxEntries
  pos := by split <;> omega
  maxSizeBytes := config.maxSizeBytes

variable (cache : FileStateCache ι)

def get (path : List PathComponent) : Option FileState × FileStateCache ι :=
  (Cache.get cache (normalizePath path)).map (·.map (·.state)) id

def matchesOpened (path : List PathComponent) (identity : ι) (contentDigest : List UInt8)
    (offset limit : Option ℕ) : Option Bool × FileStateCache ι :=
  (Cache.get cache (normalizePath path)).map
    (·.map (·.matchesOpened identity contentDigest offset limit)) id

/-- `insert` gives an entry without an identity and a digest, `insert_opened` one with them. -/
def insertEntry (path : List PathComponent) (entry : CachedFileState ι) : FileStateCache ι :=
  let normalized := normalizePath path
  let popped := (Cache.pop cache CachedFileState.contentBytes normalized).2
  if popped.maxSizeBytes < entry.contentBytes then popped
  else popped.store CachedFileState.contentBytes normalized entry

def remove (path : List PathComponent) : Option FileState × FileStateCache ι :=
  (Cache.pop cache CachedFileState.contentBytes (normalizePath path)).map (·.map (·.state)) id

end FileStateCache

/-- A call on the file cache. -/
inductive FileCall (ι : Type) where
  | get (path : List PathComponent)
  | matchesOpened (path : List PathComponent) (identity : ι) (contentDigest : List UInt8)
    (offset limit : Option ℕ)
  | insert (path : List PathComponent) (entry : CachedFileState ι)
  | remove (path : List PathComponent)
  | clear

def FileCall.run (cache : FileStateCache ι) : FileCall ι → FileStateCache ι
  | .get path => (cache.get path).2
  | .matchesOpened path identity contentDigest offset limit =>
    (cache.matchesOpened path identity contentDigest offset limit).2
  | .insert path entry => cache.insertEntry path entry
  | .remove path => (cache.remove path).2
  | .clear => cache.clear

/-- A state over the byte limit is not stored, and the one before it is removed. -/
def FileCall.op (maxSizeBytes : ℕ) : FileCall ι → Op (List PathComponent) (CachedFileState ι)
  | .get path | .matchesOpened path .. => .touch (normalizePath path)
  | .insert path entry =>
    if maxSizeBytes < entry.contentBytes then .remove (normalizePath path)
    else .store (normalizePath path) entry
  | .remove path => .remove (normalizePath path)
  | .clear => .clear

/-! ## The evidence index -/

structure EvidenceEntry (ν : Type) where
  validation : ν
  resultDigest : String
  content : String

def EvidenceEntry.size {ν : Type} (entry : EvidenceEntry ν) : ℕ := entry.content.utf8ByteSize

abbrev ReadOnlyEvidenceIndex (κ ν : Type) := Cache κ (EvidenceEntry ν)

structure ClassifiedToolResult where
  content : String
  status : ToolStatus

variable {κ ν : Type} [DecidableEq κ] [DecidableEq ν] (bytesDigest : String → String)

namespace ReadOnlyEvidenceIndex

def withLimits (maxEntries maxSizeBytes : ℕ) : ReadOnlyEvidenceIndex κ ν where
  capacity := max maxEntries 1
  pos := by omega
  maxSizeBytes

variable (index : ReadOnlyEvidenceIndex κ ν) (key : κ) (validation : ν)

def lookup : Option ClassifiedToolResult × ReadOnlyEvidenceIndex κ ν :=
  (Cache.get index key).map (fun found => do
    let entry ← found
    guard (entry.validation = validation ∧ entry.resultDigest = bytesDigest entry.content)
    return ⟨entry.content, .cacheHit⟩) id

def insert (result : ClassifiedToolResult) : ClassifiedToolResult × ReadOnlyEvidenceIndex κ ν :=
  if result.status ≠ .executed then (result, index)
  else if index.maxSizeBytes < result.content.utf8ByteSize then (result, index)
  else
    (result, (Cache.pop index EvidenceEntry.size key).2.store EvidenceEntry.size key
      ⟨validation, bytesDigest result.content, result.content⟩)

end ReadOnlyEvidenceIndex

/-- A call on the evidence index. -/
inductive EvidenceCall (κ ν : Type) where
  | lookup (key : κ) (validation : ν)
  | insert (key : κ) (validation : ν) (result : ClassifiedToolResult)

def EvidenceCall.run (index : ReadOnlyEvidenceIndex κ ν) :
    EvidenceCall κ ν → ReadOnlyEvidenceIndex κ ν
  | .lookup key validation => (index.lookup bytesDigest key validation).2
  | .insert key validation result => (index.insert bytesDigest key validation result).2

/-- A result over the byte limit is not stored, and the one before it stays. -/
def EvidenceCall.op (maxSizeBytes : ℕ) : EvidenceCall κ ν → Op κ (EvidenceEntry ν)
  | .lookup key _ => .touch key
  | .insert key validation result =>
    if result.status ≠ .executed then .skip
    else if maxSizeBytes < result.content.utf8ByteSize then .skip
    else .store key ⟨validation, bytesDigest result.content, result.content⟩

/-! ## Every run -/

lemma FileCall.run_eq (cache : FileStateCache ι) (call : FileCall ι) :
    call.run cache = cache.apply CachedFileState.contentBytes (call.op cache.maxSizeBytes) := by
  cases call with
  | insert path =>
    have hmax : (Cache.pop cache CachedFileState.contentBytes (normalizePath path)).2.maxSizeBytes =
        cache.maxSizeBytes := by
      unfold Cache.pop
      split <;> rfl
    simp only [run, op, FileStateCache.insertEntry, hmax]
    split_ifs <;> rfl
  | get | matchesOpened | remove | clear => rfl

omit [DecidableEq ι] in
lemma FileCall.op_fits {maxSizeBytes : ℕ} {call : FileCall ι} {key : List PathComponent}
    {entry : CachedFileState ι} (h : call.op maxSizeBytes = .store key entry) :
    entry.contentBytes ≤ maxSizeBytes := by
  cases call with
  | insert =>
    rw [op] at h
    split_ifs at h with hfits
    cases h
    exact not_lt.1 hfits
  | get | matchesOpened | remove | clear => cases h

lemma EvidenceCall.run_eq (index : ReadOnlyEvidenceIndex κ ν) (call : EvidenceCall κ ν) :
    call.run bytesDigest index =
      index.apply EvidenceEntry.size (call.op bytesDigest index.maxSizeBytes) := by
  cases call with
  | lookup => rfl
  | insert =>
    simp only [run, op, ReadOnlyEvidenceIndex.insert]
    split_ifs <;> rfl

omit [DecidableEq κ] [DecidableEq ν] in
lemma EvidenceCall.op_fits {maxSizeBytes : ℕ} {call : EvidenceCall κ ν} {key : κ}
    {entry : EvidenceEntry ν} (h : call.op bytesDigest maxSizeBytes = .store key entry) :
    entry.size ≤ maxSizeBytes := by
  cases call with
  | lookup => cases h
  | insert =>
    rw [op] at h
    split_ifs at h with _ hfits
    cases h
    exact not_lt.1 hfits

theorem caches_follow_histories :
    (∀ path other : List PathComponent,
      normalizePath path = normalizePath other ↔ Relation.EqvGen Lexical path other) ∧
    (∀ (config : FileCacheConfig) (calls : List (FileCall ι)),
      let initial := FileStateCache.new config
      let cache := calls.foldl FileCall.run initial
      let ops := calls.map (FileCall.op config.maxSizeBytes)
      Addressable CachedFileState.contentBytes initial FileCall.run calls →
      Serves CachedFileState.contentBytes initial FileCall.run (FileCall.op config.maxSizeBytes)
        calls ∧
      ∀ path,
        (∀ state ∈ (cache.get path).1, state ∈ (lastStored ops (normalizePath path)).map
          (·.state)) ∧
        ∀ identity digest offset limit,
          ∀ answer ∈ (cache.matchesOpened path identity digest offset limit).1,
            answer ∈ (lastStored ops (normalizePath path)).map
              (·.matchesOpened identity digest offset limit)) ∧
    ∀ (maxEntries maxSizeBytes : ℕ) (calls : List (EvidenceCall κ ν)),
      let initial := ReadOnlyEvidenceIndex.withLimits maxEntries maxSizeBytes
      let index := calls.foldl (EvidenceCall.run bytesDigest) initial
      let op := EvidenceCall.op bytesDigest maxSizeBytes
      Addressable EvidenceEntry.size initial (EvidenceCall.run bytesDigest) calls →
      Serves EvidenceEntry.size initial (EvidenceCall.run bytesDigest) op calls ∧
      ∀ key validation, ∀ result ∈ (index.lookup bytesDigest key validation).1,
        ∃ entry ∈ lastStored (calls.map op) key,
          result = ⟨entry.content, .cacheHit⟩ ∧ entry.validation = validation := by
  refine ⟨fun _ _ => normalizePath_eq_iff, fun config calls => ?_, fun _ maxSizeBytes calls => ?_⟩
  · intro initial cache ops hmemory
    have hserves : Serves _ initial _ (FileCall.op config.maxSizeBytes) calls :=
      serves_of_step (fun other call (h : _ = config.maxSizeBytes) =>
        h ▸ FileCall.run_eq other call) (fun _ _ _ h => FileCall.op_fits h) rfl hmemory
    have hfound : ∀ {γ : Type} (f : CachedFileState ι → γ) path,
        ∀ answer ∈ ((Cache.get cache (normalizePath path)).1.map f),
          answer ∈ (lastStored ops (normalizePath path)).map f := by
      intro γ f path answer hanswer
      obtain ⟨entry, hget, rfl⟩ := Option.map_eq_some_iff.1 hanswer
      rw [hserves.get hget]
      rfl
    exact ⟨hserves, fun path => ⟨hfound _ path, fun _ _ _ _ => hfound _ path⟩⟩
  · intro initial index op hmemory
    have hserves : Serves _ initial _ (EvidenceCall.op bytesDigest maxSizeBytes) calls :=
      serves_of_step
        (fun other call (h : _ = maxSizeBytes) => h ▸ EvidenceCall.run_eq bytesDigest other call)
        (fun _ _ _ h => EvidenceCall.op_fits bytesDigest h) rfl hmemory
    refine ⟨hserves, fun key validation result hresult => ?_⟩
    obtain ⟨entry, hget, hresult⟩ := Option.bind_eq_some_iff.1 hresult
    simp only [Option.bind_eq_bind, Option.bind_eq_some_iff, Option.guard_eq_some'] at hresult
    obtain ⟨-, ⟨hvalidation, -⟩, hresult⟩ := hresult
    exact ⟨entry, hserves.get hget, (Option.some.inj hresult).symm, hvalidation⟩

theorem caches_follow_some_histories :
    let calls : List (FileCall ℕ) :=
      [.insert [.rootDir, .normal "a"] ⟨⟨"text", none, none⟩, none, none⟩,
        .insert [.normal "b"] ⟨⟨"other", none, none⟩, some 7, some []⟩,
        .get [.rootDir, .normal "b", .parentDir, .normal "a"], .clear]
    let lookups : List (EvidenceCall ℕ ℕ) :=
      [.insert 1 2 ⟨"text", .executed⟩, .lookup 1 2, .insert 3 4 ⟨"too long", .executed⟩]
    Serves CachedFileState.contentBytes (FileStateCache.new ⟨2, 8⟩) FileCall.run (FileCall.op 8)
        calls ∧
      Serves EvidenceEntry.size (ReadOnlyEvidenceIndex.withLimits 1 6) (EvidenceCall.run id)
        (EvidenceCall.op id 6) lookups := by
  intro calls lookups
  have h := @caches_follow_histories ℕ _ ℕ ℕ _ _ id
  exact ⟨(h.2.1 ⟨2, 8⟩ calls (.inl (by decide))).1, (h.2.2 1 6 lookups (.inl (by decide))).1⟩

end SolarisMesh.Tools
