import Mathlib.Data.List.Infix
import SolarisMesh.Lib.Json

/-!
# Paths in JSON values

Following a path of keys, and writing a value at a path. What lies on the way and is not an object
is replaced by one. Writes at paths of which none leads to another do not disturb each other: the
value has what was written, the objects on the way, and nothing else.
-/

namespace SolarisMesh.Lib.Json

open List

/-- Follow the keys. -/
def descend (value : Json) : List String → Option Json
  | [] => some value
  | key :: path => (value.get key).bind fun member => descend member path

/-- Replace a member, or add it. -/
def setMember (key : String) (value : Json) : List (String × Json) → List (String × Json)
  | [] => [(key, value)]
  | (other, member) :: members =>
    if other = key then (key, value) :: members
    else (other, member) :: setMember key value members

def membersOf : Json → List (String × Json)
  | .object members => members
  | _ => []

/-- Write a value at a path. -/
def write (value : Json) : List String → Json → Json
  | [], _ => value
  | key :: path, root =>
    .object (setMember key (write value path (((membersOf root).lookup key).getD (.object [])))
      (membersOf root))

/-! ## One write -/

lemma get_eq (key : String) (value : Json) : value.get key = (membersOf value).lookup key := by
  cases value <;> rfl

lemma lookup_cons_ite (other key : String) (value : Json) (members : List (String × Json)) :
    ((key, value) :: members).lookup other =
      if other = key then some value else members.lookup other := by
  rw [lookup_cons]
  by_cases hkey : other = key
  · rw [if_pos hkey, beq_iff_eq.2 hkey]
  · rw [if_neg hkey, beq_eq_false_iff_ne.2 hkey]

lemma lookup_setMember (key other : String) (value : Json) (members : List (String × Json)) :
    (setMember key value members).lookup other =
      if other = key then some value else members.lookup other := by
  induction members with
  | nil => exact lookup_cons_ite other key value []
  | cons member members ih =>
    rw [setMember]
    by_cases hmember : member.1 = key
    · rw [if_pos hmember, lookup_cons_ite, lookup_cons_ite, hmember]
      split_ifs <;> rfl
    · rw [if_neg hmember, lookup_cons_ite, lookup_cons_ite, ih]
      by_cases hother : other = member.1
      · rw [if_pos hother, if_pos hother, if_neg (hother ▸ hmember)]
      · rw [if_neg hother, if_neg hother]

lemma get_write (value : Json) (key other : String) (path : List String) (root : Json) :
    (write value (key :: path) root).get other =
      if other = key then some (write value path ((root.get key).getD (.object [])))
      else root.get other := by
  rw [write, get, lookup_setMember, get_eq, get_eq]

lemma descend_append (value : Json) (path path' : List String) :
    value.descend (path ++ path') = (value.descend path).bind (·.descend path') := by
  induction path generalizing value with
  | nil => rfl
  | cons key path ih =>
    rw [cons_append, descend, descend, Option.bind_assoc]
    exact congrArg _ (funext ih)

/-- What is written is found. -/
lemma descend_write (value : Json) (path below : List String) (root : Json) :
    (write value path root).descend (path ++ below) = value.descend below := by
  induction path generalizing root with
  | nil => rfl
  | cons key path ih =>
    rw [cons_append, descend, get_write, if_pos rfl]
    exact ih _

variable {path : List String} {writes : List (List String × Json)}

/-- A write is not seen from a path that has parted from it. -/
lemma descend_write_of_apart (value : Json) {other : List String} (root : Json)
    (h : ¬ path <+: other) (h' : ¬ other <+: path) :
    (write value path root).descend other = root.descend other := by
  induction path generalizing other root with
  | nil => exact absurd nil_prefix h
  | cons key path ih =>
    cases other with
    | nil => exact absurd nil_prefix h'
    | cons key' other =>
      rw [descend, descend, get_write]
      by_cases hkey : key' = key
      · subst hkey
        rw [prefix_cons_inj] at h h'
        rw [if_pos rfl, Option.bind_some, ih _ h h']
        cases root.get key' with
        | some member => rfl
        | none =>
          -- a fresh object has no members
          cases other with
          | nil => exact absurd nil_prefix h'
          | cons => rfl
      · rw [if_neg hkey]

/-! ## Several writes -/

/-- No path leads to the other. -/
def Apart (path other : List String) : Prop := ¬ path <+: other ∧ ¬ other <+: path

def IsObject (value : Json) : Prop := ∃ members, value = .object members

/-- An object with the values that were written, and with nothing else but the way to them. -/
structure Written (writes : List (List String × Json)) (root : Json) : Prop where
  isObject : root.IsObject
  found : ∀ entry ∈ writes, ∀ below, root.descend (entry.1 ++ below) = entry.2.descend below
  known : ∀ path, path ≠ [] → (root.descend path).isSome = true →
    ∃ entry ∈ writes, entry.1 <+: path ∨ path <+: entry.1

lemma written_nil : Written [] (.object []) where
  isObject := ⟨[], rfl⟩
  found := by simp
  known := by
    rintro (_ | ⟨key, path⟩) hpath hsome
    · exact absurd rfl hpath
    · cases hsome

variable {root : Json}

lemma Written.write (h : Written writes root) (hpath : path ≠ []) (value : Json)
    (hapart : ∀ entry ∈ writes, Apart entry.1 path) :
    Written (writes ++ [(path, value)]) (Json.write value path root) where
  isObject := by
    cases path with
    | nil => exact absurd rfl hpath
    | cons => exact ⟨_, rfl⟩
  found := by
    refine forall_mem_append.2 ⟨fun entry hentry below => ?_,
      forall_mem_singleton.2 fun below => descend_write value path below root⟩
    obtain ⟨haway, haway'⟩ := hapart entry hentry
    rw [descend_write_of_apart value root ?_ ?_, h.found entry hentry]
    · intro hleads
      rcases prefix_or_prefix_of_prefix hleads (prefix_append entry.1 below) with h | h
      · exact haway' h
      · exact haway h
    · exact fun hleads => haway ((prefix_append _ _).trans hleads)
  known := by
    intro other hother hsome
    by_cases hbelow : path <+: other
    · exact ⟨(path, value), by simp, .inl hbelow⟩
    by_cases habove : other <+: path
    · exact ⟨(path, value), by simp, .inr habove⟩
    rw [descend_write_of_apart value root hbelow habove] at hsome
    obtain ⟨entry, hentry, hknown⟩ := h.known other hother hsome
    exact ⟨entry, mem_append_left _ hentry, hknown⟩

lemma Written.foldl (h : Written writes root) {more : List (List String × Json)}
    (hpaths : ∀ entry ∈ more, entry.1 ≠ [])
    (hapart : (writes ++ more).Pairwise fun entry other => Apart entry.1 other.1) :
    Written (writes ++ more)
      (more.foldl (fun root entry => Json.write entry.2 entry.1 root) root) := by
  induction more generalizing writes root with
  | nil => simpa using h
  | cons entry more ih =>
    rw [← singleton_append, ← append_assoc] at hapart ⊢
    refine ih (h.write (hpaths entry mem_cons_self) entry.2 ?_)
      (fun other hother => hpaths other (mem_cons_of_mem _ hother)) hapart
    intro other hother
    have hpairs := (pairwise_append.1 hapart).1
    exact (pairwise_append.1 hpairs).2.2 other hother entry (mem_singleton_self _)

/-- On the way to a value there is an object with a member. -/
lemma Written.way (h : Written writes root) {entry : List String × Json} (hentry : entry ∈ writes)
    (hpath : path <+: entry.1) (hne : path ≠ entry.1) :
    ∃ key member, ((root.descend path).bind (get key)) = some member := by
  obtain ⟨rest, hrest⟩ := hpath
  cases rest with
  | nil => exact absurd (by simpa using hrest) hne
  | cons key rest =>
    have hfound := h.found entry hentry []
    rw [append_nil, ← hrest, descend_append] at hfound
    cases hat : root.descend path with
    | none =>
      rw [hat] at hfound
      cases hfound
    | some value =>
      rw [hat, Option.bind_some] at hfound
      obtain ⟨member, hmember, -⟩ := Option.bind_eq_some_iff.1 hfound
      exact ⟨key, member, hmember⟩

/-! ## Values that differ in the order of members -/

/-- The same below every path, but for the order of the members of objects. -/
def Alike (value other : Json) : Prop :=
  ∀ path, value.descend path = other.descend path ∨
    ∃ below below', value.descend path = some below ∧ other.descend path = some below' ∧
      below.IsObject ∧ below'.IsObject

lemma isObject_of_get {value member : Json} {key : String} (h : value.get key = some member) :
    value.IsObject := by
  cases value with
  | object members => exact ⟨members, rfl⟩
  | _ => cases h

lemma Written.object_at (h : Written writes root) {entry : List String × Json}
    (hentry : entry ∈ writes) (hpath : path <+: entry.1) (hne : path ≠ entry.1) :
    ∃ below, root.descend path = some below ∧ below.IsObject := by
  obtain ⟨key, member, hmember⟩ := h.way hentry hpath hne
  obtain ⟨below, hbelow, hget⟩ := Option.bind_eq_some_iff.1 hmember
  exact ⟨below, hbelow, isObject_of_get hget⟩

/-- The order of the writes does not matter. -/
lemma Written.alike {writes' : List (List String × Json)} {root' : Json} (h : Written writes root)
    (h' : Written writes' root') (hsame : ∀ entry, entry ∈ writes ↔ entry ∈ writes') :
    Alike root root' := by
  intro path
  by_cases hinside : ∃ entry ∈ writes, entry.1 <+: path
  · obtain ⟨entry, hentry, below, rfl⟩ := hinside
    rw [h.found entry hentry, h'.found entry ((hsame entry).1 hentry)]
    exact .inl rfl
  by_cases hway : ∃ entry ∈ writes, path <+: entry.1
  · obtain ⟨entry, hentry, hpath⟩ := hway
    have hne : path ≠ entry.1 := fun heq => hinside ⟨entry, hentry, heq ▸ prefix_rfl⟩
    obtain ⟨below, hbelow, hobject⟩ := h.object_at hentry hpath hne
    obtain ⟨below', hbelow', hobject'⟩ := h'.object_at ((hsame entry).1 hentry) hpath hne
    exact .inr ⟨below, below', hbelow, hbelow', hobject, hobject'⟩
  by_cases hroot : path = []
  · subst hroot
    exact .inr ⟨root, root', rfl, rfl, h.isObject, h'.isObject⟩
  have hnone : ∀ {writes : List (List String × Json)} {root : Json}, Written writes root →
      (∀ entry ∈ writes, ¬ (entry.1 <+: path ∨ path <+: entry.1)) → root.descend path = none := by
    intro writes root h hnot
    by_contra hsome
    obtain ⟨entry, hentry, hknown⟩ := h.known path hroot (Option.isSome_iff_ne_none.2 hsome)
    exact hnot entry hentry hknown
  have hnot : ∀ entry ∈ writes, ¬ (entry.1 <+: path ∨ path <+: entry.1) := by
    rintro entry hentry (hknown | hknown)
    · exact hinside ⟨entry, hentry, hknown⟩
    · exact hway ⟨entry, hentry, hknown⟩
  left
  rw [hnone h hnot, hnone h' fun entry hentry => hnot entry ((hsame entry).2 hentry)]

end SolarisMesh.Lib.Json
