import Mathlib.Algebra.Order.BigOperators.Group.List
import Mathlib.Algebra.Order.Ring.Nat
import Mathlib.Data.List.Induction
import SolarisMesh.Lib.Checked

/-!
# Caches that evict what was not used for longest

A cache holds entries with sizes, the latest use first, under a limit of their number and a limit of
their sizes, which it counts in a machine word. Over every history of operations the count is exact
and the limits hold, the entries are in the order of their last uses and have the values that were
stored last.

The map below such a cache is the `LruCache` of the `lru` crate, which is not part of the source.
Its `get`, `put`, `pop` and `pop_lru` are taken to be what is defined here on the list of entries.
-/

namespace SolarisMesh.Lib.Lru

open List

variable {κ β : Type}

structure Cache (κ β : Type) where
  capacity : ℕ
  pos : 0 < capacity
  maxSizeBytes : ℕ
  entries : List (κ × β) := []
  currentSizeBytes : ℕ := 0

def total (size : β → ℕ) (entries : List (κ × β)) : ℕ := (entries.map fun entry => size entry.2).sum

@[simp] lemma total_cons (size : β → ℕ) (entry : κ × β) (entries : List (κ × β)) :
    total size (entry :: entries) = size entry.2 + total size entries := rfl

lemma total_le_of_sublist {size : β → ℕ} {entries others : List (κ × β)} (h : entries <+ others) :
    total size entries ≤ total size others :=
  (h.map _).sum_le_sum fun _ _ => Nat.zero_le _

/-! ## Eviction -/

namespace Cache

variable (cache : Cache κ β) (size : β → ℕ)

def popLru : Cache κ β :=
  match cache.entries.getLast? with
  | none => cache
  | some entry =>
    { cache with
      entries := cache.entries.dropLast
      currentSizeBytes := cache.currentSizeBytes - size entry.2 }

/-- Evict until there is room for so many bytes; there are at most as many rounds as entries. -/
def makeRoom (newSize : ℕ) : ℕ → Cache κ β → Cache κ β
  | 0, cache => cache
  | rounds + 1, cache =>
    if cache.maxSizeBytes < u64SaturatingAdd cache.currentSizeBytes newSize ∧
      cache.entries ≠ [] then makeRoom newSize rounds (cache.popLru size)
    else cache

/-- Enter a key that is not there; a full cache evicts an entry. -/
def push (key : κ) (value : β) : Cache κ β :=
  let cache := if cache.entries.length = cache.capacity then cache.popLru size else cache
  { cache with
    entries := (key, value) :: cache.entries
    currentSizeBytes := (cache.currentSizeBytes + size value) % (u64Max + 1) }

def store (key : κ) (value : β) : Cache κ β :=
  (cache.makeRoom size (size value) cache.entries.length).push size key value

/-- The cache with other entries, counted exactly. -/
def holding (entries : List (κ × β)) : Cache κ β :=
  { cache with entries, currentSizeBytes := total size entries }

/-- What is kept of some entries beside a new one: the latest uses,
and with one more of them a limit would be exceeded. -/
structure Keeps (newSize : ℕ) (entries kept : List (κ × β)) : Prop where
  latest : kept <+: entries
  needed : ∀ entry, kept ++ [entry] <+: entries →
    cache.maxSizeBytes < total size (kept ++ [entry]) + newSize ∨ cache.capacity < kept.length + 2

variable {cache size} {key : κ} {value : β} {entries kept : List (κ × β)} {newSize : ℕ}

lemma popLru_holding (entries : List (κ × β)) (last : κ × β) :
    (cache.holding size (entries ++ [last])).popLru size = cache.holding size entries := by
  simp [popLru, holding, total]

lemma makeRoom_holding {rounds : ℕ} (h : entries.length ≤ rounds) :
    ∃ kept, (cache.holding size entries).makeRoom size newSize rounds = cache.holding size kept ∧
      kept <+: entries ∧
      (kept = [] ∨ u64SaturatingAdd (total size kept) newSize ≤ cache.maxSizeBytes) ∧
      ∀ entry, kept ++ [entry] <+: entries →
        cache.maxSizeBytes < total size (kept ++ [entry]) + newSize := by
  have hself : ∀ (entries : List (κ × β)) entry, ¬ entries ++ [entry] <+: entries := by
    intro entries entry hle
    have hlength := hle.length_le
    rw [length_append, length_singleton] at hlength
    omega
  induction rounds generalizing entries with
  | zero =>
    obtain rfl := eq_nil_of_length_eq_zero (Nat.le_zero.1 h)
    exact ⟨[], rfl, List.prefix_rfl, .inl rfl, fun _ hle => absurd hle (hself _ _)⟩
  | succ rounds ih =>
    rw [makeRoom]
    split_ifs with hfull
    · obtain rfl | ⟨init, last, rfl⟩ := entries.eq_nil_or_concat'
      · exact absurd rfl hfull.2
      obtain ⟨kept, heq, hle, hroom, hneeded⟩ := @ih init (by simpa using h)
      refine ⟨kept, by rw [popLru_holding, heq], hle.trans ( prefix_append _ _), hroom,
        fun entry hentry => ?_⟩
      obtain hall | hentry := prefix_concat_iff.1 hentry
      · rw [hall]
        exact lt_of_lt_of_le hfull.1 (Nat.min_le_right _ _)
      · exact hneeded entry hentry
    · refine ⟨entries, rfl, List.prefix_rfl, ?_, fun _ hle => absurd hle (hself _ _)⟩
      exact (not_and_or.1 hfull).symm.imp not_not.1 not_lt.1

lemma push_holding (key : κ) (value : β) (hcount : entries.length ≤ cache.capacity) :
    ∃ kept, (cache.holding size entries).push size key value =
        { cache with
          entries := (key, value) :: kept
          currentSizeBytes := (total size kept + size value) % (u64Max + 1) } ∧
      kept <+: entries ∧ kept.length < cache.capacity ∧
      (kept = entries ∨ cache.capacity < kept.length + 2) := by
  unfold push
  by_cases hfull : entries.length = cache.capacity
  · obtain rfl | ⟨kept, last, rfl⟩ := entries.eq_nil_or_concat'
    · exact absurd cache.pos (hfull ▸ lt_irrefl _)
    have hlength : kept.length + 1 = cache.capacity := by simpa using hfull
    refine ⟨kept, ?_, prefix_append _ _, by omega, .inr (by omega)⟩
    rw [if_pos (show (cache.holding size _).entries.length = (cache.holding size _).capacity
      from hfull), popLru_holding]
    rfl
  · refine ⟨entries, ?_, List.prefix_rfl, by omega, .inl rfl⟩
    rw [if_neg (show ¬ (cache.holding size _).entries.length = (cache.holding size _).capacity
      from hfull)]
    rfl

/-- Where the values do not reach the word's bound no count wraps. -/
lemma store_holding (key : κ) (value : β) (hcount : entries.length ≤ cache.capacity) :
    ∃ kept, ((cache.holding size entries).store size key value).entries = (key, value) :: kept ∧
      cache.Keeps size (size value) entries kept ∧ kept.length < cache.capacity ∧
      (size value ≤ cache.maxSizeBytes →
        cache.maxSizeBytes < u64Max ∨ total size ((key, value) :: kept) ≤ u64Max →
        (cache.holding size entries).store size key value =
          cache.holding size ((key, value) :: kept) ∧
        total size ((key, value) :: kept) ≤ cache.maxSizeBytes) := by
  obtain ⟨room, hmake, hle, hroom, hneeded⟩ :=
    @makeRoom_holding _ _ cache size entries (size value) _ le_rfl
  obtain ⟨kept, hpush, hkept, hlength, hall⟩ :=
    @push_holding _ _ cache size room key value (hle.length_le.trans hcount)
  have hstore : (cache.holding size entries).store size key value = _ :=
    (congrArg (push · size key value) hmake).trans hpush
  refine ⟨kept, by rw [hstore], ⟨hkept.trans hle, fun entry hentry => ?_⟩, hlength,
    fun hvalue hmemory => ?_⟩
  · obtain rfl | hlimit := hall
    · exact .inl (hneeded entry hentry)
    · exact .inr hlimit
  have htotal : total size kept ≤ total size room := total_le_of_sublist hkept.sublist
  have hroom : total size room = 0 ∨ min u64Max (total size room + size value) ≤
    cache.maxSizeBytes :=
    hroom.imp_left fun hnil => congrArg (total size) hnil
  rw [total_cons] at hmemory ⊢
  dsimp only at hmemory ⊢
  rw [hstore, Nat.mod_eq_of_lt (by omega), Nat.add_comm]
  exact ⟨rfl, by omega⟩

end Cache

/-! ## Operations -/

variable [DecidableEq κ]

def find (key : κ) (entries : List (κ × β)) : Option β := (entries.find? (·.1 = key)).map (·.2)

def others (key : κ) (entries : List (κ × β)) : List (κ × β) := entries.filter (·.1 ≠ key)

namespace Cache

variable (cache : Cache κ β) (size : β → ℕ) (key : κ)

/-- A lookup is a use. -/
def get : Option β × Cache κ β :=
  match find key cache.entries with
  | none => (none, cache)
  | some value => (some value, { cache with entries := (key, value) :: others key cache.entries })

def pop : Option β × Cache κ β :=
  match find key cache.entries with
  | none => (none, cache)
  | some value => (some value,
      { cache with
        entries := others key cache.entries
        currentSizeBytes := cache.currentSizeBytes - size value })

def clear : Cache κ β := { cache with entries := [], currentSizeBytes := 0 }

end Cache

/-- What is done to a cache. -/
inductive Op (κ β : Type) where
  | touch (key : κ)
  | store (key : κ) (value : β)
  | remove (key : κ)
  | clear
  | skip

def Cache.apply (size : β → ℕ) (cache : Cache κ β) : Op κ β → Cache κ β
  | .touch key => (cache.get key).2
  | .store key value => (cache.pop size key).2.store size key value
  | .remove key => (cache.pop size key).2
  | .clear => cache.clear
  | .skip => cache

/-! ## What a history says -/

/-- The keys in the order of their last uses, the latest first. -/
def recentKeys (ops : List (Op κ β)) : List κ :=
  ops.foldl (fun keys op =>
    match op with
    | .touch key | .store key _ => key :: keys.filter (· ≠ key)
    | .remove _ | .clear | .skip => keys) []

/-- The value that was stored last under a key and not removed since. -/
def lastStored (ops : List (Op κ β)) : κ → Option β :=
  ops.foldl (fun stored op =>
    match op with
    | .store key value => Function.update stored key (some value)
    | .remove key => Function.update stored key none
    | .clear => fun _ => none
    | .touch _ | .skip => stored) fun _ => none

variable (size : β → ℕ) (cache : Cache κ β)

/-- The entries after a history, under the limits of the cache. -/
structure Follows (ops : List (Op κ β)) (entries : List (κ × β)) : Prop where
  bytes : total size entries ≤ cache.maxSizeBytes
  count : entries.length ≤ cache.capacity
  order : entries.map (·.1) <+ recentKeys ops
  stored : ∀ entry ∈ entries, lastStored ops entry.1 = some entry.2

/-- What an operation leaves of the entries. -/
def Leaves (entries after : List (κ × β)) : Op κ β → Prop
  | .touch _ => after ~ entries
  | .store key value =>
    ∃ kept, after = (key, value) :: kept ∧ cache.Keeps size (size value) (others key entries) kept
  | .remove key => after = others key entries
  | .clear => after = []
  | .skip => after = entries

section Operations

variable {size cache} {ops : List (Op κ β)} {entries : List (κ × β)} {key : κ} {value : β}

lemma nodup_recentKeys (ops : List (Op κ β)) : (recentKeys ops).Nodup := by
  refine foldlRecOn ops _ nodup_nil fun keys hkeys op _ => ?_
  cases op with
  | touch key | store key => exact nodup_cons.2 ⟨by simp, hkeys.filter _⟩
  | remove | clear | skip => exact hkeys

lemma Cache.get_fst : (cache.get key).1 = find key cache.entries := by
  unfold get
  cases find key cache.entries <;> rfl

lemma find_eq_none (h : find key entries = none) : others key entries = entries := by
  rw [find, Option.map_eq_none_iff] at h
  exact filter_eq_self.2 fun entry hentry => by simpa using List.find?_eq_none.1 h entry hentry

lemma find_eq_some (hnodup : (entries.map (·.1)).Nodup) (h : find key entries = some value) :
    (key, value) ∈ entries ∧ (key, value) :: others key entries ~ entries := by
  obtain ⟨entry, hfind, rfl⟩ := Option.map_eq_some_iff.1 h
  obtain rfl : entry.1 = key := by simpa using List.find?_some hfind
  have hmem := mem_of_find?_eq_some hfind
  refine ⟨hmem, ?_⟩
  obtain ⟨before, after, rfl⟩ := append_of_mem hmem
  rw [(perm_middle.map _).nodup_iff, map_cons, nodup_cons] at hnodup
  have hrest : ∀ other ∈ before ++ after, decide (other.1 ≠ entry.1) = true := fun other hother =>
    decide_eq_true fun heq => hnodup.1 (heq ▸ mem_map_of_mem hother)
  rw [others, filter_append, filter_cons_of_neg (by simp), ← filter_append,
    filter_eq_self.2 hrest]
  exact perm_middle.symm

namespace Follows

lemma nodup (h : Follows size cache ops entries) : (entries.map (·.1)).Nodup :=
  h.order.nodup (nodup_recentKeys ops)

lemma find (h : Follows size cache ops entries) (hfind : Lru.find key entries = some value) :
    lastStored ops key = some value :=
  h.stored _ (find_eq_some h.nodup hfind).1

lemma pop (h : Follows size cache ops entries) (key : κ) :
    ((cache.holding size entries).pop size key).2 = cache.holding size (others key entries) := by
  unfold Cache.pop
  cases hfind : Lru.find key (cache.holding size entries).entries with
  | none => exact congrArg (cache.holding size) (find_eq_none hfind).symm
  | some value =>
    have htotal : total size ((key, value) :: others key entries) = total size entries :=
      ((find_eq_some h.nodup hfind).2.map _).sum_nat
    dsimp only [Cache.holding]
    rw [← htotal, total_cons, Nat.add_sub_cancel_left]

lemma get (h : Follows size cache ops entries) (key : κ) :
    ∃ after, ((cache.holding size entries).get key).2 = cache.holding size after ∧
      after ~ entries ∧
      (after = others key entries ∨ ∃ value, after = (key, value) :: others key entries) := by
  unfold Cache.get
  cases hfind : Lru.find key (cache.holding size entries).entries with
  | none => exact ⟨_, rfl, .rfl, .inl (find_eq_none hfind).symm⟩
  | some value =>
    have hperm := (find_eq_some h.nodup hfind).2
    refine ⟨_, ?_, hperm, .inr ⟨value, rfl⟩⟩
    rw [Cache.holding, total, ← (hperm.map _).sum_nat]
    rfl

lemma apply_store (h : Follows size cache ops entries) (key : κ) (value : β) :
    (cache.holding size entries).apply size (.store key value) =
        (cache.holding size (others key entries)).store size key value ∧
      (others key entries).length ≤ cache.capacity :=
  ⟨by rw [Cache.apply, h.pop], (length_filter_le _ _).trans h.count⟩

lemma leaves (h : Follows size cache ops entries) (op : Op κ β) :
    Leaves size cache entries ((cache.holding size entries).apply size op).entries op := by
  cases op with
  | touch key =>
    obtain ⟨after, heq, hperm, -⟩ := h.get key
    rwa [Leaves, Cache.apply, heq]
  | store key value =>
    obtain ⟨heq, hcount⟩ := h.apply_store key value
    obtain ⟨kept, hentries, hkeeps, -⟩ := Cache.store_holding key value hcount
    exact ⟨kept, heq ▸ hentries, hkeeps⟩
  | remove key => exact congrArg Cache.entries (h.pop key)
  | clear | skip => rfl

lemma map_others (h : Follows size cache ops entries) (key : κ) :
    (others key entries).map (·.1) <+ (recentKeys ops).filter (· ≠ key) := by
  rw [others, show (fun entry : κ × β => decide (entry.1 ≠ key)) =
    (decide <| · ≠ key) ∘ (·.1) from rfl, ← filter_map]
  exact h.order.filter _

lemma stored_others (h : Follows size cache ops entries) (stored : Option β) {entry : κ × β}
    (hentry : entry ∈ others key entries) :
    Function.update (lastStored ops) key stored entry.1 = some entry.2 := by
  have hne : entry.1 ≠ key := by simpa using (mem_filter.1 hentry).2
  rw [Function.update_of_ne hne]
  exact h.stored entry (mem_filter.1 hentry).1

lemma apply (h : Follows size cache ops entries) (op : Op κ β)
    (hfits : ∀ key value, op = .store key value → size value ≤ cache.maxSizeBytes)
    (hmemory : cache.maxSizeBytes < u64Max ∨
      total size ((cache.holding size entries).apply size op).entries ≤ u64Max) :
    ∃ after, (cache.holding size entries).apply size op = cache.holding size after ∧
      Follows size cache (ops ++ [op]) after := by
  cases op with
  | touch key =>
    obtain ⟨after, heq, hperm, horder⟩ := h.get key
    have htotal : total size after = total size entries := (hperm.map _).sum_nat
    refine ⟨after, heq, htotal.trans_le h.bytes, hperm.length_eq.trans_le h.count, ?_, ?_⟩
    · rw [recentKeys, foldl_append]
      obtain rfl | ⟨value, rfl⟩ := horder
      · exact (h.map_others key).cons key
      · exact (h.map_others key).cons_cons key
    · rw [lastStored, foldl_append]
      exact fun entry hentry => h.stored entry (hperm.mem_iff.1 hentry)
  | store key value =>
    obtain ⟨hstore, hcount⟩ := h.apply_store key value
    obtain ⟨kept, hentries, hkeeps, hlength, hexact⟩ := Cache.store_holding key value hcount
    rw [hstore, hentries] at hmemory
    obtain ⟨heq, hbytes⟩ := hexact (hfits key value rfl) hmemory
    refine ⟨_, hstore.trans heq, hbytes, hlength, ?_, ?_⟩
    · rw [recentKeys, foldl_append]
      exact ((hkeeps.latest.sublist.map _).trans (h.map_others key)).cons_cons key
    · rw [lastStored, foldl_append]
      exact forall_mem_cons.2 ⟨Function.update_self .., fun entry hentry =>
        h.stored_others _ (hkeeps.latest.subset hentry)⟩
  | remove key =>
    have hsub : others key entries <+ entries := filter_sublist
    refine ⟨_, h.pop key, (total_le_of_sublist hsub).trans h.bytes,
      hsub.length_le.trans h.count, ?_, ?_⟩
    · rw [recentKeys, foldl_append]
      exact (hsub.map _).trans h.order
    · rw [lastStored, foldl_append]
      exact fun entry hentry => h.stored_others _ hentry
  | clear =>
    exact ⟨[], rfl, Nat.zero_le _, Nat.zero_le _, nil_sublist _, forall_mem_nil _⟩
  | skip =>
    refine ⟨_, rfl, h.bytes, h.count, ?_, ?_⟩
    · rw [recentKeys, foldl_append]
      exact h.order
    · rw [lastStored, foldl_append]
      exact h.stored

end Follows

/-! ## Runs of calls -/

variable {ε : Type} (step : Cache κ β → ε → Cache κ β) (op : ε → Op κ β) (calls : List ε)

variable (size cache) in
/-- The contents that a run holds at one time lie in memory; only a limit of all of it needs
that. -/
def Addressable : Prop :=
  cache.maxSizeBytes < u64Max ∨
    ∀ done, done <+: calls → total size (done.foldl step cache).entries ≤ u64Max

variable (size cache) in
/-- A run leaves what its operations say, counted exactly, and so does every next call. -/
def Serves : Prop :=
  ∃ entries, calls.foldl step cache = cache.holding size entries ∧
    Follows size cache (calls.map op) entries ∧
    ∀ call, Leaves size cache entries (step (cache.holding size entries) call).entries (op call)

variable {step op calls}

lemma serves_of_step
    (hstep : ∀ other call, other.maxSizeBytes = cache.maxSizeBytes →
      step other call = other.apply size (op call))
    (hfits : ∀ call key value, op call = .store key value → size value ≤ cache.maxSizeBytes)
    (hempty : cache = cache.holding size []) (hmemory : Addressable size cache step calls) :
    Serves size cache step op calls := by
  suffices h : ∃ entries, calls.foldl step cache = cache.holding size entries ∧
      Follows size cache (calls.map op) entries by
    obtain ⟨entries, heq, h⟩ := h
    refine ⟨entries, heq, h, fun call => ?_⟩
    rw [hstep (cache.holding size entries) call rfl]
    exact h.leaves (op call)
  induction calls using reverseRecOn with
  | nil => exact ⟨[], hempty, Nat.zero_le _, Nat.zero_le _, nil_sublist _, forall_mem_nil _⟩
  | append_singleton calls call ih =>
    obtain ⟨entries, heq, h⟩ := ih <| hmemory.imp_right fun hmemory done hdone =>
      hmemory done (hdone.trans ( prefix_append _ _))
    have hnext : (calls ++ [call]).foldl step cache =
        (cache.holding size entries).apply size (op call) := by
      rw [foldl_append, heq]
      exact hstep _ call rfl
    rw [hnext, map_append]
    exact h.apply (op call) (hfits call)
      (hmemory.imp_right fun hmemory => hnext ▸ hmemory _ List.prefix_rfl)

lemma Serves.get (h : Serves size cache step op calls)
    (hget : ((calls.foldl step cache).get key).1 = some value) :
    lastStored (calls.map op) key = some value := by
  obtain ⟨entries, heq, hfollows, -⟩ := h
  rw [heq, Cache.get_fst] at hget
  exact hfollows.find hget

end Operations

end SolarisMesh.Lib.Lru
