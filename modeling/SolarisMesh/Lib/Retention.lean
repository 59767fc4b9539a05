import Mathlib.Data.List.Basic

/-!
# Bounded tables that never evict

A table of objects in the order they were met. An object is entered once: a candidate that is
the same object as an entry changes nothing. A table that is full refuses new objects, and
what it holds stays.
-/

namespace SolarisMesh.Lib.Retention

open List

variable {α : Type*} (same : α → α → Bool) (capacity : ℕ)

/-- Some entry is the same object as `candidate`. -/
def known (entries : List α) (candidate : α) : Bool :=
  entries.any (same · candidate)

/-- Enter `candidate` unless it is known; nothing if the table is full. -/
def retain (entries : List α) (candidate : α) : Option (List α) :=
  if known same entries candidate then some entries
  else if entries.length < capacity then some (entries ++ [candidate])
  else none

/-- Enter the candidates in turn, up to the first that finds the table full; the answer says
whether all were entered. -/
def retainAll (entries : List α) : List α → List α × Bool
  | [] => (entries, true)
  | candidate :: rest =>
    match retain same capacity entries candidate with
    | some entries => retainAll entries rest
    | none => (entries, false)

variable {same capacity} {entries after candidates : List α} {candidate : α}

lemma known_iff : known same entries candidate = true ↔
    ∃ entry ∈ entries, same entry candidate = true := by
  rw [known, any_eq_true]

lemma retain_eq_some (h : retain same capacity entries candidate = some after) :
    known same entries candidate = true ∧ after = entries ∨
      known same entries candidate = false ∧ after = entries ++ [candidate] := by
  unfold retain at h
  split at h
  · next hknown => exact .inl ⟨hknown, (Option.some.inj h).symm⟩
  · next hknown =>
    split at h
    · exact .inr ⟨Bool.eq_false_iff.2 hknown, (Option.some.inj h).symm⟩
    · cases h

lemma subset_of_retain (h : retain same capacity entries candidate = some after) :
    entries ⊆ after := by
  obtain ⟨-, rfl⟩ | ⟨-, rfl⟩ := retain_eq_some h
  · exact List.Subset.refl _
  · exact subset_append_left _ _

/-- Where only an object itself is the same, the candidate is entered. -/
lemma mem_of_retain (hsame : ∀ a b, same a b = true → a = b)
    (h : retain same capacity entries candidate = some after) : candidate ∈ after := by
  obtain ⟨hknown, rfl⟩ | ⟨-, rfl⟩ := retain_eq_some h
  · obtain ⟨entry, hentry, heq⟩ := known_iff.1 hknown
    rwa [← hsame _ _ heq]
  · exact mem_append_right _ mem_cons_self

lemma subset_retainAll : entries ⊆ (retainAll same capacity entries candidates).1 := by
  induction candidates generalizing entries with
  | nil => exact List.Subset.refl _
  | cons candidate rest ih =>
    unfold retainAll
    split
    · next after h => exact List.Subset.trans (subset_of_retain h) ih
    · exact List.Subset.refl _

/-- When all fit, exactly the new ones of pairwise different candidates are added. -/
lemma retainAll_eq_append (hdiffer : candidates.Pairwise fun a b => same a b = false)
    (h : (retainAll same capacity entries candidates).2 = true) :
    (retainAll same capacity entries candidates).1 =
      entries ++ candidates.filter fun candidate => !known same entries candidate := by
  induction candidates generalizing entries with
  | nil => simp [retainAll]
  | cons candidate rest ih =>
    obtain ⟨hfirst, hrest⟩ := pairwise_cons.1 hdiffer
    unfold retainAll at h ⊢
    split at h
    · next after hretain =>
      obtain ⟨hknown, rfl⟩ | ⟨hknown, rfl⟩ := retain_eq_some hretain
      · rw [filter_cons_of_neg (by simp [hknown])]
        exact ih hrest h
      · have hagree : ∀ later ∈ rest,
            known same (entries ++ [candidate]) later = known same entries later := by
          intro later hlater
          simp [known, hfirst later hlater]
        rw [ih hrest h, filter_cons_of_pos (by simp [hknown]), append_assoc,
          singleton_append]
        congr 2
        exact filter_congr fun later hlater => by rw [hagree later hlater]
    · cases h

lemma mem_retainAll (hsame : ∀ a b, same a b = true → a = b)
    (h : (retainAll same capacity entries candidates).2 = true)
      (hcandidate : candidate ∈ candidates) :
    candidate ∈ (retainAll same capacity entries candidates).1 := by
  induction candidates generalizing entries with
  | nil => cases hcandidate
  | cons first rest ih =>
    unfold retainAll at h ⊢
    split at h
    · next after hretain =>
      obtain rfl | hrest := mem_cons.1 hcandidate
      · exact subset_retainAll (mem_of_retain hsame hretain)
      · exact ih h hrest
    · cases h

/-- Entries stay pairwise different. -/
lemma pairwise_of_retain (hdiffer : entries.Pairwise fun a b => same a b = false)
    (h : retain same capacity entries candidate = some after) :
    after.Pairwise fun a b => same a b = false := by
  obtain ⟨-, rfl⟩ | ⟨hknown, rfl⟩ := retain_eq_some h
  · exact hdiffer
  · refine pairwise_append.2 ⟨hdiffer, pairwise_singleton _ _, fun entry hentry b hb => ?_⟩
    rw [mem_singleton.1 hb]
    exact Bool.eq_false_iff.2 fun hsame =>
      Bool.eq_false_iff.1 hknown (known_iff.2 ⟨entry, hentry, hsame⟩)

lemma pairwise_retainAll (hdiffer : entries.Pairwise fun a b => same a b = false) :
    (retainAll same capacity entries candidates).1.Pairwise fun a b => same a b = false := by
  induction candidates generalizing entries with
  | nil => exact hdiffer
  | cons candidate rest ih =>
    unfold retainAll
    split
    · next after h => exact ih (pairwise_of_retain hdiffer h)
    · exact hdiffer

end SolarisMesh.Lib.Retention
