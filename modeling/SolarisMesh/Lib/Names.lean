import Mathlib.Data.List.Basic
import Mathlib.Data.List.TakeWhile
import Mathlib.Data.Nat.Digits.Defs

/-!
# Names in trees

A name below a root is the root followed by a separator and anything. `InTree` is the order
this gives; two roots above one name are comparable. A name whose last part has no separator is
taken apart in one way only, and so is a list of names that are written with their lengths.
-/

namespace SolarisMesh.Lib.Names

open List

variable {α : Type*} (separator : α)

/-- `name` is `root` or stands below it. -/
def InTree (name root : List α) : Prop :=
  name = root ∨ ∃ rest, name = root ++ separator :: rest

variable {separator}

/-- What stands before the last separator and what stands after it. -/
lemma eq_of_append_separator {a b c d : List α} (hc : separator ∉ c) (hd : separator ∉ d)
    (h : a ++ separator :: c = b ++ separator :: d) : a = b ∧ c = d := by
  wlog hle : a.length ≤ b.length generalizing a b c d
  · exact (this hd hc h.symm (by omega)).imp Eq.symm Eq.symm
  obtain ⟨rest, rfl⟩ : a <+: b :=
    prefix_of_prefix_length_le ( prefix_append a _) (h ▸ prefix_append b _) hle
  rw [append_assoc, append_cancel_left_eq] at h
  cases rest with
  | nil => exact ⟨(append_nil a).symm, (cons.inj h).2⟩
  | cons first rest => exact absurd ((cons.inj h).2 ▸ mem_append_right _ mem_cons_self) hc

/-- What stands before the first separator and what stands after it. -/
lemma eq_of_separator_append {a b c d : List α} (ha : separator ∉ a) (hb : separator ∉ b)
    (h : a ++ separator :: c = b ++ separator :: d) : a = b ∧ c = d := by
  have hreversed : c.reverse ++ separator :: a.reverse = d.reverse ++ separator :: b.reverse := by
    simpa using congrArg List.reverse h
  obtain ⟨hafter, hbefore⟩ := eq_of_append_separator (mt mem_reverse.1 ha)
    (mt mem_reverse.1 hb) hreversed
  exact ⟨reverse_injective hbefore, reverse_injective hafter⟩

/-- With `next` right after `separator`, the names from `root` and the separator up to `root` and
`next` are those that start with the first. -/
lemma between_iff_initial [LT α] (hirrefl : ∀ c : α, ¬ c < c) {next : α} (hlt : separator < next)
    (hnext : ∀ c, ¬ c < separator → c < next → c = separator) (root name : List α) :
    ¬ name < root ++ [separator] ∧ name < root ++ [next] ↔ root ++ [separator] <+: name := by
  induction root generalizing name with
  | nil =>
    cases name with
    | nil => simp
    | cons c name =>
      simp only [nil_append, cons_lt_cons_iff, not_lt_nil, and_false, or_false,
        cons_prefix_cons, nil_prefix, and_true]
      constructor
      · exact fun h => (hnext c h.1 h.2).symm
      · rintro rfl
        exact ⟨hirrefl _, hlt⟩
  | cons first root ih =>
    cases name with
    | nil => simp
    | cons c name =>
      simp only [cons_append, cons_lt_cons_iff, cons_prefix_cons, ← ih]
      constructor
      · rintro ⟨hge, hless | ⟨rfl, hless⟩⟩
        · exact absurd (.inl hless) hge
        · exact ⟨rfl, fun h => hge (.inr ⟨rfl, h⟩), hless⟩
      · rintro ⟨rfl, hge, hless⟩
        refine ⟨?_, .inr ⟨rfl, hless⟩⟩
        rintro (h | ⟨-, h⟩)
        · exact hirrefl _ h
        · exact hge h

/-! ## The top of a name -/

section Top

variable [DecidableEq α]

variable (separator) in
/-- What stands before the first separator. -/
def top (name : List α) : List α := name.takeWhile (· ≠ separator)

/-- The names of a tree have one top. -/
lemma InTree.top_eq {name root : List α} (h : InTree separator name root) :
    top separator name = top separator root := by
  obtain rfl | ⟨rest, rfl⟩ := h
  · rfl
  · unfold top
    rw [takeWhile_append]
    split
    · next hall =>
      have hroot : root.takeWhile (fun c => decide (c ≠ separator)) = root :=
        (List.takeWhile_prefix _).eq_of_length hall
      rw [hroot]
      simp
    · rfl

end Top

/-! ## Names with their lengths -/

lemma colon_not_mem_digits (index : ℕ) : ':' ∉ Nat.toDigits 10 index := by
  intro hmem
  have hdigit := Nat.isDigit_of_mem_toDigits (by decide) (by decide) hmem
  exact absurd hdigit (by decide)

lemma toDigits_inj {a b : ℕ} (h : Nat.toDigits 10 a = Nat.toDigits 10 b) : a = b := by
  have hvalue := congrArg (fun digits => Nat.ofDigitChars 10 digits 0) h
  simpa [Nat.ofDigitChars_toDigits] using hvalue

/-- A name after a colon, its length in bytes and another colon. -/
def lengthPrefixed (value : String) : List Char :=
  ':' :: (Nat.toDigits 10 value.utf8ByteSize ++ ':' :: value.toList)

/-- Of two texts that start alike, the longer one has more bytes. -/
lemma eq_of_toList_append {a b : String} {rest : List Char} (h : b.toList = a.toList ++ rest)
    (hsize : a.utf8ByteSize = b.utf8ByteSize) : a = b ∧ rest = [] := by
  have hb : b = a ++ String.ofList rest := by
    rw [← String.toList_inj, h, String.toList_append, String.toList_ofList]
  rw [hb, String.utf8ByteSize_append, Nat.left_eq_add, String.utf8ByteSize_eq_zero_iff] at hsize
  have hrest : rest = [] := String.toList_ofList.symm.trans (congrArg String.toList hsize)
  refine ⟨String.toList_inj.1 ?_, hrest⟩
  rw [h, hrest, append_nil]

/-- The length says where the name ends, whatever follows it. -/
lemma lengthPrefixed_append_inj {a b : String} {rest rest' : List Char}
    (h : lengthPrefixed a ++ rest = lengthPrefixed b ++ rest') : a = b ∧ rest = rest' := by
  simp only [lengthPrefixed, cons_append, append_assoc, List.cons.injEq, true_and] at h
  obtain ⟨hdigits, hvalues⟩ :=
    eq_of_separator_append (colon_not_mem_digits _) (colon_not_mem_digits _) h
  have hsize := toDigits_inj hdigits
  rcases append_eq_append_iff.1 hvalues with
    ⟨more, hmore, hrest⟩ | ⟨more, hmore, hrest⟩
  · obtain ⟨rfl, rfl⟩ := eq_of_toList_append hmore hsize
    exact ⟨rfl, hrest⟩
  · obtain ⟨rfl, rfl⟩ := eq_of_toList_append hmore hsize.symm
    exact ⟨rfl, hrest.symm⟩

/-- Names that are written one after the other with their lengths can be read back. -/
lemma flatMap_lengthPrefixed_inj {values values' : List String}
    (h : values.flatMap lengthPrefixed = values'.flatMap lengthPrefixed) : values = values' := by
  induction values generalizing values' with
  | nil => cases values' with
    | nil => rfl
    | cons => cases h
  | cons value values ih => cases values' with
    | nil => cases h
    | cons value' values' =>
      rw [flatMap_cons, flatMap_cons] at h
      obtain ⟨rfl, hrest⟩ := lengthPrefixed_append_inj h
      rw [ih hrest]

end SolarisMesh.Lib.Names
