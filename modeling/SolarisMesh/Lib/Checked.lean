import Mathlib.Algebra.Ring.Nat
import Mathlib.Data.List.Forall2

/-!
# Checked computations

Vocabulary for code that fails early: guards and lookups in `Except`, checked machine
arithmetic over `ℕ` and `ℤ`, and the inversion lemmas that take a successful
computation apart step by step.
-/

namespace SolarisMesh.Lib

open List

universe u v

variable {ε : Type u} {α β : Type v}

/-- Continue if `cond` holds, fail with `e` otherwise. -/
def require (cond : Bool) (e : ε) : Except ε Unit :=
  if cond then .ok () else .error e

/-- The value of an option, or the failure `e`. -/
def orElseThrow (e : ε) : Option α → Except ε α
  | some a => .ok a
  | none => .error e

@[simp] lemma require_eq_ok {cond : Bool} {e : ε} {u : Unit} :
    require cond e = .ok u ↔ cond = true := by
  cases cond <;> simp [require]

@[simp] lemma orElseThrow_eq_ok {e : ε} {o : Option α} {a : α} :
    orElseThrow e o = .ok a ↔ o = some a := by
  cases o <;> simp [orElseThrow]

/-- A successful sequence splits into its successful halves. -/
@[simp] lemma bind_eq_ok {x : Except ε α} {f : α → Except ε β} {b : β} :
    (x >>= f) = .ok b ↔ ∃ a, x = .ok a ∧ f a = .ok b := by
  cases x <;> simp [Bind.bind, Except.bind]

/-- A successful check and what follows it. -/
lemma check_bind_eq_ok {γ : Type} {x : Except ε Unit} {f : Unit → Except ε γ} {c : γ} :
    (x >>= f) = .ok c ↔ x = .ok () ∧ f () = .ok c := by
  cases x <;> simp [Bind.bind, Except.bind]

@[simp] lemma pure_eq_ok {a b : α} : (pure a : Except ε α) = .ok b ↔ a = b := by
  simp [Pure.pure, Except.pure]

lemma map_eq_ok {x : Except ε α} {f : α → β} {b : β} :
    x.map f = .ok b ↔ ∃ a, x = .ok a ∧ f a = b := by
  cases x <;> simp [Except.map]

@[simp] lemma mapError_eq_ok {x : Except ε α} {ε' : Type u} {f : ε → ε'} {a : α} :
    x.mapError f = .ok a ↔ x = .ok a := by
  cases x <;> simp [Except.mapError]

@[simp] lemma toOption_eq_some {x : Except ε α} {a : α} :
    x.toOption = some a ↔ x = .ok a := by
  cases x <;> simp [Except.toOption]

/-- The one value that passes a test is found. -/
lemma find?_eq_some_of_unique {p : α → Bool} {values : List α} {a : α} (ha : a ∈ values)
    (hp : p a = true) (hunique : ∀ b ∈ values, p b = true → b = a) : values.find? p = some a := by
  obtain ⟨b, hb⟩ := Option.isSome_iff_exists.1 (List.find?_isSome.2 ⟨a, ha, hp⟩)
  rw [hb, hunique b (mem_of_find?_eq_some hb) (List.find?_some hb)]

/-- What every step of a successful loop preserves holds at its end. -/
lemma foldlM_invariant {γ : Type v} {f : β → γ → Except ε β} (P : β → Prop) {values : List γ}
    (hstep : ∀ b value next, value ∈ values → P b → f b value = .ok next → P next) :
    ∀ {b last : β}, P b → values.foldlM f b = .ok last → P last := by
  induction values with
  | nil =>
    intro b last hb h
    rw [foldlM_nil, pure_eq_ok] at h
    rw [← h]
    exact hb
  | cons value values ih =>
    intro b last hb h
    rw [foldlM_cons, bind_eq_ok] at h
    obtain ⟨next, hnext, h⟩ := h
    have hnextP : P next := hstep b value next (mem_cons_self ..) hb hnext
    exact ih (fun b value next hmem => hstep b value next (mem_cons_of_mem _ hmem)) hnextP h

/-- Every element was mapped, in order. -/
lemma forM_eq_ok {ε α : Type} {f : α → Except ε Unit} {items : List α}
    (h : items.forM f = .ok ()) : ∀ item ∈ items, f item = .ok () := by
  induction items with
  | nil => simp
  | cons item items ih =>
    obtain ⟨hitem, hitems⟩ := check_bind_eq_ok.1 h
    exact forall_mem_cons.2 ⟨hitem, ih hitems⟩

lemma mapM_eq_ok {f : α → Except ε β} {values : List α} {results : List β} :
    values.mapM f = .ok results ↔ List.Forall₂ (fun a b => f a = .ok b) values results := by
  induction values generalizing results with
  | nil => rw [mapM_nil, pure_eq_ok, forall₂_nil_left_iff, eq_comm]
  | cons a values ih =>
    rw [mapM_cons]
    simp only [bind_eq_ok, pure_eq_ok, forall₂_cons_left_iff, ih]
    constructor
    · rintro ⟨b, hb, rest, hrest, rfl⟩
      exact ⟨b, rest, hb, hrest, rfl⟩
    · rintro ⟨b, rest, hb, hrest, rfl⟩
      exact ⟨b, hb, rest, hrest, rfl⟩

lemma exists_mem_of_mapM_eq_ok {f : α → Except ε β} {values : List α} {results : List β}
    (h : values.mapM f = .ok results) {a : α} (ha : a ∈ values) :
    ∃ b ∈ results, f a = .ok b := by
  obtain ⟨i, hi, rfl⟩ := mem_iff_getElem.1 ha
  have hall := mapM_eq_ok.1 h
  have hi' : i < results.length := hall.length_eq ▸ hi
  exact ⟨results[i], getElem_mem hi', hall.get hi hi'⟩

/-- A lookup of every value fails if one of them fails. -/
lemma mapM_orElseThrow (e : ε) (f : α → Option β) (values : List α) :
    values.mapM (fun a => orElseThrow e (f a)) =
      if values.all (fun a => (f a).isSome) then .ok (values.filterMap f) else .error e := by
  induction values with
  | nil => rfl
  | cons a values ih =>
    rw [mapM_cons, ih, all_cons, filterMap_cons]
    cases f a with
    | none => rfl
    | some b =>
      by_cases hall : values.all (fun a => (f a).isSome) = true
      · simp only [hall, orElseThrow, Option.isSome_some, Bool.and_self, if_true]
        rfl
      · simp only [hall, orElseThrow, Option.isSome_some, Bool.and_false, Bool.false_eq_true,
          if_false]
        rfl

/-! ## Machine integers -/

/-- Largest signed 64-bit value. -/
def i64Max : ℤ := 9223372036854775807

/-- Smallest signed 64-bit value. -/
def i64Min : ℤ := -9223372036854775808

/-- Largest unsigned 64-bit value. -/
def u64Max : ℕ := 18446744073709551615

/-- Signed addition that reports overflow. -/
def i64CheckedAdd (a b : ℤ) : Option ℤ :=
  if i64Min ≤ a + b ∧ a + b ≤ i64Max then some (a + b) else none

/-- Unsigned addition that reports overflow. -/
def u64CheckedAdd (a b : ℕ) : Option ℕ :=
  if a + b ≤ u64Max then some (a + b) else none

/-- Unsigned multiplication that reports overflow. -/
def u64CheckedMul (a b : ℕ) : Option ℕ :=
  if a * b ≤ u64Max then some (a * b) else none

/-- Unsigned subtraction that reports overflow. -/
def u64CheckedSub (a b : ℕ) : Option ℕ :=
  if b ≤ a then some (a - b) else none

/-- Signed addition that stops at the bounds. -/
def i64SaturatingAdd (a b : ℤ) : ℤ :=
  max i64Min (min i64Max (a + b))

def u32Max : ℕ := 2 ^ 32 - 1

/-- Unsigned addition that stops at the bound. -/
def u64SaturatingAdd (a b : ℕ) : ℕ := min u64Max (a + b)

/-- Signed subtraction that stops at the bounds. -/
def i64SaturatingSub (a b : ℤ) : ℤ :=
  max i64Min (min i64Max (a - b))

lemma i64CheckedAdd_eq_some {a b c : ℤ} (h : i64CheckedAdd a b = some c) : c = a + b := by
  unfold i64CheckedAdd at h
  split at h <;> simp_all

lemma u64CheckedAdd_eq_some {a b c : ℕ} (h : u64CheckedAdd a b = some c) : c = a + b := by
  unfold u64CheckedAdd at h
  split at h <;> simp_all

/-! ## Blank text -/

/-- The Unicode `White_Space` characters. -/
def isWhitespace (c : Char) : Bool :=
  let n := c.toNat
  (9 ≤ n && n ≤ 13) || n == 0x20 || n == 0x85 || n == 0xA0 || n == 0x1680 ||
    (0x2000 ≤ n && n ≤ 0x200A) || n == 0x2028 || n == 0x2029 || n == 0x202F ||
    n == 0x205F || n == 0x3000

/-- Nothing is left of `s` once whitespace is trimmed. -/
def isBlank (s : String) : Bool :=
  s.toList.all isWhitespace

end SolarisMesh.Lib
