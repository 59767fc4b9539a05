import Mathlib.Tactic.Common

/-!
# Scopes

A scope is open, or a list of grants each of which lets some values through. One scope
encloses another when everything the inner one lets through passes the outer one too.
-/

namespace SolarisMesh.Lib.Scope

open List

variable {α β : Type}

/-- The inner scope lets nothing through that the outer scope holds back. -/
structure Enclosed (hits : β → α → Bool) (outerOpen : Bool) (outer : List α) (innerOpen : Bool)
    (inner : List α) : Prop where
  opened : innerOpen = true → outerOpen = true
  grants : outerOpen = false → ∀ value, inner.any (hits value) = true →
    outer.any (hits value) = true

variable {hits : β → α → Bool} {outerOpen innerOpen : Bool} {outer inner : List α}

section

variable (h : Enclosed hits outerOpen outer innerOpen inner)
include h

/-- Values that all pass the inner scope all pass the outer one. -/
lemma Enclosed.all {values : List β}
    (hinner : (innerOpen || values.all fun value => inner.any (hits value)) = true) :
    (outerOpen || values.all fun value => outer.any (hits value)) = true := by
  cases houter : outerOpen with
  | true => rfl
  | false =>
    have hclosed : innerOpen = false := by
      cases hopen : innerOpen with
      | false => rfl
      | true => exact absurd (h.opened hopen) (by rw [houter]; decide)
    rw [hclosed, Bool.false_or, all_eq_true] at hinner
    rw [Bool.false_or, all_eq_true]
    intro value hvalue
    exact h.grants houter value (hinner value hvalue)

/-- A demand for an open scope that the inner one meets is met by the outer one. -/
lemma Enclosed.not_demanded {demanded : Bool} (hinner : ¬(demanded && !innerOpen) = true) :
    ¬(demanded && !outerOpen) = true := by
  simp only [Bool.and_eq_true, Bool.not_eq_true', not_and, Bool.not_eq_false] at hinner ⊢
  exact fun hdemanded => h.opened (hinner hdemanded)

/-- A check that demands an open scope outright, or for a class of effects that lists no
values, and otherwise lets listed values pass through the grants. -/
lemma Enclosed.guarded {values : List β} (demanded : Bool) {exempt : Bool}
    (hinner : (if (demanded && !innerOpen) = true then false
      else if values.isEmpty = true then exempt || innerOpen
      else innerOpen || values.all fun value => inner.any (hits value)) = true) :
    (if (demanded && !outerOpen) = true then false
      else if values.isEmpty = true then exempt || outerOpen
      else outerOpen || values.all fun value => outer.any (hits value)) = true := by
  by_cases hdemanded : (demanded && !innerOpen) = true
  · rw [if_pos hdemanded] at hinner
    cases hinner
  rw [if_neg hdemanded] at hinner
  rw [if_neg (h.not_demanded hdemanded)]
  by_cases hempty : values.isEmpty = true
  · rw [if_pos hempty, Bool.or_eq_true] at hinner ⊢
    exact hinner.imp_right h.opened
  · rw [if_neg hempty] at hinner ⊢
    exact h.all hinner

/-- A condition on the value alone can be added to what a grant hits. -/
lemma Enclosed.and_right (condition : β → Bool) :
    Enclosed (fun value grant => hits value grant && condition value) outerOpen outer innerOpen
      inner where
  opened := h.opened
  grants houter value hinner := by
    obtain ⟨grant, hmem, hhit⟩ := any_eq_true.1 hinner
    rw [Bool.and_eq_true] at hhit
    obtain ⟨grant', hmem', hhit'⟩ := any_eq_true.1
      (h.grants houter value (any_eq_true.2 ⟨grant, hmem, hhit.1⟩))
    exact any_eq_true.2 ⟨grant', hmem', by rw [hhit', hhit.2]; rfl⟩

end

/-- Grants that are among the outer ones are enclosed. -/
lemma Enclosed.of_subset (hopened : innerOpen = true → outerOpen = true)
    (hsubset : outerOpen = false → inner ⊆ outer) :
    Enclosed hits outerOpen outer innerOpen inner where
  opened := hopened
  grants houter value hinner := by
    obtain ⟨grant, hmem, hhit⟩ := any_eq_true.1 hinner
    exact any_eq_true.2 ⟨grant, hsubset houter hmem, hhit⟩

end SolarisMesh.Lib.Scope
