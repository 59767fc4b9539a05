import Mathlib.Data.List.Basic

/-!
# Cutting a buffer at a delimiter

A buffer that grows is cut at every occurrence of a delimiter, from the left. What was cut does not
depend on how the buffer has grown, and neither does what a state machine makes of the pieces.
-/

namespace SolarisMesh.Lib.Delimited

open List

variable {α : Type} [DecidableEq α] {delimiter : List α}

/-- What stands before the first delimiter, and what follows it. -/
def cut (delimiter : List α) : List α → Option (List α × List α)
  | [] => none
  | c :: rest =>
    if delimiter.isPrefixOf (c :: rest) then some ([], (c :: rest).drop delimiter.length)
    else (cut delimiter rest).map fun (piece, rest) => (c :: piece, rest)

/-- The pieces before the delimiters and what is left, cut at most so many times. -/
def drain (delimiter : List α) : ℕ → List α → List (List α) × List α
  | 0, buffer => ([], buffer)
  | fuel + 1, buffer =>
    match cut delimiter buffer with
    | none => ([], buffer)
    | some (piece, rest) =>
      let (pieces, rest) := drain delimiter fuel rest
      (piece :: pieces, rest)

def pieces (delimiter buffer : List α) : List (List α) × List α :=
  drain delimiter buffer.length buffer

variable {buffer piece rest : List α}

lemma cut_eq_some (h : cut delimiter buffer = some (piece, rest)) :
    buffer = piece ++ delimiter ++ rest := by
  induction buffer generalizing piece with
  | nil => cases h
  | cons c buffer ih =>
    rw [cut] at h
    split at h
    · next hstart =>
      cases h
      obtain ⟨tail, htail⟩ := isPrefixOf_iff_prefix.1 hstart
      rw [← htail, drop_left, nil_append]
    · obtain ⟨⟨found, after⟩, hfound, heq⟩ := Option.map_eq_some_iff.1 h
      cases heq
      rw [ih hfound]
      rfl

lemma cut_append (h : cut delimiter buffer = some (piece, rest)) (more : List α) :
    cut delimiter (buffer ++ more) = some (piece, rest ++ more) := by
  induction buffer generalizing piece with
  | nil => cases h
  | cons c buffer ih =>
    have hlength := congrArg List.length (cut_eq_some h)
    rw [cons_append, cut]
    rw [cut] at h
    split at h
    · next hstart =>
      cases h
      obtain ⟨tail, htail⟩ := isPrefixOf_iff_prefix.1 hstart
      have hmore : delimiter.isPrefixOf (c :: (buffer ++ more)) = true :=
        isPrefixOf_iff_prefix.2 ⟨tail ++ more, by rw [← append_assoc, htail]; rfl⟩
      rw [if_pos hmore, ← cons_append, ← htail, append_assoc, drop_left,
        drop_left]
    · next hstart =>
      obtain ⟨⟨found, after⟩, hfound, heq⟩ := Option.map_eq_some_iff.1 h
      cases heq
      -- the delimiter is found further on, so that there is room for it here
      have hmore : ¬ delimiter.isPrefixOf (c :: (buffer ++ more)) = true := by
        intro hmore
        refine hstart (List.isPrefixOf_iff_prefix.2 ?_)
        refine prefix_of_prefix_length_le (List.isPrefixOf_iff_prefix.1 hmore)
          (prefix_append (c :: buffer) more) ?_
        simp only [length_append, length_cons] at hlength ⊢
        omega
      rw [if_neg hmore, ih hfound]
      rfl

section NonEmpty

variable (hdelimiter : delimiter ≠ [])

include hdelimiter

lemma length_of_cut (h : cut delimiter buffer = some (piece, rest)) :
    rest.length < buffer.length := by
  have hlength := congrArg List.length (cut_eq_some h)
  have hpos := length_pos_of_ne_nil hdelimiter
  simp only [length_append] at hlength
  omega

lemma drain_fuel {fuel : ℕ} (h : buffer.length ≤ fuel) :
    drain delimiter fuel buffer = pieces delimiter buffer := by
  suffices hall : ∀ n fuel fuel', ∀ buffer : List α, buffer.length ≤ n → buffer.length ≤ fuel →
      buffer.length ≤ fuel' → drain delimiter fuel buffer = drain delimiter fuel' buffer from
    hall _ _ _ buffer Nat.le.refl h Nat.le.refl
  intro n
  induction n with
  | zero =>
    intro fuel fuel' buffer hn _ _
    obtain rfl := eq_nil_of_length_eq_zero (Nat.le_zero.1 hn)
    cases fuel <;> cases fuel' <;> rfl
  | succ n ih =>
    rintro (_ | fuel) (_ | fuel') buffer hn hfuel hfuel'
    · rfl
    · obtain rfl := eq_nil_of_length_eq_zero (Nat.le_zero.1 hfuel)
      rfl
    · obtain rfl := eq_nil_of_length_eq_zero (Nat.le_zero.1 hfuel')
      rfl
    · rw [drain, drain]
      cases hcut : cut delimiter buffer with
      | none => rfl
      | some found =>
        have hlt := length_of_cut hdelimiter hcut
        dsimp only
        rw [ih fuel fuel' found.2 (by omega) (by omega) (by omega)]

lemma pieces_of_cut (h : cut delimiter buffer = some (piece, rest)) :
    pieces delimiter buffer =
      (piece :: (pieces delimiter rest).1, (pieces delimiter rest).2) := by
  have hlt := length_of_cut hdelimiter h
  obtain ⟨n, hn⟩ : ∃ n, buffer.length = n + 1 := Nat.exists_eq_succ_of_ne_zero (by omega)
  rw [pieces, hn, drain, h]
  dsimp only
  rw [drain_fuel hdelimiter (by omega)]

omit hdelimiter in
lemma pieces_of_not_cut (h : cut delimiter buffer = none) :
    pieces delimiter buffer = ([], buffer) := by
  unfold pieces
  cases buffer.length with
  | zero => rfl
  | succ n => rw [drain, h]

/-- Cutting leaves a shorter buffer. -/
lemma cut_induction {P : List α → Prop} (uncut : ∀ buffer, cut delimiter buffer = none → P buffer)
    (step : ∀ buffer piece rest, cut delimiter buffer = some (piece, rest) → P rest → P buffer)
    (buffer : List α) : P buffer := by
  obtain ⟨n, hn⟩ : ∃ n, buffer.length = n := ⟨_, rfl⟩
  induction n using Nat.strongRecOn generalizing buffer with
  | ind n ih =>
    cases hcut : cut delimiter buffer with
    | none => exact uncut buffer hcut
    | some found => exact step _ _ _ hcut (ih _ (hn ▸ length_of_cut hdelimiter hcut) _ rfl)

/-- The first delimiter is cut at. -/
lemma cut_of_prefix_drop {i : ℕ} (h : delimiter <+: buffer.drop i) :
    ∃ piece rest, cut delimiter buffer = some (piece, rest) ∧ piece.length ≤ i := by
  induction buffer generalizing i with
  | nil =>
    rw [drop_nil] at h
    exact absurd (prefix_nil.1 h) hdelimiter
  | cons c buffer ih =>
    rw [cut]
    by_cases hstart : delimiter.isPrefixOf (c :: buffer) = true
    · rw [if_pos hstart]
      exact ⟨[], _, rfl, Nat.zero_le i⟩
    · rw [if_neg hstart]
      cases i with
      | zero => exact absurd ( isPrefixOf_iff_prefix.2 h) hstart
      | succ i =>
        obtain ⟨piece, rest, hcut, hle⟩ := ih h
        exact ⟨c :: piece, rest, by rw [hcut]; rfl, Nat.succ_le_succ hle⟩

/-- What was cut stays cut when the buffer grows. -/
lemma pieces_append (buffer more : List α) :
    pieces delimiter (buffer ++ more) =
      ((pieces delimiter buffer).1 ++
          (pieces delimiter ((pieces delimiter buffer).2 ++ more)).1,
        (pieces delimiter ((pieces delimiter buffer).2 ++ more)).2) := by
  induction buffer using cut_induction hdelimiter with
  | uncut buffer hcut => simp [pieces_of_not_cut hcut]
  | step buffer piece rest hcut ih =>
    rw [pieces_of_cut hdelimiter (cut_append hcut more), pieces_of_cut hdelimiter hcut, ih]
    rfl

end NonEmpty

section Gather

variable {σ β : Type} (step : σ → α → σ × List β)

omit [DecidableEq α]

/-- What a state machine makes of the items, one after the other. -/
def gather : σ → List α → σ × List β
  | state, [] => (state, [])
  | state, item :: items =>
    let (state, made) := step state item
    let (state, more) := gather state items
    (state, made ++ more)

lemma gather_append (state : σ) (items more : List α) :
    gather step state (items ++ more) =
      ((gather step (gather step state items).1 more).1,
        (gather step state items).2 ++ (gather step (gather step state items).1 more).2) := by
  induction items generalizing state with
  | nil => rfl
  | cons item items ih =>
    simp only [cons_append, gather, ih, append_assoc]

lemma gather_eq_nil {step : σ → α → σ × List β} {P : α → Prop}
    (hstep : ∀ state item, (step state item).2 = [] ↔ P item) (state : σ) (items : List α) :
    (gather step state items).2 = [] ↔ ∀ item ∈ items, P item := by
  induction items generalizing state with
  | nil => simp [gather]
  | cons item items ih => simp [gather, hstep, ih]

end Gather

end SolarisMesh.Lib.Delimited
