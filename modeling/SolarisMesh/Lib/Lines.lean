import Mathlib.Data.List.Basic

/-!
# Texts of lines

A text over any alphabet is a list of lines, each with its separator, and an unfinished tail.
Cutting a text of lines at any place leaves the lines that are whole before the cut and a tail
without a separator.
-/

namespace SolarisMesh.Lib.Lines

open List

variable {α β : Type*} [DecidableEq α] {sep : α}

/-- Put a letter before a text that is split already. -/
def extend (sep a : α) (parts : List (List α) × List α) : List (List α) × List α :=
  if a = sep then ([] :: parts.1, parts.2)
  else
    match parts with
    | ([], tail) => ([], a :: tail)
    | (line :: lines, tail) => ((a :: line) :: lines, tail)

/-- The lines before their separators and what follows the last separator. -/
def split (sep : α) : List α → List (List α) × List α
  | [] => ([], [])
  | a :: rest => extend sep a (split sep rest)

/-- Each line with its separator. -/
def join (sep : α) (lines : List (List α)) : List α := lines.flatMap (· ++ [sep])

/-- The items that fit whole, one after the other, into so much room. -/
def whole (size : β → ℕ) : ℕ → List β → List β
  | _, [] => []
  | room, item :: items =>
    if size item ≤ room then item :: whole size (room - size item) items else []

@[simp] lemma extend_sep (parts : List (List α) × List α) :
    extend sep sep parts = ([] :: parts.1, parts.2) := by
  rw [extend.eq_def, if_pos rfl]

lemma extend_tail {a : α} (ha : a ≠ sep) (tail : List α) :
    extend sep a ([], tail) = ([], a :: tail) := by
  rw [extend, if_neg ha]

lemma extend_line {a : α} (ha : a ≠ sep) (line : List α) (lines : List (List α))
    (tail : List α) : extend sep a (line :: lines, tail) = ((a :: line) :: lines, tail) := by
  rw [extend, if_neg ha]

omit [DecidableEq α] in
@[simp] lemma join_nil : join sep [] = [] := rfl

omit [DecidableEq α] in
lemma join_cons (line : List α) (lines : List (List α)) :
    join sep (line :: lines) = line ++ sep :: join sep lines := by
  rw [join, flatMap_cons, append_assoc]
  rfl

omit [DecidableEq α] in
lemma join_append (lines lines' : List (List α)) :
    join sep (lines ++ lines') = join sep lines ++ join sep lines' := flatMap_append

variable {tail : List α}

lemma split_of_not_mem (h : sep ∉ tail) : split sep tail = ([], tail) := by
  induction tail with
  | nil => rfl
  | cons a tail ih =>
    rw [mem_cons, not_or] at h
    rw [split, ih h.2, extend_tail (Ne.symm h.1)]

lemma split_cons_line {line : List α} (h : sep ∉ line) (rest : List α) :
    split sep (line ++ sep :: rest) = (line :: (split sep rest).1, (split sep rest).2) := by
  induction line with
  | nil => rw [nil_append, split, extend_sep]
  | cons a line ih =>
    rw [mem_cons, not_or] at h
    rw [cons_append, split, ih h.2, extend_line (Ne.symm h.1)]

lemma split_join {lines : List (List α)} (hlines : ∀ line ∈ lines, sep ∉ line)
    (htail : sep ∉ tail) : split sep (join sep lines ++ tail) = (lines, tail) := by
  induction lines with
  | nil => exact split_of_not_mem htail
  | cons line lines ih =>
    rw [join_cons, append_assoc, cons_append,
      split_cons_line (hlines line mem_cons_self),
      ih fun l hl => hlines l (mem_cons_of_mem _ hl)]

variable (sep) in
/-- A text is its lines and its tail. -/
lemma join_split (text : List α) :
    join sep (split sep text).1 ++ (split sep text).2 = text := by
  induction text with
  | nil => rfl
  | cons a text ih =>
    rw [split]
    generalize split sep text = parts at ih
    obtain ⟨lines, tail⟩ := parts
    by_cases ha : a = sep
    · rw [ha, extend_sep, join_cons, nil_append, cons_append, ih]
    · cases lines with
      | nil =>
        rw [extend_tail ha]
        exact congrArg (a :: ·) ih
      | cons line lines =>
        rw [extend_line ha]
        rw [join_cons] at ih ⊢
        exact congrArg (a :: ·) ih

lemma split_eq_of_eq {text : List α} {lines : List (List α)} (heq : text = join sep lines ++ tail)
    (hlines : ∀ line ∈ lines, sep ∉ line) (htail : sep ∉ tail) :
    split sep text = (lines, tail) := by
  rw [heq, split_join hlines htail]

variable (sep) in
lemma not_mem_of_split (text : List α) :
    (∀ line ∈ (split sep text).1, sep ∉ line) ∧ sep ∉ (split sep text).2 := by
  induction text with
  | nil => exact ⟨forall_mem_nil _, not_mem_nil⟩
  | cons a text ih =>
    rw [split]
    generalize split sep text = parts at ih
    obtain ⟨lines, tail⟩ := parts
    by_cases ha : a = sep
    · rw [ha, extend_sep]
      exact ⟨forall_mem_cons.2 ⟨not_mem_nil, ih.1⟩, ih.2⟩
    · have hcons : ∀ {rest : List α}, sep ∉ rest → sep ∉ a :: rest := fun h hmem =>
        (mem_cons.1 hmem).elim (fun heq => ha heq.symm) h
      cases lines with
      | nil =>
        rw [extend_tail ha]
        exact ⟨forall_mem_nil _, hcons ih.2⟩
      | cons line lines =>
        rw [extend_line ha]
        obtain ⟨hline, hlines⟩ := forall_mem_cons.1 ih.1
        exact ⟨forall_mem_cons.2 ⟨hcons hline, hlines⟩, ih.2⟩

/-- A text that goes on without a separator. -/
lemma split_append_tail {more : List α} (text : List α) (h : sep ∉ more) :
    split sep (text ++ more) = ((split sep text).1, (split sep text).2 ++ more) := by
  obtain ⟨hlines, htail⟩ := not_mem_of_split sep text
  refine split_eq_of_eq ?_ hlines fun hmem => (mem_append.1 hmem).elim htail h
  rw [← append_assoc, join_split]

/-- A text that goes on with the end of a line. -/
lemma split_append_line {more : List α} (text rest : List α) (h : sep ∉ more) :
    split sep (text ++ (more ++ sep :: rest)) =
      ((split sep text).1 ++ ((split sep text).2 ++ more) :: (split sep rest).1,
        (split sep rest).2) := by
  obtain ⟨hlines, htail⟩ := not_mem_of_split sep text
  obtain ⟨hlines', htail'⟩ := not_mem_of_split sep rest
  refine split_eq_of_eq ?_ (fun line hline => ?_) htail'
  · rw [join_append, join_cons, append_assoc, append_assoc, append_assoc,
      cons_append, join_split, ← append_assoc _ _ (more ++ _), join_split]
  · rcases mem_append.1 hline with hline | hline
    · exact hlines line hline
    · rcases mem_cons.1 hline with rfl | hline
      · exact fun hmem => (mem_append.1 hmem).elim htail h
      · exact hlines' line hline

variable (sep) in
/-- Either there is no separator or there is a first one. -/
lemma not_mem_or_eq_append (text : List α) :
    sep ∉ text ∨ ∃ line rest, sep ∉ line ∧ text = line ++ sep :: rest := by
  by_cases h : sep ∈ text
  · obtain ⟨line, rest, heq, hline⟩ := eq_append_cons_of_mem h
    exact .inr ⟨line, rest, hline, heq⟩
  · exact .inl h

variable {items : List β}

omit [DecidableEq α] in
/-- The lines that are whole before the cut survive it. -/
lemma take_join {write : β → List α} (h : ∀ item ∈ items, sep ∉ write item) (cut : ℕ) :
    ∃ tail, sep ∉ tail ∧ (join sep (items.map write)).take cut =
      join sep ((whole (fun item => (write item).length + 1) cut items).map write) ++ tail := by
  induction items generalizing cut with
  | nil => exact ⟨[], not_mem_nil, by simp [whole]⟩
  | cons item items ih =>
    rw [map_cons, join_cons, whole]
    by_cases hfits : (write item).length + 1 ≤ cut
    · obtain ⟨tail, htail, heq⟩ := ih (fun i hi => h i (mem_cons_of_mem _ hi))
        (cut - ((write item).length + 1))
      refine ⟨tail, htail, ?_⟩
      rw [if_pos hfits, map_cons, join_cons, append_assoc, cons_append, ← heq,
        take_append, take_of_length_le (by omega),
        show cut - (write item).length = cut - ((write item).length + 1) + 1 by omega,
        take_succ_cons]
    · refine ⟨(write item).take cut, fun hmem => h item mem_cons_self (mem_of_mem_take hmem), ?_⟩
      rw [if_neg hfits, map_nil, join_nil, nil_append, take_append_of_le_length (by omega)]

omit [DecidableEq α] in
lemma take_join_append {write : β → List α} (h : ∀ item ∈ items, sep ∉ write item)
    (htail : sep ∉ tail) (cut : ℕ) :
    ∃ tail', sep ∉ tail' ∧ (join sep (items.map write) ++ tail).take cut =
      join sep ((whole (fun item => (write item).length + 1) cut items).map write) ++ tail' := by
  obtain ⟨torn, htorn, heq⟩ := take_join h cut
  refine ⟨torn ++ tail.take (cut - (join sep (items.map write)).length), fun hmem => ?_, ?_⟩
  · rcases mem_append.1 hmem with hmem | hmem
    · exact htorn hmem
    · exact htail (mem_of_mem_take hmem)
  · rw [take_append, heq, append_assoc]

lemma whole_isInitial {size : β → ℕ} {room : ℕ} :
    whole size room items <+: items := by
  induction items generalizing room with
  | nil => exact prefix_rfl
  | cons item items ih =>
    rw [whole]
    split_ifs
    · exact (prefix_cons_inj item).2 ih
    · exact nil_prefix

end SolarisMesh.Lib.Lines
