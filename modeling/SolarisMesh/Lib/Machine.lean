import Mathlib.Data.List.Forall2
import Mathlib.Data.List.Induction

/-!
# Labelled machines and their runs

A machine takes an event in a state to the next state and an answer. A run is a list of
events; its trace is the list of the steps taken. The rules at the end prove a property of
whole runs from what one step preserves.
-/

namespace SolarisMesh.Lib

open List

variable {σ ε ω : Type*}

/-- A deterministic machine with states `σ`, events `ε` and answers `ω`. -/
structure Machine (σ ε ω : Type*) where
  step : σ → ε → σ × ω

section Answers

variable {α : Type*}

/-- The result of an operation, tagged with the answer it is. -/
def answering (tag : α → ω) (result : Except ε (σ × α)) : Except ε (σ × ω) :=
  result.map fun (state, value) => (state, tag value)

/-- The same of an operation that also leaves a state where it fails. -/
def answered (tag : α → ω) (result : σ × Except ε α) : σ × Except ε ω :=
  (result.1, result.2.map tag)

variable {tag : α → ω} {state : σ} {answer : ω}

lemma answering_eq_ok {result : Except ε (σ × α)}
    (h : answering tag result = .ok (state, answer)) :
    ∃ value, result = .ok (state, value) ∧ tag value = answer := by
  obtain error | ⟨after, value⟩ := result
  · cases h
  · cases h
    exact ⟨value, rfl, rfl⟩

lemma answered_eq_ok {result : σ × Except ε α} (h : answered tag result = (state, .ok answer)) :
    ∃ value, result = (state, .ok value) ∧ tag value = answer := by
  obtain ⟨after, error | value⟩ := result
  · cases h
  · cases h
    exact ⟨value, rfl, rfl⟩

end Answers

namespace Machine

variable (m : Machine σ ε ω)

variable (s : σ) (e : ε)

/-- The state after one event. -/
def next : σ := (m.step s e).1

/-- The answer to one event. -/
def answer : ω := (m.step s e).2

/-- The state after a list of events. -/
def run (s : σ) : List ε → σ
  | [] => s
  | e :: es => run (m.next s e) es

/-- One step of a run. -/
structure Step (σ ε ω : Type*) where
  before : σ
  event : ε
  answer : ω
  after : σ

/-- The step a machine takes from `s` at `e`. -/
def stepAt : Step σ ε ω := ⟨s, e, m.answer s e, m.next s e⟩

/-- The steps of a run, in order. -/
def trace (s : σ) : List ε → List (Step σ ε ω)
  | [] => []
  | e :: es => m.stepAt s e :: trace (m.next s e) es

@[simp] lemma run_nil : m.run s [] = s := rfl

@[simp] lemma run_cons (es : List ε) : m.run s (e :: es) = m.run (m.next s e) es := rfl

lemma run_append (es fs : List ε) : m.run s (es ++ fs) = m.run (m.run s es) fs := by
  induction es generalizing s with
  | nil => rfl
  | cons e es ih => exact ih (m.next s e)

@[simp] lemma trace_nil : m.trace s [] = [] := rfl

@[simp] lemma trace_cons (es : List ε) :
    m.trace s (e :: es) = m.stepAt s e :: m.trace (m.next s e) es := rfl

lemma trace_append (es fs : List ε) :
    m.trace s (es ++ fs) = m.trace s es ++ m.trace (m.run s es) fs := by
  induction es generalizing s with
  | nil => rfl
  | cons e es ih =>
    rw [cons_append, trace_cons, trace_cons, ih, run_cons, cons_append]

variable {es : List ε} {x : Step σ ε ω}

/-- A split of the trace is a split of the events. -/
lemma trace_eq_append_cons {s : σ} {xs ys : List (Step σ ε ω)}
    (h : m.trace s es = xs ++ x :: ys) :
    ∃ before e after, es = before ++ e :: after ∧ xs = m.trace s before ∧
      x = m.stepAt (m.run s before) e ∧ ys = m.trace (m.next (m.run s before) e) after := by
  induction xs generalizing s es with
  | nil =>
    cases es with
    | nil => cases h
    | cons e es =>
      obtain ⟨rfl, rfl⟩ := List.cons.inj h
      exact ⟨[], e, es, rfl, rfl, rfl, rfl⟩
  | cons y xs ih =>
    cases es with
    | nil => cases h
    | cons e es =>
      obtain ⟨rfl, htail⟩ := List.cons.inj h
      obtain ⟨before, e', after, rfl, rfl, rfl, rfl⟩ := ih htail
      exact ⟨e :: before, e', after, rfl, rfl, rfl, rfl⟩

/-- A step of the trace is taken in the state its prefix leads to. -/
lemma exists_of_mem_trace {s : σ} (h : x ∈ m.trace s es) :
    ∃ before after, es = before ++ x.event :: after ∧
      x = m.stepAt (m.run s before) x.event := by
  obtain ⟨xs, ys, hsplit⟩ := append_of_mem h
  obtain ⟨before, e, after, rfl, -, rfl, -⟩ := m.trace_eq_append_cons hsplit
  exact ⟨before, after, rfl, rfl⟩

lemma eq_stepAt_of_mem_trace {s : σ} (h : x ∈ m.trace s es) : x = m.stepAt x.before x.event := by
  obtain ⟨before, after, -, hx⟩ := m.exists_of_mem_trace h
  rw [hx]
  rfl

lemma event_mem_of_mem_trace {s : σ} (h : x ∈ m.trace s es) : x.event ∈ es := by
  obtain ⟨before, after, hes, -⟩ := m.exists_of_mem_trace h
  rw [hes]
  exact mem_append_right _ mem_cons_self

/-- The second step is taken some time after the first. -/
def After (x y : Step σ ε ω) : Prop :=
  ∃ before later, x = m.stepAt (m.run s before) x.event ∧
    y = m.stepAt (m.run s (before ++ x.event :: later)) y.event

/-- Of two steps of a trace one comes first. -/
lemma after_of_mem_trace {s : σ} {y : Step σ ε ω} (hx : x ∈ m.trace s es)
    (hy : y ∈ m.trace s es) :
    x = y ∨ m.After s x y ∨ m.After s y x := by
  induction es generalizing s with
  | nil => cases hx
  | cons e es ih =>
    rcases mem_cons.mp hx with rfl | hx <;> rcases mem_cons.mp hy with rfl | hy
    · exact .inl rfl
    · obtain ⟨before, _, _, hstep⟩ := m.exists_of_mem_trace hy
      exact .inr (.inl ⟨[], before, rfl, hstep⟩)
    · obtain ⟨before, _, _, hstep⟩ := m.exists_of_mem_trace hx
      exact .inr (.inr ⟨[], before, rfl, hstep⟩)
    · rcases ih hx hy with h | ⟨before, later, hxs, hys⟩ | ⟨before, later, hys, hxs⟩
      · exact .inl h
      · exact .inr (.inl ⟨e :: before, later, hxs, hys⟩)
      · exact .inr (.inr ⟨e :: before, later, hys, hxs⟩)

/-- The step a trace is split at and the steps behind it are steps of the trace. -/
lemma mem_of_split {s : σ} {xs ys : List (Step σ ε ω)} (h : m.trace s es = xs ++ x :: ys) :
    x ∈ m.trace s es ∧ ∀ y ∈ ys, y ∈ m.trace s es := by
  rw [h]
  exact ⟨mem_append_right _ mem_cons_self, fun y hy => mem_append_right _ (mem_cons_of_mem _ hy)⟩

variable {m}

variable {P : σ → Prop}

/-- What every step preserves holds after every run. -/
lemma run_invariant (hstep : ∀ s e, P s → P (m.next s e)) {s : σ} (h : P s) (es : List ε) :
    P (m.run s es) := by
  induction es generalizing s with
  | nil => exact h
  | cons e es ih => exact ih (hstep s e h)

/-- An invariant that relates the state to the steps taken so far. -/
lemma history_invariant {P : σ → List (Step σ ε ω) → Prop}
    (hstep : ∀ s xs e, P s xs → P (m.next s e) (xs ++ [m.stepAt s e]))
    {s : σ} (h : P s []) (es : List ε) : P (m.run s es) (m.trace s es) := by
  induction es using reverseRecOn with
  | nil => exact h
  | append_singleton es e ih =>
    rw [run_append, trace_append]
    exact hstep _ _ e ih

/-- What every step that meets `C` preserves holds after a run whose steps all meet it. -/
lemma run_of_trace {C : σ → ε → Prop} (hstep : ∀ s e, P s → C s e → P (m.next s e)) {s : σ}
    (h : P s) (hc : ∀ x ∈ m.trace s es, C x.before x.event) : P (m.run s es) := by
  induction es generalizing s with
  | nil => exact h
  | cons e es ih =>
    have hnext := hstep s e h (hc _ (mem_cons_self ..))
    exact ih hnext fun x hx => hc x (mem_cons_of_mem _ hx)

/-- It also holds before each step of the run. -/
lemma trace_invariant {C : σ → ε → Prop} (hstep : ∀ s e, P s → C s e → P (m.next s e)) {s : σ}
    (h : P s) (hc : ∀ x ∈ m.trace s es, C x.before x.event) : ∀ x ∈ m.trace s es, P x.before := by
  intro x hx
  obtain ⟨before, after, rfl, hbefore⟩ := m.exists_of_mem_trace hx
  rw [hbefore]
  refine run_of_trace hstep h fun y hy => hc y ?_
  rw [trace_append]
  exact mem_append_left _ hy

variable {R : σ → σ → Prop}

/-- A relation between the first and the last state of a run: reflexive, transitive and
kept by each step from an invariant state. -/
lemma run_relation (hrefl : ∀ s, R s s) (htrans : ∀ a b c, R a b → R b c → R a c)
    (hinv : ∀ s e, P s → P (m.next s e)) (hstep : ∀ s e, P s → R s (m.next s e)) {s : σ} (h : P s)
    (es : List ε) :
    R s (m.run s es) := by
  induction es generalizing s with
  | nil => exact hrefl s
  | cons e es ih => exact htrans _ _ _ (hstep s e h) (ih (hinv s e h))

/-- A reflexive and transitive relation that each step of a run keeps relates its ends. -/
lemma trace_relation (hrefl : ∀ s, R s s) (htrans : ∀ a b c, R a b → R b c → R a c) {s : σ}
    (hstep : ∀ x ∈ m.trace s es, R x.before x.after) : R s (m.run s es) := by
  induction es generalizing s with
  | nil => exact hrefl s
  | cons e es ih =>
    have hhead : R s (m.next s e) := hstep (m.stepAt s e) (mem_cons_self ..)
    exact htrans _ _ _ hhead (ih fun x hx => hstep x (mem_cons_of_mem _ hx))

/-- Such a relation holds between any two states a run passes through, in their order. -/
lemma trace_relation_between (hrefl : ∀ s, R s s) (htrans : ∀ a b c, R a b → R b c → R a c)
    {s : σ} (hstep : ∀ x ∈ m.trace s es, R x.before x.after) (early middle late : List ε)
    (hsplit : es = early ++ middle ++ late) : R (m.run s early) (m.run s (early ++ middle)) := by
  subst hsplit
  rw [m.run_append]
  refine trace_relation hrefl htrans fun x hx => hstep x ?_
  rw [m.trace_append, m.trace_append]
  exact mem_append_left _ (mem_append_right _ hx)

/-! ## Two machines side by side -/

/-- Two machines that take the same events: what related states and the condition of an event give
for the next states and the two steps holds along the whole run. -/
lemma trace_forall₂ {σ' ω' : Type*} {m' : Machine σ' ε ω'} {R : σ → σ' → Prop} {C : σ' → ε → Prop}
    {Q : Step σ ε ω → Step σ' ε ω' → Prop} (hstep : ∀ s t e, R s t → C t e →
      R (m.next s e) (m'.next t e) ∧ Q (m.stepAt s e) (m'.stepAt t e)) {s : σ} {t : σ'} (h : R s t)
    (hc : ∀ y ∈ m'.trace t es, C y.before y.event) :
    List.Forall₂ Q (m.trace s es) (m'.trace t es) := by
  induction es generalizing s t with
  | nil => exact .nil
  | cons e es ih =>
    obtain ⟨hnext, hQ⟩ := hstep s t e h (hc _ (mem_cons_self ..))
    exact .cons hQ (ih hnext fun y hy => hc y (mem_cons_of_mem _ hy))

end Machine

end SolarisMesh.Lib
