import Mathlib.Data.List.Basic
import Mathlib.Data.Int.Notation

/-!
# Fencing leases

A lease is granted with a fresh epoch, used, extended and released, and every use is
checked against the holder, the epoch and the expiry of the lease. Uses write records
with sequences taken from a counter that others also draw from. The owners are of an
arbitrary type and the times are arbitrary: nothing assumes a clock that advances.
-/

namespace SolarisMesh.Lib.Fencing

variable {O : Type*}

/-- The lease on one resource, with the last sequence allocated so far. -/
structure Lease (O : Type*) where
  holder : Option O
  epoch : ℕ
  expiry : ℤ
  last : ℕ

inductive Action (O : Type*) where
  | grant (owner : O) (expiry : ℤ)
  /-- A fenced operation at time `now`, which may extend the lease and write records. -/
  | use (owner : O) (epoch : ℕ) (now : ℤ) (extend : Option ℤ) (writes : List ℕ) (last : ℕ)
  | release (owner : O) (epoch : ℕ)
  /-- Sequences are allocated elsewhere. -/
  | allocate (last : ℕ)

namespace Lease

/-- The lease lets the action succeed. -/
def Allows (l : Lease O) : Action O → Prop
  | .grant _ _ => True
  | .use owner epoch now _ writes last =>
    l.holder = some owner ∧ l.epoch = epoch ∧ now < l.expiry ∧ l.last ≤ last ∧
      ∀ q ∈ writes, l.last < q ∧ q ≤ last
  | .release owner epoch => l.holder = some owner ∧ l.epoch = epoch
  | .allocate last => l.last ≤ last

def after (l : Lease O) : Action O → Lease O
  | .grant owner expiry => { l with holder := some owner, epoch := l.epoch + 1, expiry := expiry }
  | .use _ _ _ extend _ last => { l with expiry := extend.getD l.expiry, last := last }
  | .release _ _ => { l with holder := none, expiry := 0 }
  | .allocate last => { l with last := last }

/-- Every action of the list is allowed where it is taken. -/
def Allowed (l : Lease O) : List (Action O) → Prop
  | [] => True
  | a :: as => l.Allows a ∧ (l.after a).Allowed as

/-- The token `(owner, epoch)` has been fenced off for good. -/
def Lost (l : Lease O) (epoch : ℕ) : Prop :=
  epoch < l.epoch ∨ (l.epoch = epoch ∧ l.holder = none)

lemma epoch_le_after (l : Lease O) (a : Action O) : l.epoch ≤ (l.after a).epoch := by
  cases a <;> simp [after]

variable {l : Lease O} {extend : Option ℤ} {writes : List ℕ} {as : List (Action O)}

lemma last_le_after {a : Action O} (h : l.Allows a) : l.last ≤ (l.after a).last := by
  cases a with
  | grant | release => exact Nat.le_refl _
  | use => exact h.2.2.2.1
  | allocate => exact h

lemma epoch_le_foldl (l : Lease O) (as : List (Action O)) :
    l.epoch ≤ (as.foldl after l).epoch := by
  induction as generalizing l with
  | nil => exact Nat.le_refl _
  | cons a as ih => exact Nat.le_trans (l.epoch_le_after a) (ih _)

/-! ## A fenced token never works again -/

variable {epoch last : ℕ} {owner : O} {now : ℤ}

lemma Lost.after (h : l.Lost epoch) {a : Action O} (ha : l.Allows a) :
    (l.after a).Lost epoch := by
  cases a with
  | grant =>
    left
    show epoch < l.epoch + 1
    rcases h with h | ⟨h, -⟩ <;> omega
  | release => exact h.imp id fun h => ⟨h.1, rfl⟩
  | use => exact h
  | allocate => exact h

lemma Lost.not_allowed (h : l.Lost epoch) {bs : List (Action O)} :
    ¬ l.Allowed (as ++ .use owner epoch now extend writes last :: bs) := by
  induction as generalizing l with
  | nil =>
    rintro ⟨⟨hholder, hepoch, -⟩, -⟩
    rcases h with h | ⟨-, h⟩
    · omega
    · simp [h] at hholder
  | cons a as ih => exact fun hr => ih (h.after hr.1) hr.2

/-! ## Writes are ordered by epoch -/

lemma use_of_allowed (h : l.Allowed as)
    (hmem : Action.use owner epoch now extend writes last ∈ as) :
    l.epoch ≤ epoch ∧ ∀ q ∈ writes, l.last < q := by
  induction as generalizing l with
  | nil => simp at hmem
  | cons a as ih =>
    rcases List.mem_cons.mp hmem with rfl | hmem
    · exact ⟨Nat.le_of_eq h.1.2.1, fun q hq => (h.1.2.2.2.2 q hq).1⟩
    · obtain ⟨hepoch, hwrites⟩ := ih h.2 hmem
      exact ⟨Nat.le_trans (l.epoch_le_after a) hepoch,
        fun q hq => Nat.lt_of_le_of_lt (last_le_after h.1) (hwrites q hq)⟩

/-- Epochs of uses never go down, and later uses write later sequences. -/
def UsedInOrder : Action O → Action O → Prop
  | .use _ epoch _ _ writes _, .use _ epoch' _ _ writes' _ =>
    epoch ≤ epoch' ∧ ∀ q ∈ writes, ∀ q' ∈ writes', q < q'
  | _, _ => True

lemma allowed_pairwise (h : l.Allowed as) : as.Pairwise UsedInOrder := by
  induction as generalizing l with
  | nil => exact .nil
  | cons a as ih =>
    refine .cons (fun b hb => ?_) (ih h.2)
    cases a with
    | grant | release | allocate => exact trivial
    | use owner epoch now extend writes last =>
      cases b with
      | grant | release | allocate => exact trivial
      | use owner' epoch' now' extend' writes' last' =>
        obtain ⟨hepoch, hwrites⟩ := use_of_allowed h.2 hb
        refine ⟨h.1.2.1 ▸ hepoch, fun q hq q' hq' => ?_⟩
        exact Nat.lt_of_le_of_lt (h.1.2.2.2.2 q hq).2 (hwrites q' hq')

/-! ## Using a held token -/

variable [DecidableEq O]

/-- The expiry a token has after a list of actions, from the extensions made under it. -/
def expiryUnder (owner : O) (epoch : ℕ) (expiry : ℤ) : List (Action O) → ℤ
  | [] => expiry
  | .use owner' epoch' _ (some extended) _ _ :: as =>
    if owner' = owner ∧ epoch' = epoch then expiryUnder owner epoch extended as
    else expiryUnder owner epoch expiry as
  | _ :: as => expiryUnder owner epoch expiry as

/-- A held token is used only while no one else was granted the lease, it was not released,
and its last extension has not run out. -/
lemma held_use {bs : List (Action O)} (hholder : l.holder = some owner) (hepoch : l.epoch = epoch)
    (h : l.Allowed (as ++ .use owner epoch now extend writes last :: bs)) :
    (∀ owner' expiry', Action.grant owner' expiry' ∉ as) ∧ Action.release owner epoch ∉ as ∧
      now < expiryUnder owner epoch l.expiry as := by
  induction as generalizing l with
  | nil => exact ⟨by simp, by simp, h.1.2.2.1⟩
  | cons a as ih =>
    obtain ⟨ha, hrest⟩ := h
    cases a with
    | grant owner' expiry' =>
      have hlost : (l.after (.grant owner' expiry')).Lost epoch := .inl (by simp [after, hepoch])
      exact absurd hrest hlost.not_allowed
    | release owner' epoch' =>
      have hlost : (l.after (.release owner' epoch')).Lost epoch := .inr ⟨hepoch, rfl⟩
      exact absurd hrest hlost.not_allowed
    | allocate last' =>
      obtain ⟨hgrant, hrelease, hexpiry⟩ := ih (l := l.after (.allocate last')) hholder hepoch hrest
      exact ⟨by simpa using hgrant, by simpa using hrelease, hexpiry⟩
    | use owner' epoch' now' extend' writes' last' =>
      obtain ⟨hgrant, hrelease, hexpiry⟩ :=
        ih (l := l.after (.use owner' epoch' now' extend' writes' last')) hholder hepoch hrest
      refine ⟨by simpa using hgrant, by simpa using hrelease, ?_⟩
      -- the use was made under this very token: it was allowed
      have howner : owner' = owner := Option.some.inj (ha.1.symm.trans hholder)
      have hepoch' : epoch' = epoch := ha.2.1.symm.trans hepoch
      cases extend' with
      | none => exact hexpiry
      | some extended => simpa [expiryUnder, howner, hepoch', after] using hexpiry

end Lease

end SolarisMesh.Lib.Fencing
