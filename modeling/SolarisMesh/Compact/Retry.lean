import SolarisMesh.Types.Message
import Mathlib.Data.List.Chain

/-!
# Retries of a compaction

A conversation that is too long to be summed up is cut at its start and sent again. Each retry cuts
what the one before it sent, which may start with a filler message that is not of the conversation.
-/

namespace SolarisMesh.Compact

open List SolarisMesh.Types

def maxPtlRetries : ℕ := 2

/-- The user message in place of what was cut. -/
def truncationFiller : Message :=
  ⟨.user, [.text "[earlier conversation truncated for compaction retry]"], [], none⟩

/-- About a fifth of the messages. -/
def dropCount (messages : List Message) : ℕ := max (messages.length / 5) 1

def truncateForRetry (messages : List Message) : Option (List Message) :=
  if messages.length < 2 then none
  else
    let dropCount := dropCount messages
    if dropCount ≥ messages.length then none
    else
      let remaining := messages.drop dropCount
      some (if remaining.head?.map (·.role) ≠ some .user then truncationFiller :: remaining
        else remaining)

/-- The messages of each request of `autocompact` without the prompt that follows them, with so many
retries left. The provider answers request `i` that it is too long if `tooLong i`; after any other
answer there is no further request. -/
def conversationsSent (tooLong : ℕ → Bool) : (left : ℕ) → List Message → List (List Message)
  | 0, conversation => [conversation]
  | left + 1, conversation =>
    conversation ::
      if tooLong (maxPtlRetries - (left + 1)) then
        match truncateForRetry conversation with
        | some truncated => conversationsSent tooLong left truncated
        | none => []
      else []

/-! ## What a request has of the conversation -/

/-- So many messages were cut, and a filler may stand in their place. -/
structure Attempt where
  filler : Bool
  dropped : ℕ

namespace Attempt

variable (messages : List Message) (attempt : Attempt)

/-- The messages of the conversation that are sent. -/
def kept : List Message := messages.drop attempt.dropped

def conversation : List Message :=
  (if attempt.filler then [truncationFiller] else []) ++ attempt.kept messages

def KeepsFewer (before after : Attempt) : Prop :=
  (after.kept messages).length < (before.kept messages).length

/-- A retry keeps the end of what was kept and starts with a user message, which is a filler if no
message of the conversation is there. It keeps fewer messages unless the request before it starts
with a filler and has less than ten messages. -/
structure Retries (before after : Attempt) : Prop where
  dropped : after.dropped = before.dropped +
    (dropCount (before.conversation messages) - if before.filler then 1 else 0)
  filler : after.filler = true ↔ (after.kept messages).head?.map (·.role) ≠ some .user
  suffix : after.kept messages <:+ before.kept messages
  startsWithUser : (after.conversation messages).head?.map (·.role) = some .user
  fewer_iff : before.KeepsFewer messages after ↔
    (before.filler = true → 10 ≤ (before.conversation messages).length)

lemma length_conversation :
    (attempt.conversation messages).length =
      (if attempt.filler then 1 else 0) + (messages.length - attempt.dropped) := by
  rw [conversation, kept, length_append, length_drop]
  split <;> rfl

variable {messages attempt}

/-- Cutting past a filler. -/
lemma drop_conversation {count : ℕ} (hcount : 1 ≤ count) :
    (attempt.conversation messages).drop count =
      messages.drop (attempt.dropped + (count - if attempt.filler then 1 else 0)) := by
  obtain ⟨count, rfl⟩ := Nat.exists_eq_add_of_le' hcount
  unfold conversation kept
  cases attempt.filler
  · simp only [Bool.false_eq_true, if_false, nil_append, drop_drop, Nat.sub_zero]
  · simp only [if_true, singleton_append, drop_succ_cons, drop_drop, Nat.add_sub_cancel]

lemma retries_of_truncateForRetry {truncated : List Message}
    (h : truncateForRetry (attempt.conversation messages) = some truncated) :
    ∃ after, truncated = after.conversation messages ∧ attempt.Retries messages after := by
  have hlength := length_conversation messages attempt
  unfold truncateForRetry at h
  split at h
  · cases h
  dsimp only at h
  generalize hcount : dropCount (attempt.conversation messages) = count at h
  rw [dropCount] at hcount
  split at h
  · cases h
  rw [drop_conversation (by omega)] at h
  generalize hdropped : attempt.dropped + (count - if attempt.filler then 1 else 0) = dropped at h
  have hfewer : (messages.drop dropped).length < (attempt.kept messages).length ↔
      (attempt.filler = true → 10 ≤ (attempt.conversation messages).length) := by
    rw [kept, length_drop, length_drop]
    cases hfiller : attempt.filler with
    | false =>
      simp only [hfiller, Bool.false_eq_true, if_false, false_implies, iff_true]
        at hdropped hlength ⊢
      omega
    | true =>
      simp only [hfiller, if_true, forall_const] at hdropped hlength ⊢
      omega
  have hsuffix : messages.drop dropped <:+ attempt.kept messages := by
    rw [kept, show dropped = attempt.dropped + (dropped - attempt.dropped) by omega, ← drop_drop]
    exact drop_suffix _ _
  have hdrops : dropped = attempt.dropped + (dropCount (attempt.conversation messages) -
      if attempt.filler then 1 else 0) := by rw [dropCount, hcount, hdropped]
  split at h
  · next huser =>
    cases h
    exact ⟨⟨true, dropped⟩, rfl, hdrops, iff_of_true rfl huser, hsuffix, rfl, hfewer⟩
  · next huser =>
    cases h
    exact ⟨⟨false, dropped⟩, rfl, hdrops, iff_of_false Bool.false_ne_true huser, hsuffix,
      not_not.1 huser, hfewer⟩

end Attempt

/-- Both answers are that the request is too long, and the first retry starts with a filler and has
less than ten messages. -/
def CutsFiller (tooLong : ℕ → Bool) (messages : List Message) : Prop :=
  tooLong 0 = true ∧ tooLong 1 = true ∧ 2 ≤ messages.length ∧
    (messages.drop (dropCount messages)).head?.map (·.role) ≠ some .user ∧
    messages.length - dropCount messages < 9

/-- What has two messages or more can be cut. -/
lemma truncateForRetry_of_le {messages : List Message} (h : 2 ≤ messages.length) :
    truncateForRetry messages = some
      (if (messages.drop (dropCount messages)).head?.map (·.role) ≠ some .user then
        truncationFiller :: messages.drop (dropCount messages)
      else messages.drop (dropCount messages)) := by
  have hcount : dropCount messages < messages.length := by
    unfold dropCount
    omega
  rw [truncateForRetry, if_neg (by omega)]
  exact if_neg (by omega)

lemma length_conversationsSent_le (tooLong : ℕ → Bool) (left : ℕ) (messages : List Message) :
    (conversationsSent tooLong left messages).length ≤ left + 1 := by
  induction left generalizing messages with
  | zero => exact le_rfl
  | succ left ih =>
    rw [conversationsSent, length_cons]
    refine Nat.succ_le_succ ?_
    split
    · split
      · exact ih _
      · exact Nat.zero_le _
    · exact Nat.zero_le _

/-- There is a second retry only after two answers, and where the first one starts with a filler. -/
lemma length_conversationsSent (tooLong : ℕ → Bool) (messages : List Message) :
    (3 ≤ (conversationsSent tooLong maxPtlRetries messages).length →
      tooLong 0 = true ∧ tooLong 1 = true ∧ 2 ≤ messages.length) ∧
    (CutsFiller tooLong messages →
      3 ≤ (conversationsSent tooLong maxPtlRetries messages).length) := by
  by_cases hlength : 2 ≤ messages.length
  · have hcount : dropCount messages < messages.length := by
      unfold dropCount
      omega
    have hfiller : 2 ≤ (truncationFiller :: messages.drop (dropCount messages)).length := by
      rw [length_cons, length_drop]
      omega
    rcases Bool.eq_false_or_eq_true (tooLong 0) with hfirst | hfirst <;>
    rcases Bool.eq_false_or_eq_true (tooLong 1) with hsecond | hsecond <;>
    simp [conversationsSent, maxPtlRetries, CutsFiller, hfirst, hsecond, hlength,
      truncateForRetry_of_le hlength, -head?_drop]
    intro hrole _
    rw [if_pos hrole, truncateForRetry_of_le hfiller]
    rfl
  · have hnone : truncateForRetry messages = none := if_pos (by omega)
    rcases Bool.eq_false_or_eq_true (tooLong 0) with hfirst | hfirst <;>
    simp [conversationsSent, maxPtlRetries, CutsFiller, hfirst, hlength, hnone]

/-- Every retry keeps fewer messages, unless the second one cuts no more than a filler. -/
lemma keepsFewer_iff_not_cutsFiller {messages : List Message} {tooLong : ℕ → Bool}
    {attempts : List Attempt}
    (hsent : conversationsSent tooLong maxPtlRetries messages =
      attempts.map (Attempt.conversation messages))
    (hhead : attempts.head? = some ⟨false, 0⟩)
    (hchain : attempts.IsChain (Attempt.Retries messages)) :
    attempts.IsChain (Attempt.KeepsFewer messages) ↔ ¬CutsFiller tooLong messages := by
  obtain ⟨hthree, hcuts⟩ := length_conversationsSent tooLong messages
  have hfew := length_conversationsSent_le tooLong maxPtlRetries messages
  rw [hsent, length_map] at hthree hcuts hfew
  have hself : Attempt.conversation messages ⟨false, 0⟩ = messages := rfl
  match attempts, hhead, hchain with
  | [_], rfl, _ => exact iff_of_true (.singleton _) fun h => absurd (hcuts h) (by simp)
  | [_, first], rfl, .cons_cons hfirst _ =>
    refine iff_of_true (.cons_cons ?_ (.singleton _)) fun h => absurd (hcuts h) (by simp)
    exact hfirst.fewer_iff.2 fun h => by cases h
  | [_, first, second], rfl, .cons_cons hfirst (.cons_cons hsecond _) =>
    obtain ⟨hzero, hone, hlength⟩ := hthree le_rfl
    have hdropped : first.dropped = dropCount messages := by simpa [hself] using hfirst.dropped
    have hfewer : Attempt.KeepsFewer messages ⟨false, 0⟩ first :=
      hfirst.fewer_iff.2 fun h => by cases h
    have hrole := hfirst.filler
    have hcount := Attempt.length_conversation messages first
    rw [Attempt.kept, hdropped] at hrole
    rw [hdropped] at hcount
    simp only [isChain_cons_cons, isChain_singleton, and_true, hfewer, true_and, hsecond.fewer_iff,
      CutsFiller, hzero, hone, hlength, ← hrole, not_and, not_lt]
    refine forall_congr' fun hfiller => ?_
    rw [hcount, if_pos hfiller]
    omega
  | _ :: _ :: _ :: _ :: _, _, _ => exact absurd hfew (by simp [maxPtlRetries])

/-- What the requests have of the conversation, in the order they are sent. -/
lemma exists_attempts (messages : List Message) (tooLong : ℕ → Bool) (left : ℕ)
    (attempt : Attempt) : ∃ attempts : List Attempt,
      conversationsSent tooLong left (attempt.conversation messages) =
        attempts.map (Attempt.conversation messages) ∧
      attempts.head? = some attempt ∧ attempts.IsChain (Attempt.Retries messages) := by
  induction left generalizing attempt with
  | zero => exact ⟨[attempt], rfl, rfl, .singleton _⟩
  | succ left ih =>
    have hlast : ∃ attempts : List Attempt, [attempt.conversation messages] =
        attempts.map (Attempt.conversation messages) ∧
        attempts.head? = some attempt ∧ attempts.IsChain (Attempt.Retries messages) :=
      ⟨[attempt], rfl, rfl, .singleton _⟩
    rw [conversationsSent]
    split
    · cases htruncated : truncateForRetry (attempt.conversation messages) with
      | none => exact hlast
      | some truncated =>
        obtain ⟨after, rfl, hretries⟩ := Attempt.retries_of_truncateForRetry htruncated
        obtain ⟨attempts, hsent, hhead, hchain⟩ := ih after
        refine ⟨attempt :: attempts, by rw [map_cons, ← hsent], rfl, isChain_cons.2 ⟨?_, hchain⟩⟩
        rw [hhead]
        rintro _ ⟨⟩
        exact hretries
    · exact hlast

/-- The requests of a run of retries, each with what it has of the conversation, and the
conversations and answers with which each request has fewer messages of it than the one before. -/
theorem retries_progress_iff (messages : List Message) (tooLong : ℕ → Bool) :
    ∃ attempts : List Attempt,
      conversationsSent tooLong maxPtlRetries messages =
        attempts.map (Attempt.conversation messages) ∧
      attempts.head? = some ⟨false, 0⟩ ∧ attempts.IsChain (Attempt.Retries messages) ∧
      (attempts.IsChain (Attempt.KeepsFewer messages) ↔ ¬CutsFiller tooLong messages) := by
  obtain ⟨attempts, hsent, hhead, hchain⟩ :=
    exists_attempts messages tooLong maxPtlRetries ⟨false, 0⟩
  exact ⟨attempts, hsent, hhead, hchain, keepsFewer_iff_not_cutsFiller hsent hhead hchain⟩

/-- A question and its answer: the second retry cuts the filler of the first and keeps the same
message. -/
theorem retry_cuts_filler_only :
    let question : Message := ⟨.user, [.text "question"], [], none⟩
    let answer : Message := ⟨.assistant, [.text "answer"], [], none⟩
    conversationsSent (fun _ => true) maxPtlRetries [question, answer] =
      [[question, answer], [truncationFiller, answer], [truncationFiller, answer]] := by
  decide +kernel

end SolarisMesh.Compact
