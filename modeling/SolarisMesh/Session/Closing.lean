import SolarisMesh.Session.TurnQueue

/-!
# Closing a conversation again

The row of a closed conversation never changes, so a close that is repeated finds what the first
one stored. It compares the failure class it is called with to the stored one, but the first close
keeps the class of an earlier turn. If the two differ, the repeated close is refused.
-/

namespace SolarisMesh.Session

open Lib

variable {rows rows' : ConversationRows} {identity : ConversationIdentity} {handle : List UInt8}
  {terminalState : String} {failureClass : Option String} {row stored : StoredConversation}

/-- A close that asks for what a closed row holds is answered with it. -/
lemma finishConversationClose_of_closed (hrow : rows.conversation = some stored)
    (hclosed : stored.state = .closed) (hchecks : CloseChecks identity handle terminalState stored)
    (hterminal : stored.terminalState = some terminalState)
    (hclass : stored.failureClass = failureClass) :
    finishConversationClose rows identity handle terminalState failureClass =
      .ok (rows, stored) := by
  have hstored := requireConversation_eq_ok_iff.2 ⟨hrow, hchecks.parses⟩
  simp only [finishConversationClose, bind_eq_ok, requireIdentity, requireHandle, require_eq_ok,
    decide_eq_true_eq]
  refine ⟨(), hchecks.validIdentity, (), hchecks.validHandle, (), hchecks.validState, stored,
    hstored, (), hchecks.sameIdentity, (), hchecks.sameHandle, ?_⟩
  rw [if_pos hclosed, check_bind_eq_ok, require_eq_ok, hterminal, hclass]
  exact ⟨by simp, rfl⟩

/-- A close that succeeded answers the same to every later repetition, whatever is called in
between, exactly if no turn had left another failure class in the row. -/
theorem finishConversationClose_repeats_iff (rows rows' : ConversationRows)
    (identity : ConversationIdentity) (handle : List UInt8) (terminalState : String)
    (failureClass : Option String) (stored : StoredConversation)
    (h : finishConversationClose rows identity handle terminalState failureClass =
      .ok (rows', stored)) :
    (∀ calls, ∃ rows'', finishConversationClose (conversationMachine.run rows' calls) identity
        handle terminalState failureClass = .ok (rows'', stored)) ↔
      ∀ row, rows.conversation = some row → row.state = .closing →
        row.failureClass = none ∨ row.failureClass = failureClass := by
  obtain ⟨-, hrow', hclosed, hchecks, hterminal, row, hrow, hclass⟩ :=
    finishConversationClose_eq_ok h
  have hrepeats : (∀ calls, ∃ rows'', finishConversationClose (conversationMachine.run rows' calls)
      identity handle terminalState failureClass = .ok (rows'', stored)) ↔
      stored.failureClass = failureClass := by
    constructor
    · intro hall
      obtain ⟨rows'', hagain⟩ := hall []
      obtain ⟨-, -, -, -, -, again, hfound, ⟨-, hsame⟩ | ⟨hclosing, -⟩⟩ :=
        finishConversationClose_eq_ok hagain
      · exact hsame
      · rw [Machine.run_nil, hrow'] at hfound
        cases hfound
        simp [hclosed] at hclosing
    · intro hsame calls
      have hkept := Machine.run_invariant (P := (·.conversation = some stored))
        (fun s e h => (next_move s e).closed h hclosed) hrow' calls
      exact ⟨_, finishConversationClose_of_closed hkept hclosed hchecks hterminal hsame⟩
  simp only [hrepeats, hrow, Option.some.injEq, forall_eq']
  obtain ⟨hstate, hsame⟩ | ⟨hclosing, hkept⟩ := hclass
  · simp [hstate, hsame]
  · rw [hkept]
    cases row.failureClass <;> simp [hclosing]

/-! ## A close after a turn that failed -/

section AfterFailure

private def chat : ConversationIdentity :=
  ⟨1, "run", "root", "chat", "agent", "session", "task", "open", "spec"⟩

private def chatTurn : ConversationTurnIdentity := ⟨"turn", "operation", "message", "input"⟩

/-- A conversation with one turn, closed as far as the last step. -/
def closingAfter (completion : ConversationTurnCompletion) : ConversationRows :=
  let queued := conversationMachine.run .empty
    [.claimOpen chat "p" 90000 0 false, .finishOpen chat (some "p") (some 1) (some 0) [7],
      .enqueue chat [7] chatTurn]
  conversationMachine.run queued
    [.claim queued chat [7] chatTurn "p" 1 90000, .commitIntent chat [7] chatTurn 0 "p" 1,
      .finalize chat [7] chatTurn 0 completion, .beginClose chat [7]]

/-- A turn failed and blocks the ones after it: the close succeeds, and repeated it does not. -/
theorem finishConversationClose_not_repeated :
    let rows := closingAfter ⟨.failed, [1], some "provider", true⟩
    (finishConversationClose rows chat [7] "completed" none).toOption.isSome = true ∧
      finishConversationClose (conversationMachine.next rows
        (.finishClose chat [7] "completed" none)) chat [7] "completed" none =
          .error .conversationIdentityConflict := by
  decide +kernel

/-- After a turn that completed, the close can be repeated. -/
theorem finishConversationClose_repeats_completed :
    let rows := closingAfter ⟨.completed, [1], none, false⟩
    ∃ rows' stored, finishConversationClose rows chat [7] "completed" none = .ok (rows', stored) ∧
      ∀ calls, ∃ rows'', finishConversationClose (conversationMachine.run rows' calls) chat [7]
        "completed" none = .ok (rows'', stored) := by
  intro rows
  obtain ⟨⟨rows', stored⟩, h⟩ := Option.isSome_iff_exists.1
    (show (finishConversationClose rows chat [7] "completed" none).toOption.isSome = true by
      decide +kernel)
  rw [toOption_eq_some] at h
  refine ⟨rows', stored, h, (finishConversationClose_repeats_iff _ _ _ _ _ _ _ h).2 ?_⟩
  have hclass : rows.conversation.all (·.failureClass = none) = true := by decide +kernel
  intro row hrow _
  rw [hrow] at hclass
  exact .inl (of_decide_eq_true hclass)

end AfterFailure

end SolarisMesh.Session
