import SolarisMesh.Session.Conversation
import Mathlib.Data.List.Range
import Mathlib.Data.List.Nodup

/-!
# The turn queue of a conversation

Turns of a conversation run strictly in the order they were enqueued. `QueueMove` lists
the moves the queue can make, each transaction is shown to be one of them, and the
queue invariant follows from the moves alone. Owners, leases and clocks only decide
which move is made.
-/

namespace SolarisMesh.Session

open List Lib
open ConversationTurnState (isTerminal)

/-! ## What the row accessors return -/

variable {rows : ConversationRows} {t : StoredConversationTurn}
  {set : StoredConversationTurn → StoredConversationTurn} {turns : List StoredConversationTurn}

lemma queryConversation_eq_ok {o : Option StoredConversation}
    (h : queryConversation rows = .ok o) :
    rows.conversation = o := by
  unfold queryConversation at h
  split at h
  · next hrow => rw [hrow]; exact Except.ok.inj h
  · next row hrow =>
    simp only [bind_eq_ok, require_eq_ok, pure_eq_ok] at h
    obtain ⟨_, _, rfl⟩ := h
    exact hrow

lemma requireConversation_eq_ok_iff {stored : StoredConversation} :
    requireConversation rows = .ok stored ↔
      rows.conversation = some stored ∧ stored.parses = true := by
  unfold requireConversation queryConversation
  cases rows.conversation with
  | none => simp [bind_eq_ok, orElseThrow_eq_ok]
  | some row =>
    simp only [bind_eq_ok, require_eq_ok, pure_eq_ok, orElseThrow_eq_ok, Option.some.injEq]
    constructor
    · rintro ⟨_, ⟨_, hparses, rfl⟩, hrow⟩
      cases hrow
      exact ⟨rfl, hparses⟩
    · rintro ⟨rfl, hparses⟩
      exact ⟨_, ⟨(), hparses, rfl⟩, rfl⟩

lemma requireConversation_eq_ok {c : StoredConversation} (h : requireConversation rows = .ok c) :
    rows.conversation = some c :=
  (requireConversation_eq_ok_iff.1 h).1

variable {q : ℕ}

lemma requireTurnBySequence_eq_ok (h : requireTurnBySequence rows q = .ok t) :
    t ∈ rows.turns ∧ t.sequence = q := by
  simp only [requireTurnBySequence, bind_eq_ok, orElseThrow_eq_ok] at h
  obtain ⟨_, _, hfind⟩ := h
  exact ⟨mem_of_find?_eq_some hfind, by simpa using List.find?_some hfind⟩

variable {rows' : ConversationRows}

lemma updateConversation_eq_ok {expected : ℤ} {condition : StoredConversation → Bool}
    {set : StoredConversation → StoredConversation}
    (h : updateConversation rows expected condition set = .ok rows') :
    ∃ row, rows.conversation = some row ∧ condition row = true ∧
      rows' = { rows with conversation := some (set row) } := by
  unfold updateConversation at h
  split at h
  · exact absurd h (by simp)
  · next row hrow =>
    split at h
    · next hcond => exact ⟨row, hrow, hcond, (Except.ok.inj h).symm⟩
    · exact absurd h (by simp)

/-- The turns with every row of one sequence rewritten. -/
def setTurn (turns : List StoredConversationTurn) (q : ℕ)
    (set : StoredConversationTurn → StoredConversationTurn) : List StoredConversationTurn :=
  turns.map fun t => if t.sequence = q then set t else t

lemma updateTurn_eq_ok {expected : ℤ} {condition : StoredConversationTurn → Bool}
    (h : updateTurn rows q expected condition set = .ok rows') :
    rows' = { rows with turns := setTurn rows.turns q set } := by
  simp only [updateTurn, bind_eq_ok, pure_eq_ok] at h
  obtain ⟨_, -, _, -, rfl⟩ := h
  rfl

lemma mem_setTurn (h : t ∈ setTurn turns q set) :
    (∃ t₀ ∈ turns, t₀.sequence = q ∧ t = set t₀) ∨ (t ∈ turns ∧ t.sequence ≠ q) := by
  obtain ⟨t₀, hmem, rfl⟩ := mem_map.mp h
  split
  · next hq => exact .inl ⟨t₀, hmem, hq, rfl⟩
  · next hq => exact .inr ⟨hmem, hq⟩

lemma setTurn_mem_of_ne (h : t ∈ turns) (hq : t.sequence ≠ q) : t ∈ setTurn turns q set :=
  mem_map.mpr ⟨t, h, if_neg hq⟩

lemma setTurn_mem_of_eq (h : t ∈ turns) (hq : t.sequence = q) :
    set t ∈ setTurn turns q set :=
  mem_map.mpr ⟨t, h, if_pos hq⟩

lemma map_sequence_setTurn (turns : List StoredConversationTurn) (q : ℕ)
    (hset : ∀ t, (set t).sequence = t.sequence) :
    (setTurn turns q set).map (·.sequence) = turns.map (·.sequence) := by
  rw [setTurn, map_map]
  refine map_congr_left fun t _ => ?_
  simp only [Function.comp]
  split <;> simp [hset]

/-! ## The moves of the queue -/

/-- The queue pointers of two conversation rows agree. -/
def SamePointers (row row' : StoredConversation) : Prop :=
  row'.nextSequence = row.nextSequence ∧ row'.nextToRun = row.nextToRun ∧
    row'.activeSequence = row.activeSequence

/-- What one transaction can do to the row of a conversation without its turns. -/
inductive RowMove (rows : ConversationRows) : ConversationRows → Prop where
  | keep : RowMove rows rows
  /-- The conversation row appears, with an empty queue. -/
  | start (row : StoredConversation) (hnone : rows.conversation = none)
      (hnext : row.nextSequence = 0) (hrun : row.nextToRun = 0)
      (hactive : row.activeSequence = none) :
      RowMove rows { rows with conversation := some row }
  /-- The conversation row goes away before the conversation was ever open. -/
  | drop (row : StoredConversation) (hrow : rows.conversation = some row)
      (hopening : row.state = .opening) :
      RowMove rows { rows with conversation := none }
  /-- The conversation row changes before it is closed, its queue pointers do not. -/
  | refresh (row row' : StoredConversation) (hrow : rows.conversation = some row)
      (hlive : row.state ≠ .closed)
      (hsame : SamePointers row row')
      (hstate : row'.state = .opening → row.state = .opening) :
      RowMove rows { rows with conversation := some row' }

lemma RowMove.turns_eq (h : RowMove rows rows') :
    rows'.turns = rows.turns := by
  cases h <;> rfl

/-- A queued turn takes the next sequence. -/
structure Enqueues (row row' : StoredConversation) (turn : StoredConversationTurn) : Prop where
  opened : row.state = .open ∧ row'.state = .open
  next : row'.nextSequence = row.nextSequence + 1
  run : row'.nextToRun = row.nextToRun
  active : row'.activeSequence = row.activeSequence
  sequence : turn.sequence = row.nextSequence
  queued : turn.state = .queued

section

variable (row row' : StoredConversation) (stored : StoredConversationTurn)
  (set : StoredConversationTurn → StoredConversationTurn)

/-- The first unsettled turn is handed out. -/
structure Admits : Prop where
  queued : stored.state = .queued
  first : stored.sequence = row.nextToRun
  idle : row.activeSequence = none
  opened : row.state = .open ∧ row'.state = .open
  next : row'.nextSequence = row.nextSequence
  run : row'.nextToRun = row.nextToRun
  active : row'.activeSequence = some stored.sequence
  sets : ∀ t, (set t).sequence = t.sequence ∧ (set t).state = .admitted

/-- The first unsettled turn reaches a terminal state. -/
structure Settles : Prop where
  live : stored.state.isTerminal = false
  first : stored.sequence = row.nextToRun
  active : ∀ a, row.activeSequence = some a → a = stored.sequence
  opened : row.state = .open ∨ row.state = .closing
  state : row'.state = row.state
  next : row'.nextSequence = row.nextSequence
  run : row'.nextToRun = row.nextToRun + 1
  idle : row'.activeSequence = none
  sets : ∀ t, (set t).sequence = t.sequence ∧ (set t).state.isTerminal = true

end

/-- What one transaction can do to the rows of a conversation. -/
inductive QueueMove (rows : ConversationRows) : ConversationRows → Prop where
  | row {rows' : ConversationRows} (hrow : RowMove rows rows') : QueueMove rows rows'
  | enqueue (row row' : StoredConversation) (turn : StoredConversationTurn)
      (hrow : rows.conversation = some row) (h : Enqueues row row' turn) :
      QueueMove rows ⟨some row', rows.turns ++ [turn]⟩
  | admission (row row' : StoredConversation) (stored : StoredConversationTurn)
      (set : StoredConversationTurn → StoredConversationTurn)
      (hrow : rows.conversation = some row) (hmem : stored ∈ rows.turns)
      (h : Admits row row' stored set) :
      QueueMove rows ⟨some row', setTurn rows.turns stored.sequence set⟩
  /-- An admitted turn is handed out again or commits its intent. -/
  | advance (stored : StoredConversationTurn) (state : ConversationTurnState)
      (set : StoredConversationTurn → StoredConversationTurn)
      (hmem : stored ∈ rows.turns) (hadmitted : stored.state = .admitted)
      (hstate : state.inFlight = true)
      (hset : ∀ t, (set t).sequence = t.sequence ∧ (set t).state = state) :
      QueueMove rows { rows with turns := setTurn rows.turns stored.sequence set }
  | settle (row row' : StoredConversation) (stored : StoredConversationTurn)
      (set : StoredConversationTurn → StoredConversationTurn)
      (hrow : rows.conversation = some row) (hmem : stored ∈ rows.turns)
      (h : Settles row row' stored set) :
      QueueMove rows ⟨some row', setTurn rows.turns stored.sequence set⟩

/-! ## What a call does to the turns -/

/-- The call claims a turn for this owner. -/
def ConversationCall.claimsFor (call : ConversationCall) (owner : String) : Prop :=
  ∃ observed identity handle turn now duration,
    call = .claim observed identity handle turn owner now duration

/-- The call commits the intent of the turn `q` for the claim of `owner` with `revision`. -/
def ConversationCall.commitsFor (call : ConversationCall) (q : ℕ) (owner : String)
    (revision : ℤ) : Prop :=
  ∃ identity handle turn, call = .commitIntent identity handle turn q owner revision

/-- A turn is handed out under its next revision. The row that is answered is the row that is
written. -/
structure TurnClaimed (owner : String) (stored row : StoredConversationTurn)
    (set : StoredConversationTurn → StoredConversationTurn) : Prop where
  sequence : row.sequence = stored.sequence
  revision : row.revision = stored.revision + 1
  sets : ∀ u, (set u).sequence = u.sequence ∧ (set u).state = .admitted ∧
    (set u).revision = stored.revision + 1 ∧ (set u).claimOwner = some owner

/-- What one call does to the turns. -/
inductive TurnChange (turns : List StoredConversationTurn) (call : ConversationCall)
    (answer : Result ConversationAnswer) : List StoredConversationTurn → Prop
  | keep : TurnChange turns call answer turns
  | enqueued (turn : StoredConversationTurn) (hqueued : turn.state = .queued) :
      TurnChange turns call answer (turns ++ [turn])
  /-- The turn is handed out, for the first time or again. -/
  | claimed (stored t : StoredConversationTurn) (owner : String)
      (set : StoredConversationTurn → StoredConversationTurn) (hmem : stored ∈ turns)
      (hlive : stored.state = .queued ∨ stored.state = .admitted) (hcall : call.claimsFor owner)
      (hanswer : answer = .ok (.turnClaim (.claimed t))) (h : TurnClaimed owner stored t set) :
      TurnChange turns call answer (setTurn turns stored.sequence set)
  | committed (stored t : StoredConversationTurn) (owner : String)
      (set : StoredConversationTurn → StoredConversationTurn) (hmem : stored ∈ turns)
      (hadmitted : stored.state = .admitted) (howner : stored.claimOwner = some owner)
      (hcall : call.commitsFor stored.sequence owner stored.revision)
      (hanswer : answer = .ok (.turn t))
      (hset : ∀ u, (set u).sequence = u.sequence ∧ (set u).state = .intentCommitted ∧
        (set u).revision = stored.revision + 1 ∧ (set u).claimOwner = u.claimOwner) :
      TurnChange turns call answer (setTurn turns stored.sequence set)
  | settled (stored : StoredConversationTurn)
      (set : StoredConversationTurn → StoredConversationTurn)
      (hset : ∀ u, (set u).sequence = u.sequence ∧ (set u).state.isTerminal = true) :
      TurnChange turns call answer (setTurn turns stored.sequence set)

/-! ## Every transaction is a move -/

section Moves

variable {rows rows' : ConversationRows}

variable {ownerId : String} {nowMs duration : ℤ} {identity : ConversationIdentity}
  {handle : List UInt8} {stored : StoredConversationTurn} {turn : ConversationTurnIdentity}

variable {revision : ℤ}

lemma renewOpeningLease_move {epoch : ℤ} {changed : Bool}
    (h : renewOpeningLease rows ownerId epoch revision nowMs duration = .ok (rows', changed)) :
    RowMove rows rows' := by
  simp only [renewOpeningLease, bind_eq_ok] at h
  obtain ⟨_, _, h⟩ := h
  split at h
  · cases h
    exact .keep
  · next row hrow =>
    split at h <;> simp only [pure_eq_ok, Prod.mk.injEq] at h
    · next hopening =>
      obtain ⟨rfl, -⟩ := h
      exact .refresh row _ hrow (by simp [hopening.1]) ⟨rfl, rfl, rfl⟩ fun _ => hopening.1
    · exact h.1 ▸ .keep

lemma claimConversationOpen_move {taken : Bool} {claim : ConversationOpenClaim}
    (h : claimConversationOpenWithDurationAt rows identity ownerId duration nowMs taken =
      .ok (rows', claim)) : RowMove rows rows' := by
  simp only [claimConversationOpenWithDurationAt, bind_eq_ok] at h
  obtain ⟨_, _, _, _, _, _, found, hfound, h⟩ := h
  have hrows := queryConversation_eq_ok hfound
  cases found with
  | none =>
    simp only [bind_eq_ok, pure_eq_ok, Prod.mk.injEq] at h
    obtain ⟨_, _, _, _, rfl, -⟩ := h
    exact .start _ hrows rfl rfl rfl
  | some stored =>
    simp only [bind_eq_ok] at h
    obtain ⟨_, _, _, _, h⟩ := h
    split at h
    · cases h
      exact .keep
    split at h
    · simp only [bind_eq_ok, pure_eq_ok, Prod.mk.injEq, Prod.exists] at h
      obtain ⟨_, _, hrenew, rfl, -⟩ := h
      exact renewOpeningLease_move hrenew
    split at h
    · simp only [bind_eq_ok, pure_eq_ok, Prod.mk.injEq] at h
      obtain ⟨_, _, _, _, _, _, _, hupdate, rfl, -⟩ := h
      obtain ⟨row, hrow, hcond, rfl⟩ := updateConversation_eq_ok hupdate
      simp only [Bool.and_eq_true, decide_eq_true_eq] at hcond
      obtain ⟨⟨⟨⟨hopening, -⟩, -⟩, -⟩, -⟩ := hcond
      exact .refresh row _ hrow (by simp [hopening]) ⟨rfl, rfl, rfl⟩ fun _ => hopening
    · cases h
      exact .keep

lemma finishOpen_move {ownerId : Option String} {epoch revision : Option ℤ}
    {stored : StoredConversation}
    (h : finishOpen rows identity ownerId epoch revision handle = .ok (rows', stored)) :
    RowMove rows rows' := by
  simp only [finishOpen, bind_eq_ok] at h
  obtain ⟨_, _, _, _, _, _, found, hfound, _, _, h⟩ := h
  split at h
  · simp only [bind_eq_ok, pure_eq_ok, Prod.mk.injEq] at h
    obtain ⟨_, _, rfl, -⟩ := h
    exact .keep
  · cases h
  · cases h
  · simp only [bind_eq_ok, pure_eq_ok, Prod.mk.injEq] at h
    obtain ⟨_, _, _, _, _, _, _, _, _, _, _, hupdate, _, _, rfl, -⟩ := h
    obtain ⟨row, hrow, hcond, rfl⟩ := updateConversation_eq_ok hupdate
    refine .refresh row _ hrow (fun hclosed => ?_) ⟨rfl, rfl, rfl⟩ fun hstate => by simp at hstate
    simp [hclosed] at hcond

lemma abandonConversationOpen_move {epoch : ℤ} {changed : Bool}
    (h : abandonConversationOpen rows identity ownerId epoch revision = .ok (rows', changed)) :
    RowMove rows rows' := by
  simp only [abandonConversationOpen, bind_eq_ok] at h
  obtain ⟨_, _, _, _, h⟩ := h
  split at h
  · cases h
    exact .keep
  · next row hrow =>
    split at h <;> simp only [pure_eq_ok, Prod.mk.injEq] at h
    · next hopening =>
      obtain ⟨rfl, -⟩ := h
      exact .drop row hrow hopening.1
    · exact h.1 ▸ .keep

lemma beginConversationClose_move {claim : ConversationCloseClaim}
    (h : beginConversationClose rows identity handle = .ok (rows', claim)) :
    RowMove rows rows' := by
  simp only [beginConversationClose, bind_eq_ok] at h
  obtain ⟨_, _, _, _, found, hfound, _, _, _, _, h⟩ := h
  split at h
  · simp only [bind_eq_ok, pure_eq_ok, Prod.mk.injEq] at h
    obtain ⟨_, _, _, hupdate, _, _, rfl, -⟩ := h
    obtain ⟨row, hrow, hcond, rfl⟩ := updateConversation_eq_ok hupdate
    refine .refresh row _ hrow (fun hclosed => ?_) ⟨rfl, rfl, rfl⟩ fun hstate => by simp at hstate
    simp [hclosed] at hcond
  · cases h
    exact .keep
  · cases h
    exact .keep
  · cases h

/-- What every close checks before it looks at the state of the row. -/
structure CloseChecks (identity : ConversationIdentity) (handle : List UInt8)
    (terminalState : String) (row : StoredConversation) : Prop where
  validIdentity : validateIdentity identity = .ok ()
  validHandle : validateHandle handle = .ok ()
  validState : validateNonempty terminalState = .ok ()
  parses : row.parses = true
  sameIdentity : row.identity = identity
  sameHandle : row.handleJson = some handle

/-- A close that succeeds leaves a closed row, which keeps a failure class it had. -/
lemma finishConversationClose_eq_ok {terminalState : String} {failureClass : Option String}
    {stored : StoredConversation}
    (h : finishConversationClose rows identity handle terminalState failureClass =
      .ok (rows', stored)) :
    RowMove rows rows' ∧ rows'.conversation = some stored ∧ stored.state = .closed ∧
      CloseChecks identity handle terminalState stored ∧
      stored.terminalState = some terminalState ∧ ∃ row, rows.conversation = some row ∧
        (row.state = .closed ∧ stored.failureClass = failureClass ∨
          row.state = .closing ∧ stored.failureClass = (row.failureClass <|> failureClass)) := by
  simp only [finishConversationClose, bind_eq_ok, requireConversation_eq_ok_iff, requireIdentity,
    requireHandle, require_eq_ok, decide_eq_true_eq] at h
  obtain ⟨_, hidentity, _, hhandle, _, hnonempty, row, ⟨hrow, hparses⟩, _, hsame, _, hhandles, h⟩ :=
    h
  split at h
  · next hclosed =>
    simp only [bind_eq_ok, require_eq_ok, pure_eq_ok, Bool.and_eq_true, decide_eq_true_eq,
      Prod.mk.injEq] at h
    obtain ⟨_, ⟨hterminal, hclass⟩, rfl, rfl⟩ := h
    exact ⟨.keep, hrow, hclosed, ⟨hidentity, hhandle, hnonempty, hparses, hsame, hhandles⟩,
      hterminal, row, hrow, .inl ⟨hclosed, hclass⟩⟩
  · simp only [bind_eq_ok, require_eq_ok, pure_eq_ok, Bool.and_eq_true, decide_eq_true_eq,
      Prod.mk.injEq, requireConversation_eq_ok_iff] at h
    obtain ⟨_, ⟨hclosing, -⟩, revision, -, _, hupdate, _, ⟨hnew, hparses⟩, rfl, rfl⟩ := h
    obtain ⟨found, hfound, -, rfl⟩ := updateConversation_eq_ok hupdate
    rw [hrow] at hfound
    cases hfound
    cases hnew
    exact ⟨.refresh row _ hrow (by simp [hclosing]) ⟨rfl, rfl, rfl⟩ (by simp), rfl, rfl,
      ⟨hidentity, hhandle, hnonempty, hparses, hsame, hhandles⟩, rfl, row, hrow,
      .inr ⟨hclosing, rfl⟩⟩

variable {call : ConversationCall} {answer : Result ConversationAnswer}

lemma enqueueConversationTurn_move {enqueue : ConversationTurnEnqueue}
    (h : enqueueConversationTurn rows identity handle turn = .ok (rows', enqueue)) :
    QueueMove rows rows' ∧ TurnChange rows.turns call answer rows'.turns := by
  simp only [enqueueConversationTurn, bind_eq_ok] at h
  obtain ⟨_, _, _, _, _, _, stored, hstored, _, _, _, _, h⟩ := h
  have hrows := requireConversation_eq_ok hstored
  split at h
  · simp only [bind_eq_ok, pure_eq_ok, Prod.mk.injEq] at h
    obtain ⟨_, _, rfl, -⟩ := h
    exact ⟨.row .keep, .keep⟩
  · simp only [bind_eq_ok] at h
    obtain ⟨_, _, h⟩ := h
    split at h
    · cases h
      exact ⟨.row .keep, .keep⟩
    · simp only [bind_eq_ok, pure_eq_ok, Prod.mk.injEq, followingSequence,
        orElseThrow_eq_ok] at h
      obtain ⟨following, hfollowing, _, _, _, _, _, hupdate, _, _, rfl, -⟩ := h
      obtain ⟨row, hrow, hcond, rfl⟩ := updateConversation_eq_ok hupdate
      rw [hrows] at hrow
      cases hrow
      simp only [Bool.and_eq_true, decide_eq_true_eq] at hcond
      refine ⟨.enqueue stored _ _ hrows ?_, .enqueued _ rfl⟩
      exact ⟨⟨hcond.1.1, hcond.1.1⟩, u64CheckedAdd_eq_some hfollowing, rfl, rfl, rfl, rfl⟩

/-- A look at the rows never hands a turn out. A claim is written for a turn of the conversation. -/
lemma inspectTurnClaim_eq_ok {inspection : TurnClaimInspection}
    (h : inspectTurnClaim rows identity handle turn ownerId nowMs duration = .ok inspection) :
    (∀ t, inspection ≠ .return (.claimed t)) ∧ ∀ conversation stored,
      inspection = .write conversation stored →
        rows.conversation = some conversation ∧ stored ∈ rows.turns := by
  simp only [inspectTurnClaim, bind_eq_ok, orElseThrow_eq_ok] at h
  obtain ⟨c, hc, _, _, _, _, t, ht, _, _, h⟩ := h
  split at h
  · cases h
    simp
  split at h
  · cases h
    simp
  split at h
  · cases h
    simp
  split at h
  · cases h
    simp
  simp only [bind_eq_ok] at h
  obtain ⟨_, _, h⟩ := h
  split at h
  iterate 2
    split at h <;> cases h
    · simp
    · simpa using ⟨requireConversation_eq_ok hc, mem_of_find?_eq_some ht⟩
  cases h

lemma nextRevision_eq_ok {next : ℤ} (h : nextRevision revision = .ok next) :
    next = revision + 1 := by
  simp only [nextRevision, orElseThrow_eq_ok, i64CheckedAdd] at h
  split at h
  · exact (Option.some.inj h).symm
  · cases h

lemma updateTurnClaim_eq_ok {row : StoredConversationTurn}
    (h : updateTurnClaim rows stored ownerId nowMs duration = .ok (rows', row)) :
    ∃ set, TurnClaimed ownerId stored row set ∧
      rows' = { rows with turns := setTurn rows.turns stored.sequence set } := by
  simp only [updateTurnClaim, bind_eq_ok, pure_eq_ok, Prod.mk.injEq] at h
  obtain ⟨revision, hrevision, expires, -, claimed, hupdate, found, hfound, rfl, rfl⟩ := h
  obtain rfl := nextRevision_eq_ok hrevision
  obtain rfl := updateTurn_eq_ok hupdate
  obtain ⟨hmem, hseq⟩ := requireTurnBySequence_eq_ok hfound
  refine ⟨_, ⟨hseq, ?_, ?_⟩, rfl⟩
  · rcases mem_setTurn hmem with ⟨u, _, _, rfl⟩ | ⟨_, hne⟩
    · rfl
    · exact absurd hseq hne
  · exact fun u => ⟨rfl, rfl, rfl, rfl⟩

/-- What `claim_conversation_turn` writes, and which turn it hands out. -/
lemma writeTurnClaim_eq_ok {conversation : StoredConversation} {claim : ConversationTurnClaim}
    (hrow : rows.conversation = some conversation) (hmem : stored ∈ rows.turns)
    (h : writeTurnClaim rows conversation stored ownerId nowMs duration = .ok (rows', claim)) :
    QueueMove rows rows' ∧ (stored.state = .queued ∨ stored.state = .admitted) ∧ ∃ row set,
      claim = .claimed row ∧ TurnClaimed ownerId stored row set ∧
        rows'.turns = setTurn rows.turns stored.sequence set := by
  unfold writeTurnClaim at h
  split at h
  · next hadmitted =>
    simp only [bind_eq_ok, pure_eq_ok, Prod.mk.injEq, Prod.exists] at h
    obtain ⟨_, row, hupdate, rfl, rfl⟩ := h
    obtain ⟨set, hclaimed, rfl⟩ := updateTurnClaim_eq_ok hupdate
    refine ⟨?_, .inr hadmitted, row, set, rfl, hclaimed, rfl⟩
    exact .advance stored .admitted set hmem hadmitted rfl fun t =>
      ⟨(hclaimed.sets t).1, (hclaimed.sets t).2.1⟩
  · next hqueued =>
    simp only [bind_eq_ok, pure_eq_ok, Prod.mk.injEq, Prod.exists] at h
    obtain ⟨revision, _, _, _, admitted, hadmits, _, row, hupdate, rfl, rfl⟩ := h
    obtain ⟨row', hrow', hcond, rfl⟩ := updateConversation_eq_ok hadmits
    rw [hrow] at hrow'
    cases hrow'
    simp only [Bool.and_eq_true, decide_eq_true_eq, Option.isNone_iff_eq_none] at hcond
    obtain ⟨⟨⟨hopen, -⟩, hidle⟩, hfirst⟩ := hcond
    obtain ⟨set, hclaimed, rfl⟩ := updateTurnClaim_eq_ok hupdate
    refine ⟨?_, .inl hqueued, row, set, rfl, hclaimed, rfl⟩
    exact .admission conversation _ stored set hrow hmem ⟨hqueued, hfirst.symm, hidle,
      ⟨hopen, hopen⟩, rfl, rfl, rfl, fun t => ⟨(hclaimed.sets t).1, (hclaimed.sets t).2.1⟩⟩
  · cases h

lemma claimConversationTurn_eq_ok {observed : ConversationRows} {claim : ConversationTurnClaim}
    (h : claimConversationTurnAt observed rows identity handle turn ownerId nowMs duration =
      .ok (rows', claim)) :
    QueueMove rows rows' ∧ (rows' = rows ∧ (∀ t, claim ≠ .claimed t) ∨ ∃ stored ∈ rows.turns,
      (stored.state = .queued ∨ stored.state = .admitted) ∧ ∃ row set,
        claim = .claimed row ∧ TurnClaimed ownerId stored row set ∧
          rows'.turns = setTurn rows.turns stored.sequence set) := by
  simp only [claimConversationTurnAt, bind_eq_ok] at h
  obtain ⟨_, _, _, _, _, _, _, _, _, _, seen, hseen, h⟩ := h
  split at h
  · cases h
    exact ⟨.row .keep, .inl ⟨rfl, fun t ht => (inspectTurnClaim_eq_ok hseen).1 t (ht ▸ rfl)⟩⟩
  · simp only [bind_eq_ok] at h
    obtain ⟨look, hlook, h⟩ := h
    obtain ⟨hlooked, hwrite⟩ := inspectTurnClaim_eq_ok hlook
    split at h
    · cases h
      exact ⟨.row .keep, .inl ⟨rfl, fun t ht => hlooked t (ht ▸ rfl)⟩⟩
    · obtain ⟨hrow, hmem⟩ := hwrite _ _ rfl
      obtain ⟨hmove, hlive, hclaimed⟩ := writeTurnClaim_eq_ok hrow hmem h
      exact ⟨hmove, .inr ⟨_, hmem, hlive, hclaimed⟩⟩

/-- A commit that is answered finds the intent committed by the same owner, or commits it. -/
lemma commitConversationTurnIntent_eq_ok {sequence : ℕ} {answered : StoredConversationTurn}
    (h : commitConversationTurnIntent rows identity handle turn sequence ownerId revision =
      .ok (rows', answered)) :
    ∃ row stored, validateIdentity identity = .ok () ∧ validateHandle handle = .ok () ∧
      validateTurnIdentity turn = .ok () ∧ validateNonempty ownerId = .ok () ∧
      requireConversation rows = .ok row ∧ row.identity = identity ∧
      row.handleJson = some handle ∧ row.state = .open ∧
      requireTurnBySequence rows sequence = .ok stored ∧ stored.identity = turn ∧
      stored.claimOwner = some ownerId ∧
      ((stored.state = .intentCommitted ∧ rows' = rows) ∨
        (stored.state = .admitted ∧ stored.revision = revision ∧
          ∃ set : StoredConversationTurn → StoredConversationTurn,
            (∀ u, (set u).sequence = u.sequence ∧ (set u).state = .intentCommitted ∧
              (set u).revision = stored.revision + 1 ∧ (set u).claimOwner = u.claimOwner) ∧
            rows' = { rows with turns := setTurn rows.turns sequence set })) := by
  simp only [commitConversationTurnIntent, bind_eq_ok, requireIdentity, requireHandle,
    requireTurnIdentity, require_eq_ok, decide_eq_true_eq, Bool.and_eq_true] at h
  obtain ⟨_, hidentity, _, hhandle, _, hturn, _, howner, row, hrow, _, hid, _, hjson, _,
    ⟨hopen, -⟩, stored, hstored, _, hsame, h⟩ := h
  refine ⟨row, stored, hidentity, hhandle, hturn, howner, hrow, hid, hjson, hopen, hstored, hsame,
    ?_⟩
  split at h
  · next hcommitted =>
    cases h
    exact ⟨hcommitted.2, .inl ⟨hcommitted.1, rfl⟩⟩
  · simp only [bind_eq_ok, require_eq_ok, pure_eq_ok, Prod.mk.injEq, Bool.and_eq_true,
      decide_eq_true_eq] at h
    obtain ⟨_, ⟨hadmitted, hclaim⟩, _, hrevision, next, hnext, _, hupdate, _, _, rfl, -⟩ := h
    obtain rfl := nextRevision_eq_ok hnext
    obtain rfl := updateTurn_eq_ok hupdate
    refine ⟨hclaim, .inr ⟨hadmitted, hrevision, _, ?_, rfl⟩⟩
    intro u
    exact ⟨rfl, rfl, rfl, rfl⟩

lemma commitConversationTurnIntent_move {sequence : ℕ} {answered : StoredConversationTurn}
    (h : commitConversationTurnIntent rows identity handle turn sequence ownerId revision =
      .ok (rows', answered)) :
    QueueMove rows rows' ∧
      TurnChange rows.turns (.commitIntent identity handle turn sequence ownerId revision)
        (.ok (.turn answered)) rows'.turns := by
  obtain ⟨row, stored, -, -, -, -, -, -, -, -, hstored, -, howner, hcase⟩ :=
    commitConversationTurnIntent_eq_ok h
  obtain ⟨hmem, rfl⟩ := requireTurnBySequence_eq_ok hstored
  rcases hcase with ⟨-, rfl⟩ | ⟨hadmitted, rfl, set, hset, rfl⟩
  · exact ⟨.row .keep, .keep⟩
  · exact ⟨.advance stored .intentCommitted set hmem hadmitted rfl fun u =>
      ⟨(hset u).1, (hset u).2.1⟩,
      .committed stored answered ownerId set hmem hadmitted howner ⟨identity, handle, turn, rfl⟩ rfl
        hset⟩

lemma finalizeConversationTurn_move {sequence : ℕ} {completion : ConversationTurnCompletion}
    (h : finalizeConversationTurn rows identity handle turn sequence completion =
      .ok (rows', stored)) :
    QueueMove rows rows' ∧ TurnChange rows.turns call answer rows'.turns := by
  simp only [finalizeConversationTurn, bind_eq_ok, require_eq_ok, Bool.and_eq_true] at h
  obtain ⟨_, _, _, _, _, _, _, ⟨hterminal, -⟩, c, hc, _, _, _, _, t, ht, _, _, h⟩ := h
  have hrow := requireConversation_eq_ok hc
  obtain ⟨hmem, rfl⟩ := requireTurnBySequence_eq_ok ht
  split at h
  · simp only [bind_eq_ok, pure_eq_ok, Prod.mk.injEq] at h
    obtain ⟨_, _, rfl, -⟩ := h
    exact ⟨.row .keep, .keep⟩
  · next hlive =>
    simp only [bind_eq_ok, require_eq_ok, pure_eq_ok, Prod.mk.injEq, decide_eq_true_eq,
      followingSequence, orElseThrow_eq_ok, Bool.or_eq_true] at h
    obtain ⟨_, hfirst, _, _, _, hstate, _, hactive, _, _, settled, hturn, next, hnext, _, _, _,
      _, advanced, hupdate, _, _, rfl, -⟩ := h
    obtain rfl := updateTurn_eq_ok hturn
    obtain ⟨row, hrow', hcond, rfl⟩ := updateConversation_eq_ok hupdate
    rw [hrow] at hrow'
    cases hrow'
    refine ⟨.settle c _ t _ hrow hmem ⟨by simpa using hlive, hfirst, ?_, hstate, rfl, rfl, ?_, rfl,
      fun u => ⟨rfl, hterminal⟩⟩, .settled t _ fun u => ⟨rfl, hterminal⟩⟩
    · intro a ha
      simpa [ha] using hactive
    · rw [u64CheckedAdd_eq_some hnext, hfirst]

/-- Every call moves the queue, and hands out only queued or admitted turns. -/
lemma executeCall_eq_ok {answer : ConversationAnswer}
    (h : executeCall rows call = .ok (rows', answer)) :
    (QueueMove rows rows' ∧ TurnChange rows.turns call (.ok answer) rows'.turns) ∧
      ∀ t, answer = .turnClaim (.claimed t) → ∃ stored ∈ rows.turns,
        t.sequence = stored.sequence ∧ (stored.state = .queued ∨ stored.state = .admitted) := by
  -- calls on the conversation row leave the turns alone
  have hrow (hmove : RowMove rows rows') :
      QueueMove rows rows' ∧ TurnChange rows.turns call (.ok answer) rows'.turns :=
    ⟨.row hmove, hmove.turns_eq ▸ .keep⟩
  cases call
  all_goals
    simp only [executeCall, bind_eq_ok, pure_eq_ok, Prod.mk.injEq, Prod.exists] at h
    obtain ⟨_, _, h, rfl, rfl⟩ := h
  case claimOpen => exact ⟨hrow (claimConversationOpen_move h), by simp⟩
  case heartbeatOpen =>
    simp only [heartbeatConversationOpenWithDuration, bind_eq_ok] at h
    obtain ⟨_, _, _, _, _, _, h⟩ := h
    exact ⟨hrow (renewOpeningLease_move h), by simp⟩
  case finishOpen => exact ⟨hrow (finishOpen_move h), by simp⟩
  case abandonOpen => exact ⟨hrow (abandonConversationOpen_move h), by simp⟩
  case beginClose => exact ⟨hrow (beginConversationClose_move h), by simp⟩
  case finishClose => exact ⟨hrow (finishConversationClose_eq_ok h).1, by simp⟩
  case commitIntent => exact ⟨commitConversationTurnIntent_move h, by simp⟩
  case enqueue => exact ⟨enqueueConversationTurn_move h, by simp⟩
  case finalize => exact ⟨finalizeConversationTurn_move h, by simp⟩
  case claim =>
    obtain ⟨hmove, ⟨rfl, hno⟩ | ⟨stored, hmem, hlive, row, set, rfl, hclaimed, hturns⟩⟩ :=
      claimConversationTurn_eq_ok h
    · exact ⟨⟨hmove, .keep⟩, fun t ht => absurd (ConversationAnswer.turnClaim.inj ht) (hno t)⟩
    · refine ⟨⟨hmove, hturns ▸ .claimed stored row _ set hmem hlive ⟨_, _, _, _, _, _, rfl⟩ rfl
        hclaimed⟩, fun t ht => ?_⟩
      cases ht
      exact ⟨stored, hmem, hclaimed.sequence, hlive⟩

end Moves

/-! ## The invariant -/

/-- The queue of an existing conversation. -/
structure QueueInv (row : StoredConversation) (turns : List StoredConversationTurn) : Prop where
  sequences : turns.map (·.sequence) = List.range row.nextSequence
  run_le : row.nextToRun ≤ row.nextSequence
  terminal : ∀ t ∈ turns, t.state.isTerminal = true ↔ t.sequence < row.nextToRun
  inFlight : ∀ t ∈ turns, t.state.inFlight = true ↔ row.activeSequence = some t.sequence
  active : ∀ a, row.activeSequence = some a → a = row.nextToRun ∧ a < row.nextSequence
  opening : row.state = .opening → row.nextSequence = 0

/-- The rows of a conversation key: no turns without a conversation, and a queue in order. -/
structure RowsInv (rows : ConversationRows) : Prop where
  absent : rows.conversation = none → rows.turns = []
  queue : ∀ row, rows.conversation = some row → QueueInv row rows.turns

lemma RowsInv.empty : RowsInv .empty :=
  ⟨fun _ => rfl, fun _ h => by simp [ConversationRows.empty] at h⟩

namespace QueueInv

variable {row row' : StoredConversation} {turns : List StoredConversationTurn}

/-- A turn is its sequence. -/
lemma eq_of_sequence_eq (hi : QueueInv row turns) {u : StoredConversationTurn} (ht : t ∈ turns)
    (hu : u ∈ turns) (h : t.sequence = u.sequence) : t = u := by
  have hnodup : (turns.map (·.sequence)).Nodup := hi.sequences ▸ nodup_range
  exact inj_on_of_nodup_map hnodup ht hu h

lemma sequence_lt (hi : QueueInv row turns) (ht : t ∈ turns) :
    t.sequence < row.nextSequence := by
  have hmem : t.sequence ∈ turns.map (·.sequence) := mem_map_of_mem ht
  rw [hi.sequences] at hmem
  exact mem_range.mp hmem

lemma turns_eq_nil (hi : QueueInv row turns) (h : row.nextSequence = 0) : turns = [] := by
  have hseq := hi.sequences
  rw [h] at hseq
  simpa using hseq

lemma start (hnext : row.nextSequence = 0) (hrun : row.nextToRun = 0)
    (hactive : row.activeSequence = none) : QueueInv row [] where
  sequences := by simp [hnext]
  run_le := by omega
  terminal := by simp
  inFlight := by simp
  active := by simp [hactive]
  opening _ := hnext

lemma refresh (hi : QueueInv row turns) (hsame : SamePointers row row')
    (hstate : row'.state = .opening → row.state = .opening) : QueueInv row' turns := by
  obtain ⟨hnext, hrun, hactive⟩ := hsame
  exact
    { sequences := hnext ▸ hi.sequences
      run_le := by rw [hnext, hrun]; exact hi.run_le
      terminal := by rw [hrun]; exact hi.terminal
      inFlight := by rw [hactive]; exact hi.inFlight
      active := by rw [hactive, hrun, hnext]; exact hi.active
      opening := fun h => hnext.trans (hi.opening (hstate h)) }

lemma enqueue (hi : QueueInv row turns) {turn : StoredConversationTurn}
    (h : Enqueues row row' turn) : QueueInv row' (turns ++ [turn]) := by
  obtain ⟨⟨-, hopen⟩, hnext, hrun, hactive, hseq, hqueued⟩ := h
  have hle := hi.run_le
  constructor
  case sequences => simp [hnext, hi.sequences, hseq, range_succ]
  case run_le => omega
  case terminal =>
    intro t ht
    rw [hrun]
    rcases mem_append.mp ht with ht | ht
    · exact hi.terminal t ht
    · obtain rfl := mem_singleton.mp ht
      simp only [hqueued, hseq, isTerminal, Bool.false_eq_true, false_iff]
      omega
  case inFlight =>
    intro t ht
    rw [hactive]
    rcases mem_append.mp ht with ht | ht
    · exact hi.inFlight t ht
    · obtain rfl := mem_singleton.mp ht
      simp only [hqueued, ConversationTurnState.inFlight, Bool.false_eq_true, false_iff]
      exact fun h => absurd (hi.active _ h).2 (by omega)
  case active =>
    intro a ha
    obtain ⟨hrunning, hlt⟩ := hi.active a (hactive ▸ ha)
    exact ⟨hrun ▸ hrunning, by omega⟩
  case opening => simp [hopen]

variable {stored : StoredConversationTurn} {set : StoredConversationTurn → StoredConversationTurn}

/-- One turn and the pointers change together. -/
lemma set_turn (hi : QueueInv row turns) (hmem : stored ∈ turns)
    (hseq : ∀ t, (set t).sequence = t.sequence) (hnext : row'.nextSequence = row.nextSequence)
    (hterminal : (set stored).state.isTerminal = true ↔ stored.sequence < row'.nextToRun)
    (hflight : (set stored).state.inFlight = true ↔ row'.activeSequence = some stored.sequence)
    (hothers : ∀ q ≠ stored.sequence, (q < row'.nextToRun ↔ q < row.nextToRun) ∧
      (row'.activeSequence = some q ↔ row.activeSequence = some q))
    (hrun : row'.nextToRun ≤ row.nextSequence)
    (hactive : ∀ a, row'.activeSequence = some a → a = row'.nextToRun ∧ a < row.nextSequence)
    (hopening : row'.state = .opening → row.state = .opening) :
    QueueInv row' (setTurn turns stored.sequence set) where
  sequences := by rw [map_sequence_setTurn _ _ hseq, hnext, hi.sequences]
  run_le := hnext ▸ hrun
  terminal t ht := by
    rcases mem_setTurn ht with ⟨t₀, ht₀, hq, rfl⟩ | ⟨ht, hq⟩
    · obtain rfl := hi.eq_of_sequence_eq ht₀ hmem hq
      rw [hseq, hterminal]
    · rw [(hothers _ hq).1, hi.terminal t ht]
  inFlight t ht := by
    rcases mem_setTurn ht with ⟨t₀, ht₀, hq, rfl⟩ | ⟨ht, hq⟩
    · obtain rfl := hi.eq_of_sequence_eq ht₀ hmem hq
      rw [hseq, hflight]
    · rw [(hothers _ hq).2, hi.inFlight t ht]
  active := hnext ▸ hactive
  opening h := hnext.trans (hi.opening (hopening h))

lemma admission (hi : QueueInv row turns) (hmem : stored ∈ turns)
    (h : Admits row row' stored set) : QueueInv row' (setTurn turns stored.sequence set) := by
  obtain ⟨-, hfirst, hidle, ⟨-, hopen⟩, hnext, hrun, hactive, hset⟩ := h
  refine hi.set_turn hmem (fun t => (hset t).1) hnext ?_ ?_ (fun q hq => ?_) (hrun ▸ hi.run_le)
    (fun a ha => ?_) (by simp [hopen])
  · simp [(hset stored).2, hrun, hfirst, isTerminal]
  · simp [(hset stored).2, hactive, ConversationTurnState.inFlight]
  · simp [hrun, hactive, hidle, hq.symm]
  · obtain rfl : stored.sequence = a := Option.some.inj (hactive ▸ ha)
    exact ⟨by rw [hrun, hfirst], hi.sequence_lt hmem⟩

lemma advance (hi : QueueInv row turns) {state : ConversationTurnState} (hmem : stored ∈ turns)
    (hadmitted : stored.state = .admitted) (hstate : state.inFlight = true)
    (hset : ∀ t, (set t).sequence = t.sequence ∧ (set t).state = state) :
    QueueInv row (setTurn turns stored.sequence set) := by
  refine hi.set_turn hmem (fun t => (hset t).1) rfl ?_ ?_ (fun _ _ => ⟨.rfl, .rfl⟩) hi.run_le
    hi.active id
  · rw [(hset stored).2, ← hi.terminal stored hmem, hadmitted]
    cases state <;> simp_all [ConversationTurnState.inFlight, isTerminal]
  · rw [(hset stored).2, hstate, ← hi.inFlight stored hmem, hadmitted]
    simp [ConversationTurnState.inFlight]

lemma settle (hi : QueueInv row turns) (hmem : stored ∈ turns)
    (h : Settles row row' stored set) : QueueInv row' (setTurn turns stored.sequence set) := by
  obtain ⟨-, hfirst, hactive, -, hstate, hnext, hrun, hidle, hset⟩ := h
  have hlt := hi.sequence_lt hmem
  refine hi.set_turn hmem (fun t => (hset t).1) hnext ?_ ?_ (fun q hq => ⟨by omega, ?_⟩) (by omega)
    (by simp [hidle]) (hstate ▸ id)
  · rw [(hset stored).2]
    simp only [true_iff]
    omega
  · have hterminal := (hset stored).2
    cases hs : (set stored).state <;> simp_all [ConversationTurnState.inFlight, isTerminal]
  · simp only [hidle, reduceCtorEq, false_iff]
    exact fun h => hq (hactive _ h)

end QueueInv

variable {rows rows' : ConversationRows} {t : StoredConversationTurn}

variable {row : StoredConversation}

lemma RowsInv.of_queue (h : QueueInv row turns) :
    RowsInv ⟨some row, turns⟩ :=
  ⟨nofun, fun _ hrow => Option.some.inj hrow ▸ h⟩

lemma RowsInv.exists_queue (hi : RowsInv rows) (ht : t ∈ rows.turns) :
    ∃ row, QueueInv row rows.turns := by
  cases hrow : rows.conversation with
  | none =>
    rw [hi.absent hrow] at ht
    cases ht
  | some row => exact ⟨row, hi.queue row hrow⟩

/-- The rows of two turns with one sequence are the same row. -/
lemma RowsInv.eq_of_sequence_eq (hi : RowsInv rows) {u : StoredConversationTurn}
    (ht : t ∈ rows.turns) (hu : u ∈ rows.turns) (h : t.sequence = u.sequence) : t = u := by
  obtain ⟨row, hq⟩ := hi.exists_queue ht
  exact hq.eq_of_sequence_eq ht hu h

/-- Every move keeps the rows in order. -/
lemma RowsInv.move (hi : RowsInv rows) (h : QueueMove rows rows') : RowsInv rows' := by
  cases h with
  | row h =>
    cases h with
    | keep => exact hi
    | start row hnone hnext hrun hactive =>
      refine .of_queue ?_
      rw [show rows.turns = [] from hi.absent hnone]
      exact .start hnext hrun hactive
    | drop row hrow hopening =>
      have hq := hi.queue row hrow
      exact ⟨fun _ => hq.turns_eq_nil (hq.opening hopening), nofun⟩
    | refresh row row' hrow _ hsame hstate =>
      exact .of_queue ((hi.queue row hrow).refresh hsame hstate)
  | enqueue row row' turn hrow h => exact .of_queue ((hi.queue row hrow).enqueue h)
  | admission row row' stored set hrow hmem h =>
    exact .of_queue ((hi.queue row hrow).admission hmem h)
  | advance stored state set hmem hadmitted hstate hset =>
    refine ⟨fun h => ?_, fun r h => (hi.queue r h).advance hmem hadmitted hstate hset⟩
    rw [show rows.turns = [] from hi.absent h] at hmem
    simp at hmem
  | settle row row' stored set hrow hmem h => exact .of_queue ((hi.queue row hrow).settle hmem h)

/-- The row of a closed conversation stays as it is. -/
lemma QueueMove.closed (h : QueueMove rows rows') (hrow : rows.conversation = some row)
    (hclosed : row.state = .closed) : rows'.conversation = some row := by
  have hstate {found : StoredConversation} (hfound : rows.conversation = some found) :
      found.state = .closed := by
    rw [hrow] at hfound
    cases hfound
    exact hclosed
  cases h with
  | row h =>
    cases h with
    | keep => exact hrow
    | start _ hnone => simp [hnone] at hrow
    | drop _ hfound hopening => simp [hstate hfound] at hopening
    | refresh _ _ hfound hlive => exact absurd (hstate hfound) hlive
  | enqueue _ _ _ hfound h | admission _ _ _ _ hfound _ h | settle _ _ _ _ hfound _ h =>
    have hopen := h.opened
    simp [hstate hfound] at hopen
  | advance => exact hrow

/-! ## What a turn keeps -/

/-- The turn is settled, or has committed to running. -/
def ConversationTurnState.committed (state : ConversationTurnState) : Bool :=
  state.isTerminal || state = .intentCommitted

open ConversationTurnState (committed)

/-- Settled turns stay as they are, committed turns stay committed. -/
def TurnsKept (rows rows' : ConversationRows) : Prop :=
  (∀ t ∈ rows.turns, t.state.isTerminal = true → t ∈ rows'.turns) ∧
    ∀ t ∈ rows.turns, t.state.committed = true →
      ∃ t' ∈ rows'.turns, t'.sequence = t.sequence ∧ t'.state.committed = true

lemma TurnsKept.refl (rows : ConversationRows) : TurnsKept rows rows :=
  ⟨fun _ ht _ => ht, fun t ht hc => ⟨t, ht, rfl, hc⟩⟩

lemma TurnsKept.trans (a b c : ConversationRows) (hab : TurnsKept a b)
    (hbc : TurnsKept b c) : TurnsKept a c := by
  refine ⟨fun t ht hterm => hbc.1 t (hab.1 t ht hterm) hterm, fun t ht hc => ?_⟩
  obtain ⟨t₁, ht₁, hseq₁, hc₁⟩ := hab.2 t ht hc
  obtain ⟨t₂, ht₂, hseq₂, hc₂⟩ := hbc.2 t₁ ht₁ hc₁
  exact ⟨t₂, ht₂, hseq₂.trans hseq₁, hc₂⟩

lemma TurnsKept.of_subset (h : rows.turns ⊆ rows'.turns) : TurnsKept rows rows' :=
  ⟨fun _ ht _ => h ht, fun t ht hc => ⟨t, h ht, rfl, hc⟩⟩

/-- Rewriting one live turn keeps the others, and keeps that turn's commitment if the
rewriting does. -/
lemma TurnsKept.setTurn {stored : StoredConversationTurn}
    {set : StoredConversationTurn → StoredConversationTurn} (hi : RowsInv rows)
    (hmem : stored ∈ rows.turns) (hlive : stored.state.isTerminal = false)
    (hset : ∀ t, (set t).sequence = t.sequence)
    (hcommit : stored.state.committed = true → (set stored).state.committed = true)
    (hrows : rows'.turns = Session.setTurn rows.turns stored.sequence set) :
    TurnsKept rows rows' := by
  refine ⟨fun t ht hterm => ?_, fun t ht hc => ?_⟩
  · rw [hrows]
    refine setTurn_mem_of_ne ht fun hseq => ?_
    rw [hi.eq_of_sequence_eq ht hmem hseq, hlive] at hterm
    simp at hterm
  · by_cases hseq : t.sequence = stored.sequence
    · obtain rfl := hi.eq_of_sequence_eq ht hmem hseq
      exact ⟨set t, hrows ▸ setTurn_mem_of_eq ht rfl, hset t, hcommit hc⟩
    · exact ⟨t, hrows ▸ setTurn_mem_of_ne ht hseq, rfl, hc⟩

lemma QueueMove.kept (h : QueueMove rows rows') (hi : RowsInv rows) : TurnsKept rows rows' := by
  cases h with
  | row h => exact .of_subset (h.turns_eq ▸ List.Subset.refl _)
  | enqueue => exact .of_subset (subset_append_left _ _)
  | admission row row' stored set hrow hmem h =>
    refine .setTurn hi hmem (by rw [h.queued]; rfl) (fun t => (h.sets t).1) ?_ rfl
    intro hc
    simp [h.queued, committed, isTerminal] at hc
  | advance stored state set hmem hadmitted _ hset =>
    refine .setTurn hi hmem (by rw [hadmitted]; rfl) (fun t => (hset t).1) ?_ rfl
    intro hc
    simp [hadmitted, committed, isTerminal] at hc
  | settle row row' stored set hrow hmem h =>
    refine .setTurn hi hmem h.live (fun t => (h.sets t).1) ?_ rfl
    intro _
    simp [committed, (h.sets stored).2]

/-! ## Whole runs -/

/-- A call is rolled back or makes a move. -/
lemma next_moves (rows : ConversationRows) (call : ConversationCall) :
    QueueMove rows (conversationMachine.next rows call) ∧
      TurnChange rows.turns call (conversationMachine.answer rows call)
        (conversationMachine.next rows call).turns := by
  cases h : executeCall rows call with
  | ok result =>
    simp only [Machine.next, Machine.answer, conversationMachine, h]
    exact (executeCall_eq_ok h).1
  | error e =>
    simp only [Machine.next, Machine.answer, conversationMachine, h]
    exact ⟨.row .keep, .keep⟩

lemma next_move (rows : ConversationRows) (call : ConversationCall) :
    QueueMove rows (conversationMachine.next rows call) :=
  (next_moves rows call).1

lemma answer_claimed {call : ConversationCall}
    (h : conversationMachine.answer rows call = .ok (.turnClaim (.claimed t))) :
    ∃ stored ∈ rows.turns, t.sequence = stored.sequence ∧
      (stored.state = .queued ∨ stored.state = .admitted) := by
  cases hexec : executeCall rows call with
  | ok result =>
    simp only [Machine.answer, conversationMachine, hexec, Except.ok.injEq] at h
    exact (executeCall_eq_ok hexec).2 t h
  | error e => simp [Machine.answer, conversationMachine, hexec] at h

lemma run_rowsInv (hi : RowsInv rows) (calls : List ConversationCall) :
    RowsInv (conversationMachine.run rows calls) :=
  Machine.run_invariant (fun s e h => h.move (next_move s e)) hi calls

lemma run_turnsKept (hi : RowsInv rows) (calls : List ConversationCall) :
    TurnsKept rows (conversationMachine.run rows calls) :=
  Machine.run_relation .refl .trans (fun s e h => h.move (next_move s e))
    (fun s e h => (next_move s e).kept h) hi calls

/-- After its intent is committed a turn is never claimed: a claim hands out only queued or
admitted turns, and commitment is kept. -/
lemma not_claimed_of_committed (hi : RowsInv rows) (ht : t ∈ rows.turns)
    (hc : t.state.committed = true) {calls : List ConversationCall}
    {step : Machine.Step ConversationRows ConversationCall
      (Result ConversationAnswer)} (h : step ∈ conversationMachine.trace rows calls)
    {u : StoredConversationTurn} (hanswer : step.answer = .ok (.turnClaim (.claimed u))) :
    u.sequence ≠ t.sequence := by
  obtain ⟨before, after, -, hstep⟩ := conversationMachine.exists_of_mem_trace h
  rw [hstep] at hanswer
  have hi' := run_rowsInv hi before
  obtain ⟨t', ht', hseq, hc'⟩ := (run_turnsKept hi before).2 t ht hc
  obtain ⟨stored, hstored, hclaimed, hstate⟩ := answer_claimed hanswer
  intro heq
  have hsame := hi'.eq_of_sequence_eq hstored ht' (hclaimed.symm.trans (heq.trans hseq.symm))
  rcases hstate with hstate | hstate <;> rw [hsame] at hstate <;>
    simp [hstate, committed, isTerminal] at hc'

/-- The turn in flight is the head of the queue. -/
lemma QueueInv.inFlight_head (hi : QueueInv row turns) (ht : t ∈ turns)
    (hflight : t.state.inFlight = true) :
    t.sequence = row.nextToRun ∧ row.activeSequence = some t.sequence ∧
      (∀ u ∈ turns, u.state.inFlight = true → u = t) ∧
      ∀ u ∈ turns, t.sequence < u.sequence → u.state = .queued := by
  have hactive := (hi.inFlight t ht).mp hflight
  have hhead := (hi.active _ hactive).1
  refine ⟨hhead, hactive, fun u hu huflight => ?_, fun u hu hlt => ?_⟩
  · have hu' := (hi.inFlight u hu).mp huflight
    exact hi.eq_of_sequence_eq hu ht (Option.some.inj (hu'.symm.trans hactive))
  · have hterm : ¬ u.state.isTerminal = true := by rw [hi.terminal u hu]; omega
    have hidle : ¬ u.state.inFlight = true := by
      rw [hi.inFlight u hu, hactive]
      exact fun h => absurd (Option.some.inj h) (by omega)
    cases hs : u.state <;> simp_all [isTerminal,
      ConversationTurnState.inFlight]

/-- The turn queue of a conversation over any sequence of calls, owners and clocks. -/
theorem conversation_turns_run_in_order (calls : List ConversationCall) :
    let rows := conversationMachine.run .empty calls
    (rows.conversation = none → rows.turns = []) ∧
    (∀ row, rows.conversation = some row →
      rows.turns.map (·.sequence) = List.range row.nextSequence ∧
      row.nextToRun ≤ row.nextSequence ∧
      (∀ t ∈ rows.turns, t.state.isTerminal = true ↔ t.sequence < row.nextToRun) ∧
      ∀ t ∈ rows.turns, t.state = .admitted ∨ t.state = .intentCommitted →
        t.sequence = row.nextToRun ∧ row.activeSequence = some t.sequence ∧
        (∀ u ∈ rows.turns, u.state = .admitted ∨ u.state = .intentCommitted → u = t) ∧
        ∀ u ∈ rows.turns, t.sequence < u.sequence → u.state = .queued) ∧
    ∀ later : List ConversationCall,
      (∀ t ∈ rows.turns, t.state.isTerminal = true →
        t ∈ (conversationMachine.run rows later).turns) ∧
      ∀ t ∈ rows.turns, t.state = .intentCommitted →
        ∀ step ∈ conversationMachine.trace rows later, ∀ u,
          step.answer = .ok (.turnClaim (.claimed u)) → u.sequence ≠ t.sequence := by
  intro rows
  have hi : RowsInv rows := run_rowsInv .empty calls
  have hflight : ∀ t : StoredConversationTurn,
      t.state = .admitted ∨ t.state = .intentCommitted ↔ t.state.inFlight = true := by
    intro t
    cases t.state <;> simp [ConversationTurnState.inFlight]
  refine ⟨hi.absent, fun row hrow => ?_, fun later => ⟨(run_turnsKept hi later).1, ?_⟩⟩
  · have hq := hi.queue row hrow
    refine ⟨hq.sequences, hq.run_le, hq.terminal, fun t ht hstate => ?_⟩
    obtain ⟨hhead, hactive, hunique, hafter⟩ := hq.inFlight_head ht ((hflight t).mp hstate)
    exact ⟨hhead, hactive, fun u hu h => hunique u hu ((hflight u).mp h), hafter⟩
  · intro t ht hstate step hstep u hanswer
    refine not_claimed_of_committed hi ht ?_ hstep hanswer
    simp [hstate, committed]

end SolarisMesh.Session
