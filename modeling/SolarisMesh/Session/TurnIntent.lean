import SolarisMesh.Session.TurnQueue

/-!
# Committing the intent of a turn

A turn is handed out by a claim, again and again while its intent is not committed; each claim
is known by the revision it was granted. The commit of an intent checks that revision only
while the turn is admitted. Once the intent is committed, the call is answered from the stored
row if the owner is the same, and whoever claimed the turn earlier under that owner is told
that its intent is committed.

So at most one claim of a turn is told so exactly if no earlier claim of the same owner asks
after the commit.
-/

namespace SolarisMesh.Session

open List Lib

/-- A step of the conversation. -/
abbrev ConversationStep :=
  Machine.Step ConversationRows ConversationCall (Result ConversationAnswer)

/-! ## Claims and commits in a trace -/

/-- The turn `q` was handed out to `owner` with `revision`. -/
def Granted (steps : List ConversationStep) (q : ℕ) (owner : String) (revision : ℤ) : Prop :=
  ∃ x ∈ steps, ∃ t, x.event.claimsFor owner ∧ x.answer = .ok (.turnClaim (.claimed t)) ∧
    t.sequence = q ∧ t.revision = revision

/-- The claim was told that its intent is committed. -/
def Acknowledged (steps : List ConversationStep) (q : ℕ) (owner : String) (revision : ℤ) : Prop :=
  ∃ x ∈ steps, ∃ t, x.event.commitsFor q owner revision ∧ x.answer = .ok (.turn t)

/-- At most one claim of the turn was told that its intent is committed. -/
def CommittedByOneClaim (steps : List ConversationStep) (q : ℕ) : Prop :=
  ∀ owner owner' revision revision',
    Granted steps q owner revision → Acknowledged steps q owner revision →
    Granted steps q owner' revision' → Acknowledged steps q owner' revision' →
      revision = revision'

/-- The call asks for a commit that another claim of the same owner has made. -/
def LateCommit (rows : ConversationRows) (call : ConversationCall) (q : ℕ) (owner : String)
    (revision : ℤ) : Prop :=
  ∃ identity handle turn row t,
    call = .commitIntent identity handle turn q owner revision ∧
    validateIdentity identity = .ok () ∧ validateHandle handle = .ok () ∧
    validateTurnIdentity turn = .ok () ∧ validateNonempty owner = .ok () ∧
    requireConversation rows = .ok row ∧ row.identity = identity ∧
    row.handleJson = some handle ∧ row.state = .open ∧
    requireTurnBySequence rows q = .ok t ∧ t.identity = turn ∧
    t.state = .intentCommitted ∧ t.claimOwner = some owner ∧ t.revision ≠ revision + 1

variable {xs ys : List ConversationStep} {q : ℕ} {owner : String} {revision : ℤ}

lemma Granted.append (h : Granted xs q owner revision) : Granted (xs ++ ys) q owner revision := by
  obtain ⟨x, hx, t, hrest⟩ := h
  exact ⟨x, mem_append_left ys hx, t, hrest⟩

lemma Acknowledged.append (h : Acknowledged xs q owner revision) :
    Acknowledged (xs ++ ys) q owner revision := by
  obtain ⟨x, hx, t, hrest⟩ := h
  exact ⟨x, mem_append_left ys hx, t, hrest⟩

/-! ## The committed revision -/

variable {rows : ConversationRows} {steps : List ConversationStep}

variable {t : StoredConversationTurn}

/-- The intent of the turn `q` was committed at `revision`, and the turn may have been settled
since. -/
def CommittedAt (rows : ConversationRows) (q : ℕ) (revision : ℤ) : Prop :=
  ∃ t ∈ rows.turns, t.sequence = q ∧
    ((t.state = .intentCommitted ∧ t.revision = revision) ∨ t.state.isTerminal = true)

lemma CommittedAt.next (hi : RowsInv rows) (h : CommittedAt rows q revision)
    (call : ConversationCall) : CommittedAt (conversationMachine.next rows call) q revision := by
  obtain ⟨t, ht, hq, hstate⟩ := h
  -- a turn that is rewritten because it was queued or admitted is another one
  have hother : ∀ stored ∈ rows.turns, ∀ set : StoredConversationTurn → StoredConversationTurn,
      stored.state = .queued ∨ stored.state = .admitted →
      t ∈ setTurn rows.turns stored.sequence set := by
    intro stored hstored set hlive
    apply setTurn_mem_of_ne ht
    intro hsame
    obtain rfl := hi.eq_of_sequence_eq ht hstored hsame
    rcases hlive with hlive | hlive <;> rw [hlive] at hstate <;>
      simp [ConversationTurnState.isTerminal] at hstate
  unfold CommittedAt
  have hchange := (next_moves rows call).2
  generalize (conversationMachine.next rows call).turns = turns at hchange ⊢
  cases hchange with
  | keep => exact ⟨t, ht, hq, hstate⟩
  | enqueued turn _ => exact ⟨t, mem_append_left _ ht, hq, hstate⟩
  | claimed stored _ _ set hmem hlive => exact ⟨t, hother stored hmem set hlive, hq, hstate⟩
  | committed stored _ _ set hmem hadmitted =>
    exact ⟨t, hother stored hmem set (.inr hadmitted), hq, hstate⟩
  | settled stored set hset =>
    by_cases hsame : t.sequence = stored.sequence
    · refine ⟨set t, setTurn_mem_of_eq ht hsame, ?_, .inr (hset t).2⟩
      rw [(hset t).1, hq]
    · exact ⟨t, setTurn_mem_of_ne ht hsame, hq, hstate⟩

lemma CommittedAt.run (hi : RowsInv rows) (h : CommittedAt rows q revision)
    (calls : List ConversationCall) :
    CommittedAt (conversationMachine.run rows calls) q revision := by
  have hboth : RowsInv (conversationMachine.run rows calls) ∧
      CommittedAt (conversationMachine.run rows calls) q revision := by
    refine Machine.run_invariant (P := fun s => RowsInv s ∧ CommittedAt s q revision) ?_ ⟨hi, h⟩
      calls
    intro s call hs
    exact ⟨hs.1.move (next_move s call), hs.2.next hs.1 call⟩
  exact hboth.2

/-- An answered commit finds the turn admitted with the revision it names, or finds its intent
committed. Afterwards the intent is committed. -/
lemma commit_answered {call : ConversationCall} {answered : StoredConversationTurn}
    (hcall : call.commitsFor q owner revision)
    (hanswer : conversationMachine.answer rows call = .ok (.turn answered)) :
    (∃ stored ∈ rows.turns, stored.sequence = q ∧ stored.state = .admitted ∧
        CommittedAt (conversationMachine.next rows call) q (revision + 1)) ∨
      ∃ stored ∈ rows.turns, stored.sequence = q ∧ stored.state = .intentCommitted ∧
        conversationMachine.next rows call = rows ∧
        (stored.revision ≠ revision + 1 → LateCommit rows call q owner revision) := by
  obtain ⟨identity, handle, turn, rfl⟩ := hcall
  cases hexec : commitConversationTurnIntent rows identity handle turn q owner revision with
  | error e =>
    simp [Machine.answer, conversationMachine, executeCall, hexec, Bind.bind, Except.bind]
      at hanswer
  | ok result =>
    obtain ⟨rows', t⟩ := result
    have hnext : conversationMachine.next rows
        (.commitIntent identity handle turn q owner revision) = rows' := by
      simp [Machine.next, conversationMachine, executeCall, hexec, Bind.bind, Except.bind,
        Pure.pure, Except.pure]
    rw [hnext]
    obtain ⟨row, stored, hid, hhandle, hturn, howner, hrow, hrowid, hjson, hopen, hstored, hsame,
      hclaim, hcase⟩ := commitConversationTurnIntent_eq_ok hexec
    obtain ⟨hmem, hseq⟩ := requireTurnBySequence_eq_ok hstored
    rcases hcase with ⟨hstate, rfl⟩ | ⟨hadmitted, hrevision, set, hset, hturns⟩
    · right
      refine ⟨stored, hmem, hseq, hstate, rfl, ?_⟩
      intro hlate
      exact ⟨identity, handle, turn, row, stored, rfl, hid, hhandle, hturn, howner, hrow, hrowid,
        hjson, hopen, hstored, hsame, hstate, hclaim, hlate⟩
    · left
      refine ⟨stored, hmem, hseq, hadmitted, set stored, ?_, ?_, .inl ⟨(hset stored).2.1, ?_⟩⟩
      · rw [hturns]
        exact setTurn_mem_of_eq hmem hseq
      · rw [(hset stored).1, hseq]
      · rw [(hset stored).2.2.1, hrevision]

/-- A late commit is answered like the first one. -/
lemma LateCommit.answered {call : ConversationCall} (hi : RowsInv rows)
    (h : LateCommit rows call q owner revision) :
    ∃ t, conversationMachine.answer rows call = .ok (.turn t) := by
  obtain ⟨identity, handle, turn, row, t, rfl, hid, hhandle, hturn, howner, hrow, hrowid, hjson,
    hopen, ht, hsame, hstate, hclaim, -⟩ := h
  obtain ⟨hmem, hseq⟩ := requireTurnBySequence_eq_ok ht
  have hactive : row.activeSequence = some q := by
    have hq := hi.queue row (requireConversation_eq_ok hrow)
    rw [← hseq]
    exact (hq.inFlight t hmem).mp (by rw [hstate]; rfl)
  have hcommit : commitConversationTurnIntent rows identity handle turn q owner revision =
      .ok (rows, t) := by
    simp only [commitConversationTurnIntent, bind_eq_ok, requireIdentity, requireHandle,
      requireTurnIdentity, require_eq_ok]
    refine ⟨(), hid, (), hhandle, (), hturn, (), howner, row, hrow, (), decide_eq_true hrowid, (),
      decide_eq_true hjson, (), ?_, t, ht, (), decide_eq_true hsame, ?_⟩
    · rw [decide_eq_true hopen, decide_eq_true hactive]
      rfl
    · rw [if_pos ⟨hstate, hclaim⟩]
      rfl
  refine ⟨t, ?_⟩
  simp [Machine.answer, conversationMachine, executeCall, hcommit, Bind.bind, Except.bind,
    Pure.pure, Except.pure]

/-! ## What the trace says about the stored turn -/

/-- An admitted turn was granted with its revision, and a committed one was granted and
acknowledged with the revision before. -/
def Documented (q : ℕ) (rows : ConversationRows) (steps : List ConversationStep) : Prop :=
  ∀ t ∈ rows.turns, t.sequence = q →
    (t.state = .admitted → ∃ owner, t.claimOwner = some owner ∧ Granted steps q owner t.revision) ∧
    (t.state = .intentCommitted → ∃ owner revision, t.claimOwner = some owner ∧
      t.revision = revision + 1 ∧ Granted steps q owner revision ∧
      Acknowledged steps q owner revision)

lemma Documented.append (h : Documented q rows steps)
    (more : List ConversationStep) : Documented q rows (steps ++ more) := by
  intro t ht hq
  obtain ⟨hadmitted, hcommitted⟩ := h t ht hq
  constructor
  · intro hstate
    obtain ⟨owner, howner, hgrant⟩ := hadmitted hstate
    exact ⟨owner, howner, hgrant.append⟩
  · intro hstate
    obtain ⟨owner, revision, howner, hrevision, hgrant, hack⟩ := hcommitted hstate
    exact ⟨owner, revision, howner, hrevision, hgrant.append, hack.append⟩

lemma Documented.next (hi : RowsInv rows)
    (h : Documented q rows steps) (call : ConversationCall) :
    Documented q (conversationMachine.next rows call)
      (steps ++ [conversationMachine.stepAt rows call]) := by
  have hstep : conversationMachine.stepAt rows call ∈
      steps ++ [conversationMachine.stepAt rows call] := by simp
  have hold := h.append [conversationMachine.stepAt rows call]
  have hchange := (next_moves rows call).2
  unfold Documented
  generalize (conversationMachine.next rows call).turns = turns at hchange ⊢
  intro t ht hq
  cases hchange with
  | keep => exact hold t ht hq
  | enqueued turn hqueued =>
    rcases mem_append.mp ht with ht | ht
    · exact hold t ht hq
    · rw [mem_singleton] at ht
      rw [ht, hqueued]
      exact ⟨fun hstate => (by cases hstate), fun hstate => (by cases hstate)⟩
  | claimed stored granted owner set hmem _ hcall hanswer hclaimed =>
    rcases mem_setTurn ht with ⟨u, hu, husame, rfl⟩ | ⟨ht, -⟩
    · obtain ⟨hsetseq, hsetstate, hsetrevision, hsetowner⟩ := hclaimed.sets u
      rw [hsetstate]
      refine ⟨fun _ => ⟨owner, hsetowner, _, hstep, granted, hcall, hanswer, ?_, ?_⟩,
        fun hstate => (by cases hstate)⟩
      · rw [hclaimed.sequence, ← husame, ← hsetseq, hq]
      · rw [hclaimed.revision, hsetrevision]
    · exact hold t ht hq
  | committed stored answered owner set hmem hadmitted howner hcall hanswer hset =>
    rcases mem_setTurn ht with ⟨u, hu, husame, rfl⟩ | ⟨ht, -⟩
    · obtain ⟨hsetseq, hsetstate, hsetrevision, hsetowner⟩ := hset u
      obtain rfl := hi.eq_of_sequence_eq hu hmem husame
      rw [hsetseq] at hq
      subst hq
      obtain ⟨owner', howner', hgrant⟩ := (hold u hu rfl).1 hadmitted
      rw [howner] at howner'
      cases howner'
      rw [hsetstate]
      refine ⟨fun hstate => (by cases hstate), fun _ => ⟨owner, u.revision, ?_, hsetrevision,
        hgrant, _, hstep, answered, hcall, hanswer⟩⟩
      rw [hsetowner, howner]
    · exact hold t ht hq
  | settled stored set hset =>
    rcases mem_setTurn ht with ⟨u, hu, _, rfl⟩ | ⟨ht, -⟩
    · have hterminal := (hset u).2
      refine ⟨fun hstate => ?_, fun hstate => ?_⟩ <;> rw [hstate] at hterminal <;>
        simp [ConversationTurnState.isTerminal] at hterminal
    · exact hold t ht hq

lemma run_documented (q : ℕ) (calls : List ConversationCall) :
    RowsInv (conversationMachine.run .empty calls) ∧
      Documented q (conversationMachine.run .empty calls)
        (conversationMachine.trace .empty calls) := by
  refine Machine.history_invariant (P := fun s xs => RowsInv s ∧ Documented q s xs) ?_ ?_ calls
  · intro s xs call hs
    exact ⟨hs.1.move (next_move s call), hs.2.next hs.1 call⟩
  · exact ⟨.empty, fun t ht => by cases ht⟩

/-! ## At most one claim -/

/-- Two answered commits that are not late name the same revision: the first one leaves the
turn committed at it. -/
lemma acknowledged_eq {x y : ConversationStep} {owner' : String} {revision' : ℤ}
    {t' : StoredConversationTurn} (hafter : conversationMachine.After .empty x y)
    (hcall : x.event.commitsFor q owner revision) (hcall' : y.event.commitsFor q owner' revision')
    (hanswer : x.answer = .ok (.turn t)) (hanswer' : y.answer = .ok (.turn t'))
    (hnot : ¬ LateCommit x.before x.event q owner revision)
    (hnot' : ¬ LateCommit y.before y.event q owner' revision') : revision = revision' := by
  obtain ⟨before, later, hx, hy⟩ := hafter
  generalize x.event = call at hx hy hcall hnot
  generalize y.event = call' at hy hcall' hnot'
  subst hx hy
  have hi := run_rowsInv .empty before
  have hi' := run_rowsInv .empty (before ++ call :: later)
  have hcommitted : CommittedAt (conversationMachine.next (conversationMachine.run .empty before)
      call) q (revision + 1) := by
    rcases commit_answered hcall hanswer with ⟨_, _, _, _, h⟩ | ⟨u, hu, hseq, hstate, hsame, hlate⟩
    · exact h
    · rw [hsame]
      exact ⟨u, hu, hseq, .inl ⟨hstate, not_not.mp fun h => hnot (hlate h)⟩⟩
  have hkept := hcommitted.run (hi.move (next_move _ call)) later
  rw [← Machine.run_cons, ← Machine.run_append] at hkept
  obtain ⟨u, hu, huseq, hustate⟩ := hkept
  rcases commit_answered hcall' hanswer' with ⟨v, hv, hvseq, hvstate, -⟩ |
    ⟨v, hv, hvseq, hvstate, -, hlate⟩
  · obtain rfl := hi'.eq_of_sequence_eq hu hv (huseq.trans hvseq.symm)
    rw [hvstate] at hustate
    simp [ConversationTurnState.isTerminal] at hustate
  · obtain rfl := hi'.eq_of_sequence_eq hu hv (huseq.trans hvseq.symm)
    have hrevision' : u.revision = revision' + 1 := not_not.mp fun h => hnot' (hlate h)
    rcases hustate with ⟨-, hrevision⟩ | hterminal
    · omega
    · rw [hvstate] at hterminal
      cases hterminal

/-- At most one claim of a turn is told that its intent is committed, exactly if no claim asks
after another claim of the same owner has committed. -/
theorem committed_by_one_claim_iff (calls : List ConversationCall) (q : ℕ) :
    CommittedByOneClaim (conversationMachine.trace .empty calls) q ↔
      ∀ x ∈ conversationMachine.trace .empty calls, ∀ owner revision,
        Granted (conversationMachine.trace .empty calls) q owner revision →
          ¬ LateCommit x.before x.event q owner revision := by
  constructor
  · intro hone x hx owner revision hgrant hlate
    obtain ⟨before, after, hcalls, hstep⟩ := conversationMachine.exists_of_mem_trace hx
    have hbefore : x.before = conversationMachine.run .empty before := by rw [hstep]; rfl
    have hanswered : x.answer = conversationMachine.answer x.before x.event := by rw [hstep]; rfl
    rw [hbefore] at hlate
    obtain ⟨hi, hdoc⟩ := run_documented q before
    obtain ⟨t, hanswer⟩ := hlate.answered hi
    obtain ⟨identity, handle, turn, row, u, hevent, -, -, -, -, -, -, -, -, hu, -, hstate, hclaim,
      hne⟩ := hlate
    obtain ⟨humem, huseq⟩ := requireTurnBySequence_eq_ok hu
    -- the claim that did commit
    obtain ⟨owner', revision', howner', hrevision', hgrant', hack'⟩ :=
      (hdoc u humem huseq).2 hstate
    rw [hclaim] at howner'
    cases howner'
    have hack : Acknowledged (conversationMachine.trace .empty calls) q owner revision := by
      refine ⟨x, hx, t, ⟨identity, handle, turn, hevent⟩, ?_⟩
      rw [hanswered, hbefore, hanswer]
    have htrace : conversationMachine.trace .empty calls =
        conversationMachine.trace .empty before ++
          conversationMachine.trace (conversationMachine.run .empty before) (x.event :: after) := by
      conv_lhs => rw [hcalls, Machine.trace_append]
    have hsame : revision = revision' := by
      apply hone owner owner revision revision' hgrant hack
      · rw [htrace]
        exact hgrant'.append
      · rw [htrace]
        exact hack'.append
    exact hne (by rw [hrevision', hsame])
  · intro hnot owner owner' revision revision' hgrant hack hgrant' hack'
    obtain ⟨x, hx, t, hcall, hanswer⟩ := hack
    obtain ⟨y, hy, t', hcall', hanswer'⟩ := hack'
    have hxnot := hnot x hx owner revision hgrant
    have hynot := hnot y hy owner' revision' hgrant'
    rcases conversationMachine.after_of_mem_trace hx hy with rfl | hafter | hafter
    · obtain ⟨_, _, _, hevent⟩ := hcall
      obtain ⟨_, _, _, hevent'⟩ := hcall'
      rw [hevent] at hevent'
      cases hevent'
      rfl
    · exact acknowledged_eq hafter hcall hcall' hanswer hanswer' hxnot hynot
    · exact (acknowledged_eq hafter hcall' hcall hanswer' hanswer hynot hxnot).symm

/-! ## Two claims that are both told so -/

section Reclaimed

private def reclaimedIdentity : ConversationIdentity :=
  ⟨1, "run", "root", "chat", "agent", "session", "task", "open", "spec"⟩

private def reclaimedTurn : ConversationTurnIdentity := ⟨"turn", "operation", "message", "input"⟩

/-- The rows after the conversation was opened and the turn enqueued. -/
private def reclaimedRows : ConversationRows :=
  conversationMachine.run .empty
    [.claimOpen reclaimedIdentity "p" 90000 0 false,
      .finishOpen reclaimedIdentity (some "p") (some 1) (some 0) [7],
      .enqueue reclaimedIdentity [7] reclaimedTurn]

/-- One service claims a turn twice, commits with the second claim and then with the first. -/
def reclaimed : List ConversationCall :=
  [.claimOpen reclaimedIdentity "p" 90000 0 false,
    .finishOpen reclaimedIdentity (some "p") (some 1) (some 0) [7],
    .enqueue reclaimedIdentity [7] reclaimedTurn,
    .claim reclaimedRows reclaimedIdentity [7] reclaimedTurn "p" 1 90000,
    .claim reclaimedRows reclaimedIdentity [7] reclaimedTurn "p" 2 90000,
    .commitIntent reclaimedIdentity [7] reclaimedTurn 0 "p" 2,
    .commitIntent reclaimedIdentity [7] reclaimedTurn 0 "p" 1]

/-- What the step at a position asked and was answered. -/
private def reclaimedStep (position : ℕ) : Option (ConversationCall × Result ConversationAnswer) :=
  ((conversationMachine.trace .empty reclaimed)[position]?).map fun x => (x.event, x.answer)

private lemma granted_of_reclaimedStep {position : ℕ} {now : ℤ} (h : reclaimedStep position =
      some (.claim reclaimedRows reclaimedIdentity [7] reclaimedTurn "p" now 90000,
        .ok (.turnClaim (.claimed t)))) :
    Granted (conversationMachine.trace .empty reclaimed) t.sequence "p" t.revision := by
  obtain ⟨x, hx, hpair⟩ := Option.map_eq_some_iff.mp h
  obtain ⟨hevent, hanswer⟩ := Prod.mk.inj hpair
  exact ⟨x, mem_of_getElem? hx, t, ⟨_, _, _, _, _, _, hevent⟩, hanswer, rfl, rfl⟩

private lemma acknowledged_of_reclaimedStep {position q : ℕ} {revision : ℤ}
    (h : reclaimedStep position =
      some (.commitIntent reclaimedIdentity [7] reclaimedTurn q "p" revision, .ok (.turn t))) :
    Acknowledged (conversationMachine.trace .empty reclaimed) q "p" revision := by
  obtain ⟨x, hx, hpair⟩ := Option.map_eq_some_iff.mp h
  obtain ⟨hevent, hanswer⟩ := Prod.mk.inj hpair
  exact ⟨x, mem_of_getElem? hx, t, ⟨_, _, _, hevent⟩, hanswer⟩

/-- Both claims of the service are told that the intent is committed. -/
theorem reclaimed_not_committed_by_one_claim :
    ¬ CommittedByOneClaim (conversationMachine.trace .empty reclaimed) 0 := by
  have hfirst : reclaimedStep 3 =
      some (.claim reclaimedRows reclaimedIdentity [7] reclaimedTurn "p" 1 90000,
        .ok (.turnClaim (.claimed
          ⟨reclaimedTurn, 0, .admitted, 1, some "p", some 90001, none, none⟩))) := by
    decide +kernel
  have hsecond : reclaimedStep 4 =
      some (.claim reclaimedRows reclaimedIdentity [7] reclaimedTurn "p" 2 90000,
        .ok (.turnClaim (.claimed
          ⟨reclaimedTurn, 0, .admitted, 2, some "p", some 90002, none, none⟩))) := by
    decide +kernel
  have hcommit : reclaimedStep 5 =
      some (.commitIntent reclaimedIdentity [7] reclaimedTurn 0 "p" 2,
        .ok (.turn ⟨reclaimedTurn, 0, .intentCommitted, 3, some "p", some 90002, none, none⟩)) := by
    decide +kernel
  have hlate : reclaimedStep 6 =
      some (.commitIntent reclaimedIdentity [7] reclaimedTurn 0 "p" 1,
        .ok (.turn ⟨reclaimedTurn, 0, .intentCommitted, 3, some "p", some 90002, none, none⟩)) := by
    decide +kernel
  intro hone
  have hsame : (1 : ℤ) = 2 :=
    hone "p" "p" 1 2 (granted_of_reclaimedStep hfirst) (acknowledged_of_reclaimedStep hlate)
      (granted_of_reclaimedStep hsecond) (acknowledged_of_reclaimedStep hcommit)
  omega

end Reclaimed

end SolarisMesh.Session
