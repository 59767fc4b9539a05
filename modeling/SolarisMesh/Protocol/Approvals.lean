import Mathlib.Algebra.Ring.Nat
import SolarisMesh.Lib.Machine

/-!
# Requests for approval

A request puts the sending half of a channel under its call id, where the next decision with that
id finds it; the request's handle holds the receiving half. Requests, decisions and drops take the
lock for one step each and do the rest outside of it: a generation is drawn before a request is put
in place, a result is sent after the request was taken out, and the receiver of a handle goes after
the handle has withdrawn its request.
-/

namespace SolarisMesh.Protocol

open List Lib Function

inductive ApprovalScope where
  | once | always
deriving DecidableEq, Repr

inductive ToolApprovalResult where
  | approved (scope : ApprovalScope)
  | denied (reason : String)
deriving DecidableEq, Repr

inductive ApprovalResolution where
  | applied | notFound
deriving DecidableEq, Repr

/-- A request that waits, with the handle at the other end of its channel. -/
structure PendingApproval where
  generation : ℕ
  handle : ℕ
deriving DecidableEq, Repr

inductive HandlePhase where
  /-- The generation is drawn, the request is not in place yet. -/
  | requested
  | waiting
  /-- The request is withdrawn, the receiver is still there. -/
  | dropping
  | closed
deriving DecidableEq, Repr

structure Handle where
  callId : String
  generation : ℕ
  phase : HandlePhase
deriving DecidableEq, Repr

/-- A call of `approve` or `resolve`: the request it took out, the latest request with its call id
at that time, and what it returned. -/
structure Decision where
  callId : String
  result : ToolApprovalResult
  sender : Option ℕ
  latest : Option ℕ
  answer : Option ApprovalResolution
deriving DecidableEq, Repr

/-- The manager's state, all handles and decisions so far, and what was put into the channel of a
handle by which decision. -/
structure Approvals where
  pending : String → Option PendingApproval
  nextGeneration : ℕ
  handles : ℕ → Option Handle
  handleCount : ℕ
  channels : ℕ → List (ℕ × ToolApprovalResult)
  decisions : ℕ → Option Decision
  decisionCount : ℕ
  /-- The request that was put in place last. -/
  latest : String → Option ℕ

namespace Approvals

def new : Approvals :=
  ⟨fun _ => none, 1, fun _ => none, 0, fun _ => [], fun _ => none, 0, fun _ => none⟩

variable (s : Approvals) (callId : String)

/-- `request_approval` draws a generation. -/
def drawGeneration : Approvals :=
  { s with
    nextGeneration := (s.nextGeneration + 1) % 2 ^ 64
    handles := update s.handles s.handleCount (some ⟨callId, s.nextGeneration, .requested⟩)
    handleCount := s.handleCount + 1 }

/-- `request_approval` puts the request in place and returns the handle. -/
def insertPending (h : ℕ) : Approvals :=
  match s.handles h with
  | some ⟨callId, generation, .requested⟩ =>
    { s with
      pending := update s.pending callId (some ⟨generation, h⟩)
      handles := update s.handles h (some ⟨callId, generation, .waiting⟩)
      latest := update s.latest callId (some h) }
  | _ => s

/-- `approve` and `resolve` take the request out. -/
def resolve (result : ToolApprovalResult) : Approvals :=
  { s with
    pending := update s.pending callId none
    decisions := update s.decisions s.decisionCount
      (some ⟨callId, result, (s.pending callId).map (·.handle), s.latest callId, none⟩)
    decisionCount := s.decisionCount + 1 }

def approve (scope : ApprovalScope) : Approvals :=
  s.resolve callId (.approved scope)

/-- They send the result, unless the receiver is gone. -/
def send (d : ℕ) : Approvals :=
  match s.decisions d with
  | some ⟨callId, result, some h, latest, none⟩ =>
    match s.handles h with
    | some hd =>
      if hd.phase = .closed then
        { s with
          decisions := update s.decisions d
            (some ⟨callId, result, some h, latest, some .notFound⟩) }
      else
        { s with
          channels := update s.channels h (s.channels h ++ [(d, result)])
          decisions := update s.decisions d
            (some ⟨callId, result, some h, latest, some .applied⟩) }
    | none => s
  | some ⟨callId, result, none, latest, none⟩ =>
    { s with
      decisions := update s.decisions d (some ⟨callId, result, none, latest, some .notFound⟩) }
  | _ => s

def dropPending : Approvals :=
  { s with pending := update s.pending callId none }

def setPhase (h : ℕ) (hd : Handle) (phase : HandlePhase) : Approvals :=
  { s with handles := update s.handles h (some { hd with phase }) }

/-- A handle withdraws its request if the generation is its own. -/
def dropHandle (h : ℕ) : Approvals :=
  match s.handles h with
  | some hd =>
    if hd.phase = .waiting then
      let dropping := s.setPhase h hd .dropping
      if (s.pending hd.callId).any (·.generation = hd.generation) then
        dropping.dropPending hd.callId
      else dropping
    else s
  | none => s

/-- The receiver of a dropped handle goes. -/
def close (h : ℕ) : Approvals :=
  match s.handles h with
  | some hd => if hd.phase = .dropping then s.setPhase h hd .closed else s
  | none => s

end Approvals

inductive ApprovalEvent where
  | drawGeneration (callId : String)
  | insertPending (handle : ℕ)
  | approve (callId : String) (scope : ApprovalScope)
  | resolve (callId : String) (result : ToolApprovalResult)
  | send (decision : ℕ)
  | dropPending (callId : String)
  | dropHandle (handle : ℕ)
  | close (handle : ℕ)
deriving DecidableEq, Repr

def Approvals.next (s : Approvals) : ApprovalEvent → Approvals
  | .drawGeneration callId => s.drawGeneration callId
  | .insertPending h => s.insertPending h
  | .approve callId scope => s.approve callId scope
  | .resolve callId result => s.resolve callId result
  | .send d => s.send d
  | .dropPending callId => s.dropPending callId
  | .dropHandle h => s.dropHandle h
  | .close h => s.close h

def approvalMachine : Machine Approvals ApprovalEvent Unit := ⟨fun s e => (s.next e, ())⟩

/-! ## What every step preserves -/

/-- Each request has one sender: in place under its call id, where it is the latest, or with the
decision that took it out. What is in a channel was sent by that decision. -/
structure Approvals.Matched (s : Approvals) : Prop where
  counter : s.nextGeneration = (s.handleCount + 1) % 2 ^ 64
  drawn : ∀ {h hd}, s.handles h = some hd →
    h < s.handleCount ∧ hd.generation = (h + 1) % 2 ^ 64
  called : ∀ {d dec}, s.decisions d = some dec → d < s.decisionCount
  placed : ∀ {callId p}, s.pending callId = some p → s.latest callId = some p.handle ∧
    (∃ hd, s.handles p.handle = some hd ∧ hd.callId = callId ∧ hd.generation = p.generation ∧
      hd.phase ≠ .requested) ∧ ∀ {d dec}, s.decisions d = some dec → dec.sender ≠ some p.handle
  taken : ∀ {d dec h}, s.decisions d = some dec → dec.sender = some h → dec.latest = some h ∧
    ∃ hd, s.handles h = some hd ∧ hd.callId = dec.callId ∧ hd.phase ≠ .requested
  once : ∀ {d d' dec dec' h}, s.decisions d = some dec → s.decisions d' = some dec' →
    dec.sender = some h → dec'.sender = some h → d = d'
  channel : ∀ h, s.channels h = [] ∨ ∃ d dec, s.decisions d = some dec ∧ dec.sender = some h ∧
    dec.answer = some .applied ∧ s.channels h = [(d, dec.result)]
  applied : ∀ {d dec}, s.decisions d = some dec → dec.answer = some .applied →
    ∃ h, dec.sender = some h ∧ s.channels h = [(d, dec.result)]

lemma update_eq_some {α β : Type} [DecidableEq α] {f : α → Option β} {a b : α} {v w : β}
    (h : update f a (some v) b = some w) : b = a ∧ w = v ∨ b ≠ a ∧ f b = some w := by
  by_cases hb : b = a
  · subst hb
    rw [update_self] at h
    exact .inl ⟨rfl, (Option.some.inj h).symm⟩
  · rw [update_of_ne hb] at h
    exact .inr ⟨hb, h⟩

lemma update_none_eq_some {α β : Type} [DecidableEq α] {f : α → Option β} {a b : α} {w : β}
    (h : update f a none b = some w) : b ≠ a ∧ f b = some w := by
  by_cases hb : b = a
  · subst hb
    rw [update_self] at h
    cases h
  · rw [update_of_ne hb] at h
    exact ⟨hb, h⟩

namespace Approvals.Matched

variable {s : Approvals}

lemma empty : Approvals.new.Matched where
  counter := by decide
  drawn := nofun
  called := nofun
  placed := nofun
  taken := nofun
  once := nofun
  channel _ := .inl rfl
  applied := nofun

section

variable (hs : s.Matched)
include hs

lemma drawGeneration (callId : String) : (s.drawGeneration callId).Matched := by
  have hother : ∀ {h hd}, s.handles h = some hd →
      (s.drawGeneration callId).handles h = some hd := fun hh =>
    (update_of_ne (Nat.ne_of_lt (hs.drawn hh).1) ..).trans hh
  refine ⟨?_, ?_, hs.called, ?_, ?_, hs.once, hs.channel, hs.applied⟩
  · dsimp only [Approvals.drawGeneration]
    rw [hs.counter, Nat.mod_add_mod]
  · intro h hd hh
    obtain ⟨rfl, rfl⟩ | ⟨-, hh⟩ := update_eq_some hh
    · exact ⟨Nat.lt_succ_self _, hs.counter⟩
    · exact ⟨Nat.lt_succ_of_lt (hs.drawn hh).1, (hs.drawn hh).2⟩
  · intro callId p hp
    obtain ⟨hlatest, ⟨hd, hh, hrest⟩, hfree⟩ := hs.placed hp
    exact ⟨hlatest, ⟨hd, hother hh, hrest⟩, hfree⟩
  · intro d dec h hd hsender
    obtain ⟨hlatest, hd, hh, hrest⟩ := hs.taken hd hsender
    exact ⟨hlatest, hd, hother hh, hrest⟩

/-- A handle goes from one phase to a later one. -/
lemma setPhase {h : ℕ} {hd : Handle} (hh : s.handles h = some hd) {phase : HandlePhase}
    (hphase : phase ≠ .requested) : (s.setPhase h hd phase).Matched := by
  have hkept : ∀ {k hk}, s.handles k = some hk → ∃ hk', (s.setPhase h hd phase).handles k =
      some hk' ∧ hk'.callId = hk.callId ∧ hk'.generation = hk.generation ∧
      (hk.phase ≠ .requested → hk'.phase ≠ .requested) := by
    intro k hk hkh
    by_cases heq : k = h
    · subst heq
      obtain rfl := Option.some.inj (hh.symm.trans hkh)
      exact ⟨_, update_self .., rfl, rfl, fun _ => hphase⟩
    · exact ⟨hk, (update_of_ne heq ..).trans hkh, rfl, rfl, id⟩
  refine ⟨hs.counter, ?_, hs.called, ?_, ?_, hs.once, hs.channel, hs.applied⟩
  · intro k hk hkh
    obtain ⟨rfl, rfl⟩ | ⟨-, hkh⟩ := update_eq_some hkh
    · have hdrawn := hs.drawn hh
      exact hdrawn
    · exact hs.drawn hkh
  · intro callId p hp
    obtain ⟨hlatest, ⟨hk, hkh, hid, hgeneration, hplaced⟩, hfree⟩ := hs.placed hp
    obtain ⟨hk', hkh', hid', hgeneration', hphase'⟩ := hkept hkh
    exact ⟨hlatest, ⟨hk', hkh', hid'.trans hid, hgeneration'.trans hgeneration, hphase' hplaced⟩,
      hfree⟩
  · intro d dec k hdec hsender
    obtain ⟨hlatest, hk, hkh, hid, hplaced⟩ := hs.taken hdec hsender
    obtain ⟨hk', hkh', hid', -, hphase'⟩ := hkept hkh
    exact ⟨hlatest, hk', hkh', hid'.trans hid, hphase' hplaced⟩

lemma insertPending (h : ℕ) : (s.insertPending h).Matched := by
  unfold Approvals.insertPending
  split
  · next callId generation hh =>
    have hset := hs.setPhase hh (show HandlePhase.waiting ≠ .requested by decide)
    refine { hset with placed := ?_ }
    intro id p hp
    obtain ⟨rfl, rfl⟩ | ⟨hne, hp⟩ := update_eq_some hp
    · refine ⟨update_self .., ⟨_, update_self .., rfl, rfl, nofun⟩, fun hdec hsender => ?_⟩
      obtain ⟨-, hd, hh', -, hphase⟩ := hs.taken hdec hsender
      obtain rfl := Option.some.inj (hh.symm.trans hh')
      exact hphase rfl
    · obtain ⟨hlatest, hrest⟩ := hset.placed hp
      exact ⟨(update_of_ne hne ..).trans hlatest, hrest⟩
  · exact hs

lemma dropPending (callId : String) : (s.dropPending callId).Matched :=
  { hs with placed := fun hp => hs.placed (update_none_eq_some hp).2 }

lemma resolve (callId : String) (result : ToolApprovalResult) :
    (s.resolve callId result).Matched := by
  have hold : ∀ {d dec}, s.decisions d = some dec →
      (s.resolve callId result).decisions d = some dec := fun hdec =>
    (update_of_ne (Nat.ne_of_lt (hs.called hdec)) ..).trans hdec
  -- the decision that is made takes over the sender in place
  have hsender : ∀ {h}, (s.pending callId).map (·.handle) = some h → ∃ p,
      s.pending callId = some p ∧ p.handle = h := fun hmap => Option.map_eq_some_iff.1 hmap
  refine ⟨hs.counter, hs.drawn, ?_, ?_, ?_, ?_, ?_, ?_⟩
  · intro d dec hdec
    obtain ⟨rfl, -⟩ | ⟨-, hdec⟩ := update_eq_some hdec
    · exact Nat.lt_succ_self _
    · exact Nat.lt_succ_of_lt (hs.called hdec)
  · intro id p hp
    obtain ⟨hne, hp⟩ := update_none_eq_some hp
    obtain ⟨hlatest, ⟨hd, hh, hid, hrest⟩, hfree⟩ := hs.placed hp
    refine ⟨hlatest, ⟨hd, hh, hid, hrest⟩, fun hdec hmap => ?_⟩
    obtain ⟨-, rfl⟩ | ⟨-, hdec⟩ := update_eq_some hdec
    · obtain ⟨p', hp', heq⟩ := hsender hmap
      obtain ⟨-, ⟨hd', hh', hid', -⟩, -⟩ := hs.placed hp'
      rw [heq, hh] at hh'
      cases hh'
      exact hne (hid.symm.trans hid')
    · exact hfree hdec hmap
  · intro d dec h hdec hmap
    obtain ⟨-, rfl⟩ | ⟨-, hdec⟩ := update_eq_some hdec
    · obtain ⟨p, hp, rfl⟩ := hsender hmap
      obtain ⟨hlatest, ⟨hd, hh, hid, -, hphase⟩, -⟩ := hs.placed hp
      exact ⟨hlatest, hd, hh, hid, hphase⟩
    · exact hs.taken hdec hmap
  · intro d d' dec dec' h hdec hdec' hmap hmap'
    obtain ⟨rfl, rfl⟩ | ⟨-, hdec⟩ := update_eq_some hdec <;>
      obtain ⟨rfl, rfl⟩ | ⟨-, hdec'⟩ := update_eq_some hdec'
    · rfl
    · obtain ⟨p, hp, rfl⟩ := hsender hmap
      exact absurd hmap' ((hs.placed hp).2.2 hdec')
    · obtain ⟨p, hp, rfl⟩ := hsender hmap'
      exact absurd hmap ((hs.placed hp).2.2 hdec)
    · exact hs.once hdec hdec' hmap hmap'
  · exact fun h => (hs.channel h).imp_right fun ⟨d, dec, hdec, hrest⟩ => ⟨d, dec, hold hdec, hrest⟩
  · intro d dec hdec hanswer
    obtain ⟨-, rfl⟩ | ⟨-, hdec⟩ := update_eq_some hdec
    · cases hanswer
    · exact hs.applied hdec hanswer

/-- Until a decision has returned its channel is empty: no other one has the sender. -/
lemma channel_eq_nil {d h : ℕ} {dec : Decision} (hdec : s.decisions d = some dec)
    (hopen : dec.answer = none) (hsender : dec.sender = some h) : s.channels h = [] := by
  rcases hs.channel h with hempty | ⟨e, dec', he, hsender', happlied, -⟩
  · exact hempty
  · obtain rfl := hs.once he hdec hsender' hsender
    obtain rfl := Option.some.inj (hdec.symm.trans he)
    rw [hopen] at happlied
    cases happlied

/-- A decision returns, and has put its result into a channel if it says so. -/
lemma answer {d : ℕ} {dec : Decision} (hdec : s.decisions d = some dec)
    (hopen : dec.answer = none) {answer : ApprovalResolution}
    {channels : ℕ → List (ℕ × ToolApprovalResult)}
    (hchannels : channels = s.channels ∧ answer = .notFound ∨ ∃ h, dec.sender = some h ∧
      answer = .applied ∧ channels = update s.channels h (s.channels h ++ [(d, dec.result)])) :
    Matched { s with
      channels, decisions := update s.decisions d (some { dec with answer := some answer }) } := by
  -- no decision that has returned is touched, and senders stay
  have hback : ∀ {e dec'}, update s.decisions d (some { dec with answer := some answer }) e =
      some dec' → ∃ old, s.decisions e = some old ∧ dec'.sender = old.sender ∧
        dec'.latest = old.latest ∧ dec'.callId = old.callId := by
    intro e dec' he
    obtain ⟨rfl, rfl⟩ | ⟨-, he⟩ := update_eq_some he
    · exact ⟨dec, hdec, rfl, rfl, rfl⟩
    · exact ⟨dec', he, rfl, rfl, rfl⟩
  have hreturned : ∀ {e dec'}, s.decisions e = some dec' → dec'.answer = some .applied →
      update s.decisions d (some { dec with answer := some answer }) e = some dec' := by
    refine fun he happlied => (update_of_ne ?_ ..).trans he
    rintro rfl
    obtain rfl := Option.some.inj (hdec.symm.trans he)
    rw [hopen] at happlied
    cases happlied
  refine ⟨hs.counter, hs.drawn, ?_, ?_, ?_, ?_, fun k => ?_, ?_⟩
  · intro e dec' he
    obtain ⟨old, he, -⟩ := hback he
    exact hs.called he
  · intro callId p hp
    obtain ⟨hlatest, hplaced, hfree⟩ := hs.placed hp
    refine ⟨hlatest, hplaced, fun he => ?_⟩
    obtain ⟨old, he, hsender, -⟩ := hback he
    rw [hsender]
    exact hfree he
  · intro e dec' k he hsender
    obtain ⟨old, he, hsender', hlatest', hid'⟩ := hback he
    obtain ⟨hlatest, hk, hkh, hid, hphase⟩ := hs.taken he (hsender' ▸ hsender)
    exact ⟨hlatest'.trans hlatest, hk, hkh, hid.trans hid'.symm, hphase⟩
  · intro e e' dec' dec'' k he he' hsender hsender'
    obtain ⟨old, he, hold, -⟩ := hback he
    obtain ⟨old', he', hold', -⟩ := hback he'
    exact hs.once he he' (hold ▸ hsender) (hold' ▸ hsender')
  · obtain ⟨rfl, -⟩ | ⟨h, hsender, rfl, rfl⟩ := hchannels
    · exact (hs.channel k).imp_right fun ⟨e, dec', he, hsent, happlied, hresults⟩ =>
        ⟨e, dec', hreturned he happlied, hsent, happlied, hresults⟩
    · by_cases hk : k = h
      · subst hk
        refine .inr ⟨d, _, update_self .., hsender, rfl, ?_⟩
        dsimp only
        rw [update_self, hs.channel_eq_nil hdec hopen hsender, nil_append]
      · dsimp only
        rw [update_of_ne hk]
        exact (hs.channel k).imp_right fun ⟨e, dec', he, hsent, happlied, hresults⟩ =>
          ⟨e, dec', hreturned he happlied, hsent, happlied, hresults⟩
  · intro e dec' he happlied
    obtain ⟨rfl, rfl⟩ | ⟨hne, hold⟩ := update_eq_some he
    · obtain ⟨-, rfl⟩ | ⟨h, hsender, -, rfl⟩ := hchannels
      · cases happlied
      · refine ⟨h, hsender, ?_⟩
        dsimp only
        rw [update_self, hs.channel_eq_nil hdec hopen hsender, nil_append]
    · obtain ⟨k, hsender', hresults⟩ := hs.applied hold happlied
      obtain ⟨rfl, -⟩ | ⟨h, hsender, -, rfl⟩ := hchannels
      · exact ⟨k, hsender', hresults⟩
      · refine ⟨k, hsender', (update_of_ne ?_ ..).trans hresults⟩
        rintro rfl
        exact hne (hs.once hold hdec hsender' hsender)

lemma send (d : ℕ) : (s.send d).Matched := by
  unfold Approvals.send
  split
  · next callId result h latest hdec =>
    split
    · next hd hh =>
      split_ifs
      · exact hs.answer hdec rfl (.inl ⟨rfl, rfl⟩)
      · exact hs.answer hdec rfl (.inr ⟨h, rfl, rfl, rfl⟩)
    · exact hs
  · next hdec => exact hs.answer hdec rfl (.inl ⟨rfl, rfl⟩)
  · exact hs

lemma dropHandle (h : ℕ) : (s.dropHandle h).Matched := by
  unfold Approvals.dropHandle
  split
  · next hd hh =>
    have hset := hs.setPhase hh (show HandlePhase.dropping ≠ .requested by decide)
    split_ifs
    · exact hset.dropPending hd.callId
    · exact hset
    · exact hs
  · exact hs

lemma close (h : ℕ) : (s.close h).Matched := by
  unfold Approvals.close
  split
  · next hd hh =>
    split_ifs
    · exact hs.setPhase hh (show HandlePhase.closed ≠ .requested by decide)
    · exact hs
  · exact hs

lemma next (event : ApprovalEvent) : (s.next event).Matched := by
  cases event with
  | drawGeneration callId => exact hs.drawGeneration callId
  | insertPending h => exact hs.insertPending h
  | approve callId scope => exact hs.resolve callId (.approved scope)
  | resolve callId result => exact hs.resolve callId result
  | send d => exact hs.send d
  | dropPending callId => exact hs.dropPending callId
  | dropHandle h => exact hs.dropHandle h
  | close h => exact hs.close h

/-- As long as generations do not repeat, a handle withdraws no request but its own. -/
lemma dropHandle_pending (hcount : s.handleCount ≤ 2 ^ 64) {h : ℕ} {callId : String}
    {p : PendingApproval} (hp : s.pending callId = some p) (hother : p.handle ≠ h) :
    (s.dropHandle h).pending callId = some p := by
  unfold Approvals.dropHandle
  split
  · next hd hh =>
    split_ifs with hwaiting hsame
    · by_cases hid : callId = hd.callId
      · -- equal generations belong to one handle
        obtain ⟨-, ⟨hk, hkh, -, hgeneration, -⟩, -⟩ := hs.placed hp
        rw [← hid, hp] at hsame
        have heq : p.generation = hd.generation := of_decide_eq_true hsame
        obtain ⟨hlt, hdrawn⟩ := hs.drawn hh
        obtain ⟨hlt', hdrawn'⟩ := hs.drawn hkh
        omega
      · exact (update_of_ne hid ..).trans hp
    · exact hp
    · exact hp
  · exact hp

end

end Approvals.Matched

/-! ## Requests and decisions -/

/-- The state after a list of events. -/
def approvalsAfter (events : List ApprovalEvent) : Approvals := approvalMachine.run .new events

lemma matched_run (events : List ApprovalEvent) : (approvalsAfter events).Matched :=
  Machine.run_invariant (fun _ event hs => hs.next event) .empty events

lemma Approvals.close_frame (s : Approvals) (h : ℕ) :
    (s.close h).pending = s.pending ∧ (s.close h).channels = s.channels := by
  rw [Approvals.close]
  split
  · split_ifs <;> exact ⟨rfl, rfl⟩
  · exact ⟨rfl, rfl⟩

lemma Approvals.dropHandle_channels (s : Approvals) (h : ℕ) :
    (s.dropHandle h).channels = s.channels := by
  rw [Approvals.dropHandle]
  split
  · split_ifs <;> rfl
  · rfl

/-- What is said of requests and decisions. -/
structure Approvals.Sound (s : Approvals) : Prop where
  /-- A handle has at most one result, of a decision with its call id that was made while its
  request was the latest one with that id. -/
  received : ∀ h, (s.channels h).length ≤ 1 ∧ ∀ d result, (d, result) ∈ s.channels h →
    ∃ dec hd, s.decisions d = some dec ∧ s.handles h = some hd ∧ dec.callId = hd.callId ∧
      dec.result = result ∧ dec.latest = some h
  /-- A decision reaches at most one handle, and returns that it was applied if it reached one. -/
  returned : ∀ d dec, s.decisions d = some dec →
    (dec.answer = some .applied ↔ ∃ h, (d, dec.result) ∈ s.channels h) ∧
      ∀ h h', d ∈ (s.channels h).map (·.1) → d ∈ (s.channels h').map (·.1) → h = h'
  /-- Nothing is put into the channel of a handle that is gone. -/
  live : ∀ event h hd, s.handles h = some hd → hd.phase = .closed →
    (s.next event).channels h = s.channels h
  /-- As long as generations do not repeat, dropping a handle withdraws no request of another. -/
  withdrawn : s.handleCount ≤ 2 ^ 64 → ∀ h callId p, s.pending callId = some p → p.handle ≠ h →
    ((s.dropHandle h).close h).pending callId = some p
  /-- Dropping a handle puts nothing into a channel. -/
  undisturbed : ∀ h, ((s.dropHandle h).close h).channels = s.channels

lemma Approvals.next_channels (s : Approvals) (event : ApprovalEvent) {h : ℕ} {hd : Handle}
    (hh : s.handles h = some hd) (hclosed : hd.phase = .closed) :
    (s.next event).channels h = s.channels h := by
  cases event with
  | drawGeneration | approve | resolve | dropPending => rfl
  | insertPending k =>
    dsimp only [Approvals.next, Approvals.insertPending]
    split <;> rfl
  | send d =>
    dsimp only [Approvals.next, Approvals.send]
    split
    · split
      · next k _ _ hk hkh =>
        split_ifs with hphase
        · rfl
        · refine update_of_ne ?_ ..
          rintro rfl
          obtain rfl := Option.some.inj (hh.symm.trans hkh)
          exact hphase hclosed
      · rfl
    · rfl
    · rfl
  | dropHandle k => exact congrFun (s.dropHandle_channels k) h
  | close k => exact congrFun (s.close_frame k).2 h

lemma Approvals.Matched.sound {s : Approvals} (hs : s.Matched) : s.Sound where
  received h := by
    rcases hs.channel h with hnone | ⟨d, dec, hdec, hsender, -, hresults⟩
    · simp [hnone]
    · rw [hresults]
      refine ⟨Nat.le_refl 1, fun d' result hmem => ?_⟩
      obtain ⟨rfl, rfl⟩ := Prod.mk.inj (mem_singleton.1 hmem)
      obtain ⟨hlatest, hd, hh, hid, -⟩ := hs.taken hdec hsender
      exact ⟨dec, hd, hdec, hh, hid.symm, rfl, hlatest⟩
  returned d dec hdec := by
    -- what is in a channel was sent by the decision that has its sender
    have hfrom : ∀ {h}, d ∈ (s.channels h).map (·.1) →
        dec.sender = some h ∧ dec.answer = some .applied := by
      intro h hmem
      rcases hs.channel h with hnone | ⟨d', dec', hdec', hsender, happlied, hresults⟩
      · rw [hnone] at hmem
        cases hmem
      · rw [hresults, map_singleton, mem_singleton] at hmem
        subst hmem
        obtain rfl := Option.some.inj (hdec.symm.trans hdec')
        exact ⟨hsender, happlied⟩
    refine ⟨⟨fun happlied => ?_, ?_⟩, fun h h' hmem hmem' => ?_⟩
    · obtain ⟨h, -, hresults⟩ := hs.applied hdec happlied
      exact ⟨h, hresults ▸ mem_singleton_self _⟩
    · rintro ⟨h, hmem⟩
      exact (hfrom (mem_map.2 ⟨_, hmem, rfl⟩)).2
    · exact Option.some.inj ((hfrom hmem).1.symm.trans (hfrom hmem').1)
  live event _ _ hh hclosed := s.next_channels event hh hclosed
  withdrawn hcount h _ _ hp hother :=
    (congrFun (Approvals.close_frame ..).1 _).trans (hs.dropHandle_pending hcount hp hother)
  undisturbed h := (Approvals.close_frame ..).2.trans (s.dropHandle_channels h)

/-- Every interleaving leads to a state in which results, requests and decisions match. -/
theorem approvals_sound (events : List ApprovalEvent) : (approvalsAfter events).Sound :=
  (matched_run events).sound

/-! ### Generations that repeat -/

lemma run_drawGeneration (s : Approvals) (callId : String) (n : ℕ) :
    let s' := approvalMachine.run s (List.replicate n (.drawGeneration callId))
    s'.handleCount = s.handleCount + n ∧ s'.pending = s.pending ∧
      ∀ h < s.handleCount, s'.handles h = s.handles h := by
  induction n generalizing s with
  | zero => exact ⟨rfl, rfl, fun _ _ => rfl⟩
  | succ n ih =>
    obtain ⟨hcount, hpending, hhandles⟩ := ih (s.drawGeneration callId)
    refine ⟨hcount.trans ?_, hpending, fun h hlt => ?_⟩
    · rw [Approvals.drawGeneration, Nat.add_right_comm, Nat.add_assoc]
    · rw [replicate_succ]
      exact (hhandles h (Nat.lt_succ_of_lt hlt)).trans (update_of_ne (Nat.ne_of_lt hlt) ..)

/-- One request, many others, and another one with the call id of the first. -/
def repeatedGeneration : List ApprovalEvent :=
  [.drawGeneration "a", .insertPending 0] ++
    List.replicate (2 ^ 64 - 1) (.drawGeneration "b") ++
    [.drawGeneration "a", .insertPending (2 ^ 64)]

/-- `request_approval` as a whole. -/
lemma requestApproval (s : Approvals) (callId : String) :
    let s' := (s.drawGeneration callId).insertPending s.handleCount
    s'.pending = update s.pending callId (some ⟨s.nextGeneration, s.handleCount⟩) ∧
      ∀ h < s.handleCount, s'.handles h = s.handles h := by
  have hnew : (s.drawGeneration callId).handles s.handleCount =
      some ⟨callId, s.nextGeneration, .requested⟩ := update_self ..
  dsimp only [Approvals.insertPending]
  rw [hnew]
  refine ⟨rfl, fun h hlt => ?_⟩
  exact (update_of_ne (Nat.ne_of_lt hlt) ..).trans (update_of_ne (Nat.ne_of_lt hlt) ..)

theorem drop_withdraws_other_request :
    (approvalsAfter repeatedGeneration).pending "a" = some ⟨1, 2 ^ 64⟩ ∧
      ((approvalsAfter repeatedGeneration).dropHandle 0).pending "a" = none := by
  rw [repeatedGeneration, approvalsAfter]
  obtain ⟨n, hn⟩ : ∃ n, n + 1 = 2 ^ 64 := ⟨2 ^ 64 - 1, rfl⟩
  rw [show 2 ^ 64 - 1 = n by rw [← hn, Nat.add_sub_cancel], Machine.run_append]
  have hmany := matched_run ([.drawGeneration "a", .insertPending 0] ++
    List.replicate n (.drawGeneration "b"))
  rw [approvalsAfter, Machine.run_append] at hmany
  rw [Machine.run_append]
  obtain ⟨hcount, -, hhandles⟩ := run_drawGeneration
    (approvalMachine.run .new [.drawGeneration "a", .insertPending 0]) "b" n
  generalize approvalMachine.run (approvalMachine.run _ _) (List.replicate n _) = s
    at hcount hhandles hmany ⊢
  replace hcount : s.handleCount = 2 ^ 64 := hcount.trans ((Nat.add_comm 1 n).trans hn)
  have hgeneration : s.nextGeneration = 1 := by simp [hmany.counter, hcount]
  obtain ⟨hpending, hkept⟩ := requestApproval s "a"
  rw [hcount, hgeneration] at hpending
  rw [hcount] at hkept
  have hfirst := (hkept 0 (by decide)).trans (hhandles 0 (by decide))
  change ((s.drawGeneration "a").insertPending (2 ^ 64)).pending "a" = _ ∧
    (((s.drawGeneration "a").insertPending (2 ^ 64)).dropHandle 0).pending "a" = _
  generalize (s.drawGeneration "a").insertPending (2 ^ 64) = s' at hpending hfirst ⊢
  have hplaced : s'.pending "a" = some ⟨1, 2 ^ 64⟩ := by rw [hpending, update_self]
  refine ⟨hplaced, ?_⟩
  have hwaiting : s'.handles 0 = some ⟨"a", 1, .waiting⟩ := hfirst
  rw [Approvals.dropHandle, hwaiting]
  simp [hplaced, Approvals.dropPending]

end SolarisMesh.Protocol
