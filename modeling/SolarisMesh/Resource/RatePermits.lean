import SolarisMesh.Resource.Permits

/-!
# Permits of the provider's rate window

A permit reserves a request and its tokens in the window that is open when it is acquired. It can be
started, rolled back, committed or dropped in a later window; it remembers the one it is counted in.
-/

namespace SolarisMesh.Resource

open Manager List Lib

variable {F : Type}

/-! ## Permits -/

inductive ProviderRatePermitState where
  | reserved | started | completed
deriving DecidableEq, Repr

structure ProviderRatePermit where
  reservedTokens : ℕ
  windowStartedAtUnixMs : ℤ
  state : ProviderRatePermitState
deriving DecidableEq, Repr

/-- A permit as it was when it ended, and the tokens it was committed with. -/
structure EndedPermit where
  permit : ProviderRatePermit
  actualTokens : Option ℕ
deriving DecidableEq, Repr

/-- The manager and its permits. -/
structure RatePermits (F : Type) where
  session : Session F
  live : List ProviderRatePermit
  ended : List EndedPermit

/-- What happens to the permit in a place of the list. `commit` is `markStarted`, then
`commitTokens`, and `drop` if one of them fails; others can come between them. -/
inductive RateCall (F : Type) where
  | acquire (estimatedTokens : ℕ)
  | markStarted (place : ℕ)
  | rollbackStart (place : ℕ)
  | commitTokens (place actualTokens : ℕ)
  | drop (place : ℕ)
  | other (operation : { operation : Operation F // operation.isRate = false })

/-- A call with what the clock and the ledger answer. -/
structure RateRequest (F : Type) where
  call : RateCall F
  now : ℤ
  fault : Option String := none

namespace RatePermits

variable [DecidableEq F] (f : F64 F)

variable (permits : RatePermits F) (request : RateRequest F) (place : ℕ)
  (permit : ProviderRatePermit)

/-- The permits with one of them replaced. -/
def put (session : Session F) (place : ℕ) (permit : ProviderRatePermit) : RatePermits F :=
  { permits with session, live := permits.live.set place permit }

/-- The permits without one that has ended. -/
def finish (session : Session F) (place : ℕ) (last : EndedPermit) : RatePermits F :=
  { session, live := permits.live.eraseIdx place, ended := last :: permits.ended }

def acquire (estimatedTokens : ℕ) : RatePermits F :=
  match permits.session.withStateUpdate f request.fault
      (permits.session.manager.acquireProviderRequest request.now estimatedTokens) with
  | (.ok (.ok window), session) =>
    { permits with session, live := ⟨estimatedTokens, window, .reserved⟩ :: permits.live }
  | (_, session) => { permits with session }

def markStarted : RatePermits F :=
  if permit.state = .reserved then
    match permits.session.withStateUpdate f request.fault
        (permits.session.manager.markProviderRequestStarted request.now permit.reservedTokens
          permit.windowStartedAtUnixMs) with
    | (.ok (.ok window), session) =>
      permits.put session place
        { permit with windowStartedAtUnixMs := window, state := .started }
    | (_, session) => { permits with session }
  else permits

def rollbackStart : RatePermits F :=
  if permit.state = .started then
    match permits.session.withStateUpdate f request.fault
        (permits.session.manager.rollbackProviderRequestStart permit.reservedTokens
          permit.windowStartedAtUnixMs) with
    | (.ok (.ok ()), session) => permits.put session place { permit with state := .reserved }
    | (_, session) => { permits with session }
  else permits

def commitTokens (actualTokens : ℕ) : RatePermits F :=
  if permit.state = .started then
    match permits.session.withStateUpdate f request.fault
        (permits.session.manager.commitProviderTokens permit.reservedTokens actualTokens
          permit.windowStartedAtUnixMs) with
    | (.ok (), session) => permits.finish session place ⟨permit, some actualTokens⟩
    | (.error _, session) => { permits with session }
  else permits

/-- The update of a dropped permit. -/
def release : Change F Unit :=
  match permit.state with
  | .reserved => permits.session.manager.releaseProviderReservation permit.reservedTokens
      permit.windowStartedAtUnixMs
  | .started => permits.session.manager.releaseProviderTokens permit.reservedTokens
      permit.windowStartedAtUnixMs
  | .completed => permits.session.manager.refuse ()

/-- The answer of the ledger to the release is not looked at. -/
def drop : RatePermits F :=
  let (_, session) := permits.session.withStateUpdate f request.fault (permits.release permit)
  permits.finish session place ⟨permit, none⟩

def step : RatePermits F :=
  match request.call with
  | .acquire estimatedTokens => permits.acquire f request estimatedTokens
  | .markStarted place =>
    (permits.live[place]?).elim permits (permits.markStarted f request place)
  | .rollbackStart place =>
    (permits.live[place]?).elim permits (permits.rollbackStart f request place)
  | .commitTokens place actualTokens =>
    (permits.live[place]?).elim permits (permits.commitTokens f request place · actualTokens)
  | .drop place => (permits.live[place]?).elim permits (permits.drop f request place)
  | .other operation =>
    { permits with session := (permits.session.withStateUpdate f request.fault
        (operation.1.update f permits.session.manager request.now)).2 }

def machine : Machine (RatePermits F) (RateRequest F) Unit := ⟨fun permits request =>
  (permits.step f request, ())⟩

/-- The rate window of the manager. -/
def window : ProviderRateWindow :=
  permits.session.manager.state.providerRate

/-- No permit has been acquired. -/
def start (session : Session F) : RatePermits F := ⟨session, [], []⟩

end RatePermits

/-! ## What permits stand for in a window -/

section Counts

variable (window : ℤ) (live : List ProviderRatePermit) (ended : List EndedPermit)

/-- The reserved permits of a window. -/
def reservedCount : ℕ :=
  live.countP fun permit => permit.windowStartedAtUnixMs = window ∧ permit.state = .reserved

/-- What they have reserved. -/
def unstartedTokens : ℕ :=
  (live.map fun permit =>
    if permit.windowStartedAtUnixMs = window ∧ permit.state = .reserved then permit.reservedTokens
    else 0).sum

/-- What the reserved and the started permits of a window have reserved. -/
def heldTokens : ℕ :=
  (live.map fun permit =>
    if permit.windowStartedAtUnixMs = window ∧ permit.state ≠ .completed then permit.reservedTokens
    else 0).sum

/-- The permits of a window that are started. -/
def startedCount : ℕ :=
  live.countP fun permit => permit.windowStartedAtUnixMs = window ∧ permit.state = .started

/-- What the permits of a window were committed with. -/
def actualTokens : ℕ :=
  (ended.map fun last =>
    if last.permit.windowStartedAtUnixMs = window then last.actualTokens.getD 0 else 0).sum

/-- The requests of a window that are marked as started, those that have ended included. -/
def startedRequests : ℕ :=
  startedCount window live + startedCount window (ended.map EndedPermit.permit)

variable {window live ended} {permit : ProviderRatePermit}

@[simp] lemma reservedCount_cons :
    reservedCount window (permit :: live) = reservedCount window live +
      if permit.windowStartedAtUnixMs = window ∧ permit.state = .reserved then 1 else 0 := by
  simp [reservedCount, countP_cons]

@[simp] lemma unstartedTokens_cons : unstartedTokens window (permit :: live) =
    (if permit.windowStartedAtUnixMs = window ∧ permit.state = .reserved then permit.reservedTokens
      else 0) + unstartedTokens window live := by
  simp [unstartedTokens]

@[simp] lemma heldTokens_cons : heldTokens window (permit :: live) =
    (if permit.windowStartedAtUnixMs = window ∧ permit.state ≠ .completed then permit.reservedTokens
      else 0) + heldTokens window live := by
  simp [heldTokens]

@[simp] lemma startedCount_cons : startedCount window (permit :: live) = startedCount window live +
    if permit.windowStartedAtUnixMs = window ∧ permit.state = .started then 1 else 0 := by
  simp [startedCount, countP_cons]

@[simp] lemma actualTokens_cons {last : EndedPermit} : actualTokens window (last :: ended) =
    (if last.permit.windowStartedAtUnixMs = window then last.actualTokens.getD 0 else 0) +
      actualTokens window ended := by
  simp [actualTokens]

@[simp] lemma startedRequests_cons : startedRequests window (permit :: live) ended =
    startedRequests window live ended +
      if permit.windowStartedAtUnixMs = window ∧ permit.state = .started then 1 else 0 := by
  rw [startedRequests, startedRequests, startedCount_cons]
  omega

@[simp] lemma startedRequests_ended_cons {last : EndedPermit} :
    startedRequests window live (last :: ended) = startedRequests window live ended +
      if last.permit.windowStartedAtUnixMs = window ∧ last.permit.state = .started then 1
      else 0 := by
  rw [startedRequests, startedRequests, map_cons, startedCount_cons]
  omega

lemma unstartedTokens_le_heldTokens (window : ℤ) (live : List ProviderRatePermit) :
    unstartedTokens window live ≤ heldTokens window live := by
  induction live with
  | nil => exact le_rfl
  | cons permit live ih =>
    rw [unstartedTokens_cons, heldTokens_cons]
    refine Nat.add_le_add ?_ ih
    by_cases h : permit.windowStartedAtUnixMs = window ∧ permit.state = .reserved
    · rw [if_pos h, if_pos ⟨h.1, by simp [h.2]⟩]
    · rw [if_neg h]
      exact Nat.zero_le _

lemma counts_of_other_windows
    (h : ∀ permit ∈ live, permit.windowStartedAtUnixMs ≠ window) :
    reservedCount window live = 0 ∧ unstartedTokens window live = 0 ∧
      heldTokens window live = 0 ∧ startedCount window live = 0 := by
  induction live with
  | nil => exact ⟨rfl, rfl, rfl, rfl⟩
  | cons permit live ih =>
    obtain ⟨hpermit, hlive⟩ := forall_mem_cons.1 h
    obtain ⟨hreserved, hunstarted, hheld, hstarted⟩ := ih hlive
    simp [hpermit, hreserved, hunstarted, hheld, hstarted]

lemma actualTokens_of_other_windows
    (h : ∀ last ∈ ended, last.permit.windowStartedAtUnixMs ≠ window) :
    actualTokens window ended = 0 := by
  induction ended with
  | nil => rfl
  | cons last ended ih =>
    obtain ⟨hlast, hended⟩ := forall_mem_cons.1 h
    simp [hlast, ih hended]

end Counts

/-! ## What calls do to the window -/

namespace ProviderRateWindow

variable (window : ProviderRateWindow) (permit : ProviderRatePermit)

/-- A permit changes. -/
inductive Changes (signals : ProviderSignals F) : ProviderRateWindow → ProviderRatePermit → Prop
  | begin (hwindow : permit.windowStartedAtUnixMs = window.startedAtUnixMs)
      (hstate : permit.state = .reserved) :
      Changes signals (window.begin permit.reservedTokens)
        ⟨permit.reservedTokens, window.startedAtUnixMs, .started⟩
  | beginLater (hwindow : permit.windowStartedAtUnixMs ≠ window.startedAtUnixMs)
      (hroom : window.requestRateExhausted signals = false) :
      Changes signals (window.beginLater permit.reservedTokens)
        ⟨permit.reservedTokens, window.startedAtUnixMs, .started⟩
  | rollback (hwindow : permit.windowStartedAtUnixMs = window.startedAtUnixMs)
      (hstate : permit.state = .started) :
      Changes signals (window.rollback permit.reservedTokens) { permit with state := .reserved }
  | rollbackEarlier (hwindow : permit.windowStartedAtUnixMs ≠ window.startedAtUnixMs) :
      Changes signals window { permit with state := .reserved }

/-- A permit ends. -/
inductive Ends : ProviderRateWindow → Option ℕ → Prop
  | earlier (hwindow : permit.windowStartedAtUnixMs ≠ window.startedAtUnixMs)
      (actual : Option ℕ) : Ends window actual
  | started (hwindow : permit.windowStartedAtUnixMs = window.startedAtUnixMs)
      (hstate : permit.state = .started) (actual : Option ℕ) :
      Ends (window.settle permit.reservedTokens actual) actual
  | reserved (hwindow : permit.windowStartedAtUnixMs = window.startedAtUnixMs)
      (hstate : permit.state = .reserved) : Ends (window.release permit.reservedTokens) none
  | completed (hstate : permit.state = .completed) : Ends window none

end ProviderRateWindow

/-- The counters of the window are what the permits stand for in it. No permit is of a later window,
and there is none before the first window. -/
structure Accounts (window : ProviderRateWindow) (live : List ProviderRatePermit)
    (ended : List EndedPermit) : Prop where
  reserved : window.reservedRequests = reservedCount window.startedAtUnixMs live
  unstarted : window.unstartedReservedTokens = unstartedTokens window.startedAtUnixMs live
  held : window.reservedTokens = heldTokens window.startedAtUnixMs live
  tokens : window.tokens =
    heldTokens window.startedAtUnixMs live + actualTokens window.startedAtUnixMs ended
  requests : window.requests = startedRequests window.startedAtUnixMs live ended
  past : ∀ permit ∈ live ++ ended.map EndedPermit.permit,
    permit.windowStartedAtUnixMs ≤ window.startedAtUnixMs
  unopened : window.startedAtUnixMs = 0 → live = [] ∧ ended = []

variable {now : ℤ}

namespace Accounts

variable {window : ProviderRateWindow} {live rest : List ProviderRatePermit}
  {ended : List EndedPermit} {permit : ProviderRatePermit}

/-- The order of the permits does not matter. -/
lemma perm (h : Accounts window live ended) (hperm : live.Perm rest) :
    Accounts window rest ended where
  reserved := h.reserved.trans (hperm.countP_eq _)
  unstarted := h.unstarted.trans (hperm.map _).sum_nat
  held := h.held.trans (hperm.map _).sum_nat
  tokens := h.tokens.trans (congrArg (· + _) (hperm.map _).sum_nat)
  requests := h.requests.trans (congrArg (· + _) (hperm.countP_eq _))
  past permit hpermit := h.past permit ((hperm.append_right _).mem_iff.2 hpermit)
  unopened hstart := by
    obtain ⟨rfl, hended⟩ := h.unopened hstart
    exact ⟨nil_perm.1 hperm, hended⟩

lemma empty : Accounts {} [] [] where
  reserved := rfl
  unstarted := rfl
  held := rfl
  tokens := rfl
  requests := rfl
  past _ h := absurd h not_mem_nil
  unopened _ := ⟨rfl, rfl⟩

/-- No permit is of a window that has just been opened. -/
lemma opened (h : Accounts window live ended) (hneeds : window.needsStart now = true)
    (hnow : now ≠ 0) : Accounts { startedAtUnixMs := now } live ended := by
  have hlater : ∀ permit ∈ live ++ ended.map EndedPermit.permit,
      permit.windowStartedAtUnixMs < now := by
    intro permit hpermit
    obtain hunopened | hover := Bool.or_eq_true_iff.1 hneeds
    · obtain ⟨rfl, rfl⟩ := h.unopened (beq_iff_eq.1 hunopened)
      exact absurd hpermit not_mem_nil
    · have hpast := h.past permit hpermit
      have hminute : (60000 : ℤ) ≤ i64SaturatingSub now window.startedAtUnixMs :=
        of_decide_eq_true hover
      unfold i64SaturatingSub i64Min i64Max at hminute
      omega
  have hlive : ∀ permit ∈ live, permit.windowStartedAtUnixMs ≠ now := fun permit hpermit =>
    (hlater permit (mem_append_left _ hpermit)).ne
  have hended : ∀ permit ∈ ended.map EndedPermit.permit, permit.windowStartedAtUnixMs ≠ now :=
    fun permit hpermit => (hlater permit (mem_append_right _ hpermit)).ne
  obtain ⟨hreserved, hunstarted, hheld, hstarted⟩ := counts_of_other_windows hlive
  have hactual : actualTokens now ended = 0 :=
    actualTokens_of_other_windows fun last hlast => hended _ (mem_map_of_mem hlast)
  refine ⟨hreserved.symm, hunstarted.symm, hheld.symm, ?_, ?_, fun permit hpermit =>
    (hlater permit hpermit).le, fun hzero => absurd hzero hnow⟩
  · show 0 = heldTokens now live + actualTokens now ended
    rw [hheld, hactual]
  · show 0 = startedCount now live + _
    rw [hstarted, (counts_of_other_windows hended).2.2.2]

/-- The exact sums are machine words. -/
def Fits (window : ℤ) (live : List ProviderRatePermit) (ended : List EndedPermit) : Prop :=
  heldTokens window live + actualTokens window ended ≤ u64Max ∧
    reservedCount window live + startedRequests window live ended ≤ u64Max

lemma reserve (h : Accounts window live ended) (hopen : window.startedAtUnixMs ≠ 0) (tokens : ℕ)
    (hfits : Fits window.startedAtUnixMs
      (⟨tokens, window.startedAtUnixMs, .reserved⟩ :: live) ended) :
    Accounts (window.reserve tokens) (⟨tokens, window.startedAtUnixMs, .reserved⟩ :: live)
      ended := by
  have hle := unstartedTokens_le_heldTokens window.startedAtUnixMs live
  obtain ⟨hreserved, hunstarted, hheld, htokens, hrequests, hpast, -⟩ := h
  obtain ⟨hfits, hfits'⟩ := hfits
  refine ⟨?_, ?_, ?_, ?_, ?_, forall_mem_cons.2 ⟨le_rfl, hpast⟩,
    fun hstart => absurd hstart hopen⟩
  all_goals
    simp [ProviderRateWindow.reserve, u64SaturatingAdd] at hfits hfits' ⊢
    omega

lemma changes (h : Accounts window (permit :: rest) ended) {next : ProviderRateWindow}
    {other : ProviderRatePermit} {signals : ProviderSignals F}
    (hchanges : window.Changes permit signals next other)
    (hfits : Fits next.startedAtUnixMs (other :: rest) ended) :
    Accounts next (other :: rest) ended := by
  have hle := unstartedTokens_le_heldTokens window.startedAtUnixMs rest
  have hopen : window.startedAtUnixMs ≠ 0 := fun hstart =>
    absurd (h.unopened hstart).1 (cons_ne_nil _ _)
  obtain ⟨hreserved, hunstarted, hheld, htokens, hrequests, hpast, -⟩ := h
  obtain ⟨hpermit, hpast⟩ := forall_mem_cons.1 hpast
  obtain ⟨hfits, hfits'⟩ := hfits
  have hother : other.windowStartedAtUnixMs ≤ window.startedAtUnixMs := by
    cases hchanges with
    | begin | beginLater => exact le_rfl
    | rollback | rollbackEarlier => exact hpermit
  cases hchanges with
  | begin hwindow hstate | rollback hwindow hstate =>
    simp [hwindow, hstate] at hreserved hunstarted hheld htokens hrequests
    refine ⟨?_, ?_, ?_, ?_, ?_, forall_mem_cons.2 ⟨hother, hpast⟩,
      fun hstart => absurd hstart hopen⟩
    all_goals
      simp [ProviderRateWindow.begin, ProviderRateWindow.rollback, u64SaturatingAdd, hwindow]
        at hfits hfits' ⊢
      omega
  | beginLater hwindow | rollbackEarlier hwindow =>
    simp [hwindow] at hreserved hunstarted hheld htokens hrequests
    refine ⟨?_, ?_, ?_, ?_, ?_, forall_mem_cons.2 ⟨hother, hpast⟩,
      fun hstart => absurd hstart hopen⟩
    all_goals
      simp [ProviderRateWindow.beginLater, u64SaturatingAdd, hwindow] at hfits hfits' ⊢
      omega

lemma ends (h : Accounts window (permit :: rest) ended) {next : ProviderRateWindow}
    {actual : Option ℕ} (hends : window.Ends permit next actual)
    (hfits : Fits next.startedAtUnixMs rest (⟨permit, actual⟩ :: ended)) :
    Accounts next rest (⟨permit, actual⟩ :: ended) := by
  have hopen : window.startedAtUnixMs ≠ 0 := fun hstart =>
    absurd (h.unopened hstart).1 (cons_ne_nil _ _)
  obtain ⟨hreserved, hunstarted, hheld, htokens, hrequests, hpast, -⟩ := h
  have hpast : ∀ other ∈ rest ++ (⟨permit, actual⟩ :: ended : List EndedPermit).map
      EndedPermit.permit, other.windowStartedAtUnixMs ≤ window.startedAtUnixMs :=
    fun other hother => hpast other (perm_middle.mem_iff.1 hother)
  obtain ⟨hfits, hfits'⟩ := hfits
  cases hends with
  | earlier hside | completed hside =>
    simp [hside] at hreserved hunstarted hheld htokens hrequests
    refine ⟨hreserved, hunstarted, hheld, ?_, ?_, hpast, fun hstart => absurd hstart hopen⟩
    all_goals
      simp [hside]
      omega
  | started hwindow hstate =>
    simp [hwindow, hstate] at hreserved hunstarted hheld htokens hrequests
    refine ⟨?_, ?_, ?_, ?_, ?_, hpast, fun hstart => absurd hstart hopen⟩
    all_goals
      cases actual
      all_goals
        simp [ProviderRateWindow.settle, u64SaturatingAdd, hwindow, hstate] at hfits hfits' ⊢
        omega
  | reserved hwindow hstate =>
    simp [hwindow, hstate] at hreserved hunstarted hheld htokens hrequests
    refine ⟨?_, ?_, ?_, ?_, ?_, hpast, fun hstart => absurd hstart hopen⟩
    all_goals
      simp [ProviderRateWindow.release, hwindow, hstate]
      omega

end Accounts

/-! ## What a call does -/

/-- What a call can change. -/
structure RateBooks where
  window : ProviderRateWindow
  live : List ProviderRatePermit
  ended : List EndedPermit

def RatePermits.books (permits : RatePermits F) : RateBooks :=
  ⟨permits.window, permits.live, permits.ended⟩

/-- A window is opened if none is open. -/
inductive RateBooks.Opens (books : RateBooks) (now : ℤ) : RateBooks → Prop
  | kept : Opens books now books
  | opened (hneeds : books.window.needsStart now = true) (hnow : now ≠ 0) :
      Opens books now { books with window := { startedAtUnixMs := now } }

/-- What one call does to the books with the window that is open. -/
inductive RateBooks.Moves (signals : ProviderSignals F) (books : RateBooks) : RateBooks → Prop
  | stay : Moves signals books books
  | reserve (tokens : ℕ) (hopen : books.window.startedAtUnixMs ≠ 0)
      (hroom : books.window.requestRateExhausted signals = false) :
      Moves signals books
        { books with
          window := books.window.reserve tokens
          live := ⟨tokens, books.window.startedAtUnixMs, .reserved⟩ :: books.live }
  | change {place : ℕ} {permit other : ProviderRatePermit} {window : ProviderRateWindow}
      (hpermit : books.live[place]? = some permit)
      (hchanges : books.window.Changes permit signals window other) :
      Moves signals books { books with window, live := books.live.set place other }
  | finish {place : ℕ} {permit : ProviderRatePermit} {window : ProviderRateWindow}
      {actual : Option ℕ} (hpermit : books.live[place]? = some permit)
      (hends : books.window.Ends permit window actual) :
      Moves signals books ⟨window, books.live.eraseIdx place, ⟨permit, actual⟩ :: books.ended⟩

/-- The clock does not answer zero to a call that opens a window,
and the ledger takes the record of a permit that is dropped. -/
def RatePermits.ticks (permits : RatePermits F) (request : RateRequest F) : Bool :=
  match request.call with
  | .acquire _ | .markStarted _ => !permits.window.needsStart request.now || request.now != 0
  | .drop _ => request.fault.isNone
  | .rollbackStart _ | .commitTokens _ _ | .other _ => true

lemma RatePermits.ne_zero_of_ticks {permits : RatePermits F}
    (h : (!permits.window.needsStart now || now != 0) = true)
    (hneeds : permits.window.needsStart now = true) : now ≠ 0 := by
  simpa [hneeds] using h

section Calls

variable {manager : Manager F} {permit : ProviderRatePermit}

lemma Manager.currentWindow_opens (live : List ProviderRatePermit) (ended : List EndedPermit)
    (hnow : manager.state.providerRate.needsStart now = true → now ≠ 0) :
    RateBooks.Opens ⟨manager.state.providerRate, live, ended⟩ now
      ⟨manager.currentWindow now, live, ended⟩ := by
  unfold currentWindow
  split
  · next hneeds => exact .opened hneeds (hnow hneeds)
  · exact .kept

@[elab_as_elim]
lemma Manager.acquireProviderRequest_ind {tokens : ℕ}
    {motive : Change F (Except String ℤ) → Prop}
    (refused : ∀ error changed,
      motive (manager.putWindow (.error error) changed (manager.currentWindow now)))
    (reserved : (manager.currentWindow now).requestRateExhausted manager.state.providerSignals =
      false → motive (manager.putWindow (.ok (manager.currentWindow now).startedAtUnixMs) true
        ((manager.currentWindow now).reserve tokens))) :
    motive (manager.acquireProviderRequest now tokens) := by
  unfold acquireProviderRequest
  dsimp only
  split
  · exact refused _ _
  · next hroom =>
    split
    · exact refused _ _
    · exact reserved (Bool.eq_false_iff.2 hroom)

@[elab_as_elim]
lemma Manager.markProviderRequestStarted_ind (hreserved : permit.state = .reserved)
    {motive : Change F (Except String ℤ) → Prop}
    (refused : ∀ error changed,
      motive (manager.putWindow (.error error) changed (manager.currentWindow now)))
    (started : ∀ next, (manager.currentWindow now).Changes permit manager.state.providerSignals next
        ⟨permit.reservedTokens, (manager.currentWindow now).startedAtUnixMs, .started⟩ →
      motive (manager.putWindow (.ok (manager.currentWindow now).startedAtUnixMs) true next)) :
    motive (manager.markProviderRequestStarted now permit.reservedTokens
      permit.windowStartedAtUnixMs) := by
  unfold markProviderRequestStarted
  dsimp only
  split
  · next hother =>
    split
    · exact refused _ _
    · next hroom =>
      split
      · exact refused _ _
      · exact started _ (.beginLater (Ne.symm hother) (Bool.eq_false_iff.2 hroom))
  · next hsame =>
    split
    · exact refused _ _
    · exact started _ (.begin (not_not.1 hsame).symm hreserved)

@[elab_as_elim]
lemma Manager.rollbackProviderRequestStart_ind (hstarted : permit.state = .started)
    {motive : Change F (Except String Unit) → Prop}
    (refused : ∀ error, motive (manager.refuse (.error error)))
    (done : ∀ changed state, (∀ signals : ProviderSignals F, manager.state.providerRate.Changes
        permit signals state.providerRate { permit with state := .reserved }) →
      motive ⟨.ok (), changed, state⟩) :
    motive (manager.rollbackProviderRequestStart permit.reservedTokens
      permit.windowStartedAtUnixMs) := by
  unfold rollbackProviderRequestStart
  dsimp only
  split
  · next hother => exact done _ _ fun _ => .rollbackEarlier (Ne.symm hother)
  · next hsame =>
    split
    · exact refused _
    · exact done _ _ fun _ => .rollback (not_not.1 hsame).symm hstarted

@[elab_as_elim]
lemma Manager.inWindow_ind {start : ℤ} {settle : ProviderRateWindow → ProviderRateWindow}
    {motive : Change F Unit → Prop}
    (other : start ≠ manager.state.providerRate.startedAtUnixMs → motive (manager.refuse ()))
    (same : start = manager.state.providerRate.startedAtUnixMs →
      motive (manager.putWindow () true (settle manager.state.providerRate))) :
    motive (manager.inWindow start settle) := by
  unfold inWindow
  dsimp only
  split
  · next hother => exact other (Ne.symm hother)
  · next hsame => exact same (not_not.1 hsame).symm

lemma Operation.update_providerRate {f : F64 F} {operation : Operation F}
    (h : operation.isRate = false) :
    (operation.update f manager now).state.providerRate = manager.state.providerRate := by
  cases operation with
  | acquireProviderRequest | markProviderRequestStarted | rollbackProviderRequestStart
  | commitProviderTokens | releaseProviderTokens | releaseProviderReservation => cases h
  | setBudget | setProviderSignals | recordModelUsage | recordTokensAndCost | releaseAgent
  | releaseEffect => rfl
  | tryAcquireAgent =>
    rw [update]
    exact tryAcquireAgent_ind rfl fun _ _ _ => rfl
  | tryAcquireReattachedAgent =>
    rw [update]
    exact tryAcquireReattachedAgent_ind rfl fun _ _ => rfl
  | tryAcquireEffect =>
    rw [update]
    exact tryAcquireEffect_ind rfl fun _ => rfl
  | recordModelUsageOnce =>
    simp only [update, Change.succeeds, Manager.recordModelUsageOnce]
    split_ifs <;> rfl
  | recordToolCallsOnce =>
    simp only [update, Change.succeeds, Manager.recordToolCallsOnce]
    split_ifs <;> rfl

end Calls

namespace RatePermits

variable [DecidableEq F] {f : F64 F}

/-- The books after a call: a window is opened if there is none, then one move is made. -/
def Moves (permits next : RatePermits F) (now : ℤ) : Prop :=
  ∃ books, permits.books.Opens now books ∧
    books.Moves permits.session.manager.state.providerSignals next.books

omit [DecidableEq F] in
lemma moves_of_books {permits next : RatePermits F}
    (h : permits.books.Moves permits.session.manager.state.providerSignals next.books) :
    permits.Moves next now := ⟨_, .kept, h⟩

omit [DecidableEq F] in
lemma moves_of_same {permits next : RatePermits F} (h : next.books = permits.books) :
    permits.Moves next now :=
  moves_of_books (h ▸ .stay)

variable (permits : RatePermits F) (request : RateRequest F)

lemma acquire_moves (tokens : ℕ)
    (hnow : permits.window.needsStart request.now = true → request.now ≠ 0) :
    permits.Moves (permits.acquire f request tokens) request.now := by
  have hopens := currentWindow_opens permits.live permits.ended hnow
  unfold acquire
  refine acquireProviderRequest_ind (fun _ _ => ?_) fun hroom => ?_
  all_goals
    refine Session.withStateUpdate_ind (fun session hwrites => ⟨_, hopens, ?_⟩) fun _ _ _ hstate
      _ =>
      moves_of_same (by simp only [books, window, hstate])
    simp only [Manager.putWindow, books, window, hwrites.state]
  · exact .stay
  · refine .reserve tokens (fun hzero => ?_) hroom
    unfold currentWindow at hzero
    split at hzero
    · next hneeds => exact hnow hneeds hzero
    · next hneeds => exact hneeds (Bool.or_eq_true_iff.2 (.inl (beq_iff_eq.2 hzero)))

variable {permit : ProviderRatePermit}

lemma markStarted_moves {place : ℕ} (hpermit : permits.live[place]? = some permit)
    (hnow : permits.window.needsStart request.now = true → request.now ≠ 0) :
    permits.Moves (permits.markStarted f request place permit) request.now := by
  have hopens := currentWindow_opens permits.live permits.ended hnow
  unfold markStarted
  split
  · next hreserved =>
    refine markProviderRequestStarted_ind hreserved (fun _ _ => ?_) fun next hchanges => ?_
    all_goals
      refine Session.withStateUpdate_ind (fun session hwrites => ⟨_, hopens, ?_⟩) fun _ _ _ hstate
        _ =>
        moves_of_same (by simp only [books, window, hstate])
      simp only [Manager.putWindow, put, books, window, hwrites.state]
    · exact .stay
    · exact .change hpermit hchanges
  · exact moves_of_same rfl

lemma rollbackStart_moves {place : ℕ} (hpermit : permits.live[place]? = some permit) :
    permits.Moves (permits.rollbackStart f request place permit) request.now := by
  unfold rollbackStart
  split
  · next hstarted =>
    refine rollbackProviderRequestStart_ind hstarted (fun _ => ?_) fun changed state hchanges => ?_
    all_goals
      refine Session.withStateUpdate_ind (fun session hwrites => moves_of_books ?_)
        fun _ _ _ hstate _ => moves_of_same (by simp only [books, window, hstate])
      simp only [Manager.refuse, put, books, window, hwrites.state]
    · exact .stay
    · exact .change hpermit (hchanges _)
  · exact moves_of_same rfl

lemma commitTokens_moves {place : ℕ} (hpermit : permits.live[place]? = some permit) (actual : ℕ) :
    permits.Moves (permits.commitTokens f request place permit actual) request.now := by
  unfold commitTokens commitProviderTokens
  split
  · next hstarted =>
    refine inWindow_ind (fun hother => ?_) fun hsame => ?_
    all_goals
      refine Session.withStateUpdate_ind (fun session hwrites => moves_of_books ?_)
        fun _ _ _ hstate _ => moves_of_same (by simp only [books, window, hstate])
      simp only [Manager.putWindow, Manager.refuse, finish, books, window, hwrites.state]
    · exact .finish hpermit (.earlier hother (some actual))
    · exact .finish hpermit (.started hsame hstarted (some actual))
  · exact moves_of_same rfl

lemma drop_moves {place : ℕ} (hpermit : permits.live[place]? = some permit)
    (hfault : request.fault = none) :
    permits.Moves (permits.drop f request place permit) request.now := by
  unfold drop
  refine Session.withStateUpdate_ind (fun session hwrites => moves_of_books ?_)
    fun _ _ hrefused _ _ => absurd hfault hrefused
  simp only [finish, books, window, hwrites.state]
  unfold release
  cases hcase : permit.state with
  | completed => exact .finish hpermit (.completed hcase)
  | started =>
    rw [Manager.releaseProviderTokens]
    refine inWindow_ind (fun hother => ?_) fun hsame => ?_
    · exact .finish hpermit (.earlier hother none)
    · exact .finish hpermit (.started hsame hcase none)
  | reserved =>
    rw [Manager.releaseProviderReservation]
    refine inWindow_ind (fun hother => ?_) fun hsame => ?_
    · exact .finish hpermit (.earlier hother none)
    · exact .finish hpermit (.reserved hsame hcase)

variable (f) in
lemma step_moves (h : permits.ticks request = true) :
    permits.Moves (permits.step f request) request.now := by
  have hpick : ∀ (place : ℕ) (call : ProviderRatePermit → RatePermits F),
      (∀ permit, permits.live[place]? = some permit → permits.Moves (call permit) request.now) →
      permits.Moves ((permits.live[place]?).elim permits call) request.now := by
    intro place call hcall
    cases hpermit : permits.live[place]? with
    | none => exact moves_of_same rfl
    | some permit => exact hcall permit hpermit
  unfold step
  unfold ticks at h
  cases hcall : request.call with
  | acquire tokens =>
    rw [hcall] at h
    exact permits.acquire_moves request tokens (ne_zero_of_ticks h)
  | markStarted place =>
    rw [hcall] at h
    exact hpick place _ fun _ hpermit => permits.markStarted_moves request hpermit
      (ne_zero_of_ticks h)
  | rollbackStart place => exact hpick place _ fun _ => permits.rollbackStart_moves request
  | commitTokens place actual =>
    exact hpick place _ fun _ hpermit => permits.commitTokens_moves request hpermit actual
  | drop place =>
    rw [hcall] at h
    exact hpick place _ fun _ hpermit => permits.drop_moves request hpermit
      (Option.isNone_iff_eq_none.1 h)
  | other operation =>
    refine moves_of_same ?_
    dsimp only
    refine Session.withStateUpdate_ind (fun _ hwrites => ?_) fun _ _ _ hstate _ => ?_
    · simp only [books, window, hwrites.state, Operation.update_providerRate operation.2]
    · simp only [books, window, hstate]

end RatePermits

/-! ## Accounts over a run -/

lemma perm_of_getElem? {α : Type} {values : List α} {place : ℕ} {value : α}
    (h : values[place]? = some value) : values.Perm (value :: values.eraseIdx place) := by
  obtain ⟨hlt, rfl⟩ := List.getElem?_eq_some_iff.1 h
  exact (getElem_cons_eraseIdx_perm hlt).symm

lemma set_perm_of_getElem? {α : Type} {values : List α} {place : ℕ} {value : α}
    (h : values[place]? = some value) (other : α) :
    (values.set place other).Perm (other :: values.eraseIdx place) :=
  set_perm_cons_eraseIdx (List.getElem?_eq_some_iff.1 h).1 other

variable {limit : ℕ}

namespace RateBooks

/-- The counters of the window are what the permits stand for. -/
def Accounted (books : RateBooks) : Prop := Accounts books.window books.live books.ended

/-- The exact sums of the window are machine words. -/
def Fits (books : RateBooks) : Prop :=
  Accounts.Fits books.window.startedAtUnixMs books.live books.ended

instance (books : RateBooks) : Decidable books.Fits := inferInstanceAs (Decidable (_ ∧ _))

variable {books next : RateBooks} {live : List ProviderRatePermit} {signals : ProviderSignals F}
  {permit : ProviderRatePermit}

lemma Accounted.opens (h : books.Accounted) (hopens : books.Opens now next) :
    next.Accounted := by
  cases hopens with
  | kept => exact h
  | opened hneeds hnow => exact Accounts.opened h hneeds hnow

variable {rest : List ProviderRatePermit}

lemma startedRequests_perm {window : ℤ} {ended : List EndedPermit} (hperm : live.Perm rest) :
    startedRequests window live ended = startedRequests window rest ended :=
  congrArg (· + _) (hperm.countP_eq _)

lemma fits_perm {window : ℤ} {ended : List EndedPermit} (hperm : live.Perm rest)
    (h : Accounts.Fits window live ended) :
    Accounts.Fits window rest ended := by
  have hheld : heldTokens window live = heldTokens window rest := (hperm.map _).sum_nat
  have hreserved : reservedCount window live = reservedCount window rest := hperm.countP_eq _
  rwa [Accounts.Fits, hheld, hreserved, startedRequests_perm hperm] at h

lemma Accounted.moves (h : books.Accounted) (hmoves : books.Moves signals next)
    (hfits : next.Fits) : next.Accounted := by
  cases hmoves with
  | stay => exact h
  | reserve tokens hopen hroom => exact Accounts.reserve h hopen tokens hfits
  | @change place permit other window hpermit hchanges =>
    have hset := set_perm_of_getElem? hpermit other
    exact ((Accounts.perm h (perm_of_getElem? hpermit)).changes hchanges
      (fits_perm hset hfits)).perm hset.symm
  | finish hpermit hends => exact (Accounts.perm h (perm_of_getElem? hpermit)).ends hends hfits

/-- No more requests than the limit allows, in the window that is open and in those before it. -/
structure Within (limit : ℕ) (books : RateBooks) : Prop where
  current : books.window.requests + books.window.reservedRequests ≤ limit
  started : ∀ window, startedRequests window books.live books.ended ≤ limit

lemma Within.opens (h : books.Within limit) (hopens : books.Opens now next) :
    next.Within limit := by
  cases hopens with
  | kept => exact h
  | opened => exact ⟨Nat.zero_le _, h.started⟩

lemma requests_lt_of_room (hlimit : signals.requestsPerMinute = some limit)
    (hroom : books.window.requestRateExhausted signals = false)
    (hfits : books.window.requests + books.window.reservedRequests ≤ u64Max) :
    books.window.requests + books.window.reservedRequests < limit := by
  rw [ProviderRateWindow.requestRateExhausted, hlimit, Option.any_some, decide_eq_false_iff_not,
    u64SaturatingAdd] at hroom
  omega

/-- A move starts requests in the window that is open only. -/
lemma Moves.started_le (hmoves : books.Moves signals next) {window : ℤ}
    (hwindow : window ≠ next.window.startedAtUnixMs) :
    startedRequests window next.live next.ended ≤ startedRequests window books.live
      books.ended := by
  cases hmoves with
  | stay => exact le_rfl
  | reserve tokens hopen hroom =>
    rw [startedRequests_cons]
    simp
  | change hpermit hchanges =>
    rw [startedRequests_perm (set_perm_of_getElem? hpermit _),
      startedRequests_perm (perm_of_getElem? hpermit), startedRequests_cons, startedRequests_cons,
      if_neg]
    · exact Nat.le_add_right _ _
    · rintro ⟨rfl, hstate⟩
      cases hchanges with
      | begin | beginLater => exact hwindow rfl
      | rollback | rollbackEarlier => cases hstate
  | finish hpermit =>
    rw [startedRequests_perm (perm_of_getElem? hpermit), startedRequests_cons,
      startedRequests_ended_cons]

/-- The counters of a window in which a permit is reserved or started are positive. -/
lemma Accounted.pos (h : books.Accounted) {place : ℕ} (hpermit : books.live[place]? = some permit)
    (hwindow : permit.windowStartedAtUnixMs = books.window.startedAtUnixMs) :
    (permit.state = .reserved → 0 < books.window.reservedRequests) ∧
      (permit.state = .started → 0 < books.window.requests) := by
  have hperm := Accounts.perm h (perm_of_getElem? hpermit)
  constructor
  · intro hstate
    rw [hperm.reserved, reservedCount_cons, if_pos ⟨hwindow, hstate⟩]
    exact Nat.succ_pos _
  · intro hstate
    rw [hperm.requests, startedRequests_cons, if_pos ⟨hwindow, hstate⟩]
    exact Nat.succ_pos _

lemma Moves.current_le (hmoves : books.Moves signals next) (haccounted : books.Accounted)
    (hcurrent : books.window.requests + books.window.reservedRequests ≤ limit)
    (hlimit : signals.requestsPerMinute = some limit)
    (hfits : books.window.requests + books.window.reservedRequests ≤ u64Max) :
    next.window.requests + next.window.reservedRequests ≤ limit := by
  cases hmoves with
  | stay => exact hcurrent
  | reserve tokens hopen hroom =>
    have hlt := requests_lt_of_room hlimit hroom hfits
    dsimp only [ProviderRateWindow.reserve, u64SaturatingAdd]
    omega
  | change hpermit hchanges =>
    cases hchanges with
    | begin hwindow hstate =>
      have hpos := (haccounted.pos hpermit hwindow).1 hstate
      dsimp only [ProviderRateWindow.begin, u64SaturatingAdd]
      omega
    | beginLater hwindow hroom =>
      have hlt := requests_lt_of_room hlimit hroom hfits
      dsimp only [ProviderRateWindow.beginLater, u64SaturatingAdd]
      omega
    | rollback hwindow hstate =>
      have hpos := (haccounted.pos hpermit hwindow).2 hstate
      dsimp only [ProviderRateWindow.rollback, u64SaturatingAdd]
      omega
    | rollbackEarlier => exact hcurrent
  | finish hpermit hends =>
    cases hends with
    | earlier | started | completed => exact hcurrent
    | reserved =>
      dsimp only [ProviderRateWindow.release]
      omega

lemma Within.moves (h : books.Within limit) (hmoves : books.Moves signals next)
    (hlimit : signals.requestsPerMinute = some limit) (haccounted : books.Accounted)
    (hnext : next.Accounted)
    (hfits : books.window.requests + books.window.reservedRequests ≤ u64Max) :
    next.Within limit := by
  have hcurrent := hmoves.current_le haccounted h.current hlimit hfits
  refine ⟨hcurrent, fun window => ?_⟩
  by_cases hwindow : window = next.window.startedAtUnixMs
  · rw [hwindow, ← Accounts.requests hnext]
    exact (Nat.le_add_right _ _).trans hcurrent
  · exact (hmoves.started_le hwindow).trans (h.started window)

lemma Fits.opens (h : books.Fits) (haccounted : books.Accounted) (hopens : books.Opens now next) :
    next.window.requests + next.window.reservedRequests ≤ u64Max := by
  cases hopens with
  | kept =>
    rw [Accounts.requests haccounted, Accounts.reserved haccounted, Nat.add_comm]
    exact h.2
  | opened => exact Nat.zero_le _

end RateBooks

namespace RatePermits

variable [DecidableEq F] {f : F64 F}

/-- The books of a run agree with its permits. -/
lemma step_accounted {permits : RatePermits F} {request : RateRequest F}
    (h : permits.books.Accounted) (hticks : permits.ticks request = true)
    (hfits : (permits.step f request).books.Fits) : (permits.step f request).books.Accounted := by
  obtain ⟨books, hopens, hmoves⟩ := permits.step_moves f request hticks
  exact (h.opens hopens).moves hmoves hfits

lemma step_within {permits : RatePermits F} {request : RateRequest F}
    (h : permits.books.Accounted) (hwithin : permits.books.Within limit)
    (hfits : permits.books.Fits) (hticks : permits.ticks request = true)
    (hnext : (permits.step f request).books.Fits)
    (hlimit : permits.session.manager.state.providerSignals.requestsPerMinute = some limit) :
    (permits.step f request).books.Within limit := by
  obtain ⟨books, hopens, hmoves⟩ := permits.step_moves f request hticks
  exact (hwithin.opens hopens).moves hmoves hlimit (h.opens hopens) (step_accounted h hticks hnext)
    (hfits.opens h hopens)

end RatePermits

lemma RatePermits.start_accounted {session : Session F}
    (h : session.manager.state.providerRate = {}) :
    (RatePermits.start session).books.Accounted ∧ (RatePermits.start session).books.Fits ∧
      ∀ limit, (RatePermits.start session).books.Within limit := by
  have hbooks : (RatePermits.start session).books = ⟨{}, [], []⟩ := by
    simp only [RatePermits.books, RatePermits.window, RatePermits.start, h]
  rw [hbooks]
  exact ⟨.empty, by decide, fun limit => ⟨Nat.zero_le _, fun _ => Nat.zero_le _⟩⟩

open RatePermits (machine start books start_accounted step_accounted)

/-- In a run in which no window is opened at time zero and no release is refused by the ledger,
and in
which the sums are machine words, the counters of the window are what its permits stand for. Under a
constant limit of requests no window has more of them. -/
theorem rate_window_accounts_for_permits [DecidableEq F] (f : F64 F) (session : Session F)
    (hfresh : session.manager.state.providerRate = {}) (requests : List (RateRequest F))
    (hticks : ∀ x ∈ (machine f).trace (.start session) requests,
      x.before.ticks x.event = true)
    (hfits : ∀ x ∈ (machine f).trace (.start session) requests, x.after.books.Fits) :
    let final := (machine f).run (.start session) requests
    let start := final.window.startedAtUnixMs
    (final.window.reservedRequests = reservedCount start final.live ∧
      final.window.unstartedReservedTokens = unstartedTokens start final.live ∧
      final.window.reservedTokens = heldTokens start final.live ∧
      final.window.tokens = heldTokens start final.live + actualTokens start final.ended) ∧
    ∀ limit, (∀ x ∈ (machine f).trace (.start session) requests,
        x.before.session.manager.state.providerSignals.requestsPerMinute = some limit) →
      final.window.requests + final.window.reservedRequests ≤ limit ∧
        ∀ window, startedRequests window final.live final.ended ≤ limit := by
  obtain ⟨haccounted, hstart, hwithin⟩ := start_accounted hfresh
  have hnext : ∀ x ∈ (machine f).trace (.start session) requests,
      (x.before.step f x.event).books.Fits := by
    intro x hx
    have hafter := hfits x hx
    rw [(machine f).eq_stepAt_of_mem_trace hx] at hafter
    exact hafter
  constructor
  · have hfinal := Machine.run_of_trace (m := machine f)
      (P := fun permits => permits.books.Accounted)
      (C := fun permits request => permits.ticks request = true ∧
        (permits.step f request).books.Fits)
      (fun _ _ h hc => step_accounted h hc.1 hc.2) haccounted
      fun x hx => ⟨hticks x hx, hnext x hx⟩
    exact ⟨hfinal.reserved, hfinal.unstarted, hfinal.held, hfinal.tokens⟩
  · intro limit hlimit
    obtain ⟨-, -, hfinal⟩ := Machine.run_of_trace (m := machine f)
      (P := fun permits => permits.books.Accounted ∧ permits.books.Fits ∧
        permits.books.Within limit)
      (C := fun permits request => permits.ticks request = true ∧
        (permits.step f request).books.Fits ∧
        permits.session.manager.state.providerSignals.requestsPerMinute = some limit)
      (fun _ _ h hc => ⟨step_accounted h.1 hc.1 hc.2.1, hc.2.1,
        RatePermits.step_within h.1 h.2.2 h.2.1 hc.1 hc.2.1 hc.2.2⟩)
      ⟨haccounted, hstart, hwithin limit⟩ fun x hx => ⟨hticks x hx, hnext x hx, hlimit x hx⟩
    exact ⟨hfinal.current, hfinal.started⟩

/-- A manager without a window. -/
def unopened : Session ℕ := ⟨.new wholeUnits {} 1 4, []⟩

/-- A permit is acquired in one window, started in the next one, rolled back, started again and
committed. -/
theorem rate_window_accounts_across_windows :
    let requests : List (RateRequest ℕ) :=
      [⟨.acquire 5, 1, none⟩, ⟨.acquire 7, 2, none⟩, ⟨.markStarted 0, 70000, none⟩,
        ⟨.rollbackStart 0, 70000, none⟩, ⟨.markStarted 0, 70001, none⟩,
        ⟨.commitTokens 0 6, 70001, none⟩]
    let final := (machine wholeUnits).run (.start unopened) requests
    final.window.tokens = heldTokens 70000 final.live + actualTokens 70000 final.ended ∧
      final.window.tokens = 6 :=
  ⟨(rate_window_accounts_for_permits wholeUnits unopened rfl _ (by decide +kernel)
    (by decide +kernel)).1.2.2.2, by decide +kernel⟩

/-- A window that is opened at time zero is opened again by the next call,
which forgets the permit of the first. -/
theorem window_at_zero_forgets_permit :
    let requests : List (RateRequest ℕ) := [⟨.acquire 5, 0, none⟩, ⟨.acquire 7, 0, none⟩]
    let final := (machine wholeUnits).run (.start unopened) requests
    final.window.reservedRequests = 1 ∧
      reservedCount final.window.startedAtUnixMs final.live = 2 := by
  decide +kernel

end SolarisMesh.Resource
