import Mathlib.Data.List.TakeWhile
import Mathlib.Tactic.Common

/-!
# Loops that defer work into batches

A loop answers items one by one. Some items run something at once, others are deferred into
a batch that runs at the next flush, and items that end with an unknown outcome are meant to
stop the loop: what comes later is skipped. The main result says for which items the loop
answers in order and runs nothing after an unknown outcome.
-/

namespace SolarisMesh.Lib.Batch

open List

/-- What a loop does with an item it takes up. -/
inductive Action where
  /-- Flush, then answer without running anything; with `recheck` the item is skipped when
  the flush stopped the loop. -/
  | answer (recheck unknown stops : Bool)
  /-- Put into the batch, after a flush when it had to be asked for. -/
  | defer (asked ran unknown : Bool)
  /-- Flush and, unless that stopped the loop, run at once. -/
  | execute (ran unknown : Bool)
deriving DecidableEq

structure Item (ι : Type*) where
  id : ι
  action : Action

/-- How an item ended. -/
structure Entry (ι : Type*) where
  id : ι
  unknown : Bool
  ran : Bool
deriving DecidableEq

variable {ι : Type*}

namespace Item

/-- How the item ends when it is not skipped. -/
def entry (c : Item ι) : Entry ι :=
  match c.action with
  | .answer _ unknown _ => ⟨c.id, unknown, false⟩
  | .defer _ ran unknown | .execute ran unknown => ⟨c.id, unknown, ran⟩

def stops (c : Item ι) : Bool :=
  match c.action with
  | .answer _ _ stops => stops
  | .defer _ _ unknown | .execute _ unknown => unknown

/-- An unknown outcome that does not stop the loop. -/
def tolerated (c : Item ι) : Bool := c.entry.unknown && !c.stops

def deferred (c : Item ι) : Bool :=
  match c.action with
  | .defer _ _ _ => true
  | _ => false

/-- Deferred without a flush. -/
def plain (c : Item ι) : Bool :=
  match c.action with
  | .defer asked _ _ => !asked
  | _ => false

/-- Deferred after a flush. -/
def asked (c : Item ι) : Bool :=
  match c.action with
  | .defer asked _ _ => asked
  | _ => false

end Item

open Item (plain)

open Item (entry)

/-- The rounds that have run, the batch, and whether the loop is stopped. -/
structure Loop (ι : Type*) where
  log : List (List (Entry ι))
  pending : List (Item ι)
  stop : Bool

namespace Loop

def start : Loop ι := ⟨[], [], false⟩

variable (l : Loop ι) (c : Item ι)

def flush : Loop ι :=
  match l.pending with
  | [] => l
  | pending =>
    ⟨l.log ++ [pending.map entry], [], l.stop || pending.any (·.entry.unknown)⟩

def skip : Loop ι :=
  { l with log := l.log ++ [[⟨c.id, false, false⟩]] }

def put : Loop ι :=
  { l with log := l.log ++ [[c.entry]], stop := l.stop || c.stops }

/-- Take up an item. -/
def perform : Loop ι :=
  match c.action with
  | .answer recheck _ _ => if recheck && l.flush.stop then l.flush.skip c else l.flush.put c
  | .defer asked _ _ =>
    let l := if asked then l.flush else l
    { l with pending := l.pending ++ [c] }
  | .execute _ _ => if l.flush.stop then l.flush.skip c else l.flush.put c

def step : Loop ι := if l.stop then l.skip c else l.perform c

def run (items : List (Item ι)) : Loop ι := (items.foldl step start).flush

variable {l : Loop ι} {c : Item ι}

lemma flush_of_nil (h : l.pending = []) : l.flush = l := by
  simp [flush, h]

@[simp] lemma flush_pending : l.flush.pending = [] := by
  unfold flush
  split
  · assumption
  · rfl

@[simp] lemma flush_flush : l.flush.flush = l.flush :=
  flush_of_nil l.flush_pending

lemma step_immediate (h : l.stop = false) (hflush : l.flush.stop = false)
    (hc : c.deferred = false) : l.step c = l.flush.put c := by
  obtain ⟨id, action⟩ := c
  cases action <;> simp_all [step, perform, Item.deferred]

lemma step_deferred (h : l.stop = false) (hc : c.deferred = true) :
    l.step c = if c.asked then { l.flush with pending := [c] }
      else { l with pending := l.pending ++ [c] } := by
  obtain ⟨id, action⟩ := c
  cases action with
  | answer | execute => cases hc
  | defer asked => cases asked <;> simp [step, perform, h, Item.asked]

end Loop

open Loop (run)

/-! ## What is asked of a loop -/

/-- Every item is answered, in the order of the items. -/
def InOrder (ids : List ι) (log : List (List (Entry ι))) : Prop :=
  log.flatten.map (·.id) = ids

/-- Nothing is run for an item behind one whose outcome was unknown in an earlier round. -/
def StopsAfterUnknown (ids : List ι) (log : List (List (Entry ι))) : Prop :=
  log.Pairwise fun earlier later => ∀ c ∈ earlier, c.unknown = true →
    ∀ d ∈ later, d.ran = true → ¬ [c.id, d.id].Sublist ids

/-- Nothing is run in a round behind one with an unknown outcome. -/
def NoRunAfterUnknown (log : List (List (Entry ι))) : Prop :=
  log.Pairwise fun earlier later => (∃ c ∈ earlier, c.unknown = true) →
    ∀ d ∈ later, d.ran = false

/-- The items taken up before the loop stops: up to the first that stops it, and what joins
its batch. -/
def live : List (Item ι) → List (Item ι)
  | [] => []
  | c :: cs =>
    if c.stops then c :: (if c.deferred then cs.takeWhile plain else [])
    else c :: live cs

/-! ## Rounds -/

/-- Items of two rounds stand in the order of the rounds. -/
lemma sublist_of_rounds (log : List (List (Entry ι))) :
    log.Pairwise fun earlier later => ∀ c ∈ earlier, ∀ d ∈ later,
      [c.id, d.id].Sublist (log.flatten.map (·.id)) := by
  induction log with
  | nil => exact .nil
  | cons round log ih =>
    refine .cons ?_ (ih.imp fun h c hc d hd => ?_)
    · intro later hlater c hc d hd
      have hc' : [c.id].Sublist (round.map (·.id)) :=
        singleton_sublist.mpr (mem_map_of_mem hc)
      have hd' : [d.id].Sublist (log.flatten.map (·.id)) :=
        singleton_sublist.mpr
          (mem_map_of_mem (mem_flatten_of_mem hlater hd))
      simpa using hc'.append hd'
    · rw [flatten_cons, map_append]
      exact (h c hc d hd).trans (sublist_append_right _ _)

variable {log : List (List (Entry ι))}

lemma stopsAfterUnknown_iff {ids : List ι} (h : InOrder ids log) :
    StopsAfterUnknown ids log ↔ NoRunAfterUnknown log := by
  have hrounds := sublist_of_rounds log
  rw [show log.flatten.map (·.id) = ids from h] at hrounds
  constructor
  · intro hs
    refine (hrounds.and hs).imp fun {R R'} hboth hunknown d hd => ?_
    obtain ⟨c, hc, hcu⟩ := hunknown
    by_contra hran
    exact hboth.2 c hc hcu d hd (by simpa using hran) (hboth.1 c hc d hd)
  · intro hs
    refine hs.imp fun {R R'} hno c hc hcu d hd hran => ?_
    rw [hno ⟨c, hc, hcu⟩ d hd] at hran
    cases hran

lemma noRun_append {round : List (Entry ι)} :
    NoRunAfterUnknown (log ++ [round]) ↔ NoRunAfterUnknown log ∧
      ((∃ e ∈ log.flatten, e.unknown = true) → ∀ d ∈ round, d.ran = false) := by
  unfold NoRunAfterUnknown
  rw [pairwise_append]
  simp only [pairwise_singleton, mem_singleton, forall_eq, true_and, mem_flatten]
  refine and_congr_right fun _ => ⟨?_, ?_⟩
  · rintro h ⟨e, ⟨R, hR, he⟩, hu⟩
    exact h R hR ⟨e, he, hu⟩
  · rintro h R hR ⟨e, he, hu⟩
    exact h ⟨e, ⟨R, hR, he⟩, hu⟩

/-! ## While the loop goes on -/

/-- An unknown outcome that is tolerated is followed by no run. -/
def ToleratedQuietly (items : List (Item ι)) : Prop :=
  items.Pairwise fun c d => c.tolerated = true → d.entry.ran = false

variable {done : List (Item ι)}

lemma toleratedQuietly_append {c : Item ι} :
    ToleratedQuietly (done ++ [c]) ↔ ToleratedQuietly done ∧
      ((∃ x ∈ done, x.tolerated = true) → c.entry.ran = false) := by
  unfold ToleratedQuietly
  rw [pairwise_append]
  simp

lemma Item.not_tolerated_of_deferred {c : Item ι} (h : c.deferred = true) :
    c.tolerated = false := by
  obtain ⟨id, action⟩ := c
  cases action <;> simp_all [Item.deferred, Item.tolerated, entry, Item.stops]

lemma Item.stops_of_deferred {c : Item ι} (h : c.deferred = true) :
    c.stops = c.entry.unknown := by
  obtain ⟨id, action⟩ := c
  cases action <;> simp_all [Item.deferred, entry, Item.stops]

lemma Item.plain_iff {c : Item ι} :
    c.plain = true ↔ c.deferred = true ∧ c.asked = false := by
  obtain ⟨id, action⟩ := c
  cases action <;> simp [plain, Item.deferred, Item.asked]

/-- The loop has taken up `done` and goes on. -/
structure Going (done : List (Item ι)) (l : Loop ι) : Prop where
  running : l.stop = false
  flat : l.log.flatten ++ l.pending.map entry = done.map entry
  deferred : ∀ c ∈ l.pending, c.deferred = true
  known : (∃ e ∈ l.log.flatten, e.unknown = true) ↔ ∃ c ∈ done, c.tolerated = true
  sound : NoRunAfterUnknown (l.log ++ [l.pending.map entry]) ↔ ToleratedQuietly done

/-- Nothing in the batch stops the loop. -/
def Quiet (l : Loop ι) : Prop := ∀ c ∈ l.pending, c.stops = false

lemma Going.start : Going ([] : List (Item ι)) .start :=
  ⟨rfl, rfl, by simp [Loop.start], by simp [Loop.start],
    by simp [Loop.start, NoRunAfterUnknown, ToleratedQuietly]⟩

variable {xs cs : List (Item ι)}

namespace Going

variable {l : Loop ι} {c : Item ι}

section

variable (h : Going done l)
include h

/-- An item joins the batch. -/
lemma defer (hc : c.deferred = true) :
    Going (done ++ [c]) { l with pending := l.pending ++ [c] } where
  running := h.running
  flat := by
    rw [map_append, ← append_assoc, h.flat, map_append]
  deferred d hd := by
    rcases mem_append.mp hd with hd | hd
    · exact h.deferred d hd
    · rwa [mem_singleton.mp hd]
  known := by
    rw [h.known]
    simp [or_and_right, exists_or, Item.not_tolerated_of_deferred hc]
  sound := by
    have hsound := h.sound
    rw [noRun_append] at hsound
    rw [noRun_append, toleratedQuietly_append, ← hsound, ← h.known]
    simp only [map_append, mem_append, map_cons, map_nil, mem_singleton]
    constructor
    · rintro ⟨hlog, hall⟩
      exact ⟨⟨hlog, fun hu d hd => hall hu d (.inl hd)⟩, fun hu => hall hu _ (.inr rfl)⟩
    · rintro ⟨⟨hlog, hpending⟩, hc⟩
      refine ⟨hlog, fun hu d hd => ?_⟩
      rcases hd with hd | rfl
      · exact hpending hu d hd
      · exact hc hu

/-- The batch runs and none of it stops the loop. -/
lemma flush (hquiet : Quiet l) : Going done l.flush := by
  unfold Loop.flush
  split
  · exact h
  · have hknown : ∀ d ∈ l.pending, d.entry.unknown = false := fun d hd => by
      rw [← Item.stops_of_deferred (h.deferred d hd)]
      exact hquiet d hd
    refine ⟨?_, by simpa using h.flat, by simp, ?_, ?_⟩
    · simpa [h.running] using hknown
    · rw [← h.known]
      simp only [flatten_append, flatten_cons, flatten_nil, append_nil,
        mem_append, mem_map]
      constructor
      · rintro ⟨e, he | ⟨d, hd, rfl⟩, hu⟩
        · exact ⟨e, he, hu⟩
        · simp [hknown d hd] at hu
      · rintro ⟨e, he, hu⟩
        exact ⟨e, .inl he, hu⟩
    · rw [noRun_append, ← h.sound]
      simp

section

variable (hpending : l.pending = [])
include hpending

/-- With an empty batch, the rounds are the whole story. -/
lemma sound_of_nil : NoRunAfterUnknown l.log ↔ ToleratedQuietly done := by
  have hsound := h.sound
  rw [noRun_append, hpending] at hsound
  simpa using hsound

lemma flat_of_nil : l.log.flatten = done.map entry := by
  simpa [hpending] using h.flat

/-- An item ends in a round of its own. -/
lemma sound_put (c : Item ι) :
    NoRunAfterUnknown (l.put c).log ↔ ToleratedQuietly (done ++ [c]) := by
  rw [Loop.put, noRun_append, h.sound_of_nil hpending, toleratedQuietly_append, ← h.known]
  simp

lemma put (hc : c.stops = false) :
    Going (done ++ [c]) (l.put c) where
  running := by simp [Loop.put, h.running, hc]
  flat := by simp [Loop.put, hpending, h.flat_of_nil hpending]
  deferred := by simp [Loop.put, hpending]
  known := by
    simp only [Loop.put, flatten_append, flatten_cons, flatten_nil,
      append_nil, mem_append, mem_singleton, or_and_right, exists_or, h.known,
      exists_eq_left]
    simp [Item.tolerated, hc]
  sound := by
    rw [noRun_append, h.sound_put hpending]
    simp [Loop.put, hpending]

end

/-- An item that is deferred joins the batch, or one of its own. -/
lemma step_deferred (hflushed : c.asked = true → Going done l.flush) (hc : c.deferred = true) :
    Going (done ++ [c]) (l.step c) ∧ c ∈ (l.step c).pending ∧
      ∀ d ∈ (l.step c).pending, d ∈ l.pending ∨ d = c := by
  rw [Loop.step_deferred h.running hc]
  split
  · next hasked => simpa using (hflushed hasked).defer hc
  · simpa using h.defer hc

lemma step (hquiet : Quiet l) (hc : c.stops = false) :
    Going (done ++ [c]) (l.step c) ∧ Quiet (l.step c) := by
  have hflushed := h.flush hquiet
  cases hdeferred : c.deferred with
  | false =>
    rw [Loop.step_immediate h.running hflushed.running hdeferred]
    exact ⟨hflushed.put l.flush_pending hc, by simp [Quiet, Loop.put]⟩
  | true =>
    obtain ⟨hgoing, -, hpending⟩ := h.step_deferred (fun _ => hflushed) hdeferred
    refine ⟨hgoing, fun d hd => ?_⟩
    obtain hd | rfl := hpending d hd
    · exact hquiet d hd
    · exact hc

/-- Items that do not stop the loop are all taken up. -/
lemma foldl (hquiet : Quiet l) (hxs : ∀ c ∈ xs, c.stops = false) :
    Going (done ++ xs) (xs.foldl Loop.step l) ∧ Quiet (xs.foldl Loop.step l) := by
  induction xs generalizing done l with
  | nil => exact ⟨by simpa using h, hquiet⟩
  | cons c xs ih =>
    obtain ⟨hstep, hstepQuiet⟩ := h.step hquiet (hxs c mem_cons_self)
    simpa using ih hstep hstepQuiet fun d hd => hxs d (mem_cons_of_mem _ hd)

/-- Plainly deferred items join the batch whatever it holds. -/
lemma foldl_plain (hxs : ∀ c ∈ xs, c.plain = true) :
    Going (done ++ xs) (xs.foldl Loop.step l) ∧
      (xs.foldl Loop.step l).pending = l.pending ++ xs := by
  induction xs generalizing done l with
  | nil => exact ⟨by simpa using h, by simp⟩
  | cons c xs ih =>
    obtain ⟨hplain, hxs⟩ := forall_mem_cons.1 hxs
    obtain ⟨hdeferred, hasked⟩ := Item.plain_iff.1 hplain
    have hstep := Loop.step_deferred h.running hdeferred
    rw [hasked, if_neg Bool.false_ne_true] at hstep
    simpa [hstep] using ih (h.defer hdeferred) hxs

end

end Going

/-! ## After the loop stops -/

/-- The rounds of skipped items. -/
def skips (xs : List (Item ι)) : List (List (Entry ι)) := xs.map fun c => [⟨c.id, false, false⟩]

lemma foldl_skip {l : Loop ι} (h : l.stop = true) (xs : List (Item ι)) :
    xs.foldl Loop.step l = { l with log := l.log ++ skips xs } := by
  induction xs generalizing l with
  | nil => simp [skips]
  | cons c xs ih =>
    have hstep : l.step c = l.skip c := by simp [Loop.step, h]
    rw [foldl_cons, hstep, ih (by simpa [Loop.skip] using h)]
    simp [Loop.skip, skips]

lemma noRun_append_skips (xs : List (Item ι)) :
    NoRunAfterUnknown (log ++ skips xs) ↔ NoRunAfterUnknown log := by
  induction xs generalizing log with
  | nil => simp [skips]
  | cons c xs ih =>
    have hcons : log ++ skips (c :: xs) = (log ++ [[⟨c.id, false, false⟩]]) ++ skips xs := by
      simp [skips]
    rw [hcons, ih, noRun_append]
    simp

lemma map_id_skips (xs : List (Item ι)) :
    (skips xs).flatten.map (·.id) = xs.map (·.id) := by
  induction xs with
  | nil => rfl
  | cons c xs ih => simpa [skips] using ih

@[simp] lemma Item.entry_id (c : Item ι) : c.entry.id = c.id := by
  unfold entry
  split <;> rfl

lemma map_id_entry (xs : List (Item ι)) :
    (xs.map entry).map (·.id) = xs.map (·.id) := by
  simp

lemma live_of_clean (h : ∀ c ∈ xs, c.stops = false) : live xs = xs := by
  induction xs with
  | nil => rfl
  | cons c xs ih =>
    rw [live, if_neg (by simp [h c mem_cons_self]),
      ih fun d hd => h d (mem_cons_of_mem _ hd)]

lemma live_of_stop {c : Item ι} (h : ∀ d ∈ xs, d.stops = false) (hc : c.stops = true) :
    live (xs ++ c :: cs) =
      xs ++ c :: (if c.deferred then cs.takeWhile plain else []) := by
  induction xs with
  | nil => simp [live, hc]
  | cons d xs ih =>
    rw [cons_append, live, if_neg (by simp [h d mem_cons_self]),
      ih fun e he => h e (mem_cons_of_mem _ he), cons_append]

/-- Either nothing stops the loop, or something does first. -/
lemma clean_or_first_stop (items : List (Item ι)) :
    (∀ c ∈ items, c.stops = false) ∨ ∃ xs c cs, items = xs ++ c :: cs ∧
      (∀ d ∈ xs, d.stops = false) ∧ c.stops = true := by
  cases h : items.find? (·.stops) with
  | none => exact .inl (by simpa using h)
  | some c =>
    obtain ⟨hc, xs, cs, rfl, hxs⟩ := find?_eq_some_iff_append.1 h
    exact .inr ⟨xs, c, cs, rfl, by simpa using hxs, hc⟩

/-! ## Whole runs -/

/-- The loop answers in order and runs nothing after an unknown outcome. -/
def Sound (ids : List ι) (log : List (List (Entry ι))) : Prop :=
  InOrder ids log ∧ StopsAfterUnknown ids log

/-- When a loop is sound: what it tolerates is followed by no run, and nothing is asked for
right after a batch that stops the loop, unless it is the last item and does not run. -/
@[mk_iff] structure Orderly (items : List (Item ι)) : Prop where
  quiet : ToleratedQuietly (live items)
  notAsked : ∀ d post, items = live items ++ d :: post →
    (∃ c ∈ live items, c.stops = true ∧ c.deferred = true) → d.asked = true →
      d.entry.ran = false ∧ post = []

lemma sound_iff {ids : List ι} :
    Sound ids log ↔ InOrder ids log ∧ NoRunAfterUnknown log :=
  and_congr_right fun h => stopsAfterUnknown_iff h

namespace Going

variable {l : Loop ι}

/-- A flush leaves everything taken up in the rounds. -/
lemma flushed (h : Going done l) :
    l.flush.log.flatten = done.map entry ∧
      (NoRunAfterUnknown l.flush.log ↔ ToleratedQuietly done) := by
  unfold Loop.flush
  split
  · next hpending => exact ⟨h.flat_of_nil hpending, h.sound_of_nil hpending⟩
  · exact ⟨by simpa using h.flat, h.sound⟩

/-- The run ends here. -/
lemma sound_flush (h : Going done l) :
    Sound (done.map (·.id)) l.flush.log ↔ ToleratedQuietly done := by
  obtain ⟨hflat, hsound⟩ := h.flushed
  rw [sound_iff, hsound, InOrder, hflat, map_id_entry]
  simp

/-- The run goes on with one round that runs nothing, and skips. -/
lemma sound_flush_skips (h : Going done l) {d : Item ι} {e : Entry ι} (hid : e.id = d.id)
    (hran : e.ran = false) (post : List (Item ι)) :
    Sound ((done ++ d :: post).map (·.id)) (l.flush.log ++ [[e]] ++ skips post) ↔
      ToleratedQuietly done := by
  obtain ⟨hflat, hsound⟩ := h.flushed
  rw [sound_iff, noRun_append_skips, noRun_append, hsound, InOrder]
  simp only [flatten_append, map_append, map_id_skips, hflat, map_id_entry]
  simp [hid, hran]

end Going

/-- An item that ends at once stops the loop. -/
lemma run_sound_of_immediate {c : Item ι} (hxs : ∀ d ∈ xs, d.stops = false) (hc : c.stops = true)
    (hdeferred : c.deferred = false) :
    Sound ((xs ++ c :: cs).map (·.id)) (run (xs ++ c :: cs)).log ↔
      ToleratedQuietly (xs ++ [c]) := by
  obtain ⟨hgoing, hquiet⟩ := Going.start.foldl (by simp [Quiet, Loop.start]) hxs
  rw [nil_append] at hgoing
  set l := xs.foldl Loop.step Loop.start
  have hflushed := hgoing.flush hquiet
  have hstep := Loop.step_immediate hgoing.running hflushed.running hdeferred
  have hrun : (run (xs ++ c :: cs)).log = (l.flush.put c).log ++ skips cs := by
    rw [run, foldl_append, foldl_cons, hstep, foldl_skip (by simp [Loop.put, hc]),
      Loop.flush_of_nil (by simp [Loop.put])]
  rw [hrun, sound_iff, noRun_append_skips, hflushed.sound_put l.flush_pending, InOrder]
  simp only [Loop.put, flatten_append, map_append, map_id_skips,
    hflushed.flat_of_nil l.flush_pending, map_id_entry]
  simp

/-- The first item that stops the loop joins the batch, and more after it. -/
lemma going_of_deferred {ps : List (Item ι)} {c : Item ι} (hxs : ∀ d ∈ xs, d.stops = false)
    (hdeferred : c.deferred = true) (hps : ∀ d ∈ ps, d.plain = true) :
    Going (xs ++ c :: ps) ((xs ++ c :: ps).foldl Loop.step Loop.start) ∧
      c ∈ ((xs ++ c :: ps).foldl Loop.step Loop.start).pending := by
  obtain ⟨hgoing, hquiet⟩ := Going.start.foldl (by simp [Quiet, Loop.start]) hxs
  rw [nil_append] at hgoing
  rw [foldl_append, foldl_cons]
  set l := xs.foldl Loop.step Loop.start
  obtain ⟨hstep, hmem, -⟩ := hgoing.step_deferred (fun _ => hgoing.flush hquiet) hdeferred
  obtain ⟨hfinal, hpending⟩ := hstep.foldl_plain hps
  refine ⟨by simpa using hfinal, ?_⟩
  rw [hpending]
  exact mem_append_left _ hmem

/-- What the loop does with an item that meets a batch which stops it, and with the rest. -/
lemma run_log_of_stopped {post : List (Item ι)} {c d : Item ι} {l : Loop ι}
    (hl : l = done.foldl Loop.step Loop.start) (h : Going done l) (hmem : c ∈ l.pending)
    (hc : c.stops = true) (hplain : d.plain = false) :
    (d.asked = false ∧ ∃ e : Entry ι, e.id = d.id ∧ e.ran = false ∧
      (run (done ++ d :: post)).log = l.flush.log ++ [[e]] ++ skips post) ∨
    (d.asked = true ∧
      (run (done ++ d :: post)).log = l.flush.log ++ skips post ++ [[d.entry]]) := by
  have hstop : l.flush.stop = true := by
    unfold Loop.flush
    split
    · next hpending => simp [hpending] at hmem
    · have hunknown : c.entry.unknown = true := by
        rw [← Item.stops_of_deferred (h.deferred c hmem), hc]
      simpa using .inr ⟨c, hmem, hunknown⟩
  have hpending := l.flush_pending
  have hrun : run (done ++ d :: post) = (post.foldl Loop.step (l.step d)).flush := by
    rw [run, foldl_append, foldl_cons, hl]
  have hrest {next : Loop ι} (hstep : l.step d = next) (hnext : next.stop = true)
      (hbatch : next.pending = []) : (run (done ++ d :: post)).log = next.log ++ skips post := by
    rw [hrun, hstep, foldl_skip hnext, Loop.flush_of_nil (by exact hbatch)]
  have hskip (hstep : l.step d = l.flush.skip d) :
      (run (done ++ d :: post)).log = l.flush.log ++ [[⟨d.id, false, false⟩]] ++ skips post :=
    hrest hstep hstop hpending
  obtain ⟨id, action⟩ := d
  cases action with
  | answer recheck unknown stops =>
    left
    cases recheck with
    | true => exact ⟨rfl, _, rfl, rfl, hskip (by simp [Loop.step, Loop.perform, h.running, hstop])⟩
    | false =>
      refine ⟨rfl, _, rfl, rfl, @hrest (l.flush.put ⟨id, .answer false unknown stops⟩) ?_ ?_
        hpending⟩
      · simp [Loop.step, Loop.perform, h.running]
      · simp [Loop.put, hstop]
  | execute ran unknown =>
    left
    exact ⟨rfl, _, rfl, rfl, hskip (by simp [Loop.step, Loop.perform, h.running, hstop])⟩
  | defer asked ran unknown =>
    cases asked with
    | false => cases hplain
    | true =>
      -- it joins a batch of its own although the loop is stopped
      right
      have hstep : l.step ⟨id, .defer true ran unknown⟩ =
          { l.flush with pending := [⟨id, .defer true ran unknown⟩] } := by
        simp [Loop.step, Loop.perform, h.running]
      refine ⟨rfl, ?_⟩
      rw [hrun, hstep, foldl_skip (by simp [hstop])]
      simp [Loop.flush]

/-- Moving an item behind the rest shows in the ids. -/
lemma append_singleton_eq_cons {a : ι} {l : List ι} (h : a ∉ l) :
    l ++ [a] = a :: l ↔ l = [] := by
  constructor
  · intro heq
    cases l with
    | nil => rfl
    | cons b l =>
      obtain ⟨rfl, -⟩ := List.cons.inj heq
      exact absurd mem_cons_self h
  · rintro rfl
    rfl

/-- An item that is asked for joins a batch although the loop is stopped. -/
lemma sound_of_asked {post : List (Item ι)} {c d : Item ι} {l : Loop ι} (h : Going done l)
    (hmem : c ∈ l.pending) (hc : c.stops = true) (hnodup : ((done ++ d :: post).map (·.id)).Nodup) :
    Sound ((done ++ d :: post).map (·.id)) (l.flush.log ++ skips post ++ [[d.entry]]) ↔
      ToleratedQuietly done ∧ d.entry.ran = false ∧ post = [] := by
  obtain ⟨hflat, hsound⟩ := h.flushed
  have hunknown : ∃ e ∈ (l.flush.log ++ skips post).flatten, e.unknown = true := by
    refine ⟨c.entry, ?_, by rw [← Item.stops_of_deferred (h.deferred c hmem), hc]⟩
    rw [flatten_append, hflat, ← h.flat]
    exact mem_append_left _ (mem_append_right _ (mem_map_of_mem hmem))
  have hid : d.id ∉ post.map (·.id) := by
    rw [map_append, map_cons] at hnodup
    exact (nodup_cons.mp (nodup_append.mp hnodup).2.1).1
  have horder : InOrder ((done ++ d :: post).map (·.id))
      (l.flush.log ++ skips post ++ [[d.entry]]) ↔ post = [] := by
    unfold InOrder
    simp only [flatten_append, map_append, map_id_skips, hflat, map_id_entry,
      append_assoc, append_cancel_left_eq, map_cons]
    rw [← map_eq_nil_iff (f := fun c : Item ι => c.id), ← append_singleton_eq_cons hid]
    simp
  rw [sound_iff, horder, noRun_append, noRun_append_skips, hsound]
  simp only [hunknown, true_imp_iff, mem_singleton, forall_eq]
  tauto

lemma run_sound_of_deferred {c : Item ι} (hnodup : ((xs ++ c :: cs).map (·.id)).Nodup)
    (hxs : ∀ d ∈ xs, d.stops = false) (hc : c.stops = true) (hdeferred : c.deferred = true) :
    Sound ((xs ++ c :: cs).map (·.id)) (run (xs ++ c :: cs)).log ↔
      ToleratedQuietly (xs ++ c :: cs.takeWhile plain) ∧
      ∀ d post, cs.dropWhile plain = d :: post → d.asked = true →
        d.entry.ran = false ∧ post = [] := by
  have hjoin : ∀ d ∈ cs.takeWhile plain, d.plain = true := fun d hd =>
    mem_takeWhile_imp hd
  obtain ⟨hgoing, hmem⟩ := going_of_deferred hxs hdeferred hjoin
  have hitems : xs ++ c :: cs =
      (xs ++ c :: cs.takeWhile plain) ++ cs.dropWhile plain := by
    rw [append_assoc, cons_append, takeWhile_append_dropWhile]
  rw [hitems] at hnodup ⊢
  generalize xs ++ c :: cs.takeWhile plain = done at hgoing hmem hnodup ⊢
  cases hrest : cs.dropWhile plain with
  | nil =>
    rw [append_nil, run, hgoing.sound_flush]
    simp
  | cons d post =>
    rw [hrest] at hnodup
    have hplain : d.plain = false := by
      simpa [hrest] using List.head?_dropWhile_not plain cs
    rcases run_log_of_stopped rfl hgoing hmem hc hplain with
      ⟨hasked, e, hid, hran, hlog⟩ | ⟨hasked, hlog⟩
    · rw [hlog, hgoing.sound_flush_skips hid hran]
      simp [hasked]
    · rw [hlog, sound_of_asked hgoing hmem hc hnodup]
      simp [hasked]

/-- The loop is sound exactly on orderly items. -/
lemma run_sound_iff {items : List (Item ι)} (hnodup : (items.map (·.id)).Nodup) :
    Sound (items.map (·.id)) (run items).log ↔ Orderly items := by
  rw [orderly_iff]
  rcases clean_or_first_stop items with hclean | ⟨xs, c, cs, rfl, hxs, hc⟩
  · obtain ⟨hgoing, -⟩ := Going.start.foldl (by simp [Quiet, Loop.start]) hclean
    rw [live_of_clean hclean]
    exact hgoing.sound_flush.trans (by simp)
  · rw [live_of_stop hxs hc]
    cases hdeferred : c.deferred with
    | false =>
      rw [run_sound_of_immediate hxs hc hdeferred, if_neg (by simp), and_iff_left]
      rintro d post - ⟨c', hmem, hstops, hdeferred'⟩
      rcases mem_append.mp hmem with hmem | hmem
      · rw [hxs c' hmem] at hstops
        cases hstops
      · rw [mem_singleton.mp hmem, hdeferred] at hdeferred'
        cases hdeferred'
    | true =>
      rw [run_sound_of_deferred hnodup hxs hc hdeferred, if_pos rfl]
      refine and_congr_right fun _ => forall₂_congr fun d post => ?_
      have hsplit : xs ++ c :: cs = (xs ++ c :: cs.takeWhile plain) ++ d :: post ↔
          cs.dropWhile plain = d :: post := by
        rw [append_assoc, cons_append, append_cancel_left_eq, List.cons.injEq]
        nth_rewrite 1 [← takeWhile_append_dropWhile (p := plain) (l := cs)]
        rw [append_cancel_left_eq]
        simp
      have hexists : ∃ c' ∈ xs ++ c :: cs.takeWhile plain,
          c'.stops = true ∧ c'.deferred = true := ⟨c, by simp, hc, hdeferred⟩
      rw [hsplit]
      simp only [hexists, true_imp_iff]

/-! ## Actions put together -/

namespace Action

/-- The action of an item before which the loop has flushed. -/
def afterFlush : Action → Action
  | .defer _ ran unknown => .defer true ran unknown
  | action => action

/-- The action of an item that is skipped when a flush before it stops the loop. -/
def rechecked : Action → Action
  | .answer _ unknown stops => .answer true unknown stops
  | action => action

def defers : Action → Bool
  | .defer .. => true
  | _ => false

@[simp] lemma defers_afterFlush (a : Action) : a.afterFlush.defers = a.defers := by
  cases a <;> rfl

end Action

namespace Loop

/-- A flush and a check in front of an item that is not deferred. -/
lemma perform_rechecked (l : Loop ι) (id : ι) {a : Action} (ha : a.defers = false) :
    l.perform ⟨id, a.rechecked⟩ =
      if l.flush.stop then l.flush.skip ⟨id, a⟩ else l.flush.perform ⟨id, a⟩ := by
  cases a with
  | defer => cases ha
  | answer recheck unknown stops =>
    by_cases hstop : l.flush.stop = true
    · simp [perform, Action.rechecked, hstop, skip]
    · simp [perform, Action.rechecked, hstop, put, entry, Item.stops]
  | execute =>
    by_cases hstop : l.flush.stop = true
    · simp [perform, Action.rechecked, hstop]
    · simp [perform, Action.rechecked, hstop]

end Loop

end SolarisMesh.Lib.Batch
