import SolarisMesh.Ledger.Growing

/-!
# Every record line once

The lines of all accepted imports of a growing source together are the record lines of the final
source, each once and in order, exactly when no last line was imported and then went on with
anything but its newline.
-/

namespace SolarisMesh.Ledger

open List Lib Lines

variable {V : Type} [DecidableEq V] {decode : Bytes → Option (LedgerRecord V)}
  {sourceDigest : Bytes}

/-! ## Keys in the order they were added -/

variable (keys : List LineKey) (key : LineKey)

/-- A key that is known already is not added again. -/
def addKey : List LineKey :=
  if key ∈ keys then keys else keys ++ [key]

def addKeys (new : List LineKey) : List LineKey := new.foldl addKey keys

lemma addKeys_cons (new : List LineKey) :
    addKeys keys (key :: new) = addKeys (addKey keys key) new := rfl

lemma subset_addKey : keys ⊆ addKey keys key := by
  unfold addKey
  split_ifs
  · exact List.Subset.refl _
  · exact subset_append_left _ _

lemma mem_addKey : key ∈ addKey keys key := by
  unfold addKey
  split_ifs with h
  · exact h
  · exact mem_append_right _ (mem_singleton_self _)

variable {keys new : List LineKey}

lemma addKeys_subset : keys ⊆ addKeys keys new ∧ new ⊆ addKeys keys new := by
  induction new generalizing keys with
  | nil => exact ⟨List.Subset.refl _, nil_subset _⟩
  | cons key new ih =>
    obtain ⟨hold, hnew⟩ := @ih (addKey keys key)
    rw [addKeys_cons]
    exact ⟨List.Subset.trans (subset_addKey keys key) hold,
      cons_subset.2 ⟨hold (mem_addKey keys key), hnew⟩⟩

lemma addKeys_of_subset (h : new ⊆ keys) : addKeys keys new = keys := by
  induction new with
  | nil => rfl
  | cons key new ih =>
    obtain ⟨hkey, hnew⟩ := cons_subset.1 h
    rw [addKeys_cons, addKey, if_pos hkey, ih hnew]

lemma addKeys_of_nodup (h : (keys ++ new).Nodup) : addKeys keys new = keys ++ new := by
  induction new generalizing keys with
  | nil => rw [append_nil]; rfl
  | cons key new ih =>
    have hkey : key ∉ keys := fun hmem =>
      (nodup_append.1 h).2.2 key hmem key mem_cons_self rfl
    rw [addKeys_cons, addKey, if_neg hkey, ih (by simpa using h), append_assoc]
    rfl

/-- Of one list without repetition only an initial part is ever known. -/
lemma addKeys_initial {all : List LineKey} (hall : all.Nodup) (hkeys : keys <+: all)
    (hnew : new <+: all) : addKeys keys new <+: all ∧ (new = all → addKeys keys new = all) := by
  rcases prefix_or_prefix_of_prefix hnew hkeys with h | ⟨rest, rfl⟩
  · rw [addKeys_of_subset h.subset]
    refine ⟨hkeys, ?_⟩
    rintro rfl
    exact hkeys.eq_of_length_le h.length_le
  · have hadd : addKeys keys (keys ++ rest) = keys ++ rest := by
      rw [addKeys, foldl_append]
      show addKeys (addKeys keys keys) rest = _
      rw [addKeys_of_subset (List.Subset.refl _)]
      exact addKeys_of_nodup (hnew.sublist.nodup hall)
    rw [hadd]
    exact ⟨hnew, id⟩

/-! ## Stored lines -/

/-- The line is a record that is stored. -/
def isDurableKey (decode : Bytes → Option (LedgerRecord V)) (key : LineKey) : Bool :=
  (decode key.2).any (·.durability ≠ .ephemeral)

/-- The ledger holds exactly the records of these lines, which are known by their place. -/
structure ImportLedger.Imported (decode : Bytes → Option (LedgerRecord V)) (sourceDigest : Bytes)
    (state : ImportLedger V) (keys : List LineKey) : Prop where
  imports : state.imports.map (·.1) = keys.map fun key => .rawLineOffset sourceDigest key.1 key.2
  records : List.Forall₂ (fun stored key => ∃ record, decode key.2 = some record ∧
    record.durability ≠ .ephemeral ∧ stored = { record with seq := stored.seq })
    state.ledger.records keys

omit [DecidableEq V] in
lemma ImportLedger.imported_empty :
    (ImportLedger.empty V).Imported decode sourceDigest [] := ⟨rfl, .nil⟩

section Imported

variable {state last : ImportLedger V} {keys new : List LineKey} {key : LineKey}

omit [DecidableEq V] in
lemma ImportLedger.Imported.mem_iff (h : state.Imported decode sourceDigest keys) :
    .rawLineOffset sourceDigest key.1 key.2 ∈ state.imports.map (·.1) ↔ key ∈ keys := by
  rw [h.imports, mem_map]
  constructor
  · rintro ⟨⟨offset, line⟩, hmem, heq⟩
    obtain ⟨-, rfl, rfl⟩ := Fingerprint.rawLineOffset.inj heq
    exact hmem
  · exact fun hmem => ⟨key, hmem, rfl⟩

lemma ImportLedger.Imported.line {number : ℕ} {stored : Bool}
    (h : state.Imported decode sourceDigest keys)
    (hline : state.importCompleteJsonlLine decode sourceDigest key.1 number key.2 =
      .ok (last, stored)) :
    last.Imported decode sourceDigest
      (if isDurableKey decode key then addKey keys key else keys) := by
  obtain ⟨record, hrecord, ⟨hknown, rfl, -⟩ | ⟨hdurable, hnew, sequence, ⟨hlegacy, -, -⟩ |
    ⟨hsequence, rfl, -⟩⟩⟩ := ImportLedger.importCompleteJsonlLine_eq_ok hline
  · rcases hknown with hephemeral | hknown
    · rw [if_neg (by simp [isDurableKey, hrecord, hephemeral])]
      exact h
    · rw [addKey, if_pos (h.mem_iff.1 hknown), ite_self]
      exact h
  · -- there are no rows of older kinds
    rw [h.imports] at hlegacy
    simp at hlegacy
  · have hkey : key ∉ keys := fun hmem => hnew (h.mem_iff.2 hmem)
    rw [if_pos (by simp [isDurableKey, hrecord, hdurable]), addKey, if_neg hkey]
    refine ⟨?_, ?_⟩
    · show (state.imports ++ [_]).map _ = _
      rw [map_append, map_append, h.imports]
      rfl
    · exact rel_append h.records (.cons ⟨record, hrecord, hdurable, rfl⟩ .nil)

lemma Imports.imported {n : ℕ} (himports : Imports decode sourceDigest state new last n)
    (h : state.Imported decode sourceDigest keys) :
    last.Imported decode sourceDigest (addKeys keys (new.filter (isDurableKey decode))) := by
  induction himports generalizing keys with
  | nil state => exact h
  | @cons state middle last key new number n stored hline hrest ih =>
    have hmiddle := h.line hline
    by_cases hdurable : isDurableKey decode key = true
    · rw [if_pos hdurable] at hmiddle
      rw [filter_cons_of_pos hdurable, addKeys_cons]
      exact ih hmiddle
    · rw [if_neg hdurable] at hmiddle
      rw [filter_cons_of_neg hdurable]
      exact ih hmiddle

end Imported

/-! ## Places of lines -/

lemma located_append (offset : ℕ) (left right : List Bytes) :
    located offset (left ++ right) =
      located offset left ++ located (offset + (join newline left).length) right := by
  induction left generalizing offset with
  | nil => rfl
  | cons line left ih =>
    rw [cons_append, located, ih, located, join_cons, length_append,
      length_cons, cons_append]
    congr 2
    congr 1
    omega

lemma located_bounds {offset : ℕ} {lines : List Bytes} {key : LineKey}
    (h : key ∈ located offset lines) :
    offset ≤ key.1 ∧ key.1 < offset + (join newline lines).length := by
  induction lines generalizing offset with
  | nil => cases h
  | cons line lines ih =>
    rw [join_cons, length_append, length_cons]
    rcases mem_cons.1 h with rfl | h
    · dsimp only
      omega
    · have := ih h
      omega

lemma located_pairwise (offset : ℕ) (lines : List Bytes) :
    (located offset lines).Pairwise fun key key' => key.1 < key'.1 := by
  induction lines generalizing offset with
  | nil => exact .nil
  | cons line lines ih =>
    refine .cons (fun key hkey => ?_) (ih _)
    have := (located_bounds hkey).1
    dsimp only
    omega

variable {content : Bytes}

omit [DecidableEq V] in
lemma mem_tailKey {key : LineKey} (h : key ∈ tailKey decode content) :
    key = ((join newline (split newline content).1).length,
      (split newline content).2) ∧ isBlankLine key.2 = false ∧
      (decode key.2).isSome = true := by
  unfold tailKey at h
  split_ifs at h with hrecord
  · obtain rfl := mem_singleton.1 h
    exact ⟨rfl, hrecord.2⟩
  · cases h

omit [DecidableEq V] in
/-- No two lines start at one place. -/
lemma lineKeys_nodup (content : Bytes) : (lineKeys decode content).Nodup := by
  have hpairwise : (lineKeys decode content).Pairwise fun key key' => key.1 < key'.1 := by
    refine pairwise_append.2 ⟨(located_pairwise _ _).filter _, ?_, fun key hkey key' hkey' => ?_⟩
    · unfold tailKey
      split_ifs
      · exact pairwise_singleton _ _
      · exact .nil
    · have := (located_bounds (mem_filter.1 hkey).1).2
      rw [(mem_tailKey hkey').1]
      omega
  exact hpairwise.imp fun hlt heq => absurd hlt (by rw [heq]; exact lt_irrefl _)

/-- The source goes on after the last line with its newline, or not at all. -/
def GoesOn (content final : Bytes) : Prop :=
  final = content ∨ ∃ rest, final = content ++ newline :: rest

lemma completeKeys_append_tail (content : Bytes) {more : Bytes} (hmore : newline ∉ more) :
    completeKeys (content ++ more) = completeKeys content := by
  rw [completeKeys, split_append_tail content hmore]
  rfl

lemma completeKeys_append_line (content rest : Bytes) {line : Bytes} (hline : newline ∉ line) :
    completeKeys (content ++ (line ++ newline :: rest)) = completeKeys content ++
      (located (join newline (split newline content).1).length
        (((split newline content).2 ++ line) :: (split newline rest).1)).filter
        (!isBlankLine ·.2) := by
  rw [completeKeys, split_append_line content rest hline, located_append, filter_append,
    Nat.zero_add]
  rfl

omit [DecidableEq V] in
lemma tailKey_eq_of_mem {key : LineKey} (h : key ∈ tailKey decode content) :
    tailKey decode content = [((join newline (split newline content).1).length,
      (split newline content).2)] := by
  unfold tailKey at h ⊢
  split_ifs at h ⊢ with hrecord
  · rfl
  · cases h

lemma completeKeys_initial {final : Bytes} (hgrow : content <+: final) :
    completeKeys content <+: completeKeys final := by
  obtain ⟨more, rfl⟩ := hgrow
  rcases not_mem_or_eq_append newline more with hmore | ⟨line, rest, hline, rfl⟩
  · rw [completeKeys_append_tail content hmore]
  · rw [completeKeys_append_line content rest hline]
    exact prefix_append _ _

omit [DecidableEq V] in
/-- The durable lines of an earlier source are the first of the final one. -/
lemma durableKeys_initial {final : Bytes} (hgrow : content <+: final)
    (htail : ∀ key ∈ tailKey decode content, isDurableKey decode key = true →
      GoesOn content final) : (lineKeys decode content).filter (isDurableKey decode) <+:
      (lineKeys decode final).filter (isDurableKey decode) := by
  by_cases hdurable : ∃ key ∈ tailKey decode content, isDurableKey decode key = true
  · obtain ⟨key, hkey, hdurable⟩ := hdurable
    rcases htail key hkey hdurable with rfl | ⟨rest, rfl⟩
    · exact prefix_rfl
    · have hblank : isBlankLine (split newline content).2 = false := by
        obtain ⟨rfl, hblank, -⟩ := mem_tailKey hkey
        exact hblank
      have hcomplete := completeKeys_append_line content rest (not_mem_nil (a := newline))
      rw [nil_append, append_nil, located, filter_cons_of_pos (by simp [hblank])]
        at hcomplete
      refine List.IsPrefix.filter _ ?_
      rw [lineKeys, lineKeys, hcomplete, tailKey_eq_of_mem hkey, append_assoc]
      exact (prefix_append_right_inj _).2 ⟨_, rfl⟩
  · have hnone : (tailKey decode content).filter (isDurableKey decode) = [] :=
      filter_eq_nil_iff.2 fun key hkey htrue => hdurable ⟨key, hkey, htrue⟩
    rw [lineKeys, lineKeys, filter_append, hnone, append_nil]
    exact ((completeKeys_initial hgrow).trans (prefix_append _ _)).filter _

omit [DecidableEq V] in
/-- A last line that is still a line of the final source goes on with its newline. -/
lemma goesOn_of_mem {final : Bytes} (hgrow : content <+: final) {key : LineKey}
    (hkey : key ∈ tailKey decode content) (hfinal : key ∈ lineKeys decode final) :
    GoesOn content final := by
  obtain ⟨more, rfl⟩ := hgrow
  obtain ⟨rfl, -, -⟩ := mem_tailKey hkey
  -- an earlier complete line starts before it
  have hearlier : ((join newline (split newline content).1).length,
      (split newline content).2) ∉ completeKeys content := fun hmem => by
    have := (located_bounds (mem_filter.1 hmem).1).2
    dsimp only at this
    omega
  rcases not_mem_or_eq_append newline more with hmore | ⟨line, rest, hline, rfl⟩
  · rw [lineKeys, completeKeys_append_tail content hmore] at hfinal
    have htail := (mem_tailKey ((mem_append.1 hfinal).resolve_left hearlier)).1
    rw [split_append_tail content hmore, Prod.mk.injEq, self_eq_append_right] at htail
    exact .inl (by rw [htail.2, append_nil])
  · rw [lineKeys, completeKeys_append_line content rest hline, append_assoc] at hfinal
    rcases mem_append.1 ((mem_append.1 hfinal).resolve_left hearlier) with hfinal | hfinal
    · rcases mem_cons.1 (mem_filter.1 hfinal).1 with heq | hlater
      · rw [Prod.mk.injEq, self_eq_append_right] at heq
        exact .inr ⟨rest, by rw [heq.2, nil_append]⟩
      · have := (located_bounds hlater).1
        dsimp only at this
        omega
    · have hoffset := congrArg Prod.fst (mem_tailKey hfinal).1
      rw [split_append_line content rest hline, join_append, join_cons] at hoffset
      simp only [length_append, length_cons] at hoffset
      omega

/-! ## Histories of imports -/

/-- The records of all lines of a source. -/
def sourceRecords (decode : Bytes → Option (LedgerRecord V)) (content : Bytes) :
    List (LedgerRecord V) :=
  (lineKeys decode content).filterMap (decode ·.2)

def LedgerRecord.unsequenced (record : LedgerRecord V) : LedgerRecord V := { record with seq := 0 }

open LedgerRecord (unsequenced)

/-- The ledger holds every record line of the source once, in order, under its own sequences. -/
def StoredOnce (decode : Bytes → Option (LedgerRecord V)) (state : ImportLedger V)
    (content : Bytes) : Prop :=
  state.ledger.records.map unsequenced =
    (sourceRecords decode content).map unsequenced

omit [DecidableEq V] in
lemma unsequenced_of_forall₂ {records : List (LedgerRecord V)} {keys : List LineKey}
    (h : List.Forall₂ (fun stored key => ∃ record, decode key.2 = some record ∧
      record.durability ≠ .ephemeral ∧ stored = { record with seq := stored.seq }) records keys) :
    records.map unsequenced = (keys.filterMap (decode ·.2)).map unsequenced ∧
      ∀ stored ∈ records, stored.durability ≠ .ephemeral := by
  induction h with
  | nil => exact ⟨rfl, forall_mem_nil _⟩
  | cons hstored _ ih =>
    obtain ⟨record, hrecord, hdurable, heq⟩ := hstored
    rw [map_cons, ih.1, filterMap_cons, hrecord, heq]
    exact ⟨rfl, forall_mem_cons.2 ⟨hdurable, ih.2⟩⟩

/-- An accepted import takes in all durable lines of the content. -/
lemma imported_of_isOk {state : ImportLedger V} {call : ImportCall} {keys : List LineKey}
    (h : state.Imported decode sourceDigest keys)
    (haccepted : ((importMachine decode sourceDigest).answer state call).isOk = true) :
    ValidLines decode call.content ∧
      ((importMachine decode sourceDigest).next state call).Imported decode sourceDigest
        (addKeys keys ((lineKeys decode call.content).filter (isDurableKey decode))) := by
  obtain ⟨_, hread⟩ := ImportLedger.importJsonlReader_of_isOk haccepted
  obtain ⟨hvalid, last, himports, hlast⟩ := ImportLedger.importJsonlReader_ok hread
  rw [show (importMachine decode sourceDigest).next state call = _ from hlast]
  exact ⟨hvalid, (himports.imported h).imports, (himports.imported h).records⟩

lemma next_of_not_isOk {state : ImportLedger V} {call : ImportCall}
    (hrefused : ¬((importMachine decode sourceDigest).answer state call).isOk = true) :
    (importMachine decode sourceDigest).next state call = state := by
  simp only [Machine.next, Machine.answer, importMachine, ImportLedger.importJsonl] at hrefused ⊢
  split at hrefused
  · exact absurd rfl hrefused
  · rfl

section Histories

variable {calls : List ImportCall} {final : ImportCall}

/-- Every durable last line that was imported goes on with its newline. -/
def TailsGoOn (decode : Bytes → Option (LedgerRecord V)) (sourceDigest : Bytes)
    (calls : List ImportCall) (final : Bytes) : Prop :=
  ∀ x ∈ (importMachine decode sourceDigest).trace (.empty V) calls,
    x.answer.isOk = true → ∀ key ∈ tailKey decode x.event.content,
      isDurableKey decode key = true → GoesOn x.event.content final

/-- After imports whose last lines go on with their newline, the known lines are the first of the
final source. -/
lemma exists_initial_keys (hgrow : ∀ call ∈ calls, call.content <+: final.content)
    (htails : TailsGoOn decode sourceDigest calls final.content) :
    ∃ keys, ((importMachine decode sourceDigest).run (.empty V) calls).Imported decode
        sourceDigest keys ∧
      keys <+: (lineKeys decode final.content).filter (isDurableKey decode) := by
  refine Machine.run_of_trace
    (P := fun state => ∃ keys, ImportLedger.Imported decode sourceDigest state keys ∧
      keys <+: (lineKeys decode final.content).filter (isDurableKey decode))
    (C := fun state call => call.content <+: final.content ∧
      (((importMachine decode sourceDigest).answer state call).isOk = true →
        ∀ key ∈ tailKey decode call.content, isDurableKey decode key = true →
          GoesOn call.content final.content))
    ?_ ⟨[], ImportLedger.imported_empty, nil_prefix⟩ ?_
  · rintro state call ⟨keys, himported, hkeys⟩ ⟨hcontent, htail⟩
    by_cases haccepted : ((importMachine decode sourceDigest).answer state call).isOk = true
    · refine ⟨_, (imported_of_isOk himported haccepted).2, ?_⟩
      exact (addKeys_initial ((lineKeys_nodup _).filter _) hkeys
        (durableKeys_initial hcontent (htail haccepted))).1
    · rw [next_of_not_isOk haccepted]
      exact ⟨keys, himported, hkeys⟩
  · intro x hx
    have hstep := (importMachine decode sourceDigest).eq_stepAt_of_mem_trace hx
    refine ⟨hgrow _ (Machine.event_mem_of_mem_trace _ hx), fun haccepted => ?_⟩
    refine htails x hx ?_
    rw [hstep]
    exact haccepted

/-- The lines of all accepted imports are known. -/
lemma exists_known_keys (calls : List ImportCall) :
    ∃ keys, ((importMachine decode sourceDigest).run (.empty V) calls).Imported decode
        sourceDigest keys ∧
      ∀ x ∈ (importMachine decode sourceDigest).trace (.empty V) calls, x.answer.isOk = true →
        (lineKeys decode x.event.content).filter (isDurableKey decode) ⊆ keys := by
  refine Machine.history_invariant
    (P := fun state (steps : List (Machine.Step _ ImportCall (IoResult ℕ))) =>
      ∃ keys, ImportLedger.Imported decode sourceDigest state keys ∧ ∀ x ∈ steps, x.answer.isOk =
        true → (lineKeys decode x.event.content).filter (isDurableKey decode) ⊆ keys)
    ?_ ⟨[], ImportLedger.imported_empty, forall_mem_nil _⟩ calls
  rintro state steps call ⟨keys, himported, hknown⟩
  by_cases haccepted : ((importMachine decode sourceDigest).answer state call).isOk = true
  · refine ⟨_, (imported_of_isOk himported haccepted).2,
      forall_mem_append.2 ⟨fun x hx hok => ?_, forall_mem_singleton.2 fun _ => ?_⟩⟩
    · exact List.Subset.trans (hknown x hx hok) addKeys_subset.1
    · exact addKeys_subset.2
  · rw [next_of_not_isOk haccepted]
    exact ⟨keys, himported,
      forall_mem_append.2 ⟨hknown, forall_mem_singleton.2 fun hok => absurd hok haccepted⟩⟩

omit [DecidableEq V] in
/-- Every line of a valid source is a record. -/
lemma decode_of_mem_lineKeys (hvalid : ValidLines decode content) {key : LineKey}
    (hkey : key ∈ lineKeys decode content) : (decode key.2).isSome = true := by
  rcases mem_append.1 hkey with hkey | hkey
  · obtain ⟨hmem, hblank⟩ := mem_filter.1 hkey
    have hline := mem_map_of_mem (f := (·.2)) hmem
    rw [map_located] at hline
    exact (hvalid key.2 hline).2 (by simpa using hblank)
  · exact (mem_tailKey hkey).2.2

lemma storedOnce_iff (hgrow : ∀ call ∈ calls, call.content <+: final.content)
    (haccepted : ((importMachine decode sourceDigest).answer
      ((importMachine decode sourceDigest).run (.empty V) calls) final).isOk = true) :
    StoredOnce decode ((importMachine decode sourceDigest).run (.empty V) (calls ++ [final]))
        final.content ↔
      (∀ key ∈ lineKeys decode final.content, isDurableKey decode key = true) ∧
        TailsGoOn decode sourceDigest calls final.content := by
  rw [Machine.run_append, Machine.run_cons, Machine.run_nil]
  constructor
  · intro hstored
    obtain ⟨keys, himported, hknown⟩ :
        ∃ keys, ((importMachine decode sourceDigest).run (.empty V) calls).Imported decode
          sourceDigest keys ∧ _ := exists_known_keys calls
    obtain ⟨hvalid, himported'⟩ := imported_of_isOk himported haccepted
    have hdurable : ∀ key ∈ lineKeys decode final.content, isDurableKey decode key = true := by
      intro key hkey
      obtain ⟨record, hrecord⟩ := Option.isSome_iff_exists.1 (decode_of_mem_lineKeys hvalid hkey)
      have hmem : record.unsequenced ∈ (sourceRecords decode final.content).map
          unsequenced :=
        mem_map_of_mem (mem_filterMap.2 ⟨key, hkey, hrecord⟩)
      rw [← show _ = _ from hstored] at hmem
      obtain ⟨stored, hmem, heq⟩ := mem_map.1 hmem
      have hne : record.durability ≠ .ephemeral :=
        congrArg LedgerRecord.durability heq ▸
          (unsequenced_of_forall₂ himported'.records).2 stored hmem
      simp [isDurableKey, hrecord, hne]
    rw [filter_eq_self.2 hdurable] at himported'
    refine ⟨hdurable, fun x hx hok key hkey hkeyDurable => ?_⟩
    -- as many lines are known as the final source has, so there are no others
    have hlength : (addKeys keys (lineKeys decode final.content)).length ≤
        (lineKeys decode final.content).length := by
      have hrecords := congrArg List.length (show _ = _ from hstored)
      rw [length_map, length_map, himported'.records.length_eq] at hrecords
      rw [hrecords]
      exact length_filterMap_le _ _
    have hperm := ((lineKeys_nodup _).subperm addKeys_subset.2).perm_of_length_le hlength
    refine goesOn_of_mem ?_ hkey (hperm.mem_iff.2 (addKeys_subset.1 (hknown x hx hok ?_)))
    · exact hgrow _ (Machine.event_mem_of_mem_trace _ hx)
    · exact mem_filter.2 ⟨mem_append_right _ hkey, hkeyDurable⟩
  · rintro ⟨hdurable, htails⟩
    obtain ⟨keys, himported, hkeys⟩ := exists_initial_keys hgrow htails
    obtain ⟨-, himported'⟩ := imported_of_isOk himported haccepted
    rw [(addKeys_initial ((lineKeys_nodup _).filter _) hkeys prefix_rfl).2 rfl,
      filter_eq_self.2 hdurable] at himported'
    exact (unsequenced_of_forall₂ himported'.records).1

/-- The record lines of the final source are stored once exactly when none of them is ephemeral and
every last line that was imported goes on with its newline. The same source is imported again
without any effect, a source with an invalid complete line is refused, and buffers do not
matter. -/
theorem growing_source_once_iff (hgrow : ∀ call ∈ calls, call.content <+: final.content)
    (haccepted : ((importMachine decode sourceDigest).answer
      ((importMachine decode sourceDigest).run (.empty V) calls) final).isOk = true) :
    (StoredOnce decode ((importMachine decode sourceDigest).run (.empty V) (calls ++ [final]))
        final.content ↔
      (∀ key ∈ lineKeys decode final.content, isDurableKey decode key = true) ∧
      ∀ x ∈ (importMachine decode sourceDigest).trace (.empty V) calls,
        x.answer.isOk = true → ∀ key ∈ tailKey decode x.event.content,
          isDurableKey decode key = true → GoesOn x.event.content final.content) ∧
    (∀ again : ImportCall, again.content = final.content → again.unchanged = true →
      ((importMachine decode sourceDigest).run (.empty V) (calls ++ [final])).importJsonl decode
          sourceDigest again =
        ((importMachine decode sourceDigest).run (.empty V) (calls ++ [final]), .ok 0)) ∧
    (∀ (state : ImportLedger V) (call : ImportCall), ¬ValidLines decode call.content →
      ∃ error, state.importJsonl decode sourceDigest call = (state, .error error)) ∧
    ∀ (state : ImportLedger V) (call other : ImportCall), other.content = call.content →
      other.unchanged = call.unchanged →
        state.importJsonl decode sourceDigest other =
          state.importJsonl decode sourceDigest call := by
  refine ⟨storedOnce_iff hgrow haccepted, fun again hcontent hunchanged => ?_,
    fun state call hinvalid => ?_, fun state call other hcontent hunchanged => ?_⟩
  on_goal 2 =>
    unfold ImportLedger.importJsonl
    cases hread : state.importJsonlReader decode sourceDigest call false with
    | error error => exact ⟨error, rfl⟩
    | ok result => exact absurd (ImportLedger.importJsonlReader_ok hread).1 hinvalid
  on_goal 2 =>
    -- only what is read counts, not the buffers it is read in
    unfold ImportLedger.importJsonl ImportLedger.importJsonlReader
    rw [ImportScan.foldlM_readBuffer, ImportScan.foldlM_readBuffer, ← ImportCall.content,
      ← ImportCall.content, hcontent, hunchanged]
  rw [Machine.run_append]
  exact ImportLedger.importJsonl_again haccepted hcontent hunchanged

end Histories

/-! ## A last line that goes on -/

/-- A record as a line without its newline. -/
def sampleLine : Bytes :=
  LedgerRecord.encode ⟨ledgerSchemaVersion, 1, "r", 0, .syncCritical, "event", .null⟩

attribute [local instance] NumberReader.exact

/-- The newline is written after a carriage return. -/
theorem carriage_return_imports_again :
    ((importMachine LedgerRecord.decode []).trace (.empty Json)
        [⟨[sampleLine], true⟩, ⟨[sampleLine ++ [13, newline]], true⟩]).map (fun x =>
          (x.answer.toOption, x.after.ledger.records.map fun record =>
            (record.seq, record.runId, record.recordType))) =
      [(some 1, [(1, "r", "event")]), (some 1, [(1, "r", "event"), (2, "r", "event")])] ∧
    sourceRecords LedgerRecord.decode (sampleLine ++ [13, newline]) =
      [⟨ledgerSchemaVersion, 1, "r", 0, .syncCritical, "event", .null⟩] := by
  decide +kernel

/-- The line is imported before its newline is written. -/
theorem newline_imports_nothing :
    StoredOnce LedgerRecord.decode ((importMachine LedgerRecord.decode []).run (.empty Json)
      [⟨[sampleLine], true⟩, ⟨[sampleLine, [newline]], true⟩]) (sampleLine ++ [newline]) := by
  have hgrow : ∀ call ∈ [(⟨[sampleLine], true⟩ : ImportCall)],
      call.content <+: (⟨[sampleLine, [newline]], true⟩ : ImportCall).content :=
    forall_mem_singleton.2 ⟨[newline], by simp [ImportCall.content]⟩
  have hcontent : sampleLine ++ [newline] =
      (⟨[sampleLine, [newline]], true⟩ : ImportCall).content := by simp [ImportCall.content]
  rw [hcontent]
  refine (growing_source_once_iff hgrow (by decide +kernel)).1.2 ⟨by decide +kernel, ?_⟩
  intro x hx _ key _ _
  obtain rfl := mem_singleton.1 hx
  exact .inr ⟨[], by simp [ImportCall.content, Machine.stepAt]⟩

end SolarisMesh.Ledger
