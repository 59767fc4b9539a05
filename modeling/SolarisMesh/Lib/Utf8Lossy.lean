import SolarisMesh.Lib.Utf8

/-!
# UTF-8 with replacements

Text read from any bytes: each longest piece of a character that is not finished, and each byte that
starts none, becomes a replacement character.
-/

namespace SolarisMesh.Lib.Utf8

open List

def replacement : Char := Char.ofNat 0xFFFD

/-- Inside a character: the tail bytes owed, the value so far and the bounds of the next byte. -/
structure Pending where
  owed : ℕ
  value : ℕ
  least : ℕ
  greatest : ℕ

/-- A byte between characters, and what is read after it. -/
def enter (b : UInt8) (next : Option Pending → List Char) : List Char :=
  let n := b.toNat
  if n < 0x80 then Char.ofNat n :: next none
  else if n < 0xC2 then replacement :: next none
  else if n < 0xE0 then next (some ⟨1, n - 0xC0, 0x80, 0xBF⟩)
  else if n < 0xF0 then
    next (some ⟨2, n - 0xE0, if n = 0xE0 then 0xA0 else 0x80, if n = 0xED then 0x9F else 0xBF⟩)
  else if n < 0xF5 then
    next (some ⟨3, n - 0xF0, if n = 0xF0 then 0x90 else 0x80, if n = 0xF4 then 0x8F else 0xBF⟩)
  else replacement :: next none

def decodeLossyFrom : Option Pending → Bytes → List Char
  | none, [] => []
  | some _, [] => [replacement]
  | none, b :: rest => enter b (decodeLossyFrom · rest)
  | some pending, b :: rest =>
    if pending.least ≤ b.toNat ∧ b.toNat ≤ pending.greatest then
      let value := pending.value * 64 + (b.toNat - 0x80)
      if pending.owed = 1 then Char.ofNat value :: decodeLossyFrom none rest
      else decodeLossyFrom (some ⟨pending.owed - 1, value, 0x80, 0xBF⟩) rest
    else replacement :: enter b (decodeLossyFrom · rest)

/-- `String::from_utf8_lossy`. -/
def decodeLossy (bytes : Bytes) : List Char := decodeLossyFrom none bytes

lemma decodeLossyFrom_last {value least greatest n : ℕ} (hn : n < 64) (hleast : least ≤ n + 128)
    (hgreatest : n + 128 ≤ greatest) (rest : Bytes) :
    decodeLossyFrom (some ⟨1, value, least, greatest⟩) (UInt8.ofNat (n + 128) :: rest) =
      Char.ofNat (value * 64 + n) :: decodeLossy rest := by
  rw [decodeLossyFrom, toNat_byte (by omega), if_pos ⟨hleast, hgreatest⟩, Nat.add_sub_cancel]
  rfl

lemma decodeLossyFrom_tail {owed value least greatest n : ℕ} (hn : n < 64)
    (hleast : least ≤ n + 128) (hgreatest : n + 128 ≤ greatest) (rest : Bytes) :
    decodeLossyFrom (some ⟨owed + 2, value, least, greatest⟩) (UInt8.ofNat (n + 128) :: rest) =
      decodeLossyFrom (some ⟨owed + 1, value * 64 + n, 0x80, 0xBF⟩) rest := by
  rw [decodeLossyFrom, toNat_byte (by omega), if_pos ⟨hleast, hgreatest⟩, Nat.add_sub_cancel]
  exact if_neg (by simp)

lemma decodeLossy_encodeChar (c : Char) (rest : Bytes) :
    decodeLossy (String.utf8EncodeChar c ++ rest) = c :: decodeLossy rest := by
  have hvalid : c.val.toNat.isValidChar := c.valid
  have hofNat : Char.ofNat c.val.toNat = c := Char.ofNat_toNat c
  unfold String.utf8EncodeChar
  generalize c.val.toNat = v at hvalid hofNat
  have hlt : v < 0x110000 ∧ (v < 0xD800 ∨ 0xDFFF < v) := by
    rcases hvalid with h | h <;> omega
  dsimp only
  -- one case for each length; the bounds leave out overlong forms and surrogates
  split_ifs with h₁ h₂ h₃
  all_goals
    simp only [cons_append, nil_append]
    rw [decodeLossy, decodeLossyFrom, enter, toNat_byte (by omega)]
  · rw [if_pos (by omega), hofNat]
    rfl
  · have hv : v / 64 % 32 * 64 + v % 64 = v := by omega
    rw [if_neg (by omega), if_neg (by omega), if_pos (by omega), Nat.add_sub_cancel,
      decodeLossyFrom_last (by omega) (by omega) (by omega), hv, hofNat]
  · have hv : (v / 4096 % 16 * 64 + v / 64 % 64) * 64 + v % 64 = v := by omega
    rw [if_neg (by omega), if_neg (by omega), if_neg (by omega), if_pos (by omega),
      Nat.add_sub_cancel,
      decodeLossyFrom_tail (by omega) (by split_ifs <;> omega) (by split_ifs <;> omega),
      decodeLossyFrom_last (by omega) (by omega) (by omega), hv, hofNat]
  · have hv : ((v / 262144 % 8 * 64 + v / 4096 % 64) * 64 + v / 64 % 64) * 64 + v % 64 = v := by
      omega
    rw [if_neg (by omega), if_neg (by omega), if_neg (by omega), if_neg (by omega),
      if_pos (by omega), Nat.add_sub_cancel,
      decodeLossyFrom_tail (by omega) (by split_ifs <;> omega) (by split_ifs <;> omega),
      decodeLossyFrom_tail (by omega) (by omega) (by omega),
      decodeLossyFrom_last (by omega) (by omega) (by omega), hv, hofNat]

lemma decodeLossy_encode_append (text : List Char) (rest : Bytes) :
    decodeLossy (encode text ++ rest) = text ++ decodeLossy rest := by
  induction text with
  | nil => rfl
  | cons c text ih =>
    rw [encode, flatMap_cons, append_assoc, decodeLossy_encodeChar, cons_append]
    exact congrArg (c :: ·) ih

/-- Bytes that are text are read as it. -/
@[simp] lemma decodeLossy_encode (text : List Char) : decodeLossy (encode text) = text := by
  have h := decodeLossy_encode_append text []
  rwa [append_nil, show decodeLossy [] = [] from rfl, append_nil] at h

/-! ## Bytes that end inside a character -/

/-- A byte that starts no character. -/
def isTail (b : UInt8) : Bool := 0x80 ≤ b.toNat && b.toNat < 0xC0

def heads (bytes : Bytes) : ℕ := bytes.countP (!isTail ·)

lemma heads_append (left right : Bytes) : heads (left ++ right) = heads left + heads right :=
  countP_append

lemma encodeChar_head (c : Char) : ∃ lead tails, String.utf8EncodeChar c = lead :: tails ∧
    isTail lead = false ∧ ∀ b ∈ tails, isTail b = true := by
  have hlt := val_lt c
  unfold String.utf8EncodeChar
  generalize c.val.toNat = v at hlt
  have hlead : ∀ n, n < 0x80 ∨ 0xC0 ≤ n ∧ n < 256 → isTail (UInt8.ofNat n) = false := fun n hn => by
    rw [isTail, toNat_byte (by omega), Bool.and_eq_false_iff]
    simp only [decide_eq_false_iff_not]
    omega
  have htail : ∀ n, n < 64 → isTail (UInt8.ofNat (n + 128)) = true := fun n hn => by
    rw [isTail, toNat_byte (by omega), Bool.and_eq_true, decide_eq_true_eq, decide_eq_true_eq]
    omega
  dsimp only
  split_ifs with h₁ h₂ h₃
  · exact ⟨_, _, rfl, hlead _ (by omega), by simp⟩
  · exact ⟨_, _, rfl, hlead _ (by omega), forall_mem_singleton.2 (htail _ (by omega))⟩
  · exact ⟨_, _, rfl, hlead _ (by omega), forall_mem_cons.2 ⟨htail _ (by omega),
      forall_mem_singleton.2 (htail _ (by omega))⟩⟩
  · exact ⟨_, _, rfl, hlead _ (by omega), forall_mem_cons.2 ⟨htail _ (by omega),
      forall_mem_cons.2 ⟨htail _ (by omega),
        forall_mem_singleton.2 (htail _ (by omega))⟩⟩⟩

lemma heads_encode (text : List Char) : heads (encode text) = text.length := by
  induction text with
  | nil => rfl
  | cons c text ih =>
    obtain ⟨lead, tails, hchar, hlead, htails⟩ := encodeChar_head c
    have hnone : tails.countP (!isTail ·) = 0 :=
      countP_eq_zero.2 fun b hb => by simp [htails b hb]
    rw [encode, flatMap_cons, heads_append, hchar, heads, countP_cons, hnone, hlead]
    rw [encode] at ih
    rw [ih, length_cons]
    simp only [Bool.not_false, if_true]
    omega

/-- A text is cut between two characters, or what follows the cut starts no character. -/
lemma encode_split {text : List Char} {left right : Bytes} (h : encode text = left ++ right) :
    (∃ piece, left = encode piece) ∨ ∃ b rest, right = b :: rest ∧ isTail b = true := by
  induction text generalizing left with
  | nil =>
    obtain ⟨rfl, -⟩ := append_eq_nil_iff.1 h.symm
    exact .inl ⟨[], rfl⟩
  | cons c text ih =>
    have hsplit : String.utf8EncodeChar c ++ encode text = left ++ right := h
    rcases append_eq_append_iff.1 hsplit with ⟨rest, rfl, hrest⟩ | ⟨rest, hchar, hright⟩
    · rcases ih hrest with ⟨piece, rfl⟩ | htail
      · exact .inl ⟨c :: piece, rfl⟩
      · exact .inr htail
    · rcases left with _ | ⟨b, left⟩
      · exact .inl ⟨[], rfl⟩
      rcases rest with _ | ⟨b', rest⟩
      · refine .inl ⟨[c], ?_⟩
        rw [encode, flatMap_cons, flatMap_nil, hchar]
        simp only [append_nil]
      · obtain ⟨lead, tails, hlead, -, htails⟩ := encodeChar_head c
        rw [hlead, cons_append] at hchar
        refine .inr ⟨b', rest ++ encode text, by rw [hright]; rfl, htails b' ?_⟩
        rw [(List.cons.inj hchar).2]
        exact mem_append_right _ mem_cons_self

section Length

variable {b : UInt8} {rest : Bytes} {next : Option Pending → List Char}

lemma enter_tail (hb : isTail b = true) : enter b next = replacement :: next none := by
  simp only [isTail, Bool.and_eq_true, decide_eq_true_eq] at hb
  rw [enter, if_neg (by omega)]
  split_ifs
  any_goals rfl
  all_goals omega

lemma heads_le_enter (hnone : heads rest ≤ (next none).length)
    (hsome : ∀ pending : Pending, 0x80 ≤ pending.least → pending.greatest < 0xC0 →
      heads rest + 1 ≤ (next (some pending)).length) :
    heads (b :: rest) ≤ (enter b next).length := by
  have hle : heads (b :: rest) ≤ heads rest + 1 := by
    rw [heads, countP_cons]
    exact Nat.add_le_add_left (by split <;> decide) _
  refine hle.trans ?_
  unfold enter
  dsimp only
  split_ifs
  any_goals exact Nat.succ_le_succ hnone
  all_goals exact hsome _ (by dsimp only; omega) (by dsimp only; omega)

/-- Every byte that starts a character is seen in the text, and so is an unfinished character. -/
lemma heads_le_decodeLossyFrom (bytes : Bytes) :
    heads bytes ≤ (decodeLossyFrom none bytes).length ∧
      ∀ pending : Pending, 0x80 ≤ pending.least → pending.greatest < 0xC0 →
        heads bytes + 1 ≤ (decodeLossyFrom (some pending) bytes).length := by
  induction bytes with
  | nil => exact ⟨le_rfl, fun _ _ _ => le_rfl⟩
  | cons b rest ih =>
    have hentered : heads (b :: rest) ≤ (enter b (decodeLossyFrom · rest)).length :=
      heads_le_enter ih.1 ih.2
    refine ⟨hentered, fun pending hleast hgreatest => ?_⟩
    rw [decodeLossyFrom]
    by_cases hin : pending.least ≤ b.toNat ∧ b.toNat ≤ pending.greatest
    · have htail : heads (b :: rest) = heads rest := by
        refine countP_cons_of_neg ?_
        simp only [isTail, Bool.not_eq_true', Bool.and_eq_false_iff, decide_eq_false_iff_not]
        omega
      rw [if_pos hin, htail]
      dsimp only
      split_ifs
      · exact Nat.succ_le_succ ih.1
      · exact ih.2 _ le_rfl (by dsimp only; omega)
    · rw [if_neg hin]
      exact Nat.succ_le_succ hentered

lemma heads_le_chunks (chunks : List Bytes) :
    heads chunks.flatten ≤ (chunks.flatMap decodeLossy).length := by
  induction chunks with
  | nil => exact le_rfl
  | cons chunk chunks ih =>
    rw [flatten_cons, heads_append, flatMap_cons, length_append]
    exact Nat.add_le_add (heads_le_decodeLossyFrom chunk).1 ih

/-- The rest of a character whose beginning was read before is seen as well. -/
lemma heads_lt_chunks {chunks : List Bytes} (hb : isTail b = true)
    (h : chunks.flatten = b :: rest) :
    heads chunks.flatten < (chunks.flatMap decodeLossy).length := by
  induction chunks with
  | nil => cases h
  | cons chunk chunks ih =>
    rcases chunk with _ | ⟨b', chunk⟩
    · exact ih h
    · obtain ⟨rfl, -⟩ := List.cons.inj h
      have hfirst : decodeLossy (b' :: chunk) = replacement :: decodeLossy chunk := by
        rw [decodeLossy, decodeLossyFrom, enter_tail hb]
        rfl
      have hheads : heads (b' :: chunk) = heads chunk := countP_cons_of_neg (by simp [hb])
      rw [flatten_cons, heads_append, flatMap_cons, length_append, hfirst, hheads,
        length_cons]
      have hchunk := (heads_le_decodeLossyFrom chunk).1
      have hchunks := heads_le_chunks chunks
      rw [decodeLossy]
      omega

end Length

/-- A text that comes in chunks is read as it is exactly when no chunk ends inside a character. -/
lemma flatMap_decodeLossy_iff {chunks : List Bytes} {text : List Char}
    (h : chunks.flatten = encode text) :
    chunks.flatMap decodeLossy = text ↔ ∀ chunk ∈ chunks, ∃ piece, chunk = encode piece := by
  induction chunks generalizing text with
  | nil =>
    obtain rfl : [] = text := encode_injective h
    simp
  | cons chunk chunks ih =>
    rw [flatten_cons] at h
    by_cases hwhole : ∃ piece, chunk = encode piece
    · obtain ⟨piece, rfl⟩ := hwhole
      obtain ⟨text, rfl, htext⟩ := decode_initial h.symm (decode_encode piece)
      rw [flatMap_cons, decodeLossy_encode, append_cancel_left_eq, ih htext,
        forall_mem_cons]
      exact (and_iff_right ⟨piece, rfl⟩).symm
    -- both parts of the character that was cut are seen: the text read is too long
    · obtain ⟨b, rest, hrest, hb⟩ := (encode_split h.symm).resolve_left hwhole
      have hlength := congrArg heads h
      rw [heads_append, heads_encode] at hlength
      have hchunk := (heads_le_decodeLossyFrom chunk).1
      have hchunks := heads_lt_chunks hb hrest
      refine iff_of_false (fun htext => ?_) fun hall => hwhole (hall chunk mem_cons_self)
      have hread := congrArg List.length htext
      rw [flatMap_cons, length_append, decodeLossy] at hread
      omega

end SolarisMesh.Lib.Utf8
