import Mathlib.Data.List.Lemmas
import Mathlib.Data.Nat.Digits.Lemmas

/-!
# Text as bytes

Text on a wire is a list of bytes, UTF-8 where it is read as characters. The characters that
structure it are single bytes below 128, which no longer encoding contains, so lines, words and
fields are cut bytewise. White space is the one place where longer encodings matter: `trim`
removes all of Unicode's, `trimBlanks` only the two blanks of a wire format.
-/

namespace SolarisMesh.Lib

open List

abbrev Bytes := List UInt8

namespace Bytes

/-- The bytes of a text that is ASCII. -/
def ascii (s : String) : Bytes := s.toList.map fun c => UInt8.ofNat c.toNat

def isDigit (b : UInt8) : Bool := 48 ≤ b && b ≤ 57

def isUpper (b : UInt8) : Bool := 65 ≤ b && b ≤ 90

def isLower (b : UInt8) : Bool := 97 ≤ b && b ≤ 122

def isAlphanumeric (b : UInt8) : Bool := isDigit b || isUpper b || isLower b

def isControl (b : UInt8) : Bool := b < 32 || b == 127

def lower (b : UInt8) : UInt8 := if isUpper b then b + 32 else b

def toLower (bs : Bytes) : Bytes := bs.map lower

def eqIgnoreCase (left right : Bytes) : Bool := toLower left == toLower right

/-- A test that every byte passes which passes another, tried out on all of the 256 bytes. -/
lemma byte_implies {p q : UInt8 → Bool} {b : UInt8}
    (hall : (List.range 256).all (fun n => !p (UInt8.ofNat n) || q (UInt8.ofNat n)) = true)
    (h : p b = true) : q b = true := by
  have hb := all_eq_true.1 hall b.toNat (mem_range.2 b.toNat_lt)
  rwa [UInt8.ofNat_toNat, h] at hb

/-! ## UTF-8 -/

/-- The range of the second byte and the number of tail bytes after it, by the first byte. -/
def secondByte (b : UInt8) : Option (UInt8 × UInt8 × ℕ) :=
  if 0xC2 ≤ b && b ≤ 0xDF then some (0x80, 0xBF, 0)
  else if b == 0xE0 then some (0xA0, 0xBF, 1)
  else if b == 0xED then some (0x80, 0x9F, 1)
  else if 0xE1 ≤ b && b ≤ 0xEF then some (0x80, 0xBF, 1)
  else if b == 0xF0 then some (0x90, 0xBF, 2)
  else if 0xF1 ≤ b && b ≤ 0xF3 then some (0x80, 0xBF, 2)
  else if b == 0xF4 then some (0x80, 0x8F, 2)
  else none

/-- Read on inside a character: the range of the next byte, and the tail bytes owed after it. -/
def validFrom : Option (UInt8 × UInt8 × ℕ) → Bytes → Bool
  | none, [] => true
  | some _, [] => false
  | none, b :: rest =>
    if b < 0x80 then validFrom none rest
    else
      match secondByte b with
      | none => false
      | some owed => validFrom (some owed) rest
  | some (low, high, 0), b :: rest => low ≤ b && b ≤ high && validFrom none rest
  | some (low, high, tails + 1), b :: rest =>
    low ≤ b && b ≤ high && validFrom (some (0x80, 0xBF, tails)) rest

def validUtf8 (bs : Bytes) : Bool := validFrom none bs

/-! ## Searching and cutting -/

/-- Where `pattern` first occurs. -/
def position (pattern : Bytes) : Bytes → Option ℕ
  | [] => if pattern.isEmpty then some 0 else none
  | b :: rest =>
    if pattern.isPrefixOf (b :: rest) then some 0 else (position pattern rest).map (· + 1)

def containsText (pattern bs : Bytes) : Bool := (position pattern bs).isSome

def crlf : Bytes := [13, 10]

/-- Cut at each CRLF. -/
def splitLines : Bytes → List Bytes
  | [] => [[]]
  | [b] => [[b]]
  | a :: b :: rest =>
    if a = 13 ∧ b = 10 then [] :: splitLines rest
    else
      match splitLines (b :: rest) with
      | [] => [[a]]
      | line :: lines => (a :: line) :: lines

/-- The parts before and after the first `separator`. -/
def splitOnce (separator : UInt8) : Bytes → Option (Bytes × Bytes)
  | [] => none
  | b :: rest =>
    if b = separator then some ([], rest)
    else (splitOnce separator rest).map fun (left, right) => (b :: left, right)

/-- The parts before and after the last `separator`. -/
def rsplitOnce (separator : UInt8) (bs : Bytes) : Option (Bytes × Bytes) :=
  (splitOnce separator bs.reverse).map fun (right, left) => (left.reverse, right.reverse)

def stripSuffix (suffix bs : Bytes) : Option Bytes :=
  if suffix.isSuffixOf bs then some (bs.take (bs.length - suffix.length)) else none

/-! ## White space -/

/-- Drop leading characters out of `spaces`. -/
def dropSpaces (spaces : List Bytes) : ℕ → Bytes → Bytes
  | 0, bs => bs
  | fuel + 1, bs =>
    match spaces.findSome? (·.isPrefixOf? bs) with
    | some rest => dropSpaces spaces fuel rest
    | none => bs

def trimStartWith (spaces : List Bytes) (bs : Bytes) : Bytes :=
  dropSpaces spaces bs.length bs

def trimEndWith (spaces : List Bytes) (bs : Bytes) : Bytes :=
  (dropSpaces (spaces.map List.reverse) bs.length bs.reverse).reverse

def trimWith (spaces : List Bytes) (bs : Bytes) : Bytes :=
  trimEndWith spaces (trimStartWith spaces bs)

/-- The encodings of the characters with the property `White_Space`. -/
def unicodeSpaces : List Bytes :=
  [[9], [10], [11], [12], [13], [32], [0xC2, 0x85], [0xC2, 0xA0], [0xE1, 0x9A, 0x80],
    [0xE2, 0x80, 0x80], [0xE2, 0x80, 0x81], [0xE2, 0x80, 0x82], [0xE2, 0x80, 0x83],
    [0xE2, 0x80, 0x84], [0xE2, 0x80, 0x85], [0xE2, 0x80, 0x86], [0xE2, 0x80, 0x87],
    [0xE2, 0x80, 0x88], [0xE2, 0x80, 0x89], [0xE2, 0x80, 0x8A], [0xE2, 0x80, 0xA8],
    [0xE2, 0x80, 0xA9], [0xE2, 0x80, 0xAF], [0xE2, 0x81, 0x9F], [0xE3, 0x80, 0x80]]

def trim (bs : Bytes) : Bytes := trimWith unicodeSpaces bs

/-- Space and tab, the blanks around a field of a wire format. -/
def blanks : List Bytes := [[9], [32]]

def trimBlanks (bs : Bytes) : Bytes := trimWith blanks bs

/-! ## Numbers -/

def decimal (n : ℕ) : Bytes :=
  if n = 0 then [48] else (Nat.digits 10 n).reverse.map fun d => UInt8.ofNat (48 + d)

def decimalValue (digits : Bytes) : ℕ :=
  digits.foldl (fun value b => value * 10 + (b.toNat - 48)) 0

/-- Read an unsigned number of at most `max`, after an optional plus sign. -/
def parseUnsigned (max : ℕ) (bs : Bytes) : Option ℕ :=
  let digits := if bs.head? = some 43 then bs.tail else bs
  if digits ≠ [] ∧ digits.all isDigit ∧ decimalValue digits ≤ max then some (decimalValue digits)
  else none

/-! ## Cutting and joining -/

variable {b separator : UInt8} {bs line left right : Bytes}

lemma mem_part_of_mem (separator : UInt8) (h : b ∈ bs) :
    b = separator ∨ ∃ part ∈ bs.splitOn separator, b ∈ part := by
  have hjoin : [separator].intercalate (bs.splitOn separator) = bs := intercalate_splitOn separator
  rw [← hjoin] at h
  generalize bs.splitOn separator = parts at h ⊢
  induction parts with
  | nil => cases h
  | cons part parts ih =>
    cases parts with
    | nil => exact .inr ⟨part, mem_cons_self, by simpa using h⟩
    | cons next parts =>
      rw [intercalate_cons_cons, mem_append, mem_append, mem_singleton] at h
      obtain (hpart | heq) | hrest := h
      · exact .inr ⟨part, mem_cons_self, hpart⟩
      · exact .inl heq
      · exact (ih hrest).imp_right fun ⟨found, hfound, hb⟩ => ⟨found, mem_cons_of_mem _ hfound, hb⟩

lemma infix_of_containsText {pattern : Bytes} (h : containsText pattern bs = true) :
    pattern <:+: bs := by
  unfold containsText at h
  induction bs with
  | nil =>
    unfold position at h
    split at h
    · next hempty =>
      obtain rfl := isEmpty_iff.1 hempty
      exact infix_rfl
    · cases h
  | cons b rest ih =>
    unfold position at h
    split at h
    · next hprefix => exact (List.isPrefixOf_iff_prefix.1 hprefix).isInfix
    · exact infix_cons (ih (by simpa using h))

lemma splitOnce_append (h : separator ∉ left) :
    splitOnce separator (left ++ separator :: right) = some (left, right) := by
  induction left with
  | nil => exact if_pos rfl
  | cons b left ih =>
    rw [mem_cons, not_or] at h
    rw [cons_append, splitOnce, if_neg (Ne.symm h.1), ih h.2]
    rfl

lemma splitOnce_eq_none : splitOnce separator bs = none ↔ separator ∉ bs := by
  induction bs with
  | nil => simp [splitOnce]
  | cons b rest ih =>
    unfold splitOnce
    by_cases hb : b = separator
    · simp [hb]
    · simp [hb, ih, Ne.symm hb]

lemma splitOnce_eq_some :
    splitOnce separator bs = some (left, right) ↔
      bs = left ++ separator :: right ∧ separator ∉ left := by
  constructor
  · intro h
    by_cases hmem : separator ∈ bs
    · obtain ⟨before, after, rfl, hbefore⟩ := eq_append_cons_of_mem hmem
      rw [splitOnce_append hbefore] at h
      cases h
      exact ⟨rfl, hbefore⟩
    · rw [splitOnce_eq_none.2 hmem] at h
      cases h
  · rintro ⟨rfl, hleft⟩
    exact splitOnce_append hleft

lemma rsplitOnce_eq_some :
    rsplitOnce separator bs = some (left, right) ↔
      bs = left ++ separator :: right ∧ separator ∉ right := by
  simp only [rsplitOnce, Option.map_eq_some_iff, Prod.mk.injEq, Prod.exists, splitOnce_eq_some]
  constructor
  · rintro ⟨right', left', ⟨hbs, hnot⟩, rfl, rfl⟩
    exact ⟨by rw [← bs.reverse_reverse, hbs]; simp, by simpa using hnot⟩
  · rintro ⟨rfl, hnot⟩
    exact ⟨right.reverse, left.reverse, ⟨by simp, by simpa using hnot⟩, by simp, by simp⟩

lemma rsplitOnce_eq_none :
    rsplitOnce separator bs = none ↔ separator ∉ bs := by
  simp [rsplitOnce, splitOnce_eq_none]

/-! ## Lines -/

/-- A CRLF occurs in the text. -/
def hasBreak : Bytes → Bool
  | [] => false
  | [_] => false
  | a :: b :: rest => (a == 13 && b == 10) || hasBreak (b :: rest)

lemma hasBreak_of_not_mem (h : 13 ∉ line) : hasBreak line = false := by
  fun_induction hasBreak line with
  | case1 => rfl
  | case2 => rfl
  | case3 a b rest ih =>
    have ha : (a == 13) = false := by
      rw [beq_eq_false_iff_ne]
      rintro rfl
      exact h mem_cons_self
    rw [ha, ih fun hmem => h (mem_cons_of_mem _ hmem)]
    rfl

lemma hasBreak_append_blank (left right : Bytes) :
    hasBreak (left ++ 32 :: right) = (hasBreak left || hasBreak right) := by
  fun_induction hasBreak left with
  | case1 =>
    cases right with
    | nil => rfl
    | cons b right => simp [hasBreak]
  | case2 a =>
    cases right with
    | nil => simp [hasBreak]
    | cons b right => simp [hasBreak]
  | case3 a b rest ih =>
    rw [cons_append, cons_append, hasBreak, ← cons_append, ih, Bool.or_assoc]

lemma hasBreak_append_right (h : hasBreak (left ++ right) = false) :
    hasBreak right = false := by
  induction left with
  | nil => exact h
  | cons a left ih =>
    refine ih ?_
    rw [cons_append] at h
    cases hrest : left ++ right with
    | nil => rfl
    | cons b rest =>
      rw [hrest, hasBreak, Bool.or_eq_false_iff] at h
      exact h.2

/-- A line that has no CRLF in it and does not end in half of one is cut off whole. -/
lemma splitLines_append (hbreak : hasBreak line = false) (hlast : line.getLast? ≠ some 13)
    (rest : Bytes) :
    splitLines (line ++ (crlf ++ rest)) = line :: splitLines rest := by
  fun_induction hasBreak line with
  | case1 => simp [crlf, splitLines]
  | case2 a =>
    have ha : a ≠ 13 := fun heq => hlast (by simp [heq])
    simp [crlf, splitLines, ha]
  | case3 a b line ih =>
    obtain ⟨hfirst, hline⟩ := Bool.or_eq_false_iff.1 hbreak
    have hab : ¬ (a = 13 ∧ b = 10) := by simpa using hfirst
    rw [cons_append, cons_append, splitLines, if_neg hab, ← cons_append,
      ih hline (by simpa using hlast)]

lemma splitLines_flatMap {lines : List Bytes}
    (h : ∀ line ∈ lines, hasBreak line = false ∧ line.getLast? ≠ some 13) (rest : Bytes) :
    splitLines (lines.flatMap (· ++ crlf) ++ rest) = lines ++ splitLines rest := by
  induction lines with
  | nil => rfl
  | cons line lines ih =>
    obtain ⟨hbreak, hlast⟩ := h line mem_cons_self
    rw [flatMap_cons, append_assoc, append_assoc, splitLines_append hbreak hlast,
      ih fun other hother => h other (mem_cons_of_mem _ hother), cons_append]

lemma splitLines_ne_nil (bs : Bytes) : splitLines bs ≠ [] := by
  fun_cases splitLines bs <;> simp_all

/-- The first line, if it is not empty, starts with the first byte. -/
lemma head_of_splitLines {c : UInt8} {rest : Bytes} {lines : List Bytes}
    (h : splitLines (b :: rest) = (c :: line) :: lines) : c = b := by
  cases rest with
  | nil =>
    rw [splitLines] at h
    exact ((List.cons.inj (List.cons.inj h).1).1).symm
  | cons d rest =>
    rw [splitLines] at h
    split at h
    · cases (List.cons.inj h).1
    · split at h
      · exact ((List.cons.inj (List.cons.inj h).1).1).symm
      · exact ((List.cons.inj (List.cons.inj h).1).1).symm

/-- No line has a CRLF in it. -/
lemma hasBreak_of_mem_splitLines (h : line ∈ splitLines bs) :
    hasBreak line = false := by
  fun_induction splitLines bs generalizing line with
  | case1 =>
    rw [mem_singleton.1 h]
    rfl
  | case2 b =>
    rw [mem_singleton.1 h]
    rfl
  | case3 a b rest hab ih =>
    obtain rfl | h := mem_cons.1 h
    · rfl
    · exact ih h
  | case4 a b rest hab hnil => exact absurd hnil (splitLines_ne_nil _)
  | case5 a b rest hab first lines hlines ih =>
    rw [hlines] at ih
    obtain rfl | h := mem_cons.1 h
    · cases first with
      | nil => rfl
      | cons c first =>
        obtain rfl : c = b := head_of_splitLines hlines
        rw [hasBreak, ih mem_cons_self, Bool.or_false]
        simpa using hab
    · exact ih (mem_cons_of_mem _ h)

/-! ## Numbers that are written and read back -/

lemma isDigit_iff : isDigit b = true ↔ 48 ≤ b.toNat ∧ b.toNat ≤ 57 := by
  simp [isDigit, UInt8.le_iff_toNat_le]

lemma decimal_ne_nil (n : ℕ) : decimal n ≠ [] := by
  unfold decimal
  split
  · exact cons_ne_nil _ _
  · next hn => simpa using Nat.digits_ne_nil_iff_ne_zero.2 hn

lemma mem_decimal {n : ℕ} (h : b ∈ decimal n) : isDigit b = true := by
  unfold decimal at h
  split at h
  · rw [mem_singleton.1 h]
    decide
  · obtain ⟨d, hd, rfl⟩ := mem_map.1 h
    have hlt : d < 10 := Nat.digits_lt_base (by norm_num) (mem_reverse.1 hd)
    rw [isDigit_iff, UInt8.toNat_ofNat']
    omega

lemma length_decimal_le {n digits : ℕ} (hdigits : digits ≠ 0) (h : n < 10 ^ digits) :
    (decimal n).length ≤ digits := by
  unfold decimal
  split
  · exact Nat.one_le_iff_ne_zero.2 hdigits
  · rw [length_map, length_reverse]
    exact (Nat.digits_length_le_iff (by norm_num) n).2 h

lemma decimalValue_decimal (n : ℕ) : decimalValue (decimal n) = n := by
  unfold decimalValue decimal
  split
  · next hn =>
    subst hn
    decide
  · rw [foldl_map, foldl_reverse]
    nth_rewrite 2 [← Nat.ofDigits_digits 10 n]
    rw [Nat.ofDigits_eq_foldr]
    refine foldr_ext _ _ _ fun d hd value => ?_
    have hlt : d < 10 := Nat.digits_lt_base (by norm_num) hd
    rw [UInt8.toNat_ofNat']
    push_cast
    omega

variable {max value : ℕ}

lemma parseUnsigned_decimal {n : ℕ} (h : n ≤ max) : parseUnsigned max (decimal n) = some n := by
  have hplus : (decimal n).head? ≠ some 43 := by
    intro hhead
    have hdigit := mem_decimal (mem_of_head? hhead)
    exact absurd hdigit (by decide)
  have hall : (decimal n).all isDigit = true := all_eq_true.2 fun b hb => mem_decimal hb
  unfold parseUnsigned
  rw [if_neg hplus]
  dsimp only
  rw [decimalValue_decimal]
  exact if_pos ⟨decimal_ne_nil n, hall, h⟩

/-- What a number without a sign, or with one, is read as. -/
lemma parseUnsigned_eq_some (h : parseUnsigned max bs = some value) :
    ∃ digits, (bs = digits ∨ bs = 43 :: digits) ∧ digits ≠ [] ∧ digits.all isDigit = true ∧
      value = decimalValue digits ∧ value ≤ max := by
  have hbs : bs = (if bs.head? = some 43 then bs.tail else bs) ∨
      bs = 43 :: (if bs.head? = some 43 then bs.tail else bs) := by
    split
    · next hhead =>
      obtain ⟨tail, rfl⟩ := List.head?_eq_some_iff.1 hhead
      exact .inr rfl
    · exact .inl rfl
  unfold parseUnsigned at h
  generalize (if bs.head? = some 43 then bs.tail else bs) = digits at h hbs
  obtain ⟨⟨hne, hall, hle⟩, hvalue⟩ := Option.ite_none_right_eq_some.1 h
  cases hvalue
  exact ⟨digits, hbs, hne, hall, rfl, hle⟩

lemma parseUnsigned_of_digits (hdigits : bs.all isDigit = true)
    (h : parseUnsigned max bs = some value) : value = decimalValue bs := by
  obtain ⟨digits, rfl | rfl, -, -, hvalue, -⟩ := parseUnsigned_eq_some h
  · exact hvalue
  · cases hdigits

lemma parseUnsigned_le (h : parseUnsigned max bs = some value) :
    value ≤ max := by
  obtain ⟨_, -, -, -, -, hle⟩ := parseUnsigned_eq_some h
  exact hle

/-! ## Text without white space at its ends -/

/-- A visible ASCII character: no encoding of a space contains its byte. -/
def isGraphic (b : UInt8) : Bool := 33 ≤ b && b ≤ 126

/-- The text is not empty and begins and ends with a visible character. -/
def Tight (bs : Bytes) : Prop :=
  ∃ first last, bs.head? = some first ∧ bs.getLast? = some last ∧
    isGraphic first = true ∧ isGraphic last = true

lemma tight_of_all (hne : bs ≠ []) (h : ∀ b ∈ bs, isGraphic b = true) : Tight bs :=
  ⟨bs.head hne, bs.getLast hne, List.head?_eq_some_head hne, List.getLast?_eq_some_getLast hne,
    h _ (head_mem hne), h _ (getLast_mem hne)⟩

/-- The spaces hold nothing visible, and a blank is not the start of a longer one. -/
structure Spaces (spaces : List Bytes) : Prop where
  graphic : ∀ space ∈ spaces, ∀ b ∈ space, isGraphic b = false
  nonempty : ∀ space ∈ spaces, space ≠ []
  tab : ∀ rest, spaces.findSome? (·.isPrefixOf? (9 :: rest)) = some rest
  space : ∀ rest, spaces.findSome? (·.isPrefixOf? (32 :: rest)) = some rest

lemma spaces_unicode : Spaces unicodeSpaces :=
  ⟨by decide +kernel, by decide +kernel, fun _ => rfl, fun _ => rfl⟩

lemma spaces_unicode_reverse : Spaces (unicodeSpaces.map List.reverse) :=
  ⟨by decide +kernel, by decide +kernel, fun _ => rfl, fun _ => rfl⟩

section Trim

variable {spaces : List Bytes}

/-- Leading blanks go, and dropping stops at the first visible character. -/
lemma dropSpaces_blank_append (h : Spaces spaces) (hb : isGraphic b = true) (rest : Bytes)
    {blank : Bytes} (hblank : ∀ c ∈ blank, c = 9 ∨ c = 32) {fuel : ℕ}
      (hfuel : blank.length ≤ fuel) :
    dropSpaces spaces fuel (blank ++ b :: rest) = b :: rest := by
  induction blank generalizing fuel with
  | nil =>
    cases fuel with
    | zero => rfl
    | succ fuel =>
      have hnone : spaces.findSome? (·.isPrefixOf? (b :: rest)) = none := by
        rw [List.findSome?_eq_none_iff]
        intro space hspace
        cases space with
        | nil => exact absurd rfl (h.nonempty _ hspace)
        | cons first space =>
          have hfirst : first ≠ b := by
            rintro rfl
            have hnot := h.graphic _ hspace first mem_cons_self
            rw [hb] at hnot
            cases hnot
          simp [List.isPrefixOf?, hfirst]
      rw [nil_append, dropSpaces, hnone]
  | cons c blank ih =>
    cases fuel with
    | zero => cases hfuel
    | succ fuel =>
      have hrest := ih (fun d hd => hblank d (mem_cons_of_mem _ hd)) (Nat.le_of_succ_le_succ hfuel)
      rw [cons_append, dropSpaces]
      obtain rfl | rfl := hblank c mem_cons_self
      · rw [h.tab]
        exact hrest
      · rw [h.space]
        exact hrest

/-- What dropping blanks takes away. -/
lemma exists_dropSpaces_blanks (fuel : ℕ) (bs : Bytes) :
    ∃ blank, bs = blank ++ dropSpaces blanks fuel bs ∧ ∀ c ∈ blank, c = 9 ∨ c = 32 := by
  induction fuel generalizing bs with
  | zero => exact ⟨[], rfl, forall_mem_nil _⟩
  | succ fuel ih =>
    unfold dropSpaces
    split
    · next rest hfound =>
      obtain ⟨space, hspace, hprefix⟩ := exists_of_findSome?_eq_some hfound
      rw [List.isPrefixOf?_eq_some_iff_append_eq] at hprefix
      obtain ⟨blank, hblank, hall⟩ := ih rest
      refine ⟨space ++ blank, by rw [append_assoc, ← hblank, hprefix], fun c hc => ?_⟩
      obtain hc | hc := mem_append.1 hc
      · simp only [blanks, mem_cons, not_mem_nil, or_false] at hspace
        obtain rfl | rfl := hspace
        · exact .inl (mem_singleton.1 hc)
        · exact .inr (mem_singleton.1 hc)
      · exact hall c hc
    · exact ⟨[], rfl, forall_mem_nil _⟩

lemma trimWith_of_blanks (h : Spaces spaces) (hreverse : Spaces (spaces.map List.reverse))
    {core before after : Bytes} (hcore : Tight core) (hbefore : ∀ c ∈ before, c = 9 ∨ c = 32)
    (hafter : ∀ c ∈ after, c = 9 ∨ c = 32) : trimWith spaces (before ++ core ++ after) = core := by
  obtain ⟨first, last, hfirst, hlast, hgfirst, hglast⟩ := hcore
  obtain ⟨tail, rfl⟩ : ∃ tail, core = first :: tail := List.head?_eq_some_iff.1 hfirst
  have hstart : trimStartWith spaces (before ++ (first :: tail) ++ after) =
      first :: tail ++ after := by
    unfold trimStartWith
    rw [append_assoc]
    exact dropSpaces_blank_append h hgfirst _ hbefore (by simp)
  obtain ⟨init, hinit⟩ : ∃ init, first :: tail = init ++ [last] := List.getLast?_eq_some_iff.1 hlast
  have hend : (first :: tail ++ after).reverse = after.reverse ++ last :: init.reverse := by
    rw [hinit]
    simp
  unfold trimWith
  rw [hstart]
  unfold trimEndWith
  rw [hend, dropSpaces_blank_append hreverse hglast _ (by simpa using hafter) (by simp; omega),
    hinit]
  simp

lemma exists_trimBlanks (bs : Bytes) : ∃ before after, bs = before ++ trimBlanks bs ++ after ∧
    (∀ c ∈ before, c = 9 ∨ c = 32) ∧ ∀ c ∈ after, c = 9 ∨ c = 32 := by
  obtain ⟨before, hbefore, hallbefore⟩ := exists_dropSpaces_blanks bs.length bs
  obtain ⟨after, hafter, hallafter⟩ := exists_dropSpaces_blanks
    (trimStartWith blanks bs).length (trimStartWith blanks bs).reverse
  refine ⟨before, after.reverse, ?_, hallbefore, by simpa using hallafter⟩
  have hend : trimStartWith blanks bs = trimBlanks bs ++ after.reverse := by
    have h := congrArg List.reverse hafter
    rwa [reverse_reverse, reverse_append] at h
  rw [append_assoc, ← hend]
  exact hbefore

/-- Between blanks, a text with visible ends is what either way of trimming leaves. -/
lemma trim_eq_trimBlanks (h : Tight (trimBlanks bs)) : trim bs = trimBlanks bs := by
  obtain ⟨before, after, hbs, hbefore, hafter⟩ := exists_trimBlanks bs
  conv_lhs => rw [hbs]
  exact trimWith_of_blanks spaces_unicode spaces_unicode_reverse h hbefore hafter

lemma trim_eq_self (h : Tight bs) : trim bs = bs := by
  have hself : trimWith unicodeSpaces ([] ++ bs ++ []) = bs :=
    trimWith_of_blanks spaces_unicode spaces_unicode_reverse h
      (forall_mem_nil _) (forall_mem_nil _)
  rwa [nil_append, append_nil] at hself

end Trim

end Bytes

end SolarisMesh.Lib
