import SolarisMesh.Lib.JsonText
import Mathlib.Data.Nat.Digits.Lemmas
import Mathlib.Data.List.TakeWhile

/-!
# Reading JSON

A reader takes a value off the front of a text, at most so many arrays and objects deep. Numbers
stay literals and a repeated key keeps its place and takes the later value. What is written by
`Json.text` is read back exactly when it does not nest too deep.
-/

namespace SolarisMesh.Lib.Json

open List

abbrev Reader (α : Type) := List Char → Option (α × List Char)

def isBlank (c : Char) : Bool := c == ' ' || c == '\n' || c == '\t' || c == '\r'

def skipBlanks (text : List Char) : List Char := text.dropWhile isBlank

/-! ## Strings -/

def hexValue (c : Char) : Option ℕ :=
  if 48 ≤ c.toNat ∧ c.toNat ≤ 57 then some (c.toNat - 48)
  else if 97 ≤ c.toNat ∧ c.toNat ≤ 102 then some (c.toNat - 87)
  else if 65 ≤ c.toNat ∧ c.toNat ≤ 70 then some (c.toNat - 55)
  else none

def readHex : Reader ℕ
  | a :: b :: c :: d :: rest => do
    let a ← hexValue a
    let b ← hexValue b
    let c ← hexValue c
    let d ← hexValue d
    return (((a * 16 + b) * 16 + c) * 16 + d, rest)
  | _ => none

/-- A character after `\u`; a high surrogate needs its low one. -/
def readUnicode (text : List Char) : Option (Char × List Char) := do
  let (high, rest) ← readHex text
  if 0xD800 ≤ high ∧ high < 0xDC00 then
    match rest with
    | '\\' :: 'u' :: rest =>
      let (low, rest) ← readHex rest
      if 0xDC00 ≤ low ∧ low < 0xE000 then
        return (Char.ofNat (0x10000 + (high - 0xD800) * 0x400 + (low - 0xDC00)), rest)
      else none
    | _ => none
  else if 0xDC00 ≤ high ∧ high < 0xE000 then none
  else return (Char.ofNat high, rest)

/-- A character after a backslash. -/
def readEscape : Reader Char
  | '"' :: rest => some ('"', rest)
  | '\\' :: rest => some ('\\', rest)
  | '/' :: rest => some ('/', rest)
  | 'b' :: rest => some (Char.ofNat 8, rest)
  | 't' :: rest => some (Char.ofNat 9, rest)
  | 'n' :: rest => some (Char.ofNat 10, rest)
  | 'f' :: rest => some (Char.ofNat 12, rest)
  | 'r' :: rest => some (Char.ofNat 13, rest)
  | 'u' :: rest => readUnicode rest
  | _ => none

/-- The characters up to the closing quote, with fuel for as many. -/
def readChars : ℕ → Reader (List Char)
  | 0, _ => none
  | _ + 1, [] => none
  | fuel + 1, c :: rest =>
    if c = '"' then some ([], rest)
    else if c = '\\' then do
      let (c, rest) ← readEscape rest
      let (cs, rest) ← readChars fuel rest
      return (c :: cs, rest)
    else if c.toNat < 32 then none
    else do
      let (cs, rest) ← readChars fuel rest
      return (c :: cs, rest)

/-- A string after its opening quote. -/
def readString (text : List Char) : Option (String × List Char) :=
  (readChars text.length text).map fun (cs, rest) => (String.ofList cs, rest)

/-! ## Numbers and words -/

def isDigit (c : Char) : Bool := 48 ≤ c.toNat && c.toNat ≤ 57

def isNumeric (c : Char) : Bool :=
  isDigit c || c == '-' || c == '+' || c == '.' || c == 'e' || c == 'E'

/-- At least one digit and nothing else. -/
def isDigits (text : List Char) : Bool := text != [] && text.all isDigit

def isExponent : List Char → Bool
  | [] => true
  | c :: rest =>
    (c == 'e' || c == 'E') &&
      match rest with
      | [] => false
      | sign :: digits =>
        if sign = '+' ∨ sign = '-' then isDigits digits else isDigits (sign :: digits)

def isFraction : List Char → Bool
  | [] => true
  | c :: rest =>
    if c = '.' then
      rest.takeWhile isDigit != [] && isExponent (rest.dropWhile isDigit)
    else isExponent (c :: rest)

/-- A number without its sign. -/
def isUnsigned : List Char → Bool
  | [] => false
  | c :: rest =>
    if c = '0' then isFraction rest
    else isDigit c && isFraction (rest.dropWhile isDigit)

def isNumber (text : List Char) : Bool :=
  match text with
  | [] => false
  | c :: rest => text.all isNumeric && if c = '-' then isUnsigned rest else isUnsigned text

def readNumber (text : List Char) : Option (Json × List Char) :=
  let literal := text.takeWhile isNumeric
  if isNumber literal then some (.number (String.ofList literal), text.dropWhile isNumeric)
  else none

def readWord : Reader Json
  | 'n' :: 'u' :: 'l' :: 'l' :: rest => some (.null, rest)
  | 't' :: 'r' :: 'u' :: 'e' :: rest => some (.bool true, rest)
  | 'f' :: 'a' :: 'l' :: 's' :: 'e' :: rest => some (.bool false, rest)
  | _ => none

def readScalar (text : List Char) : Option (Json × List Char) :=
  match text with
  | [] => none
  | c :: rest =>
    if c = '"' then (readString rest).map fun (value, rest) => (.string value, rest)
    else if isNumeric c then readNumber text
    else readWord text

/-! ## Arrays and objects -/

/-- What follows an element, up to the closing bracket. -/
def readMore {α : Type} (item : Reader α) (close : Char) : ℕ → Reader (List α)
  | 0, _ => none
  | fuel + 1, text =>
    match skipBlanks text with
    | [] => none
    | c :: rest =>
      if c = close then some ([], rest)
      else if c = ',' then do
        let (first, rest) ← item rest
        let (others, rest) ← readMore item close fuel rest
        return (first :: others, rest)
      else none

/-- The elements after an opening bracket. -/
def readElements {α : Type} (item : Reader α) (close : Char) (text : List Char) :
    Option (List α × List Char) :=
  match skipBlanks text with
  | [] => none
  | c :: rest =>
    if c = close then some ([], rest)
    else do
      let (first, rest) ← item (c :: rest)
      let (others, rest) ← readMore item close rest.length rest
      return (first :: others, rest)

/-- A key with its value. -/
def readMember (value : Reader Json) (text : List Char) : Option ((String × Json) × List Char) :=
  match skipBlanks text with
  | '"' :: rest => do
    let (key, rest) ← readString rest
    match skipBlanks rest with
    | ':' :: rest =>
      let (value, rest) ← value rest
      return ((key, value), rest)
    | _ => none
  | _ => none

/-- A later value takes the place of an earlier one with its key. -/
def putMember (members : List (String × Json)) (member : String × Json) : List (String × Json) :=
  if member.1 ∈ members.map Prod.fst then
    members.map fun old => if old.1 = member.1 then member else old
  else members ++ [member]

def collect (members : List (String × Json)) : List (String × Json) := members.foldl putMember []

/-- A value with at most so many arrays and objects around its innermost value. -/
def readValue : ℕ → Reader Json
  | 0, text => readScalar (skipBlanks text)
  | nesting + 1, text =>
    match skipBlanks text with
    | [] => none
    | c :: rest =>
      if c = '[' then
        (readElements (readValue nesting) ']' rest).map fun (items, rest) => (.array items, rest)
      else if c = '\x7b' then
        (readElements (readMember (readValue nesting)) '\x7d' rest).map fun (members, rest) =>
          (.object (collect members), rest)
      else readScalar (c :: rest)

/-- A whole text. -/
def read (nesting : ℕ) (text : List Char) : Option Json :=
  (readValue nesting text).bind fun (value, rest) =>
    if skipBlanks rest = [] then some value else none

/-! ## Values that are written and read back -/

mutual

/-- Numbers are number literals and the keys of an object are distinct. -/
def wf : Json → Bool
  | .null | .bool _ | .string _ => true
  | .number literal => isNumber literal.toList
  | .array items => wfItems items
  | .object members => wfMembers members && (members.map Prod.fst).Nodup
termination_by structural value => value

def wfItems : List Json → Bool
  | [] => true
  | item :: items => wf item && wfItems items

def wfMembers : List (String × Json) → Bool
  | [] => true
  | member :: members => wfMember member && wfMembers members

def wfMember : String × Json → Bool
  | (_, value) => wf value

end

lemma wfItems_eq (items : List Json) : wfItems items = items.all wf := by
  induction items with
  | nil => rfl
  | cons item items ih => rw [wfItems, ih, all_cons]

lemma wfMembers_eq (members : List (String × Json)) :
    wfMembers members = members.all (wf ·.2) := by
  induction members with
  | nil => rfl
  | cons member members ih => rw [wfMembers, ih, wfMember, all_cons]

lemma wf_array {items : List Json} :
    wf (.array items) = true ↔ ∀ item ∈ items, wf item = true := by
  rw [wf, wfItems_eq, all_eq_true]

variable {members : List (String × Json)}

lemma wf_object : wf (.object members) = true ↔
      (∀ member ∈ members, wf member.2 = true) ∧ (members.map Prod.fst).Nodup := by
  rw [wf, Bool.and_eq_true, wfMembers_eq, all_eq_true, decide_eq_true_iff]

variable {n : ℕ}

lemma depthItems_le {items : List Json} :
    depthItems items ≤ n ↔ ∀ item ∈ items, depth item ≤ n := by
  induction items with
  | nil => simp [depthItems]
  | cons item items ih => simp [depthItems, ih]

lemma depthMembers_le :
    depthMembers members ≤ n ↔ ∀ member ∈ members, depth member.2 ≤ n := by
  induction members with
  | nil => simp [depthMembers]
  | cons member members ih =>
    obtain ⟨key, value⟩ := member
    rw [depthMembers, max_le_iff, ih, forall_mem_cons]
    rfl

lemma textItems_eq (items : List Json) : textItems items = items.map text := by
  induction items with
  | nil => rfl
  | cons item items ih => rw [textItems, ih, map_cons]

lemma textMembers_eq (members : List (String × Json)) :
    textMembers members = members.map textMember := by
  induction members with
  | nil => rfl
  | cons member members ih => rw [textMembers, ih, map_cons]

/-! ### Strings -/

lemma hexValue_hexDigit (hn : n < 16) : hexValue (hexDigit n) = some n := by
  interval_cases n <;> decide

lemma readUnicode_control (hn : n < 32) (rest : List Char) :
    readUnicode ('0' :: '0' :: hexDigit (n / 16) :: hexDigit (n % 16) :: rest) =
      some (Char.ofNat n, rest) := by
  have hzero : hexValue '0' = some 0 := by decide
  have hhex : readHex ('0' :: '0' :: hexDigit (n / 16) :: hexDigit (n % 16) :: rest) =
      some (n, rest) := by
    simp only [readHex, hzero, hexValue_hexDigit (show n / 16 < 16 by omega),
      hexValue_hexDigit (show n % 16 < 16 by omega), bind, Option.bind, pure]
    rw [show ((0 * 16 + 0) * 16 + n / 16) * 16 + n % 16 = n by omega]
  simp only [readUnicode, hhex, bind, Option.bind, pure]
  rw [if_neg (by omega), if_neg (by omega)]

/-- A character is read back from the way it is written in a string. -/
lemma readChars_escapeChar (c : Char) (fuel : ℕ) (rest : List Char) :
    readChars (fuel + 1) (escapeChar c ++ rest) =
      (readChars fuel rest).map fun (cs, rest) => (c :: cs, rest) := by
  have hofNat : Char.ofNat c.toNat = c := Char.ofNat_toNat c
  have hescaped : ∀ {escape : List Char}, readEscape (escape ++ rest) = some (c, rest) →
      readChars (fuel + 1) ('\\' :: escape ++ rest) =
        (readChars fuel rest).map fun (cs, rest) => (c :: cs, rest) := by
    intro escape h
    rw [cons_append, readChars, if_neg (by decide), if_pos rfl, h]
    simp only [Option.bind_eq_bind, Option.bind_some]
    cases readChars fuel rest <;> rfl
  unfold escapeChar
  split_ifs with h₁ h₂ h₃ h₄ h₅ h₆ h₇ h₈
  · exact hescaped (by rw [h₁]; rfl)
  · exact hescaped (by rw [h₂]; rfl)
  · exact hescaped (by rw [← hofNat, h₃]; rfl)
  · exact hescaped (by rw [← hofNat, h₄]; rfl)
  · exact hescaped (by rw [← hofNat, h₅]; rfl)
  · exact hescaped (by rw [← hofNat, h₆]; rfl)
  · exact hescaped (by rw [← hofNat, h₇]; rfl)
  · exact hescaped ((readUnicode_control h₈ rest).trans (by rw [hofNat]))
  · rw [cons_append, nil_append, readChars, if_neg h₁, if_neg h₂, if_neg h₈]
    cases readChars fuel rest <;> rfl

lemma readChars_escaped (cs rest : List Char) {fuel : ℕ} (hfuel : cs.length < fuel) :
    readChars fuel (cs.flatMap escapeChar ++ '"' :: rest) = some (cs, rest) := by
  induction cs generalizing fuel with
  | nil =>
    obtain ⟨fuel, rfl⟩ := Nat.exists_eq_add_of_lt hfuel
    rfl
  | cons c cs ih =>
    obtain ⟨fuel, rfl⟩ : ∃ n, fuel = n + 1 := ⟨fuel - 1, by omega⟩
    rw [flatMap_cons, append_assoc, readChars_escapeChar,
      ih (by rw [length_cons] at hfuel; omega), Option.map_some]

lemma length_le_flatMap {α β : Type} {write : α → List β} (h : ∀ a, write a ≠ [])
    (values : List α) : values.length ≤ (values.flatMap write).length := by
  induction values with
  | nil => exact Nat.zero_le _
  | cons value values ih =>
    have hpos := length_pos_iff.2 (h value)
    rw [flatMap_cons, length_append, length_cons]
    omega

lemma escapeChar_ne_nil (c : Char) : escapeChar c ≠ [] := by
  unfold escapeChar
  split_ifs <;> exact cons_ne_nil _ _

lemma readString_quoted (value : String) (rest : List Char) :
    readString (value.toList.flatMap escapeChar ++ '"' :: rest) = some (value, rest) := by
  have hfuel := length_le_flatMap escapeChar_ne_nil value.toList
  rw [readString, readChars_escaped _ _ (by simp only [length_append, length_cons]; omega),
    Option.map_some]
  exact congrArg (fun text => some (text, rest)) (String.ofList_toList)

/-! ### Numbers -/

/-- What may follow a number. -/
def Ends (rest : List Char) : Prop := ∀ c ∈ rest.head?, isNumeric c = false

variable {rest : List Char}

lemma isNumeric_of_mem {literal : List Char} (hnumber : isNumber literal = true) :
    ∀ c ∈ literal, isNumeric c = true := by
  cases literal with
  | nil => exact forall_mem_nil _
  | cons c literal => exact all_eq_true.1 (Bool.and_eq_true_iff.1 hnumber).1

lemma readNumber_append {literal : List Char} (hnumber : isNumber literal = true)
    (hends : Ends rest) :
    readNumber (literal ++ rest) = some (.number (String.ofList literal), rest) := by
  have hall := isNumeric_of_mem hnumber
  have hstop : rest.takeWhile isNumeric = [] ∧ rest.dropWhile isNumeric = rest := by
    cases rest with
    | nil => exact ⟨rfl, rfl⟩
    | cons c rest =>
      have hc : isNumeric c = false := hends c rfl
      exact ⟨takeWhile_cons_of_neg (by simp [hc]), dropWhile_cons_of_neg (by simp [hc])⟩
  have htake : (literal ++ rest).takeWhile isNumeric = literal := by
    rw [takeWhile_append_of_pos hall, hstop.1, append_nil]
  have hdrop : (literal ++ rest).dropWhile isNumeric = rest := by
    rw [dropWhile_append_of_pos hall, hstop.2]
  rw [readNumber, htake, hdrop]
  exact if_pos hnumber

/-- A number starts with a digit or a sign. -/
lemma isNumber_head {literal : List Char} (hnumber : isNumber literal = true) :
    ∃ c tail, literal = c :: tail ∧ isNumeric c = true := by
  cases literal with
  | nil => cases hnumber
  | cons c tail => exact ⟨c, tail, rfl, isNumeric_of_mem hnumber c mem_cons_self⟩

lemma isDigit_ofNat {d : ℕ} (hd : d < 10) : isDigit (Char.ofNat (48 + d)) = true := by
  interval_cases d <;> decide

/-- The first digit is not zero. -/
lemma digits_eq_cons (hn : n ≠ 0) : ∃ c rest, digits n = c :: rest ∧ c ≠ '0' := by
  have hne : Nat.digits 10 n ≠ [] := Nat.digits_ne_nil_iff_ne_zero.2 hn
  have hlt := Nat.digits_lt_base (by norm_num) (getLast_mem hne)
  have hzero := Nat.getLast_digit_ne_zero 10 hn
  have hdigits : digits n = _ := if_neg hn
  rw [← dropLast_append_getLast hne, reverse_append] at hdigits
  refine ⟨_, _, hdigits, ?_⟩
  generalize (Nat.digits 10 n).getLast hne = d at hlt hzero
  interval_cases d
  · exact absurd rfl hzero
  all_goals decide

lemma isDigit_of_mem_digits : ∀ c ∈ digits n, isDigit c = true := by
  intro c hc
  by_cases hn : n = 0
  · rw [hn] at hc
    obtain rfl := mem_singleton.1 hc
    decide
  · rw [digits, if_neg hn] at hc
    obtain ⟨d, hd, rfl⟩ := mem_map.1 hc
    exact isDigit_ofNat (Nat.digits_lt_base (by norm_num) (mem_reverse.1 hd))

lemma isUnsigned_digits (n : ℕ) : isUnsigned (digits n) = true := by
  by_cases hn : n = 0
  · rw [hn]
    decide
  · have hdigits := @isDigit_of_mem_digits n
    obtain ⟨c, rest, heq, hzero⟩ := digits_eq_cons hn
    rw [heq, forall_mem_cons] at hdigits
    rw [heq, isUnsigned, if_neg hzero, hdigits.1, dropWhile_eq_nil_iff.2 hdigits.2]
    rfl

lemma isNumeric_digits (n : ℕ) : (digits n).all isNumeric = true :=
  all_eq_true.2 fun c hc => by
    rw [isNumeric, isDigit_of_mem_digits c hc]
    rfl

lemma isNumber_digits (n : ℕ) : isNumber (digits n) = true := by
  have hnumeric := isNumeric_digits n
  have hunsigned := isUnsigned_digits n
  cases hdigits : digits n with
  | nil => exact absurd hdigits (digits_ne_nil n)
  | cons c rest =>
    rw [hdigits] at hnumeric hunsigned
    have hc : c ≠ '-' := by
      rintro rfl
      exact absurd hunsigned (by rw [isUnsigned, if_neg (by decide)]; exact Bool.false_ne_true)
    rw [isNumber, hnumeric, if_neg hc, hunsigned]
    rfl

lemma isNumber_neg_digits (n : ℕ) : isNumber ('-' :: digits n) = true := by
  rw [isNumber, if_pos rfl, isUnsigned_digits, all_cons, isNumeric_digits]
  rfl

@[simp] lemma wf_ofNat (n : ℕ) : wf (ofNat n) = true := by
  rw [ofNat, wf, String.toList_ofList, isNumber_digits]

@[simp] lemma wf_ofInt (i : ℤ) : wf (ofInt i) = true := by
  cases i with
  | ofNat n => exact wf_ofNat n
  | negSucc n => rw [ofInt, wf, String.toList_ofList, isNumber_neg_digits]

/-! ### Arrays and objects -/

/-- Members with distinct keys are kept as they are. -/
lemma foldl_putMember {kept : List (String × Json)} (h : ((kept ++ members).map Prod.fst).Nodup) :
    members.foldl putMember kept = kept ++ members := by
  induction members generalizing kept with
  | nil => rw [append_nil]; rfl
  | cons member members ih =>
    have hnew : member.1 ∉ kept.map Prod.fst := by
      rw [map_append, map_cons] at h
      exact fun hmem => (nodup_append.1 h).2.2 _ hmem _ mem_cons_self rfl
    rw [foldl_cons, putMember, if_neg hnew, ih (by simpa using h), append_assoc]
    rfl

lemma collect_of_nodup (h : (members.map Prod.fst).Nodup) :
    collect members = members := foldl_putMember h

section Elements

variable {α : Type} {item : Reader α} {close : Char} {write : α → List Char} {fits : α → Prop}
  [DecidablePred fits]

/-- The reader reads back what fits and refuses the rest, before a comma or the closing bracket;
what is written starts with neither a blank nor the bracket. -/
structure Inverts (item : Reader α) (close : Char) (write : α → List Char) (fits : α → Prop)
    [DecidablePred fits] (values : List α) : Prop where
  read : ∀ value ∈ values, ∀ next rest, next = ',' ∨ next = close →
    item (write value ++ next :: rest) = if fits value then some (value, next :: rest) else none
  head : ∀ value ∈ values, ∃ c tail, write value = c :: tail ∧ isBlank c = false ∧ c ≠ close

variable {values : List α}

lemma Inverts.tail {value : α} (h : Inverts item close write fits (value :: values)) :
    Inverts item close write fits values where
  read v hv := h.read v (mem_cons_of_mem _ hv)
  head v hv := h.head v (mem_cons_of_mem _ hv)

lemma skipBlanks_cons {c : Char} (h : isBlank c = false) (rest : List Char) :
    skipBlanks (c :: rest) = c :: rest := dropWhile_cons_of_neg (by simp [h])

omit [DecidablePred fits] in
/-- The other elements and the closing bracket start with a comma or the bracket. -/
lemma written_head (close : Char) (write : α → List Char) (values : List α)
    (rest : List Char) : ∃ next rest',
    values.flatMap (fun value => ',' :: write value) ++ close :: rest = next :: rest' ∧
      (next = ',' ∨ next = close) := by
  cases values with
  | nil => exact ⟨close, rest, rfl, .inr rfl⟩
  | cons value values => exact ⟨',', _, rfl, .inl rfl⟩

/-- An element and then the others. -/
lemma read_first {p q : Prop} [Decidable p] [Decidable q] {first : Option (α × List Char)}
    {value : α} {rest' : List Char} (more : Reader (List α))
    (hfirst : first = if p then some (value, rest') else none)
    (hmore : more rest' = if q then some (values, rest) else none) :
    (do
      let (value, rest) ← first
      let (others, rest) ← more rest
      return (value :: others, rest)) = if p ∧ q then some (value :: values, rest) else none := by
  by_cases hp : p
  · by_cases hq : q
    · simp [hfirst, hp, hq, hmore]
    · simp [hfirst, hp, hq, hmore]
  · simp [hfirst, hp]

/-- The elements after the first: each is written after a comma. -/
lemma readMore_written (h : Inverts item close write fits values) (hclose : close ≠ ',')
    (hblank : isBlank close = false) (rest : List Char) {fuel : ℕ} (hfuel : values.length < fuel) :
    readMore item close fuel (values.flatMap (fun value => ',' :: write value) ++ close :: rest) =
      if ∀ value ∈ values, fits value then some (values, rest) else none := by
  induction values generalizing fuel with
  | nil =>
    obtain ⟨fuel, rfl⟩ : ∃ n, fuel = n + 1 := ⟨fuel - 1, by omega⟩
    rw [flatMap_nil, nil_append, readMore, skipBlanks_cons hblank]
    simp
  | cons value values ih =>
    obtain ⟨fuel, rfl⟩ : ∃ n, fuel = n + 1 := ⟨fuel - 1, by omega⟩
    have hlt : values.length < fuel := by rw [length_cons] at hfuel; omega
    have hmore := ih h.tail hlt
    obtain ⟨next, rest', heq, hnext⟩ := written_head close write values rest
    rw [heq] at hmore
    rw [flatMap_cons, append_assoc, heq, cons_append, readMore,
      skipBlanks_cons (by decide)]
    simp only [if_neg hclose.symm, if_true, forall_mem_cons]
    exact read_first (readMore item close fuel)
      (h.read value mem_cons_self next rest' hnext) hmore

lemma intercalate_cons (first : List Char) (others : List (List Char)) :
    List.intercalate [','] (first :: others) = first ++ others.flatMap (',' :: ·) := by
  induction others generalizing first with
  | nil => simp [List.intercalate]
  | cons second others ih =>
    rw [intercalate_cons_cons, ih, flatMap_cons, append_assoc]
    rfl

/-- The elements between brackets. -/
lemma readElements_written (h : Inverts item close write fits values) (hclose : close ≠ ',')
    (hblank : isBlank close = false) (rest : List Char) :
    readElements item close (List.intercalate [','] (values.map write) ++ close :: rest) =
      if ∀ value ∈ values, fits value then some (values, rest) else none := by
  cases values with
  | nil =>
    show readElements item close (close :: rest) = _
    rw [readElements, skipBlanks_cons hblank]
    simp
  | cons value values =>
    obtain ⟨next, rest', heq, hnext⟩ := written_head close write values rest
    obtain ⟨c, tail, hwrite, hc, hne⟩ := h.head value mem_cons_self
    have hread := h.read value mem_cons_self next rest' hnext
    have hlength : values.length < (next :: rest').length := by
      have hle := length_le_flatMap (fun value => cons_ne_nil ',' (write value)) values
      rw [← heq, length_append, length_cons]
      omega
    have hmore := readMore_written h.tail hclose hblank rest hlength
    rw [heq] at hmore
    rw [map_cons, intercalate_cons, flatMap_map, append_assoc, heq, hwrite,
      cons_append, readElements, skipBlanks_cons hc]
    rw [hwrite, cons_append] at hread
    simp only [if_neg hne, forall_mem_cons]
    exact read_first (fun text => readMore item close text.length text) hread hmore

end Elements

/-! ### Values -/

variable {c : Char} {value : Json}

lemma isNumeric_ne {d : Char} (hc : isNumeric c = true) (hd : isNumeric d = false) : c ≠ d := by
  rintro rfl
  rw [hc] at hd
  cases hd

lemma isBlank_of_isNumeric (hc : isNumeric c = true) : isBlank c = false := by
  simp [isBlank, isNumeric_ne hc (d := ' ') (by decide), isNumeric_ne hc (d := '\n') (by decide),
    isNumeric_ne hc (d := '\t') (by decide), isNumeric_ne hc (d := '\r') (by decide)]

/-- A value is written from a first character that is neither a blank nor a closing bracket; only
arrays and objects start with an opening one. -/
lemma text_head (hwf : wf value = true) :
    ∃ c tail, text value = c :: tail ∧ isBlank c = false ∧ c ≠ ']' ∧ c ≠ '\x7d' ∧
      (depth value = 0 → c ≠ '[' ∧ c ≠ '\x7b') := by
  cases value with
  | null => exact ⟨'n', _, rfl, by decide⟩
  | bool value =>
    cases value
    · exact ⟨'f', _, rfl, by decide⟩
    · exact ⟨'t', _, rfl, by decide⟩
  | number literal =>
    obtain ⟨c, tail, htext, hc⟩ := isNumber_head hwf
    exact ⟨c, tail, htext, isBlank_of_isNumeric hc, isNumeric_ne hc (by decide),
      isNumeric_ne hc (by decide), fun _ => ⟨isNumeric_ne hc (by decide),
        isNumeric_ne hc (by decide)⟩⟩
  | string value => exact ⟨'"', _, rfl, by decide, by decide, by decide, fun _ => by decide⟩
  | array items =>
    exact ⟨'[', _, rfl, by decide, by decide, by decide, fun h => absurd h (Nat.succ_ne_zero _)⟩
  | object members =>
    exact ⟨'\x7b', _, rfl, by decide, by decide, by decide, fun h => absurd h (Nat.succ_ne_zero _)⟩

lemma readScalar_text (hwf : wf value = true) (hdepth : depth value = 0) (hends : Ends rest) :
    readScalar (text value ++ rest) = some (value, rest) := by
  cases value with
  | null => rfl
  | bool value => cases value <;> rfl
  | number literal =>
    obtain ⟨c, tail, htext, hc⟩ := isNumber_head hwf
    have hread := readNumber_append hwf hends
    rw [String.ofList_toList, htext, cons_append] at hread
    rw [text, htext, cons_append, readScalar, if_neg (isNumeric_ne hc (by decide)), if_pos hc,
      hread]
  | string value =>
    rw [text, quoted, cons_append, cons_append, append_assoc]
    show (readString _).map _ = _
    rw [singleton_append, readString_quoted]
    rfl
  | array items | object members => exact absurd hdepth (Nat.succ_ne_zero _)

lemma readValue_scalar (hwf : wf value = true) (hdepth : depth value = 0) (nesting : ℕ)
    (hends : Ends rest) :
    readValue nesting (text value ++ rest) = some (value, rest) := by
  obtain ⟨c, tail, htext, hblank, -, -, hopen⟩ := text_head hwf
  have hscalar := readScalar_text hwf hdepth hends
  rw [htext, cons_append] at hscalar ⊢
  cases nesting with
  | zero => rw [readValue, skipBlanks_cons hblank, hscalar]
  | succ nesting =>
    rw [readValue, skipBlanks_cons hblank]
    simp only [if_neg (hopen hdepth).1, if_neg (hopen hdepth).2, hscalar]

lemma ends_cons (hc : isNumeric c = false) (rest : List Char) : Ends (c :: rest) := by
  rintro d ⟨⟩
  exact hc

lemma readMember_textMember {value : Reader Json} {nesting : ℕ} {member : String × Json}
    (hvalue : value (text member.2 ++ rest) =
      if depth member.2 ≤ nesting then some (member.2, rest) else none) :
    readMember value (textMember member ++ rest) =
      if depth member.2 ≤ nesting then some (member, rest) else none := by
  obtain ⟨key, written⟩ := member
  have htext : textMember (key, written) ++ rest =
      '"' :: (key.toList.flatMap escapeChar ++ '"' :: ':' :: (text written ++ rest)) := by
    simp [textMember, quoted]
  rw [htext, readMember, skipBlanks_cons (by decide)]
  simp only [readString_quoted, bind, Option.bind_some,
    skipBlanks_cons (show isBlank ':' = false by decide),
    hvalue]
  split_ifs <;> rfl

/-- A value is read back exactly when it does not nest too deep. -/
lemma readValue_text (hwf : wf value = true) (nesting : ℕ) (hends : Ends rest) :
    readValue nesting (text value ++ rest) =
      if depth value ≤ nesting then some (value, rest) else none := by
  -- on the nesting: the elements of an array or object are read with one level less
  induction nesting generalizing value rest with
  | zero =>
    cases value with
    | array items => exact (if_neg (Nat.not_succ_le_zero (depthItems items))).symm
    | object members => exact (if_neg (Nat.not_succ_le_zero (depthMembers members))).symm
    | _ => exact (readValue_scalar hwf rfl 0 hends).trans (if_pos le_rfl).symm
  | succ nesting ih =>
    cases value with
    | array items =>
      rw [wf_array] at hwf
      have hinverts : Inverts (readValue nesting) ']' text (depth · ≤ nesting) items :=
        { read := fun item hitem next rest hnext => ih (hwf item hitem)
            (ends_cons (by rcases hnext with rfl | rfl <;> decide) rest)
          head := fun item hitem =>
            let ⟨c, tail, htext, hblank, hclose, _⟩ := text_head (hwf item hitem)
            ⟨c, tail, htext, hblank, hclose⟩ }
      rw [text, textItems_eq, cons_append, cons_append, append_assoc, readValue,
        skipBlanks_cons (by decide)]
      simp only [if_true, singleton_append,
        readElements_written hinverts (by decide) (by decide) rest]
      simp only [depth, Nat.add_le_add_iff_right, depthItems_le]
      split_ifs <;> rfl
    | object members =>
      rw [wf_object] at hwf
      have hinverts : Inverts (readMember (readValue nesting)) '\x7d' textMember
          (depth ·.2 ≤ nesting) members :=
        { read := fun member hmember next rest hnext => readMember_textMember
            (ih (hwf.1 member hmember)
              (ends_cons (by rcases hnext with rfl | rfl <;> decide) rest))
          head := fun (_, _) _ => ⟨'"', _, rfl, by decide, by decide⟩ }
      rw [text, textMembers_eq, cons_append, cons_append, append_assoc, readValue,
        skipBlanks_cons (by decide)]
      simp only [if_neg (show '\x7b' ≠ '[' by decide), if_true, singleton_append,
        readElements_written hinverts (by decide) (by decide) rest]
      simp only [depth, Nat.add_le_add_iff_right, depthMembers_le]
      split_ifs with h
      · simp only [Option.map_some, collect_of_nodup hwf.2]
      · rfl
    | _ => exact (readValue_scalar hwf rfl _ hends).trans (if_pos (Nat.zero_le _)).symm

lemma printable_escapeChar {d : Char} (hd : d ∈ escapeChar c) : 32 ≤ d.toNat := by
  have hhex : ∀ n < 16, 32 ≤ (hexDigit n).toNat := by decide
  unfold escapeChar at hd
  split_ifs at hd with h₁ h₂ h₃ h₄ h₅ h₆ h₇ h₈ <;>
    simp only [mem_cons, not_mem_nil, or_false] at hd
  on_goal 9 =>
    rw [hd]
    omega
  on_goal 8 =>
    rcases hd with rfl | rfl | rfl | rfl | rfl | rfl
    any_goals decide
    · exact hhex _ (by omega)
    · exact hhex _ (by omega)
  all_goals rcases hd with rfl | rfl <;> decide

lemma mem_intercalate {texts : List (List Char)} (hc : c ∈ List.intercalate [','] texts) :
    c = ',' ∨ ∃ written ∈ texts, c ∈ written := by
  cases texts with
  | nil => cases hc
  | cons first others =>
    rw [intercalate_cons, mem_append, mem_flatMap] at hc
    rcases hc with hc | ⟨written, hwritten, hc⟩
    · exact .inr ⟨first, mem_cons_self, hc⟩
    · exact (mem_cons.1 hc).imp_right fun hc => ⟨written, mem_cons_of_mem _ hwritten, hc⟩

lemma printable_quoted {value : String} (hc : c ∈ quoted value) : 32 ≤ c.toNat := by
  simp only [quoted, cons_append, mem_cons, mem_append, not_mem_nil,
    or_false] at hc
  rcases hc with rfl | hc | rfl
  · decide
  · obtain ⟨d, -, hd⟩ := mem_flatMap.1 hc
    exact printable_escapeChar hd
  · decide

lemma printable_of_isNumeric (hc : isNumeric c = true) : 32 ≤ c.toNat := by
  simp only [isNumeric, isDigit, Bool.or_eq_true, Bool.and_eq_true, decide_eq_true_eq,
    beq_iff_eq] at hc
  rcases hc with ((((hc | rfl) | rfl) | rfl) | rfl) | rfl
  · omega
  all_goals decide

lemma printable_of_all {cs : List Char} (h : cs.all (32 ≤ ·.toNat) = true) (hc : c ∈ cs) :
    32 ≤ c.toNat :=
  of_decide_eq_true (all_eq_true.1 h c hc)

/-- What stands between brackets is printable if the elements are. -/
lemma printable_elements {bracket close : Char} {texts : List (List Char)}
    (hbracket : 32 ≤ bracket.toNat) (hclose : 32 ≤ close.toNat)
    (htexts : ∀ written ∈ texts, ∀ d ∈ written, 32 ≤ d.toNat)
    (hc : c ∈ bracket :: List.intercalate [','] texts ++ [close]) : 32 ≤ c.toNat := by
  simp only [cons_append, mem_cons, mem_append, not_mem_nil, or_false] at hc
  rcases hc with rfl | hc | rfl
  · exact hbracket
  · rcases mem_intercalate hc with rfl | ⟨written, hwritten, hc⟩
    · decide
    · exact htexts written hwritten c hc
  · exact hclose

/-- No control character is written: newlines are escaped. -/
lemma printable_text (hwf : wf value = true) (hc : c ∈ text value) : 32 ≤ c.toNat := by
  induction value generalizing c with
  | null => exact printable_of_all (by decide) hc
  | bool value => exact printable_of_all (by cases value <;> decide) hc
  | number literal => exact printable_of_isNumeric (isNumeric_of_mem hwf c hc)
  | string value => exact printable_quoted hc
  | array items ih =>
    rw [text, textItems_eq] at hc
    refine printable_elements (by decide) (by decide) (fun written hwritten d hd => ?_) hc
    obtain ⟨item, hitem, rfl⟩ := mem_map.1 hwritten
    exact ih item hitem (wf_array.1 hwf item hitem) hd
  | object members ih =>
    rw [text, textMembers_eq] at hc
    refine printable_elements (by decide) (by decide) (fun written hwritten d hd => ?_) hc
    obtain ⟨⟨key, value⟩, hmember, rfl⟩ := mem_map.1 hwritten
    rw [textMember, mem_append, mem_cons] at hd
    rcases hd with hd | rfl | hd
    · exact printable_quoted hd
    · decide
    · exact ih _ hmember ((wf_object.1 hwf).1 _ hmember) hd

lemma read_text (hwf : wf value = true) (nesting : ℕ) :
    read nesting (text value) = if depth value ≤ nesting then some value else none := by
  have hends : Ends [] := fun _ h => nomatch h
  have hread := readValue_text hwf nesting hends
  rw [append_nil] at hread
  rw [read, hread]
  split_ifs <;> rfl

end SolarisMesh.Lib.Json
