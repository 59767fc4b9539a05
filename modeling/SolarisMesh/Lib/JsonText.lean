import SolarisMesh.Lib.Json
import Mathlib.Data.Nat.Digits.Defs
import Mathlib.Data.List.Basic
import Mathlib.Tactic.IntervalCases

/-!
# JSON values as text

How a value is written without blanks, how deep it nests, and when two values are equal: objects
are compared by their members, not by the order in which they are written. Objects with optional
members are built and looked up by lemma.
-/

namespace SolarisMesh.Lib.Json

open List

/-! ## Nesting -/

mutual

/-- The arrays and objects around the innermost value. -/
def depth : Json → ℕ
  | .null | .bool _ | .number _ | .string _ => 0
  | .array items => depthItems items + 1
  | .object members => depthMembers members + 1
termination_by structural value => value

def depthItems : List Json → ℕ
  | [] => 0
  | item :: items => max (depth item) (depthItems items)

def depthMembers : List (String × Json) → ℕ
  | [] => 0
  | member :: members => max (depthMember member) (depthMembers members)

def depthMember : String × Json → ℕ
  | (_, value) => depth value

end

/-! ## Equality of values -/

/-- Puts a member in its place by key. -/
def insertMember (member : String × Json) : List (String × Json) → List (String × Json)
  | [] => [member]
  | first :: members =>
    if member.1 ≤ first.1 then member :: first :: members
    else first :: insertMember member members

mutual

/-- The value with the members of all objects in the order of their keys. -/
def canonical : Json → Json
  | .null => .null
  | .bool value => .bool value
  | .number literal => .number literal
  | .string value => .string value
  | .array items => .array (canonicalItems items)
  | .object members => .object (canonicalMembers members)
termination_by structural value => value

def canonicalItems : List Json → List Json
  | [] => []
  | item :: items => canonical item :: canonicalItems items

def canonicalMembers : List (String × Json) → List (String × Json)
  | [] => []
  | member :: members => insertMember (canonicalMember member) (canonicalMembers members)

def canonicalMember : String × Json → String × Json
  | (key, value) => (key, canonical value)

end

/-- Equality of values. -/
def same (a b : Json) : Bool := canonical a = canonical b

lemma same_refl (a : Json) : same a a = true := decide_eq_true rfl

lemma same_trans {a b c : Json} (hab : same a b = true) (hbc : same b c = true) :
    same a c = true :=
  decide_eq_true ((of_decide_eq_true hab).trans (of_decide_eq_true hbc))

/-! ## Text -/

def hexDigit (n : ℕ) : Char := ("0123456789abcdef".toList.getD n '0')

/-- A character inside a string. -/
def escapeChar (c : Char) : List Char :=
  if c = '"' then ['\\', '"']
  else if c = '\\' then ['\\', '\\']
  else if c.toNat = 8 then ['\\', 'b']
  else if c.toNat = 9 then ['\\', 't']
  else if c.toNat = 10 then ['\\', 'n']
  else if c.toNat = 12 then ['\\', 'f']
  else if c.toNat = 13 then ['\\', 'r']
  else if c.toNat < 32 then
    ['\\', 'u', '0', '0', hexDigit (c.toNat / 16), hexDigit (c.toNat % 16)]
  else [c]

def quoted (value : String) : List Char := '"' :: value.toList.flatMap escapeChar ++ ['"']

mutual

/-- A value written without blanks. -/
def text : Json → List Char
  | .null => "null".toList
  | .bool value => if value then "true".toList else "false".toList
  | .number literal => literal.toList
  | .string value => quoted value
  | .array items => '[' :: List.intercalate [','] (textItems items) ++ [']']
  | .object members => '\x7b' :: List.intercalate [','] (textMembers members) ++ ['\x7d']
termination_by structural value => value

def textItems : List Json → List (List Char)
  | [] => []
  | item :: items => text item :: textItems items

def textMembers : List (String × Json) → List (List Char)
  | [] => []
  | member :: members => textMember member :: textMembers members

def textMember : String × Json → List Char
  | (key, value) => quoted key ++ ':' :: text value

end

/-! ## Numbers -/

def digits (n : ℕ) : List Char :=
  if n = 0 then ['0'] else (Nat.digits 10 n).reverse.map fun d => Char.ofNat (48 + d)

def ofNat (n : ℕ) : Json := .number (String.ofList (digits n))

lemma digit_ofNat {d : ℕ} (hd : d < 10) : digit (Char.ofNat (48 + d)) = some d := by
  interval_cases d <;> decide

lemma decimal_append {value next : ℕ} {left right : List Char}
    (h : decimal value left = some next) :
    decimal value (left ++ right) = decimal next right := by
  induction left generalizing value with
  | nil =>
    cases h
    rfl
  | cons c left ih =>
    simp only [decimal, Option.bind_eq_some_iff] at h
    obtain ⟨d, hd, hrest⟩ := h
    rw [cons_append, decimal, hd]
    exact ih hrest

lemma decimal_reverse {ds : List ℕ} (hds : ∀ d ∈ ds, d < 10) :
    decimal 0 (ds.reverse.map fun d => Char.ofNat (48 + d)) = some (Nat.ofDigits 10 ds) := by
  induction ds with
  | nil => rfl
  | cons d ds ih =>
    have hd : d < 10 := hds d mem_cons_self
    rw [reverse_cons, map_append,
      decimal_append (ih fun e he => hds e (mem_cons_of_mem _ he))]
    simp only [map_cons, map_nil, decimal, digit_ofNat hd, Option.bind_some,
      Nat.ofDigits_cons, Option.some.injEq]
    ring

lemma decimal_digits (n : ℕ) : decimal 0 (digits n) = some n := by
  unfold digits
  split
  · next hn =>
    subst hn
    rfl
  · rw [decimal_reverse fun d hd => Nat.digits_lt_base (by norm_num) hd, Nat.ofDigits_digits]

lemma digits_ne_nil (n : ℕ) : digits n ≠ [] := by
  unfold digits
  split
  · exact cons_ne_nil _ _
  · next hn => simpa using Nat.digits_ne_nil_iff_ne_zero.2 hn

@[simp] lemma asU64_ofNat (n : ℕ) : asU64 (ofNat n) = some n := by
  have hne : String.ofList (digits n) ≠ "" := by
    intro h
    exact digits_ne_nil n (by rw [← String.toList_ofList (l := digits n), h]; rfl)
  rw [ofNat, asU64, if_neg hne, String.toList_ofList, decimal_digits]

def ofInt : ℤ → Json
  | .ofNat n => ofNat n
  | .negSucc n => .number (String.ofList ('-' :: digits (n + 1)))

/-- The value of a number that is written without fraction and exponent. -/
def asI64 : Json → Option ℤ
  | .number literal =>
    match literal.toList with
    | '-' :: digits => if digits = [] then none else (decimal 0 digits).map fun n => -n
    | _ => (asU64 (.number literal)).map fun n => n
  | _ => none

@[simp] lemma asI64_ofInt (i : ℤ) : asI64 (ofInt i) = some i := by
  cases i with
  | ofNat n =>
    have hvalue := asU64_ofNat n
    rw [ofNat] at hvalue
    rw [ofInt, ofNat, asI64, String.toList_ofList]
    split
    · next rest hsign =>
      -- a sign is not a digit
      have hdigits := decimal_digits n
      rw [hsign] at hdigits
      cases hdigits
    · rw [hvalue]
      rfl
  | negSucc n =>
    rw [ofInt, asI64, String.toList_ofList]
    simp only [if_neg (digits_ne_nil _), decimal_digits]
    rfl

/-! ## Optional members -/

/-- A member that is left out when there is nothing to write. -/
def optional (key : String) : Option Json → List (String × Json)
  | none => []
  | some value => [(key, value)]

@[simp] lemma lookup_optional (key key' : String) (value : Option Json) :
    (optional key value).lookup key' = if key' = key then value else none := by
  cases value with
  | none => simp [optional]
  | some value =>
    by_cases h : key' = key
    · simp [optional, h]
    · simp [optional, h, lookup_cons, beq_eq_false_iff_ne.2 h]

/-- The strings of an array of strings. -/
def asStrings : Json → Option (List String)
  | .array items => items.mapM asStr
  | _ => none

def ofStrings (values : List String) : Json := .array (values.map .string)

@[simp] lemma asStrings_ofStrings (values : List String) :
    asStrings (ofStrings values) = some values := by
  rw [ofStrings, asStrings]
  induction values with
  | nil => rfl
  | cons value values ih =>
    rw [map_cons, mapM_cons, ih]
    rfl

end SolarisMesh.Lib.Json
