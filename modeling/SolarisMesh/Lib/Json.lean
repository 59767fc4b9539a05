import Mathlib.Algebra.Ring.Nat
import Mathlib.Tactic.Common

/-!
# JSON values

The tree of values with decidable equality and member access. A number is kept as its
literal: the developments that use this module compare numbers and never compute with
them. What a reader makes of a literal is a parameter, as it may round. An object is the list of its
members in order.
-/

namespace SolarisMesh.Lib

inductive Json where
  | null
  | bool (value : Bool)
  | number (literal : String)
  | string (value : String)
  | array (items : List Json)
  | object (members : List (String × Json))
deriving Repr

namespace Json

mutual

/-- Equality of values, by structural recursion so that it evaluates. -/
def decEqValue : (a b : Json) → Decidable (a = b)
  | .null, .null => .isTrue rfl
  | .bool a, .bool b => decidable_of_iff (a = b) (by simp)
  | .number a, .number b => decidable_of_iff (a = b) (by simp)
  | .string a, .string b => decidable_of_iff (a = b) (by simp)
  | .array as, .array bs => @decidable_of_iff _ (as = bs) (by simp) (decEqItems as bs)
  | .object as, .object bs => @decidable_of_iff _ (as = bs) (by simp) (decEqMembers as bs)
  | .null, .bool _ | .null, .number _ | .null, .string _ | .null, .array _ | .null, .object _
  | .bool _, .null | .bool _, .number _ | .bool _, .string _ | .bool _, .array _
  | .bool _, .object _ | .number _, .null | .number _, .bool _ | .number _, .string _
  | .number _, .array _ | .number _, .object _ | .string _, .null | .string _, .bool _
  | .string _, .number _ | .string _, .array _ | .string _, .object _ | .array _, .null
  | .array _, .bool _ | .array _, .number _ | .array _, .string _ | .array _, .object _
  | .object _, .null | .object _, .bool _ | .object _, .number _ | .object _, .string _
  | .object _, .array _ => .isFalse (by simp)
termination_by structural a => a

def decEqItems : (as bs : List Json) → Decidable (as = bs)
  | [], [] => .isTrue rfl
  | [], _ :: _ => .isFalse (by simp)
  | _ :: _, [] => .isFalse (by simp)
  | a :: as, b :: bs =>
    match decEqValue a b, decEqItems as bs with
    | .isTrue h, .isTrue hs => .isTrue (by rw [h, hs])
    | .isFalse h, _ => .isFalse (by simp [h])
    | _, .isFalse hs => .isFalse (by simp [hs])

def decEqMembers : (as bs : List (String × Json)) → Decidable (as = bs)
  | [], [] => .isTrue rfl
  | [], _ :: _ => .isFalse (by simp)
  | _ :: _, [] => .isFalse (by simp)
  | a :: as, b :: bs =>
    match decEqMember a b, decEqMembers as bs with
    | .isTrue h, .isTrue hs => .isTrue (by rw [h, hs])
    | .isFalse h, _ => .isFalse (by simp [h])
    | _, .isFalse hs => .isFalse (by simp [hs])

def decEqMember : (a b : String × Json) → Decidable (a = b)
  | (k, a), (l, b) =>
    match instDecidableEqString k l, decEqValue a b with
    | .isTrue h, .isTrue h' => .isTrue (by rw [h, h'])
    | .isFalse h, _ => .isFalse (by simp [h])
    | _, .isFalse h => .isFalse (by simp [h])

end

instance : DecidableEq Json := decEqValue

@[induction_eliminator] lemma induct {motive : Json → Prop} (null : motive .null)
    (bool : ∀ value, motive (.bool value)) (number : ∀ literal, motive (.number literal))
    (string : ∀ value, motive (.string value))
    (array : ∀ items, (∀ item ∈ items, motive item) → motive (.array items))
    (object : ∀ members, (∀ member ∈ members, motive member.2) → motive (.object members)) :
    ∀ value, motive value :=
  @Json.rec motive (fun items => ∀ item ∈ items, motive item)
    (fun members => ∀ member ∈ members, motive member.2) (fun member => motive member.2)
    null bool number string array object (List.forall_mem_nil _)
    (fun _ _ h hs => List.forall_mem_cons.2 ⟨h, hs⟩) (List.forall_mem_nil _)
    (fun _ _ h hs => List.forall_mem_cons.2 ⟨h, hs⟩) fun _ _ h => h

/-- The member `key` of an object; other values have no members. -/
def get (key : String) : Json → Option Json
  | .object members => members.lookup key
  | _ => none

def asStr : Json → Option String
  | .string value => some value
  | _ => none

def asBool : Json → Option Bool
  | .bool value => some value
  | _ => none

/-- The value of a decimal digit. -/
def digit (c : Char) : Option ℕ :=
  if '0' ≤ c ∧ c ≤ '9' then some (c.toNat - '0'.toNat) else none

/-- The value of a decimal literal, most significant digit first. -/
def decimal (value : ℕ) : List Char → Option ℕ
  | [] => some value
  | c :: rest => (digit c).bind fun d => decimal (10 * value + d) rest

/-- The value of a number that is written without sign, fraction and exponent. -/
def asU64 : Json → Option ℕ
  | .number literal => if literal = "" then none else decimal 0 literal.toList
  | _ => none

/-! ### The length of the text -/

/-- The bytes of a character inside a string, escaped where the writer escapes it. -/
def escapedSize (c : Char) : ℕ :=
  if c.toNat ∈ [0x08, 0x09, 0x0a, 0x0c, 0x0d, 0x22, 0x5c] then 2
  else if c.toNat < 0x20 then 6
  else c.utf8Size

def stringSize (value : String) : ℕ := 2 + (value.toList.map escapedSize).sum

mutual

/-- The bytes of a value written without blanks. -/
def encodedSize : Json → ℕ
  | .null => 4
  | .bool value => if value then 4 else 5
  | .number literal => literal.utf8ByteSize
  | .string value => stringSize value
  | .array items => 2 + (items.length - 1) + itemsSize items
  | .object members => 2 + (members.length - 1) + membersSize members
termination_by structural value => value

def itemsSize : List Json → ℕ
  | [] => 0
  | item :: items => encodedSize item + itemsSize items

def membersSize : List (String × Json) → ℕ
  | [] => 0
  | member :: members => memberSize member + membersSize members

def memberSize : String × Json → ℕ
  | (key, value) => stringSize key + 1 + encodedSize value

end

/-! ### Numbers that are read -/

mutual

/-- The value with the literals of its numbers changed. -/
def mapNumbers (f : String → String) : Json → Json
  | .null => .null
  | .bool value => .bool value
  | .number literal => .number (f literal)
  | .string value => .string value
  | .array items => .array (mapItems f items)
  | .object members => .object (mapMembers f members)
termination_by structural value => value

def mapItems (f : String → String) : List Json → List Json
  | [] => []
  | item :: items => mapNumbers f item :: mapItems f items

def mapMembers (f : String → String) : List (String × Json) → List (String × Json)
  | [] => []
  | member :: members => mapMember f member :: mapMembers f members

def mapMember (f : String → String) : String × Json → String × Json
  | (key, value) => (key, mapNumbers f value)

end

end Json

/-- The literal of the number that is read from a literal. -/
class NumberReader where
  reread : String → String

/-- Numbers that are read as they are written. -/
@[reducible] def NumberReader.exact : NumberReader := ⟨id⟩

/-- One float, which is read as the one before it. -/
@[reducible] def NumberReader.rounded : NumberReader where
  reread literal := if literal = "51.248178375505404" then "51.24817837550541" else literal

/-- The value that is read where this one was written. -/
def Json.reread [NumberReader] (value : Json) : Json := value.mapNumbers NumberReader.reread

/-- Where no key comes twice, every member is the one that its key finds. -/
lemma lookup_of_mem {α β : Type*} [BEq α] [LawfulBEq α] {members : List (α × β)} {key : α}
    {value : β} (h : (members.map Prod.fst).Nodup) (hmem : (key, value) ∈ members) :
    members.lookup key = some value := by
  obtain ⟨before, after, rfl⟩ := List.append_of_mem hmem
  rw [List.map_append, List.map_cons] at h
  refine List.lookup_eq_some_iff.2 ⟨before, after, rfl, fun _ hother => bne_iff_ne.2 fun heq => ?_⟩
  exact (List.nodup_append.1 h).2.2 _ (List.mem_map_of_mem hother) _ List.mem_cons_self heq.symm

end SolarisMesh.Lib
