import SolarisMesh.Lib.JsonEqual

/-!
# Canonical event bytes

The bytes a delivery digest is taken of: an event without its delivery metadata, all keys in the
order of their bytes. Two events have the same bytes exactly when they are the same event.
-/

namespace SolarisMesh.Protocol

open List Lib Utf8

/-- `DELIVERY_FIELD`. -/
def deliveryField : String := "delivery"

/-- A map of JSON values: keys are distinct, also inside, and numbers are numbers. -/
abbrev EventMap := { members : List (String × Json) // (Json.object members).wf = true }

/-! ## Writing -/

def writeChar (c : Char) : Bytes :=
  if c = '"' then Utf8.encode ['\\', '"']
  else if c = '\\' then encode ['\\', '\\']
  else if c.toNat = 0x08 then encode ['\\', 'b']
  else if c.toNat = 0x0c then encode ['\\', 'f']
  else if c = '\n' then encode ['\\', 'n']
  else if c = '\r' then encode ['\\', 'r']
  else if c = '\t' then encode ['\\', 't']
  else if c.toNat ≤ 0x1f then
    encode ['\\', 'u', '0', '0', Json.hexDigit (c.toNat / 16), Json.hexDigit (c.toNat % 16)]
  else encode [c]

def writeString (value : String) : Bytes :=
  encode ['"'] ++ value.toList.flatMap writeChar ++ Utf8.encode ['"']

/-- Entries whose values are written already. -/
def writeObject (omitDelivery : Bool) (values : List (String × Bytes)) : Bytes :=
  let entries := Json.sortByKey Json.keyLe
    (values.filter fun entry => !omitDelivery || entry.1 ≠ deliveryField)
  encode ['\x7b'] ++
    List.intercalate (encode [','])
      (entries.map fun entry => writeString entry.1 ++ encode [':'] ++ entry.2) ++
    encode ['\x7d']

mutual

def writeValue : Json → Bytes
  | .null => encode "null".toList
  | .bool true => encode "true".toList
  | .bool false => encode "false".toList
  | .number literal => encode literal.toList
  | .string value => writeString value
  | .array values =>
    encode ['['] ++ List.intercalate (encode [',']) (writeValues values) ++
      encode [']']
  | .object values => writeObject false (writeEntries values)
termination_by structural value => value

def writeValues : List Json → List Bytes
  | [] => []
  | value :: values => writeValue value :: writeValues values

def writeEntries : List (String × Json) → List (String × Bytes)
  | [] => []
  | entry :: entries => writeEntry entry :: writeEntries entries

def writeEntry : String × Json → String × Bytes
  | (key, value) => (key, writeValue value)

end

def canonicalEventBytes (event : EventMap) : Bytes := writeObject true (writeEntries event.1)

/-- The event without its delivery metadata. -/
def withoutDelivery (event : EventMap) : Json :=
  .object (event.1.filter fun entry => entry.1 ≠ deliveryField)

/-! ## The bytes of the sorted event -/

lemma writeChar_eq (c : Char) : writeChar c = encode (Json.escapeChar c) := by
  have hcode : ∀ n, n < 32 → (c.toNat = n ↔ c = Char.ofNat n) := by
    intro n hn
    constructor
    · rintro rfl
      exact (Char.ofNat_toNat c).symm
    · rintro rfl
      interval_cases n <;> rfl
  have htab : c = '\t' ↔ c.toNat = 9 := (hcode 9 (by decide)).symm
  have hnewline : c = '\n' ↔ c.toNat = 10 := (hcode 10 (by decide)).symm
  have hreturn : c = '\r' ↔ c.toNat = 13 := (hcode 13 (by decide)).symm
  unfold writeChar Json.escapeChar
  simp only [htab, hnewline, hreturn, Nat.lt_succ_iff]
  split_ifs <;> first | rfl | omega

lemma writeString_eq (value : String) : writeString value = encode (Json.quoted value) := by
  have hchars : value.toList.flatMap writeChar =
      encode (value.toList.flatMap Json.escapeChar) := by
    rw [encode, flatMap_assoc]
    exact flatMap_congr fun c _ => writeChar_eq c
  rw [writeString, hchars, Json.quoted, ← encode_append, ← encode_append]
  rfl

lemma encode_intercalate (texts : List (List Char)) :
    encode (List.intercalate [','] texts) =
      List.intercalate (encode [',']) (texts.map encode) := by
  cases texts with
  | nil => rfl
  | cons first texts =>
    induction texts generalizing first with
    | nil => simp [List.intercalate]
    | cons second texts ih =>
      simp only [intercalate_cons_cons, encode_append, ih, map_cons]

lemma encode_brackets (first last : Char) (texts : List (List Char)) :
    encode (first :: List.intercalate [','] texts ++ [last]) =
      encode [first] ++ List.intercalate (encode [',']) (texts.map encode) ++
        encode [last] := by
  rw [← encode_intercalate, ← encode_append, ← encode_append]
  rfl

lemma writeEntries_eq (entries : List (String × Json)) :
    writeEntries entries = entries.map fun entry => (entry.1, writeValue entry.2) := by
  induction entries with
  | nil => rfl
  | cons entry entries ih => rw [writeEntries, ih, map_cons, writeEntry]

lemma writeValues_eq (values : List Json) : writeValues values = values.map writeValue := by
  induction values with
  | nil => rfl
  | cons value values ih => rw [writeValues, ih, map_cons]

/-- Entries that are written from a sorted form are an object in that form. -/
lemma writeObject_eq {omitDelivery : Bool} {entries : List (String × Json)}
    (hvalues : ∀ entry ∈ entries, writeValue entry.2 =
      encode (Json.text (Json.sortKeys Json.keyLe entry.2))) :
    writeObject omitDelivery (writeEntries entries) = encode (Json.text (Json.sortKeys Json.keyLe
      (.object (entries.filter fun entry => !omitDelivery || entry.1 ≠ deliveryField)))) := by
  have hkept : (writeEntries entries).filter
      (fun entry => !omitDelivery || entry.1 ≠ deliveryField) = (Json.sortMembers Json.keyLe
        (entries.filter fun entry => !omitDelivery || entry.1 ≠ deliveryField)).map fun entry =>
          (entry.1, encode (Json.text entry.2)) := by
    rw [writeEntries_eq, Json.sortMembers_eq, filter_map, map_map]
    refine map_congr_left fun entry hentry => ?_
    exact congrArg (entry.1, ·) (hvalues entry (mem_filter.1 hentry).1)
  rw [writeObject, hkept, Json.sortByKey_map fun value => encode (Json.text value),
    Json.sortKeys, Json.text, Json.textMembers_eq, encode_brackets, map_map, map_map]
  refine congrArg (· ++ _) (congrArg (_ ++ ·) (congrArg (List.intercalate _)
    (map_congr_left fun entry _ => ?_)))
  obtain ⟨key, value⟩ := entry
  rw [Function.comp_apply, Function.comp_apply, writeString_eq, append_assoc,
    ← encode_append, ← encode_append]
  rfl

/-- A value is written as its form with sorted keys. -/
lemma writeValue_eq (value : Json) :
    writeValue value = encode (Json.text (Json.sortKeys Json.keyLe value)) := by
  induction value with
  | bool value => cases value <;> rfl
  | string value => exact writeString_eq value
  | array items ih =>
    rw [writeValue, writeValues_eq, Json.sortKeys, Json.text, Json.textItems_eq,
      Json.sortItems_eq, encode_brackets, map_map, map_map]
    exact congrArg (· ++ _) (congrArg (_ ++ ·) (congrArg (List.intercalate _)
      (map_congr_left ih)))
  | object members ih =>
    rw [writeValue, writeObject_eq ih]
    simp
  | null | number => rfl

lemma canonicalEventBytes_eq (event : EventMap) :
    canonicalEventBytes event =
      encode (Json.text (Json.sortKeys Json.keyLe (withoutDelivery event))) := by
  rw [canonicalEventBytes, writeObject_eq fun entry _ => writeValue_eq entry.2]
  simp [withoutDelivery]

lemma wf_withoutDelivery (event : EventMap) : (withoutDelivery event).wf = true := by
  obtain ⟨members, hwf⟩ := event
  rw [Json.wf_object] at hwf
  rw [withoutDelivery, Json.wf_object]
  exact ⟨fun entry hentry => hwf.1 entry (mem_filter.1 hentry).1,
    hwf.2.sublist (filter_sublist.map _)⟩

/-! ## One event, one text -/

/-- Equality of numbers: the two zeros of the floating-point numbers are equal. -/
def numberEq (left right : String) : Bool :=
  left == right || (left ∈ ["0.0", "-0.0"] && right ∈ ["0.0", "-0.0"])

/-- `{"a":0.0}` and `{"a":-0.0}`. -/
def zeroEvent (literal : String) (h : Json.isNumber literal.toList = true) : EventMap :=
  ⟨[("a", .number literal)], by simp [Json.wf, Json.wfMembers, Json.wfMember, h]⟩

/-- The maps are equal and the bytes are not. -/
theorem negative_zero_bytes_differ :
    Json.equal numberEq (withoutDelivery (zeroEvent "0.0" (by decide)))
        (withoutDelivery (zeroEvent "-0.0" (by decide))) = true ∧
      canonicalEventBytes (zeroEvent "0.0" (by decide)) ≠
        canonicalEventBytes (zeroEvent "-0.0" (by decide)) := by
  decide +kernel

/-- The bytes of two events are the same exactly when the events are, whatever the order of their
keys and their delivery metadata, with numbers compared as they are written. They are the text of
an equal value, and read as that value by every reader that follows it to its depth. -/
theorem canonicalEventBytes_eq_iff (event₁ event₂ : EventMap) :
    (canonicalEventBytes event₁ = canonicalEventBytes event₂ ↔
      Json.equal (· == ·) (withoutDelivery event₁) (withoutDelivery event₂) = true) ∧
    ∃ value, Json.equal (· == ·) value (withoutDelivery event₁) = true ∧ ∀ nesting,
      (decode (canonicalEventBytes event₁)).bind (Json.read nesting) =
        if (withoutDelivery event₁).depth ≤ nesting then some value else none := by
  have hwf₁ := wf_withoutDelivery event₁
  have hwf₂ := wf_withoutDelivery event₂
  rw [canonicalEventBytes_eq, canonicalEventBytes_eq]
  refine ⟨⟨fun h => ?_, fun h => ?_⟩, Json.sortKeys Json.keyLe (withoutDelivery event₁),
    (Json.equal_iff_sortKeys Json.keyLe_order (Json.wf_sortKeys hwf₁) hwf₁).2
      (Json.sortKeys_sortKeys Json.keyLe_order hwf₁), fun nesting => ?_⟩
  · exact (Json.text_sortKeys_inj Json.keyLe_order hwf₁ hwf₂).1 (encode_injective h)
  · rw [(Json.text_sortKeys_inj Json.keyLe_order hwf₁ hwf₂).2 h]
  · rw [decode_encode, Option.bind_some, Json.read_text_sortKeys Json.keyLe hwf₁]

end SolarisMesh.Protocol
