import SolarisMesh.Lib.JsonReader
import SolarisMesh.Lib.Utf8

/-!
# Equal JSON values

Objects are equal if they have the same members, in whatever order. A value has one form with all
its members in the order of their keys, and equal values have the same form.
-/

namespace SolarisMesh.Lib.Json

open List

mutual

/-- Equality of values over an equality of numbers. -/
def equal (sameNumber : String → String → Bool) : Json → Json → Bool
  | .null, .null => true
  | .bool a, .bool b => a == b
  | .number a, .number b => sameNumber a b
  | .string a, .string b => a == b
  | .array as, .array bs => equalItems sameNumber as bs
  | .object as, .object bs => as.length == bs.length && equalMembers sameNumber as bs
  | _, _ => false
termination_by structural a => a

def equalItems (sameNumber : String → String → Bool) : List Json → List Json → Bool
  | [], [] => true
  | a :: as, b :: bs => equal sameNumber a b && equalItems sameNumber as bs
  | _, _ => false

def equalMembers (sameNumber : String → String → Bool) :
    List (String × Json) → List (String × Json) → Bool
  | [], _ => true
  | a :: as, bs => equalMember sameNumber a bs && equalMembers sameNumber as bs

def equalMember (sameNumber : String → String → Bool) :
    String × Json → List (String × Json) → Bool
  | (key, a), bs =>
    match bs.lookup key with
    | some b => equal sameNumber a b
    | none => false

end

/-- A total order of keys. -/
structure KeyOrder (le : String → String → Bool) : Prop where
  total : ∀ a b, le a b = true ∨ le b a = true
  trans : ∀ a b c, le a b = true → le b c = true → le a c = true
  antisymm : ∀ a b, le a b = true → le b a = true → a = b

/-! ## Keys by their bytes -/

/-- The order of byte strings. -/
def bytesLe : Bytes → Bytes → Bool
  | [], _ => true
  | _ :: _, [] => false
  | a :: as, b :: bs => a < b || (a == b && bytesLe as bs)

/-- Strings compare as their bytes. -/
def keyLe (left right : String) : Bool :=
  bytesLe (Utf8.encode left.toList) (Utf8.encode right.toList)

lemma bytesLe_iff {as bs : Bytes} : bytesLe as bs = true ↔ as ≤ bs := by
  induction as generalizing bs with
  | nil => simp [bytesLe]
  | cons a as ih =>
    cases bs with
    | nil => simp [bytesLe]
    | cons b bs => simp [bytesLe, cons_le_cons_iff, ih]

lemma keyLe_order : KeyOrder keyLe where
  total _ _ := (List.le_total _ _).imp bytesLe_iff.2 bytesLe_iff.2
  trans _ _ _ h h' := bytesLe_iff.2 (List.le_trans (bytesLe_iff.1 h) (bytesLe_iff.1 h'))
  antisymm _ _ h h' := String.toList_injective
    (Utf8.encode_injective (List.le_antisymm (bytesLe_iff.1 h) (bytesLe_iff.1 h')))

/-! ## Sorted members -/

/-- Members, or what is made of them, in the order of their keys. -/
def sortByKey {α : Type} (le : String → String → Bool) (members : List (String × α)) :
    List (String × α) := members.insertionSort fun a b => le a.1 b.1

mutual

/-- The form with all members in the order of their keys. -/
def sortKeys (le : String → String → Bool) : Json → Json
  | .null => .null
  | .bool value => .bool value
  | .number literal => .number literal
  | .string value => .string value
  | .array items => .array (sortItems le items)
  | .object members => .object (sortByKey le (sortMembers le members))
termination_by structural value => value

def sortItems (le : String → String → Bool) : List Json → List Json
  | [] => []
  | item :: items => sortKeys le item :: sortItems le items

def sortMembers (le : String → String → Bool) : List (String × Json) → List (String × Json)
  | [] => []
  | member :: members => sortMember le member :: sortMembers le members

def sortMember (le : String → String → Bool) : String × Json → String × Json
  | (key, value) => (key, sortKeys le value)

end

section Order

variable {le : String → String → Bool}

lemma sortItems_eq (items : List Json) : sortItems le items = items.map (sortKeys le) := by
  induction items with
  | nil => rfl
  | cons item items ih => rw [sortItems, ih, map_cons]

lemma sortMembers_eq (members : List (String × Json)) :
    sortMembers le members = members.map fun m => (m.1, sortKeys le m.2) := by
  induction members with
  | nil => rfl
  | cons member members ih => rw [sortMembers, ih, map_cons, sortMember]

lemma sortByKey_perm {α : Type} (members : List (String × α)) :
    (sortByKey le members).Perm members := perm_insertionSort _ _

lemma sortByKey_map {α β : Type} (f : α → β) (members : List (String × α)) :
    sortByKey le (members.map fun m => (m.1, f m.2)) =
      (sortByKey le members).map fun m => (m.1, f m.2) :=
  (map_insertionSort (fun a b : String × α => le a.1 b.1) (fun a b : String × β => le a.1 b.1)
    (fun m => (m.1, f m.2)) members fun _ _ _ _ => Iff.rfl).symm

lemma keys_sortMembers (members : List (String × Json)) :
    (sortMembers le members).map Prod.fst = members.map Prod.fst := by
  rw [sortMembers_eq, map_map]
  rfl

/-- Lists of members with distinct keys are permutations of each other exactly when they have the
same sorted form. -/
lemma sortByKey_eq_iff {α : Type} (horder : KeyOrder le) {as bs : List (String × α)}
    (has : (as.map Prod.fst).Nodup) : sortByKey le as = sortByKey le bs ↔ as.Perm bs := by
  constructor
  · intro h
    exact (sortByKey_perm as).symm.trans (h ▸ sortByKey_perm bs)
  · intro h
    have htotal : Std.Total fun a b : String × α => le a.1 b.1 = true :=
      ⟨fun a b => horder.total a.1 b.1⟩
    have htrans : IsTrans (String × α) fun a b => le a.1 b.1 = true :=
      ⟨fun a b c => horder.trans a.1 b.1 c.1⟩
    refine List.Perm.eq_of_pairwise ?_ (pairwise_insertionSort _ as)
      (pairwise_insertionSort _ bs) ((sortByKey_perm as).trans (h.trans (sortByKey_perm bs).symm))
    intro a b ha hb hab hba
    have hmem : b ∈ as := h.mem_iff.2 ((sortByKey_perm bs).mem_iff.1 hb)
    exact inj_on_of_nodup_map has ((sortByKey_perm as).mem_iff.1 ha) hmem
      (horder.antisymm _ _ hab hba)

/-! ## Equal values have one form -/

variable {sameNumber : String → String → Bool} {members : List (String × Json)} {value : Json}

lemma equalItems_iff {as bs : List Json} : equalItems sameNumber as bs = true ↔
      List.Forall₂ (fun a b => equal sameNumber a b = true) as bs := by
  induction as generalizing bs with
  | nil => cases bs <;> simp [equalItems]
  | cons a as ih => cases bs <;> simp [equalItems, ih]

lemma equalMembers_iff {as bs : List (String × Json)} : equalMembers sameNumber as bs = true ↔
      ∀ a ∈ as, ∃ b, bs.lookup a.1 = some b ∧ equal sameNumber a.2 b = true := by
  induction as with
  | nil => simp [equalMembers]
  | cons a as ih =>
    obtain ⟨key, value⟩ := a
    rw [equalMembers, Bool.and_eq_true, ih, forall_mem_cons, equalMember]
    cases bs.lookup key <;> simp

lemma mem_of_lookup {key : String} (h : members.lookup key = some value) :
    (key, value) ∈ members := by
  obtain ⟨_, _, heq, _⟩ := lookup_eq_some_iff.1 h
  rw [heq]
  exact mem_append_right _ mem_cons_self

variable (le) in
/-- The members of equal objects, sorted inside, are permutations of each other. -/
lemma equalObject_iff {as bs : List (String × Json)} (has : (as.map Prod.fst).Nodup)
    (hbs : (bs.map Prod.fst).Nodup) (hvalues : ∀ a ∈ as, ∀ b ∈ bs,
      equal sameNumber a.2 b.2 = true ↔ sortKeys le a.2 = sortKeys le b.2) :
    (as.length = bs.length ∧ equalMembers sameNumber as bs = true) ↔
      (sortMembers le as).Perm (sortMembers le bs) := by
  have hnodup : (sortMembers le as).Nodup :=
    List.Nodup.of_map Prod.fst (by rwa [keys_sortMembers])
  rw [equalMembers_iff]
  simp only [sortMembers_eq] at hnodup ⊢
  constructor
  · rintro ⟨hlength, hmembers⟩
    refine (subperm_of_subset hnodup fun m hm => ?_).perm_of_length_le (by simp [hlength])
    obtain ⟨a, ha, rfl⟩ := mem_map.1 hm
    obtain ⟨b, hb, hequal⟩ := hmembers a ha
    have hmem := mem_of_lookup hb
    exact mem_map.2 ⟨(a.1, b), hmem, by rw [(hvalues a ha _ hmem).1 hequal]⟩
  · intro hperm
    refine ⟨by simpa using hperm.length_eq, fun a ha => ?_⟩
    obtain ⟨b, hb, heq⟩ := mem_map.1 (hperm.mem_iff.1 (mem_map_of_mem ha))
    obtain ⟨hkey, hvalue⟩ := Prod.mk.inj heq
    exact ⟨b.2, hkey ▸ lookup_of_mem hbs hb, (hvalues a ha b hb).2 hvalue.symm⟩

/-- Values that are written differently have different forms. -/
lemma equal_iff_sortKeys (horder : KeyOrder le) {a b : Json} (ha : wf a = true) (hb : wf b = true) :
    equal (· == ·) a b = true ↔ sortKeys le a = sortKeys le b := by
  induction a generalizing b with
  | array as ih =>
    cases b with
    | array bs =>
      have has := wf_array.1 ha
      have hbs := wf_array.1 hb
      rw [equal, equalItems_iff, sortKeys, sortKeys, array.injEq, sortItems_eq, sortItems_eq,
        ← forall₂_eq_eq_eq, forall₂_map_left_iff, forall₂_map_right_iff]
      clear ha hb
      induction as generalizing bs with
      | nil => simp
      | cons a as ihas =>
        cases bs with
        | nil => simp
        | cons b bs =>
          rw [forall_mem_cons] at ih has hbs
          rw [forall₂_cons, forall₂_cons]
          exact and_congr (ih.1 has.1 hbs.1) (ihas ih.2 _ has.2 hbs.2)
    | _ => simp [equal, sortKeys]
  | object as ih =>
    cases b with
    | object bs =>
      rw [wf_object] at ha hb
      rw [equal, Bool.and_eq_true, beq_iff_eq, equalObject_iff le ha.2 hb.2 fun a hmem b hmem' =>
          ih a hmem (ha.1 a hmem) (hb.1 b hmem'), sortKeys, sortKeys, object.injEq,
        sortByKey_eq_iff horder (by rw [keys_sortMembers]; exact ha.2)]
    | _ => simp [equal, sortKeys]
  | _ => cases b <;> simp [equal, sortKeys]

/-! ## The form as text -/

lemma mem_sortMembers {member : String × Json} : member ∈ sortByKey le (sortMembers le members) ↔
      ∃ m ∈ members, (m.1, sortKeys le m.2) = member := by
  rw [(sortByKey_perm _).mem_iff, sortMembers_eq, mem_map]

lemma depth_sortKeys {n : ℕ} : depth (sortKeys le value) ≤ n ↔ depth value ≤ n := by
  induction n generalizing value with
  | zero => cases value <;> simp [sortKeys, depth]
  | succ n ih =>
    cases value with
    | array items =>
      simp only [sortKeys, depth, Nat.add_le_add_iff_right, depthItems_le, sortItems_eq,
        forall_mem_map, ih]
    | object members =>
      simp only [sortKeys, depth, Nat.add_le_add_iff_right, depthMembers_le, mem_sortMembers]
      constructor
      · exact fun h member hmember => ih.1 (h _ ⟨member, hmember, rfl⟩)
      · rintro h _ ⟨member, hmember, rfl⟩
        exact ih.2 (h member hmember)
    | _ => rfl

lemma wf_sortKeys (hwf : wf value = true) : wf (sortKeys le value) = true := by
  induction value with
  | array items ih =>
    rw [wf_array] at hwf
    rw [sortKeys, wf_array, sortItems_eq, forall_mem_map]
    exact fun item hitem => ih item hitem (hwf item hitem)
  | object members ih =>
    rw [wf_object] at hwf
    rw [sortKeys, wf_object]
    refine ⟨fun member hmember => ?_, ?_⟩
    · obtain ⟨m, hm, rfl⟩ := mem_sortMembers.1 hmember
      exact ih m hm (hwf.1 m hm)
    · rw [((sortByKey_perm (sortMembers le members)).map Prod.fst).nodup_iff, keys_sortMembers]
      exact hwf.2
  | _ => exact hwf

/-- The form of a form is itself. -/
lemma sortKeys_sortKeys (horder : KeyOrder le) (hwf : wf value = true) :
    sortKeys le (sortKeys le value) = sortKeys le value := by
  induction value with
  | array items ih =>
    rw [wf_array] at hwf
    rw [sortKeys, sortKeys, array.injEq, sortItems_eq, sortItems_eq, map_map]
    exact map_congr_left fun item hitem => ih item hitem (hwf item hitem)
  | object members ih =>
    rw [wf_object] at hwf
    have hinner : sortMembers le (sortMembers le members) = sortMembers le members := by
      simp only [sortMembers_eq, map_map]
      refine map_congr_left fun member hmember => ?_
      exact congrArg (member.1, ·) (ih member hmember (hwf.1 member hmember))
    have hperm : (sortMembers le (sortByKey le (sortMembers le members))).Perm
        (sortMembers le members) := by
      rw [sortMembers_eq (sortByKey le _)]
      conv_rhs => rw [← hinner, sortMembers_eq (sortMembers le members)]
      exact (sortByKey_perm _).map _
    rw [sortKeys, sortKeys, object.injEq]
    refine (sortByKey_eq_iff horder ?_).2 hperm
    rw [(hperm.map Prod.fst).nodup_iff, keys_sortMembers]
    exact hwf.2
  | _ => rfl

variable (le) in
/-- The text of the form is read back as the form. -/
lemma read_text_sortKeys (hwf : wf value = true) (nesting : ℕ) :
    read nesting (text (sortKeys le value)) =
      if depth value ≤ nesting then some (sortKeys le value) else none := by
  rw [read_text (wf_sortKeys hwf)]
  exact if_congr depth_sortKeys rfl rfl

/-- Equal values and only they are written the same. -/
lemma text_sortKeys_inj (horder : KeyOrder le) {a b : Json} (ha : wf a = true) (hb : wf b = true) :
    text (sortKeys le a) = text (sortKeys le b) ↔ equal (· == ·) a b = true := by
  rw [equal_iff_sortKeys horder ha hb]
  refine ⟨fun h => ?_, fun h => h ▸ rfl⟩
  have hread := read_text_sortKeys le ha (max (depth a) (depth b))
  rw [h, read_text_sortKeys le hb, if_pos (le_max_left _ _), if_pos (le_max_right _ _)] at hread
  exact (Option.some.inj hread).symm

end Order

end SolarisMesh.Lib.Json
