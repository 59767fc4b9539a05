import SolarisMesh.Lib.JsonReader

/-!
# Cut JSON texts

What a reader takes off a text it also takes off every longer text, unless the text ends right
behind a number. So the text of an object that is cut anywhere is not a text of its own.
-/

namespace SolarisMesh.Lib.Json

open List
open Option (bind_eq_some_iff bind_some map_eq_some_iff)

variable {α : Type}

/-- Also before more text, the same is read. -/
def Goes (item : Reader α) (item' : Reader α) : Prop :=
  ∀ ⦃text value rest⦄, item text = some (value, rest) →
    ∀ more, item' (text ++ more) = some (value, rest ++ more)

/-- The same, if the text does not end there. -/
def GoesInside (item : Reader α) : Prop :=
  ∀ ⦃text value rest⦄, item text = some (value, rest) → rest ≠ [] →
    ∀ more, item (text ++ more) = some (value, rest ++ more)

lemma skipBlanks_append {text rest : List Char} {c : Char} (h : skipBlanks text = c :: rest)
    (more : List Char) : skipBlanks (text ++ more) = c :: (rest ++ more) := by
  rw [skipBlanks, dropWhile_append]
  rw [skipBlanks] at h
  rw [h]
  rfl

/-! ## Strings, numbers and words -/

lemma readHex_goes : Goes readHex readHex := by
  intro text value rest h more
  unfold readHex at h
  split at h
  · next a b c d tail =>
    simp only [bind, bind_eq_some_iff, pure, Option.some.injEq, Prod.mk.injEq] at h
    obtain ⟨a', ha, b', hb, c', hc, d', hd, rfl, rfl⟩ := h
    simp [readHex, ha, hb, hc, hd]
  · cases h

lemma readUnicode_goes : Goes readUnicode readUnicode := by
  intro text value rest h more
  simp only [readUnicode, bind, bind_eq_some_iff, Prod.exists] at h
  obtain ⟨high, tail, hhigh, h⟩ := h
  simp only [readUnicode, readHex_goes hhigh more, bind, bind_some]
  split_ifs at h ⊢ with hsurrogate hlow
  · split at h
    · simp only [bind_eq_some_iff, Prod.exists] at h
      obtain ⟨low, tail', hread, h⟩ := h
      split_ifs at h with hvalid
      obtain ⟨rfl, rfl⟩ := Prod.mk.inj (Option.some.inj h)
      simp only [cons_append, readHex_goes hread more, bind_some, if_pos hvalid]
      rfl
    · cases h
  · cases h
    rfl

lemma readEscape_goes : Goes readEscape readEscape := by
  intro text value rest h more
  unfold readEscape at h
  split at h
  case h_9 => exact readUnicode_goes h more
  case h_10 => cases h
  all_goals
    cases h
    rfl

lemma readChars_goes {fuel fuel' : ℕ} (hfuel : fuel ≤ fuel') :
    Goes (readChars fuel) (readChars fuel') := by
  intro text value rest h more
  induction fuel generalizing fuel' text value rest with
  | zero => cases h
  | succ fuel ih =>
    obtain ⟨fuel', rfl⟩ : ∃ n, fuel' = n + 1 := ⟨fuel' - 1, by omega⟩
    cases text with
    | nil => cases h
    | cons c text =>
      rw [readChars] at h
      rw [cons_append, readChars]
      split_ifs at h ⊢ with hquote hescape hcontrol
      · cases h
        rfl
      · simp only [bind, bind_eq_some_iff, Prod.exists, pure, Option.some.injEq,
          Prod.mk.injEq] at h
        obtain ⟨d, tail, hread, cs, tail', hrest, rfl, rfl⟩ := h
        simp only [readEscape_goes hread more, bind, bind_some,
          ih (Nat.le_of_succ_le_succ hfuel) hrest, pure]
      · simp only [bind, bind_eq_some_iff, Prod.exists, pure, Option.some.injEq,
          Prod.mk.injEq] at h
        obtain ⟨cs, tail, hrest, rfl, rfl⟩ := h
        simp only [bind, bind_some, ih (Nat.le_of_succ_le_succ hfuel) hrest, pure]

lemma readString_goes : Goes readString readString := by
  intro text value rest h more
  simp only [readString, map_eq_some_iff, Prod.exists, Prod.mk.injEq] at h
  obtain ⟨cs, tail, hread, rfl, rfl⟩ := h
  rw [readString, readChars_goes (length_append ▸ Nat.le_add_right _ _) hread]
  rfl

lemma readNumber_goesInside : GoesInside readNumber := by
  intro text value rest h hrest more
  simp only [readNumber] at h
  split_ifs at h with hnumber
  cases h
  -- a letter follows the number, so it ends where it ended
  have hends : Ends (text.dropWhile isNumeric ++ more) := by
    intro c hc
    rw [List.head?_append_of_ne_nil _ hrest] at hc
    have := List.head?_dropWhile_not isNumeric text
    rw [Option.mem_def.1 hc] at this
    simpa using this
  have hread := readNumber_append hnumber hends
  rwa [← append_assoc, takeWhile_append_dropWhile] at hread

lemma readWord_goes : Goes readWord readWord := by
  intro text value rest h more
  unfold readWord at h
  split at h
  case h_4 => cases h
  all_goals
    cases h
    rfl

lemma readScalar_goesInside : GoesInside readScalar := by
  intro text value rest h hrest more
  cases text with
  | nil => cases h
  | cons c text =>
    rw [readScalar] at h
    rw [cons_append, readScalar]
    split_ifs at h ⊢ with hquote hnumeric
    · simp only [map_eq_some_iff, Prod.exists, Prod.mk.injEq] at h
      obtain ⟨string, tail, hread, rfl, rfl⟩ := h
      rw [readString_goes hread more]
      rfl
    · exact readNumber_goesInside h hrest more
    · exact readWord_goes h more

/-! ## Arrays and objects -/

section Elements

variable {item : Reader α} {close : Char} (hitem : GoesInside item)
include hitem

variable (close) in
lemma readMore_goes {fuel fuel' : ℕ} (hfuel : fuel ≤ fuel') :
    Goes (readMore item close fuel) (readMore item close fuel') := by
  intro text value rest h more
  induction fuel generalizing fuel' text value rest with
  | zero => cases h
  | succ fuel ih =>
    obtain ⟨fuel', rfl⟩ : ∃ n, fuel' = n + 1 := ⟨fuel' - 1, by omega⟩
    rw [readMore] at h
    rw [readMore]
    split at h
    · cases h
    · next c tail hskip =>
      rw [skipBlanks_append hskip more]
      simp only
      split_ifs at h ⊢ with hclose hcomma
      · cases h
        rfl
      · simp only [bind, bind_eq_some_iff, Prod.exists, pure, Option.some.injEq,
          Prod.mk.injEq] at h
        obtain ⟨first, tail', hfirst, others, tail'', hothers, rfl, rfl⟩ := h
        have hne : tail' ≠ [] := by
          rintro rfl
          cases fuel <;> cases hothers
        simp only [hitem hfirst hne more, bind, bind_some,
          ih (Nat.le_of_succ_le_succ hfuel) hothers, pure]

lemma readElements_goes : Goes (readElements item close) (readElements item close) := by
  intro text value rest h more
  rw [readElements] at h
  rw [readElements]
  split at h
  · cases h
  · next c tail hskip =>
    rw [skipBlanks_append hskip more]
    simp only
    split_ifs at h ⊢ with hclose
    · cases h
      rfl
    · simp only [bind, bind_eq_some_iff, Prod.exists, pure, Option.some.injEq,
        Prod.mk.injEq] at h
      obtain ⟨first, tail', hfirst, others, tail'', hothers, rfl, rfl⟩ := h
      have hne : tail' ≠ [] := by
        rintro rfl
        cases hothers
      have hmore := readMore_goes close hitem
        (length_append ▸ Nat.le_add_right tail'.length more.length) hothers more
      have hhead := hitem hfirst hne more
      rw [cons_append] at hhead
      simp only [hhead, bind, bind_some, hmore, pure]

end Elements

lemma readMember_goesInside {value : Reader Json} (hvalue : GoesInside value) :
    GoesInside (readMember value) := by
  intro text member rest h hrest more
  rw [readMember.eq_def] at h
  rw [readMember.eq_def]
  split at h
  · next tail hskip =>
    rw [skipBlanks_append hskip more]
    simp only [bind, bind_eq_some_iff, Prod.exists] at h
    obtain ⟨key, tail', hkey, h⟩ := h
    split at h
    · next tail'' hcolon =>
      simp only [bind_eq_some_iff, Prod.exists, pure, Option.some.injEq,
        Prod.mk.injEq] at h
      obtain ⟨read, tail₃, hread, rfl, rfl⟩ := h
      simp only [readString_goes hkey more, bind, bind_some,
        skipBlanks_append hcolon more, hvalue hread hrest more, pure]
    · cases h
  · cases h

lemma readValue_goesInside (nesting : ℕ) : GoesInside (readValue nesting) := by
  induction nesting with
  | zero =>
    intro text value rest h hrest more
    rw [readValue] at h ⊢
    cases hskip : skipBlanks text with
    | nil =>
      rw [hskip] at h
      cases h
    | cons c tail =>
      rw [skipBlanks_append hskip more]
      rw [hskip] at h
      exact readScalar_goesInside h hrest more
  | succ nesting ih =>
    intro text value rest h hrest more
    rw [readValue] at h ⊢
    split at h
    · cases h
    · next c tail hskip =>
      rw [skipBlanks_append hskip more]
      simp only
      split_ifs at h ⊢ with harray hobject
      · simp only [map_eq_some_iff, Prod.exists, Prod.mk.injEq] at h
        obtain ⟨items, tail', hread, rfl, rfl⟩ := h
        rw [readElements_goes ih hread more]
        rfl
      · simp only [map_eq_some_iff, Prod.exists, Prod.mk.injEq] at h
        obtain ⟨members, tail', hread, rfl, rfl⟩ := h
        rw [readElements_goes (readMember_goesInside ih) hread more]
        rfl
      · exact readScalar_goesInside h hrest more

/-- An object ends with its bracket. -/
lemma readValue_object_goes {nesting : ℕ} {text rest : List Char} {value : Json}
    (h : readValue nesting ('\x7b' :: text) = some (value, rest)) (more : List Char) :
    readValue nesting ('\x7b' :: (text ++ more)) = some (value, rest ++ more) := by
  cases nesting with
  | zero => cases h
  | succ nesting =>
    rw [readValue, skipBlanks_cons (by decide)] at h ⊢
    simp only [if_neg (show '\x7b' ≠ '[' by decide), if_true] at h ⊢
    simp only [map_eq_some_iff, Prod.exists, Prod.mk.injEq] at h
    obtain ⟨members, tail, hread, rfl, rfl⟩ := h
    rw [readElements_goes (readMember_goesInside (readValue_goesInside nesting)) hread more]
    rfl

/-- Of all beginnings of an object's text only the whole is read. -/
lemma eq_of_read_initial {members : List (String × Json)} (hwf : wf (.object members) = true)
    {nesting : ℕ} {initial more : List Char} (htext : text (.object members) = initial ++ more)
    {value : Json} (hread : read nesting initial = some value) : more = [] := by
  simp only [read, bind_eq_some_iff, Prod.exists] at hread
  obtain ⟨value', rest, hvalue, -⟩ := hread
  cases initial with
  | nil => cases nesting <;> cases hvalue
  | cons c initial =>
    obtain rfl : '\x7b' = c := (List.cons.inj htext).1
    have hwhole := readValue_object_goes hvalue more
    have hends : Ends [] := fun _ h => by cases h
    have htexts := readValue_text hwf nesting hends
    rw [append_nil, htext] at htexts
    rw [← cons_append, htexts] at hwhole
    split_ifs at hwhole
    exact (append_eq_nil_iff.1 (Prod.mk.inj (Option.some.inj hwhole)).2.symm).2

end SolarisMesh.Lib.Json
