import SolarisMesh.Lib.Names
import Mathlib.Data.List.Infix

/-!
# SQL patterns

The `LIKE … ESCAPE` operator of SQL as SQLite documents it: `%` stands for any text, `_` for any
character, an escaped character for itself, and letters of ASCII match in either case. A text can
be quoted so that it matches itself, but only up to the case of its letters.
-/

namespace SolarisMesh.Lib.Like

open List

/-- A letter of ASCII in lower case, any other character as it is. -/
def foldCase (c : Char) : Char := c.toLower

inductive Token where
  | text
  | one
  | char (c : Char)
deriving DecidableEq, Repr

/-- The tokens of a pattern; nothing if the escape character stands at its end. -/
def tokens (escape : Char) : List Char → Option (List Token)
  | [] => some []
  | c :: rest =>
    if c = escape then
      match rest with
      | [] => none
      | d :: rest => (tokens escape rest).map (.char d :: ·)
    else if c = '%' then (tokens escape rest).map (.text :: ·)
    else if c = '_' then (tokens escape rest).map (.one :: ·)
    else (tokens escape rest).map (.char c :: ·)

def matchTokens : List Token → List Char → Bool
  | [], value => value.isEmpty
  | .text :: pattern, value => value.tails.any (matchTokens pattern ·)
  | .one :: pattern, value =>
    match value with
    | [] => false
    | _ :: rest => matchTokens pattern rest
  | .char c :: pattern, value =>
    match value with
    | [] => false
    | d :: rest => foldCase c = foldCase d && matchTokens pattern rest

/-- `value LIKE pattern ESCAPE escape`; a pattern that ends in the escape matches nothing. -/
def like (escape : Char) (pattern value : List Char) : Bool :=
  match tokens escape pattern with
  | some tokens => matchTokens tokens value
  | none => false

/-- Every `c` with the escape character before it. -/
def escapeChar (escape c : Char) (value : List Char) : List Char :=
  value.flatMap fun d => if d = c then [escape, d] else [d]

/-! ## Quoted texts -/

/-- All that means something in a pattern with the escape character before it. -/
def quote (escape : Char) (value : List Char) : List Char :=
  value.flatMap fun d => if d = escape ∨ d = '%' ∨ d = '_' then [escape, d] else [d]

/-- Quoting in three passes, the escape character first. -/
lemma escapeChar_passes {escape : Char} (hpercent : escape ≠ '%') (hline : escape ≠ '_')
    (value : List Char) :
    escapeChar escape '_' (escapeChar escape '%' (escapeChar escape escape value)) =
      quote escape value := by
  unfold escapeChar quote
  rw [flatMap_assoc, flatMap_assoc]
  refine flatMap_congr fun d _ => ?_
  by_cases hescape : d = escape
  · subst hescape
    simp [hpercent, hline]
  · by_cases hp : d = '%'
    · subst hp
      simp [hescape, hline]
    · by_cases hl : d = '_'
      · subst hl
        simp [hescape]
      · simp [hescape, hp, hl]

lemma tokens_escaped (escape d : Char) (rest : List Char) :
    tokens escape (escape :: d :: rest) = (tokens escape rest).map (.char d :: ·) := by
  simp [tokens]

lemma tokens_plain {escape c : Char} (hplain : ¬(c = escape ∨ c = '%' ∨ c = '_'))
    (rest : List Char) :
    tokens escape (c :: rest) = (tokens escape rest).map (.char c :: ·) := by
  obtain ⟨hescape, hp, hl⟩ := not_or.1 hplain |>.imp_right not_or.1
  cases rest <;> simp [tokens, hescape, hp, hl]

lemma tokens_quote (escape : Char) (value rest : List Char) :
    tokens escape (quote escape value ++ rest) =
      (tokens escape rest).map (value.map .char ++ ·) := by
  induction value with
  | nil => simp [quote]
  | cons d value ih =>
    have hquote : quote escape (d :: value) =
        (if d = escape ∨ d = '%' ∨ d = '_' then [escape, d] else [d]) ++ quote escape value := rfl
    rw [hquote, append_assoc]
    split
    · rw [cons_append, singleton_append, tokens_escaped, ih, Option.map_map]
      rfl
    · next hplain =>
      rw [singleton_append, tokens_plain hplain, ih, Option.map_map]
      rfl

lemma matchTokens_chars (value : List Char) (pattern : List Token) (text : List Char) :
    matchTokens (value.map .char ++ pattern) text = true ↔
      ∃ before after, text = before ++ after ∧ before.map foldCase = value.map foldCase ∧
        matchTokens pattern after = true := by
  induction value generalizing text with
  | nil =>
    constructor
    · intro h
      exact ⟨[], text, rfl, rfl, h⟩
    · rintro ⟨before, after, rfl, hbefore, h⟩
      obtain rfl := map_eq_nil_iff.1 hbefore
      exact h
  | cons c value ih =>
    cases text with
    | nil =>
      constructor
      · intro h
        cases h
      · rintro ⟨before, after, htext, hbefore, -⟩
        obtain ⟨rfl, -⟩ := append_eq_nil_iff.1 htext.symm
        cases hbefore
    | cons d text =>
      rw [map_cons, cons_append, matchTokens, Bool.and_eq_true, decide_eq_true_eq, ih]
      constructor
      · rintro ⟨hsame, before, after, rfl, hbefore, h⟩
        exact ⟨d :: before, after, rfl, by rw [map_cons, map_cons, hsame, hbefore], h⟩
      · rintro ⟨before, after, htext, hbefore, h⟩
        cases before with
        | nil => cases hbefore
        | cons b before =>
          obtain ⟨rfl, rfl⟩ := List.cons.inj htext
          obtain ⟨hsame, hrest⟩ := List.cons.inj hbefore
          exact ⟨hsame.symm, before, after, rfl, hrest, h⟩

lemma matchTokens_text (text : List Char) : matchTokens [.text] text = true :=
  any_eq_true.2 ⟨[], (mem_tails _ _).2 (nil_suffix), rfl⟩

/-- A quoted text with `%` after it matches what begins with the text, in any case. -/
lemma like_quote_iff (escape : Char) (hpercent : escape ≠ '%')
    (value text : List Char) : like escape (quote escape value ++ ['%']) text = true ↔
      ∃ before, before <+: text ∧ before.map foldCase = value.map foldCase := by
  have htokens : tokens escape ['%'] = some [.text] := by
    rw [tokens, if_neg hpercent.symm, if_pos rfl]
    rfl
  rw [like, tokens_quote, htokens, Option.map_some]
  refine (matchTokens_chars value [.text] text).trans ⟨?_, ?_⟩
  · rintro ⟨before, after, rfl, hbefore, -⟩
    exact ⟨before, prefix_append _ _, hbefore⟩
  · rintro ⟨before, ⟨after, rfl⟩, hbefore⟩
    exact ⟨before, after, rfl, hbefore, matchTokens_text after⟩

end SolarisMesh.Lib.Like
