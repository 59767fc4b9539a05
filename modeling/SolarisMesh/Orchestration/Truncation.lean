import SolarisMesh.Lib.Utf8Lossy

/-!
# Long tool results

A result that is too long for the conversation is cut down to its first and its last characters,
with a note between them. The limit is compared with a number of bytes, the two ends are counted in
characters.
-/

namespace SolarisMesh.Orchestration

open List Lib

/-- What `truncate_result` keeps of a text. -/
inductive Truncated where
  | whole (text : List Char)
  | cut (head : List Char) (reported : ℕ) (tail : List Char)

def Truncated.text : Truncated → List Char
  | .whole text => text
  | .cut head reported tail =>
    head ++ "\n\n... [truncated ".toList ++ (toString reported).toList ++
      " chars] ...\n\n".toList ++ tail

/-- `content.len()`. -/
def byteLength (content : List Char) : ℕ := (Utf8.encode content).length

def truncate (content : List Char) (maxChars : ℕ) : Truncated :=
  if maxChars = 0 then .whole []
  else if maxChars = 1 then .whole (content.take 1)
  else if byteLength content ≤ maxChars then .whole content
  else
    let half := maxChars / 2
    .cut (content.take half) (byteLength content - maxChars) (content.drop (content.length - half))

def truncateResult (content : List Char) (maxChars : ℕ) : List Char :=
  (truncate content maxChars).text

/-- A text within the limit stays as it is; of a longer one, two ends that do not meet are kept and
the number reported is the number of characters between them. -/
structure Truncates (content : List Char) (maxChars : ℕ) : Prop where
  short : content.length ≤ maxChars → truncateResult content maxChars = content
  long : maxChars < content.length → ∃ head reported tail,
    truncate content maxChars = .cut head reported tail ∧ head <+: content ∧ tail <:+ content ∧
      head.length + tail.length ≤ maxChars ∧
      head.length + reported + tail.length = content.length

lemma length_le_byteLength (content : List Char) : content.length ≤ byteLength content := by
  rw [← Utf8.heads_encode]
  exact countP_le_length

section

variable {content : List Char} {maxChars : ℕ} (hmax : 2 ≤ maxChars)
include hmax

/-- The number is the one of the omitted characters only if the bytes beyond one for each character
make up for an odd limit. -/
lemma truncates_of_lt_iff (h : maxChars < byteLength content) :
    Truncates content maxChars ↔
      maxChars < content.length ∧ byteLength content = content.length + maxChars % 2 := by
  have hcut : truncate content maxChars = .cut (content.take (maxChars / 2))
      (byteLength content - maxChars) (content.drop (content.length - maxChars / 2)) := by
    rw [truncate, if_neg (by omega), if_neg (by omega), if_neg (by omega)]
  have hhead := length_take (i := maxChars / 2) (l := content)
  have htail := length_drop (i := content.length - maxChars / 2) (l := content)
  constructor
  · intro htruncates
    -- a text of few characters is lengthened by the note
    have hlong : maxChars < content.length := by
      by_contra hshort
      have hsame := congrArg length (htruncates.short (by omega))
      rw [truncateResult, hcut] at hsame
      have hnote : 2 ≤ "\n\n... [truncated ".toList.length := by decide
      simp only [Truncated.text, length_append] at hsame
      omega
    obtain ⟨_, _, _, hparts, -, -, -, hreported⟩ := htruncates.long hlong
    rw [hcut] at hparts
    cases hparts
    omega
  · rintro ⟨hlong, hbytes⟩
    refine ⟨fun hshort => absurd hshort (by omega), fun _ => ?_⟩
    exact ⟨_, _, _, hcut, take_prefix _ _, drop_suffix _ _, by omega, by omega⟩

end

/-- The whole content comes back if its bytes fit. Otherwise the cut is right exactly for texts with
more characters than the limit and, all but one for an odd limit, of one byte each. -/
theorem truncate_result_iff (content : List Char) (maxChars : ℕ) (hmax : 2 ≤ maxChars) :
    Truncates content maxChars ↔
      byteLength content ≤ maxChars ∨
        maxChars < content.length ∧ byteLength content = content.length + maxChars % 2 := by
  by_cases hbytes : byteLength content ≤ maxChars
  · refine iff_of_true ⟨fun _ => ?_, fun hlong => ?_⟩ (.inl hbytes)
    · rw [truncateResult, truncate, if_neg (by omega), if_neg (by omega), if_pos hbytes]
      rfl
    · exact absurd (length_le_byteLength content) (by omega)
  · rw [truncates_of_lt_iff hmax (not_le.1 hbytes), or_iff_right hbytes]

theorem truncate_result_iff_ascii :
    2 ≤ 4 ∧ (Truncates "abcdef".toList 4 ↔ byteLength "abcdef".toList ≤ 4 ∨
      4 < "abcdef".toList.length ∧ byteLength "abcdef".toList = "abcdef".toList.length + 4 % 2) :=
  ⟨by decide, truncate_result_iff "abcdef".toList 4 (by decide)⟩

/-- Three characters of two bytes are too long for a limit of four, and of six characters cut at a
limit of five one is reported where two are missing. -/
theorem truncate_miscounts :
    ¬ Truncates "ééé".toList 4 ∧ ¬ Truncates "abcdef".toList 5 := by
  rw [truncates_of_lt_iff (by decide) (by decide), truncates_of_lt_iff (by decide) (by decide)]
  decide

end SolarisMesh.Orchestration
