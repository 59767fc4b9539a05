import SolarisMesh.Ledger.Jsonl
import SolarisMesh.Lib.Delimited
import Mathlib.Data.List.DropRight

/-!
# Server-sent events

A response body is text in lines. `SseLineFramer` makes a frame of every line that carries data,
`SseBlockFramer` of every such line of a block that ends with an empty line. Both keep what is not
finished in a buffer.
-/

namespace SolarisMesh.Providers

open List Lib Delimited
open Ledger.JsonlRuntimeLedger (textLines)

inductive FrameKind where
  | data
  | done
  deriving DecidableEq, Repr

structure Frame where
  event : Option String
  data : String
  kind : FrameKind
  deriving DecidableEq, Repr

/-- What follows a lead at the start of a line. -/
def stripLead (lead : String) (line : List Char) : Option (List Char) :=
  lead.toList.isPrefixOf? line

/-- `str::trim`. -/
def trim (line : List Char) : List Char :=
  (line.dropWhile isWhitespace).rdropWhile isWhitespace

structure SseLineFramer where
  buffer : List Char

namespace SseLineFramer

def lineFrame (doneSentinel : String) (line : List Char) : Option Frame :=
  let line := trim line
  if line = [] ∨ line.head? = some ':' then none
  else
    (stripLead "data: " line).map fun data =>
      { event := none
        data := String.ofList data
        kind := if String.ofList data = doneSentinel then .done else .data }

def pushText (framer : SseLineFramer) (text : List Char) (doneSentinel : String) :
    SseLineFramer × List Frame :=
  let (lines, buffer) := pieces ['\n'] (framer.buffer ++ text)
  (⟨buffer⟩, lines.filterMap (lineFrame doneSentinel))

lemma pushText_append (framer : SseLineFramer) (left right : List Char) (doneSentinel : String) :
    framer.pushText (left ++ right) doneSentinel =
      (((framer.pushText left doneSentinel).1.pushText right doneSentinel).1,
        (framer.pushText left doneSentinel).2 ++
          ((framer.pushText left doneSentinel).1.pushText right doneSentinel).2) := by
  simp only [pushText, ← append_assoc]
  rw [pieces_append (by decide)]
  simp only [filterMap_append]

end SseLineFramer

structure SseBlockFramer where
  buffer : List Char
  currentEventType : Option String

namespace SseBlockFramer

def lineFrames (currentEventType : Option String) (line : List Char) :
    Option String × List Frame :=
  let line := if line.getLast? = some '\r' then line.dropLast else line
  match stripLead "event: " line with
  | some eventType => (some (String.ofList eventType), [])
  | none =>
    match stripLead "data: " line with
    | some data => (currentEventType, [⟨currentEventType, String.ofList data, .data⟩])
    | none => (currentEventType, [])

def blockFrames (currentEventType : Option String) (block : List Char) :
    Option String × List Frame :=
  gather lineFrames currentEventType (textLines block)

def pushText (framer : SseBlockFramer) (text : List Char) : SseBlockFramer × List Frame :=
  let (blocks, buffer) := pieces ['\n', '\n'] (framer.buffer ++ text)
  let (currentEventType, frames) := gather blockFrames framer.currentEventType blocks
  (⟨buffer, currentEventType⟩, frames)

lemma pushText_append (framer : SseBlockFramer) (left right : List Char) :
    framer.pushText (left ++ right) =
      (((framer.pushText left).1.pushText right).1,
        (framer.pushText left).2 ++ ((framer.pushText left).1.pushText right).2) := by
  simp only [pushText, ← append_assoc]
  rw [pieces_append (by decide)]
  simp only [gather_append]

end SseBlockFramer

/-! ## Line ends -/

/-- The text with every line feed after a carriage return. -/
def crlf (text : List Char) : List Char :=
  text.flatMap fun c => if c = '\n' then ['\r', '\n'] else [c]

lemma crlf_cons (c : Char) (text : List Char) :
    crlf (c :: text) = (if c = '\n' then ['\r', '\n'] else [c]) ++ crlf text := rfl

lemma cut_crlf (text : List Char) :
    cut ['\n'] (crlf text) =
      (cut ['\n'] text).map fun (line, rest) => (line ++ ['\r'], crlf rest) := by
  induction text with
  | nil => rfl
  | cons c text ih =>
    rw [crlf_cons]
    by_cases hc : c = '\n'
    · subst hc
      rfl
    · rw [if_neg hc, singleton_append, cut, cut, ih]
      simp [Ne.symm hc, Function.comp_def]

/-- A block never ends: between two line feeds stands a carriage return. -/
lemma cut_block_crlf (text : List Char) : cut ['\n', '\n'] (crlf text) = none := by
  induction text with
  | nil => rfl
  | cons c text ih =>
    rw [crlf_cons]
    by_cases hc : c = '\n'
    · have hhead : (crlf text).head? ≠ some '\n' := by
        cases text with
        | nil => simp [crlf]
        | cons d text =>
          rw [crlf_cons]
          split <;> simp_all
      have hapart : ¬ ['\n', '\n'].isPrefixOf ('\n' :: crlf text) = true := by
        intro hstart
        cases htext : crlf text with
        | nil => simp [htext] at hstart
        | cons d rest =>
          have hd : '\n' = d := by simpa [htext] using hstart
          exact hhead (by rw [htext, ← hd]; rfl)
      rw [if_pos hc, cons_append, cut, if_neg (by simp), cons_append,
        nil_append, cut, if_neg hapart, ih]
      rfl
    · simp [if_neg hc, cut, ih, Ne.symm hc]

lemma lineFrame_concat_return (doneSentinel : String) (line : List Char) :
    SseLineFramer.lineFrame doneSentinel (line ++ ['\r']) =
      SseLineFramer.lineFrame doneSentinel line := by
  have htrim : trim (line ++ ['\r']) = trim line := by
    unfold trim
    rw [dropWhile_append]
    split
    · next hempty =>
      rw [isEmpty_iff.1 hempty]
      rfl
    · exact rdropWhile_concat_pos _ _ _ (by decide)
  rw [SseLineFramer.lineFrame, SseLineFramer.lineFrame, htrim]

lemma pieces_crlf (text : List Char) :
    (pieces ['\n'] (crlf text)).1 =
      (pieces ['\n'] text).1.map (· ++ ['\r']) := by
  obtain ⟨n, hn⟩ : ∃ n, text.length = n := ⟨_, rfl⟩
  induction n using Nat.strongRecOn generalizing text with
  | ind n ih =>
    have hcrlf := cut_crlf text
    cases hcut : cut ['\n'] text with
    | none =>
      rw [hcut] at hcrlf
      rw [pieces_of_not_cut hcut, pieces_of_not_cut hcrlf]
      rfl
    | some found =>
      rw [hcut] at hcrlf
      rw [pieces_of_cut (by decide) hcut, pieces_of_cut (by decide) hcrlf,
        ih _ (hn ▸ length_of_cut (by decide) hcut) found.2 rfl]
      rfl

/-! ## Data in blocks that end -/

/-- No line of data has an empty line after it. -/
def NoDataEnds (body : List Char) : Prop :=
  (Lines.split '\n' body).1.Pairwise fun line later => "data: ".toList <+: line → later ≠ []

lemma prefix_dropReturn {lead : List Char} (hlead : '\r' ∉ lead) (line : List Char) :
    lead <+: (if line.getLast? = some '\r' then line.dropLast else line) ↔ lead <+: line := by
  split_ifs with hlast
  · rw [← dropLast_append_getLast? _ hlast, dropLast_concat, prefix_concat_iff]
    refine ⟨.inr, Or.rec (fun heq => ?_) id⟩
    simp [heq] at hlead
  · rfl

lemma lineFrames_eq_nil (currentEventType : Option String) (line : List Char) :
    (SseBlockFramer.lineFrames currentEventType line).2 = [] ↔ ¬ "data: ".toList <+: line := by
  rw [← prefix_dropReturn (by decide) line]
  unfold SseBlockFramer.lineFrames stripLead
  dsimp only
  generalize (if line.getLast? = some '\r' then line.dropLast else line) = line
  split
  · next hevent => simp [← isPrefixOf?_eq_some_iff_append_eq.1 hevent]
  · split
    · next hdata => simp [← isPrefixOf?_eq_some_iff_append_eq.1 hdata]
    · next hdata =>
      rw [← isPrefixOf_iff_prefix, ← isSome_isPrefixOf?_eq_isPrefixOf, hdata]
      simp

lemma blockFrames_eq_nil (currentEventType : Option String) (block : List Char) :
    (SseBlockFramer.blockFrames currentEventType block).2 = [] ↔
      ∀ line ∈ (Lines.split '\n' block).1 ++ [(Lines.split '\n' block).2],
        ¬ "data: ".toList <+: line := by
  have hlead : '\r' ∉ "data: ".toList := by decide
  rw [SseBlockFramer.blockFrames, gather_eq_nil lineFrames_eq_nil, textLines]
  simp only [forall_mem_append, forall_mem_map, prefix_dropReturn hlead]
  refine and_congr .rfl ?_
  split_ifs with htail <;> simp [htail]

/-- Without two line feeds in a row only the first line can be empty. -/
lemma empty_line_first {body : List Char} (hcut : cut ['\n', '\n'] body = none) :
    [] ∉ (Lines.split '\n' body).1.tail := by
  induction body with
  | nil => exact not_mem_nil
  | cons c rest ih =>
    obtain ⟨hstart, hrest⟩ : ¬ ['\n', '\n'] <+: c :: rest ∧ cut ['\n', '\n'] rest = none := by
      rw [cut] at hcut
      split_ifs at hcut with hstart
      exact ⟨fun h => hstart (List.isPrefixOf_iff_prefix.2 h), Option.map_eq_none_iff.1 hcut⟩
    specialize ih hrest
    have htext := Lines.join_split '\n' rest
    rw [Lines.split]
    generalize Lines.split '\n' rest = parts at ih htext ⊢
    obtain ⟨lines, tail⟩ := parts
    by_cases hc : c = '\n'
    · subst hc
      rw [Lines.extend_sep, tail_cons]
      rintro hmem
      cases lines with
      | nil => cases hmem
      | cons line lines =>
        obtain rfl | hmem := mem_cons.1 hmem
        · exact hstart ⟨_, by rw [← htext, Lines.join_cons]; rfl⟩
        · exact ih hmem
    · cases lines with
      | nil => rw [Lines.extend_tail hc]; exact not_mem_nil
      | cons line lines => rwa [Lines.extend_line hc]

lemma frames_eq_nil_iff (currentEventType : Option String) (body : List Char) :
    (gather SseBlockFramer.blockFrames currentEventType (pieces ['\n', '\n'] body).1).2 = [] ↔
      NoDataEnds body := by
  rw [gather_eq_nil blockFrames_eq_nil]
  have hdelimiter : ['\n', '\n'] ≠ [] := by decide
  induction body using cut_induction hdelimiter with
  | uncut body hcut =>
    rw [pieces_of_not_cut hcut]
    refine iff_of_true (forall_mem_nil _) ?_
    have hempty := empty_line_first hcut
    rw [NoDataEnds]
    generalize (Lines.split '\n' body).1 = lines at hempty ⊢
    cases lines with
    | nil => exact .nil
    | cons line lines =>
      have hlater {later} (hmem : later ∈ lines) : later ≠ [] := fun heq => hempty (heq ▸ hmem)
      exact pairwise_cons.2 ⟨fun _ hmem _ => hlater hmem,
        pairwise_of_forall_mem_list fun _ _ _ hmem _ => hlater hmem⟩
  | step body block rest hcut ih =>
    have hlines : (Lines.split '\n' body).1 = ((Lines.split '\n' block).1 ++
        [(Lines.split '\n' block).2]) ++ [] :: (Lines.split '\n' rest).1 := by
      have hline := Lines.split_append_line block ('\n' :: rest) (not_mem_nil (a := '\n'))
      rw [cut_eq_some hcut, append_assoc]
      simpa [Lines.split] using congrArg Prod.fst hline
    rw [pieces_of_cut hdelimiter hcut, NoDataEnds, hlines, pairwise_append, pairwise_cons]
    refine (forall_mem_cons.trans (and_congr .rfl ih)).trans ⟨?_, ?_⟩
    · rintro ⟨hblock, hrest⟩
      have hblock' {line} (hline) {later : List Char} : _ → later ≠ [] :=
        fun h => absurd h (hblock line hline)
      exact ⟨pairwise_of_forall_mem_list fun _ hline _ _ => hblock' hline,
        ⟨fun _ _ h => absurd h (by decide), hrest⟩, fun _ hline _ _ => hblock' hline⟩
    · rintro ⟨-, ⟨-, hrest⟩, hapart⟩
      exact ⟨fun line hline h => hapart line hline [] mem_cons_self h rfl, hrest⟩

/-! ## Both framers -/

/-- With line feeds after carriage returns the frames of lines stay as they are. The block framer
makes none of such a text, so it makes the same frames only of a text where no data ends. -/
theorem frames_crlf_iff (body : List Char) (doneSentinel : String) :
    ((⟨[]⟩ : SseLineFramer).pushText (crlf body) doneSentinel).2 =
        ((⟨[]⟩ : SseLineFramer).pushText body doneSentinel).2 ∧
      ((⟨[], none⟩ : SseBlockFramer).pushText (crlf body)).2 = [] ∧
      (((⟨[], none⟩ : SseBlockFramer).pushText (crlf body)).2 =
          ((⟨[], none⟩ : SseBlockFramer).pushText body).2 ↔
        NoDataEnds body) := by
  have hnone : ((⟨[], none⟩ : SseBlockFramer).pushText (crlf body)).2 = [] := by
    simp only [SseBlockFramer.pushText, nil_append,
      pieces_of_not_cut (cut_block_crlf body), gather]
  refine ⟨?_, hnone, ?_⟩
  · simp only [SseLineFramer.pushText, nil_append, pieces_crlf, filterMap_map]
    exact congrArg (List.filterMap · _) (funext (lineFrame_concat_return doneSentinel))
  · rw [hnone, eq_comm, SseBlockFramer.pushText, nil_append]
    exact frames_eq_nil_iff none body

/-- An event with its empty line. -/
theorem event_lost_in_crlf :
    ((⟨[], none⟩ : SseBlockFramer).pushText "data: x\n\n".toList).2 = [⟨none, "x", .data⟩] ∧
      ((⟨[], none⟩ : SseBlockFramer).pushText (crlf "data: x\n\n".toList)).2 = [] := by
  decide +kernel

end SolarisMesh.Providers
