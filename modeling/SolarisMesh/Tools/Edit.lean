import SolarisMesh.Lib.Delimited
import SolarisMesh.Tools.AtomicWrite

/-!
# Edits of a file

An edit replaces an old text by a new one. The occurrences it counts do not overlap, while a text
such as `aa` can occur at two positions of which one is counted. The new content is written over
the object that was read, while it holds the bytes that were read.
-/

namespace SolarisMesh.Tools

open List Lib Delimited

/-- The texts are their UTF-8 bytes. -/
structure EditRequest where
  filePath : String
  oldString : List UInt8
  newString : List UInt8
  replaceAll : Bool

def replacementOutputLen (contentLen oldLen newLen replacementCount : ℕ) : Option ℕ := do
  let removed ← u64CheckedMul oldLen replacementCount
  let added ← u64CheckedMul newLen replacementCount
  let kept ← u64CheckedSub contentLen removed
  u64CheckedAdd kept added

section Search

variable (old new content : List UInt8)

/-- `content.matches(old).count()`. -/
def matchCount : ℕ := (pieces old content).1.length

/-- `content.replace(old, new)`. -/
def replace : List UInt8 :=
  (pieces old content).1.flatMap (· ++ new) ++ (pieces old content).2

/-- `content.replacen(old, new, 1)`. -/
def replaceFirst : List UInt8 :=
  match cut old content with
  | none => content
  | some (before, after) => before ++ new ++ after

end Search

namespace EditRequest

variable (request : EditRequest) (content : List UInt8)

def newContentLen : Option ℕ :=
  replacementOutputLen content.length request.oldString.length request.newString.length
    (if request.replaceAll then matchCount request.oldString content else 1)

def newContent : List UInt8 :=
  if request.replaceAll then replace request.oldString request.newString content
  else replaceFirst request.oldString request.newString content

/-- What is written, and how many occurrences are counted. -/
def replacement : Except String (List UInt8 × ℕ) := do
  let count := matchCount request.oldString content
  require (count != 0) "old_string not found in file"
  require (count ≤ 1 || request.replaceAll)
    s!"Multiple matches found ({count}). Use replace_all or provide more context."
  let length ← orElseThrow "Edited content size exceeds the supported range"
    (request.newContentLen content)
  require (length ≤ 8388608) "Edited content exceeds the 8388608-byte edit limit"
  return (request.newContent content, count)

variable {ι : Type} [DecidableEq ι]

/-- `opened` is the object and its content if the file could be read and is as the last Read has
left it. The target is `target` when the write inspects it first, and others have made `last` of it
when it does so again. -/
def execute (io : Operations ι) (opened : Except String (ι × List UInt8))
    (target last : Option (Entry ι)) : Directory ι × Except String String :=
  if request.oldString.isEmpty then (⟨last, none⟩, .error "old_string must not be empty")
  else
    match opened with
    | .error error => (⟨last, none⟩, .error error)
    | .ok snapshot =>
      match request.replacement snapshot.2 with
      | .error error => (⟨last, none⟩, .error error)
      | .ok (written, count) =>
        let (directory, answer) := io.writeAtomicIfUnchanged (some snapshot) written target last
        match answer with
        | .error error => (directory, .error ("Failed to write file: " ++ error))
        | .ok _ =>
          let filePath := request.filePath
          (directory, .ok s!"Edited {filePath}: replaced {count} occurrence(s)")

end EditRequest

/-- Every occurrence is replaced that does not overlap one before it. -/
inductive Replaced (old new : List UInt8) : List UInt8 → List UInt8 → Prop
  | rest {content : List UInt8} (h : ∀ i, ¬ old <+: content.drop i) :
      Replaced old new content content
  | first {before after replaced : List UInt8}
      (h : ∀ i < before.length, ¬ old <+: (before ++ old ++ after).drop i)
      (hafter : Replaced old new after replaced) :
      Replaced old new (before ++ old ++ after) (before ++ new ++ replaced)

/-- What an edit of a snapshot does. -/
structure EditRequest.Applies {ι : Type} (request : EditRequest) (snapshot : ι × List UInt8)
    (last : Option (Entry ι)) (after : Directory ι × Except String String) : Prop where
  once : request.replaceAll = false → after.2.isOk = true → ∃ position entry,
    (∀ i, request.oldString <+: snapshot.2.drop i ↔ i = position) ∧
      after.1.target = some entry ∧
      entry.content = snapshot.2.take position ++ request.newString ++
        snapshot.2.drop (position + request.oldString.length)
  all : request.replaceAll = true → after.2.isOk = true → ∃ entry,
    after.1.target = some entry ∧
      Replaced request.oldString request.newString snapshot.2 entry.content
  length : after.2.isOk = true → ∃ entry, after.1.target = some entry ∧
    request.newContentLen snapshot.2 = some entry.content.length
  -- nothing that others have written is lost
  unchanged : after.2.isOk = true → last = some ⟨snapshot.1, true, snapshot.2⟩
  failed : after.2.isOk = false → after.1.target = last

lemma replacementOutputLen_eq_some {contentLen oldLen newLen count length : ℕ}
    (h : replacementOutputLen contentLen oldLen newLen count = some length) :
    length + oldLen * count = contentLen + newLen * count := by
  simp only [replacementOutputLen, Option.bind_eq_bind, Option.bind_eq_some_iff, u64CheckedMul,
    u64CheckedSub, Option.ite_none_right_eq_some] at h
  obtain ⟨_, ⟨-, hremoved⟩, _, ⟨-, hadded⟩, _, ⟨hle, hkept⟩, hsum⟩ := h
  cases hremoved
  cases hadded
  cases hkept
  have := u64CheckedAdd_eq_some hsum
  omega

section Search

variable {old content : List UInt8} (hold : old ≠ [])
include hold

lemma replace_spec (new content : List UInt8) :
    Replaced old new content (replace old new content) ∧
      (replace old new content).length + old.length * matchCount old content =
        content.length + new.length * matchCount old content := by
  induction content using cut_induction hold with
  | uncut content hcut =>
    rw [replace, matchCount, pieces_of_not_cut hcut]
    refine ⟨.rest fun i hi => ?_, rfl⟩
    obtain ⟨_, _, hsome, -⟩ := cut_of_prefix_drop hold hi
    rw [hcut] at hsome
    cases hsome
  | step content before after hcut ih =>
    have hsplit := cut_eq_some hcut
    rw [replace, matchCount, pieces_of_cut hold hcut, flatMap_cons, append_assoc]
    refine ⟨?_, ?_⟩
    · have hfirst : ∀ i < before.length, ¬ old <+: content.drop i := by
        intro i hi hoccurs
        obtain ⟨_, _, hsome, hle⟩ := cut_of_prefix_drop hold hoccurs
        rw [hcut] at hsome
        cases hsome
        omega
      rw [hsplit] at hfirst ⊢
      exact .first hfirst ih.1
    · have hlength := ih.2
      rw [hsplit]
      simp only [replace, matchCount, length_append, length_cons, Nat.mul_add_one] at hlength ⊢
      omega

/-- If one occurrence is counted, the others overlap it. -/
lemma cut_of_matchCount_one (hone : matchCount old content = 1) :
    ∃ before after, cut old content = some (before, after) ∧
      ∀ i, old <+: content.drop i → before.length ≤ i ∧ i < before.length + old.length := by
  cases hcut : cut old content with
  | none => simp [matchCount, pieces_of_not_cut hcut] at hone
  | some found =>
    obtain ⟨before, after⟩ := found
    refine ⟨before, after, rfl, fun i hi => ?_⟩
    obtain ⟨_, _, hsome, hle⟩ := cut_of_prefix_drop hold hi
    rw [hcut] at hsome
    cases hsome
    refine ⟨hle, not_le.1 fun hlate => ?_⟩
    rw [cut_eq_some hcut, drop_append, drop_eq_nil_of_le (by simpa using hlate), nil_append] at hi
    obtain ⟨_, _, hsome, -⟩ := cut_of_prefix_drop hold hi
    rw [matchCount, pieces_of_cut hold hcut, length_cons, pieces_of_cut hold hsome] at hone
    cases hone

end Search

namespace EditRequest

variable {request : EditRequest} {content written : List UInt8} {count : ℕ}

lemma replacement_eq_ok : request.replacement content = .ok (written, count) ↔
    count = matchCount request.oldString content ∧ count ≠ 0 ∧
      (count ≤ 1 ∨ request.replaceAll = true) ∧
      (∃ length ≤ 8388608, request.newContentLen content = some length) ∧
      written = request.newContent content := by
  simp only [replacement, bind_eq_ok, require_eq_ok, orElseThrow_eq_ok, exists_const, pure_eq_ok,
    bne_iff_ne, Bool.or_eq_true, decide_eq_true_eq, Prod.mk.injEq]
  constructor
  · rintro ⟨hcount, hmany, length, hlength, hle, rfl, rfl⟩
    exact ⟨rfl, hcount, hmany, ⟨length, hle, hlength⟩, rfl⟩
  · rintro ⟨rfl, hcount, hmany, ⟨length, hle, hlength⟩, rfl⟩
    exact ⟨hcount, hmany, length, hlength, hle, rfl, rfl⟩

section Replacement

variable (hold : request.oldString ≠ [])
include hold

/-- The first occurrence is replaced, and no other is apart from it. -/
lemma replacement_once (h : request.replacement content = .ok (written, count))
    (hone : request.replaceAll = false) :
    ∃ before after, content = before ++ request.oldString ++ after ∧
      written = before ++ request.newString ++ after ∧
      ∀ i, request.oldString <+: content.drop i →
        before.length ≤ i ∧ i < before.length + request.oldString.length := by
  obtain ⟨rfl, hcount, hmany, -, rfl⟩ := replacement_eq_ok.1 h
  have hmany := hmany.resolve_right (by rw [hone]; exact Bool.false_ne_true)
  have hcounted : matchCount request.oldString content = 1 := by omega
  obtain ⟨before, after, hcut, hnear⟩ := cut_of_matchCount_one hold hcounted
  refine ⟨before, after, cut_eq_some hcut, ?_, hnear⟩
  rw [newContent, hone, if_neg Bool.false_ne_true, replaceFirst, hcut]

lemma newContentLen_eq (h : request.replacement content = .ok (written, count)) :
    request.newContentLen content = some written.length := by
  obtain ⟨-, -, -, ⟨length, -, hlength⟩, hwritten⟩ := replacement_eq_ok.1 h
  have hsum := replacementOutputLen_eq_some hlength
  rw [hlength]
  cases hall : request.replaceAll with
  | true =>
    have hreplace := (replace_spec hold request.newString content).2
    rw [hwritten, newContent, if_pos hall]
    rw [if_pos hall] at hsum
    exact congrArg some (by omega)
  | false =>
    obtain ⟨before, after, hsplit, hwritten, -⟩ := replacement_once hold h hall
    rw [hall, if_neg Bool.false_ne_true, hsplit] at hsum
    rw [hwritten]
    simp only [length_append] at hsum ⊢
    exact congrArg some (by omega)

end Replacement

variable {ι : Type} [DecidableEq ι]

section Execute

variable (request : EditRequest) (io : Operations ι) (target last : Option (Entry ι))

lemma execute_of_replacement {snapshot : ι × List UInt8} (hold : request.oldString ≠ [])
    (h : request.replacement snapshot.2 = .ok (written, count)) :
    (request.execute io (.ok snapshot) target last).1 =
        (io.writeAtomicIfUnchanged (some snapshot) written target last).1 ∧
      (request.execute io (.ok snapshot) target last).2.isOk =
        (io.writeAtomicIfUnchanged (some snapshot) written target last).2.isOk := by
  simp only [execute, List.isEmpty_iff, if_neg hold, h]
  cases (io.writeAtomicIfUnchanged (some snapshot) written target last).2 <;> exact ⟨rfl, rfl⟩

/-- An edit writes the replacement over what was read, or fails and leaves the file. -/
lemma execute_cases (opened : Except String (ι × List UInt8)) :
    (∃ snapshot written count, request.oldString ≠ [] ∧ opened = .ok snapshot ∧
        request.replacement snapshot.2 = .ok (written, count) ∧
        (io.writeAtomicIfUnchanged (some snapshot) written target last).2 = .ok () ∧
        last = some ⟨snapshot.1, true, snapshot.2⟩ ∧
        (request.execute io opened target last).1.target = some ⟨io.temporary, true, written⟩) ∨
      (request.execute io opened target last).2.isOk = false ∧
        (request.execute io opened target last).1.target = last := by
  by_cases hold : request.oldString = []
  · simp [execute, hold, Except.isOk, Except.toBool]
  cases opened with
  | error error => simp [execute, hold, Except.isOk, Except.toBool]
  | ok snapshot =>
    cases hreplacement : request.replacement snapshot.2 with
    | error error => simp [execute, hold, hreplacement, Except.isOk, Except.toBool]
    | ok replacement =>
      obtain ⟨written, count⟩ := replacement
      obtain ⟨hdirectory, hanswer⟩ :=
        execute_of_replacement request io target last hold hreplacement
      rw [hdirectory, hanswer]
      obtain ⟨hok, htarget, hover⟩ | ⟨error, herror, htarget⟩ :=
        io.writeAtomicIfUnchanged_target (some snapshot) written target last
      · exact .inl ⟨snapshot, written, count, hold, rfl, hreplacement, hok, hover _ _ rfl, htarget⟩
      · rw [herror]
        exact .inr ⟨rfl, htarget⟩

end Execute

/-- The checks of an edit without `replace_all`, and its write. -/
structure AppliesOnce (request : EditRequest) (io : Operations ι) (snapshot : ι × List UInt8)
    (target last : Option (Entry ι)) : Prop where
  one : request.replaceAll = false
  nonempty : request.oldString ≠ []
  counted : matchCount request.oldString snapshot.2 = 1
  fits : ∃ length ≤ 8388608, request.newContentLen snapshot.2 = some length
  written : (io.writeAtomicIfUnchanged (some snapshot)
    (replaceFirst request.oldString request.newString snapshot.2) target last).2 = .ok ()

end EditRequest

open EditRequest

/-- An edit that fails an earlier check leaves the file. One of a snapshot does what it should
exactly if no two occurrences overlap where one is counted and replaced. -/
theorem edit_applies_iff {ι : Type} [DecidableEq ι] (request : EditRequest) (io : Operations ι)
    (snapshot : ι × List UInt8) (target last : Option (Entry ι)) :
    (∀ error, (request.execute io (.error error) target last).1.target = last) ∧
    (request.Applies snapshot last (request.execute io (.ok snapshot) target last) ↔
      ¬ (request.AppliesOnce io snapshot target last ∧
        ∃ i j, request.oldString <+: snapshot.2.drop i ∧ request.oldString <+: snapshot.2.drop j ∧
          i < j ∧ j < i + request.oldString.length)) := by
  refine ⟨fun error => ?_, fun happlies hoverlap => ?_, fun hapart => ?_⟩
  · unfold execute
    cases request.oldString <;> rfl
  · obtain ⟨honce, i, j, hi, hj, hlt, -⟩ := hoverlap
    have hreplacement : request.replacement snapshot.2 =
        .ok (replaceFirst request.oldString request.newString snapshot.2, 1) :=
      replacement_eq_ok.2 ⟨honce.counted.symm, Nat.one_ne_zero, .inl le_rfl, honce.fits,
        by rw [newContent, honce.one, if_neg Bool.false_ne_true]⟩
    have hok := (execute_of_replacement request io target last honce.nonempty hreplacement).2
    rw [honce.written] at hok
    obtain ⟨position, _, hposition, -⟩ := happlies.once honce.one hok
    rw [(hposition i).1 hi, (hposition j).1 hj] at hlt
    exact lt_irrefl _ hlt
  · obtain ⟨_, written, count, hold, hopened, hreplacement, hwrite, hover, htarget⟩ |
        ⟨herror, htarget⟩ := request.execute_cases io target last (.ok snapshot)
    · cases hopened
      refine ⟨fun hone _ => ?_, fun hall _ => ⟨_, htarget, ?_⟩,
        fun _ => ⟨_, htarget, newContentLen_eq hold hreplacement⟩, fun _ => hover, fun hfailed =>
          ?_⟩
      · obtain ⟨before, after, hsplit, rfl, hnear⟩ := replacement_once hold hreplacement hone
        obtain ⟨rfl, hcount, hmany, hfits, hwritten⟩ := replacement_eq_ok.1 hreplacement
        have hfound : request.oldString <+: snapshot.2.drop before.length := by
          rw [hsplit, append_assoc, drop_left]
          exact prefix_append _ _
        refine ⟨before.length, _, fun i => ⟨fun hi => ?_, fun hi => hi ▸ hfound⟩, htarget, ?_⟩
        · by_contra hne
          obtain ⟨hle, hlt⟩ := hnear i hi
          have hmany := hmany.resolve_right (by rw [hone]; exact Bool.false_ne_true)
          rw [hwritten, newContent, hone, if_neg Bool.false_ne_true] at hwrite
          exact hapart ⟨⟨hone, hold, by omega, hfits, hwrite⟩, before.length, i, hfound, hi,
            by omega, hlt⟩
        · rw [hsplit]
          simp
      · rw [(replacement_eq_ok.1 hreplacement).2.2.2.2, newContent, if_pos hall]
        exact (replace_spec hold _ _).1
      · rw [(execute_of_replacement request io target last hold hreplacement).2, hwrite] at hfailed
        cases hfailed
    · have hnot {P : Prop} (hok : (request.execute io (.ok snapshot) target last).2.isOk = true) :
          P := absurd (herror.symm.trans hok) Bool.false_ne_true
      exact ⟨fun _ => hnot, fun _ => hnot, hnot, hnot, fun _ => htarget⟩

/-- `aa` occurs twice in `aaa`, once without overlaps, and the edit is applied. -/
theorem edit_of_overlapping_occurrences :
    let opening : Opening := ⟨true, true, .ok ()⟩
    let inspection : Inspection := ⟨opening, true, true, 3, [3, 0]⟩
    let io : Operations ℕ :=
      ⟨.ok (), true, inspection, .ok (), 1, .ok (), .ok (), inspection, opening, .ok ()⟩
    let request : EditRequest := ⟨"file", [97, 97], [98], false⟩
    let file : Option (Entry ℕ) := some ⟨0, true, [97, 97, 97]⟩
    let after := request.execute io (.ok (0, [97, 97, 97])) file file
    after.1.target = some ⟨1, true, [98, 97]⟩ ∧
      after.2 = .ok "Edited file: replaced 1 occurrence(s)" ∧
      ¬ request.Applies (0, [97, 97, 97]) file after := by
  refine ⟨by decide +kernel, by decide +kernel, fun h => ?_⟩
  obtain ⟨position, _, hposition, -⟩ := h.once rfl (by decide +kernel)
  have hfirst := (hposition 0).1 (by decide)
  have hsecond := (hposition 1).1 (by decide)
  omega

end SolarisMesh.Tools
