import SolarisMesh.Lib.Names
import SolarisMesh.Types.Runtime

/-!
# Keys of child agents

A child agent is known by the run, its parent, its role and its task; the operation that spawned
it does not count. The key is written as one text with the length before each part, and the id of
the agent is the digest of that text. SHA-256 as it is printed is a parameter.
-/

namespace SolarisMesh.Types

open Lib

structure ChildAgentKey where
  runId : RunId
  parentAgentId : AgentId
  roleKey : String
  stableTaskKey : String
  spawnOperationId : OperationId

namespace ChildAgentKey

/-- The fields `eq` compares, in the order they are written. -/
def logicalParts (key : ChildAgentKey) : List String :=
  [key.runId, key.parentAgentId, key.roleKey, key.stableTaskKey]

/-- `==` of the source. -/
instance : BEq ChildAgentKey where
  beq a b := a.runId == b.runId && a.parentAgentId == b.parentAgentId &&
    a.roleKey == b.roleKey && a.stableTaskKey == b.stableTaskKey

def stableString (key : ChildAgentKey) : String :=
  key.logicalParts.foldl
    (fun encoded value => encoded ++ ":" ++ toString value.utf8ByteSize ++ ":" ++ value) "v2"

def stableDigest (sha256Hex : ByteArray → String) (key : ChildAgentKey) : String :=
  sha256Hex key.stableString.toUTF8

def agentId (sha256Hex : ByteArray → String) (key : ChildAgentKey) : AgentId :=
  "child:v2:" ++ key.stableDigest sha256Hex

lemma toList_stableString (key : ChildAgentKey) :
    key.stableString.toList = 'v' :: '2' :: key.logicalParts.flatMap Names.lengthPrefixed := by
  have hparts (values : List String) (encoded : String) :
      (values.foldl (fun encoded value =>
        encoded ++ ":" ++ toString value.utf8ByteSize ++ ":" ++ value) encoded).toList =
          encoded.toList ++ values.flatMap Names.lengthPrefixed := by
    induction values generalizing encoded with
    | nil => simp
    | cons value values ih =>
      rw [List.foldl_cons, ih]
      simp [Names.lengthPrefixed]
  exact hparts _ _

lemma beq_iff_logicalParts {a b : ChildAgentKey} :
    (a == b) = true ↔ a.logicalParts = b.logicalParts := by
  simp [BEq.beq, logicalParts, and_assoc]

/-- Two keys are written alike exactly if they are of one logical child, and agents with one id
are one child where the digest tells the two texts apart. -/
theorem stableString_eq_iff (a b : ChildAgentKey) :
    (a.stableString = b.stableString ↔ (a == b) = true) ∧
      ∀ sha256Hex : ByteArray → String,
        (sha256Hex a.stableString.toUTF8 = sha256Hex b.stableString.toUTF8 →
          a.stableString.toUTF8 = b.stableString.toUTF8) →
        a.agentId sha256Hex = b.agentId sha256Hex → (a == b) = true := by
  have hiff : a.stableString = b.stableString ↔ (a == b) = true := by
    rw [beq_iff_logicalParts, ← String.toList_inj, toList_stableString, toList_stableString]
    constructor
    · intro h
      exact Names.flatMap_lengthPrefixed_inj (List.cons.inj (List.cons.inj h).2).2
    · intro h
      rw [h]
  refine ⟨hiff, fun sha256Hex hinjective hids => hiff.1 ?_⟩
  exact String.toByteArray_inj.1 (hinjective ((String.append_right_inj _).1 hids))

/-- A child that is spawned by another operation has the same id under any digest. -/
theorem stableString_eq_respawned :
    let child (operation : String) : ChildAgentKey := ⟨"run", "root", "1:a", "task", operation⟩
    (child "first").agentId (fun _ => "digest") = (child "second").agentId (fun _ => "digest") ∧
      (child "first" == child "second") = true :=
  ⟨rfl, (stableString_eq_iff _ _).2 (fun _ => "digest") (fun _ => rfl) rfl⟩

end ChildAgentKey

end SolarisMesh.Types
