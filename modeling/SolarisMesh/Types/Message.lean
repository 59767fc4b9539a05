import SolarisMesh.Lib.Json

/-!
# Messages

A conversation is a list of messages, and a message a list of content blocks.
-/

namespace SolarisMesh.Types

open Lib

inductive Role where
  | user
  | assistant
  | system
  | tool
  deriving DecidableEq, Repr

inductive ContentBlock where
  | text (text : String)
  | toolUse (id name : String) (input : Json) (extra : Option Json)
  | toolResult (toolUseId content : String) (isError : Bool)
  | thinking (thinking : String) (signature : Option String)
  deriving DecidableEq

structure Message where
  role : Role
  content : List ContentBlock
  providerMetadata : List (String × Json) := []
  timestamp : Option ℤ := none
  deriving DecidableEq

end SolarisMesh.Types
