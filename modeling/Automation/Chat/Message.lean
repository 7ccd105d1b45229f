import Automation.Failure
import Automation.Json.Decoder

/-!
Conversations with a language model: what is said to it, and what comes back piece by piece.
-/

namespace Automation

open Json (Decoder Layout)

inductive Role where
  | system
  | user
  | assistant
deriving DecidableEq

namespace Role

def names : List (String × Role) :=
  [("system", .system), ("user", .user), ("assistant", .assistant)]

def name : Role → String
  | .system => "system"
  | .user => "user"
  | .assistant => "assistant"

end Role

structure ChatMessage where
  role : Role
  content : String
deriving DecidableEq

namespace ChatMessage

def layout :=
  Layout.required "role" (.variant Role.names none) <| .required "content" Decoder.text .nil

def decoder : Decoder ChatMessage :=
  layout.decoder "ChatMessage" fun (role, content, ()) => ⟨role, content⟩

def encode (m : ChatMessage) : Value :=
  .object [("content", .string m.content), ("role", .string m.role.name)]

end ChatMessage

inductive StopReason where
  | endTurn
  | maxTokens
  | stopSequence
deriving DecidableEq

inductive Delta where
  | text (s : String)
  | stop (reason : StopReason)
  /-- How many tokens were read and written. -/
  | usage (input output : Nat)
deriving DecidableEq

/-- The text of a completion, or the failure that ends its pieces before they are complete. -/
def completionText : List (Except Failure Delta) → Except Failure String
  | [] => .ok ""
  | .error e :: _ => .error e
  | .ok (.text s) :: r => (completionText r).map (s ++ ·)
  | .ok _ :: r => completionText r

end Automation
