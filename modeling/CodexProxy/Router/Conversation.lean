import CodexProxy.Request.Resolve

/-! The key of a conversation: an explicit header, or a digest of the conversation's
head. -/
namespace CodexProxy.Router
open Request

/-- Header names are in lower case. -/
abbrev HeaderMap := List (String × List UInt8)

/-- A header value as a text, when it has visible ASCII and tabs only. -/
def headerText (value : List UInt8) : Option String :=
  if value.all fun b => b == 9 || (0x20 ≤ b && b < 0x7f) then
    some (String.ofList (value.map fun b => Char.ofNat b.toNat))
  else none

def HEADER_NAME : String := "x-conversation-id"
def MAX_EXPLICIT_KEY_LEN : Nat := 256

/-- Characters of the Unicode category Cc. -/
def isControl (c : Char) : Bool := c.toNat < 0x20 || (0x7f ≤ c.toNat && c.toNat < 0xa0)

def validExplicitKey (s : String) : Bool :=
  s ≠ "" && s.utf8ByteSize ≤ MAX_EXPLICIT_KEY_LEN && !s.toList.any isControl

inductive KeySource where
  | explicit
  | headHash

structure ConversationKey where
  key : String
  source : KeySource

/-- The parts are length-prefixed, so that distinct heads stay distinct. -/
def headPayload (instructions firstUser : String) : String :=
  "instructions:" ++ toString instructions.utf8ByteSize ++ ":" ++ instructions ++
    "\nfirst_user:" ++ toString firstUser.utf8ByteSize ++ ":" ++ firstUser

/-- None when there is neither a usable header nor a head. -/
def resolveConversationKey (env : Environment) (headers : HeaderMap) (request : Json) :
    Option ConversationKey :=
  let explicit := (((headers.lookup HEADER_NAME).bind headerText).map Text.trim).filter
    (validExplicitKey ·)
  match explicit with
  | some v => some ⟨v, .explicit⟩
  | none =>
    let instructions := Text.trim (extractInstructions request)
    let firstUser := Text.trim (extractFirstUserText request)
    if instructions = "" ∧ firstUser = "" then none
    else some ⟨env.hashToUuid (headPayload instructions firstUser), .headHash⟩

end CodexProxy.Router
