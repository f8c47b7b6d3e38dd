import CodexProxy.Request.Chat

/-! The backend's body for a `/v1/responses` request. The caller's body is rewritten
in place, and what the backend does not accept is dropped at the end. -/
namespace CodexProxy.Request
open Json

def CODEX_RESPONSES_KEYS : List String :=
  ["model", "instructions", "store", "stream", "input", "tools", "tool_choice",
    "parallel_tool_calls", "reasoning", "include", "prompt_cache_key"]

/-- An input item with the role `system`. -/
def isSystem (msg : Json) : Bool := roleOf msg = some "system"

/-- The text of a system item; only an array is read. -/
def systemItemText (msg : Json) : String :=
  Text.join "\n\n" ((((msg.get? "content").bind Json.asArray).getD []).filterMap itemText)

/-- The last system item wins. -/
def systemTextOf (input : List Json) : String :=
  ((input.filter isSystem).getLast?.map systemItemText).getD ""

/-- The text of a content item with the names replaced. -/
def sanitizeItem (item : Json) : Json :=
  match item, itemText item with
  | .object im, some text => .object (Members.insert "text" (.string (replaceNames text)) im)
  | _, _ => item

def sanitizeMessage (msg : Json) : Json :=
  match msg, (msg.get? "content").bind Json.asArray with
  | .object mm, some contents =>
    .object (Members.insert "content" (.array (contents.map sanitizeItem)) mm)
  | _, _ => msg

/-- Without an array of input items nothing changes. -/
def sanitizeResponsesInput (obj : Members) : Members :=
  match (obj.lookup "input").bind Json.asArray with
  | none => obj
  | some input =>
    Members.insert "input" (.array ((input.filter (!isSystem ·)).map sanitizeMessage)) obj

/-- The explicit instructions, else those of the system item. -/
def instructionsOf (userInstr systemText : String) : String :=
  if userInstr ≠ "" then userInstr
  else if systemText ≠ "" then replaceNames systemText
  else ""

/-- The system text that explicit instructions displace becomes a developer message. -/
def displacedText (userInstr systemText : String) : List Json :=
  if userInstr ≠ "" ∧ systemText ≠ "" then
    [buildObject [("role", .string "developer"), ("content", .string (replaceNames systemText))]]
  else []

/-- An empty input is null. -/
def inputValue (items : List Json) : Json := if items = [] then .null else .array items

/-- Insert a member unless the key is there. -/
def insertMissing (k : String) (v : Json) (ms : Members) : Members :=
  if (ms.lookup k).isSome then ms else Members.insert k v ms

/-- An empty object is left out. -/
def setReasoning (settings : Members) (obj : Members) : Members :=
  if settings = [] then Members.erase "reasoning" obj
  else Members.insert "reasoning" (.object settings) obj

variable (env : Environment)

/-- The rewritten members, before the last step drops the unknown ones. -/
def rewriteResponsesMembers (obj : Members) (requestedModel requestedEffort : String) : Members :=
  let normalizedModel := normalizeModel requestedModel
  let obj := Members.insert "model" (.string normalizedModel) obj
  let obj := Members.insert "store" (.bool false) obj
  let obj := Members.insert "stream" (.bool true) obj
  let userInstr := Text.trim (textOr (obj.lookup "instructions"))
  let obj := Members.erase "instructions" obj
  let items := ((obj.lookup "input").bind Json.asArray).getD []
  let systemText := systemTextOf items
  let obj := Members.insert "instructions" (.string (instructionsOf userInstr systemText)) obj
  let input := displacedText userInstr systemText ++ items.filter (!isSystem ·)
  let obj := sanitizeResponsesInput (Members.insert "input" (inputValue input) obj)
  let obj := Members.insert "include" includeEncryptedReasoning obj
  let obj := insertMissing "tool_choice" (.string "auto") obj
  let obj := insertMissing "parallel_tool_calls" (.bool false) obj
  let effort := effortMember (clampedEffort requestedModel requestedEffort)
  let settings := insertSome "effort" effort
    (insertSome "summary" (resolveReasoningSummary (.object obj)) [])
  let obj := setReasoning settings obj
  withPromptCacheKey env normalizedModel (textOr (obj.lookup "instructions")) obj

/-- The body, the normalized model and the clamped effort. -/
def transformResponsesRequestBody (body : Json) (requestedModel requestedEffort : String) :
    Json × String × String :=
  match body with
  | .object obj =>
    (.object (Members.retain (CODEX_RESPONSES_KEYS.contains ·)
        (rewriteResponsesMembers env obj requestedModel requestedEffort)),
      normalizeModel requestedModel, clampedEffort requestedModel requestedEffort)
  | _ => (body, "", "")

/-- What the endpoint forwards: the intent is read before the body is rewritten. -/
def responsesTarget (request : Json) : Json :=
  (transformResponsesRequestBody env request (resolveRequestModel request)
    (resolveReasoningEffort request)).1

end CodexProxy.Request
