import CodexProxy.Request.Resolve

/-! The backend's body for a chat-completions request. It is built from nothing, so
only what is inserted here reaches the backend. -/
namespace CodexProxy.Request
open Json

/-- A member as a text; empty when there is none. -/
def textOr (v : Option Json) : String := (v.bind Json.asString).getD ""

/-- A function tool in the backend's flat form. -/
def toolToCodex (tool : Json) : Option Json :=
  if (tool.get? "type").bind Json.asString ≠ some "function" then none
  else match (tool.get? "function").filter Json.isObject with
    | none => none
    | some func => some (buildObject [("type", .string "function"),
        ("name", .string (textOr (func.get? "name"))),
        ("description", .string (textOr (func.get? "description"))),
        ("strict", .bool false), ("parameters", (func.get? "parameters").getD .null)])

/-- Null, not an empty array, when the request has no tools. -/
def mapToolsToCodex (request : Json) : Json :=
  match (request.get? "tools").bind Json.asArray with
  | none => .null
  | some tools => .array (tools.filterMap toolToCodex)

/-- A message of the input, with one content item for each text. -/
def inputMessage (id : Json) (role kind : String) (texts : List String) : Json :=
  buildObject [("type", .string "message"), ("id", id), ("role", .string role),
    ("content", .array (texts.map fun text =>
      buildObject [("type", .string kind), ("text", .string text)]))]

variable (env : Environment)

/-- One of an assistant's tool calls. -/
def toolCallEntry (tc : Json) : Option Json :=
  if tc.isObject then
    let func := (tc.get? "function").filter Json.isObject
    some (buildObject [("type", .string "function_call"),
      ("name", .string (textOr (func.bind (·.get? "name")))),
      ("call_id", .string (textOr (tc.get? "id"))),
      ("arguments", .string (extractArgumentsString env (func.bind (·.get? "arguments"))))])
  else none

/-- A message's texts as one message, or nothing without texts. -/
def textEntries (msg : Json) (role kind : String) : List Json :=
  let texts := collectTextSegments (msg.get? "content") true
  if texts = [] then [] else [inputMessage ((msg.get? "id").getD .null) role kind texts]

/-- The entries of one message; a value that is not an object has no role. -/
def messageEntries (msg : Json) : List Json :=
  match (roleOf msg).getD "" with
  | "user" => textEntries msg "user" "input_text"
  | "assistant" =>
    textEntries msg "assistant" "output_text" ++
      (((msg.get? "tool_calls").bind Json.asArray).getD []).filterMap (toolCallEntry env)
  | "tool" =>
    let callId := textOr (msg.get? "tool_call_id")
    if callId = "" then []
    else [buildObject [("type", .string "function_call_output"), ("call_id", .string callId),
      ("output", .string (collectToolOutput env (msg.get? "content")))]]
  | _ => []

/-- The developer message with the system text comes first. -/
def buildCodexInputMessages (request : Json) : List Json :=
  inputMessage .null "developer" "input_text" [extractInstructions request] ::
    (((request.get? "messages").bind Json.asArray).getD []).flatMap (messageEntries env)

/-- A key that is a text stays; otherwise one is derived, and an empty one is left out. -/
def withPromptCacheKey (model instructions : String) (body : Members) : Members :=
  if ((body.lookup "prompt_cache_key").bind Json.asString).isSome then body
  else
    let key := derivePromptCacheKey env model instructions (extractFirstUserText (.object body))
    if key = "" then body else Members.insert "prompt_cache_key" (.string key) body

/-- What is asked to be included. -/
def includeEncryptedReasoning : Json := .array [.string "reasoning.encrypted_content"]

def buildCodexRequestBody (request : Json) : Json :=
  let normalizedModel := normalizeModel (resolveRequestModel request)
  let greeting := inputMessage .null "developer" "input_text" [env.inversePrompt]
  let toolChoice := (((request.get? "tool_choice").bind Json.asString).filter (· ≠ "")).getD "auto"
  let parallel := ((request.get? "parallel_tool_calls").bind Json.asBool).getD false
  let body := [("model", .string normalizedModel),
    ("instructions", .string env.codexInstructionsPrefix), ("store", .bool false),
    ("stream", .bool true), ("input", .array (greeting :: buildCodexInputMessages env request)),
    ("tools", mapToolsToCodex request), ("tool_choice", .string toolChoice),
    ("parallel_tool_calls", .bool parallel), ("reasoning", buildReasoningSettings request),
    ("include", includeEncryptedReasoning)].foldl
      (fun body m => Members.insert m.1 m.2 body) ([] : Members)
  .object (withPromptCacheKey env normalizedModel env.codexInstructionsPrefix body)

end CodexProxy.Request
