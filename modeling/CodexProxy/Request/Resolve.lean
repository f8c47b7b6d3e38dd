import CodexProxy.Library.Decode
import CodexProxy.Request.Model

/-! What a request asks for: its model, its reasoning effort and summary, and the
text in its messages. Requests are loosely typed JSON, and a member of another type
than expected counts as missing. -/
namespace CodexProxy.Request
open Json

/-- A parsed request, and what the rewriting of it needs from outside: the prompts
that are sent, and the rendering of a digest as a UUID. -/
structure Environment where
  codec : Json.Codec
  codexInstructionsPrefix : String
  inversePrompt : String
  hashToUuid : String → String

/-- The object's member as a text, trimmed, when there is anything left of it. -/
def trimmedText (v : Option Json) : Option String :=
  ((v.bind Json.asString).map Text.trim).filter (· ≠ "")

def resolveRequestModel (request : Json) : String :=
  (trimmedText (request.get? "model")).getD GPT5

/-- An explicit effort, then the one in `reasoning`, then the model's suffix. -/
def resolveReasoningEffort (request : Json) : String :=
  match trimmedText (request.get? "reasoning_effort") with
  | some effort => effort
  | none =>
    match trimmedText ((request.get? "reasoning").bind (·.get? "effort")) with
    | some effort => effort
    | none => (((request.get? "model").bind Json.asString).bind effortSuffix).getD ""

/-- An explicit null leaves the summary out. -/
def resolveReasoningSummary (request : Json) : Option Json :=
  match (request.get? "reasoning").bind (·.get? "summary") with
  | some .null => none
  | some summary => some summary
  | none => some (.string "auto")

/-- The effort that a model is asked for, clamped; empty when there is none. -/
def clampedEffort (requestedModel requestedEffort : String) : String :=
  clampReasoningEffortForModel (normalizeReasoningEffort requestedEffort)
    (normalizeModel requestedModel)

/-- Insert a member unless it is missing. -/
def insertSome (k : String) : Option Json → Members → Members
  | none, ms => ms
  | some v, ms => Members.insert k v ms

theorem lookup_insertSome (k k' : String) (v : Option Json) (ms : Members) :
    (insertSome k v ms).lookup k' = if k' = k then v.or (ms.lookup k) else ms.lookup k' := by
  cases v with
  | none =>
    by_cases same : k' = k
    · rw [if_pos same, same]
      rfl
    · rw [if_neg same]
      rfl
  | some w =>
    rw [insertSome, Members.lookup_insert]
    rfl

/-- An effort as a member's value; an empty one is left out. -/
def effortMember (effort : String) : Option Json :=
  if effort = "" then none else some (.string effort)

def buildReasoningSettings (request : Json) : Json :=
  let clamped := clampedEffort (resolveRequestModel request) (resolveReasoningEffort request)
  .object (insertSome "summary" (resolveReasoningSummary request)
    (insertSome "effort" (effortMember clamped) []))

/-- Names and their order, with the one that is listed twice. -/
def NAMES_TO_REPLACE : List String :=
  ["Zed", "Cline", "Roo", "GitHub Copilot", "Copilot", "Cursor", "Microsoft", "Copilot"]

def replaceNames (input : String) : String :=
  NAMES_TO_REPLACE.foldl (fun out name => Text.replace out name "Codex") input

/-- The role of a message; none for a value that is not an object. -/
def roleOf (msg : Json) : Option String := (msg.get? "role").bind Json.asString

/-- The text of an array item, when it is not empty. -/
def itemText (item : Json) : Option String :=
  ((item.get? "text").bind Json.asString).filter (· ≠ "")

/-- The text of an array item, when it is not blank. -/
def visibleItemText (item : Json) : Option String :=
  ((item.get? "text").bind Json.asString).filter (Text.trim · ≠ "")

/-- The instructions in one message. -/
def systemText (msg : Json) : Option String :=
  if roleOf msg ≠ some "system" then none
  else match msg.get? "content" with
    | some (.string text) => if text = "" then none else some (replaceNames text)
    | some (.array items) =>
      let segs := (items.filterMap itemText).map replaceNames
      if segs = [] then none else some (Text.join "\n" segs)
    | _ => none

def extractInstructions (request : Json) : String :=
  match (request.get? "messages").bind Json.asArray with
  | none => ""
  | some msgs => Text.trim (Text.join "\n\n" (msgs.filterMap systemText))

/-- The first visible text of a user's input item. -/
def inputUserText (entry : Json) : Option String :=
  if roleOf entry ≠ some "user" then none
  else (((entry.get? "content").bind Json.asArray).getD []).findSome? visibleItemText

/-- The first visible text of a user's message. -/
def messageUserText (msg : Json) : Option String :=
  if roleOf msg ≠ some "user" then none
  else match msg.get? "content" with
    | some (.string text) => if Text.trim text = "" then none else some text
    | some (.array items) => items.findSome? visibleItemText
    | _ => none

/-- From the input, else from the messages. -/
def extractFirstUserText (body : Json) : String :=
  let input := (((body.get? "input").bind Json.asArray).getD []).findSome? inputUserText
  let messages := (((body.get? "messages").bind Json.asArray).getD []).findSome? messageUserText
  ((input.or messages).map replaceNames).getD ""

/-- A string is trimmed, and the texts of an array are not. -/
def collectTextSegments (content : Option Json) (applyReplace : Bool) : List String :=
  let maybeReplace text := if applyReplace then replaceNames text else text
  match content with
  | some (.string text) =>
    if Text.trim text = "" then [] else [maybeReplace (Text.trim text)]
  | some (.array items) => (items.filterMap itemText).map maybeReplace
  | _ => []

variable (env : Environment)

/-- A text as it is, and any other value as JSON. -/
def extractArgumentsString : Option Json → String
  | some (.string v) => v
  | none | some .null => ""
  | some other => env.codec.write other

def collectToolOutput : Option Json → String
  | some (.string v) => v
  | some (.array items) => Text.join "\n" (items.filterMap itemText)
  | none | some .null => ""
  | some other => env.codec.write other

/-- Empty when all three parts are. -/
def derivePromptCacheKey (model instructions firstUserText : String) : String :=
  let model := Text.trim model
  let instructions := Text.trim instructions
  let firstUserText := Text.trim firstUserText
  if model = "" ∧ instructions = "" ∧ firstUserText = "" then ""
  else env.hashToUuid (model ++ "\n" ++ instructions ++ "\n" ++ firstUserText)

end CodexProxy.Request
