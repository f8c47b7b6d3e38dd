import CodexProxy.Transform.OpenAI

/-! Upstream events: the envelope read before dispatch, the typed payloads of the
recognized events, and the loose extraction of reasoning text. -/
namespace CodexProxy.Transform
open Json.Decode

/-- The members of an event besides `type` and `sequence_number` are kept loose. -/
structure EventEnvelope where
  eventType : String
  sequenceNumber : Option UInt64
  extra : Json

/-- The flattened remainder makes the decoder accept maps only. -/
def EventEnvelope.decode : Json → Option EventEnvelope
  | .object ms => do
    let fields ← record ["type", "sequence_number"] (.object ms)
    let eventType ← required Json.asString (fields "type")
    let sequenceNumber ← defaulted (nullable Json.asUInt64) none (fields "sequence_number")
    let rest := ms.filter fun m => m.1 ≠ "type" ∧ m.1 ≠ "sequence_number"
    some { eventType, sequenceNumber, extra := (Json.object rest).normalize }
  | _ => none

structure CreatedResponse where
  id : String := ""

structure CreatedPayload where
  response : CreatedResponse := {}

def CreatedResponse.decode (v : Json) : Option CreatedResponse := do
  let fields ← record ["id"] v
  return { id := ← defaulted Json.asString "" (fields "id") }

def CreatedPayload.decode (v : Json) : Option CreatedPayload := do
  let fields ← record ["response"] v
  return { response := ← defaulted CreatedResponse.decode {} (fields "response") }

structure OutputTextDeltaPayload where
  delta : String

def OutputTextDeltaPayload.decode (v : Json) : Option OutputTextDeltaPayload := do
  let fields ← record ["delta"] v
  return { delta := ← defaulted Json.asString "" (fields "delta") }

structure UpstreamInputDetails where
  cachedTokens : Option Int64

def UpstreamInputDetails.decode (v : Json) : Option UpstreamInputDetails := do
  let fields ← record ["cached_tokens"] v
  return { cachedTokens := ← defaulted (nullable Json.asInt64) none (fields "cached_tokens") }

structure UpstreamOutputDetails where
  reasoningTokens : Option Int64

def UpstreamOutputDetails.decode (v : Json) : Option UpstreamOutputDetails := do
  let fields ← record ["reasoning_tokens"] v
  return { reasoningTokens := ← defaulted (nullable Json.asInt64) none (fields "reasoning_tokens") }

/-- Both spellings of the counts are accepted. -/
structure UpstreamUsage where
  promptTokens : Option Int64
  completionTokens : Option Int64
  totalTokens : Option Int64
  inputTokens : Option Int64
  outputTokens : Option Int64
  inputTokensDetails : Option UpstreamInputDetails
  promptTokensDetails : Option UpstreamInputDetails
  outputTokensDetails : Option UpstreamOutputDetails
  completionTokensDetails : Option UpstreamOutputDetails

def UpstreamUsage.decode (v : Json) : Option UpstreamUsage := do
  let fields ← record ["prompt_tokens", "completion_tokens", "total_tokens", "input_tokens",
    "output_tokens", "input_tokens_details", "prompt_tokens_details", "output_tokens_details",
    "completion_tokens_details"] v
  let count k := defaulted (nullable Json.asInt64) none (fields k)
  let input k := defaulted (nullable UpstreamInputDetails.decode) none (fields k)
  let output k := defaulted (nullable UpstreamOutputDetails.decode) none (fields k)
  return {
    promptTokens := ← count "prompt_tokens"
    completionTokens := ← count "completion_tokens"
    totalTokens := ← count "total_tokens"
    inputTokens := ← count "input_tokens"
    outputTokens := ← count "output_tokens"
    inputTokensDetails := ← input "input_tokens_details"
    promptTokensDetails := ← input "prompt_tokens_details"
    outputTokensDetails := ← output "output_tokens_details"
    completionTokensDetails := ← output "completion_tokens_details" }

/-- The OpenAI spelling has precedence; a detail is emitted only when reported. -/
def UpstreamUsage.toOpenai (u : UpstreamUsage) : Usage :=
  let pt := (u.promptTokens.or u.inputTokens).getD 0
  let ct := (u.completionTokens.or u.outputTokens).getD 0
  let cached := (u.promptTokensDetails.bind (·.cachedTokens)).or
    (u.inputTokensDetails.bind (·.cachedTokens))
  let reasoning := (u.completionTokensDetails.bind (·.reasoningTokens)).or
    (u.outputTokensDetails.bind (·.reasoningTokens))
  { Usage.withTotal pt ct u.totalTokens with
    promptTokensDetails := cached.map PromptTokensDetails.mk
    completionTokensDetails := reasoning.map CompletionTokensDetails.mk }

structure CompletedResponse where
  usage : Option UpstreamUsage := none

structure CompletedPayload where
  response : CompletedResponse := {}

def CompletedResponse.decode (v : Json) : Option CompletedResponse := do
  let fields ← record ["usage"] v
  return { usage := ← defaulted (nullable UpstreamUsage.decode) none (fields "usage") }

def CompletedPayload.decode (v : Json) : Option CompletedPayload := do
  let fields ← record ["response"] v
  return { response := ← defaulted CompletedResponse.decode {} (fields "response") }

structure FunctionCallItem where
  id : String
  callId : String
  name : String
  itemType : String

def FunctionCallItem.decode (v : Json) : Option FunctionCallItem := do
  let fields ← record ["id", "call_id", "name", "type"] v
  let text k := defaulted Json.asString "" (fields k)
  return {
    id := ← text "id"
    callId := ← text "call_id"
    name := ← text "name"
    itemType := ← text "type" }

structure OutputItemAddedPayload where
  item : Option FunctionCallItem

def OutputItemAddedPayload.decode (v : Json) : Option OutputItemAddedPayload := do
  let fields ← record ["item"] v
  return { item := ← defaulted (nullable FunctionCallItem.decode) none (fields "item") }

structure FunctionCallArgsDeltaPayload where
  itemId : String
  delta : String

def FunctionCallArgsDeltaPayload.decode (v : Json) : Option FunctionCallArgsDeltaPayload := do
  let fields ← record ["item_id", "delta"] v
  return {
    itemId := ← defaulted Json.asString "" (fields "item_id")
    delta := ← defaulted Json.asString "" (fields "delta") }

/-- A non-empty string member. -/
def nonEmpty (v : Option Json) : Option String := (v.bind Json.asString).filter (· ≠ "")

/-- The first non-empty `text` among the object entries of an array. -/
def extractSummaryText (summary : Option Json) : Option String :=
  (summary.bind Json.asArray).bind fun entries =>
    entries.findSome? fun entry => nonEmpty (entry.get? "text")

/-- Five places in order of precedence; a string under `item.encrypted_content`
ends the search without a text. -/
def EventEnvelope.extractReasoningContent (e : EventEnvelope) : Option String :=
  let item := (e.extra.get? "item").filter Json.isObject
  ((nonEmpty (e.extra.get? "delta")).or (nonEmpty (e.extra.get? "text"))).or <|
    (nonEmpty ((e.extra.get? "part").bind (·.get? "text"))).or <|
    if ((item.bind (·.get? "encrypted_content")).bind Json.asString).isSome then none
    else (extractSummaryText (item.bind (·.get? "summary"))).or
      (extractSummaryText (e.extra.get? "summary"))

def EventEnvelope.outputIndex (e : EventEnvelope) : Option UInt64 :=
  (e.extra.get? "output_index").bind Json.asUInt64

structure ReasoningItem where
  id : Option String
  encryptedContent : Option String
  summaryText : Option String

def reasoningItemFromOutputItemDone (e : EventEnvelope) : Option ReasoningItem :=
  if e.eventType ≠ "response.output_item.done" then none
  else do
    let item ← (e.extra.get? "item").filter Json.isObject
    if (item.get? "type").bind Json.asString ≠ some "reasoning" then none
    else some {
      id := nonEmpty (item.get? "id")
      encryptedContent := nonEmpty (item.get? "encrypted_content")
      summaryText := extractSummaryText (item.get? "summary") }

end CodexProxy.Transform
