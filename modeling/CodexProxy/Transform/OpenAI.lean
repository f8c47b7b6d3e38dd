import CodexProxy.Library.Decode

/-! The typed chat-completion chunk that the transformer emits, and its JSON form.
Members are written in declaration order; a skipped member is absent, not null. -/
namespace CodexProxy.Transform

/-- A 64-bit `usize`. Counters are natural numbers in the model and are reduced
to a machine word where they are written. -/
abbrev Usize := UInt64

def usize (n : Nat) : Usize := UInt64.ofNat n

structure PromptTokensDetails where
  cachedTokens : Int64

structure CompletionTokensDetails where
  reasoningTokens : Int64

structure Usage where
  promptTokens : Int64
  completionTokens : Int64
  totalTokens : Int64
  promptTokensDetails : Option PromptTokensDetails := none
  completionTokensDetails : Option CompletionTokensDetails := none

/-- An explicit total, else the sum; `i64` addition wraps. -/
def Usage.withTotal (promptTokens completionTokens : Int64) (total : Option Int64) : Usage where
  promptTokens
  completionTokens
  totalTokens := total.getD (promptTokens + completionTokens)

def Usage.new (promptTokens completionTokens : Int64) : Usage :=
  .withTotal promptTokens completionTokens none

structure FunctionDelta where
  name : Option String
  arguments : Option String

structure ToolCallDelta where
  index : Usize
  id : Option String
  callType : Option String
  function : Option FunctionDelta

structure ChunkDelta where
  role : Option String := none
  content : Option String := none
  reasoningContent : Option String := none
  toolCalls : Option (List ToolCallDelta) := none

structure ChunkChoice where
  index : UInt32
  delta : ChunkDelta
  finishReason : Option String

structure ChatCompletionChunk where
  id : String
  object : String
  created : Option UInt64
  model : String
  choices : List ChunkChoice
  usage : Option Usage

/-- A member that is skipped when absent. -/
def skipNone (k : String) : Option Json → Json.Members
  | none => []
  | some v => [(k, v)]

theorem lookup_skipNone (k k' : String) (v : Option Json) :
    (skipNone k v).lookup k' = if k' = k then v else none := by
  cases v with
  | none => simp [skipNone]
  | some v => simp [skipNone, Json.Members.lookup_cons]

/-- A member that is null when absent. -/
def orNull (v : Option Json) : Json := v.getD .null

def PromptTokensDetails.toJson (d : PromptTokensDetails) : Json :=
  .object [("cached_tokens", .ofInt64 d.cachedTokens)]

def CompletionTokensDetails.toJson (d : CompletionTokensDetails) : Json :=
  .object [("reasoning_tokens", .ofInt64 d.reasoningTokens)]

def Usage.toJson (u : Usage) : Json :=
  .object ([("prompt_tokens", .ofInt64 u.promptTokens),
      ("completion_tokens", .ofInt64 u.completionTokens),
      ("total_tokens", .ofInt64 u.totalTokens)] ++
    skipNone "prompt_tokens_details" (u.promptTokensDetails.map (·.toJson)) ++
    skipNone "completion_tokens_details" (u.completionTokensDetails.map (·.toJson)))

def FunctionDelta.toJson (f : FunctionDelta) : Json :=
  .object (skipNone "name" (f.name.map .string) ++ skipNone "arguments" (f.arguments.map .string))

def ToolCallDelta.toJson (t : ToolCallDelta) : Json :=
  .object ([("index", .ofUInt64 t.index)] ++ skipNone "id" (t.id.map .string) ++
    skipNone "type" (t.callType.map .string) ++ skipNone "function" (t.function.map (·.toJson)))

def ChunkDelta.toJson (d : ChunkDelta) : Json :=
  .object (skipNone "role" (d.role.map .string) ++ skipNone "content" (d.content.map .string) ++
    skipNone "reasoning_content" (d.reasoningContent.map .string) ++
    skipNone "tool_calls" (d.toolCalls.map fun ts => .array (ts.map (·.toJson))))

def ChunkChoice.toJson (c : ChunkChoice) : Json :=
  .object [("index", .ofUInt64 c.index.toUInt64), ("delta", c.delta.toJson),
    ("finish_reason", orNull (c.finishReason.map .string))]

def ChatCompletionChunk.toJson (c : ChatCompletionChunk) : Json :=
  .object ([("id", .string c.id), ("object", .string c.object),
      ("created", orNull (c.created.map .ofUInt64)), ("model", .string c.model),
      ("choices", .array (c.choices.map (·.toJson)))] ++
    skipNone "usage" (c.usage.map (·.toJson)))

end CodexProxy.Transform
