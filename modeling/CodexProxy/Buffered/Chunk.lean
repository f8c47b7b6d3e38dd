import CodexProxy.Transform.SegmentRuns

/-! The chunk decoder of the buffered path. Its records are declared apart from the
encoder's: `created` is a plain `i64`, and what does not decode is skipped. -/
namespace CodexProxy.Buffered
open Json.Decode Transform

structure FunctionDelta where
  name : Option String
  arguments : Option String

structure ToolCallDelta where
  index : Usize
  id : Option String
  callType : Option String
  function : Option FunctionDelta

structure StreamingDelta where
  role : Option String := none
  content : Option String := none
  reasoningContent : Option String := none
  toolCalls : Option (List ToolCallDelta) := none

structure StreamingChoice where
  delta : StreamingDelta
  finishReason : Option String

structure StreamingChunk where
  id : String
  created : Int64
  model : String
  choices : List StreamingChoice
  usage : Option Json

def FunctionDelta.decode (v : Json) : Option FunctionDelta := do
  let fields ← record ["name", "arguments"] v
  return {
    name := ← defaulted (nullable Json.asString) none (fields "name")
    arguments := ← defaulted (nullable Json.asString) none (fields "arguments") }

def ToolCallDelta.decode (v : Json) : Option ToolCallDelta := do
  let fields ← record ["index", "id", "type", "function"] v
  return {
    index := ← required Json.asUInt64 (fields "index")
    id := ← defaulted (nullable Json.asString) none (fields "id")
    callType := ← defaulted (nullable Json.asString) none (fields "type")
    function := ← defaulted (nullable FunctionDelta.decode) none (fields "function") }

def StreamingDelta.decode (v : Json) : Option StreamingDelta := do
  let fields ← record ["role", "content", "reasoning_content", "tool_calls"] v
  let text k := defaulted (nullable Json.asString) none (fields k)
  return {
    role := ← text "role"
    content := ← text "content"
    reasoningContent := ← text "reasoning_content"
    toolCalls := ← defaulted (nullable (each ToolCallDelta.decode)) none (fields "tool_calls") }

def StreamingChoice.decode (v : Json) : Option StreamingChoice := do
  let fields ← record ["delta", "finish_reason"] v
  return {
    delta := ← defaulted StreamingDelta.decode {} (fields "delta")
    finishReason := ← defaulted (nullable Json.asString) none (fields "finish_reason") }

/-- The usage is kept as a value. -/
def StreamingChunk.decode (v : Json) : Option StreamingChunk := do
  let fields ← record ["id", "created", "model", "choices", "usage"] v
  return {
    id := ← defaulted Json.asString "" (fields "id")
    created := ← defaulted Json.asInt64 0 (fields "created")
    model := ← defaulted Json.asString "" (fields "model")
    choices := ← defaulted (each StreamingChoice.decode) [] (fields "choices")
    usage := ← defaulted (nullable fun v => some v.normalize) none (fields "usage") }

def StreamingChunk.fromFrame (codec : Json.Codec) (frame : List UInt8) : Option StreamingChunk :=
  (codec.read frame).bind decode

def FunctionDelta.of (f : Transform.FunctionDelta) : FunctionDelta where
  name := f.name
  arguments := f.arguments

def ToolCallDelta.of (t : Transform.ToolCallDelta) : ToolCallDelta where
  index := t.index
  id := t.id
  callType := t.callType
  function := t.function.map .of

def StreamingDelta.of (d : ChunkDelta) : StreamingDelta where
  role := d.role
  content := d.content
  reasoningContent := d.reasoningContent
  toolCalls := d.toolCalls.map (·.map .of)

def StreamingChoice.of (c : ChunkChoice) : StreamingChoice where
  delta := .of c.delta
  finishReason := c.finishReason

/-- The chunk with its creation time, once that is a number. -/
def StreamingChunk.of (c : ChatCompletionChunk) (created : Int64) : StreamingChunk where
  id := c.id
  created
  model := c.model
  choices := c.choices.map .of
  usage := c.usage.map (·.toJson.normalize)

/-- The creation time as the decoder reads it: null and numbers from 2⁶³ on are
not an `i64`. -/
def decodeCreated : Option UInt64 → Option Int64
  | some n => if n.toNat < 2 ^ 63 then some (Int64.ofInt n.toNat) else none
  | none => none

theorem keys_skipNone (k : String) (v : Option Json) :
    ((skipNone k v).map Prod.fst).Sublist [k] := by
  cases v with
  | none => exact List.nil_sublist _
  | some v => exact List.Sublist.refl _

/-- A string member that may be absent or null is read back. -/
theorem defaulted_nullable_string (s : Option String) :
    defaulted (nullable Json.asString) none (s.map .string) = some s := by
  cases s <;> rfl

theorem FunctionDelta.decode_toJson (f : Transform.FunctionDelta) :
    FunctionDelta.decode f.toJson = some (.of f) := by
  have distinct : ((skipNone "name" (f.name.map .string) ++
      skipNone "arguments" (f.arguments.map .string)).map Prod.fst).Nodup := by
    rw [List.map_append]
    exact List.Nodup.sublist ((keys_skipNone _ _).append (keys_skipNone _ _)) (by decide)
  simp only [decode, Transform.FunctionDelta.toJson, record_object distinct,
    Option.bind_eq_bind, Option.bind_some, List.lookup_append, lookup_skipNone]
  simp [defaulted_nullable_string, of]

theorem ToolCallDelta.decode_toJson (t : Transform.ToolCallDelta) :
    ToolCallDelta.decode t.toJson = some (.of t) := by
  have distinct : ((([("index", Json.ofUInt64 t.index)] ++ skipNone "id" (t.id.map .string) ++
      skipNone "type" (t.callType.map .string) ++
      skipNone "function" (t.function.map (·.toJson)))).map Prod.fst).Nodup := by
    rw [List.map_append, List.map_append, List.map_append]
    exact List.Nodup.sublist ((((List.Sublist.refl _).append (keys_skipNone _ _)).append
      (keys_skipNone _ _)).append (keys_skipNone _ _)) (by simp)
  have function : defaulted (nullable FunctionDelta.decode) none
      (t.function.map (·.toJson)) = some (t.function.map .of) := by
    cases t.function with
    | none => rfl
    | some f =>
      have inner := FunctionDelta.decode_toJson f
      rw [Transform.FunctionDelta.toJson] at inner
      rw [Option.map_some, defaulted_some, Transform.FunctionDelta.toJson, nullable_object, inner]
      rfl
  simp only [decode, Transform.ToolCallDelta.toJson, record_object distinct, Option.bind_eq_bind,
    Option.bind_some, List.lookup_append, lookup_skipNone]
  simp [required, defaulted_nullable_string, function, Json.Members.lookup_cons, of]

/-- Reading back a list of encoded records. -/
theorem each_map {encode : α → Json} {decode : Json → Option β} {f : α → β}
    (back : ∀ a, decode (encode a) = some (f a)) (as : List α) :
    each decode (.array (as.map encode)) = some (as.map f) := by
  rw [each_array]
  induction as with
  | nil => rfl
  | cons a as ih => simp [back, ih]

theorem StreamingDelta.decode_toJson (d : ChunkDelta) :
    StreamingDelta.decode d.toJson = some (.of d) := by
  have distinct : ((skipNone "role" (d.role.map .string) ++
      skipNone "content" (d.content.map .string) ++
      skipNone "reasoning_content" (d.reasoningContent.map .string) ++
      skipNone "tool_calls" (d.toolCalls.map fun ts => .array (ts.map (·.toJson)))).map
      Prod.fst).Nodup := by
    rw [List.map_append, List.map_append, List.map_append]
    exact List.Nodup.sublist ((((keys_skipNone _ _).append (keys_skipNone _ _)).append
      (keys_skipNone _ _)).append (keys_skipNone _ _)) (by simp)
  have calls : defaulted (nullable (each ToolCallDelta.decode)) none
      (d.toolCalls.map fun ts => .array (ts.map (·.toJson))) =
      some (d.toolCalls.map (·.map .of)) := by
    cases d.toolCalls with
    | none => rfl
    | some ts =>
      rw [Option.map_some, defaulted_some, nullable_array,
        each_map ToolCallDelta.decode_toJson ts]
      rfl
  simp only [decode, ChunkDelta.toJson, record_object distinct, Option.bind_eq_bind,
    Option.bind_some, List.lookup_append, lookup_skipNone]
  simp [defaulted_nullable_string, calls, of]

theorem StreamingChoice.decode_toJson (c : ChunkChoice) :
    StreamingChoice.decode c.toJson = some (.of c) := by
  have delta := StreamingDelta.decode_toJson c.delta
  have reason : defaulted (nullable Json.asString) none (some (orNull (c.finishReason.map .string)))
      = some c.finishReason := by
    cases c.finishReason <;> rfl
  rw [decode, ChunkChoice.toJson, record_object (by simp)]
  simp [Json.Members.lookup_cons, delta, reason, of]

theorem decodeCreated_spec (created : Option UInt64) :
    defaulted Json.asInt64 0 (some (orNull (created.map .ofUInt64))) = decodeCreated created := by
  cases created with
  | none => rfl
  | some n =>
    rw [Option.map_some, orNull, Option.getD_some, defaulted_some, Json.asInt64_ofUInt64,
      decodeCreated]

theorem decodeUsage_spec (usage : Option Usage) :
    defaulted (nullable fun v => some v.normalize) none (usage.map (·.toJson)) =
      some (usage.map (·.toJson.normalize)) := by
  cases usage with
  | none => rfl
  | some u =>
    rw [Option.map_some, defaulted_some, Usage.toJson, nullable_object]
    rfl

/-- A written chunk repeats no key. -/
theorem record_chunk (c : ChatCompletionChunk) (names : List String) :
    record names c.toJson = some fun k => c.toJson.get? k := by
  rw [ChatCompletionChunk.toJson]
  refine record_object ?_ names
  rw [List.map_append]
  exact List.Nodup.sublist ((List.Sublist.refl _).append (keys_skipNone _ _)) (by simp)

/-- An emitted chunk decodes exactly when its creation time does, and then to
everything it carries. -/
theorem StreamingChunk.decode_toJson (c : ChatCompletionChunk) :
    StreamingChunk.decode c.toJson = (decodeCreated c.created).map (.of c) := by
  have created := decodeCreated_spec c.created
  have choices := each_map StreamingChoice.decode_toJson c.choices
  have usage := decodeUsage_spec c.usage
  simp only [decode, record_chunk, Option.bind_eq_bind, Option.bind_some]
  simp only [ChatCompletionChunk.toJson, Json.get?_object, List.lookup_append, lookup_skipNone]
  simp only [Json.Members.lookup_cons, List.lookup_nil, String.reduceEq, if_true, if_false,
    Option.some_or, Option.none_or, created, choices, usage, defaulted_some, Json.asString_string,
    Option.bind_some]
  cases decodeCreated c.created <;> rfl

/-- The frame of a chunk is read as the chunk. -/
theorem StreamingChunk.fromFrame_frame (codec : Json.Codec) (c : ChatCompletionChunk) :
    fromFrame codec (SSETransformer.frame codec c) = (decodeCreated c.created).map (.of c) := by
  rw [fromFrame, SSETransformer.read_frame, Option.bind_some, decode_toJson]

variable (codec : Json.Codec)

/-- The buffered path reads a frame and finds in it what the chunk carries. -/
def Recovers (c : ChatCompletionChunk) : Prop :=
  ∃ d, StreamingChunk.fromFrame codec (SSETransformer.frame codec c) = some d ∧
    d.choices = c.choices.map .of ∧ d.usage = c.usage.map (·.toJson.normalize)

/-- A creation time within `i64`. -/
def FitsInt64 (created : Option UInt64) : Prop := ∃ n, created = some n ∧ n.toNat < 2 ^ 63

theorem decodeCreated_isSome (created : Option UInt64) :
    (decodeCreated created).isSome ↔ FitsInt64 created := by
  cases created with
  | none => simp [decodeCreated, FitsInt64]
  | some n =>
    rw [decodeCreated, FitsInt64]
    split
    · rename_i small
      exact iff_of_true rfl ⟨n, rfl, small⟩
    · rename_i large
      refine iff_of_false (by simp) ?_
      rintro ⟨m, same, small⟩
      cases same
      exact large small

theorem recovers_iff (c : ChatCompletionChunk) : Recovers codec c ↔ FitsInt64 c.created := by
  rw [Recovers, StreamingChunk.fromFrame_frame, ← decodeCreated_isSome]
  cases decodeCreated c.created with
  | none => simp
  | some created => simp [StreamingChunk.of]

/-- A frame is recovered exactly when its event has a sequence number within `i64`;
otherwise it is skipped. -/
theorem frame_recovered_iff (t : SSETransformer) (data : List UInt8) {c : ChatCompletionChunk}
    (emitted : c ∈ t.framesOf codec data) :
    Recovers codec c ↔ FitsInt64 (sequenceNumber codec data) := by
  rw [recovers_iff, created_framesOf codec emitted]

/-- A text delta with an optional sequence number. -/
def textDelta (seq : Option UInt64) (delta : String) : Json :=
  .object ([("type", .string "response.output_text.delta")] ++
    skipNone "sequence_number" (seq.map .ofUInt64) ++ [("delta", .string delta)])

theorem decode_textDelta (seq : Option UInt64) (delta : String) :
    EventEnvelope.decode (textDelta seq delta) =
      some { eventType := "response.output_text.delta", sequenceNumber := seq,
             extra := .object [("delta", .string delta)] } := by
  cases seq with
  | none => simp [textDelta, skipNone, EventEnvelope.decode, record, required,
      Json.Members.lookup_cons, Json.normalize, Json.normalizeMembers, Json.Members.insert]
  | some n =>
    have number : nullable Json.asUInt64 (.ofUInt64 n) = some (some n) := by
      rw [Json.ofUInt64, nullable, ← Json.ofUInt64, Json.asUInt64_ofUInt64, Option.map_some]
      intro null
      cases null
    simp [textDelta, skipNone, EventEnvelope.decode, record, required, Json.Members.lookup_cons,
      number, Json.normalize, Json.normalizeMembers, Json.Members.insert]

theorem interpretEvent_textDelta (seq : Option UInt64) (delta : String) :
    interpretEvent codec
      { eventType := "response.output_text.delta", sequenceNumber := seq,
        extra := .object [("delta", .string delta)] } = .text seq delta := by
  have plain : Text.startsWith "response.output_text.delta" "response.reasoning" = false := by
    decide
  simp [interpretEvent, plain, interpretTextDelta, OutputTextDeltaPayload.decode, record,
    Json.Members.lookup_cons]

theorem portable_textDelta (seq : Option UInt64) (delta : String) :
    (textDelta seq delta).Portable := by
  have within : (textDelta seq delta).Within 1 := by cases seq <;> simp [textDelta, skipNone]
  exact within.portable (by decide)

theorem interpret_textDelta (seq : Option UInt64) (delta : String) :
    interpret codec (codec.toVec (textDelta seq delta)) = .text seq delta := by
  rw [interpret_toVec codec (portable_textDelta seq delta) (decode_textDelta seq delta),
    interpretEvent_textDelta]

theorem sequenceNumber_textDelta (seq : Option UInt64) (delta : String) :
    sequenceNumber codec (codec.toVec (textDelta seq delta)) = seq := by
  rw [sequenceNumber, SSETransformer.classify_toVec codec (portable_textDelta seq delta),
    decode_textDelta]

/-- The frames of a new transformer's first text delta. -/
theorem framesOf_textDelta (model : String) (seq : Option UInt64) (delta : String) :
    ((SSETransformer.new model).after codec []).framesOf codec
        (codec.toVec (textDelta seq delta)) =
      (SSETransformer.new model).bodyFrames seq { content := some delta } := by
  rw [SSETransformer.framesOf, SSETransformer.transformChunks_eq, interpret_textDelta]
  simp only [Action.apply, SSETransformer.emitDelta_eq]
  rfl

/-- A delta without a sequence number is forwarded by the relay and skipped here. -/
theorem textDelta_skipped :
    ∃ c ∈ ((SSETransformer.new "gpt-5").after JsonText.codec []).framesOf JsonText.codec
      (JsonText.codec.toVec (textDelta none "hi")), ¬ Recovers JsonText.codec c := by
  rw [framesOf_textDelta]
  obtain ⟨u, member⟩ := SSETransformer.body_mem_bodyFrames (SSETransformer.new "gpt-5") none
    { content := some "hi" }
  refine ⟨_, member, ?_⟩
  rw [recovers_iff]
  rintro ⟨n, created, _⟩
  cases created

/-- The frame of a delta with the number 7 is recovered. -/
theorem frame_recovered_iff_seven :
    ∃ c ∈ ((SSETransformer.new "gpt-5").after JsonText.codec []).framesOf JsonText.codec
      (JsonText.codec.toVec (textDelta (some 7) "hi")), Recovers JsonText.codec c := by
  obtain ⟨u, member⟩ := SSETransformer.body_mem_bodyFrames (SSETransformer.new "gpt-5") (some 7)
    { content := some "hi" }
  rw [← framesOf_textDelta JsonText.codec] at member
  refine ⟨_, member, (frame_recovered_iff JsonText.codec _ _ member).mpr ?_⟩
  rw [sequenceNumber_textDelta]
  exact ⟨7, rfl, by decide⟩

end CodexProxy.Buffered
