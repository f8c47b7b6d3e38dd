import CodexProxy.Library.Differ
import CodexProxy.Transform.Isolation

/-! Nothing that a transform call returns tells the text under `item.encrypted_content`.
Events that differ in it alone denote the same action, or two captures of a reasoning
item, and a capture changes counters that no frame is built from. What does tell it is
the message about an event without a valid envelope: it has the place in the text. -/
namespace CodexProxy.Transform
open SSETransformer Json.Decode

/-- Values that differ in the texts under `item.encrypted_content` only. -/
abbrev Alike : Json → Json → Prop :=
  Json.DifferAt "item" (Json.DifferAt "encrypted_content" Json.BothText)

inductive AlikePayloads (codec : Json.Codec) : List UInt8 → List UInt8 → Prop where
  | same (data : List UInt8) : AlikePayloads codec data data
  | events (read : codec.read data = some v) (read' : codec.read data' = some v')
      (alike : Alike v v') : AlikePayloads codec data data'

theorem Alike.normalize (alike : Alike v v') : Alike v.normalize v'.normalize :=
  Json.DifferAt.normalize alike fun _ _ item =>
    item.normalize fun _ _ texts => texts.normalize

structure EventEnvelope.Alike (e e' : EventEnvelope) : Prop where
  eventType : e.eventType = e'.eventType
  sequenceNumber : e.sequenceNumber = e'.sequenceNumber
  extra : Transform.Alike e.extra e'.extra

theorem EventEnvelope.decode_alike (alike : Transform.Alike v v') :
    Option.Rel EventEnvelope.Alike (decode v) (decode v') := by
  cases alike with
  | same =>
    cases decode v with
    | none => exact .none
    | some e => exact .some ⟨rfl, rfl, .same _⟩
  | @under ms ms' differ =>
    have rest : Transform.Alike
        (.object (ms.filter fun m => m.1 ≠ "type" ∧ m.1 ≠ "sequence_number"))
        (.object (ms'.filter fun m => m.1 ≠ "type" ∧ m.1 ≠ "sequence_number")) :=
      .under (differ.retain fun key => decide (key ≠ "type" ∧ key ≠ "sequence_number"))
    simp only [decode]
    rcases Json.rel_cases ((Json.DifferAt.under differ).record ["type", "sequence_number"]) with
      ⟨absent, absent'⟩ | ⟨f, g, found, found', fields⟩
    · rw [absent, absent']
      exact .none
    · have type := fields.of_ne (show "type" ≠ "item" by decide)
      have number := fields.of_ne (show "sequence_number" ≠ "item" by decide)
      simp only [found, found', Option.bind_eq_bind, Option.bind_some, type, number]
      cases required Json.asString (g "type") with
      | none => exact .none
      | some eventType =>
        rw [Option.bind_some, Option.bind_some]
        cases defaulted (nullable Json.asUInt64) none (g "sequence_number") with
        | none => exact .none
        | some sequenceNumber => exact .some ⟨rfl, rfl, rest.normalize⟩

theorem CreatedPayload.decode_alike (alike : Alike v v') : decode v = decode v' :=
  alike.bind_record _ fun f g fields => by
    rw [fields.of_ne (show "response" ≠ "item" by decide)]

theorem OutputTextDeltaPayload.decode_alike (alike : Alike v v') : decode v = decode v' :=
  alike.bind_record _ fun f g fields => by
    rw [fields.of_ne (show "delta" ≠ "item" by decide)]

theorem CompletedPayload.decode_alike (alike : Alike v v') : decode v = decode v' :=
  alike.bind_record _ fun f g fields => by
    rw [fields.of_ne (show "response" ≠ "item" by decide)]

theorem FunctionCallArgsDeltaPayload.decode_alike (alike : Alike v v') : decode v = decode v' :=
  alike.bind_record _ fun f g fields => by
    rw [fields.of_ne (show "item_id" ≠ "item" by decide),
      fields.of_ne (show "delta" ≠ "item" by decide)]

/-- A function call has no encrypted content. -/
theorem FunctionCallItem.decode_alike
    (alike : Json.DifferAt "encrypted_content" Json.BothText v v') : decode v = decode v' :=
  alike.bind_record _ fun f g fields => by
    simp only [fields.of_ne (show "id" ≠ "encrypted_content" by decide),
      fields.of_ne (show "call_id" ≠ "encrypted_content" by decide),
      fields.of_ne (show "name" ≠ "encrypted_content" by decide),
      fields.of_ne (show "type" ≠ "encrypted_content" by decide)]

theorem OutputItemAddedPayload.decode_alike (alike : Alike v v') : decode v = decode v' :=
  alike.bind_record _ fun f g fields => by
    rcases Json.rel_cases (fields "item") with ⟨absent, absent'⟩ | ⟨v, w, found, found', agree⟩
    · rw [absent, absent']
    · rw [found, found', defaulted_some, defaulted_some]
      cases Json.DifferAt.of_agree agree with
      | same => rfl
      | under differ =>
        rw [nullable_object, nullable_object, FunctionCallItem.decode_alike (.under differ)]

theorem EventEnvelope.Alike.get? (alike : EventEnvelope.Alike e e') (other : key ≠ "item") :
    e.extra.get? key = e'.extra.get? key :=
  alike.extra.get?.of_ne other

/-- A text in the place of another one is a text as well. -/
theorem holds_text (differ : Json.DifferAt "encrypted_content" Json.BothText v v') :
    ((v.get? "encrypted_content").bind Json.asString).isSome =
      ((v'.get? "encrypted_content").bind Json.asString).isSome := by
  rcases differ.get?_cases "encrypted_content" with
    ⟨absent, absent'⟩ | ⟨blob, blob', found, found', agree⟩
  · rw [absent, absent']
  · rw [found, found']
    rcases agree with rfl | ⟨_, texts⟩
    · rfl
    · obtain ⟨s, s'⟩ := texts
      rfl

/-- The cascade asks only whether the encrypted content is a text. -/
theorem EventEnvelope.Alike.extractReasoningContent (alike : EventEnvelope.Alike e e') :
    e.extractReasoningContent = e'.extractReasoningContent := by
  have item : Option.Rel (Json.DifferAt "encrypted_content" Json.BothText)
      ((e.extra.get? "item").filter Json.isObject)
      ((e'.extra.get? "item").filter Json.isObject) := by
    rcases alike.extra.get?_cases "item" with
      ⟨absent, absent'⟩ | ⟨v, v', found, found', agree⟩
    · rw [absent, absent']
      exact .none
    · have differ := Json.DifferAt.of_agree agree
      have shape := differ.isObject
      rw [found, found', Option.filter_some, Option.filter_some, shape]
      split
      · exact .some differ
      · exact .none
  simp only [EventEnvelope.extractReasoningContent]
  rw [alike.get? (show "delta" ≠ "item" by decide), alike.get? (show "text" ≠ "item" by decide),
    alike.get? (show "part" ≠ "item" by decide), alike.get? (show "summary" ≠ "item" by decide)]
  rcases Json.rel_cases item with ⟨absent, absent'⟩ | ⟨v, v', found, found', differ⟩
  · rw [absent, absent']
  · simp only [found, found', Option.bind_some]
    rw [holds_text differ, differ.get?.of_ne (show "summary" ≠ "encrypted_content" by decide)]

theorem EventEnvelope.Alike.outputIndex (alike : EventEnvelope.Alike e e') :
    e.outputIndex = e'.outputIndex := by
  rw [EventEnvelope.outputIndex, EventEnvelope.outputIndex,
    alike.get? (show "output_index" ≠ "item" by decide)]

/-- The fields of the typed payloads. -/
def knownFields : List (String × List String) :=
  [("OutputTextDeltaPayload", ["delta"]), ("CompletedPayload", ["response"]),
    ("OutputItemAddedPayload", ["item"]), ("FunctionCallArgsDeltaPayload", ["item_id", "delta"])]

/-- Unknown fields are ignored: the message of a failed decoding is the one for the value
without them. -/
structure IgnoresUnknown (codec : Json.Codec) : Prop where
  payload : ∀ known ∈ knownFields, ∀ v,
    codec.valueError known.1 (v.restrict known.2) = codec.valueError known.1 v
  functionCall : ∀ v, codec.valueError "OutputItemAddedPayload"
      (v.mapAt "item" (Json.restrict ["id", "call_id", "name", "type"])) =
    codec.valueError "OutputItemAddedPayload" v

variable {codec : Json.Codec}

theorem IgnoresUnknown.invalidPayload_alike (ignores : IgnoresUnknown codec)
    (alike : EventEnvelope.Alike e e') (known : (target, names) ∈ knownFields)
    (other : "item" ∉ names) : invalidPayload codec target e = invalidPayload codec target e' := by
  have message := ignores.payload _ known
  rw [invalidPayload, invalidPayload, ← message, ← message e'.extra, alike.extra.restrict other]

theorem IgnoresUnknown.invalidItem_alike (ignores : IgnoresUnknown codec)
    (alike : EventEnvelope.Alike e e') :
    invalidPayload codec "OutputItemAddedPayload" e =
      invalidPayload codec "OutputItemAddedPayload" e' := by
  rw [invalidPayload, invalidPayload, ← ignores.functionCall, ← ignores.functionCall e'.extra,
    alike.extra.mapAt fun w w' item => item.restrict (by decide)]

/-- Equal actions, or two captures of an item. -/
inductive Action.Alike : Action → Action → Prop where
  | same (a : Action) : Alike a a
  | note (e e' : EventEnvelope) : Alike (.note e) (.note e')

theorem Action.Alike.of_eq (equal : a = a') : Action.Alike a a' := equal ▸ .same a

theorem interpretReasoning_alike (alike : EventEnvelope.Alike e e') :
    interpretReasoning e = interpretReasoning e' := by
  rw [interpretReasoning, interpretReasoning, alike.outputIndex, alike.eventType,
    alike.extractReasoningContent, alike.sequenceNumber]

theorem interpretCreated_alike (alike : EventEnvelope.Alike e e') :
    interpretCreated e = interpretCreated e' := by
  rw [interpretCreated, interpretCreated, CreatedPayload.decode_alike alike.extra]

theorem interpretTextDelta_alike (ignores : IgnoresUnknown codec)
    (alike : EventEnvelope.Alike e e') :
    interpretTextDelta codec e = interpretTextDelta codec e' := by
  have known : ("OutputTextDeltaPayload", ["delta"]) ∈ knownFields := by decide
  rw [interpretTextDelta, interpretTextDelta, OutputTextDeltaPayload.decode_alike alike.extra,
    alike.sequenceNumber, ignores.invalidPayload_alike alike known (by decide)]

theorem interpretCompleted_alike (ignores : IgnoresUnknown codec)
    (alike : EventEnvelope.Alike e e') :
    interpretCompleted codec e = interpretCompleted codec e' := by
  have known : ("CompletedPayload", ["response"]) ∈ knownFields := by decide
  rw [interpretCompleted, interpretCompleted, CompletedPayload.decode_alike alike.extra,
    alike.sequenceNumber, ignores.invalidPayload_alike alike known (by decide)]

theorem interpretOutputItemAdded_alike (ignores : IgnoresUnknown codec)
    (alike : EventEnvelope.Alike e e') :
    interpretOutputItemAdded codec e = interpretOutputItemAdded codec e' := by
  rw [interpretOutputItemAdded, interpretOutputItemAdded,
    OutputItemAddedPayload.decode_alike alike.extra, alike.sequenceNumber,
    ignores.invalidItem_alike alike]

theorem interpretFunctionCallArgsDelta_alike (ignores : IgnoresUnknown codec)
    (alike : EventEnvelope.Alike e e') :
    interpretFunctionCallArgsDelta codec e = interpretFunctionCallArgsDelta codec e' := by
  have known : ("FunctionCallArgsDeltaPayload", ["item_id", "delta"]) ∈ knownFields := by decide
  rw [interpretFunctionCallArgsDelta, interpretFunctionCallArgsDelta,
    FunctionCallArgsDeltaPayload.decode_alike alike.extra, alike.sequenceNumber,
    ignores.invalidPayload_alike alike known (by decide)]

/-- Only a finished item makes a difference, and it is one to the captures. -/
theorem interpretEvent_alike (ignores : IgnoresUnknown codec) (alike : EventEnvelope.Alike e e') :
    Action.Alike (interpretEvent codec e) (interpretEvent codec e') := by
  unfold interpretEvent
  rw [alike.eventType]
  split
  · exact .of_eq (interpretReasoning_alike alike)
  · split
    · exact .of_eq (interpretCreated_alike alike)
    · exact .of_eq (interpretTextDelta_alike ignores alike)
    · exact .of_eq (interpretCompleted_alike ignores alike)
    · exact .of_eq (interpretOutputItemAdded_alike ignores alike)
    · exact .of_eq (interpretFunctionCallArgsDelta_alike ignores alike)
    · exact .note e e'
    · exact .same _

/-- An event without a valid envelope. -/
def Undecodable (codec : Json.Codec) (data : List UInt8) : Prop :=
  classify codec data =
    .undecodable (.invalidJson (codec.sliceError "EventEnvelope" (Bytes.trimAscii data)))

theorem interpret_alike (ignores : IgnoresUnknown codec)
    (alike : AlikePayloads codec data data') :
    Action.Alike (interpret codec data) (interpret codec data') ∨
      Undecodable codec data ∧ Undecodable codec data' := by
  cases alike with
  | same => exact .inl (.same _)
  | events read read' alike =>
    have classified := classify_read codec read
    have classified' := classify_read codec read'
    rcases Json.rel_cases (EventEnvelope.decode_alike alike) with
      ⟨absent, absent'⟩ | ⟨e, e', found, found', envelopes⟩
    · rw [absent] at classified
      rw [absent'] at classified'
      exact .inr ⟨classified, classified'⟩
    · rw [interpret, interpret, classified, classified', found, found']
      exact .inl (interpretEvent_alike ignores envelopes)

/-- The state without the captures of reasoning items. -/
def SSETransformer.visible (t : SSETransformer) : SSETransformer :=
  { t with reasoningItems := 0, reasoningEncryptedBytes := 0, reasoningSummaryPresent := false }

theorem SSETransformer.noteReasoningItem_visible (t : SSETransformer) (e : EventEnvelope) :
    (t.noteReasoningItem e).visible = t.visible := by
  unfold noteReasoningItem
  split <;> rfl

/-- No frame is built from the captures. -/
theorem SSETransformer.bodyFrames_visible (t : SSETransformer) (seq : Option UInt64)
    (delta : ChunkDelta) : t.visible.bodyFrames seq delta = t.bodyFrames seq delta := by
  unfold bodyFrames sendRole visible
  cases t.roleSent <;> rfl

theorem SSETransformer.announce_visible (t : SSETransformer) (itemId callId name : String) :
    t.visible.announce itemId callId name =
      ((t.announce itemId callId name).1.visible, (t.announce itemId callId name).2) := by
  unfold announce visible
  cases t.toolIndexByItemId.lookup itemId <;> rfl

theorem SSETransformer.emitDelta_visible (t : SSETransformer) (seq : Option UInt64)
    (delta : ChunkDelta) :
    t.visible.emitDelta seq delta =
      ((t.emitDelta seq delta).1.visible, (t.emitDelta seq delta).2) := by
  rw [emitDelta_eq, emitDelta_eq, bodyFrames_visible]
  rfl

/-- No action looks at the captures. -/
theorem Action.apply_visible (t : SSETransformer) (a : Action) :
    (a.apply t.visible).2 = (a.apply t).2 ∧ (a.apply t.visible).1.visible = (a.apply t).1.visible := by
  cases a with
  | ignore | stop | reject | finish => exact ⟨rfl, rfl⟩
  | note e =>
    refine ⟨rfl, ?_⟩
    simp only [apply, noteReasoningItem_visible]
    rfl
  | reset id =>
    simp only [apply]
    split <;> exact ⟨rfl, rfl⟩
  | text | reasoning =>
    simp only [apply, emitDelta_visible, true_and]
    rfl
  | announce =>
    simp only [apply, announce_visible, emitDelta_visible, true_and]
    rfl
  | arguments seq itemId delta =>
    have same : t.visible.toolIndexByItemId = t.toolIndexByItemId := rfl
    simp only [apply, same, emitDelta_visible]
    split <;> exact ⟨rfl, rfl⟩

/-- Alike actions keep states that differ in the captures alike, and return the same. -/
theorem Action.apply_alike {t t' : SSETransformer} (alike : Action.Alike a a')
    (same : t.visible = t'.visible) :
    (a.apply t).2 = (a'.apply t').2 ∧ (a.apply t).1.visible = (a'.apply t').1.visible := by
  cases alike with
  | same =>
    obtain ⟨result, state⟩ := apply_visible t a
    obtain ⟨result', state'⟩ := apply_visible t' a
    rw [← result, ← state, ← result', ← state', same]
    exact ⟨rfl, rfl⟩
  | note e e' =>
    refine ⟨rfl, ?_⟩
    simp only [apply, noteReasoningItem_visible, same]

theorem SSETransformer.transformChunks_undecodable (t : SSETransformer)
    (undecodable : Undecodable codec data) :
    t.transformChunks codec data = (t, .error (.invalidJson
      (codec.sliceError "EventEnvelope" (Bytes.trimAscii data)))) := by
  rw [transformChunks, undecodable]

theorem SSETransformer.transform_undecodable (t : SSETransformer)
    (undecodable : Undecodable codec data) :
    (t.transform codec data).2 = .error (.invalidJson
      (codec.sliceError "EventEnvelope" (Bytes.trimAscii data))) := by
  rw [transform, transformChunks_undecodable t undecodable]
  rfl

/-- One call: the visible states stay the same, and so does the result, unless neither
event has a valid envelope. -/
theorem SSETransformer.transform_alike (ignores : IgnoresUnknown codec)
    (alike : AlikePayloads codec data data') {t t' : SSETransformer}
    (same : t.visible = t'.visible) :
    (t.transformChunks codec data).1.visible = (t'.transformChunks codec data').1.visible ∧
    ((t.transform codec data).2 = (t'.transform codec data').2 ∨
      Undecodable codec data ∧ Undecodable codec data') := by
  rcases interpret_alike ignores alike with actions | ⟨left, right⟩
  · obtain ⟨result, state⟩ := Action.apply_alike actions same
    rw [transform_eq, transform_eq, transformChunks_eq, transformChunks_eq, result]
    exact ⟨state, .inl rfl⟩
  · rw [transformChunks_undecodable t left, transformChunks_undecodable t' right]
    exact ⟨same, .inr ⟨left, right⟩⟩

theorem SSETransformer.after_alike (ignores : IgnoresUnknown codec)
    (alike : List.Forall₂ (AlikePayloads codec) events events') {t t' : SSETransformer}
    (same : t.visible = t'.visible) :
    (t.after codec events).visible = (t'.after codec events').visible := by
  induction alike generalizing t t' with
  | nil => exact same
  | cons head _ ih => exact ih (transform_alike ignores head same).1

/-- After histories that differ in the encrypted contents only, two events that differ
in theirs only have the same result, unless neither has a valid envelope; then both are
rejected, each with the reader's message about its own text. -/
theorem blobs_invisible (ignores : IgnoresUnknown codec) (model : String)
    {before before' : List (List UInt8)} (past : List.Forall₂ (AlikePayloads codec) before before')
    {data data' : List UInt8} (now : AlikePayloads codec data data') :
    (((new model).after codec before).transform codec data).2 =
      (((new model).after codec before').transform codec data').2 ∨
    Undecodable codec data ∧ Undecodable codec data' ∧
      (((new model).after codec before).transform codec data).2 = .error (.invalidJson
        (codec.sliceError "EventEnvelope" (Bytes.trimAscii data))) ∧
      (((new model).after codec before').transform codec data').2 = .error (.invalidJson
        (codec.sliceError "EventEnvelope" (Bytes.trimAscii data'))) := by
  have states : ((new model).after codec before).visible =
      ((new model).after codec before').visible := after_alike ignores past rfl
  rcases (transform_alike ignores now states).2 with same | ⟨left, right⟩
  · exact .inl same
  · exact .inr ⟨left, right, transform_undecodable _ left, transform_undecodable _ right⟩

/-- A finished reasoning item with the given encrypted content. -/
def finishedItem (blob : String) : Json :=
  .object [("type", .string "response.output_item.done"), ("item", .object
    [("type", .string "reasoning"), ("encrypted_content", .string blob)])]

theorem finishedItem_alike (blob blob' : String) :
    Alike (finishedItem blob) (finishedItem blob') :=
  .under (.cons ⟨rfl, .inl rfl⟩ (.cons ⟨rfl, .inr ⟨rfl, .under (.cons ⟨rfl, .inl rfl⟩
    (.cons ⟨rfl, .inr ⟨rfl, .intro blob blob'⟩⟩ .nil))⟩⟩ .nil))

theorem finished_invisible :
    let short := JsonText.codec.toVec (finishedItem "A")
    let long := JsonText.codec.toVec (finishedItem "BB")
    (((new "gpt-5").after JsonText.codec [short]).transform JsonText.codec short).2 =
      (((new "gpt-5").after JsonText.codec [long]).transform JsonText.codec long).2 ∨
    Undecodable JsonText.codec short ∧ Undecodable JsonText.codec long ∧
      (((new "gpt-5").after JsonText.codec [short]).transform JsonText.codec short).2 =
        .error (.invalidJson (JsonText.codec.sliceError "EventEnvelope" (Bytes.trimAscii short))) ∧
      (((new "gpt-5").after JsonText.codec [long]).transform JsonText.codec long).2 =
        .error (.invalidJson (JsonText.codec.sliceError "EventEnvelope" (Bytes.trimAscii long))) := by
  have ignores : IgnoresUnknown JsonText.codec := ⟨fun _ _ _ => rfl, fun _ => rfl⟩
  have alike : AlikePayloads JsonText.codec (JsonText.codec.toVec (finishedItem "A"))
      (JsonText.codec.toVec (finishedItem "BB")) :=
    .events (JsonText.codec.read_toVec (by decide)) (JsonText.codec.read_toVec (by decide))
      (finishedItem_alike "A" "BB")
  exact blobs_invisible ignores "gpt-5" (.cons alike .nil) alike

/-- The reference reader, with a message that ends in the place of the error. -/
def placingCodec : Json.Codec :=
  { JsonText.codec with
    sliceError := fun _ text => "missing field `type` at line 1 column " ++ toString text.length }

/-- An event without a type. -/
def untypedItem (blob : String) : Json :=
  .object [("item", .object [("encrypted_content", .string blob)])]

theorem untypedItem_alike (blob blob' : String) : Alike (untypedItem blob) (untypedItem blob') :=
  .under (.cons ⟨rfl, .inr ⟨rfl, .under (.cons ⟨rfl, .inr ⟨rfl, .intro blob blob'⟩⟩ .nil)⟩⟩ .nil)

theorem untypedItem_undecodable {blob : String} (portable : (untypedItem blob).Portable) :
    Undecodable placingCodec (placingCodec.toVec (untypedItem blob)) :=
  classify_toVec placingCodec portable

/-- A longer content moves the place where the type is missed. -/
theorem blob_moves_error :
    ¬ ∀ (codec : Json.Codec), IgnoresUnknown codec → ∀ (model : String)
      (events events' : List (List UInt8)), List.Forall₂ (AlikePayloads codec) events events' →
        (new model).results codec events = (new model).results codec events' := by
  intro claim
  have alike : AlikePayloads placingCodec (placingCodec.toVec (untypedItem "A"))
      (placingCodec.toVec (untypedItem "AA")) :=
    .events (placingCodec.read_toVec (by decide)) (placingCodec.read_toVec (by decide))
      (untypedItem_alike "A" "AA")
  have same := claim placingCodec ⟨fun _ _ _ => rfl, fun _ => rfl⟩ "gpt-5" _ _ (.cons alike .nil)
  simp only [results, List.cons.injEq, and_true] at same
  rw [transform_undecodable _ (untypedItem_undecodable (by decide : (untypedItem "A").Portable)),
    transform_undecodable _ (untypedItem_undecodable (by decide : (untypedItem "AA").Portable)),
    Except.error.injEq, TransformError.invalidJson.injEq] at same
  exact absurd same (by decide +kernel)

end CodexProxy.Transform
