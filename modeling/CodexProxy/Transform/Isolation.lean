import CodexProxy.Transform.SegmentRuns

/-! Responses do not leak into each other. An accepted `response.created` event with an
id leaves a state that depends on the model and the id alone, so whatever two
transformers have seen before, they agree from there on. -/
namespace CodexProxy.Transform
open SSETransformer Json.Decode

variable (codec : Json.Codec)

/-- What a sequence of transform calls returns. -/
def SSETransformer.results (t : SSETransformer) :
    List (List UInt8) → List (Except TransformError (TransformResult (List UInt8)))
  | [] => []
  | data :: calls =>
    (t.transform codec data).2 :: (t.transform codec data).1.results calls

/-- Only a rejected payload is answered with an error. -/
theorem Action.apply_error {a : Action} {t : SSETransformer} (failed : (a.apply t).2 = .error err) :
    a = .reject err := by
  cases a with
  | ignore | stop | note | finish => cases failed
  | reject error =>
    cases failed
    rfl
  | reset id =>
    simp only [Action.apply] at failed
    split at failed <;> cases failed
  | text | reasoning | announce =>
    simp only [Action.apply, emitDelta_eq] at failed
    cases failed
  | arguments seq itemId delta =>
    simp only [Action.apply] at failed
    split at failed
    · cases failed
    · rw [emitDelta_eq] at failed
      cases failed

/-- A payload is answered with an error exactly if it is rejected. -/
theorem SSETransformer.transform_error_iff {t : SSETransformer} {data : List UInt8}
    {err : TransformError} : (t.transform codec data).2 = .error err ↔
      interpret codec data = .reject err := by
  rw [transform_eq]
  constructor
  · intro failed
    cases result : ((interpret codec data).apply t).2 with
    | ok answer =>
      rw [result] at failed
      cases failed
    | error error =>
      rw [result] at failed
      cases failed
      exact Action.apply_error result
  · intro rejected
    rw [rejected]
    rfl

theorem SSETransformer.transform_rejected (t : SSETransformer) {data : List UInt8}
    {err : TransformError} (rejected : interpret codec data = .reject err) :
    t.transform codec data = (t, .error err) := by
  rw [transform_eq, rejected]
  rfl

/-- No event changes the model. -/
theorem Action.apply_model (t : SSETransformer) (a : Action) : (a.apply t).1.model = t.model := by
  cases a with
  | ignore | stop | reject | finish => rfl
  | note e =>
    simp only [apply, noteReasoningItem]
    split <;> rfl
  | reset id =>
    simp only [apply]
    split <;> rfl
  | text | reasoning => simp only [apply, emitDelta_eq]
  | announce =>
    simp only [apply, emitDelta_eq]
    rfl
  | arguments =>
    simp only [apply]
    split
    · rfl
    · rw [emitDelta_eq]

theorem after_model (t : SSETransformer) (calls : List (List UInt8)) :
    (t.after codec calls).model = t.model := by
  induction calls generalizing t with
  | nil => rfl
  | cons data calls ih =>
    have first : (t.transformChunks codec data).1.model = t.model := by
      rw [transformChunks_eq, Action.apply_model]
    exact (ih _).trans first

/-- A reset with an id forgets everything but the model. -/
theorem Action.apply_reset {id : String} (nonempty : id ≠ "") (t : SSETransformer) :
    ((Action.reset id).apply t).1 = { model := t.model, responseId := "chatcmpl-" ++ id } := by
  rw [apply, if_neg nonempty]
  rfl

/-- In an object without repeated `k` the first and the last `k` are the same. -/
theorem lookup_reverse {ms : Json.Members} {k : String}
    (once : (ms.filter (·.1 == k)).length ≤ 1) : ms.reverse.lookup k = ms.lookup k := by
  have first : ∀ ns : Json.Members, ns.lookup k = ((ns.filter (·.1 == k)).head?).map Prod.snd := by
    intro ns
    induction ns with
    | nil => rfl
    | cons m ns ih =>
      rw [Json.Members.lookup_cons]
      by_cases same : k = m.1
      · rw [if_pos same, List.filter_cons_of_pos (by simp [same])]
        rfl
      · rw [if_neg same, List.filter_cons_of_neg (by simpa using Ne.symm same), ih]
  rw [first, first, List.filter_reverse]
  generalize ms.filter (·.1 == k) = found at once
  cases found with
  | nil => rfl
  | cons m more =>
    cases more with
    | nil => rfl
    | cons => simp at once

/-- The loose remainder of an envelope has the members of the value. -/
theorem EventEnvelope.decode_value {raw : Json} {e : EventEnvelope}
    (decoded : EventEnvelope.decode raw = some e) :
    raw.normalize.get? "type" = some (.string e.eventType) ∧
    (∀ k, k ≠ "type" → k ≠ "sequence_number" → e.extra.get? k = raw.normalize.get? k) ∧
    ∃ rest, e.extra = (Json.object rest).normalize := by
  cases raw with
  | object ms =>
    simp only [EventEnvelope.decode, record] at decoded
    split at decoded
    · rename_i once
      simp only [List.all_cons, List.all_nil, Bool.and_true, Bool.and_eq_true,
        decide_eq_true_eq] at once
      simp only [Option.bind_eq_bind, Option.bind_some, Option.bind_eq_some_iff, required] at decoded
      obtain ⟨type, ⟨v, found, text⟩, seq, _, built⟩ := decoded
      obtain rfl := Json.asString_eq_some.mp text
      cases built
      refine ⟨?_, ?_, _, rfl⟩
      · rw [Json.normalize, Json.get?_object, Json.lookup_normalizeMembers_last,
          lookup_reverse once.1, found]
        rfl
      · intro k notType notSequence
        simp only [Json.normalize, Json.get?_object, Json.lookup_normalizeMembers_last]
        have kept : (ms.filter fun m => m.1 ≠ "type" ∧ m.1 ≠ "sequence_number").reverse.lookup k =
            ms.reverse.lookup k := by
          rw [← List.filter_reverse]
          have retained := Json.Members.lookup_retain
            (fun key => decide (key ≠ "type" ∧ key ≠ "sequence_number")) k ms.reverse
          rw [if_pos (by simp [notType, notSequence])] at retained
          exact retained
        rw [kept]
    · cases decoded
  | _ => cases decoded

/-- The sequence number is the member, unless that is no `u64`. -/
theorem EventEnvelope.decode_sequence {raw : Json} {e : EventEnvelope}
    (decoded : EventEnvelope.decode raw = some e) :
    e.sequenceNumber = (raw.normalize.get? "sequence_number").bind Json.asUInt64 := by
  cases raw with
  | object ms =>
    simp only [EventEnvelope.decode, record] at decoded
    split at decoded
    · rename_i once
      simp only [List.all_cons, List.all_nil, Bool.and_true, Bool.and_eq_true,
        decide_eq_true_eq] at once
      simp only [Option.bind_eq_bind, Option.bind_some, Option.bind_eq_some_iff] at decoded
      obtain ⟨_, _, seq, number, built⟩ := decoded
      cases built
      have read := defaulted_nullable rfl number
      change seq = _
      rw [read, Json.normalize, Json.get?_object, Json.lookup_normalizeMembers_last,
        lookup_reverse once.2]
      cases ms.lookup "sequence_number" with
      | none => rfl
      | some v => exact (Json.asUInt64_normalize v).symm
    · cases decoded
  | _ => cases decoded

/-- A `response.created` event whose response has an id decodes to that id. -/
theorem CreatedPayload.decode_named {rest : Json.Members} {id : String}
    (named : ((Json.object rest).normalize.get? "response").bind (·.get? "id") =
      some (.string id)) :
    CreatedPayload.decode (Json.object rest).normalize = some { response := { id } } := by
  obtain ⟨response, found, identified⟩ := Option.bind_eq_some_iff.mp named
  have inner : ∃ ms, response = (Json.object ms).normalize := by
    rw [Json.normalize, Json.get?_object, Json.lookup_normalizeMembers_last] at found
    simp only [List.lookup_nil, Option.or_none, Option.map_eq_some_iff] at found
    obtain ⟨v, _, rfl⟩ := found
    cases v with
    | object ms => exact ⟨ms, rfl⟩
    | _ => simp [Json.normalize, Json.get?] at identified
  obtain ⟨ms, rfl⟩ := inner
  have response : CreatedResponse.decode (Json.object ms).normalize = some { id } := by
    rw [Json.normalize, Json.get?_object] at identified
    rw [Json.normalize, CreatedResponse.decode, record_object (Json.nodup_normalizeMembers ms)]
    simp [identified]
  rw [Json.normalize, Json.get?_object] at found
  rw [Json.normalize, CreatedPayload.decode, record_object (Json.nodup_normalizeMembers rest)]
  simp only [Option.bind_eq_bind, Option.bind_some, found, defaulted_some, response]
  rfl

/-- An accepted event of that kind is a reset to its id. -/
theorem interpret_created {created : List UInt8} {v : Json} {id : String}
    (read : codec.fromSlice created = some v)
    (type : v.get? "type" = some (.string "response.created"))
    (named : (v.get? "response").bind (·.get? "id") = some (.string id))
    {t : SSETransformer} {result : TransformResult (List UInt8)}
    (accepted : (t.transform codec created).2 = .ok result) :
    interpret codec created = .reset id := by
  obtain ⟨raw, text, rfl⟩ := Option.map_eq_some_iff.mp read
  have classified := classify_read codec text
  cases decoded : EventEnvelope.decode raw with
  | none =>
    rw [decoded] at classified
    rw [transform_eq, interpret, classified] at accepted
    cases accepted
  | some e =>
    obtain ⟨type', members, rest, extra⟩ := EventEnvelope.decode_value decoded
    rw [type, Option.some.injEq, Json.string.injEq] at type'
    rw [← members "response" (by decide) (by decide), extra] at named
    rw [decoded] at classified
    rw [interpret, classified]
    simp only [interpretEvent, ← type']
    rw [if_neg (by decide), interpretCreated, extra, CreatedPayload.decode_named named]

/-- Two transformers that were built with the same model agree on every sequence of
events after the same `response.created` event with an id, whatever came before. -/
theorem responses_isolated (model : String) (history history' : List (List UInt8))
    {created : List UInt8} {v : Json} {id : String} (read : codec.fromSlice created = some v)
    (type : v.get? "type" = some (.string "response.created"))
    (named : (v.get? "response").bind (·.get? "id") = some (.string id)) (nonempty : id ≠ "")
    (accepted : ∃ result,
      (((SSETransformer.new model).after codec history).transform codec created).2 = .ok result)
    (accepted' : ∃ result,
      (((SSETransformer.new model).after codec history').transform codec created).2 = .ok result)
    (events : List (List UInt8)) :
    ((SSETransformer.new model).after codec (history ++ [created])).results codec events =
      ((SSETransformer.new model).after codec (history' ++ [created])).results codec events := by
  have state (calls : List (List UInt8)) (accepted : ∃ result,
      (((SSETransformer.new model).after codec calls).transform codec created).2 = .ok result) :
      (SSETransformer.new model).after codec (calls ++ [created]) =
        { model := (SSETransformer.new model).model, responseId := "chatcmpl-" ++ id } := by
    obtain ⟨result, accepted⟩ := accepted
    rw [after_append]
    change (((SSETransformer.new model).after codec calls).transformChunks codec created).1 = _
    rw [transformChunks_eq, interpret_created codec read type named accepted,
      Action.apply_reset nonempty, after_model]
  rw [state history accepted, state history' accepted']

/-- The first event of a response with an id. -/
def createdEvent : Json :=
  .object [("type", .string "response.created"), ("response", .object [("id", .string "resp_1")])]

/-- Every state accepts it. -/
theorem accepted_createdEvent (t : SSETransformer) :
    ∃ result, (t.transform codec (codec.toVec createdEvent)).2 = .ok result := by
  have portable : createdEvent.Portable := by decide
  have denotes : interpret codec (codec.toVec createdEvent) = .reset "resp_1" := by
    rw [interpret_toVec codec portable rfl]
    rfl
  rw [transform_eq, denotes]
  exact ⟨_, rfl⟩

theorem responses_isolated_call :
    ((SSETransformer.new "gpt-5").after JsonText.codec
        ([] ++ [JsonText.codec.toVec createdEvent])).results JsonText.codec
        (callEvents.map JsonText.codec.toVec) =
      ((SSETransformer.new "gpt-5").after JsonText.codec
        (callEvents.map JsonText.codec.toVec ++ [JsonText.codec.toVec createdEvent])).results
        JsonText.codec (callEvents.map JsonText.codec.toVec) := by
  have read : JsonText.codec.fromSlice (JsonText.codec.toVec createdEvent) =
      some createdEvent.normalize := by
    rw [Json.Codec.fromSlice, JsonText.codec.read_toVec (by decide)]
    rfl
  exact responses_isolated JsonText.codec "gpt-5" [] (callEvents.map JsonText.codec.toVec) read
    (by simp [createdEvent, Json.normalize, Json.normalizeMembers, Json.Members.lookup_insert])
    (by simp [createdEvent, Json.normalize, Json.normalizeMembers])
    (by decide : "resp_1" ≠ "") (accepted_createdEvent _ _) (accepted_createdEvent _ _) _

end CodexProxy.Transform
