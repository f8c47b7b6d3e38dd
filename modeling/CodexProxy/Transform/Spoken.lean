import CodexProxy.Transform.ClientView
import CodexProxy.Transform.Isolation

/-! What an upstream event says, read off its JSON by the names of its members. No decoder
is used for it. Of a stream that is not broken off every event is heard, and then its typed
payload has the same parts. -/
namespace CodexProxy.Transform
open SSETransformer Json.Decode

variable (codec : Json.Codec)

/-- The JSON of an event, the whitespace around it aside. -/
def eventJson (data : List UInt8) : Option Json := codec.fromSlice (Bytes.trimAscii data)

/-- The JSON of an event of one type. -/
def eventOf (type : String) (data : List UInt8) : Option Json :=
  (eventJson codec data).filter fun v => (v.get? "type").bind Json.asString = some type

/-- What is no string counts as empty. -/
def textIn (field : Option Json) : String := (field.bind Json.asString).getD ""

/-- A record is a map, or a sequence that has its fields in order. -/
def fieldAt (position : Nat) (name : String) : Json → Option Json
  | .array items => items[position]?
  | v => v.get? name

def textSaid (data : List UInt8) : Option String :=
  (eventOf codec "response.output_text.delta" data).map fun v => textIn (v.get? "delta")

/-- The call that an event announces: an item of type `function_call` with id and name. -/
def callSaid (data : List UInt8) : Option FunctionCallItem :=
  (((eventOf codec "response.output_item.added" data).bind (·.get? "item")).map fun item =>
    { id := textIn (fieldAt 0 "id" item)
      callId := textIn (fieldAt 1 "call_id" item)
      name := textIn (fieldAt 2 "name" item)
      itemType := textIn (fieldAt 3 "type" item) }).filter fun item =>
    item.itemType = "function_call" ∧ item.id ≠ "" ∧ item.name ≠ ""

/-- The arguments that an event adds to an item. -/
def argumentsSaid (itemId : String) (data : List UInt8) : Option String :=
  ((eventOf codec "response.function_call_arguments.delta" data).filter fun v =>
    textIn (v.get? "item_id") = itemId).map fun v => textIn (v.get? "delta")

/-- The items that are announced, in order of their first announcement. -/
def itemsSaid (events : List (List UInt8)) : List String :=
  events.foldl (fun ids data => note ids ((callSaid codec data).map (·.id))) []

/-- The arguments for an item that come after its announcement. -/
def argumentsSaidAfter (itemId : String) (events : List (List UInt8)) : List String :=
  (events.dropWhile fun data => (callSaid codec data).map (·.id) ≠ some itemId).filterMap
    (argumentsSaid codec itemId)

/-- An event that opens a response. -/
def opensResponse (data : List UInt8) : Bool := (eventOf codec "response.created" data).isSome

/-- Only what has no type is refused. -/
def Heard (data : List UInt8) : Prop :=
  ∀ error, interpret codec data = .reject error →
    ∀ type, eventOf codec type data = none

theorem itemsSaid_map (events : List (List UInt8)) : itemsSaid codec events =
    (events.map (callSaid codec)).foldl (fun ids call => note ids (call.map (·.id))) [] := by
  rw [List.foldl_map]
  rfl

theorem argumentsSaidAfter_other {itemId : String} {data : List UInt8}
    (other : (callSaid codec data).map (·.id) ≠ some itemId) (events : List (List UInt8)) :
    argumentsSaidAfter codec itemId (data :: events) = argumentsSaidAfter codec itemId events := by
  rw [argumentsSaidAfter, List.dropWhile_cons_of_pos (by simpa using other), argumentsSaidAfter]

theorem argumentsSaidAfter_own {itemId : String} {data : List UInt8}
    (own : (callSaid codec data).map (·.id) = some itemId) (events : List (List UInt8)) :
    argumentsSaidAfter codec itemId (data :: events) =
      (data :: events).filterMap (argumentsSaid codec itemId) := by
  rw [argumentsSaidAfter, List.dropWhile_cons_of_neg (by simp [own])]

theorem eventOf_eq_some {type : String} {data : List UInt8} {v : Json} :
    eventOf codec type data = some v ↔
      eventJson codec data = some v ∧ (v.get? "type").bind Json.asString = some type := by
  rw [eventOf, Option.filter_eq_some_iff, decide_eq_true_eq]

/-- A record's fields are the members or the items. -/
theorem record_field {names : List String} {v : Json} {fields : Fields}
    (found : record names v = some fields) (k : String) :
    fields k = fieldAt (names.idxOf k) k v := by
  cases v with
  | object ms | array items =>
    rw [record] at found
    split at found
    · rw [← Option.some.inj found]
      rfl
    · cases found
  | _ => cases found

theorem defaulted_text {field : Option Json} {s : String}
    (read : defaulted Json.asString "" field = some s) : s = textIn field := by
  cases field with
  | none => exact (Option.some.inj read).symm
  | some v =>
    rw [defaulted_some] at read
    rw [textIn, Option.bind_some, read, Option.getD_some]

/-- An envelope has the members of the JSON. -/
structure EventEnvelope.Reads (e : EventEnvelope) (v : Json) : Prop where
  type : v.get? "type" = some (.string e.eventType)
  sequence : e.sequenceNumber = (v.get? "sequence_number").bind Json.asUInt64
  member : ∀ position k, k ≠ "type" → k ≠ "sequence_number" → fieldAt position k e.extra = v.get? k

/-- Nothing is read of what is no event. -/
theorem eventOf_none {data : List UInt8} (heard : Heard codec data)
    (other : ∀ e, classify codec data ≠ .event e) (type : String) : eventOf codec type data = none := by
  cases classified : classify codec data with
  | event e => exact absurd classified (other e)
  | undecodable error => exact heard error (by rw [interpret, classified]) type
  | blank | done =>
    have unread : codec.read (Bytes.trimAscii data) = none := by
      rw [classify] at classified
      split at classified
      · rename_i blank
        rw [blank, codec.read_nil]
      split at classified
      · rename_i done
        rw [done]
        exact codec.read_letter _ _ (by decide) (by decide)
      split at classified <;> cases classified
    rw [eventOf, eventJson, Json.Codec.fromSlice, unread]
    rfl

/-- An event's envelope reads its JSON. -/
theorem classify_reads {data : List UInt8} {e : EventEnvelope}
    (event : classify codec data = .event e) :
    ∃ v, eventJson codec data = some v ∧ e.Reads v := by
  rw [classify] at event
  split at event
  · cases event
  split at event
  · cases event
  split at event
  · cases event
  · rename_i decoded
    cases event
    obtain ⟨raw, read, decoded⟩ := Option.bind_eq_some_iff.mp decoded
    obtain ⟨type, members, rest, extra⟩ := EventEnvelope.decode_value decoded
    refine ⟨raw.normalize, by rw [eventJson, Json.Codec.fromSlice, read]; rfl, type,
      EventEnvelope.decode_sequence decoded, ?_⟩
    intro position k notType notSequence
    rw [← members k notType notSequence, extra]
    rfl

theorem EventEnvelope.Reads.eventOf {data : List UInt8} {e : EventEnvelope} {v : Json}
    (reads : e.Reads v) (read : eventJson codec data = some v) (type : String) :
    eventOf codec type data = if e.eventType = type then some v else none := by
  rw [Transform.eventOf, read, Option.filter_some]
  simp [reads.type]

/-- A payload that must decode, and the JSON that it is decoded from. -/
theorem payload_cases {data : List UInt8} (heard : Heard codec data) {type : String}
    {decode : Json → Option α}
    (strict : ∀ e, e.eventType = type → decode e.extra = none →
      ∃ error, interpretEvent codec e = .reject error) :
    payloadOf codec type decode data = none ∧ eventOf codec type data = none ∨
    ∃ (e : EventEnvelope) (v : Json) (payload : α), payloadOf codec type decode data = some payload ∧
      eventOf codec type data = some v ∧ decode e.extra = some payload ∧ e.Reads v := by
  by_cases event : ∃ e, classify codec data = .event e
  · obtain ⟨e, classified⟩ := event
    obtain ⟨v, read, reads⟩ := classify_reads codec classified
    have here := reads.eventOf codec read type
    rw [payloadOf, classified]
    dsimp only
    by_cases same : e.eventType = type
    · rw [if_pos same] at here ⊢
      cases decoded : decode e.extra with
      | some payload => exact .inr ⟨e, v, payload, rfl, here, decoded, reads⟩
      | none =>
        obtain ⟨error, rejected⟩ := strict e same decoded
        rw [heard error (by rw [interpret, classified]; exact rejected)] at here
        cases here
    · rw [if_neg same] at here ⊢
      exact .inl ⟨rfl, here⟩
  · rw [not_exists] at event
    refine .inl ⟨?_, eventOf_none codec heard event type⟩
    rw [payloadOf]
    split
    · rename_i e classified
      exact absurd classified (event e)
    · rfl

theorem textOf_said {data : List UInt8} (heard : Heard codec data) :
    textOf codec data = textSaid codec data := by
  have strict (e : EventEnvelope) (type : e.eventType = "response.output_text.delta")
      (bad : OutputTextDeltaPayload.decode e.extra = none) :
      ∃ error, interpretEvent codec e = .reject error := by
    simp only [interpretEvent, type]
    rw [if_neg (by decide), interpretTextDelta, bad]
    exact ⟨_, rfl⟩
  rw [textOf, textSaid]
  rcases payload_cases codec heard strict with ⟨none, silent⟩ | ⟨e, v, payload, found, said, decoded, reads⟩
  · rw [none, silent]
    rfl
  · rw [found, said, Option.map_some, Option.map_some]
    obtain ⟨fields, names, decoded⟩ := Option.bind_eq_some_iff.mp decoded
    obtain ⟨delta, text, built⟩ := Option.bind_eq_some_iff.mp decoded
    rw [record_field names, reads.member _ _ (by decide) (by decide)] at text
    rw [← Option.some.inj built, defaulted_text text]

theorem argumentsOf_said {data : List UInt8} (heard : Heard codec data) (itemId : String) :
    argumentsOf codec itemId data = argumentsSaid codec itemId data := by
  have strict (e : EventEnvelope) (type : e.eventType = "response.function_call_arguments.delta")
      (bad : FunctionCallArgsDeltaPayload.decode e.extra = none) :
      ∃ error, interpretEvent codec e = .reject error := by
    simp only [interpretEvent, type]
    rw [if_neg (by decide), interpretFunctionCallArgsDelta, bad]
    exact ⟨_, rfl⟩
  rw [argumentsOf, argumentsSaid]
  rcases payload_cases codec heard strict with ⟨none, silent⟩ | ⟨e, v, payload, found, said, decoded, reads⟩
  · rw [none, silent]
    rfl
  · obtain ⟨fields, names, decoded⟩ := Option.bind_eq_some_iff.mp decoded
    obtain ⟨id, idText, decoded⟩ := Option.bind_eq_some_iff.mp decoded
    obtain ⟨delta, text, built⟩ := Option.bind_eq_some_iff.mp decoded
    rw [record_field names, reads.member _ _ (by decide) (by decide)] at idText text
    rw [found, said, Option.filter_some, Option.filter_some, ← Option.some.inj built,
      defaulted_text idText, defaulted_text text]
    dsimp only
    split <;> rfl

/-- An item by its fields. -/
theorem FunctionCallItem.decode_fields {item : Json} {call : FunctionCallItem}
    (decoded : FunctionCallItem.decode item = some call) :
    call = { id := textIn (fieldAt 0 "id" item)
             callId := textIn (fieldAt 1 "call_id" item)
             name := textIn (fieldAt 2 "name" item)
             itemType := textIn (fieldAt 3 "type" item) } := by
  obtain ⟨fields, names, decoded⟩ := Option.bind_eq_some_iff.mp decoded
  obtain ⟨id, idText, decoded⟩ := Option.bind_eq_some_iff.mp decoded
  obtain ⟨callId, callText, decoded⟩ := Option.bind_eq_some_iff.mp decoded
  obtain ⟨name, nameText, decoded⟩ := Option.bind_eq_some_iff.mp decoded
  obtain ⟨itemType, typeText, built⟩ := Option.bind_eq_some_iff.mp decoded
  dsimp only at idText callText nameText typeText
  rw [record_field names] at idText callText nameText typeText
  rw [← Option.some.inj built, defaulted_text idText, defaulted_text callText,
    defaulted_text nameText, defaulted_text typeText]
  rfl

theorem callOf_said {data : List UInt8} (heard : Heard codec data) :
    callOf codec data = callSaid codec data := by
  have strict (e : EventEnvelope) (type : e.eventType = "response.output_item.added")
      (bad : OutputItemAddedPayload.decode e.extra = none) :
      ∃ error, interpretEvent codec e = .reject error := by
    simp only [interpretEvent, type]
    rw [if_neg (by decide), interpretOutputItemAdded, bad]
    exact ⟨_, rfl⟩
  rw [callOf, callSaid]
  rcases payload_cases codec heard strict with ⟨none, silent⟩ | ⟨e, v, payload, found, said, decoded, reads⟩
  · rw [none, silent]
    rfl
  · obtain ⟨fields, names, decoded⟩ := Option.bind_eq_some_iff.mp decoded
    obtain ⟨item, read, built⟩ := Option.bind_eq_some_iff.mp decoded
    rw [record_field names, reads.member _ _ (by decide) (by decide)] at read
    rw [found, said, Option.bind_some, Option.bind_some, ← Option.some.inj built]
    cases present : v.get? "item" with
    | none =>
      rw [present, defaulted_none] at read
      rw [← Option.some.inj read]
      rfl
    | some inner =>
      rw [present, defaulted_some] at read
      rcases nullable_eq_some read with ⟨rfl, rfl⟩ | ⟨call, decoded, rfl⟩
      · rfl
      · rw [FunctionCallItem.decode_fields decoded]
        rfl

theorem isCreated_said {data : List UInt8} (heard : Heard codec data) :
    isCreated codec data = opensResponse codec data := by
  by_cases event : ∃ e, classify codec data = .event e
  · obtain ⟨e, classified⟩ := event
    obtain ⟨v, read, reads⟩ := classify_reads codec classified
    rw [isCreated, classified, opensResponse, reads.eventOf codec read]
    by_cases same : e.eventType = "response.created" <;> simp [same]
  · rw [not_exists] at event
    rw [isCreated, opensResponse, eventOf_none codec heard event]
    split
    · rename_i e classified
      exact absurd classified (event e)
    · rfl

theorem eventJson_toVec {v : Json} (portable : v.Portable) :
    eventJson codec (codec.toVec v) = some v.normalize := by
  rw [eventJson, Json.Codec.fromSlice,
    codec.read_trimAscii _ _ (codec.read_toVec portable), Option.map_some]

theorem eventOf_toVec {v : Json} (portable : v.Portable) (type : String) :
    eventOf codec type (codec.toVec v) =
      if (v.normalize.get? "type").bind Json.asString = some type then some v.normalize else none := by
  rw [eventOf, eventJson_toVec codec portable, Option.filter_some]
  simp

end CodexProxy.Transform
