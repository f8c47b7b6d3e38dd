import CodexProxy.Transform.Output

/-! The reasoning and the usage that an upstream event reports, read off its JSON by the
names of its members as its text and calls are. -/
namespace CodexProxy.Transform
open SSETransformer Json.Decode

variable (codec : Json.Codec)

/-- The texts of the entries of a list. -/
def textsIn (field : Option Json) : List String :=
  ((field.bind Json.asArray).getD []).map fun entry => textIn (entry.get? "text")

/-- The places of an event's reasoning text, in order of precedence. The summaries are
none of them when the item's content is encrypted. -/
def reasoningPlaces (v : Json) : List String :=
  let item := v.get? "item"
  [textIn (v.get? "delta"), textIn (v.get? "text"),
    textIn ((v.get? "part").bind (·.get? "text"))] ++
    if ((item.bind (·.get? "encrypted_content")).bind Json.asString).isSome then []
    else textsIn (item.bind (·.get? "summary")) ++ textsIn (v.get? "summary")

/-- The text of a reasoning delta whose output index counts. -/
def reasoningSaid (counts : Option Json → Bool) (data : List UInt8) : Option String :=
  ((eventJson codec data).filter fun v =>
    Text.startsWith (textIn (v.get? "type")) "response.reasoning" ∧
      Text.contains (textIn (v.get? "type")) ".delta" ∧ counts (v.get? "output_index")).bind
    fun v => (reasoningPlaces v).find? (· ≠ "")

/-- A count of the usage. -/
def countIn (usage : Option Json) (position : Nat) (name : String) : Option Int64 :=
  (usage.bind (fieldAt position name)).bind Json.asInt64

/-- A count of the details of the usage. -/
def detailIn (usage : Option Json) (position : Nat) (name detail : String) : Option Int64 :=
  ((usage.bind (fieldAt position name)).bind (fieldAt 0 detail)).bind Json.asInt64

/-- A usage under its OpenAI names, which have precedence. Without a total it is the sum;
without a detail there are no details. -/
def usageJson (usage : Option Json) : Json :=
  let prompt := ((countIn usage 0 "prompt_tokens").or (countIn usage 3 "input_tokens")).getD 0
  let completion :=
    ((countIn usage 1 "completion_tokens").or (countIn usage 4 "output_tokens")).getD 0
  let cached := (detailIn usage 6 "prompt_tokens_details" "cached_tokens").or
    (detailIn usage 5 "input_tokens_details" "cached_tokens")
  let reasoning := (detailIn usage 8 "completion_tokens_details" "reasoning_tokens").or
    (detailIn usage 7 "output_tokens_details" "reasoning_tokens")
  Json.buildObject ([("prompt_tokens", .ofInt64 prompt), ("completion_tokens", .ofInt64 completion),
      ("total_tokens", .ofInt64 ((countIn usage 2 "total_tokens").getD (prompt + completion)))] ++
    (cached.map fun n => ("prompt_tokens_details",
      Json.buildObject [("cached_tokens", .ofInt64 n)])).toList ++
    (reasoning.map fun n => ("completion_tokens_details",
      Json.buildObject [("reasoning_tokens", .ofInt64 n)])).toList)

/-- The usage of a `response.completed` event. -/
def usageSaid (data : List UInt8) : Option Json :=
  (eventOf codec "response.completed" data).map fun v =>
    usageJson ((v.get? "response").bind (fieldAt 0 "usage"))

theorem nonEmpty_eq (field : Option Json) : nonEmpty field = [textIn field].find? (· ≠ "") := by
  rw [nonEmpty, textIn]
  cases field.bind Json.asString with
  | none => rfl
  | some s => by_cases empty : s = "" <;> simp [empty]

theorem extractSummaryText_eq (summary : Option Json) :
    extractSummaryText summary = (textsIn summary).find? (· ≠ "") := by
  rw [extractSummaryText, textsIn]
  cases summary.bind Json.asArray with
  | none => rfl
  | some entries =>
    rw [Option.bind_some, Option.getD_some]
    induction entries with
    | nil => rfl
    | cons entry entries ih =>
      rw [List.findSome?_cons, nonEmpty_eq, ih, List.map_cons]
      by_cases empty : textIn (entry.get? "text") = "" <;> simp [empty]

theorem EventEnvelope.Reads.get? {e : EventEnvelope} {v : Json} (reads : e.Reads v) {k : String}
    (notType : k ≠ "type") (notSequence : k ≠ "sequence_number") : e.extra.get? k = v.get? k := by
  cases extra : e.extra with
  | array items =>
    have beyond := reads.member items.length k notType notSequence
    rw [extra, fieldAt, List.getElem?_eq_none (Nat.le_refl _)] at beyond
    exact beyond
  | _ =>
    have same := reads.member 0 k notType notSequence
    rw [extra] at same
    exact same

/-- What is no object has no members. -/
theorem bind_get?_filter (field : Option Json) (k : String) :
    (field.filter Json.isObject).bind (·.get? k) = field.bind (·.get? k) := by
  cases field with
  | none => rfl
  | some v => cases v <;> rfl

theorem extractReasoningContent_eq {e : EventEnvelope} {v : Json} (reads : e.Reads v) :
    e.extractReasoningContent = (reasoningPlaces v).find? (· ≠ "") := by
  simp only [EventEnvelope.extractReasoningContent, reasoningPlaces, bind_get?_filter,
    reads.get? (show "delta" ≠ "type" by decide) (by decide),
    reads.get? (show "text" ≠ "type" by decide) (by decide),
    reads.get? (show "part" ≠ "type" by decide) (by decide),
    reads.get? (show "item" ≠ "type" by decide) (by decide),
    reads.get? (show "summary" ≠ "type" by decide) (by decide),
    nonEmpty_eq, extractSummaryText_eq, List.find?_append, ← Option.or_assoc]
  congr 1
  · rw [← List.find?_append, ← List.find?_append]
    rfl
  · split
    · rfl
    · rw [List.find?_append]

/-- A value that is no event has no type. -/
theorem textIn_type {data : List UInt8} {v : Json} (none' : ∀ type, eventOf codec type data = none)
    (read : eventJson codec data = some v) : textIn (v.get? "type") = "" := by
  rw [textIn]
  cases type : (v.get? "type").bind Json.asString with
  | none => rfl
  | some t =>
    have event := (eventOf_eq_some codec).mpr ⟨read, type⟩
    rw [none' t] at event
    cases event

theorem reasoningOf_said {data : List UInt8} (heard : Heard codec data)
    (counts : Option Json → Bool) :
    reasoningOf codec counts data = reasoningSaid codec counts data := by
  by_cases event : ∃ e, classify codec data = .event e
  · obtain ⟨e, classified⟩ := event
    obtain ⟨v, read, reads⟩ := classify_reads codec classified
    have type : textIn (v.get? "type") = e.eventType := by
      rw [reads.type]
      rfl
    have envelope : envelopeOf codec data = some e := by rw [envelopeOf, classified]
    rw [reasoningOf, envelope, Option.bind_some, extractReasoningContent_eq reads, reasoningSaid,
      read, Option.filter_some, type, ← reads.get? (by decide) (by decide),
      EventEnvelope.isReasoningDelta]
    simp only [Bool.and_eq_true, decide_eq_true_eq, and_assoc]
    split <;> rfl
  · rw [not_exists] at event
    have envelope : envelopeOf codec data = none := by
      rw [envelopeOf]
      split
      · rename_i e classified
        exact absurd classified (event e)
      · rfl
    rw [reasoningOf, envelope, reasoningSaid]
    cases read : eventJson codec data with
    | none => rfl
    | some v =>
      have typeless := textIn_type codec (eventOf_none codec heard event) read
      have quiet : Text.startsWith "" "response.reasoning" = false := by decide
      rw [Option.filter_some_neg (by simp [typeless, quiet])]
      rfl

/-- A detail of the usage, which may be absent or null. -/
theorem detail_read {name : String} {decode : Json → Option α} {count : α → Option Int64}
    (reads : ∀ v d, decode v = some d → count d = (fieldAt 0 name v).bind Json.asInt64)
    {field : Option Json} {result : Option α}
    (read : defaulted (nullable decode) none field = some result) :
    result.bind count = (field.bind (fieldAt 0 name)).bind Json.asInt64 := by
  cases field with
  | none => rw [← Option.some.inj read]; rfl
  | some v =>
    rw [defaulted_some] at read
    rcases nullable_eq_some read with ⟨rfl, rfl⟩ | ⟨d, decoded, rfl⟩
    · rfl
    · exact reads v d decoded

theorem UpstreamInputDetails.decode_cached (v : Json) (d : UpstreamInputDetails)
    (decoded : UpstreamInputDetails.decode v = some d) :
    d.cachedTokens = (fieldAt 0 "cached_tokens" v).bind Json.asInt64 := by
  obtain ⟨fields, names, decoded⟩ := Option.bind_eq_some_iff.mp decoded
  obtain ⟨cached, read, built⟩ := Option.bind_eq_some_iff.mp decoded
  rw [record_field names] at read
  rw [← Option.some.inj built]
  exact defaulted_nullable rfl read

theorem UpstreamOutputDetails.decode_reasoning (v : Json) (d : UpstreamOutputDetails)
    (decoded : UpstreamOutputDetails.decode v = some d) :
    d.reasoningTokens = (fieldAt 0 "reasoning_tokens" v).bind Json.asInt64 := by
  obtain ⟨fields, names, decoded⟩ := Option.bind_eq_some_iff.mp decoded
  obtain ⟨reasoning, read, built⟩ := Option.bind_eq_some_iff.mp decoded
  rw [record_field names] at read
  rw [← Option.some.inj built]
  exact defaulted_nullable rfl read

/-- The JSON of a usage, by its counts. -/
theorem Usage.toJson_normalize (u : Usage) : u.toJson.normalize =
    Json.buildObject ([("prompt_tokens", .ofInt64 u.promptTokens),
        ("completion_tokens", .ofInt64 u.completionTokens),
        ("total_tokens", .ofInt64 u.totalTokens)] ++
      (u.promptTokensDetails.map fun d => ("prompt_tokens_details",
        Json.buildObject [("cached_tokens", .ofInt64 d.cachedTokens)])).toList ++
      (u.completionTokensDetails.map fun d => ("completion_tokens_details",
        Json.buildObject [("reasoning_tokens", .ofInt64 d.reasoningTokens)])).toList) := by
  have number (n : Int64) : (Json.ofInt64 n).normalize = .ofInt64 n := by
    simp [Json.ofInt64, Json.normalize]
  have detail (k : String) (n : Int64) :
      (Json.object [(k, .ofInt64 n)]).normalize = Json.buildObject [(k, .ofInt64 n)] := by
    rw [Json.normalize_object, List.map_singleton, number]
  rw [Usage.toJson, Json.normalize_object]
  cases u.promptTokensDetails <;> cases u.completionTokensDetails <;>
    simp [skipNone, number, detail, PromptTokensDetails.toJson, CompletionTokensDetails.toJson]

/-- The counts of a usage that is decoded. -/
theorem UpstreamUsage.decode_counts {v : Json} {usage : UpstreamUsage}
    (decoded : UpstreamUsage.decode v = some usage) :
    usage.toOpenai.toJson.normalize = usageJson (some v) := by
  obtain ⟨fields, names, decoded⟩ := Option.bind_eq_some_iff.mp decoded
  have count (k : String) {result : Option Int64}
      (read : defaulted (nullable Json.asInt64) none (fields k) = some result) :
      result = (fields k).bind Json.asInt64 := defaulted_nullable rfl read
  have field (k : String) := record_field names k
  obtain ⟨prompt, promptRead, decoded⟩ := Option.bind_eq_some_iff.mp decoded
  obtain ⟨completion, completionRead, decoded⟩ := Option.bind_eq_some_iff.mp decoded
  obtain ⟨total, totalRead, decoded⟩ := Option.bind_eq_some_iff.mp decoded
  obtain ⟨input, inputRead, decoded⟩ := Option.bind_eq_some_iff.mp decoded
  obtain ⟨output, outputRead, decoded⟩ := Option.bind_eq_some_iff.mp decoded
  obtain ⟨inputDetails, inputDetailsRead, decoded⟩ := Option.bind_eq_some_iff.mp decoded
  obtain ⟨promptDetails, promptDetailsRead, decoded⟩ := Option.bind_eq_some_iff.mp decoded
  obtain ⟨outputDetails, outputDetailsRead, decoded⟩ := Option.bind_eq_some_iff.mp decoded
  obtain ⟨completionDetails, completionDetailsRead, built⟩ := Option.bind_eq_some_iff.mp decoded
  have cached := detail_read UpstreamInputDetails.decode_cached promptDetailsRead
  have cached' := detail_read UpstreamInputDetails.decode_cached inputDetailsRead
  have reasoning := detail_read UpstreamOutputDetails.decode_reasoning completionDetailsRead
  have reasoning' := detail_read UpstreamOutputDetails.decode_reasoning outputDetailsRead
  rw [field] at cached cached' reasoning reasoning'
  rw [← Option.some.inj built, Usage.toJson_normalize, UpstreamUsage.toOpenai]
  simp only [Usage.withTotal, cached, cached', reasoning, reasoning', count _ promptRead,
    count _ completionRead, count _ totalRead, count _ inputRead, count _ outputRead, field,
    Option.map_map, usageJson]
  rfl

theorem usageOf_said {data : List UInt8} (heard : Heard codec data) :
    (usageOf codec data).map (·.toJson.normalize) = usageSaid codec data := by
  have strict (e : EventEnvelope) (type : e.eventType = "response.completed")
      (bad : CompletedPayload.decode e.extra = none) :
      ∃ error, interpretEvent codec e = .reject error := by
    simp only [interpretEvent, type]
    rw [if_neg (by decide), interpretCompleted, bad]
    exact ⟨_, rfl⟩
  rw [usageOf, usageSaid]
  rcases payload_cases codec heard strict with ⟨none, silent⟩ | ⟨e, v, payload, found, said, decoded, reads⟩
  · rw [none, silent]
    rfl
  · rw [found, said, Option.map_some, Option.map_some, Option.map_some]
    obtain ⟨fields, names, decoded⟩ := Option.bind_eq_some_iff.mp decoded
    obtain ⟨response, read, built⟩ := Option.bind_eq_some_iff.mp decoded
    rw [record_field names, reads.member _ _ (by decide) (by decide)] at read
    rw [← Option.some.inj built]
    cases present : v.get? "response" with
    | none =>
      rw [present, defaulted_none] at read
      rw [← Option.some.inj read]
      rfl
    | some inner =>
      rw [present, defaulted_some] at read
      obtain ⟨members, inside, decoded⟩ := Option.bind_eq_some_iff.mp read
      obtain ⟨usage, usageRead, same⟩ := Option.bind_eq_some_iff.mp decoded
      rw [record_field inside] at usageRead
      change defaulted _ _ (fieldAt 0 "usage" inner) = _ at usageRead
      rw [← Option.some.inj same, Option.bind_some]
      cases reported : fieldAt 0 "usage" inner with
      | none =>
        rw [reported, defaulted_none] at usageRead
        rw [← Option.some.inj usageRead]
        rfl
      | some counts =>
        rw [reported, defaulted_some] at usageRead
        rcases nullable_eq_some usageRead with ⟨rfl, rfl⟩ | ⟨counted, decoded, rfl⟩
        · rfl
        · exact congrArg some (UpstreamUsage.decode_counts decoded)

end CodexProxy.Transform
