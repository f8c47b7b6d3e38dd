import CodexProxy.Transform.Reported
import CodexProxy.Buffered.Reconstruction

/-! The buffered completion, told from the JSON of the upstream's events. No decoder of the
transformer is used for what is told; the typed payloads agree with it where no event is
rejected. -/
namespace CodexProxy.Buffered
open Bytes EventStream Transform Relay Polling

variable (codec : Json.Codec)

/-- The calls that an item is announced with. -/
def announcementsSaid (itemId : String) (events : List Event) : List FunctionCallItem :=
  (events.filterMap (callSaid codec)).filter (·.id = itemId)

/-- The call of an item: its last id and name, and the arguments after it was announced. -/
def toldCall (events : List Event) (itemId : String) : ToolCallAccumulator where
  id := (((announcementsSaid codec itemId events).getLast?).map (·.downstreamId)).getD ""
  name := (((announcementsSaid codec itemId events).getLast?).map (·.name)).getD ""
  arguments := String.join (argumentsSaidAfter codec itemId events)

/-- The events up to the last `response.completed`, or none. -/
def untilCompleted (events : List Event) : List Event :=
  events.rdropWhile fun data => (eventOf codec "response.completed" data).isNone

/-- The completion that the events amount to, with the reasoning under the output
indices that count. -/
def told (counts : Option Json → Bool) (events : List Event) : Completion where
  content := String.join (events.filterMap (textSaid codec))
  reasoningContent := String.join (events.filterMap (reasoningSaid codec counts))
  toolCalls := (itemsSaid codec events).map (toldCall codec events)
  finishReason := if itemsSaid codec (untilCompleted codec events) = [] then "stop"
    else "tool_calls"
  usage := (events.filterMap (usageSaid codec)).getLast?

/-- Text, reasoning, a part of a call or the end of a response. -/
def Outputs (data : Event) : Prop :=
  (textSaid codec data).isSome ∨ (reasoningSaid codec notPositive data).isSome ∨
  (callSaid codec data).isSome ∨ (∃ itemId, (argumentsSaid codec itemId data).isSome) ∨
  (usageSaid codec data).isSome

/-- At most one `response.created` event, before any output. -/
def OneResponse (events : List Event) : Prop :=
  ∀ before data after, events = before ++ data :: after → opensResponse codec data = true →
    ∀ d ∈ before, opensResponse codec d = false ∧ ¬ Outputs codec d

/-- All JSON events have a sequence number within `i64`. -/
def Numbered (events : List Event) : Prop :=
  ∀ e ∈ events, ∀ v, eventJson codec e = some v →
    FitsInt64 ((v.get? "sequence_number").bind Json.asUInt64)

theorem heard_of_accepted {data : Event} (accepted : rejects codec data = false) :
    Heard codec data := by
  intro error rejected
  rw [rejects, rejected] at accepted
  cases accepted

theorem envelopeOf_reads {data : Event} {e : EventEnvelope}
    (envelope : envelopeOf codec data = some e) :
    ∃ v, eventJson codec data = some v ∧ e.Reads v := by
  unfold envelopeOf at envelope
  split at envelope
  · rename_i e' classified
    obtain rfl := Option.some.inj envelope
    exact classify_reads codec classified
  · cases envelope

theorem sequenceNumber_eq (data : Event) :
    sequenceNumber codec data = (envelopeOf codec data).bind (·.sequenceNumber) := by
  unfold sequenceNumber envelopeOf
  cases SSETransformer.classify codec data <;> rfl

section
variable {codec} {events : List Event}

theorem Numbered.sequenced (numbered : Numbered codec events) : Sequenced codec events := by
  intro data member event
  obtain ⟨e, envelope⟩ := Option.isSome_iff_exists.mp event
  obtain ⟨v, read, reads⟩ := envelopeOf_reads codec envelope
  rw [sequenceNumber_eq, envelope, Option.bind_some, reads.sequence]
  exact numbered data member v read

theorem OneResponse.reset (heard : ∀ data ∈ events, Heard codec data)
    (one : OneResponse codec events) : OneReset codec events := by
  intro before data after split created d member
  have inside : data ∈ events ∧ d ∈ events := by
    rw [split]
    exact ⟨by simp, List.mem_append_left _ member⟩
  rw [isCreated_said codec (heard data inside.1)] at created
  rw [callOf_said codec (heard d inside.2)]
  by_contra called
  refine (one before data after split created d member).2 (.inr (.inr (.inl ?_)))
  exact Option.isSome_iff_ne_none.mpr called

end

/-- By induction from the end of the events. -/
theorem untilUsage_said {events : List Event} (heard : ∀ data ∈ events, Heard codec data) :
    untilUsage codec events = untilCompleted codec events := by
  induction events using List.reverseRecOn with
  | nil => rfl
  | append_singleton events data ih =>
    have same : (usageOf codec data).isNone = (eventOf codec "response.completed" data).isNone := by
      have said := usageOf_said codec (heard data (by simp))
      rw [usageSaid] at said
      have present := congrArg Option.isNone said
      rwa [Option.isNone_map, Option.isNone_map] at present
    rw [untilUsage, untilCompleted, List.rdropWhile_concat, List.rdropWhile_concat, same]
    split
    · exact ih fun d member => heard d (List.mem_append_left _ member)
    · rfl

theorem decodedCall_said {events : List Event} (heard : ∀ data ∈ events, Heard codec data)
    (itemId : String) : decodedCall codec events itemId = toldCall codec events itemId := by
  have calls : announcementsOf codec itemId events = announcementsSaid codec itemId events := by
    rw [announcementsOf, announcementsSaid,
      List.filterMap_congr fun data member => callOf_said codec (heard data member)]
  rw [decodedCall, toldCall, calls, argumentsAfter_said codec heard]

/-- Where nothing is rejected the payloads amount to what is told. -/
theorem decodedCompletion_said {events : List Event} (heard : ∀ data ∈ events, Heard codec data) :
    decodedCompletion codec events = told codec notPositive events := by
  have text : events.filterMap (textOf codec) = events.filterMap (textSaid codec) :=
    List.filterMap_congr fun data member => textOf_said codec (heard data member)
  have reasoning : events.filterMap (reasoningOf codec notPositive) =
      events.filterMap (reasoningSaid codec notPositive) :=
    List.filterMap_congr fun data member => reasoningOf_said codec (heard data member) _
  have usage : (events.filterMap (usageOf codec)).map (·.toJson.normalize) =
      events.filterMap (usageSaid codec) := by
    rw [List.map_filterMap]
    exact List.filterMap_congr fun data member => usageOf_said codec (heard data member)
  have completed : ∀ data ∈ untilCompleted codec events, Heard codec data :=
    fun data member => heard data ((List.rdropWhile_prefix _ _).subset member)
  rw [decodedCompletion, told, text, reasoning, ← usage, List.getLast?_map, untilUsage_said codec heard,
    announced_said codec heard, announced_said codec completed,
    List.map_congr_left fun itemId _ => decodedCall_said codec heard itemId]

/-- What nothing is rejected of is presented as it was told. -/
theorem presents_told {reads : List (List UInt8)} (model : String) (now : Int64)
    (accepted : ∀ e ∈ eventsOf reads.flatten .eof, rejects codec e = false)
    (numbered : Numbered codec (eventsOf reads.flatten .eof))
    (one : OneResponse codec (eventsOf reads.flatten .eof))
    (few : (itemsSaid codec (eventsOf reads.flatten .eof)).length ≤ 2 ^ 64) :
    ∃ response, bufferChatCompletion codec reads .eof model now = .ok response ∧
      Presents response (told codec notPositive (eventsOf reads.flatten .eof)) := by
  have heard := fun data member => heard_of_accepted codec (accepted data member)
  obtain ⟨response, returned, presents⟩ := buffer_presents codec model now accepted
  rw [← announced_said codec heard] at few
  rw [completionOf_decoded codec model (one.reset heard) numbered.sequenced few,
    decodedCompletion_said codec heard] at presents
  exact ⟨response, returned, presents⟩

/-- A completion that is returned presents what the upstream told. The table of a
segment's items has a `usize` length, so there are at most 2⁶⁴ of them. -/
theorem completion_told {reads : List (List UInt8)} {ending : Ending} {model : String} {now : Int64}
    {response : Json}
    (returned : bufferChatCompletion codec reads ending model now = .ok response)
    (numbered : Numbered codec (eventsOf reads.flatten ending))
    (one : OneResponse codec (eventsOf reads.flatten ending))
    (few : (itemsSaid codec (eventsOf reads.flatten ending)).length ≤ 2 ^ 64) :
    Presents response (told codec notPositive (eventsOf reads.flatten ending)) := by
  by_cases failed : ending ≠ .eof ∨ ∃ e ∈ eventsOf reads.flatten ending, rejects codec e = true
  · obtain ⟨err, result⟩ := buffer_error codec model now failed
    rw [result] at returned
    cases returned
  · obtain ⟨eof, accepted⟩ := not_or.mp failed
    simp only [ne_eq, Decidable.not_not] at eof
    subst eof
    have accepts : ∀ e ∈ eventsOf reads.flatten .eof, rejects codec e = false := by
      simpa using accepted
    obtain ⟨response', returned', presents⟩ :=
      presents_told codec model now accepts numbered one few
    rw [returned] at returned'
    cases returned'
    exact presents

/-- A response that thinks under a negative output index and then calls a function. -/
def thinkingCall : List Json :=
  [.object [("type", .string "response.created"), ("sequence_number", .ofUInt64 0)],
    .object [("type", .string "response.reasoning_text.delta"), ("sequence_number", .ofUInt64 1),
      ("output_index", .ofInt64 (-1)), ("delta", .string "hm")],
    .object [("type", .string "response.output_item.added"), ("sequence_number", .ofUInt64 2),
      ("item", .object [("id", .string "fc_1"), ("name", .string "shell"),
        ("type", .string "function_call")])],
    .object [("type", .string "response.function_call_arguments.delta"),
      ("sequence_number", .ofUInt64 3), ("item_id", .string "fc_1"), ("delta", .string "[]")],
    .object [("type", .string "response.completed"), ("sequence_number", .ofUInt64 4)]]

/-- A response that only its first event can create. -/
theorem OneResponse.of_tail {events : List Event}
    (later : ∀ data ∈ events.tail, opensResponse codec data = false) : OneResponse codec events := by
  rintro before data after rfl opens d member
  cases before with
  | nil => cases member
  | cons first before =>
    rw [later data (by simp)] at opens
    cases opens

theorem thinkingCall_portable : ∀ v ∈ thinkingCall, v.Portable := by decide

theorem thinkingCall_numbered : Numbered codec (thinkingCall.map codec.toVec) := by
  intro e member v' read
  obtain ⟨v, event, rfl⟩ := List.mem_map.mp member
  rw [eventJson_toVec codec (thinkingCall_portable v event)] at read
  obtain rfl := Option.some.inj read
  simp only [thinkingCall, List.mem_cons, List.not_mem_nil, or_false] at event
  rcases event with rfl | rfl | rfl | rfl | rfl
  · exact ⟨0, rfl, by decide⟩
  · exact ⟨1, rfl, by decide⟩
  · exact ⟨2, rfl, by decide⟩
  · exact ⟨3, rfl, by decide⟩
  · exact ⟨4, rfl, by decide⟩

theorem thinkingCall_one : OneResponse codec (thinkingCall.map codec.toVec) := by
  apply OneResponse.of_tail
  intro e member
  rw [← List.map_tail] at member
  obtain ⟨v, event, rfl⟩ := List.mem_map.mp member
  rw [opensResponse, eventOf_toVec codec (thinkingCall_portable v (List.mem_of_mem_tail event))]
  simp only [thinkingCall, List.tail_cons, List.mem_cons, List.not_mem_nil, or_false] at event
  rcases event with rfl | rfl | rfl | rfl <;> rfl

theorem thinkingCall_accepted : ∀ e ∈ thinkingCall.map codec.toVec, rejects codec e = false := by
  intro e member
  obtain ⟨v, event, rfl⟩ := List.mem_map.mp member
  have portable := thinkingCall_portable v event
  simp only [thinkingCall, List.mem_cons, List.not_mem_nil, or_false] at event
  rcases event with rfl | rfl | rfl | rfl | rfl <;>
    rw [rejects, interpret_toVec codec portable rfl] <;> rfl

/-- What each event announces. -/
theorem thinkingCall_calls : (thinkingCall.map codec.toVec).map (callSaid codec) = [none, none,
    some { id := "fc_1", callId := "", name := "shell", itemType := "function_call" },
    none, none] := by
  simp (disch := decide) only [thinkingCall, List.map_cons, List.map_nil, callSaid, eventOf_toVec]
  rfl

theorem thinkingCall_items : itemsSaid codec (thinkingCall.map codec.toVec) = ["fc_1"] := by
  rw [itemsSaid_map, thinkingCall_calls]
  rfl

theorem thinkingCall_few : (itemsSaid codec (thinkingCall.map codec.toVec)).length ≤ 2 ^ 64 := by
  rw [thinkingCall_items]
  decide

theorem thinkingCall_arguments :
    argumentsSaidAfter codec "fc_1" (thinkingCall.map codec.toVec) = ["[]"] := by
  obtain ⟨created, rest⟩ := List.cons.inj (thinkingCall_calls codec)
  obtain ⟨thinks, rest⟩ := List.cons.inj rest
  have other {v : Json} (silent : callSaid codec (codec.toVec v) = none) :
      (callSaid codec (codec.toVec v)).map (·.id) ≠ some "fc_1" := by
    rw [silent]
    rintro ⟨⟩
  have announces : (callSaid codec (codec.toVec thinkingCall[2])).map (·.id) = some "fc_1" :=
    congrArg (Option.map (·.id)) (List.cons.inj rest).1
  refine (argumentsSaidAfter_other codec (other created) _).trans
    ((argumentsSaidAfter_other codec (other thinks) _).trans
      ((argumentsSaidAfter_own codec announces _).trans ?_))
  simp (disch := decide) only [List.map_cons, List.map_nil, List.filterMap_cons,
    List.filterMap_nil, argumentsSaid, eventOf_toVec]
  rfl

theorem reasoningSaid_thinkingCall :
    (thinkingCall.map codec.toVec).filterMap (reasoningSaid codec notPositive) = ["hm"] ∧
    (thinkingCall.map codec.toVec).filterMap (reasoningSaid codec zeroOrAbsent) = [] := by
  have said (counts : Option Json → Bool) :
      (thinkingCall.map codec.toVec).filterMap (reasoningSaid codec counts) =
        thinkingCall.filterMap fun v => ((some v.normalize).filter fun v =>
          Text.startsWith (textIn (v.get? "type")) "response.reasoning" ∧
            Text.contains (textIn (v.get? "type")) ".delta" ∧ counts (v.get? "output_index")).bind
          fun v => (reasoningPlaces v).find? (· ≠ "") := by
    rw [List.filterMap_map]
    refine List.filterMap_congr fun v event => ?_
    rw [Function.comp_apply, reasoningSaid, eventJson_toVec codec (thinkingCall_portable v event)]
  rw [said, said]
  exact ⟨by decide +kernel, by decide +kernel⟩

/-- The one call that is told, and no text. -/
theorem told_thinkingCall :
    (told codec notPositive (thinkingCall.map codec.toVec)).content = "" ∧
    (told codec notPositive (thinkingCall.map codec.toVec)).toolCalls =
      [{ id := "call_fc_1", name := "shell", arguments := "[]" }] := by
  constructor
  · simp (disch := decide) only [told, thinkingCall, List.map_cons, List.map_nil,
      List.filterMap_cons, List.filterMap_nil, textSaid, eventOf_toVec]
    rfl
  · have called : (thinkingCall.map codec.toVec).filterMap (callSaid codec) =
        [{ id := "fc_1", callId := "", name := "shell", itemType := "function_call" }] := by
      have listed := congrArg (List.filterMap id) (thinkingCall_calls codec)
      rwa [List.filterMap_map, Function.id_comp] at listed
    rw [told, thinkingCall_items, List.map_singleton, toldCall, announcementsSaid, called,
      thinkingCall_arguments]
    rfl

theorem Presents.reasoning_unique {response : Json} {c c' : Completion}
    (left : Presents response c) (right : Presents response c') :
    c.reasoningContent = c'.reasoningContent := by
  obtain ⟨choice, message, choices, found, _, _, reasoning, _⟩ := left
  obtain ⟨choice', message', choices', found', _, _, reasoning', _⟩ := right
  rw [choices] at choices'
  cases choices'
  rw [found] at found'
  cases found'
  rw [reasoning] at reasoning'
  split at reasoning' <;> split at reasoning' <;> simp_all

theorem thinkingCall_presents : ∃ response,
    bufferChatCompletion codec (streamOf codec thinkingCall) .eof "gpt-5" 0 = .ok response ∧
    Presents response (told codec notPositive (thinkingCall.map codec.toVec)) := by
  have events := eventsOf_streamOf codec thinkingCall .eof
  have accepted : ∀ e ∈ eventsOf (streamOf codec thinkingCall).flatten .eof,
      rejects codec e = false := by
    rw [events]
    exact thinkingCall_accepted codec
  obtain ⟨response, returned, presents⟩ := presents_told codec "gpt-5" 0 accepted
    (by rw [events]; exact thinkingCall_numbered codec)
    (by rw [events]; exact thinkingCall_one codec) (by rw [events]; exact thinkingCall_few codec)
  rw [events] at presents
  exact ⟨response, returned, presents⟩

/-- The reasoning under an output index of -1 is kept, which is neither zero nor absent. -/
theorem negativeIndex_kept :
    Numbered JsonText.codec
      (eventsOf (streamOf JsonText.codec thinkingCall).flatten .eof) ∧
    OneResponse JsonText.codec
      (eventsOf (streamOf JsonText.codec thinkingCall).flatten .eof) ∧
    ∃ response, bufferChatCompletion JsonText.codec (streamOf JsonText.codec thinkingCall) .eof
        "gpt-5" 0 = .ok response ∧
      ¬ Presents response (told JsonText.codec zeroOrAbsent
        (eventsOf (streamOf JsonText.codec thinkingCall).flatten .eof)) := by
  obtain ⟨response, returned, presents⟩ := thinkingCall_presents JsonText.codec
  obtain ⟨kept, dropped⟩ := reasoningSaid_thinkingCall JsonText.codec
  rw [eventsOf_streamOf]
  refine ⟨thinkingCall_numbered _, thinkingCall_one _, response, returned, ?_⟩
  intro presents'
  have same := presents.reasoning_unique presents'
  rw [told, told] at same
  dsimp only at same
  rw [kept, dropped] at same
  simp at same

theorem completion_told_thinkingCall : ∃ response,
    bufferChatCompletion JsonText.codec (streamOf JsonText.codec thinkingCall) .eof "gpt-5" 0 =
      .ok response ∧
    Presents response (told JsonText.codec notPositive
      (eventsOf (streamOf JsonText.codec thinkingCall).flatten .eof)) := by
  obtain ⟨response, returned, _⟩ := thinkingCall_presents JsonText.codec
  refine ⟨response, returned, completion_told JsonText.codec returned ?_ ?_ ?_⟩
  · rw [eventsOf_streamOf]
    exact thinkingCall_numbered _
  · rw [eventsOf_streamOf]
    exact thinkingCall_one _
  · rw [eventsOf_streamOf]
    exact thinkingCall_few _

end CodexProxy.Buffered
