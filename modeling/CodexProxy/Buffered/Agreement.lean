import CodexProxy.Buffered.Completion
import CodexProxy.Buffered.Runs
import CodexProxy.Relay.Framing
import CodexProxy.Relay.Success

/-! The streaming and the buffered chat path on one upstream. Both run the same
transformer, so they agree where the relay copies nothing of its own, where nothing
is emitted after the sentinel and where no frame is skipped. -/
namespace CodexProxy.Buffered
open Json.Decode Bytes EventStream Transform Relay Polling

variable (codec : Json.Codec)

/-- A frame as the buffered path sees it, if it sees it. -/
def recovered (c : ChatCompletionChunk) : Option StreamingChunk :=
  (decodeCreated c.created).map (.of c)

/-- Skipped frames aside, the loop absorbs what the chunks carry. -/
theorem absorbChunks_eq (chunks : List ChatCompletionChunk) (s : Aggregation) :
    s.absorbChunks codec chunks = (chunks.filterMap recovered).foldl Aggregation.absorb s := by
  induction chunks generalizing s with
  | nil => rfl
  | cons c chunks ih =>
    have first : s.absorbFrame codec (SSETransformer.frame codec c) =
        ((recovered c).map s.absorb).getD s := by
      rw [Aggregation.absorbFrame, StreamingChunk.fromFrame_frame, recovered]
      cases decodeCreated c.created <;> rfl
    rw [Aggregation.absorbChunks, List.foldl_cons, first, List.filterMap_cons]
    cases recovered c with
    | none => exact ih s
    | some d => exact ih (s.absorb d)

/-- A stream that is accepted to its end is presented as the completion of the frames
that were not skipped. -/
theorem buffer_presents {reads : List (List UInt8)} (model : String) (now : Int64)
    (accepted : ∀ e ∈ eventsOf reads.flatten .eof, rejects codec e = false) :
    ∃ response, bufferChatCompletion codec reads .eof model now = .ok response ∧
      Presents response (completionOf (((SSETransformer.new model).emitted codec
        (eventsOf reads.flatten .eof)).filterMap recovered)) := by
  refine ⟨_, buffer_ok codec model now accepted, ?_⟩
  rw [absorbChunks_eq]
  exact response_presents (accumulated_foldl [] _ accumulated_nil) model now

/-- Where chunks come from and when does not matter to a completion. -/
theorem completionOf_congr {chunks chunks' : List StreamingChunk}
    (choices : choicesOf chunks = choicesOf chunks')
    (usages : chunks.filterMap (·.usage) = chunks'.filterMap (·.usage)) :
    completionOf chunks = completionOf chunks' := by
  rw [completionOf, completionOf, choices, usages]

/-- A response presents one completion only. -/
theorem Presents.content_unique {response : Json} {c c' : Completion}
    (left : Presents response c) (right : Presents response c') : c.content = c'.content := by
  obtain ⟨choice, message, choices, found, _, content, _⟩ := left
  obtain ⟨choice', message', choices', found', _, content', _⟩ := right
  rw [choices] at choices'
  cases choices'
  rw [found] at found'
  cases found'
  rw [content] at content'
  simpa using content'

/-- A chunk that a streaming client reads; it does not look at the creation time. -/
def clientChunk (payload : List UInt8) : Option StreamingChunk := do
  let v ← codec.read payload
  if isOpenaiChunk v.normalize then
    let fields ← record ["id", "model", "choices", "usage"] v
    return {
      id := ← defaulted Json.asString "" (fields "id")
      created := 0
      model := ← defaulted Json.asString "" (fields "model")
      choices := ← defaulted (each StreamingChoice.decode) [] (fields "choices")
      usage := ← defaulted (nullable fun v => some v.normalize) none (fields "usage") }
  else none

/-- The completion chunks among the payloads of a stream. -/
def clientChunks (payloads : List (List UInt8)) : List StreamingChunk :=
  payloads.filterMap (clientChunk codec)

theorem clientChunk_frame {c : ChatCompletionChunk} (chunk : c.IsChunk) :
    clientChunk codec (SSETransformer.frame codec c) = some (.of c 0) := by
  obtain ⟨value, decoded, isChunk⟩ := frame_isChunkPayload codec chunk
  rw [Json.Codec.fromSlice, SSETransformer.read_frame] at decoded
  cases decoded
  have choices := each_map StreamingChoice.decode_toJson c.choices
  have usage := decodeUsage_spec c.usage
  simp only [clientChunk, SSETransformer.read_frame, Option.bind_eq_bind, Option.bind_some, isChunk,
    if_true, record_chunk]
  simp only [ChatCompletionChunk.toJson, Json.get?_object, List.lookup_append, lookup_skipNone]
  simp only [Json.Members.lookup_cons, List.lookup_nil, String.reduceEq, if_true, if_false,
    Option.some_or, Option.none_or, choices, usage, defaulted_some, Json.asString_string,
    Option.bind_some]
  rfl

theorem clientChunk_done : clientChunk codec (Text.utf8 "[DONE]") = none := by
  have unreadable := SSETransformer.read_doneMarker codec
  rw [SSETransformer.doneMarker] at unreadable
  rw [clientChunk, unreadable]
  rfl

/-- The frames of a transformer, and the sentinel after them. -/
theorem clientChunks_frames {chunks : List ChatCompletionChunk} (each : ∀ c ∈ chunks, c.IsChunk) :
    clientChunks codec (chunks.map (SSETransformer.frame codec) ++ [Text.utf8 "[DONE]"]) =
      chunks.map (StreamingChunk.of · 0) := by
  rw [clientChunks, List.filterMap_append, List.filterMap_cons, clientChunk_done]
  rw [List.filterMap_nil, List.append_nil, List.filterMap_map]
  induction chunks with
  | nil => rfl
  | cons c chunks ih =>
    have first := clientChunk_frame codec (each c List.mem_cons_self)
    rw [List.filterMap_cons, Function.comp_apply, first, List.map_cons]
    dsimp only
    rw [ih fun d member => each d (List.mem_cons_of_mem _ member)]

/-- The events up to the first sentinel, and the rest. -/
def untilDone (events : List Event) : List Event := events.takeWhile (!stops codec ·)
def fromDone (events : List Event) : List Event := events.dropWhile (!stops codec ·)

/-- Streams on which the paths do the same: every event is accepted, no upstream chunk
is copied, frames have a sequence number within `i64`, and none follows the sentinel. -/
structure Comparable (model : String) (events : List Event) : Prop where
  accepted : ∀ e ∈ events, rejects codec e = false
  own : ∀ before data rest, untilDone codec events = before ++ data :: rest →
    passedThrough codec before data = none
  numbered : ∀ before data rest, events = before ++ data :: rest →
    ((SSETransformer.new model).after codec before).framesOf codec data ≠ [] →
      FitsInt64 (sequenceNumber codec data)
  silent : ((SSETransformer.new model).after codec (untilDone codec events)).emitted codec
    (fromDone codec events) = []

/-- Accepted events all continue, the sentinel aside. -/
theorem continues_eq {data : Event} (accepted : rejects codec data = false) :
    continues codec data = !stops codec data := by
  unfold continues stops aborts
  unfold rejects at accepted
  cases denotes : interpret codec data with
  | reject err => simp [denotes] at accepted
  | _ => rfl

theorem takeWhile_continues {events : List Event}
    (accepted : ∀ e ∈ events, rejects codec e = false) :
    events.takeWhile (continues codec) = untilDone codec events := by
  induction events with
  | nil => rfl
  | cons data events ih =>
    have later := ih fun e member => accepted e (List.mem_cons_of_mem _ member)
    rw [untilDone] at later ⊢
    rw [List.takeWhile_cons, List.takeWhile_cons,
      continues_eq codec (accepted data List.mem_cons_self), later]

/-- Nothing is skipped when every chunk has a creation time within `i64`. -/
theorem completionOf_recovered {chunks : List ChatCompletionChunk}
    (fits : ∀ c ∈ chunks, FitsInt64 c.created) :
    completionOf (chunks.filterMap recovered) =
      completionOf (chunks.map (StreamingChunk.of · 0)) := by
  have same : choicesOf (chunks.filterMap recovered) =
        choicesOf (chunks.map (StreamingChunk.of · 0)) ∧
      (chunks.filterMap recovered).filterMap (·.usage) =
        (chunks.map (StreamingChunk.of · 0)).filterMap (·.usage) := by
    induction chunks with
    | nil => exact ⟨rfl, rfl⟩
    | cons c chunks ih =>
      obtain ⟨choices, usages⟩ := ih fun d member => fits d (List.mem_cons_of_mem _ member)
      obtain ⟨created, decoded⟩ := Option.isSome_iff_exists.mp
        ((decodeCreated_isSome c.created).mpr (fits c List.mem_cons_self))
      have first : recovered c = some (.of c created) := by rw [recovered, decoded]; rfl
      rw [List.filterMap_cons, first]
      simp only [choicesOf, List.map_cons, List.flatMap_cons, List.filterMap_cons] at choices usages ⊢
      rw [choices, usages]
      exact ⟨rfl, rfl⟩
  exact completionOf_congr same.1 same.2

/-- The chat paths agree: the buffered completion is the aggregation of the frames
that a relay of the same stream wrote. -/
theorem chat_paths_agree {reads : List (List UInt8)} {downstream : Downstream} {model : String}
    {config : RelayConfig} {turns : List Turn} (now : Int64) (empty : downstream.written = [])
    (comparable : Comparable codec model (eventsOf reads.flatten .eof))
    (returned : rewriteSseStream codec reads .eof downstream model config turns =
      .stopped s (.ok ())) :
    ∃ frames response, decode s.downstream.written = some frames ∧
      bufferChatCompletion codec reads .eof model now = .ok response ∧
      Presents response (completionOf (clientChunks codec (payloads frames))) := by
  obtain ⟨_, frames, written, sent⟩ := rewrite_ok codec (fun _ _ u => u) empty returned
  obtain ⟨response, buffered, presents⟩ := buffer_presents codec model now comparable.accepted
  generalize eventsOf reads.flatten .eof = events at comparable sent presents
  have split : untilDone codec events ++ fromDone codec events = events :=
    List.takeWhile_append_dropWhile
  have emitted : (SSETransformer.new model).emitted codec events =
      (SSETransformer.new model).emitted codec (untilDone codec events) := by
    have both := emitted_append codec (SSETransformer.new model) (untilDone codec events)
      (fromDone codec events)
    rwa [split, comparable.silent, List.append_nil] at both
  have frames_eq : payloads frames = ((SSETransformer.new model).emitted codec events).map
      (SSETransformer.frame codec) := by
    rw [sent, takeWhile_continues codec comparable.accepted, emitted]
    exact sendsAll_own codec [] comparable.own
  have isChunk : ∀ c ∈ (SSETransformer.new model).emitted codec events, c.IsChunk := by
    intro c member
    obtain ⟨front, data, rest, _, here⟩ := (mem_emitted codec).mp member
    exact framesOf_isChunk codec here
  have fits : ∀ c ∈ (SSETransformer.new model).emitted codec events, FitsInt64 c.created := by
    intro c member
    obtain ⟨front, data, rest, here, emits⟩ := (mem_emitted codec).mp member
    rw [created_framesOf codec emits]
    exact comparable.numbered front data rest here (List.ne_nil_of_mem emits)
  refine ⟨_, response, by rw [written, decode_encode], buffered, ?_⟩
  rw [payloads_append, payloads_map_data, frames_eq, clientChunks_frames codec isChunk,
    ← completionOf_recovered fits]
  exact presents

theorem closingOf_accepted {events : List Event} (accepted : ∀ e ∈ events, rejects codec e = false) :
    closingOf codec events .eof = .ok := by
  unfold closingOf
  split
  · rename_i data rest found
    have member : data ∈ events := by
      rw [← List.takeWhile_append_dropWhile (p := continues codec) (l := events), found]
      exact List.mem_append_right _ List.mem_cons_self
    have kept := accepted data member
    unfold rejects at kept
    split
    · rename_i err denotes
      simp [denotes] at kept
    · rfl
  · rfl

/-- A relay that accepts all its events returns `Ok` when it is polled often enough. -/
theorem rewrite_accepted_returns {reads : List (List UInt8)} (downstream : Downstream)
    (model : String) (healthy : downstream.Healthy) (empty : downstream.written = [])
    (accepted : ∀ e ∈ eventsOf reads.flatten .eof, rejects codec e = false) :
    ∃ turns s, rewriteSseStream codec reads .eof downstream model {} turns =
      .stopped s (.ok ()) := by
  have polls : (Reading.new reads .eof).size <
      (List.replicate ((Reading.new reads .eof).size + 1) Turn.poll).count .poll := by
    simp
  obtain ⟨s, outcome, stopped⟩ := rewrite_returns codec (fun _ _ u => u) () reads .eof downstream
    model {} _ polls
  have same := (rewrite_spec codec (fun _ _ u => u) healthy empty stopped).1
  rw [(relayAll_eq codec model reads.flatten .eof).2, closingOf_accepted codec accepted] at same
  cases same
  exact ⟨_, s, stopped⟩

theorem interpret_done : interpret codec (Text.utf8 "[DONE]") = .stop := by
  have classified : SSETransformer.classify codec (Text.utf8 "[DONE]") = .done := by
    rw [SSETransformer.classify, if_neg (by decide), if_pos (by decide)]
  rw [interpret, classified]

/-- A delta after the sentinel, which the relay no longer reads. -/
def deltaAfterDone : List (List UInt8) :=
  [encode ([Text.utf8 "[DONE]", JsonText.codec.toVec (textDelta (some 1) "hi")].map .data)]

theorem eventsOf_deltaAfterDone : eventsOf deltaAfterDone.flatten .eof =
    [Text.utf8 "[DONE]", JsonText.codec.toVec (textDelta (some 1) "hi")] := by
  rw [deltaAfterDone, List.flatten_singleton, eventsOf_encode]
  intro p member
  rcases List.mem_cons.mp member with rfl | later
  · exact framable_done
  · rw [List.mem_singleton.mp later]
    exact framable_toVec _ _

theorem transformChunks_done (t : SSETransformer) :
    t.transformChunks codec (Text.utf8 "[DONE]") = (t, .ok .done) := by
  rw [SSETransformer.transformChunks_eq, interpret_done]
  rfl

theorem emitted_deltaAfterDone (model : String) :
    (SSETransformer.new model).emitted codec
        [Text.utf8 "[DONE]", codec.toVec (textDelta (some 1) "hi")] =
      (SSETransformer.new model).bodyFrames (some 1) { content := some "hi" } := by
  have delta := framesOf_textDelta codec model (some 1) "hi"
  rw [SSETransformer.after, List.foldl_nil] at delta
  rw [SSETransformer.emitted, SSETransformer.emitted, SSETransformer.emitted,
    SSETransformer.framesOf, transformChunks_done, List.append_nil, delta]
  rfl

theorem firstDelta_content (model : String) :
    (completionOf (((SSETransformer.new model).bodyFrames (some 1)
      { content := some "hi" }).filterMap recovered)).content = "hi" := by
  have frames : (SSETransformer.new model).bodyFrames (some 1) { content := some "hi" } =
      [(SSETransformer.new model).makeChunk (some 1) { role := some "assistant" } none none,
        { SSETransformer.new model with roleSent := true }.makeChunk (some 1)
          { content := some "hi" } none none] := rfl
  have created : decodeCreated (some 1) = some 1 := rfl
  rw [frames]
  simp only [SSETransformer.makeChunk, recovered, created, List.filterMap_cons, List.filterMap_nil,
    Option.map_some]
  simp [StreamingChunk.of, StreamingChoice.of, StreamingDelta.of, completionOf, choicesOf, concat]

/-- The relay writes no content, and the buffered path presents some. -/
theorem deltaAfterDone_disagrees : ∃ turns s response frames,
    rewriteSseStream JsonText.codec deltaAfterDone .eof { sink := fun _ => none } "gpt-5" {} turns =
      .stopped s (.ok ()) ∧
    bufferChatCompletion JsonText.codec deltaAfterDone .eof "gpt-5" 0 = .ok response ∧
    decode s.downstream.written = some frames ∧
    ¬ Presents response (completionOf (clientChunks JsonText.codec (payloads frames))) := by
  have accepted : ∀ e ∈ eventsOf deltaAfterDone.flatten .eof, rejects JsonText.codec e = false := by
    rw [eventsOf_deltaAfterDone]
    intro e member
    rcases List.mem_cons.mp member with rfl | later
    · rw [rejects, interpret_done]
    · rw [List.mem_singleton.mp later, rejects, interpret_textDelta]
  obtain ⟨turns, s, returned⟩ := rewrite_accepted_returns JsonText.codec
    { sink := fun _ => none } "gpt-5" (fun _ => rfl) rfl accepted
  obtain ⟨response, buffered, presents⟩ := buffer_presents JsonText.codec "gpt-5" 0 accepted
  obtain ⟨_, frames, written, sent⟩ := rewrite_ok JsonText.codec (fun _ _ u => u) rfl returned
  rw [eventsOf_deltaAfterDone] at sent presents
  refine ⟨turns, s, response, _, returned, buffered, by rw [written, decode_encode], ?_⟩
  intro presents'
  have nothing : payloads frames = [] := by
    rw [sent, List.takeWhile_cons_of_neg (by simp [continues, stops, interpret_done])]
    rfl
  have same := presents.content_unique presents'
  have relayed : (completionOf (clientChunks JsonText.codec
      (payloads (frames ++ [Text.utf8 "[DONE]"].map .data)))).content = "" := by
    rw [payloads_append, payloads_map_data, nothing, clientChunks, List.nil_append,
      List.filterMap_cons, clientChunk_done]
    rfl
  rw [emitted_deltaAfterDone, relayed, firstDelta_content] at same
  simp at same

/-- A stream of one numbered delta. -/
theorem comparable_textDelta (model : String) :
    Comparable codec model [codec.toVec (textDelta (some 7) "hi")] := by
  have text := interpret_textDelta codec (some 7) "hi"
  have running : untilDone codec [codec.toVec (textDelta (some 7) "hi")] =
      [codec.toVec (textDelta (some 7) "hi")] := by simp [untilDone, stops, text]
  have rest : fromDone codec [codec.toVec (textDelta (some 7) "hi")] = [] := by
    simp [fromDone, stops, text]
  refine ⟨?_, ?_, ?_, by rw [rest]; rfl⟩
  · intro e member
    rw [List.mem_singleton.mp member, rejects, text]
  · intro before data later split
    rw [running] at split
    have member : data ∈ [codec.toVec (textDelta (some 7) "hi")] := by rw [split]; simp
    rw [List.mem_singleton.mp member, passedThrough, text]
  · intro before data later split _
    have member : data ∈ [codec.toVec (textDelta (some 7) "hi")] := by rw [split]; simp
    rw [List.mem_singleton.mp member, sequenceNumber_textDelta]
    exact ⟨7, rfl, by decide⟩

theorem chat_paths_agree_delta : ∃ turns s frames response,
    rewriteSseStream JsonText.codec (streamOf JsonText.codec [textDelta (some 7) "hi"]) .eof
      { sink := fun _ => none } "gpt-5" {} turns = .stopped s (.ok ()) ∧
    decode s.downstream.written = some frames ∧
    bufferChatCompletion JsonText.codec (streamOf JsonText.codec [textDelta (some 7) "hi"]) .eof
      "gpt-5" 0 = .ok response ∧
    Presents response (completionOf (clientChunks JsonText.codec (payloads frames))) := by
  have comparable : Comparable JsonText.codec "gpt-5" (eventsOf
      (streamOf JsonText.codec [textDelta (some 7) "hi"]).flatten .eof) := by
    rw [eventsOf_streamOf]
    exact comparable_textDelta JsonText.codec "gpt-5"
  obtain ⟨turns, s, returned⟩ := rewrite_accepted_returns JsonText.codec
    { sink := fun _ => none } "gpt-5" (fun _ => rfl) rfl comparable.accepted
  obtain ⟨frames, response, agreement⟩ :=
    chat_paths_agree JsonText.codec 0 rfl comparable returned
  exact ⟨turns, s, frames, response, returned, agreement⟩

end CodexProxy.Buffered
