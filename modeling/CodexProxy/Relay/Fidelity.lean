import CodexProxy.Relay.Success
import CodexProxy.Relay.RoundTrip
import CodexProxy.Transform.Fidelity
import Mathlib.Data.List.SplitBy

/-! From the upstream's octets to the client's, for a relay that returns `Ok`. Reading,
decoding, indexing, encoding and framing compose: segment by segment, the client reads
the texts and the calls that the upstream sent. -/
namespace CodexProxy.Relay
open Bytes EventStream Transform Polling

variable (codec : Json.Codec)

/-- The events that a relay handles: those before the upstream's sentinel. -/
def beforeDone (events : List Event) : List Event :=
  events.takeWhile (trimAscii · ≠ SSETransformer.doneMarker)

/-- An event that is a completion chunk already. -/
def IsForeign (event : Event) : Prop :=
  ((eventJson codec event).bind (·.get? "object")).bind Json.asString = some "chat.completion.chunk"

/-- Every `response.created` event opens a segment. -/
def segmentsOf (events : List Event) : List (List Event) :=
  events.splitBy fun _ data => !opensResponse codec data

/-- A segment's frames: each is a chunk, and together they carry the segment. -/
structure Delivers (segment frames : List Event) : Prop where
  chunks : ∀ f ∈ frames, IsChunkPayload codec f
  arrives : Arrives codec segment (frames.filterMap codec.read)

theorem interpretEvent_ne_stop (e : EventEnvelope) : interpretEvent codec e ≠ .stop := by
  rcases interpretEvent_kind codec e with ⟨_, same⟩ | ⟨_, same⟩ | ⟨_, same⟩ | ⟨_, _, _, _, other⟩
  · rw [same, interpretTextDelta]
    split <;> simp
  · rw [same, interpretOutputItemAdded]
    split
    · simp
    · simp
    split
    · simp
    split <;> simp
  · rw [same, interpretFunctionCallArgsDelta]
    split <;> simp
  · exact other

theorem classify_done_iff (event : Event) :
    SSETransformer.classify codec event = .done ↔
      trimAscii event = SSETransformer.doneMarker := by
  rw [SSETransformer.classify]
  split
  · rename_i blank
    rw [blank]
    exact iff_of_false (by simp) (by decide)
  split
  · rename_i done
    exact iff_of_true rfl done
  · rename_i other
    refine iff_of_false ?_ other
    split <;> simp

theorem stops_iff (event : Event) :
    stops codec event = true ↔ trimAscii event = SSETransformer.doneMarker := by
  rw [← classify_done_iff codec, stops, interpret]
  cases SSETransformer.classify codec event with
  | blank | undecodable => simp
  | done => simp
  | event e =>
    have running := interpretEvent_ne_stop codec e
    dsimp only
    split
    · rename_i stop
      exact absurd stop running
    · simp

/-- A stream that closes well has no aborting event before its sentinel. -/
theorem beforeDone_eq {events : List Event} {ending : Ending}
    (ok : closingOf codec events ending = .ok) :
    beforeDone events = events.takeWhile (continues codec) := by
  induction events with
  | nil => rfl
  | cons event events ih =>
    rw [closingOf.eq_def] at ok
    cases running : continues codec event with
    | true =>
      rw [List.dropWhile_cons_of_pos running] at ok
      have later := ih (by rw [closingOf.eq_def]; exact ok)
      have open' : trimAscii event ≠ SSETransformer.doneMarker := by
        rw [ne_eq, ← stops_iff codec]
        simp only [continues, Bool.and_eq_true, Bool.not_eq_true'] at running
        simp [running.1]
      rw [List.takeWhile_cons_of_pos running, beforeDone,
        List.takeWhile_cons_of_pos (by simpa using open'), ← later]
      rfl
    | false =>
      rw [List.dropWhile_cons_of_neg (by simp [running])] at ok
      have done : trimAscii event = SSETransformer.doneMarker := by
        rw [← stops_iff codec]
        simp only [continues, aborts, Bool.and_eq_false_iff, Bool.not_eq_false'] at running
        rcases running with stop | abort
        · exact stop
        · dsimp only at ok
          split at ok
          · have outcome := congrArg Closing.outcome ok
            cases outcome
          · rename_i other
            split at abort
            · rename_i err denotes
              exact absurd denotes (other err)
            · cases abort
      rw [List.takeWhile_cons_of_neg (by simp [running]), beforeDone,
        List.takeWhile_cons_of_neg (by simp [done])]

/-- After what is not heard a relay does not go on. -/
theorem heard_of_continues {event : Event} (running : continues codec event = true) :
    Heard codec event := by
  intro error rejected type
  simp only [continues, aborts, rejected, Bool.and_eq_true, Bool.not_eq_true'] at running
  cases value : codec.fromSlice event with
  | none => simp [value] at running
  | some v =>
    simp only [value, Bool.not_eq_false'] at running
    obtain ⟨raw, read, rfl⟩ := Option.map_eq_some_iff.mp value
    have typeless : (raw.normalize.get? "type").bind Json.asString = none :=
      Option.isNone_iff_eq_none.mp running.2
    rw [eventOf, eventJson, Json.Codec.fromSlice, codec.read_trimAscii _ _ read, Option.map_some,
      Option.filter_some_neg (by simp [typeless])]

/-- Of what is not foreign nothing is copied. -/
theorem passedThrough_none {before : List Event} {data : Event} (own : ¬ IsForeign codec data) :
    passedThrough codec before data = none := by
  have none : passThroughOpenaiChunk codec data = none := by
    rw [passThroughOpenaiChunk]
    cases value : codec.fromSlice (trimAscii data) with
    | none => rfl
    | some v => simpa [IsForeign, eventJson, value, isOpenaiChunk] using own
  unfold passedThrough
  split
  · exact none
  · exact none
  · exact none
  · split
    · rfl
    · exact none
  · split
    · rename_i value decoded
      obtain ⟨raw, read, rfl⟩ := Option.map_eq_some_iff.mp decoded
      have trimmed : codec.fromSlice (trimAscii data) = some raw.normalize := by
        rw [Json.Codec.fromSlice, codec.read_trimAscii _ _ read, Option.map_some]
      rw [passThroughOpenaiChunk, trimmed] at none
      dsimp only at none
      split at none
      · cases none
      · rename_i notChunk
        simp [notChunk]
    · rfl
  · rfl

/-- A segment that a `response.created` event opens. -/
def Opened (segment : List Event) : Prop :=
  ∃ data rest, segment = data :: rest ∧ opensResponse codec data = true

/-- By induction on the segments; the state at the start of each is fresh, or the event
that opens it makes it so. -/
theorem segments_arrive {segments : List (List Event)} {t : SSETransformer}
    (heard : ∀ s ∈ segments, ∀ data ∈ s, Heard codec data)
    (inside : ∀ s ∈ segments, ∀ data ∈ s.tail, opensResponse codec data = false)
    (few : ∀ s ∈ segments, (itemsSaid codec s).length ≤ 2 ^ 64)
    (first : Fresh t ∨ ∀ s ∈ segments.head?, Opened codec s)
    (later : ∀ s ∈ segments.tail, Opened codec s) :
    ∃ slices : List (List ChatCompletionChunk), t.emitted codec segments.flatten = slices.flatten ∧
      List.Forall₂ (fun s slice => Arrives codec s (slice.map (·.toJson))) segments slices := by
  induction segments generalizing t with
  | nil => exact ⟨[], rfl, .nil⟩
  | cons segment segments ih =>
    have next : ∀ s ∈ segments.head?, Opened codec s :=
      fun s member => later s (List.mem_of_mem_head? member)
    obtain ⟨slices, emitted, arrive⟩ := ih (t := t.after codec segment)
      (fun s member => heard s (List.mem_cons_of_mem _ member))
      (fun s member => inside s (List.mem_cons_of_mem _ member))
      (fun s member => few s (List.mem_cons_of_mem _ member)) (.inr next)
      (fun s member => later s (List.mem_of_mem_tail member))
    refine ⟨t.emitted codec segment :: slices, ?_, .cons ?_ arrive⟩
    · rw [List.flatten_cons, emitted_append, emitted, List.flatten_cons]
    · have spoken := heard segment List.mem_cons_self
      have within : ∀ data ∈ segment.tail, isCreated codec data = false := by
        intro data member
        rw [isCreated_said codec (spoken data (List.mem_of_mem_tail member))]
        exact inside segment List.mem_cons_self data member
      have small := few segment List.mem_cons_self
      rw [← announced_said codec spoken] at small
      have opened (hypothesis : Opened codec segment) :
          Arrives codec segment ((t.emitted codec segment).map (·.toJson)) := by
        obtain ⟨data, rest, rfl, opens⟩ := hypothesis
        have created := (isCreated_said codec (spoken data List.mem_cons_self)).trans opens
        have fresh := fresh_created codec created t
        rw [announced_created codec created] at small
        rw [SSETransformer.emitted, framesOf_created codec t created, List.nil_append]
        exact (fresh.arrives codec (fun d member => spoken d (List.mem_cons_of_mem _ member))
          within small).created codec (spoken data List.mem_cons_self) created
      rcases first with fresh | head
      · cases segment with
        | nil => exact fresh.arrives codec spoken (by simp) small
        | cons data rest =>
          cases opens : opensResponse codec data with
          | true => exact opened ⟨data, rest, rfl, opens⟩
          | false =>
            refine fresh.arrives codec spoken ?_ small
            rintro d (_ | ⟨_, member⟩)
            · rw [isCreated_said codec (spoken data List.mem_cons_self)]
              exact opens
            · exact within d member
      · exact opened (head segment rfl)

/-- A chain whose relation looks at the second element only. -/
theorem isChain_tail {P : α → Prop} {l : List α} (chain : l.IsChain fun _ y => P y) :
    ∀ y ∈ l.tail, P y := by
  cases l with
  | nil => simp
  | cons x l =>
    induction l generalizing x with
    | nil => simp
    | cons y l ih =>
      rw [List.isChain_cons_cons] at chain
      rintro z (_ | ⟨_, member⟩)
      · exact chain.1
      · exact ih y chain.2 z member

theorem segmentsOf_inside {events segment : List Event}
    (member : segment ∈ segmentsOf codec events) :
    ∀ data ∈ segment.tail, opensResponse codec data = false := by
  have chain := List.isChain_of_mem_splitBy member
  simp only [Bool.not_eq_true'] at chain
  exact isChain_tail chain

theorem segmentsOf_opened (events : List Event) :
    ∀ segment ∈ (segmentsOf codec events).tail, Opened codec segment := by
  have chain := List.isChain_getLast_head_splitBy (fun _ data => !opensResponse codec data) events
  apply isChain_tail
  refine chain.imp ?_
  rintro a b ⟨_, some, opens⟩
  simp only [Bool.not_eq_false'] at opens
  exact ⟨b.head some, b.tail, (List.cons_head_tail some).symm, opens⟩

theorem Arrives.delivers {segment : List Event} {chunks : List ChatCompletionChunk}
    (arrives : Arrives codec segment (chunks.map (·.toJson))) (own : ∀ c ∈ chunks, c.IsChunk) :
    Delivers codec segment (chunks.map (SSETransformer.frame codec)) where
  chunks f member := by
    obtain ⟨c, inside, rfl⟩ := List.mem_map.mp member
    exact frame_isChunkPayload codec (own c inside)
  arrives := by
    have read : (chunks.map (SSETransformer.frame codec)).filterMap codec.read =
        chunks.map (·.toJson) := by
      rw [List.filterMap_map, ← List.filterMap_eq_map]
      refine List.filterMap_congr fun c _ => ?_
      exact SSETransformer.read_frame codec c
    rwa [read]

/-- A relay that returns `Ok` delivers its upstream. The client's payloads are those of
the segments, one after another, and the sentinel. The table of a segment's items has a
`usize` length, so there are at most 2⁶⁴ of them. -/
theorem relay_delivers (observe : Observer O) {downstream : Downstream} {config : RelayConfig}
    {turns : List Turn} (empty : downstream.written = [])
    (returned : rewriteSseStreamWithCallback codec observe observed reads ending downstream model
      config turns = .stopped s (.ok ()))
    (codex : ∀ e ∈ beforeDone (readAll reads ending).1, ¬ IsForeign codec e)
    (few : ∀ segment ∈ segmentsOf codec (beforeDone (readAll reads ending).1),
      (itemsSaid codec segment).length ≤ 2 ^ 64)
    (ending' : Ending) (received : reads'.flatten = s.downstream.written) :
    ∃ slices : List (List Event),
      (readAll reads' ending').1 = slices.flatten ++ [Text.utf8 "[DONE]"] ∧
      List.Forall₂ (Delivers codec) (segmentsOf codec (beforeDone (readAll reads ending).1))
        slices := by
  obtain ⟨ok, frames, written, sent⟩ := rewrite_ok codec observe empty returned
  simp only [readAll_eq] at codex few ⊢
  have running : ∀ data ∈ (eventsOf reads.flatten ending).takeWhile (continues codec),
      Heard codec data := fun data member => heard_of_continues codec (List.mem_takeWhile_imp member)
  rw [← beforeDone_eq codec ok] at sent running
  generalize beforeDone (eventsOf reads.flatten ending) = events at codex few sent running
  have whole : (segmentsOf codec events).flatten = events := List.flatten_splitBy _ _
  have heard : ∀ s ∈ segmentsOf codec events, ∀ data ∈ s, Heard codec data := by
    intro s member data inside
    refine running data ?_
    rw [← whole]
    exact List.mem_flatten_of_mem member inside
  obtain ⟨slices, emitted, arrive⟩ := segments_arrive codec
    (t := (SSETransformer.new model).after codec []) heard
    (fun _ member => segmentsOf_inside codec member) few (.inl (Fresh.new model))
    (segmentsOf_opened codec events)
  have own : ∀ c ∈ slices.flatten, c.IsChunk := by
    rw [← emitted]
    intro c member
    obtain ⟨front, data, rest, _, here⟩ := (mem_emitted codec).mp member
    exact framesOf_isChunk codec here
  have copies : ∀ front data rest, events = front ++ data :: rest →
      passedThrough codec ([] ++ front) data = none := by
    intro front data rest split
    refine passedThrough_none codec (codex data ?_)
    rw [split]
    exact List.mem_append_right _ List.mem_cons_self
  rw [sendsAll_own codec [] copies, ← whole, emitted] at sent
  refine ⟨slices.map (·.map (SSETransformer.frame codec)), ?_, ?_⟩
  · have framable : ∀ p ∈ payloads (frames ++ [Text.utf8 "[DONE]"].map .data), Framable p := by
      rw [payloads_append, payloads_map_data, sent]
      intro p member
      rcases List.mem_append.mp member with frame | last
      · obtain ⟨c, _, rfl⟩ := List.mem_map.mp frame
        exact framable_toVec codec c.toJson
      · rw [List.mem_singleton.mp last]
        exact framable_done
    rw [received, written, eventsOf_frames _ _ framable, payloads_append,
      payloads_map_data, sent, List.map_flatten]
  · clear emitted sent
    generalize segmentsOf codec events = segments at arrive ⊢
    induction arrive with
    | nil => exact .nil
    | cons here _ ih =>
      refine .cons (Arrives.delivers codec here ?_) (ih ?_)
      · exact fun c member => own c (List.mem_append_left _ member)
      · exact fun c member => own c (List.mem_append_right _ member)

/-- A text, and a call that is announced, given arguments and finished. -/
def answerEvents : List Json :=
  .object [("type", .string "response.output_text.delta"), ("delta", .string "Hi")] :: callEvents

theorem answer_portable : ∀ v ∈ answerEvents, v.Portable := by decide

theorem answer_continues : ∀ e ∈ answerEvents.map codec.toVec, continues codec e = true := by
  intro e member
  obtain ⟨v, event, rfl⟩ := List.mem_map.mp member
  simp only [answerEvents, callEvents, List.mem_cons, List.not_mem_nil, or_false] at event
  rcases event with rfl | rfl | rfl | rfl <;>
    rw [continues, stops, aborts, interpret_toVec _ (by decide) rfl] <;> rfl

theorem answer_closing :
    closingOf codec (eventsOf (streamOf codec answerEvents).flatten .eof) .eof = .ok := by
  rw [eventsOf_streamOf, closingOf, List.dropWhile_eq_nil_iff.mpr (answer_continues codec)]

theorem answer_handled :
    beforeDone (readAll (streamOf codec answerEvents) .eof).1 = answerEvents.map codec.toVec := by
  rw [readAll_eq, beforeDone_eq codec (answer_closing codec), eventsOf_streamOf,
    List.takeWhile_eq_self_iff.mpr (answer_continues codec)]

theorem answer_ours : ∀ e ∈ answerEvents.map codec.toVec, ¬ IsForeign codec e := by
  intro e member
  obtain ⟨v, event, rfl⟩ := List.mem_map.mp member
  rw [IsForeign, eventJson_toVec codec (answer_portable v event)]
  simp only [answerEvents, callEvents, List.mem_cons, List.not_mem_nil, or_false] at event
  rcases event with rfl | rfl | rfl | rfl <;> decide

theorem answer_segments :
    segmentsOf codec (answerEvents.map codec.toVec) = [answerEvents.map codec.toVec] := by
  have silent : ∀ e ∈ answerEvents.map codec.toVec, opensResponse codec e = false := by
    intro e member
    obtain ⟨v, event, rfl⟩ := List.mem_map.mp member
    rw [opensResponse, eventOf_toVec codec (answer_portable v event)]
    simp only [answerEvents, callEvents, List.mem_cons, List.not_mem_nil, or_false] at event
    rcases event with rfl | rfl | rfl | rfl <;> rfl
  refine List.splitBy_of_isChain (by simp [answerEvents]) ?_
  refine List.Pairwise.isChain (List.pairwise_of_forall_mem_list fun _ _ e member => ?_)
  rw [silent e member, Bool.not_false]

theorem answer_texts : (answerEvents.map codec.toVec).filterMap (textSaid codec) = ["Hi"] := by
  simp (disch := decide) only [answerEvents, callEvents, List.map_cons, List.map_nil,
    List.filterMap_cons, List.filterMap_nil, textSaid, eventOf_toVec]
  rfl

/-- What each event announces. -/
theorem answer_calls : (answerEvents.map codec.toVec).map (callSaid codec) = [none,
    some { id := "fc_1", callId := "", name := "shell", itemType := "function_call" },
    none, none] := by
  simp (disch := decide) only [answerEvents, callEvents, List.map_cons, List.map_nil, callSaid,
    eventOf_toVec]
  rfl

theorem answer_items : itemsSaid codec (answerEvents.map codec.toVec) = ["fc_1"] := by
  rw [itemsSaid_map, answer_calls]
  rfl

theorem answer_arguments :
    argumentsSaidAfter codec "fc_1" (answerEvents.map codec.toVec) = ["[]"] := by
  obtain ⟨text, rest⟩ := List.cons.inj (answer_calls codec)
  have other : (callSaid codec (codec.toVec answerEvents[0])).map (·.id) ≠ some "fc_1" := by
    rw [show callSaid codec (codec.toVec answerEvents[0]) = none from text]
    rintro ⟨⟩
  have announces : (callSaid codec (codec.toVec answerEvents[1])).map (·.id) = some "fc_1" :=
    congrArg (Option.map (·.id)) (List.cons.inj rest).1
  refine (argumentsSaidAfter_other codec other _).trans
    ((argumentsSaidAfter_own codec announces _).trans ?_)
  simp (disch := decide) only [List.map_cons, List.map_nil, List.filterMap_cons,
    List.filterMap_nil, argumentsSaid, eventOf_toVec]
  rfl

/-- The four events are one segment. Of it the client reads the text, one call under
index 0 and its arguments. -/
theorem relay_delivers_answer : ∃ (turns : List Turn) (s : RewriteState Unit) (frames : List Event),
    rewriteSseStream JsonText.codec (streamOf JsonText.codec answerEvents) .eof
      { sink := fun _ => none } "gpt-5" {} turns = .stopped s (.ok ()) ∧
    (readAll [s.downstream.written] .eof).1 = frames ++ [Text.utf8 "[DONE]"] ∧
    (frames.filterMap JsonText.codec.read).flatMap contentsOf = ["Hi"] ∧
    (frames.filterMap JsonText.codec.read).flatMap startsOf = [(0, "call_fc_1", "shell")] ∧
    String.join ((frames.filterMap JsonText.codec.read).flatMap (fragmentsAt 0)) = "[]" := by
  let codec := JsonText.codec
  let reads := streamOf codec answerEvents
  let turns := List.replicate ((Reading.new reads .eof).size + 1) Turn.poll
  obtain ⟨s, outcome, stopped⟩ := rewrite_returns codec (fun _ _ u => u) () reads .eof
    { sink := fun _ => none } "gpt-5" {} turns (by rw [List.count_replicate_self]; omega)
  have same := (rewrite_spec codec (fun _ _ u => u) (fun _ => rfl) rfl stopped).1
  rw [(relayAll_eq _ _ _ _).2, answer_closing] at same
  cases same
  have ours : ∀ e ∈ beforeDone (readAll reads .eof).1, ¬ IsForeign codec e := by
    rw [answer_handled]
    exact answer_ours codec
  have few : ∀ segment ∈ segmentsOf codec (beforeDone (readAll reads .eof).1),
      (itemsSaid codec segment).length ≤ 2 ^ 64 := by
    rw [answer_handled, answer_segments]
    rintro segment (_ | ⟨_, ⟨⟩⟩)
    rw [answer_items]
    decide
  have received : [s.downstream.written].flatten = s.downstream.written := List.flatten_singleton
  obtain ⟨slices, read, delivers⟩ := relay_delivers codec (fun _ _ u => u) rfl stopped ours few .eof
    received
  rw [answer_handled, answer_segments] at delivers
  obtain ⟨frames, _, ⟨_, arrives⟩, ⟨⟩, rfl⟩ := List.forall₂_cons_left_iff.mp delivers
  have called : (answerEvents.map codec.toVec).filterMap (callSaid codec) =
      [{ id := "fc_1", callId := "", name := "shell", itemType := "function_call" }] := by
    have listed := congrArg (List.filterMap id) (answer_calls codec)
    rwa [List.filterMap_map, Function.id_comp] at listed
  have slot : slotOf codec (answerEvents.map codec.toVec) "fc_1" = 0 := by
    rw [slotOf, answer_items]
    rfl
  refine ⟨turns, s, frames, stopped, by rw [read, List.flatten_singleton], ?_, ?_, ?_⟩
  · rw [arrives.content, answer_texts]
  · rw [arrives.starts, called, List.map_singleton, slot]
    rfl
  · obtain ⟨data, inside, said⟩ := List.mem_filterMap.mp (called ▸ List.mem_singleton_self _)
    have joined := arrives.arguments data inside _ said
    rw [slot, answer_arguments] at joined
    exact joined

end CodexProxy.Relay
