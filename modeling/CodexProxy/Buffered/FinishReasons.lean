import CodexProxy.Buffered.Agreement

/-! Finish reasons. The transformer's own frames say `stop` or `tool_calls`, and the
buffered path falls back to `stop`; so it says anything else only of a stream whose
last completion follows an announced function call. -/
namespace CodexProxy.Buffered
open Bytes EventStream Transform Relay Polling

variable (codec : Json.Codec)

/-- The finish reasons in the choices of a chunk or of a completion. -/
def finishReasons (v : Json) : List String :=
  (((v.get? "choices").bind Json.asArray).getD []).filterMap fun choice =>
    (choice.get? "finish_reason").bind Json.asString

theorem Presents.finishReasons_eq {response : Json} {c : Completion} (presents : Presents response c) :
    finishReasons response = [c.finishReason] := by
  obtain ⟨choice, message, choices, _, reason, _⟩ := presents
  simp [finishReasons, choices, reason]

theorem choice_finishReason (c : ChunkChoice) :
    (c.toJson.normalize.get? "finish_reason").bind Json.asString = c.finishReason := by
  rw [ChunkChoice.toJson, Json.normalize, Json.get?_object, Json.lookup_normalizeMembers_last]
  cases c.finishReason <;> simp [orNull, Json.normalize, Json.asString]

theorem finishReasons_chunk (c : ChatCompletionChunk) :
    finishReasons c.toJson.normalize = c.choices.filterMap (·.finishReason) := by
  have choices : c.toJson.normalize.get? "choices" =
      some (.array ((c.choices.map (·.toJson)).map (·.normalize))) := by
    rw [ChatCompletionChunk.toJson, Json.normalize, Json.get?_object,
      Json.lookup_normalizeMembers_last]
    cases c.usage <;> simp [skipNone, Json.Members.lookup_cons, Json.normalize]
  rw [finishReasons, choices]
  simp [List.filterMap_map, Function.comp_def, choice_finishReason]

/-- A payload with a finish reason that no transformer gives. -/
def Unusual (p : List UInt8) : Prop :=
  ∃ value, codec.fromSlice p = some value ∧
    ∃ reason ∈ finishReasons value, reason ≠ "stop" ∧ reason ≠ "tool_calls"

theorem emits_usual {t : SSETransformer} {a : Action} {c : ChatCompletionChunk}
    (emits : Emits t a c) :
    ∀ reason ∈ c.choices.filterMap (·.finishReason), reason = "stop" ∨ reason = "tool_calls" := by
  intro reason member
  cases emits with
  | role | text | reasoning | start | arguments => simp [SSETransformer.makeChunk] at member
  | finish seq usage =>
    simp only [SSETransformer.makeChunk, List.filterMap_cons, List.filterMap_nil,
      List.mem_singleton] at member
    rw [member]
    cases t.sawToolCalls
    · exact .inl rfl
    · exact .inr rfl

/-- The transformer's own frames are usual. -/
theorem frame_usual {t : SSETransformer} {data : List UInt8} {c : ChatCompletionChunk}
    (member : c ∈ t.framesOf codec data) : ¬ Unusual codec (SSETransformer.frame codec c) := by
  rintro ⟨value, decoded, reason, given, notStop, notCalls⟩
  rw [Json.Codec.fromSlice, SSETransformer.read_frame] at decoded
  cases decoded
  rw [finishReasons_chunk] at given
  rw [SSETransformer.framesOf, SSETransformer.transformChunks_eq] at member
  rcases emits_usual (Action.apply_emits member) reason given with stop | calls
  · exact notStop stop
  · exact notCalls calls

/-- A `response.completed` event whose frame is not skipped. -/
def Completes (data : Event) : Prop :=
  ∃ seq usage, interpret codec data = .finish seq usage ∧ FitsInt64 seq

/-- The last such event finds function calls announced. -/
def EndsInToolCall (events : List Event) : Prop :=
  ∃ before data after, events = before ++ data :: after ∧ Completes codec data ∧
    openItems codec before ≠ [] ∧ ∀ d ∈ after, ¬ Completes codec d

/-- The finish reason that the recovered frames of a run give. -/
def reasonOf (model : String) (events : List Event) : Option String :=
  lastText ((choicesOf (((SSETransformer.new model).emitted codec events).filterMap
    recovered)).map (·.finishReason))

theorem endsInToolCall_append (events : List Event) (data : Event) :
    EndsInToolCall codec (events ++ [data]) ↔
      (Completes codec data ∧ openItems codec events ≠ []) ∨
        (¬ Completes codec data ∧ EndsInToolCall codec events) := by
  constructor
  · rintro ⟨before, d, after, split, completes, items, none⟩
    rcases List.eq_nil_or_concat after with rfl | ⟨after, last, rfl⟩
    · obtain ⟨rfl, same⟩ := List.append_inj' split rfl
      cases same
      exact .inl ⟨completes, items⟩
    · rw [List.concat_eq_append, ← List.cons_append, ← List.append_assoc] at split
      obtain ⟨rfl, same⟩ := List.append_inj' split rfl
      cases same
      refine .inr ⟨none _ (by simp), before, d, after, rfl, completes, items, ?_⟩
      exact fun e member => none e (by simp [member])
  · rintro (⟨completes, items⟩ | ⟨skipped, before, d, after, rfl, completes, items, none⟩)
    · exact ⟨events, data, [], rfl, completes, items, by simp⟩
    · refine ⟨before, d, after ++ [data], by simp, completes, items, ?_⟩
      intro e member
      rcases List.mem_append.mp member with old | new
      · exact none e old
      · rw [List.mem_singleton.mp new]
        exact skipped

theorem lastText_none {texts : List (Option String)} (absent : ∀ text ∈ texts, text = none) :
    lastText texts = none := by
  have empty : texts.filterMap id = [] := by
    rw [List.filterMap_eq_nil_iff]
    exact absent
  rw [lastText, empty]
  rfl

/-- The finish reasons of the frames of one call. -/
def callReason (t : SSETransformer) (data : Event) : Option String :=
  lastText ((choicesOf ((t.framesOf codec data).filterMap recovered)).map (·.finishReason))

theorem callReason_none {t : SSETransformer} {data : Event}
    (other : ∀ seq usage, interpret codec data ≠ .finish seq usage) :
    callReason codec t data = none := by
  apply lastText_none
  intro text member
  simp only [choicesOf, List.mem_map, List.mem_flatMap, List.mem_filterMap] at member
  obtain ⟨choice, ⟨chunk, ⟨c, emitted, seen⟩, choices⟩, rfl⟩ := member
  obtain ⟨created, _, rfl⟩ := Option.map_eq_some_iff.mp seen
  obtain ⟨own, owned, rfl⟩ := List.mem_map.mp choices
  rw [SSETransformer.framesOf, SSETransformer.transformChunks_eq] at emitted
  generalize interpret codec data = a at emitted other
  cases Action.apply_emits emitted with
  | role | text | reasoning | start | arguments =>
    simp only [SSETransformer.makeChunk, List.mem_singleton] at owned
    rw [owned]
    rfl
  | finish seq usage => exact absurd rfl (other seq usage)

theorem callReason_finish {t : SSETransformer} {data : Event}
    (finish : interpret codec data = .finish seq usage) :
    callReason codec t data =
      if (decodeCreated seq).isSome then some (if t.sawToolCalls then "tool_calls" else "stop")
      else none := by
  have frames : t.framesOf codec data = [t.makeChunk seq {}
      (some (if t.sawToolCalls then "tool_calls" else "stop")) (some usage)] := by
    rw [SSETransformer.framesOf, SSETransformer.transformChunks_eq, finish]
    rfl
  rw [callReason, frames, List.filterMap_cons, recovered, SSETransformer.makeChunk]
  cases decodeCreated seq with
  | none => rfl
  | some created => cases t.sawToolCalls <;> rfl

/-- One more event: its own finish reason, else the one before it. -/
theorem reasonOf_append (model : String) (events : List Event) (data : Event) :
    reasonOf codec model (events ++ [data]) =
      (callReason codec ((SSETransformer.new model).after codec events) data).or
        (reasonOf codec model events) := by
  rw [reasonOf, emitted_append, List.filterMap_append, callReason, reasonOf, ← lastText_append,
    ← List.map_append, SSETransformer.emitted, SSETransformer.emitted, List.append_nil]
  simp only [choicesOf, List.flatMap_append]

/-- By induction from the end of the events. -/
theorem reasonOf_spec (model : String) (events : List Event) :
    (reasonOf codec model events = some "tool_calls" ∧ EndsInToolCall codec events) ∨
      ((reasonOf codec model events).getD "stop" = "stop" ∧ ¬ EndsInToolCall codec events) := by
  induction events using List.reverseRecOn with
  | nil =>
    refine .inr ⟨rfl, ?_⟩
    rintro ⟨before, data, after, split, _⟩
    cases before <;> cases split
  | append_singleton events data ih =>
    rw [reasonOf_append, endsInToolCall_append]
    by_cases completes : Completes codec data
    · obtain ⟨seq, usage, finish, fits⟩ := completes
      have completes : Completes codec data := ⟨seq, usage, finish, fits⟩
      rw [callReason_finish codec finish, if_pos ((decodeCreated_isSome seq).mpr fits)]
      have items := saw_openItems codec model events
      by_cases saw : ((SSETransformer.new model).after codec events).sawToolCalls
      · rw [if_pos saw]
        exact .inl ⟨rfl, .inl ⟨completes, items.mp saw⟩⟩
      · rw [if_neg saw]
        refine .inr ⟨rfl, ?_⟩
        rintro (⟨_, announced⟩ | ⟨skipped, _⟩)
        · exact saw (items.mpr announced)
        · exact skipped completes
    · have skipped : callReason codec ((SSETransformer.new model).after codec events) data = none := by
        by_cases finish : ∃ seq usage, interpret codec data = .finish seq usage
        · obtain ⟨seq, usage, finish⟩ := finish
          rw [callReason_finish codec finish, if_neg]
          rw [decodeCreated_isSome]
          exact fun fits => completes ⟨seq, usage, finish, fits⟩
        · exact callReason_none codec fun seq usage same => finish ⟨seq, usage, same⟩
      rw [skipped, Option.none_or]
      simp only [completes, false_and, false_or, not_false_eq_true, true_and]
      exact ih

/-- The buffered path never says `stop`. -/
def BufferShows (events : List Event) (ending : Ending) : Prop :=
  ending ≠ .eof ∨ (∃ e ∈ events, rejects codec e = true) ∨ EndsInToolCall codec events

theorem buffered_shows_iff (reads : List (List UInt8)) (ending : Ending) (model : String) :
    (∀ now response, bufferChatCompletion codec reads ending model now = .ok response →
        "stop" ∉ finishReasons response) ↔
      BufferShows codec (eventsOf reads.flatten ending) ending := by
  by_cases failed : ending ≠ .eof ∨ ∃ e ∈ eventsOf reads.flatten ending, rejects codec e = true
  · refine iff_of_true ?_ (by rw [BufferShows, ← or_assoc]; exact .inl failed)
    intro now response returned
    obtain ⟨err, result⟩ := buffer_error codec model now failed
    rw [result] at returned
    cases returned
  · obtain ⟨eof, accepted⟩ := not_or.mp failed
    simp only [ne_eq, Decidable.not_not] at eof
    subst eof
    have kept : ∀ e ∈ eventsOf reads.flatten .eof, rejects codec e = false := by
      simpa using accepted
    have reason (now : Int64) : ∃ response,
        bufferChatCompletion codec reads .eof model now = .ok response ∧ finishReasons response =
          [(reasonOf codec model (eventsOf reads.flatten .eof)).getD "stop"] := by
      obtain ⟨response, returned, presents⟩ := buffer_presents codec model now kept
      exact ⟨response, returned, presents.finishReasons_eq⟩
    have spec := reasonOf_spec codec model (eventsOf reads.flatten .eof)
    constructor
    · intro never
      obtain ⟨response, returned, reasons⟩ := reason 0
      rcases spec with ⟨_, ends⟩ | ⟨stop, _⟩
      · exact .inr (.inr ends)
      · rw [stop] at reasons
        exact absurd (by simp [reasons]) (never 0 response returned)
    · rintro (read | rejected | ends) now response returned
      · exact absurd rfl read
      · exact absurd rejected accepted
      · obtain ⟨response', returned', reasons⟩ := reason now
        rw [returned] at returned'
        cases returned'
        rcases spec with ⟨calls, _⟩ | ⟨_, never⟩
        · simp [reasons, calls]
        · exact absurd ends never

end CodexProxy.Buffered
