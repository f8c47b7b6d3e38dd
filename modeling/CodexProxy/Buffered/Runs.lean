import CodexProxy.Buffered.Aggregate

/-! Whole runs of the buffered chat path. The result is determined by the events: the
first one that the transformer rejects, else the ending, else the aggregation of all
frames, those after a `[DONE]` included. -/
namespace CodexProxy.Buffered
open Transform Relay Polling

variable (codec : Json.Codec)

/-- A payload that the transformer answers with an error. -/
def rejects (data : List UInt8) : Bool :=
  match interpret codec data with
  | .reject _ => true
  | _ => false

theorem rejects_iff {data : List UInt8} :
    rejects codec data = true ↔ ∃ err, interpret codec data = .reject err := by
  unfold rejects
  cases interpret codec data <;> simp

/-- Only a rejected payload fails, and it leaves the state alone. -/
theorem transform_reject {data : List UInt8} (rejected : interpret codec data = .reject err)
    (t : SSETransformer) : t.transform codec data = (t, .error err) := by
  rw [SSETransformer.transform_eq, rejected]
  rfl

/-- An accepted payload changes the state and yields its frames. -/
theorem transform_accept {data : List UInt8} (accepted : rejects codec data = false)
    (t : SSETransformer) : ∃ result, t.transform codec data =
      ((t.transformChunks codec data).1, .ok result) ∧
      result.frames = (t.framesOf codec data).map (SSETransformer.frame codec) := by
  rw [SSETransformer.transform_eq, SSETransformer.framesOf, SSETransformer.transformChunks_eq]
  cases denotes : interpret codec data with
  | reject err => simp [rejects, denotes] at accepted
  | ignore | stop | note => exact ⟨_, rfl, rfl⟩
  | reset id =>
    simp only [Action.apply]
    split <;> exact ⟨_, rfl, rfl⟩
  | text | reasoning | announce | finish => exact ⟨_, rfl, rfl⟩
  | arguments seq itemId delta =>
    simp only [Action.apply]
    split <;> exact ⟨_, rfl, rfl⟩

namespace Aggregation

/-- The frames of chunks, in order. -/
def absorbChunks (s : Aggregation) (chunks : List ChatCompletionChunk) : Aggregation :=
  chunks.foldl (fun s c => s.absorbFrame codec (SSETransformer.frame codec c)) s

@[simp] theorem absorbChunks_nil (s : Aggregation) : s.absorbChunks codec [] = s := rfl

theorem absorbChunks_append (s : Aggregation) (chunks more : List ChatCompletionChunk) :
    s.absorbChunks codec (chunks ++ more) = (s.absorbChunks codec chunks).absorbChunks codec more :=
  List.foldl_append

end Aggregation

/-- One accepted event. -/
theorem chatHandler_accept {event : Event} (accepted : rejects codec event = false) (model : String)
    (now : Int64) (s : ChatBuffer) :
    (chatHandler codec model now).onItem event s = .next {
      transformer := (s.transformer.transformChunks codec event).1
      aggregation := s.aggregation.absorbChunks codec (s.transformer.framesOf codec event) } := by
  obtain ⟨result, transformed, frames⟩ := transform_accept codec accepted s.transformer
  simp only [chatHandler, transformed]
  cases result with
  | emitted emitted =>
    rw [TransformResult.frames] at frames
    dsimp only
    rw [frames, List.foldl_map]
    rfl
  | swallowed | done =>
    have none : s.transformer.framesOf codec event = [] := List.map_eq_nil_iff.mp frames.symm
    rw [none]
    rfl

theorem chatHandler_reject {event : Event} (rejected : interpret codec event = .reject err)
    (model : String) (now : Int64) (s : ChatBuffer) :
    (chatHandler codec model now).onItem event s = .stop s (.error (.transform err)) := by
  simp only [chatHandler, transform_reject codec rejected]

/-- By induction on the events, when all of them are accepted. -/
theorem chat_accepted (model : String) (now : Int64) (ending : Ending) (events : List Event)
    (s : ChatBuffer) (accepted : ∀ e ∈ events, rejects codec e = false) :
    ((chatHandler codec model now).fold events ending s).2 =
      match ending with
      | .eof => .ok ((s.aggregation.absorbChunks codec
          (s.transformer.emitted codec events)).response model now)
      | .failed message => .error (.read message) := by
  induction events generalizing s with
  | nil => cases ending <;> rfl
  | cons event events ih =>
    rw [Handler.fold, chatHandler_accept codec (accepted event List.mem_cons_self)]
    rw [ih _ fun e member => accepted e (List.mem_cons_of_mem _ member),
      SSETransformer.emitted, Aggregation.absorbChunks_append]

theorem chat_rejected (model : String) (now : Int64) (ending : Ending) (events : List Event)
    (s : ChatBuffer) (rejected : ∃ e ∈ events, rejects codec e = true) :
    ∃ err, ((chatHandler codec model now).fold events ending s).2 = .error (.transform err) := by
  induction events generalizing s with
  | nil => simp at rejected
  | cons event events ih =>
    rw [Handler.fold]
    cases first : rejects codec event with
    | true =>
      obtain ⟨err, denotes⟩ := (rejects_iff codec).mp first
      rw [chatHandler_reject codec denotes]
      exact ⟨err, rfl⟩
    | false =>
      rw [chatHandler_accept codec first]
      apply ih
      obtain ⟨e, member, bad⟩ := rejected
      rcases List.mem_cons.mp member with rfl | later
      · rw [first] at bad
        cases bad
      · exact ⟨e, later, bad⟩

theorem bufferChatCompletion_eq (reads : List (List UInt8)) (ending : Ending) (model : String)
    (now : Int64) :
    bufferChatCompletion codec reads ending model now =
      ((chatHandler codec model now).fold (eventsOf reads.flatten ending) ending
        { transformer := SSETransformer.new model }).2 := by
  rw [bufferChatCompletion, Handler.drive_eq_fold, Reading.source_items_new,
    Reading.source_ending_new]

/-- What a run that accepts all its events and reaches the end of the upstream returns. -/
theorem buffer_ok {reads : List (List UInt8)} (model : String) (now : Int64)
    (accepted : ∀ e ∈ eventsOf reads.flatten .eof, rejects codec e = false) :
    bufferChatCompletion codec reads .eof model now =
      .ok ((({} : Aggregation).absorbChunks codec ((SSETransformer.new model).emitted codec
        (eventsOf reads.flatten .eof))).response model now) := by
  rw [bufferChatCompletion_eq, chat_accepted codec model now .eof _ _ accepted]

/-- Every other run fails. -/
theorem buffer_error {reads : List (List UInt8)} {ending : Ending} (model : String) (now : Int64)
    (failed : ending ≠ .eof ∨ ∃ e ∈ eventsOf reads.flatten ending, rejects codec e = true) :
    ∃ err, bufferChatCompletion codec reads ending model now = .error err := by
  rw [bufferChatCompletion_eq]
  by_cases rejected : ∃ e ∈ eventsOf reads.flatten ending, rejects codec e = true
  · obtain ⟨err, result⟩ := chat_rejected codec model now ending _
      { transformer := SSETransformer.new model } rejected
    exact ⟨_, result⟩
  · have accepted : ∀ e ∈ eventsOf reads.flatten ending, rejects codec e = false := by
      simpa using rejected
    rw [chat_accepted codec model now ending _ _ accepted]
    cases ending with
    | eof => exact absurd rfl (failed.resolve_right rejected)
    | failed message => exact ⟨_, rfl⟩

end CodexProxy.Buffered
