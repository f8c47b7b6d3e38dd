import CodexProxy.Buffered.FinishReasons
import CodexProxy.Buffered.Responses
import CodexProxy.Relay.Termination

/-! Upstream failures on the chat paths. The transformer knows no failure event, so a
failed response ends like a finished one unless something else goes wrong; here is
exactly what that something is, for each of the two paths. -/
namespace CodexProxy.Buffered
open Bytes EventStream Transform Relay Polling

variable (codec : Json.Codec)

/-- Before the sentinel there is an error frame or an unusual finish reason. -/
def ShowsFailure (written : List UInt8) : Prop :=
  ∃ before, decode written = some (before ++ [.data (Text.utf8 "[DONE]")]) ∧
    ∃ f ∈ before, IsErrorFrame codec f ∨ ∃ p, f = .data p ∧ Unusual codec p

/-- Before any sentinel an event aborts the relay, or the connection fails. -/
def Fails (events : List Event) (ending : Ending) : Prop :=
  (∃ before data rest, events = before ++ data :: rest ∧
    (∀ e ∈ before, continues codec e = true) ∧ aborts codec data = true) ∨
  ((∀ e ∈ events, continues codec e = true) ∧ ending ≠ .eof)

/-- Before any sentinel a chunk with an unusual finish reason is copied. -/
def CopiesUnusual (events : List Event) : Prop :=
  ∃ before data rest, events = before ++ data :: rest ∧ (∀ e ∈ before, continues codec e = true) ∧
    ∃ p, passedThrough codec before data = some p ∧ Unusual codec p

/-- A payload that the relay copies comes from an event after which it goes on. -/
theorem passedThrough_continues {before : List Event} {data : Event}
    (passed : passedThrough codec before data = some p) : continues codec data = true := by
  unfold passedThrough at passed
  unfold continues stops aborts
  cases denotes : interpret codec data with
  | ignore | note | reset | arguments => rfl
  | stop | text | reasoning | announce | finish => simp [denotes] at passed
  | reject err =>
    simp only [denotes] at passed ⊢
    cases decoded : codec.fromSlice data with
    | none => simp [decoded] at passed
    | some value =>
      simp only [decoded] at passed
      cases typeless : isTypeless value
      · simp [typeless] at passed
      · simp [typeless]

theorem mem_takeWhile_split {p : Event → Bool} {events before rest : List Event} {data : Event} :
    events.takeWhile p = before ++ data :: rest → ∃ rest', events = before ++ data :: rest' ∧
      (∀ e ∈ before, p e = true) ∧ p data = true := by
  intro split
  have all : ∀ e ∈ events.takeWhile p, p e = true := fun e => List.mem_takeWhile_imp
  rw [split] at all
  refine ⟨rest ++ events.dropWhile p, ?_, fun e member => all e (by simp [member]),
    all data (by simp)⟩
  rw [← List.cons_append, ← List.append_assoc, ← split, List.takeWhile_append_dropWhile]

/-- The relay sends something unusual exactly when it copies it. -/
theorem sendsAll_unusual (model : String) (events : List Event) :
    (∃ p ∈ sendsAll codec model [] (events.takeWhile (continues codec)), Unusual codec p) ↔
      CopiesUnusual codec events := by
  constructor
  · rintro ⟨p, sent, unusual⟩
    obtain ⟨front, data, rest, split, here⟩ := (mem_sendsAll codec).mp sent
    obtain ⟨rest', events_eq, goes, _⟩ := mem_takeWhile_split split
    rw [List.nil_append, sends, List.mem_append] at here
    rcases here with own | copied
    · obtain ⟨c, member, rfl⟩ := List.mem_map.mp own
      exact absurd unusual (frame_usual codec member)
    · exact ⟨front, data, rest', events_eq, goes, p, Option.mem_toList.mp copied, unusual⟩
  · rintro ⟨before, data, rest, rfl, goes, p, passed, unusual⟩
    refine ⟨p, (mem_sendsAll codec).mpr ⟨before, data, rest.takeWhile (continues codec), ?_, ?_⟩,
      unusual⟩
    · rw [List.takeWhile_append_of_pos goes,
        List.takeWhile_cons_of_pos (passedThrough_continues codec passed)]
    · rw [List.nil_append, sends, passed]
      simp

/-- An event that neither stops nor is skipped over aborts. -/
theorem continues_false {data : Event} (ends : continues codec data = false) :
    interpret codec data = .stop ∧ aborts codec data = false ∨
      (∃ err, interpret codec data = .reject err) ∧ aborts codec data = true := by
  unfold continues stops at ends
  unfold aborts at ends ⊢
  cases denotes : interpret codec data with
  | stop => exact .inl ⟨rfl, rfl⟩
  | reject err =>
    simp only [denotes, Bool.not_false, Bool.true_and, Bool.not_eq_false'] at ends
    exact .inr ⟨⟨err, rfl⟩, ends⟩
  | _ => simp [denotes] at ends

/-- The closing frames report an error exactly when the relay fails. -/
theorem closingOf_spec (events : List Event) (ending : Ending) :
    (closingOf codec events ending = .ok ∧ ¬ Fails codec events ending) ∨
      ((∃ message error, closingOf codec events ending = .failed codec message error) ∧
        Fails codec events ending) := by
  have split := List.takeWhile_append_dropWhile (p := continues codec) (l := events)
  have goes : ∀ e ∈ events.takeWhile (continues codec), continues codec e = true :=
    fun e => List.mem_takeWhile_imp
  unfold closingOf
  cases found : events.dropWhile (continues codec) with
  | nil =>
    rw [found, List.append_nil] at split
    rw [split] at goes
    cases ending with
    | failed message => exact .inr ⟨⟨_, _, rfl⟩, .inr ⟨goes, by simp⟩⟩
    | eof =>
      refine .inl ⟨rfl, ?_⟩
      rintro (⟨before, data, rest, rfl, _, aborted⟩ | ⟨_, read⟩)
      · have running := goes data (by simp)
        simp [continues, aborted] at running
      · exact read rfl
  | cons data rest =>
    have ends : continues codec data = false := by
      have first := List.head?_dropWhile_not (continues codec) events
      rwa [found] at first
    rw [found] at split
    dsimp only
    rcases continues_false codec ends with ⟨stop, quiet⟩ | ⟨⟨err, rejected⟩, aborted⟩
    · refine .inl ⟨by rw [stop], ?_⟩
      rintro (⟨before, data', rest', rfl, running, aborted⟩ | ⟨running, _⟩)
      · have stopped : continues codec data' = false := by simp [continues, aborted]
        rw [List.dropWhile_append_of_pos running, List.dropWhile_cons_of_neg (by simp [stopped])]
          at found
        cases found
        rw [quiet] at aborted
        cases aborted
      · rw [running data (by rw [← split]; simp)] at ends
        cases ends
    · refine .inr ⟨⟨err.display, .transform err, by rw [rejected]⟩, .inl ?_⟩
      exact ⟨_, data, rest, split.symm, goes, aborted⟩

/-- The frames of a run that returned: chunks, then the closing frames. -/
theorem rewrite_frames {reads : List (List UInt8)} {downstream : Downstream} {model : String}
    {config : RelayConfig} {turns : List Turn} (healthy : downstream.Healthy)
    (empty : downstream.written = [])
    (returned : rewriteSseStream codec reads ending downstream model config turns =
      .stopped s outcome) :
    ∃ frames, s.downstream.written = encode (frames ++
        (closingOf codec (eventsOf reads.flatten ending) ending).frames.map .data) ∧
      payloads frames = sendsAll codec model []
        ((eventsOf reads.flatten ending).takeWhile (continues codec)) ∧
      ∀ f ∈ frames, ¬ IsErrorFrame codec f := by
  obtain ⟨_, frames, written, sent⟩ := rewrite_spec codec (fun _ _ u => u) healthy empty returned
  obtain ⟨chunks, _⟩ := relay_spec codec (eventsOf reads.flatten ending) ending
    (SSETransformer.new model, []) (by simp)
  obtain ⟨payloads, closing⟩ := relayAll_eq codec model reads.flatten ending
  refine ⟨frames, by rw [written, closing], by rw [sent, payloads], ?_⟩
  rintro f member ⟨message, rfl⟩
  rw [← mem_payloads, sent] at member
  exact (chunks _ member).ne_error codec message rfl

theorem relay_shows_iff (reads : List (List UInt8)) (ending : Ending) (model : String) :
    (∀ downstream config turns s outcome, downstream.Healthy → downstream.written = [] →
        rewriteSseStream codec reads ending downstream model config turns = .stopped s outcome →
        ShowsFailure codec s.downstream.written) ↔
      Fails codec (eventsOf reads.flatten ending) ending ∨
        CopiesUnusual codec (eventsOf reads.flatten ending) := by
  have closing := closingOf_spec codec (eventsOf reads.flatten ending) ending
  constructor
  · intro shows
    obtain ⟨s, outcome, returned⟩ := rewrite_returns codec (fun _ _ u => u) () reads ending
      { sink := fun _ => none } model {}
      (List.replicate ((Reading.new reads ending).size + 1) Turn.poll) (by simp)
    obtain ⟨before, decoded, f, member, shown⟩ :=
      shows { sink := fun _ => none } {} _ s outcome (fun _ => rfl) rfl returned
    obtain ⟨frames, written, sent, silent⟩ := rewrite_frames codec (fun _ => rfl) rfl returned
    rcases closing with ⟨ok, _⟩ | ⟨_, fails⟩
    · rw [ok] at written
      rw [written, decode_encode] at decoded
      obtain ⟨rfl, _⟩ := List.append_inj' (Option.some.inj decoded) rfl
      rcases shown with error | ⟨p, rfl, unusual⟩
      · exact absurd error (silent f member)
      · rw [← mem_payloads, sent] at member
        exact .inr ((sendsAll_unusual codec model _).mp ⟨p, member, unusual⟩)
    · exact .inl fails
  · intro cause downstream config turns s outcome healthy empty returned
    obtain ⟨frames, written, sent, silent⟩ := rewrite_frames codec healthy empty returned
    have copied (unusual : CopiesUnusual codec (eventsOf reads.flatten ending)) :
        ∃ p, .data p ∈ frames ∧ Unusual codec p := by
      obtain ⟨p, member, unusual⟩ := (sendsAll_unusual codec model _).mpr unusual
      rw [← sent, mem_payloads] at member
      exact ⟨p, member, unusual⟩
    rcases closing with ⟨ok, sound⟩ | ⟨⟨message, error, failed⟩, _⟩
    · obtain ⟨p, member, unusual⟩ := copied (cause.resolve_left sound)
      rw [ok] at written
      exact ⟨frames, by rw [written, decode_encode]; rfl, _, member, .inr ⟨p, rfl, unusual⟩⟩
    · rw [failed] at written
      refine ⟨frames ++ [.data (codec.toVec (errorPayload message))], ?_, _,
        List.mem_append_right _ List.mem_cons_self, .inl ⟨message, rfl⟩⟩
      rw [written, decode_encode]
      simp [Closing.failed]

/-- Neither chat path presents the stream as a normal completion. -/
structure FailureShown (reads : List (List UInt8)) (ending : Ending) (model : String) : Prop where
  buffered : ∀ now response, bufferChatCompletion codec reads ending model now = .ok response →
    "stop" ∉ finishReasons response
  relayed : ∀ downstream config turns s outcome, downstream.Healthy → downstream.written = [] →
    rewriteSseStream codec reads ending downstream model config turns = .stopped s outcome →
    ShowsFailure codec s.downstream.written

/-- For every stream, those with failure events among them: a failure is shown exactly
when something other than a failure event shows it. -/
theorem failure_shown_iff (reads : List (List UInt8)) (ending : Ending) (model : String) :
    FailureShown codec reads ending model ↔
      BufferShows codec (eventsOf reads.flatten ending) ending ∧
        (Fails codec (eventsOf reads.flatten ending) ending ∨
          CopiesUnusual codec (eventsOf reads.flatten ending)) := by
  rw [← buffered_shows_iff codec reads ending model, ← relay_shows_iff codec reads ending model]
  constructor
  · intro shown
    exact ⟨shown.buffered, shown.relayed⟩
  · intro shown
    exact ⟨shown.1, shown.2⟩

/-- The types of a stream's JSON events. -/
def eventTypes (events : List Event) : List String := (payloadsOf codec events).map eventTypeOf

/-- The terminal event is a failure, or there is an error and no completion. -/
def FailureStream (events : List Event) : Prop :=
  (∃ type, ((eventTypes codec events).filter (· ∈ RESPONSES_TERMINAL_EVENTS)).getLast? = some type ∧
      type ≠ "response.completed") ∨
    ("error" ∈ eventTypes codec events ∧ "response.completed" ∉ eventTypes codec events)

/-- A response that failed at once. -/
def failedEvents : List Json :=
  [.object [("type", .string "response.failed"), ("response", .object [])]]

theorem eventsOf_failedEvents : eventsOf (streamOf codec failedEvents).flatten .eof =
    [codec.toVec (.object [("type", .string "response.failed"), ("response", .object [])])] :=
  eventsOf_streamOf codec failedEvents .eof

theorem interpret_failed :
    interpret codec (codec.toVec (.object [("type", .string "response.failed"),
      ("response", .object [])])) = .ignore := by
  have decoded : EventEnvelope.decode (.object [("type", .string "response.failed"),
      ("response", .object [])]) =
      some (EventEnvelope.mk "response.failed" none (.object [("response", .object [])])) := rfl
  rw [interpret_toVec codec (by decide) decoded]
  rfl

/-- It is presented as a completion that stopped. -/
theorem failedEvents_hidden :
    FailureStream JsonText.codec (eventsOf (streamOf JsonText.codec failedEvents).flatten .eof) ∧
      ¬ FailureShown JsonText.codec (streamOf JsonText.codec failedEvents) .eof "gpt-5" := by
  constructor
  · have types : eventTypes JsonText.codec
        (eventsOf (streamOf JsonText.codec failedEvents).flatten .eof) = ["response.failed"] := by
      rw [eventTypes, payloadsOf_streamOf JsonText.codec failedEvents (by decide)]
      rfl
    rw [FailureStream, types]
    exact .inl ⟨"response.failed", rfl, by decide⟩
  · intro shown
    have cause := (buffered_shows_iff JsonText.codec _ _ _).mp shown.buffered
    have ignored := interpret_failed JsonText.codec
    rw [eventsOf_failedEvents] at cause
    rcases cause with read | ⟨e, member, rejected⟩ | ⟨before, data, after, split, ⟨seq, usage, finish, _⟩, _⟩
    · exact read rfl
    · rw [List.mem_singleton.mp member, rejects, ignored] at rejected
      cases rejected
    · have member : data ∈ before ++ data :: after := by simp
      rw [← split] at member
      rw [List.mem_singleton.mp member, ignored] at finish
      cases finish

end CodexProxy.Buffered
