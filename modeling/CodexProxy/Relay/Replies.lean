import CodexProxy.Relay.Termination
import CodexProxy.Transform.SegmentRuns

/-! What a relay sends, event by event. Whether an event closes or aborts the stream
depends on its payload alone; what else it sends depends on the payloads before it
only through the items that are open. -/
namespace CodexProxy.Relay
open Bytes Transform Polling

variable (codec : Json.Codec)

/-- The upstream's own sentinel. -/
def stops (data : Event) : Bool :=
  match interpret codec data with
  | .stop => true
  | _ => false

/-- An event that is rejected and from which the relay does not recover. -/
def aborts (data : Event) : Bool :=
  match interpret codec data with
  | .reject _ =>
    match codec.fromSlice data with
    | some value => !isTypeless value
    | none => true
  | _ => false

/-- An event after which the relay goes on. -/
def continues (data : Event) : Bool := !stops codec data && !aborts codec data

/-- The payload that the relay copies, given the events before this one. -/
def passedThrough (before : List Event) (data : Event) : Option (List UInt8) :=
  match interpret codec data with
  | .ignore | .note _ | .reset _ => passThroughOpenaiChunk codec data
  | .arguments _ itemId _ =>
    if itemId ∈ openItems codec before then none else passThroughOpenaiChunk codec data
  | .reject _ =>
    match codec.fromSlice data with
    | some value =>
      if isTypeless value && isOpenaiChunk value then some (trimAscii data) else none
    | none => none
  | _ => none

/-- What the relay sends for an event: the transformer's frames, or a copy. -/
def sends (model : String) (before : List Event) (data : Event) : List (List UInt8) :=
  (((SSETransformer.new model).after codec before).framesOf codec data).map
    (SSETransformer.frame codec) ++ (passedThrough codec before data).toList

def sendsAll (model : String) (before : List Event) : List Event → List (List UInt8)
  | [] => []
  | data :: events => sends codec model before data ++ sendsAll model (before ++ [data]) events

/-- The closing frames, decided by the first event that does not continue. -/
def closingOf (events : List Event) (ending : Ending) : Closing :=
  match events.dropWhile (continues codec) with
  | data :: _ =>
    match interpret codec data with
    | .reject err => .failed codec err.display (.transform err)
    | _ => .ok
  | [] =>
    match ending with
    | .eof => .ok
    | .failed message => .failed codec message (.upstreamRead message)

/-- One event that continues. -/
theorem reply_continues (model : String) (before : List Event) {data : Event}
    (running : continues codec data = true) :
    reply codec data (((SSETransformer.new model).after codec before).transform codec data).2 =
      .send (sends codec model before data) := by
  have known := lookup_openItems codec model before
  rw [sends, SSETransformer.framesOf]
  generalize (SSETransformer.new model).after codec before = t at known
  rw [SSETransformer.transform_eq, SSETransformer.transformChunks_eq, passedThrough]
  simp only [continues, stops, aborts, Bool.and_eq_true, Bool.not_eq_true'] at running
  cases denotes : interpret codec data with
  | stop => simp [denotes] at running
  | ignore | note => rfl
  | reset id =>
    simp only [Action.apply]
    split <;> rfl
  | text | reasoning | announce | finish => simp [Action.apply, SSETransformer.emitDelta_eq,
      Except.map, TransformResult.map, reply, Handled.frames, TransformResult.frames]
  | arguments seq itemId delta =>
    have member := known itemId
    simp only [Action.apply]
    split
    · rename_i none
      rw [none] at member
      simp only [Option.isSome_none, Bool.false_eq_true, false_iff] at member
      rw [if_neg member]
      rfl
    · rename_i index found
      rw [found] at member
      simp only [Option.isSome_some, true_iff] at member
      rw [if_pos member]
      simp [SSETransformer.emitDelta_eq, Except.map, TransformResult.map, reply, Handled.frames,
        TransformResult.frames]
  | reject err =>
    simp only [denotes, true_and] at running
    simp only [Action.apply, Except.map, reply, recover, Handled.frames, List.map_nil,
      List.nil_append]
    cases decoded : codec.fromSlice data with
    | none => simp [decoded] at running
    | some value =>
      simp only [decoded, Bool.not_eq_false'] at running
      simp only [running, if_true, Bool.true_and]
      split <;> rfl

theorem reply_stops (t : SSETransformer) {data : Event} (stop : interpret codec data = .stop) :
    t.transform codec data = (t, .ok .done) := by
  rw [SSETransformer.transform_eq, stop]
  rfl

/-- The relay's fold in closed form, by induction on the events. -/
theorem relay_fold (model : String) (events before : List Event) (ending : Ending)
    (sent : List (List UInt8)) :
    let final := (relay codec).fold events ending ((SSETransformer.new model).after codec before, sent)
    final.1.2 = sent ++ sendsAll codec model before (events.takeWhile (continues codec)) ∧
      final.2 = closingOf codec events ending := by
  induction events generalizing before sent with
  | nil => cases ending <;> exact ⟨by simp [Handler.fold, relay, sendsAll], rfl⟩
  | cons data events ih =>
    dsimp only
    rw [Handler.fold]
    cases running : continues codec data with
    | true =>
      have answer := reply_continues codec model before running
      have moved : (((SSETransformer.new model).after codec before).transform codec data).1 =
          (SSETransformer.new model).after codec (before ++ [data]) := by
        rw [after_append]
        rfl
      simp only [relay, answer, moved]
      obtain ⟨sent', closing⟩ := ih (before ++ [data]) (sent ++ sends codec model before data)
      refine ⟨?_, ?_⟩
      · rw [List.takeWhile_cons_of_pos running, sendsAll, ← List.append_assoc]
        exact sent'
      · rw [closingOf.eq_def, List.dropWhile_cons_of_pos running]
        exact closing
    | false =>
      have kept : (data :: events).takeWhile (continues codec) = [] :=
        List.takeWhile_cons_of_neg (by simp [running])
      have dropped : (data :: events).dropWhile (continues codec) = data :: events :=
        List.dropWhile_cons_of_neg (by simp [running])
      rw [kept, sendsAll, List.append_nil, closingOf.eq_def, dropped]
      simp only [continues, stops, aborts, Bool.and_eq_false_iff, Bool.not_eq_false'] at running
      cases denotes : interpret codec data with
      | stop =>
        simp only [relay, reply_stops codec _ denotes, reply, denotes]
        exact ⟨trivial, trivial⟩
      | reject err =>
        simp only [denotes, Bool.false_eq_true, false_or] at running
        have failed : recover codec data err = .fail err := by
          rw [recover]
          cases decoded : codec.fromSlice data with
          | none => rfl
          | some value =>
            simp only [decoded, Bool.not_eq_true'] at running
            simp [running]
        simp only [relay, SSETransformer.transform_eq, denotes, Action.apply, Except.map, reply,
          failed]
        exact ⟨trivial, trivial⟩
      | _ => simp [denotes] at running

theorem relayAll_eq (model : String) (bs : List UInt8) (ending : Ending) :
    (relayAll codec model bs ending).1.2 =
        sendsAll codec model [] ((eventsOf bs ending).takeWhile (continues codec)) ∧
      (relayAll codec model bs ending).2 = closingOf codec (eventsOf bs ending) ending := by
  obtain ⟨sent, closing⟩ := relay_fold codec model (eventsOf bs ending) [] ending []
  rw [List.nil_append] at sent
  exact ⟨sent, closing⟩

/-- Without copies a relay sends the transformer's frames. -/
theorem sendsAll_own {model : String} (before : List Event) {events : List Event}
    (own : ∀ front data rest, events = front ++ data :: rest →
      passedThrough codec (before ++ front) data = none) :
    sendsAll codec model before events =
      (((SSETransformer.new model).after codec before).emitted codec events).map
        (SSETransformer.frame codec) := by
  induction events generalizing before with
  | nil => rfl
  | cons data events ih =>
    have here := own [] data events rfl
    rw [List.append_nil] at here
    have later := ih (before ++ [data]) fun front d rest split => by
      rw [List.append_assoc, List.singleton_append]
      exact own (data :: front) d rest (by rw [split]; rfl)
    rw [sendsAll, later, sends, here, Option.toList_none, List.append_nil,
      SSETransformer.emitted, List.map_append, after_append]
    rfl

/-- A payload is sent for one of the events, given those before it. -/
theorem mem_sendsAll {model : String} {before events : List Event} :
    p ∈ sendsAll codec model before events ↔
      ∃ front data rest, events = front ++ data :: rest ∧
        p ∈ sends codec model (before ++ front) data := by
  induction events generalizing before with
  | nil => simp [sendsAll]
  | cons data events ih =>
    rw [sendsAll, List.mem_append, ih]
    constructor
    · rintro (here | ⟨front, data', rest, rfl, later⟩)
      · exact ⟨[], data, events, rfl, by simpa using here⟩
      · exact ⟨data :: front, data', rest, rfl, by simpa using later⟩
    · rintro ⟨front, data', rest, split, sent⟩
      cases front with
      | nil =>
        cases split
        exact .inl (by simpa using sent)
      | cons first front =>
        cases split
        exact .inr ⟨front, data', rest, rfl, by simpa using sent⟩

end CodexProxy.Relay
