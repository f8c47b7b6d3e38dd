import CodexProxy.Relay.Recovery
import CodexProxy.Relay.Determinism
import CodexProxy.Relay.Framing

/-! Events that the relay ignores. JSON without a string type is rejected before any
state is touched, so such events can be put into a stream, or left out of it, at will. -/
namespace CodexProxy.Relay
open Bytes EventStream Transform Polling

variable (codec : Json.Codec)

/-- A JSON event that has no string `type` and is not an OpenAI chunk. -/
def ignorable (data : Event) : Bool :=
  match codec.fromSlice data with
  | some value => isTypeless value && !isOpenaiChunk value
  | none => false

/-- The same events in the same order, those that are ignorable aside. -/
def SameEvents (events events' : List Event) : Prop :=
  events.filter (!ignorable codec ·) = events'.filter (!ignorable codec ·)

/-- The envelope of an ignorable event does not decode. -/
theorem ignorable_spec {data : Event} (ignored : ignorable codec data = true) :
    ∃ err value, interpret codec data = .reject err ∧ codec.fromSlice data = some value ∧
      isTypeless value = true ∧ isOpenaiChunk value = false := by
  unfold ignorable at ignored
  split at ignored
  · rename_i value decoded
    obtain ⟨raw, read, rfl⟩ := Option.map_eq_some_iff.mp decoded
    simp only [Bool.and_eq_true, Bool.not_eq_true'] at ignored
    have narrow : EventEnvelope.decode raw = none := by
      rw [← Option.not_isSome_iff_eq_none, EventEnvelope.decode_iff]
      rintro ⟨_, typed⟩
      rw [ignored.1] at typed
      cases typed
    have rejected : interpret codec data = .reject (.invalidJson
        (codec.sliceError "EventEnvelope" (trimAscii data))) := by
      rw [interpret, SSETransformer.classify_read codec read, narrow]
    exact ⟨_, _, rejected, decoded, ignored⟩
  · cases ignored

theorem ignorable_transform {data : Event} (ignored : ignorable codec data = true)
    (t : SSETransformer) : ∃ err, t.transform codec data = (t, .error err) := by
  obtain ⟨err, _, rejected, _⟩ := ignorable_spec codec ignored
  rw [SSETransformer.transform_eq, rejected]
  exact ⟨err, rfl⟩

/-- The loop body goes on in the same state. -/
theorem RewriteState.handleEvent_ignorable (observe : Observer O) {data : Event}
    (ignored : ignorable codec data = true) (s : RewriteState O) :
    s.handleEvent codec observe data = .next s := by
  obtain ⟨_, value, _, decoded, typeless, other⟩ := ignorable_spec codec ignored
  obtain ⟨err, failed⟩ := ignorable_transform codec ignored s.transformer
  unfold handleEvent
  rw [failed, decoded]
  dsimp only
  rw [if_pos typeless, if_neg (by simp [other])]

theorem relay_ignorable {data : Event} (ignored : ignorable codec data = true)
    (s : SSETransformer × List (List UInt8)) : (relay codec).onItem data s = .next s := by
  obtain ⟨_, value, _, decoded, typeless, other⟩ := ignorable_spec codec ignored
  obtain ⟨err, failed⟩ := ignorable_transform codec ignored s.1
  simp [relay, failed, reply, recover, decoded, typeless, other]

/-- Octets after which the reader has gathered nothing: an event boundary. -/
def AtBoundary (front : List UInt8) : Prop := (({} : SseEventReader).scan front).1 = {}

/-- Frames of ignorable events are put in at event boundaries. -/
inductive Inserts : List UInt8 → List UInt8 → Prop where
  | nothing (bs : List UInt8) : Inserts bs bs
  | frames {front back back' : List UInt8} {events : List Event} (boundary : AtBoundary front)
      (ignored : ∀ e ∈ events, ignorable codec e = true ∧ Framable e) (rest : Inserts back back') :
      Inserts (front ++ back) (front ++ encode (events.map .data) ++ back')

variable {codec}

theorem AtBoundary.eventsOf_append {front : List UInt8} (boundary : AtBoundary front)
    (back : List UInt8) (ending : Ending) :
    eventsOf (front ++ back) ending =
      (({} : SseEventReader).scan front).2 ++ eventsOf back ending := by
  rw [eventsOf, SseEventReader.remaining_append, boundary]
  rfl

theorem atBoundary_encode {events : List Event} (framable : ∀ e ∈ events, Framable e) :
    ({} : SseEventReader).scan (encode (events.map .data)) = ({}, events) := by
  induction events with
  | nil => rfl
  | cons event events ih =>
    have later := ih fun e member => framable e (List.mem_cons_of_mem _ member)
    rw [List.map_cons, encode, List.flatMap_cons, ← encode, SseEventReader.scan_append,
      SseEventReader.scan_frame (framable event List.mem_cons_self)]
    dsimp only
    rw [later]
    rfl

/-- By induction on the places where something is put in. -/
theorem Inserts.sameEvents {bs bs' : List UInt8} (inserts : Inserts codec bs bs')
    (ending : Ending) : SameEvents codec (eventsOf bs ending) (eventsOf bs' ending) := by
  induction inserts with
  | nothing bs => rfl
  | frames boundary ignored rest ih =>
    rename_i front back back' events
    have scanned := atBoundary_encode fun e member => (ignored e member).2
    have inner : AtBoundary (encode (events.map .data)) := by rw [AtBoundary, scanned]
    have gone : events.filter (!ignorable codec ·) = [] := by
      rw [List.filter_eq_nil_iff]
      intro e member
      simp [(ignored e member).1]
    rw [SameEvents, List.append_assoc, boundary.eventsOf_append, boundary.eventsOf_append,
      inner.eventsOf_append, scanned, List.filter_append, List.filter_append, List.filter_append,
      gone, List.nil_append, ih]

/-- A relay that ends somehow ends so on every stream with the same events. -/
theorem SameEvents.ends {reads reads' : List (List UInt8)} {ending : Ending}
    (same : SameEvents codec (eventsOf reads.flatten ending) (eventsOf reads'.flatten ending))
    {downstream : Downstream} {model : String} {config : RelayConfig} {turns : List Turn}
    (returned : rewriteSseStream codec reads ending downstream model config turns =
      .stopped s outcome) :
    ∃ turns', rewriteSseStream codec reads' ending downstream model config turns' =
      .stopped s outcome := by
  have skips (data : Event) (s : RewriteState Unit) (ignored : ignorable codec data = true) :
      (rewriteLoop codec fun _ _ u => u).onItem data s = .next s :=
    RewriteState.handleEvent_ignorable codec (fun _ _ u => u) ignored s
  have items : (Reading.source.items (Reading.new reads ending)).filter (!ignorable codec ·) =
      (Reading.source.items (Reading.new reads' ending)).filter (!ignorable codec ·) := by
    rw [Reading.source_items_new, Reading.source_items_new, same]
  have endings : Reading.source.ending (Reading.new reads ending) =
      Reading.source.ending (Reading.new reads' ending) := by
    rw [Reading.source_ending_new, Reading.source_ending_new]
  obtain ⟨turns', ticks, alike⟩ := Loop.run_skipping Reading.source _ skips
    (.running _ items endings) (config.schedule turns)
  have allowed : config.schedule turns' = turns' := by
    unfold RelayConfig.schedule at ticks ⊢
    split
    · rename_i disabled
      rw [if_pos disabled] at ticks
      refine List.filter_eq_self.mpr fun turn member => ?_
      cases turn with
      | tick => exact absurd (ticks member) (by simp)
      | poll => rfl
    · rfl
  refine ⟨turns', ?_⟩
  rw [rewriteSseStream, rewriteSseStreamWithCallback] at returned ⊢
  rw [returned] at alike
  rw [allowed]
  generalize Loop.run _ _ _ turns' = config' at alike ⊢
  cases alike
  rfl

theorem SameEvents.relayAll_eq {bs bs' : List UInt8} {ending : Ending}
    (same : SameEvents codec (eventsOf bs ending) (eventsOf bs' ending)) (model : String) :
    relayAll codec model bs ending = relayAll codec model bs' ending := by
  have skips (data : Event) (s : SSETransformer × List (List UInt8))
      (ignored : ignorable codec data = true) : (relay codec).onItem data s = .next s :=
    relay_ignorable codec ignored s
  rw [relayAll, relayAll, ← Handler.fold_filter (relay codec) skips,
    ← Handler.fold_filter (relay codec) skips (eventsOf bs' ending)]
  exact congrArg ((relay codec).fold · ending _) same

variable (codec)

/-- Upstreams that cannot be told apart: a relay of one can end as a relay of the other,
whatever the client does, and to a client that takes all writes any two of their relays
write the same data frames, with the same result. -/
structure Alike (reads reads' : List (List UInt8)) (ending : Ending) (model : String) : Prop where
  ends (downstream : Downstream) (config : RelayConfig) (s : RewriteState Unit)
      (outcome : Outcome) :
    (∃ turns, rewriteSseStream codec reads ending downstream model config turns =
        .stopped s outcome) ↔
      ∃ turns, rewriteSseStream codec reads' ending downstream model config turns =
        .stopped s outcome
  frames {downstream downstream' : Downstream} {config config' : RelayConfig}
      {turns turns' : List Turn} {s s' : RewriteState Unit} {outcome outcome' : Outcome} :
    downstream.Healthy → downstream'.Healthy → downstream.written = [] →
    downstream'.written = [] →
    rewriteSseStream codec reads ending downstream model config turns = .stopped s outcome →
    rewriteSseStream codec reads' ending downstream' model config' turns' =
      .stopped s' outcome' →
    outcome = outcome' ∧ ∃ frames frames', s.downstream.written = encode frames ∧
      s'.downstream.written = encode frames' ∧ payloads frames = payloads frames'

/-- An error leaves the transformer's state alone, and streams with the same events but
for ignorable ones are alike. -/
theorem ignorable_invisible {reads reads' : List (List UInt8)} {ending : Ending}
    (same : SameEvents codec (eventsOf reads.flatten ending) (eventsOf reads'.flatten ending))
    (model : String) :
    (∀ (t : SSETransformer) (data : List UInt8) (err : TransformError),
      (t.transform codec data).2 = .error err → (t.transform codec data).1 = t) ∧
    Alike codec reads reads' ending model := by
  refine ⟨fun t data err failed => ?_, ?_, ?_⟩
  · have rejected := (SSETransformer.transform_error_iff codec).mp failed
    rw [SSETransformer.transform_rejected codec t rejected]
  · intro downstream config s outcome
    constructor
    · rintro ⟨turns, returned⟩
      exact same.ends returned
    · rintro ⟨turns, returned⟩
      exact SameEvents.ends same.symm returned
  · intro d d' config config' turns turns' s s' outcome outcome' healthy healthy' empty empty'
      returned returned'
    obtain ⟨result, frames, written, sent⟩ :=
      rewrite_spec codec (fun _ _ u => u) healthy empty returned
    obtain ⟨result', frames', written', sent'⟩ :=
      rewrite_spec codec (fun _ _ u => u) healthy' empty' returned'
    rw [← same.relayAll_eq model] at result' written' sent'
    refine ⟨result.trans result'.symm, _, _, written, written', ?_⟩
    rw [payloads_append, payloads_append, sent, sent']

/-- An event without a type. -/
def comment : Json := .object [("note", .string "still here")]

theorem ignorable_invisible_comment :
    (∀ (t : SSETransformer) (data : List UInt8) (err : TransformError),
      (t.transform JsonText.codec data).2 = .error err →
      (t.transform JsonText.codec data).1 = t) ∧
    Alike JsonText.codec [Text.utf8 "data: [DONE]\n\n"]
      [encode [.data (JsonText.codec.toVec comment)], Text.utf8 "data: [DONE]\n\n"] .eof "gpt-5" := by
  have ignored : ignorable JsonText.codec (JsonText.codec.toVec comment) = true := by
    rw [ignorable, Json.Codec.fromSlice, JsonText.codec.read_toVec (by decide)]
    rfl
  have inserts : Inserts JsonText.codec (Text.utf8 "data: [DONE]\n\n")
      (encode [.data (JsonText.codec.toVec comment)] ++ Text.utf8 "data: [DONE]\n\n") := by
    have frames : ∀ e ∈ [JsonText.codec.toVec comment],
        ignorable JsonText.codec e = true ∧ Framable e := by
      intro e member
      rw [List.mem_singleton.mp member]
      exact ⟨ignored, framable_toVec _ _⟩
    have boundary : AtBoundary [] := rfl
    exact .frames boundary frames (.nothing _)
  exact ignorable_invisible JsonText.codec (by simpa using inserts.sameEvents .eof) "gpt-5"

end CodexProxy.Relay
