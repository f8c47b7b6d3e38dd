import CodexProxy.Relay.Replies
import CodexProxy.Transform.Isolation

/-! Which events abort the relay. The transformer decodes an envelope before it looks at
the type, so an event of an unknown type is fatal exactly when its envelope is narrow. -/
namespace CodexProxy.Relay
open Bytes EventStream Transform Polling Json.Decode

variable (codec : Json.Codec)

/-- The loop body ends the stream with an error of the transformer. -/
def RewriteState.AbortsOn (observe : Observer O) (event : Event) (s : RewriteState O) : Prop :=
  ∃ s' error, s.handleEvent codec observe event = .stop s' (.error (.transform error))

/-- The events whose payload is decoded into a type. -/
def PAYLOAD_EVENTS : List String :=
  ["response.created", "response.output_text.delta", "response.completed",
    "response.output_item.added", "response.function_call_arguments.delta"]

/-- The events that have no string type, or one without a typed payload. -/
def Untyped (value : Json) : Prop :=
  ∀ type, value.get? "type" = some (.string type) → type ∉ PAYLOAD_EVENTS

/-- At most one `type`, and at most one `sequence_number`, which is null or fits a `u64`. -/
def EnvelopeFits (raw : Json) : Prop :=
  ∀ ms, raw = .object ms →
    (ms.filter (·.1 == "type")).length ≤ 1 ∧ (ms.filter (·.1 == "sequence_number")).length ≤ 1 ∧
    ∀ n, ms.lookup "sequence_number" = some n → n.isNull = true ∨ n.asUInt64.isSome = true

theorem RewriteState.write_no_abort (s : RewriteState O) (w : Write) (error : TransformError) :
    s.write w ≠ .stop s' (.error (.transform error)) := by
  unfold write
  split
  · intro same
    cases same
  · intro same
    cases same

theorem RewriteState.finishWith_no_abort (s : RewriteState O) (w : Write)
    (error : TransformError) : (s.finishWith w).2 ≠ .error (.transform error) := by
  unfold finishWith
  split
  · intro same
    cases same
  · intro same
    cases same

/-- What stops the loop with an error of the transformer is a rejected payload that is no JSON,
or JSON with a type. -/
theorem RewriteState.aborts_of_abortsOn {observe : Observer O} {event : Event} {s : RewriteState O}
    (aborted : s.AbortsOn codec observe event) : aborts codec event = true := by
  obtain ⟨s', error, stopped⟩ := aborted
  unfold handleEvent at stopped
  cases answer : s.transformer.transform codec event with
  | mk t result =>
    rw [answer] at stopped
    cases result with
    | ok r =>
      cases r with
      | done =>
        simp only [Step.stop.injEq] at stopped
        exact absurd stopped.2 (finishWith_no_abort _ _ error)
      | emitted frames => exact absurd stopped (write_no_abort _ _ error)
      | swallowed =>
        simp only at stopped
        split at stopped
        · exact absurd stopped (write_no_abort _ _ error)
        · cases stopped
    | error err =>
      have rejected : interpret codec event = .reject err :=
        (SSETransformer.transform_error_iff codec).mp (congrArg Prod.snd answer)
      simp only [aborts, rejected]
      cases decoded : codec.fromSlice event with
      | none => rfl
      | some value =>
        cases typeless : isTypeless value with
        | false => simp only [typeless, Bool.not_false]
        | true =>
          simp only [decoded, typeless, if_true] at stopped
          split at stopped
          · exact absurd stopped (write_no_abort _ _ error)
          · cases stopped

/-- Whether an event aborts is decided by its payload, in every state of the relay. -/
theorem RewriteState.abortsOn_iff (observe : Observer O) (event : Event) (s : RewriteState O) :
    s.AbortsOn codec observe event ↔ aborts codec event = true := by
  refine ⟨aborts_of_abortsOn codec, fun aborting => ?_⟩
  cases denotes : interpret codec event with
  | reject error =>
    simp only [aborts, denotes] at aborting
    refine ⟨(s.failWith codec error.display (.transform error)).1, error, ?_⟩
    unfold handleEvent
    rw [SSETransformer.transform_rejected codec s.transformer denotes]
    simp only
    split
    · rename_i value decoded
      rw [decoded] at aborting
      simp only [Bool.not_eq_true'] at aborting
      rw [if_neg (by simp [aborting])]
      rfl
    · rfl
  | _ => simp [aborts, denotes] at aborting

/-- Only events with a typed payload are rejected after their envelope. -/
theorem interpretEvent_reject {e : EventEnvelope} {error : TransformError}
    (rejected : interpretEvent codec e = .reject error) : e.eventType ∈ PAYLOAD_EVENTS := by
  unfold interpretEvent at rejected
  split at rejected
  · unfold interpretReasoning at rejected
    split at rejected
    · cases rejected
    split at rejected
    · cases rejected
    split at rejected <;> cases rejected
  · split at rejected <;> rename_i type
    · rw [type]; decide
    · rw [type]; decide
    · rw [type]; decide
    · rw [type]; decide
    · rw [type]; decide
    · cases rejected
    · cases rejected

/-- An envelope decodes exactly when it fits and names a type. -/
theorem EventEnvelope.decode_iff (raw : Json) :
    (EventEnvelope.decode raw).isSome ↔
      EnvelopeFits raw ∧ isTypeless raw.normalize = false := by
  cases raw with
  | object ms =>
    have fits : EnvelopeFits (.object ms) ↔ (ms.filter (·.1 == "type")).length ≤ 1 ∧
        (ms.filter (·.1 == "sequence_number")).length ≤ 1 ∧
        ∀ n, ms.lookup "sequence_number" = some n → n.isNull = true ∨ n.asUInt64.isSome = true := by
      constructor
      · intro fits
        exact fits ms rfl
      · rintro fits _ ⟨⟩
        exact fits
    rw [fits, EventEnvelope.decode]
    by_cases once : (ms.filter (·.1 == "type")).length ≤ 1
    · by_cases seqOnce : (ms.filter (·.1 == "sequence_number")).length ≤ 1
      · have typed : isTypeless (Json.object ms).normalize =
            ((ms.lookup "type").bind Json.asString).isNone := by
          rw [isTypeless, Json.normalize, Json.get?_object, Json.lookup_normalizeMembers_last,
            lookup_reverse once]
          cases ms.lookup "type" with
          | none => rfl
          | some v => simp [Json.asString_normalize]
        have decodes : record ["type", "sequence_number"] (.object ms) =
            some fun k => ms.lookup k := by
          simp [record, once, seqOnce]
        simp only [decodes, Option.bind_eq_bind, Option.bind_some, typed, once, seqOnce, true_and,
          required]
        cases text : (ms.lookup "type").bind Json.asString with
        | none => simp
        | some type =>
          simp only [Option.bind_some, Option.isNone_some, and_true]
          cases ms.lookup "sequence_number" with
          | none => simp
          | some n =>
            have fitsNumber := nullable_isSome Json.asUInt64 n
            simp only [defaulted_some, Option.some.injEq, forall_eq', ← Bool.or_eq_true,
              ← fitsNumber]
            cases nullable Json.asUInt64 n <;> simp
      · simp [record, seqOnce]
    · simp [record, once]
  | _ => simp [EventEnvelope.decode, isTypeless, Json.normalize, Json.get?]

/-- A payload that is valid JSON and denotes no typed payload: it aborts the relay, in
whatever state, exactly when it has a string type and its envelope does not fit. -/
theorem untyped_recovered_iff (observe : Observer O) (s : RewriteState O) {data : Event}
    {raw : Json} (read : codec.read data = some raw) (untyped : Untyped raw.normalize) :
    ¬ s.AbortsOn codec observe data ↔ isTypeless raw.normalize = true ∨ EnvelopeFits raw := by
  have value : codec.fromSlice data = some raw.normalize := by
    rw [Json.Codec.fromSlice, read]
    rfl
  have envelope := EventEnvelope.decode_iff raw
  have classified := SSETransformer.classify_read codec read
  rw [RewriteState.abortsOn_iff, aborts, interpret, classified]
  cases decoded : EventEnvelope.decode raw with
  | none =>
    rw [decoded] at envelope
    simp only [Option.isSome_none, Bool.false_eq_true, false_iff, not_and,
      Bool.not_eq_false] at envelope
    simp only [value, Bool.not_eq_true', Bool.not_eq_false]
    exact ⟨.inl, fun either => either.elim id envelope⟩
  | some e =>
    rw [decoded] at envelope
    simp only [Option.isSome_some, true_iff] at envelope
    refine iff_of_true ?_ (.inr envelope.1)
    have type := (EventEnvelope.decode_value decoded).1
    simp only
    split
    · rename_i rejected
      exact absurd (interpretEvent_reject codec rejected) (untyped _ type)
    · exact Bool.false_ne_true

/-- A progress event; its type has no typed payload. -/
def progressEvent (sequence : Json) : Json :=
  .object [("type", .string "response.in_progress"), ("sequence_number", sequence)]

theorem progressEvent_type (sequence : Json) :
    (progressEvent sequence).normalize.get? "type" = some (.string "response.in_progress") := by
  simp [progressEvent, Json.normalize, Json.normalizeMembers, Json.Members.lookup_insert]

theorem progressEvent_untyped (sequence : Json) : Untyped (progressEvent sequence).normalize := by
  intro type named
  rw [progressEvent_type, Option.some.injEq, Json.string.injEq] at named
  rw [← named]
  decide

/-- The relay that has just started. -/
def idleRelay : RewriteState Unit where
  transformer := .new "gpt-5"
  downstream := { sink := fun _ => none }
  observed := ()

theorem untyped_recovered_iff_progress : ¬ idleRelay.AbortsOn JsonText.codec (fun _ _ u => u)
    (JsonText.codec.toVec (progressEvent (.ofUInt64 7))) := by
  refine (untyped_recovered_iff JsonText.codec (fun _ _ u => u) idleRelay
    (JsonText.codec.read_toVec (by decide)) (progressEvent_untyped _)).mpr (.inr ?_)
  rintro ms same
  obtain rfl := Json.object.inj same
  refine ⟨by decide, by decide, ?_⟩
  intro n found
  simp only [Json.Members.lookup_cons, List.lookup_nil] at found
  cases found
  exact .inr rfl

/-- A sequence number that is written as text: such an event ends the stream. -/
theorem quotedSequence_aborts : ¬ ∀ (data : Event) (raw : Json),
    JsonText.codec.read data = some raw → Untyped raw.normalize →
    ∀ s : RewriteState Unit, ¬ s.AbortsOn JsonText.codec (fun _ _ u => u) data := by
  intro claimed
  have read : JsonText.codec.read (JsonText.codec.toVec (progressEvent (.string "7"))) =
      some (progressEvent (.string "7")) := JsonText.codec.read_toVec (by decide)
  have kept := claimed _ _ read (progressEvent_untyped _) idleRelay
  have narrow : EventEnvelope.decode (progressEvent (.string "7")) = none := by
    simp [progressEvent, EventEnvelope.decode, record, required, nullable, Json.asUInt64,
      Json.Members.lookup_cons]
  rw [RewriteState.abortsOn_iff, aborts, interpret,
    SSETransformer.classify_read JsonText.codec read, narrow, Json.Codec.fromSlice, read] at kept
  simp [isTypeless, progressEvent_type] at kept

end CodexProxy.Relay
