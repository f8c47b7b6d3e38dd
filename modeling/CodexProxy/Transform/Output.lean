import CodexProxy.Transform.Fidelity

/-! What a run of the transformer outputs, as typed deltas: apart from the role, the
deltas of an action do not depend on the run, only a tool call's index does. -/
namespace CodexProxy.Transform
open SSETransformer

variable (codec : Json.Codec)

/-- The envelope of a payload that is an event. -/
def envelopeOf (data : List UInt8) : Option EventEnvelope :=
  match classify codec data with
  | .event e => some e
  | _ => none

/-- A reasoning event that carries a delta. -/
def EventEnvelope.isReasoningDelta (e : EventEnvelope) : Bool :=
  Text.startsWith e.eventType "response.reasoning" && Text.contains e.eventType ".delta"

/-- An output index that is not positive: zero, absent, or no `u64` at all. -/
def notPositive (index : Option Json) : Bool := (index.bind Json.asUInt64).getD 0 = 0

/-- An output index that is zero or absent. -/
def zeroOrAbsent (index : Option Json) : Bool :=
  index.isNone || index.bind Json.asUInt64 = some 0

/-- The text of a reasoning delta whose output index counts. -/
def reasoningOf (counts : Option Json → Bool) (data : List UInt8) : Option String :=
  (envelopeOf codec data).bind fun e =>
    if e.isReasoningDelta ∧ counts (e.extra.get? "output_index") then e.extractReasoningContent
    else none

/-- The usage of a `response.completed` event, which is zero when it reports none. -/
def usageOf (data : List UInt8) : Option Usage :=
  (payloadOf codec "response.completed" CompletedPayload.decode data).map fun payload =>
    (payload.response.usage.map (·.toOpenai)).getD (Usage.new 0 0)

namespace Action

def reasoning? : Action → Option String
  | .reasoning _ part => some part
  | _ => none

def usage? : Action → Option Usage
  | .finish _ usage => some usage
  | _ => none

/-- Neither reasoning nor the end of a response. -/
def Plain (a : Action) : Prop := a.reasoning? = none ∧ a.usage? = none

end Action

theorem interpretCreated_plain (e : EventEnvelope) : (interpretCreated e).Plain := by
  rw [interpretCreated]
  split <;> exact ⟨rfl, rfl⟩

theorem interpretTextDelta_plain (e : EventEnvelope) : (interpretTextDelta codec e).Plain := by
  rw [interpretTextDelta]
  split <;> exact ⟨rfl, rfl⟩

theorem interpretOutputItemAdded_plain (e : EventEnvelope) :
    (interpretOutputItemAdded codec e).Plain := by
  rw [interpretOutputItemAdded]
  split
  · exact ⟨rfl, rfl⟩
  · exact ⟨rfl, rfl⟩
  split
  · exact ⟨rfl, rfl⟩
  split <;> exact ⟨rfl, rfl⟩

theorem interpretFunctionCallArgsDelta_plain (e : EventEnvelope) :
    (interpretFunctionCallArgsDelta codec e).Plain := by
  rw [interpretFunctionCallArgsDelta]
  split <;> exact ⟨rfl, rfl⟩

theorem interpretReasoning_reports (e : EventEnvelope) :
    (interpretReasoning e).reasoning? =
      (if Text.contains e.eventType ".delta" ∧ notPositive (e.extra.get? "output_index") then
        e.extractReasoningContent else none) ∧
    (interpretReasoning e).usage? = none := by
  rw [interpretReasoning, notPositive, ← EventEnvelope.outputIndex]
  by_cases first : e.outputIndex.getD 0 = 0
  · rw [if_neg (by simp [first])]
    cases delta : Text.contains e.eventType ".delta" with
    | false => simp [Action.reasoning?, Action.usage?]
    | true => cases e.extractReasoningContent <;> simp [first, Action.reasoning?, Action.usage?]
  · rw [if_pos (UInt64.pos_iff_ne_zero.mpr first)]
    simp [first, Action.reasoning?, Action.usage?]

theorem interpretCompleted_reports (e : EventEnvelope) :
    (interpretCompleted codec e).reasoning? = none ∧
    (interpretCompleted codec e).usage? = (CompletedPayload.decode e.extra).map fun payload =>
      (payload.response.usage.map (·.toOpenai)).getD (Usage.new 0 0) := by
  rw [interpretCompleted]
  cases CompletedPayload.decode e.extra <;> exact ⟨rfl, rfl⟩

/-- Reasoning events match by prefix, completed ones by name. -/
theorem interpretEvent_reports (e : EventEnvelope) :
    (interpretEvent codec e).reasoning? =
      (if e.isReasoningDelta ∧ notPositive (e.extra.get? "output_index") then
        e.extractReasoningContent else none) ∧
    (interpretEvent codec e).usage? = (if e.eventType = "response.completed" then
      (CompletedPayload.decode e.extra).map fun payload =>
        (payload.response.usage.map (·.toOpenai)).getD (Usage.new 0 0) else none) := by
  unfold interpretEvent
  cases reasoning : Text.startsWith e.eventType "response.reasoning" with
  | true =>
    have other : e.eventType ≠ "response.completed" := by
      intro completed
      rw [completed] at reasoning
      exact absurd reasoning (by decide)
    obtain ⟨part, usage⟩ := interpretReasoning_reports e
    rw [if_pos rfl, part, usage, if_neg other]
    simp [EventEnvelope.isReasoningDelta, reasoning]
  | false =>
    have silent : ¬ (e.isReasoningDelta ∧ notPositive (e.extra.get? "output_index")) := by
      simp [EventEnvelope.isReasoningDelta, reasoning]
    rw [if_neg (by simp), if_neg silent]
    have plain {a : Action} (plain : a.Plain) (other : e.eventType ≠ "response.completed") :
        a.reasoning? = none ∧ a.usage? = (if e.eventType = "response.completed" then
          (CompletedPayload.decode e.extra).map fun payload =>
            (payload.response.usage.map (·.toOpenai)).getD (Usage.new 0 0) else none) := by
      rw [if_neg other]
      exact plain
    split <;> rename_i type
    · exact plain (interpretCreated_plain e) (by rw [type]; decide)
    · exact plain (interpretTextDelta_plain codec e) (by rw [type]; decide)
    · rw [if_pos type]
      exact interpretCompleted_reports codec e
    · exact plain (interpretOutputItemAdded_plain codec e) (by rw [type]; decide)
    · exact plain (interpretFunctionCallArgsDelta_plain codec e) (by rw [type]; decide)
    · exact plain ⟨rfl, rfl⟩ (by rw [type]; decide)
    · rename_i _ _ other _ _
      exact plain ⟨rfl, rfl⟩ other

/-- An event's reasoning and usage are those of its action. -/
theorem interpret_reports (data : List UInt8) :
    (interpret codec data).reasoning? = reasoningOf codec notPositive data ∧
    (interpret codec data).usage? = usageOf codec data := by
  unfold interpret reasoningOf usageOf payloadOf envelopeOf
  cases classify codec data with
  | blank | done | undecodable => exact ⟨rfl, rfl⟩
  | event e =>
    obtain ⟨part, usage⟩ := interpretEvent_reports codec e
    refine ⟨part, usage.trans ?_⟩
    dsimp only
    split <;> rfl

def ChatCompletionChunk.deltas (c : ChatCompletionChunk) : List ChunkDelta :=
  c.choices.map (·.delta)

namespace Action

/-- The deltas that an action sends, the role aside. -/
def deltas (t : SSETransformer) : Action → List ChunkDelta
  | .text _ delta => [{ content := some delta }]
  | .reasoning _ part => [{ reasoningContent := some part }]
  | .announce _ itemId callId name => [startDelta (t.announce itemId callId name).2 callId name]
  | .arguments _ itemId delta =>
    (t.toolIndexByItemId.lookup itemId).toList.map (argumentsDelta · delta)
  | .finish _ _ => [{}]
  | _ => []

/-- A view that skips the role sees exactly an action's deltas. -/
theorem deltas_apply (a : Action) (t : SSETransformer) {view : ChunkDelta → List α}
    (skips : view { role := some "assistant" } = []) :
    ((a.apply t).frames.flatMap (·.deltas)).flatMap view = (a.deltas t).flatMap view := by
  have body (t : SSETransformer) (seq : Option UInt64) (delta : ChunkDelta) :
      ((t.bodyFrames seq delta).flatMap (·.deltas)).flatMap view = [delta].flatMap view := by
    rw [bodyFrames, sendRole]
    split
    · rfl
    · simp [ChatCompletionChunk.deltas, makeChunk, skips]
  cases a with
  | ignore | stop | reject | note => rfl
  | reset id =>
    simp only [apply]
    split <;> rfl
  | text seq text =>
    simp only [apply, emitDelta_eq]
    exact body t seq _
  | reasoning seq part =>
    simp only [apply, emitDelta_eq]
    exact body t seq _
  | announce seq itemId callId name =>
    simp only [apply, emitDelta_eq]
    exact body _ seq _
  | arguments seq itemId text =>
    cases found : t.toolIndexByItemId.lookup itemId with
    | none =>
      simp only [apply, deltas, found]
      rfl
    | some index =>
      simp only [apply, deltas, found, emitDelta_eq]
      exact body t seq _
  | finish seq usage => rfl

theorem usages_apply (a : Action) (t : SSETransformer) :
    (a.apply t).frames.filterMap (·.usage) = a.usage?.toList := by
  have body (t : SSETransformer) (seq : Option UInt64) (delta : ChunkDelta) :
      (t.bodyFrames seq delta).filterMap (·.usage) = [] := by
    rw [List.filterMap_eq_nil_iff]
    intro c member
    rcases mem_bodyFrames member with ⟨u, rfl⟩ | ⟨u, rfl⟩ <;> rfl
  cases a with
  | ignore | stop | reject | note | finish => rfl
  | reset id =>
    simp only [apply]
    split <;> rfl
  | text seq text =>
    simp only [apply, emitDelta_eq]
    exact body t seq _
  | reasoning seq part =>
    simp only [apply, emitDelta_eq]
    exact body t seq _
  | announce seq itemId callId name =>
    simp only [apply, emitDelta_eq]
    exact body _ seq _
  | arguments seq itemId text =>
    simp only [apply]
    split
    · rfl
    · rw [emitDelta_eq]
      exact body t seq _

end Action

/-- The deltas of a run. -/
def SSETransformer.sentDeltas (t : SSETransformer) (calls : List (List UInt8)) : List ChunkDelta :=
  (t.emitted codec calls).flatMap (·.deltas)

theorem sentDeltas_snoc (t : SSETransformer) (calls : List (List UInt8)) (data : List UInt8)
    {view : ChunkDelta → List α} (skips : view { role := some "assistant" } = []) :
    (t.sentDeltas codec (calls ++ [data])).flatMap view =
      (t.sentDeltas codec calls).flatMap view ++
        ((interpret codec data).deltas (t.after codec calls)).flatMap view := by
  rw [SSETransformer.sentDeltas, emitted_snoc, List.flatMap_append, List.flatMap_append,
    Action.deltas_apply _ _ skips]
  rfl

/-- A view that sees the same of an action in every state sees of a run what its
payloads say. -/
theorem sentDeltas_view (t : SSETransformer) (calls : List (List UInt8))
    {view : ChunkDelta → List α} (skips : view { role := some "assistant" } = [])
    {said : List UInt8 → List α}
    (tells : ∀ t data, ((interpret codec data).deltas t).flatMap view = said data) :
    (t.sentDeltas codec calls).flatMap view = calls.flatMap said := by
  induction calls using List.reverseRecOn with
  | nil => rfl
  | append_singleton calls data ih =>
    rw [sentDeltas_snoc codec t calls data skips, ih, tells, List.flatMap_append,
      List.flatMap_singleton]

theorem sentDeltas_content (t : SSETransformer) (calls : List (List UInt8)) :
    (t.sentDeltas codec calls).flatMap (·.content.toList) = calls.filterMap (textOf codec) := by
  have tells (t : SSETransformer) (data : List UInt8) :
      ((interpret codec data).deltas t).flatMap (·.content.toList) =
        (textOf codec data).toList := by
    rw [← (interpret_carries codec data).1]
    cases interpret codec data with
    | arguments seq itemId delta => cases found : t.toolIndexByItemId.lookup itemId <;>
        simp [Action.deltas, Action.text?, argumentsDelta, found]
    | _ => rfl
  rw [sentDeltas_view codec t calls rfl tells, List.filterMap_eq_flatMap_toList]

theorem sentDeltas_reasoning (t : SSETransformer) (calls : List (List UInt8)) :
    (t.sentDeltas codec calls).flatMap (·.reasoningContent.toList) =
      calls.filterMap (reasoningOf codec notPositive) := by
  have tells (t : SSETransformer) (data : List UInt8) :
      ((interpret codec data).deltas t).flatMap (·.reasoningContent.toList) =
        (reasoningOf codec notPositive data).toList := by
    rw [← (interpret_reports codec data).1]
    cases interpret codec data with
    | arguments seq itemId delta => cases found : t.toolIndexByItemId.lookup itemId <;>
        simp [Action.deltas, Action.reasoning?, argumentsDelta, found]
    | _ => rfl
  rw [sentDeltas_view codec t calls rfl tells, List.filterMap_eq_flatMap_toList]

theorem emitted_usages (t : SSETransformer) (calls : List (List UInt8)) :
    (t.emitted codec calls).filterMap (·.usage) = calls.filterMap (usageOf codec) := by
  induction calls using List.reverseRecOn with
  | nil => rfl
  | append_singleton calls data ih =>
    rw [emitted_snoc, List.filterMap_append, ih, Action.usages_apply,
      (interpret_reports codec data).2, List.filterMap_append]
    congr 1

end CodexProxy.Transform
