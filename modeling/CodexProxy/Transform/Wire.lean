import CodexProxy.Transform.Actions

/-! Emitted chunks on the wire: every chunk is a portable value, so a reader of its
frame gets the chunk back, and says of itself that it is a completion chunk. -/
namespace CodexProxy.Transform
open Json

theorem skipNone_within {v : Option Json} (within : ∀ w, v = some w → w.Within n) :
    MembersWithin n (skipNone k v) := by
  cases v with
  | none => simp [skipNone]
  | some w => simpa [skipNone] using within w rfl

theorem orNull_within {v : Option Json} (within : ∀ w, v = some w → w.Within n) :
    (orNull v).Within n := by
  cases v with
  | none => simp [orNull]
  | some w => simpa [orNull] using within w rfl

theorem PromptTokensDetails.within (d : PromptTokensDetails) : d.toJson.Within 1 := by
  simp [toJson]

theorem CompletionTokensDetails.within (d : CompletionTokensDetails) : d.toJson.Within 1 := by
  simp [toJson]

theorem Usage.within (u : Usage) : u.toJson.Within 2 := by
  rw [toJson, within_object, membersWithin_append, membersWithin_append]
  refine ⟨⟨by simp, skipNone_within ?_⟩, skipNone_within ?_⟩
  · intro w present
    obtain ⟨d, _, rfl⟩ := Option.map_eq_some_iff.mp present
    exact d.within
  · intro w present
    obtain ⟨d, _, rfl⟩ := Option.map_eq_some_iff.mp present
    exact d.within

/-- A skipped string member. -/
theorem skipNone_string_within (s : Option String) : MembersWithin n (skipNone k (s.map .string)) := by
  cases s <;> simp [skipNone]

theorem FunctionDelta.within (f : FunctionDelta) : f.toJson.Within 1 := by
  simp [toJson, skipNone_string_within]

theorem ToolCallDelta.within (t : ToolCallDelta) : t.toJson.Within 2 := by
  rw [toJson, within_object, membersWithin_append, membersWithin_append, membersWithin_append]
  refine ⟨⟨⟨by simp, skipNone_string_within _⟩, skipNone_string_within _⟩, skipNone_within ?_⟩
  intro w present
  obtain ⟨f, _, rfl⟩ := Option.map_eq_some_iff.mp present
  exact f.within

theorem ChunkDelta.within (d : ChunkDelta) : d.toJson.Within 4 := by
  rw [toJson, within_object, membersWithin_append, membersWithin_append, membersWithin_append]
  refine ⟨⟨⟨skipNone_string_within _, skipNone_string_within _⟩, skipNone_string_within _⟩,
    skipNone_within ?_⟩
  intro w present
  obtain ⟨calls, _, rfl⟩ := Option.map_eq_some_iff.mp present
  rw [within_array]
  intro v member
  obtain ⟨call, _, rfl⟩ := List.mem_map.mp member
  exact call.within

theorem ChunkChoice.within (c : ChunkChoice) : c.toJson.Within 5 := by
  rw [toJson, within_object, membersWithin_cons, membersWithin_cons, membersWithin_cons]
  refine ⟨by simp, c.delta.within, orNull_within ?_, membersWithin_nil⟩
  intro w present
  obtain ⟨s, _, rfl⟩ := Option.map_eq_some_iff.mp present
  exact within_string s

theorem ChatCompletionChunk.within (c : ChatCompletionChunk) : c.toJson.Within 7 := by
  rw [toJson, within_object, membersWithin_append]
  constructor
  · simp only [membersWithin_cons, within_string, true_and, membersWithin_nil, and_true]
    constructor
    · apply orNull_within
      intro w present
      obtain ⟨s, _, rfl⟩ := Option.map_eq_some_iff.mp present
      exact within_ofUInt64 s
    · rw [within_array]
      intro v member
      obtain ⟨choice, _, rfl⟩ := List.mem_map.mp member
      exact choice.within
  · apply skipNone_within
    intro w present
    obtain ⟨u, _, rfl⟩ := Option.map_eq_some_iff.mp present
    exact within_mono u.within (by omega)

/-- A chunk survives its frame. -/
theorem ChatCompletionChunk.portable (c : ChatCompletionChunk) : c.toJson.Portable :=
  c.within.portable (by decide)

theorem SSETransformer.read_frame (codec : Json.Codec) (c : ChatCompletionChunk) :
    codec.read (frame codec c) = some c.toJson :=
  codec.read_toVec c.portable

/-- The sentinel is not JSON. -/
theorem SSETransformer.read_doneMarker (codec : Json.Codec) : codec.read doneMarker = none :=
  codec.read_letter 68 (Text.utf8 "ONE]") (by decide) (by decide)

/-- JSON is classified by its envelope alone. -/
theorem SSETransformer.classify_read (codec : Json.Codec) {data : List UInt8} {v : Json}
    (read : codec.read data = some v) :
    classify codec data =
      match EventEnvelope.decode v with
      | some e => .event e
      | none => .undecodable (.invalidJson
          (codec.sliceError "EventEnvelope" (Bytes.trimAscii data))) := by
  have read := codec.read_trimAscii _ _ read
  have shown : Bytes.trimAscii data ≠ [] := by
    intro blank
    rw [blank, codec.read_nil] at read
    cases read
  have other : Bytes.trimAscii data ≠ doneMarker := by
    intro done
    rw [done, read_doneMarker] at read
    cases read
  rw [classify, if_neg shown, if_neg other, read, Option.bind_some]
  cases EventEnvelope.decode v <;> rfl

/-- A written value is JSON. -/
theorem SSETransformer.classify_toVec (codec : Json.Codec) {v : Json} (portable : v.Portable) :
    classify codec (codec.toVec v) =
      match EventEnvelope.decode v with
      | some e => .event e
      | none => .undecodable (.invalidJson
          (codec.sliceError "EventEnvelope" (Bytes.trimAscii (codec.toVec v)))) :=
  classify_read codec (codec.read_toVec portable)

/-- A written event denotes what its envelope denotes. -/
theorem interpret_toVec (codec : Json.Codec) {v : Json} (portable : v.Portable)
    (decoded : EventEnvelope.decode v = some e) :
    interpret codec (codec.toVec v) = interpretEvent codec e := by
  rw [interpret, SSETransformer.classify_toVec codec portable, decoded]

/-- The chunks that a transformer emits carry its protocol's name. -/
def ChatCompletionChunk.IsChunk (c : ChatCompletionChunk) : Prop :=
  c.object = "chat.completion.chunk"

namespace SSETransformer

theorem emitDelta_frames (t : SSETransformer) (seq : Option UInt64) (delta : ChunkDelta) :
    (t.emitDelta seq delta).2 = .ok (.emitted ((t.sendRole seq).2 ++
      [(t.sendRole seq).1.makeChunk seq delta none none])) := rfl

theorem emitDelta_isChunk (t : SSETransformer) (seq : Option UInt64) (delta : ChunkDelta)
    (emitted : (t.emitDelta seq delta).2 = .ok (.emitted frames)) :
    ∀ c ∈ frames, c.IsChunk := by
  rw [emitDelta_frames] at emitted
  cases emitted
  intro c member
  rcases List.mem_append.mp member with role | body
  · unfold sendRole at role
    split at role
    · cases role
    · rw [List.mem_singleton.mp role]
      rfl
  · rw [List.mem_singleton.mp body]
    rfl

end SSETransformer

theorem Action.apply_isChunk (t : SSETransformer) (a : Action)
    (emitted : (a.apply t).2 = .ok (.emitted frames)) : ∀ c ∈ frames, c.IsChunk := by
  cases a with
  | ignore | stop | reject | note => cases emitted
  | reset id =>
    simp only [apply] at emitted
    split at emitted <;> cases emitted
  | text seq delta => exact t.emitDelta_isChunk _ _ emitted
  | reasoning seq part => exact t.emitDelta_isChunk _ _ emitted
  | announce seq itemId callId name => exact SSETransformer.emitDelta_isChunk _ _ _ emitted
  | arguments seq itemId delta =>
    simp only [apply] at emitted
    split at emitted
    · cases emitted
    · exact t.emitDelta_isChunk _ _ emitted
  | finish seq usage =>
    cases emitted
    intro c member
    rw [List.mem_singleton.mp member]
    rfl

/-- Every frame of a transform call is a completion chunk. -/
theorem SSETransformer.transform_isChunk (codec : Json.Codec) (t : SSETransformer)
    (data : List UInt8) (emitted : (t.transform codec data).2 = .ok (.emitted frames)) :
    ∀ f ∈ frames, ∃ c : ChatCompletionChunk, c.IsChunk ∧ f = frame codec c := by
  rw [transform_eq] at emitted
  cases result : ((interpret codec data).apply t).2 with
  | error err =>
    rw [result] at emitted
    cases emitted
  | ok r =>
    rw [result] at emitted
    cases r with
    | emitted chunks =>
      cases emitted
      intro f member
      obtain ⟨c, chunk, rfl⟩ := List.mem_map.mp member
      exact ⟨c, Action.apply_isChunk t _ result c chunk, rfl⟩
    | swallowed | done => cases emitted

end CodexProxy.Transform
