import CodexProxy.Transform.Segments
import CodexProxy.Library.ReferenceCodec

/-! Whole runs of a transformer. Between two resets the invariant of `Segment` holds
after every call, and each emitted frame is explained by the call that emitted it
and by what the segment emitted before. -/
namespace CodexProxy.Transform
open SSETransformer

variable (codec : Json.Codec)

/-- The state after a sequence of transform calls. -/
def SSETransformer.after (t : SSETransformer) (calls : List (List UInt8)) : SSETransformer :=
  calls.foldl (fun t data => (t.transformChunks codec data).1) t

/-- The frames that one call emits; an error emits none. -/
def SSETransformer.framesOf (t : SSETransformer) (data : List UInt8) : List ChatCompletionChunk :=
  (t.transformChunks codec data).frames

/-- The frames that a sequence of transform calls emits. -/
def SSETransformer.emitted (t : SSETransformer) : List (List UInt8) → List ChatCompletionChunk
  | [] => []
  | data :: calls => t.framesOf codec data ++ (t.transformChunks codec data).1.emitted calls

/-- The items announced by a sequence of payloads, in order of first announcement. -/
def announced (calls : List (List UInt8)) : List String :=
  calls.foldl (fun ids data => note ids (interpret codec data).announces) []

/-- An accepted `response.created` event. -/
def isCreated (data : List UInt8) : Bool :=
  match classify codec data with
  | .event e => e.eventType = "response.created"
  | _ => false

theorem after_append (t : SSETransformer) (calls more : List (List UInt8)) :
    t.after codec (calls ++ more) = (t.after codec calls).after codec more :=
  List.foldl_append

theorem emitted_append (t : SSETransformer) (calls more : List (List UInt8)) :
    t.emitted codec (calls ++ more) =
      t.emitted codec calls ++ (t.after codec calls).emitted codec more := by
  induction calls generalizing t with
  | nil => rfl
  | cons data calls ih =>
    simp only [List.cons_append, emitted, ih, List.append_assoc]
    rfl

theorem announced_append (calls more : List (List UInt8)) :
    announced codec (calls ++ more) =
      more.foldl (fun ids data => note ids (interpret codec data).announces)
        (announced codec calls) :=
  List.foldl_append

/-- A frame of a run is a frame of one of its calls. -/
theorem mem_emitted {t : SSETransformer} {calls : List (List UInt8)} :
    c ∈ t.emitted codec calls ↔ ∃ front data rest, calls = front ++ data :: rest ∧
      c ∈ (t.after codec front).framesOf codec data := by
  induction calls generalizing t with
  | nil => simp [emitted]
  | cons data calls ih =>
    rw [emitted, List.mem_append, ih]
    constructor
    · rintro (here | ⟨front, d, rest, rfl, later⟩)
      · exact ⟨[], data, calls, rfl, here⟩
      · exact ⟨data :: front, d, rest, rfl, later⟩
    · rintro ⟨front, d, rest, split, member⟩
      cases front with
      | nil =>
        cases split
        exact .inl member
      | cons first front =>
        cases split
        exact .inr ⟨front, d, rest, rfl, member⟩

theorem interpretReasoning_resets (e : EventEnvelope) :
    (interpretReasoning e).resets = false := by
  unfold interpretReasoning
  split
  · rfl
  split
  · rfl
  split <;> rfl

theorem interpretTextDelta_resets (e : EventEnvelope) :
    (interpretTextDelta codec e).resets = false := by
  unfold interpretTextDelta
  split <;> rfl

theorem interpretCompleted_resets (e : EventEnvelope) :
    (interpretCompleted codec e).resets = false := by
  unfold interpretCompleted
  split <;> rfl

theorem interpretOutputItemAdded_resets (e : EventEnvelope) :
    (interpretOutputItemAdded codec e).resets = false := by
  unfold interpretOutputItemAdded
  split
  · rfl
  · rfl
  split
  · rfl
  split <;> rfl

theorem interpretFunctionCallArgsDelta_resets (e : EventEnvelope) :
    (interpretFunctionCallArgsDelta codec e).resets = false := by
  unfold interpretFunctionCallArgsDelta
  split <;> rfl

theorem interpretEvent_resets (e : EventEnvelope) :
    (interpretEvent codec e).resets = decide (e.eventType = "response.created") := by
  unfold interpretEvent
  split
  · rename_i reasoning
    have other : e.eventType ≠ "response.created" := by
      intro created
      rw [created] at reasoning
      exact absurd reasoning (by decide)
    rw [interpretReasoning_resets, decide_eq_false other]
  · split <;> rename_i type
    · rw [decide_eq_true type]
      unfold interpretCreated
      split <;> rfl
    · rw [interpretTextDelta_resets, type]
      decide
    · rw [interpretCompleted_resets, type]
      decide
    · rw [interpretOutputItemAdded_resets, type]
      decide
    · rw [interpretFunctionCallArgsDelta_resets, type]
      decide
    · rw [type]
      rfl
    · rename_i other _ _ _ _
      exact (decide_eq_false other).symm

/-- Exactly the accepted `response.created` events start a new segment. -/
theorem interpret_resets (data : List UInt8) :
    (interpret codec data).resets = isCreated codec data := by
  unfold interpret isCreated
  cases classify codec data with
  | blank | done | undecodable => rfl
  | event e => exact interpretEvent_resets codec e

theorem fresh_created {data : List UInt8} (created : isCreated codec data = true)
    (t : SSETransformer) : Fresh (t.transformChunks codec data).1 := by
  rw [transformChunks_eq]
  rw [← interpret_resets] at created
  cases denotes : interpret codec data with
  | reset id => exact Fresh.reset t id
  | _ => simp [denotes, Action.resets] at created

/-- A new transformer, or one that has just seen a `response.created` event. -/
theorem fresh_after {model : String} {before : List (List UInt8)}
    (delimited : before = [] ∨
      ∃ front created, before = front ++ [created] ∧ isCreated codec created = true) :
    Fresh ((SSETransformer.new model).after codec before) := by
  rcases delimited with rfl | ⟨front, created, rfl, isCreated⟩
  · exact Fresh.new model
  · rw [after_append]
    exact fresh_created codec isCreated _

theorem Segment.call {t : SSETransformer} (segment : Segment t ids frames) {data : List UInt8}
    (inside : isCreated codec data = false) :
    Segment (t.transformChunks codec data).1 (note ids (interpret codec data).announces)
      (frames ++ t.framesOf codec data) := by
  rw [framesOf, transformChunks_eq]
  exact segment.step (by rw [interpret_resets, inside])

/-- By induction on the calls of a segment. -/
theorem Segment.run {t : SSETransformer} (segment : Segment t ids frames)
    {calls : List (List UInt8)} (inside : ∀ data ∈ calls, isCreated codec data = false) :
    Segment (t.after codec calls)
      (calls.foldl (fun ids data => note ids (interpret codec data).announces) ids)
      (frames ++ t.emitted codec calls) := by
  induction calls generalizing t ids frames with
  | nil => simpa only [after, emitted, List.foldl_nil, List.append_nil] using segment
  | cons data calls ih =>
    have called := segment.call codec (inside data List.mem_cons_self)
    have later := ih called fun d member => inside d (List.mem_cons_of_mem _ member)
    rw [List.append_assoc] at later
    exact later

/-- The segment that begins with a fresh state. -/
theorem Fresh.run {t : SSETransformer} (fresh : Fresh t) {calls : List (List UInt8)}
    (inside : ∀ data ∈ calls, isCreated codec data = false) :
    Segment (t.after codec calls) (announced codec calls) (t.emitted codec calls) :=
  fresh.segment.run codec inside

/-- The items announced since the last `response.created` event. -/
def openItems (calls : List (List UInt8)) : List String :=
  calls.foldl (fun ids data =>
    if isCreated codec data then [] else note ids (interpret codec data).announces) []

/-- At every point of a run the current segment's items are the open ones. -/
theorem openItems_segment (model : String) (calls : List (List UInt8)) :
    ∃ frames, Segment ((SSETransformer.new model).after codec calls) (openItems codec calls)
      frames := by
  induction calls using List.reverseRecOn with
  | nil => exact ⟨[], (Fresh.new model).segment⟩
  | append_singleton calls data ih =>
    obtain ⟨frames, segment⟩ := ih
    have items : openItems codec (calls ++ [data]) =
        if isCreated codec data then []
        else note (openItems codec calls) (interpret codec data).announces := by
      simp [openItems, List.foldl_append]
    rw [after_append, items]
    split
    · rename_i created
      exact ⟨[], (fresh_created codec created _).segment⟩
    · rename_i inside
      exact ⟨_, segment.call codec (by simpa using inside)⟩

theorem lookup_openItems (model : String) (calls : List (List UInt8)) (itemId : String) :
    (((SSETransformer.new model).after codec calls).toolIndexByItemId.lookup itemId).isSome ↔
      itemId ∈ openItems codec calls := by
  obtain ⟨frames, segment⟩ := openItems_segment codec model calls
  rw [Option.isSome_iff_exists, List.mem_iff_getElem?]
  exact exists_congr fun i => segment.indices itemId i

theorem saw_openItems (model : String) (calls : List (List UInt8)) :
    ((SSETransformer.new model).after codec calls).sawToolCalls = true ↔
      openItems codec calls ≠ [] := by
  obtain ⟨frames, segment⟩ := openItems_segment codec model calls
  exact segment.opened

/-- The sequence number that an action's frames carry as their creation time. -/
def Action.sequence : Action → Option (Option UInt64)
  | .text seq _ => some seq
  | .reasoning seq _ => some seq
  | .announce seq _ _ _ => some seq
  | .arguments seq _ _ => some seq
  | .finish seq _ => some seq
  | .ignore | .stop | .reject _ | .note _ | .reset _ => none

/-- The frames that an action can emit in a state. -/
inductive Emits (t : SSETransformer) : Action → ChatCompletionChunk → Prop where
  | role (u : SSETransformer) (seq : Option UInt64) (a : Action) (same : a.sequence = some seq) :
      Emits t a (u.makeChunk seq { role := some "assistant" } none none)
  | text (u : SSETransformer) (seq : Option UInt64) (delta : String) :
      Emits t (.text seq delta) (u.makeChunk seq { content := some delta } none none)
  | reasoning (u : SSETransformer) (seq : Option UInt64) (part : String) :
      Emits t (.reasoning seq part) (u.makeChunk seq { reasoningContent := some part } none none)
  | start (u : SSETransformer) (seq : Option UInt64) (itemId callId name : String) :
      Emits t (.announce seq itemId callId name)
        (u.makeChunk seq (startDelta (t.announce itemId callId name).2 callId name) none none)
  | arguments (u : SSETransformer) (seq : Option UInt64) (itemId delta : String) (i : Nat)
      (found : t.toolIndexByItemId.lookup itemId = some i) :
      Emits t (.arguments seq itemId delta) (u.makeChunk seq (argumentsDelta i delta) none none)
  | finish (seq : Option UInt64) (usage : Usage) :
      Emits t (.finish seq usage) (t.makeChunk seq {}
        (some (if t.sawToolCalls then "tool_calls" else "stop")) (some usage))

/-- A body delta emits the role frame or its own. -/
theorem emits_body {t u : SSETransformer} {a : Action} {seq : Option UInt64} {delta : ChunkDelta}
    (member : c ∈ u.bodyFrames seq delta) (same : a.sequence = some seq)
    (own : ∀ v : SSETransformer, Emits t a (v.makeChunk seq delta none none)) : Emits t a c := by
  rcases mem_bodyFrames member with ⟨v, rfl⟩ | ⟨v, rfl⟩
  · exact .role v seq a same
  · exact own v

theorem Action.apply_emits {t : SSETransformer} {a : Action} (member : c ∈ (a.apply t).frames) :
    Emits t a c := by
  cases a with
  | ignore | stop | reject | note => cases member
  | reset id =>
    simp only [apply] at member
    split at member <;> cases member
  | text seq delta =>
    simp only [apply, emitDelta_eq] at member
    exact emits_body member rfl fun v => .text v seq delta
  | reasoning seq part =>
    simp only [apply, emitDelta_eq] at member
    exact emits_body member rfl fun v => .reasoning v seq part
  | announce seq itemId callId name =>
    simp only [apply, emitDelta_eq] at member
    exact emits_body member rfl fun v => .start v seq itemId callId name
  | arguments seq itemId delta =>
    simp only [apply] at member
    split at member
    · cases member
    · rename_i i found
      rw [emitDelta_eq] at member
      exact emits_body member rfl fun v => .arguments v seq itemId delta i found
  | finish seq usage =>
    rw [List.mem_singleton.mp member]
    exact .finish seq usage

/-- The creation time of a frame is the sequence number of its action. -/
theorem Emits.created {t : SSETransformer} (emits : Emits t a c) : a.sequence = some c.created := by
  cases emits with
  | role u seq a same => exact same
  | text | reasoning | start | arguments | finish => rfl

/-- A frame with arguments comes from an arguments event for an announced item. -/
theorem Segment.continues {t : SSETransformer} (segment : Segment t ids frames) {a : Action}
    (member : c ∈ (a.apply t).frames) (continues : c.Continues index) :
    ∃ (seq : Option UInt64) (itemId delta : String) (i : Nat), a = .arguments seq itemId delta ∧
      ids[i]? = some itemId ∧ index = usize i ∧ ∃ s ∈ frames, s.Starts index := by
  obtain ⟨call, called, same, none⟩ := continues
  cases Action.apply_emits member with
  | role | text | reasoning | finish => simp at called
  | start u seq itemId callId name =>
    simp only [makeChunk_toolCalls, startDelta, Option.getD_some, List.mem_singleton] at called
    rw [called] at none
    cases none
  | arguments u seq itemId delta i found =>
    have known := (segment.indices itemId i).mp found
    simp only [makeChunk_toolCalls, argumentsDelta, Option.getD_some, List.mem_singleton] at called
    rw [called] at same
    exact ⟨seq, itemId, delta, i, rfl, known, same.symm, same ▸ segment.started i itemId known⟩

/-- A start frame comes from an announcement and has the item's index. -/
theorem Segment.starts {t : SSETransformer} (segment : Segment t ids frames) {a : Action}
    (member : c ∈ (a.apply t).frames) (starts : c.Starts index) :
    ∃ (seq : Option UInt64) (itemId callId name : String) (i : Nat),
      a = .announce seq itemId callId name ∧ (note ids (some itemId))[i]? = some itemId ∧
      index = usize i := by
  obtain ⟨call, called, same, hasId, _⟩ := starts
  cases Action.apply_emits member with
  | role | text | reasoning | finish => simp at called
  | start u seq itemId callId name =>
    simp only [makeChunk_toolCalls, startDelta, Option.getD_some, List.mem_singleton] at called
    rw [called] at same
    exact ⟨seq, itemId, callId, name, _, rfl, (segment.announce_index itemId callId name).1,
      same.symm⟩
  | arguments u seq itemId delta i found =>
    simp only [makeChunk_toolCalls, argumentsDelta, Option.getD_some, List.mem_singleton] at called
    rw [called] at hasId
    cases hasId

/-- Only a finish action finishes, and with the reason that the segment gives. -/
theorem Segment.finishes {t : SSETransformer} (segment : Segment t ids frames) {a : Action}
    (member : c ∈ (a.apply t).frames) (finishes : c.Finishes reason) :
    ((∃ s ∈ frames, ∃ index, s.Starts index) ∧ reason = "tool_calls") ∨
      ((¬ ∃ s ∈ frames, ∃ index, s.Starts index) ∧ reason = "stop") := by
  cases Action.apply_emits member with
  | role | text | reasoning | start | arguments => simp at finishes
  | finish seq usage =>
    rw [makeChunk_finishes, Option.some.injEq] at finishes
    rw [← segment.saw, ← finishes]
    cases t.sawToolCalls <;> simp

/-- The sequence number of an event, if it has one. -/
def sequenceNumber (data : List UInt8) : Option UInt64 :=
  match classify codec data with
  | .event e => e.sequenceNumber
  | _ => none

theorem interpretEvent_sequence (e : EventEnvelope)
    (emitting : (interpretEvent codec e).sequence = some seq) : seq = e.sequenceNumber := by
  unfold interpretEvent at emitting
  split at emitting
  · unfold interpretReasoning at emitting
    split at emitting
    · cases emitting
    split at emitting
    · cases emitting
    split at emitting <;> cases emitting
    rfl
  · split at emitting
    · unfold interpretCreated at emitting
      split at emitting <;> cases emitting
    · unfold interpretTextDelta at emitting
      split at emitting <;> cases emitting
      rfl
    · unfold interpretCompleted at emitting
      split at emitting <;> cases emitting
      rfl
    · unfold interpretOutputItemAdded at emitting
      split at emitting
      · cases emitting
      · cases emitting
      split at emitting
      · cases emitting
      split at emitting <;> cases emitting
      rfl
    · unfold interpretFunctionCallArgsDelta at emitting
      split at emitting <;> cases emitting
      rfl
    · cases emitting
    · cases emitting

/-- Every frame of a call carries the sequence number of its event. -/
theorem created_framesOf {t : SSETransformer} {data : List UInt8}
    (member : c ∈ t.framesOf codec data) : c.created = sequenceNumber codec data := by
  rw [framesOf, transformChunks_eq] at member
  have same := (Action.apply_emits member).created
  unfold interpret at same
  unfold sequenceNumber
  cases classified : classify codec data with
  | blank | done | undecodable => simp [classified, Action.sequence] at same
  | event e =>
    simp only [classified] at same
    exact interpretEvent_sequence codec e same

theorem framesOf_isChunk {t : SSETransformer} {data : List UInt8}
    (member : c ∈ t.framesOf codec data) : c.IsChunk := by
  rw [framesOf, transformChunks_eq] at member
  generalize interpret codec data = a at member
  cases Action.apply_emits member <;> rfl

theorem keys_perm {β : Type} {m : HashMap β} {ids : List String} (distinct : ids.Nodup)
    (same : ∀ id, id ∈ m ↔ id ∈ ids) : m.keys.Perm ids :=
  (List.perm_ext_iff_of_nodup m.keys_nodup distinct).mpr fun id => same id

/-- What a segment of a run looks like from outside. -/
structure SegmentRun (start : SSETransformer) (segment : List (List UInt8)) : Prop where
  roles : RoleFirst (start.emitted codec segment)
  distinct : (announced codec segment).Nodup
  indices : ∀ id i, (start.after codec segment).toolIndexByItemId.lookup id = some i ↔
    (announced codec segment)[i]? = some id
  indexKeys : (start.after codec segment).toolIndexByItemId.keys.Perm (announced codec segment)
  callIdKeys : (start.after codec segment).toolIdByItemId.keys.Perm (announced codec segment)
  nameKeys : (start.after codec segment).toolNameByItemId.keys.Perm (announced codec segment)
  next : (start.after codec segment).nextToolIndex = (announced codec segment).length
  starts : ∀ before data rest, segment = before ++ data :: rest →
    ∀ c ∈ (start.after codec before).framesOf codec data, ∀ index, c.Starts index →
      ∃ seq itemId callId name i, interpret codec data = .announce seq itemId callId name ∧
        (announced codec (before ++ [data]))[i]? = some itemId ∧ index = usize i
  arguments : ∀ before data rest, segment = before ++ data :: rest →
    ∀ c ∈ (start.after codec before).framesOf codec data, ∀ index, c.Continues index →
      ∃ seq itemId delta i, interpret codec data = .arguments seq itemId delta ∧
        (announced codec before)[i]? = some itemId ∧ index = usize i ∧
        ∃ s ∈ start.emitted codec before, s.Starts index
  finishes : ∀ before data rest, segment = before ++ data :: rest →
    ∀ c ∈ (start.after codec before).framesOf codec data, ∀ reason, c.Finishes reason →
      ((∃ s ∈ start.emitted codec before, ∃ index, s.Starts index) ∧ reason = "tool_calls") ∨
      ((¬ ∃ s ∈ start.emitted codec before, ∃ index, s.Starts index) ∧ reason = "stop")

/-- Every segment of every run of a new transformer, at every point of the segment. -/
theorem segment_spec (model : String) (before segment : List (List UInt8))
    (delimited : before = [] ∨
      ∃ front created, before = front ++ [created] ∧ isCreated codec created = true)
    (inside : ∀ data ∈ segment, isCreated codec data = false) :
    SegmentRun codec ((SSETransformer.new model).after codec before) segment := by
  have fresh : Fresh ((SSETransformer.new model).after codec before) :=
    fresh_after codec delimited
  generalize (SSETransformer.new model).after codec before = start at fresh
  have whole := fresh.run codec inside
  have upTo (front rest : List (List UInt8)) (data : List UInt8)
      (split : segment = front ++ data :: rest) :
      Segment (start.after codec front) (announced codec front) (start.emitted codec front) :=
    fresh.run codec fun d member => inside d (split ▸ List.mem_append_left _ member)
  refine ⟨whole.roles.roleFirst, whole.distinct, whole.indices, ?_,
    keys_perm whole.distinct whole.callIds, keys_perm whole.distinct whole.names, whole.next,
    ?_, ?_, ?_⟩
  · refine keys_perm whole.distinct fun id => ?_
    rw [← AList.lookup_isSome, Option.isSome_iff_exists, List.mem_iff_getElem?]
    exact exists_congr fun i => whole.indices id i
  · intro front data rest split c member index starts
    rw [framesOf, transformChunks_eq] at member
    obtain ⟨seq, itemId, callId, name, i, denotes, known, same⟩ :=
      (upTo front rest data split).starts member starts
    refine ⟨seq, itemId, callId, name, i, denotes, ?_, same⟩
    rw [announced_append, List.foldl_cons, List.foldl_nil, denotes]
    exact known
  · intro front data rest split c member index continues
    rw [framesOf, transformChunks_eq] at member
    exact (upTo front rest data split).continues member continues
  · intro front data rest split c member reason finishes
    rw [framesOf, transformChunks_eq] at member
    exact (upTo front rest data split).finishes member finishes

theorem isCreated_toVec {v : Json} (portable : v.Portable) :
    isCreated codec (codec.toVec v) =
      (EventEnvelope.decode v).any fun e => e.eventType = "response.created" := by
  rw [isCreated, classify_toVec codec portable]
  cases EventEnvelope.decode v <;> rfl

/-- A function call that is announced and then finished. -/
def callEvents : List Json :=
  [.object [("type", .string "response.output_item.added"),
      ("item", .object [("id", .string "fc_1"), ("name", .string "shell"),
        ("type", .string "function_call")])],
    .object [("type", .string "response.function_call_arguments.delta"),
      ("item_id", .string "fc_1"), ("delta", .string "[]")],
    .object [("type", .string "response.completed")]]

theorem segment_spec_call : SegmentRun JsonText.codec
    ((SSETransformer.new "gpt-5").after JsonText.codec [])
    (callEvents.map JsonText.codec.toVec) := by
  refine segment_spec JsonText.codec "gpt-5" [] _ (.inl rfl) ?_
  intro data member
  obtain ⟨v, event, rfl⟩ := List.mem_map.mp member
  simp only [callEvents, List.mem_cons, List.not_mem_nil, or_false] at event
  rcases event with rfl | rfl | rfl <;> rw [isCreated_toVec _ (by decide)] <;> rfl

end CodexProxy.Transform
