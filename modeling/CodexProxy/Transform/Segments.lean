import CodexProxy.Transform.Wire

/-! Segments of a transformer's run. A `response.created` event starts a segment, and
so does a new transformer. `Segment` is the invariant that holds inside one, between
the state, the items announced so far and the frames emitted so far. -/
namespace CodexProxy.Transform
open SSETransformer

namespace ChatCompletionChunk

def HasRole (c : ChatCompletionChunk) : Prop := ∃ choice ∈ c.choices, choice.delta.role.isSome

/-- Content, reasoning or a tool call. -/
def HasBody (c : ChatCompletionChunk) : Prop :=
  ∃ choice ∈ c.choices, choice.delta.content.isSome ∨ choice.delta.reasoningContent.isSome ∨
    choice.delta.toolCalls.isSome

def Finishes (c : ChatCompletionChunk) (reason : String) : Prop :=
  ∃ choice ∈ c.choices, choice.finishReason = some reason

def toolCalls (c : ChatCompletionChunk) : List ToolCallDelta :=
  c.choices.flatMap (·.delta.toolCalls.getD [])

/-- A start frame gives the id and the name of the call at an index. -/
def Starts (c : ChatCompletionChunk) (index : Usize) : Prop :=
  ∃ call ∈ c.toolCalls, call.index = index ∧ call.id.isSome ∧
    (call.function.bind (·.name)).isSome

/-- An arguments frame continues the call at an index. -/
def Continues (c : ChatCompletionChunk) (index : Usize) : Prop :=
  ∃ call ∈ c.toolCalls, call.index = index ∧ call.id = none

end ChatCompletionChunk

/-- No role and no body. -/
def Silent (frames : List ChatCompletionChunk) : Prop := ∀ c ∈ frames, ¬ c.HasRole ∧ ¬ c.HasBody

/-- One role frame, immediately before the first frame with a body. -/
def RoleOnce (frames : List ChatCompletionChunk) : Prop :=
  ∃ before role first after, frames = before ++ role :: first :: after ∧ Silent before ∧
    role.HasRole ∧ ¬ role.HasBody ∧ first.HasBody ∧ ∀ c ∈ first :: after, ¬ c.HasRole

/-- At most one role frame, and none without a body after it. -/
def RoleFirst (frames : List ChatCompletionChunk) : Prop := Silent frames ∨ RoleOnce frames

/-- The flag tells the two cases apart. -/
def RoleShape (sent : Bool) (frames : List ChatCompletionChunk) : Prop :=
  if sent then RoleOnce frames else Silent frames

theorem RoleShape.roleFirst (shape : RoleShape sent frames) : RoleFirst frames := by
  cases sent with
  | false => exact .inl shape
  | true => exact .inr shape

/-- Frames without a role may follow once the role was sent. -/
theorem RoleShape.after (shape : RoleShape true frames) {c : ChatCompletionChunk}
    (plain : ¬ c.HasRole) : RoleShape true (frames ++ [c]) := by
  obtain ⟨before, role, first, after, rfl, silent, hasRole, noBody, body, later⟩ := shape
  refine ⟨before, role, first, after ++ [c], by simp, silent, hasRole, noBody, body, ?_⟩
  intro d member
  rw [← List.cons_append, List.mem_append, List.mem_singleton] at member
  rcases member with earlier | rfl
  · exact later d earlier
  · exact plain

/-- The role frame and the first body frame. -/
theorem RoleShape.first (shape : RoleShape false frames) {role body : ChatCompletionChunk}
    (hasRole : role.HasRole) (noBody : ¬ role.HasBody) (hasBody : body.HasBody)
    (plain : ¬ body.HasRole) : RoleShape true (frames ++ [role, body]) := by
  refine ⟨frames, role, body, [], rfl, shape, hasRole, noBody, hasBody, ?_⟩
  intro d member
  rw [List.mem_singleton.mp member]
  exact plain

/-- A frame with neither changes nothing. -/
theorem RoleShape.silent (shape : RoleShape sent frames) {c : ChatCompletionChunk}
    (plain : ¬ c.HasRole) (empty : ¬ c.HasBody) : RoleShape sent (frames ++ [c]) := by
  cases sent with
  | true => exact shape.after plain
  | false =>
    intro d member
    rcases List.mem_append.mp member with earlier | last
    · exact shape d earlier
    · rw [List.mem_singleton.mp last]
      exact ⟨plain, empty⟩

namespace SSETransformer

@[simp] theorem makeChunk_hasRole (t : SSETransformer) (seq : Option UInt64) (delta : ChunkDelta)
    (finish : Option String) (usage : Option Usage) :
    (t.makeChunk seq delta finish usage).HasRole ↔ delta.role.isSome := by
  simp [ChatCompletionChunk.HasRole, makeChunk]

@[simp] theorem makeChunk_hasBody (t : SSETransformer) (seq : Option UInt64) (delta : ChunkDelta)
    (finish : Option String) (usage : Option Usage) :
    (t.makeChunk seq delta finish usage).HasBody ↔
      delta.content.isSome ∨ delta.reasoningContent.isSome ∨ delta.toolCalls.isSome := by
  simp [ChatCompletionChunk.HasBody, makeChunk]

@[simp] theorem makeChunk_finishes (t : SSETransformer) (seq : Option UInt64) (delta : ChunkDelta)
    (finish : Option String) (usage : Option Usage) (reason : String) :
    (t.makeChunk seq delta finish usage).Finishes reason ↔ finish = some reason := by
  simp [ChatCompletionChunk.Finishes, makeChunk]

@[simp] theorem makeChunk_toolCalls (t : SSETransformer) (seq : Option UInt64) (delta : ChunkDelta)
    (finish : Option String) (usage : Option Usage) :
    (t.makeChunk seq delta finish usage).toolCalls = delta.toolCalls.getD [] := by
  simp [ChatCompletionChunk.toolCalls, makeChunk]

/-- The frames of a body delta. -/
def bodyFrames (t : SSETransformer) (seq : Option UInt64) (delta : ChunkDelta) :
    List ChatCompletionChunk :=
  (t.sendRole seq).2 ++ [(t.sendRole seq).1.makeChunk seq delta none none]

theorem emitDelta_eq (t : SSETransformer) (seq : Option UInt64) (delta : ChunkDelta) :
    t.emitDelta seq delta =
      ({ t with roleSent := true }, .ok (.emitted (t.bodyFrames seq delta))) := by
  by_cases sent : t.roleSent
  · have same : { t with roleSent := true } = t := by rw [← sent]
    have unchanged : t.sendRole seq = (t, []) := by rw [sendRole, if_pos sent]
    simp only [emitDelta, bodyFrames, unchanged, same]
  · have role : t.sendRole seq = ({ t with roleSent := true },
        [t.makeChunk seq { role := some "assistant" } none none]) := by
      rw [sendRole, if_neg sent]
    simp only [emitDelta, bodyFrames, role]

/-- The frames of a body delta are the role frame, if it is due, and one more. -/
theorem mem_bodyFrames {t : SSETransformer} {seq : Option UInt64} {delta : ChunkDelta}
    (member : c ∈ t.bodyFrames seq delta) :
    (∃ u : SSETransformer, c = u.makeChunk seq { role := some "assistant" } none none) ∨
      ∃ u : SSETransformer, c = u.makeChunk seq delta none none := by
  rcases List.mem_append.mp member with role | body
  · unfold sendRole at role
    split at role
    · cases role
    · exact .inl ⟨_, List.mem_singleton.mp role⟩
  · exact .inr ⟨_, List.mem_singleton.mp body⟩

theorem body_mem_bodyFrames (t : SSETransformer) (seq : Option UInt64) (delta : ChunkDelta) :
    ∃ u : SSETransformer, u.makeChunk seq delta none none ∈ t.bodyFrames seq delta :=
  ⟨_, List.mem_append_right _ List.mem_cons_self⟩

theorem bodyFrames_shape {t : SSETransformer} (shape : RoleShape t.roleSent frames)
    (seq : Option UInt64) {delta : ChunkDelta} (plain : delta.role = none)
    (body : delta.content.isSome ∨ delta.reasoningContent.isSome ∨ delta.toolCalls.isSome) :
    RoleShape true (frames ++ t.bodyFrames seq delta) := by
  unfold bodyFrames sendRole
  split
  · rename_i sent
    rw [sent] at shape
    exact shape.after (by simp [plain])
  · rename_i unsent
    rw [Bool.eq_false_iff.mpr unsent] at shape
    exact shape.first (by simp) (by simp) (by simpa using body) (by simp [plain])

end SSETransformer

/-- The item that an action announces. -/
def Action.announces : Action → Option String
  | .announce _ itemId _ _ => some itemId
  | _ => none

/-- Items in the order of their first announcement. -/
def note (ids : List String) : Option String → List String
  | some item => if item ∈ ids then ids else ids ++ [item]
  | none => ids

theorem note_distinct {ids : List String} (distinct : ids.Nodup) (item : Option String) :
    (note ids item).Nodup := by
  unfold note
  split
  · split
    · exact distinct
    · rename_i new
      exact List.nodup_append.mpr ⟨distinct, by simp, by
        intro a old b last
        rw [List.mem_singleton.mp last]
        rintro rfl
        exact new old⟩
  · exact distinct

theorem note_kept {ids : List String} {i : Nat} (known : ids[i]? = some itemId)
    (item : Option String) : (note ids item)[i]? = some itemId := by
  obtain ⟨bound, _⟩ := List.getElem?_eq_some_iff.mp known
  unfold note
  split
  · split
    · exact known
    · rw [List.getElem?_append_left bound]
      exact known
  · exact known

theorem mem_note {ids : List String} {item : Option String} :
    itemId ∈ note ids item ↔ itemId ∈ ids ∨ item = some itemId := by
  unfold note
  split
  · split
    · rename_i known
      simp only [Option.some.injEq]
      exact ⟨.inl, fun either => either.elim (·) fun same => same ▸ known⟩
    · simp [eq_comm]
  · simp

/-- What the transformer's state says about a segment, given the items announced in
it and the frames emitted in it. -/
structure Segment (t : SSETransformer) (ids : List String) (frames : List ChatCompletionChunk) :
    Prop where
  distinct : ids.Nodup
  next : t.nextToolIndex = ids.length
  indices : ∀ id i, t.toolIndexByItemId.lookup id = some i ↔ ids[i]? = some id
  callIds : ∀ id, id ∈ t.toolIdByItemId ↔ id ∈ ids
  names : ∀ id, id ∈ t.toolNameByItemId ↔ id ∈ ids
  roles : RoleShape t.roleSent frames
  saw : t.sawToolCalls = true ↔ ∃ c ∈ frames, ∃ index, c.Starts index
  opened : t.sawToolCalls = true ↔ ids ≠ []
  started : ∀ (i : Nat) (id : String), ids[i]? = some id → ∃ c ∈ frames, c.Starts (usize i)

/-- The segment of a state that was just reset, or is new. -/
structure Fresh (t : SSETransformer) : Prop where
  roleSent : t.roleSent = false
  indices : t.toolIndexByItemId = ∅
  callIds : t.toolIdByItemId = ∅
  names : t.toolNameByItemId = ∅
  next : t.nextToolIndex = 0
  saw : t.sawToolCalls = false

theorem Fresh.new (model : String) : Fresh (SSETransformer.new model) :=
  ⟨rfl, rfl, rfl, rfl, rfl, rfl⟩

theorem Fresh.reset (t : SSETransformer) (id : String) : Fresh ((Action.reset id).apply t).1 := by
  unfold Action.apply
  dsimp only
  split <;> exact ⟨rfl, rfl, rfl, rfl, rfl, rfl⟩

theorem Fresh.segment {t : SSETransformer} (fresh : Fresh t) : Segment t [] [] where
  distinct := List.nodup_nil
  next := fresh.next
  indices id i := by simp [fresh.indices]
  callIds id := by simp [fresh.callIds]
  names id := by simp [fresh.names]
  roles := by
    rw [fresh.roleSent]
    intro c member
    cases member
  saw := by simp [fresh.saw]
  opened := by simp [fresh.saw]
  started i id known := by simp at known

namespace Segment

/-- Frames without a start frame leave the tool calls of a segment as they are. -/
theorem extend {t t' : SSETransformer} (segment : Segment t ids frames)
    (next : t'.nextToolIndex = t.nextToolIndex)
    (indices : t'.toolIndexByItemId = t.toolIndexByItemId)
    (callIds : t'.toolIdByItemId = t.toolIdByItemId)
    (names : t'.toolNameByItemId = t.toolNameByItemId)
    (saw : t'.sawToolCalls = t.sawToolCalls)
    (none : ∀ c ∈ more, ∀ index, ¬ c.Starts index)
    (roles : RoleShape t'.roleSent (frames ++ more)) : Segment t' ids (frames ++ more) where
  distinct := segment.distinct
  next := next.trans segment.next
  indices := by
    rw [indices]
    exact segment.indices
  callIds := by
    rw [callIds]
    exact segment.callIds
  names := by
    rw [names]
    exact segment.names
  roles := roles
  saw := by
    rw [saw, segment.saw]
    constructor
    · rintro ⟨c, member, index, starts⟩
      exact ⟨c, List.mem_append_left _ member, index, starts⟩
    · rintro ⟨c, member, index, starts⟩
      rcases List.mem_append.mp member with old | new
      · exact ⟨c, old, index, starts⟩
      · exact absurd starts (none c new index)
  opened := by
    rw [saw]
    exact segment.opened
  started i id known := by
    obtain ⟨c, member, starts⟩ := segment.started i id known
    exact ⟨c, List.mem_append_left _ member, starts⟩

/-- A body frame without tool calls, or with arguments only. -/
theorem emit {t : SSETransformer} (segment : Segment t ids frames) (seq : Option UInt64)
    {delta : ChunkDelta} (plain : delta.role = none)
    (body : delta.content.isSome ∨ delta.reasoningContent.isSome ∨ delta.toolCalls.isSome)
    (continues : ∀ call ∈ delta.toolCalls.getD [], call.id = none) :
    Segment { t with roleSent := true } ids (frames ++ t.bodyFrames seq delta) := by
  refine segment.extend rfl rfl rfl rfl rfl ?_ (bodyFrames_shape segment.roles seq plain body)
  rintro c member index ⟨call, called, _, hasId, _⟩
  rcases mem_bodyFrames member with ⟨u, rfl⟩ | ⟨u, rfl⟩
  · simp at called
  · rw [makeChunk_toolCalls] at called
    rw [continues call called] at hasId
    cases hasId

theorem startDelta_starts (u : SSETransformer) (seq : Option UInt64) (index : Nat)
    (callId name : String) :
    (u.makeChunk seq (startDelta index callId name) none none).Starts (usize index) := by
  simp [ChatCompletionChunk.Starts, startDelta]

/-- An announcement gives a known item its old index and a new item the next one. -/
theorem announce_index {t : SSETransformer} (segment : Segment t ids frames)
    (itemId callId name : String) :
    (note ids (some itemId))[(t.announce itemId callId name).2]? = some itemId ∧
    (t.announce itemId callId name).1.nextToolIndex = (note ids (some itemId)).length ∧
    ∀ id i, (t.announce itemId callId name).1.toolIndexByItemId.lookup id = some i ↔
      (note ids (some itemId))[i]? = some id := by
  unfold announce
  cases found : t.toolIndexByItemId.lookup itemId with
  | some i =>
    have known := (segment.indices itemId i).mp found
    have member : itemId ∈ ids := List.mem_of_getElem? known
    simp only [note, if_pos member]
    exact ⟨known, segment.next, segment.indices⟩
  | none =>
    have new : itemId ∉ ids := by
      intro member
      obtain ⟨i, known⟩ := List.getElem?_of_mem member
      rw [(segment.indices itemId i).mpr known] at found
      cases found
    simp only [note, if_neg new, segment.next]
    refine ⟨by simp, by simp, ?_⟩
    intro id i
    by_cases same : id = itemId
    · subst same
      rw [AList.lookup_insert, List.getElem?_append]
      split
      · rename_i bound
        constructor
        · intro equal
          cases equal
          omega
        · intro known
          exact absurd (List.mem_of_getElem? known) new
      · rename_i beyond
        simp only [Option.some.injEq, List.getElem?_singleton]
        split <;> simp <;> omega
    · rw [AList.lookup_insert_ne same, segment.indices, List.getElem?_append]
      split
      · rfl
      · rename_i beyond
        rw [List.getElem?_eq_none (by omega)]
        simp only [List.getElem?_singleton]
        split
        · simp [Ne.symm same]
        · simp

theorem announce_maps (t : SSETransformer) (itemId callId name : String) :
    (t.announce itemId callId name).1.toolIdByItemId = t.toolIdByItemId.insert itemId callId ∧
    (t.announce itemId callId name).1.toolNameByItemId = t.toolNameByItemId.insert itemId name ∧
    (t.announce itemId callId name).1.sawToolCalls = true ∧
    (t.announce itemId callId name).1.roleSent = t.roleSent := ⟨rfl, rfl, rfl, rfl⟩

/-- The start frame of an announcement. -/
theorem announce {t : SSETransformer} (segment : Segment t ids frames) (seq : Option UInt64)
    (itemId callId name : String) :
    Segment { (t.announce itemId callId name).1 with roleSent := true } (note ids (some itemId))
      (frames ++ (t.announce itemId callId name).1.bodyFrames seq
        (startDelta (t.announce itemId callId name).2 callId name)) := by
  obtain ⟨index, next, indices⟩ := segment.announce_index itemId callId name
  obtain ⟨callIds, names, saw, roleSent⟩ := announce_maps t itemId callId name
  obtain ⟨u, start⟩ := body_mem_bodyFrames (t.announce itemId callId name).1 seq
    (startDelta (t.announce itemId callId name).2 callId name)
  have starts := startDelta_starts u seq (t.announce itemId callId name).2 callId name
  refine ⟨note_distinct segment.distinct _, next, indices, ?_, ?_, ?_, ?_, ?_, ?_⟩
  · intro item
    simp only [callIds, AList.mem_insert, segment.callIds, mem_note, Option.some.injEq]
    exact ⟨fun either => either.symm.imp (·) Eq.symm, fun either => either.symm.imp Eq.symm (·)⟩
  · intro item
    simp only [names, AList.mem_insert, segment.names, mem_note, Option.some.injEq]
    exact ⟨fun either => either.symm.imp (·) Eq.symm, fun either => either.symm.imp Eq.symm (·)⟩
  · apply bodyFrames_shape
    · rw [roleSent]
      exact segment.roles
    · rfl
    · exact .inr (.inr rfl)
  · refine iff_of_true saw ⟨_, List.mem_append_right _ start, _, starts⟩
  · exact iff_of_true saw (List.ne_nil_of_mem (List.mem_of_getElem? index))
  · intro i item known
    by_cases new : item = itemId
    · subst new
      have same : i = (t.announce item callId name).2 := by
        have distinct := note_distinct segment.distinct (some item)
        have bound := (List.getElem?_eq_some_iff.mp known).1
        exact (List.getElem?_inj bound distinct).mp (known.trans index.symm)
      rw [same]
      exact ⟨_, List.mem_append_right _ start, starts⟩
    · have old : ids[i]? = some item := by
        unfold note at known
        dsimp only at known
        split at known
        · exact known
        · rw [List.getElem?_append] at known
          split at known
          · exact known
          · rw [List.getElem?_singleton] at known
            split at known
            · exact absurd (Option.some.inj known).symm new
            · cases known
      obtain ⟨c, member, starts⟩ := segment.started i item old
      exact ⟨c, List.mem_append_left _ member, starts⟩

end Segment

/-- The frames of a handler's result; an error has none. -/
def Handled.frames (handled : Handled F) : List F :=
  match handled.2 with
  | .ok result => result.frames
  | .error _ => []

/-- An action that starts a new segment. -/
def Action.resets : Action → Bool
  | .reset _ => true
  | _ => false

/-- One action inside a segment. -/
theorem Segment.step {t : SSETransformer} (segment : Segment t ids frames) {a : Action}
    (inside : a.resets = false) :
    Segment (a.apply t).1 (note ids a.announces) (frames ++ (a.apply t).frames) := by
  have silent : Segment t ids (frames ++ []) := by rwa [List.append_nil]
  cases a with
  | ignore | stop | reject => exact silent
  | note e =>
    simp only [Action.apply, noteReasoningItem]
    split
    · exact silent
    · exact segment.extend rfl rfl rfl rfl rfl (fun _ member => by cases member) silent.roles
  | reset id => cases inside
  | text seq delta =>
    simp only [Action.apply, emitDelta_eq]
    exact segment.emit seq rfl (.inl rfl) (by simp)
  | reasoning seq part =>
    simp only [Action.apply, emitDelta_eq]
    exact segment.emit seq rfl (.inr (.inl rfl)) (by simp)
  | announce seq itemId callId name =>
    simp only [Action.apply, emitDelta_eq]
    exact segment.announce seq itemId callId name
  | arguments seq itemId delta =>
    simp only [Action.apply]
    split
    · exact silent
    · rw [emitDelta_eq]
      exact segment.emit seq rfl (.inr (.inr rfl)) (by simp [argumentsDelta])
  | finish seq usage =>
    refine segment.extend rfl rfl rfl rfl rfl ?_ (segment.roles.silent (by simp) (by simp))
    rintro c member index ⟨call, called, _⟩
    rw [List.mem_singleton.mp member] at called
    simp at called

end CodexProxy.Transform
