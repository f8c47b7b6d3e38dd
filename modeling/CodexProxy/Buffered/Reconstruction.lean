import CodexProxy.Transform.Output
import CodexProxy.Buffered.FinishReasons
import Mathlib.Data.List.DropRight

/-! The buffered completion, from the typed payloads of the upstream's events. Between the
transformer's table of items and the accumulator stands one invariant: the entry under an
index is the call of the item that was announced at that position. -/
namespace CodexProxy.Buffered
open Bytes EventStream Transform Relay Polling

variable (codec : Json.Codec)

/-- The announcements of an item. -/
def announcementsOf (itemId : String) (events : List Event) : List FunctionCallItem :=
  (events.filterMap (Transform.callOf codec)).filter (·.id = itemId)

/-- The call of an item: its last id and name, and the arguments after it was announced. -/
def decodedCall (events : List Event) (itemId : String) : ToolCallAccumulator where
  id := (((announcementsOf codec itemId events).getLast?).map (·.downstreamId)).getD ""
  name := (((announcementsOf codec itemId events).getLast?).map (·.name)).getD ""
  arguments := String.join (argumentsAfter codec itemId events)

/-- The events up to the last `response.completed`, or none. -/
def untilUsage (events : List Event) : List Event :=
  events.rdropWhile fun data => (usageOf codec data).isNone

/-- The completion that the payloads amount to. -/
def decodedCompletion (events : List Event) : Completion where
  content := String.join (events.filterMap (textOf codec))
  reasoningContent := String.join (events.filterMap (reasoningOf codec notPositive))
  toolCalls := (announced codec events).map (decodedCall codec events)
  finishReason := if announced codec (untilUsage codec events) = [] then "stop"
    else "tool_calls"
  usage := ((events.filterMap (usageOf codec)).getLast?).map (·.toJson.normalize)

/-- No call is announced before a `response.created` event. -/
def OneReset (events : List Event) : Prop :=
  ∀ before data after, events = before ++ data :: after → isCreated codec data = true →
    ∀ d ∈ before, Transform.callOf codec d = none

/-- All events have a sequence number within `i64`. -/
def Sequenced (events : List Event) : Prop :=
  ∀ e ∈ events, (envelopeOf codec e).isSome → FitsInt64 (sequenceNumber codec e)

variable {codec}

theorem OneReset.front {events : List Event} {data : Event}
    (one : OneReset codec (events ++ [data])) : OneReset codec events := by
  intro before d after split
  exact one before d (after ++ [data]) (by rw [split, List.append_assoc, List.cons_append])

/-- Nothing is announced when a response begins. -/
theorem OneReset.unannounced {events : List Event} {data : Event}
    (one : OneReset codec (events ++ [data])) (created : isCreated codec data = true) :
    announced codec events = [] := by
  rw [List.eq_nil_iff_forall_not_mem]
  intro itemId member
  obtain ⟨d, earlier, call⟩ := (mem_announced codec).mp member
  obtain ⟨item, announces, _⟩ := Option.map_eq_some_iff.mp call
  rw [one events data [] rfl created d earlier] at announces
  cases announces

/-- The items of the response that is under way are all that were announced. -/
theorem OneReset.openItems_eq {events : List Event} (one : OneReset codec events) :
    openItems codec events = announced codec events := by
  induction events using List.reverseRecOn with
  | nil => rfl
  | append_singleton events data ih =>
    have items : openItems codec (events ++ [data]) =
        if isCreated codec data then []
        else note (openItems codec events) (interpret codec data).announces := by
      simp [openItems, List.foldl_append]
    rw [items, announced_snoc, ih one.front, announces_eq]
    cases created : isCreated codec data with
    | true => rw [one.unannounced created, callOf_created codec created]; rfl
    | false => rfl

variable (codec)

theorem announcementsOf_snoc (itemId : String) (events : List Event) (data : Event) :
    announcementsOf codec itemId (events ++ [data]) = announcementsOf codec itemId events ++
      ((Transform.callOf codec data).filter (·.id = itemId)).toList := by
  rw [announcementsOf, announcementsOf, List.filterMap_append, List.filter_append]
  cases call : Transform.callOf codec data with
  | none => simp [call]
  | some item => by_cases own : item.id = itemId <;> simp [call, own, Option.filter_some]

theorem announced_kept {data : Event} (none' : Transform.callOf codec data = none)
    (events : List Event) : announced codec (events ++ [data]) = announced codec events := by
  rw [announced_snoc, none']
  rfl

/-- An event without an announcement only adds arguments. -/
theorem decodedCall_snoc {data : Event} (none' : Transform.callOf codec data = none)
    (events : List Event) (itemId : String) :
    decodedCall codec (events ++ [data]) itemId = { decodedCall codec events itemId with
      arguments := (decodedCall codec events itemId).arguments ++
        if itemId ∈ announced codec events then (argumentsOf codec itemId data).getD "" else "" } := by
  have same : announcementsOf codec itemId (events ++ [data]) =
      announcementsOf codec itemId events := by
    rw [announcementsOf_snoc, none']
    exact List.append_nil _
  rw [decodedCall, same, argumentsAfter_snoc, String.join_append]
  congr 2
  split
  · cases argumentsOf codec itemId data <;> simp
  · rfl

/-- An announcement replaces the id and the name of its item. -/
theorem decodedCall_announce {data : Event} {item : FunctionCallItem}
    (call : Transform.callOf codec data = some item) (events : List Event) (itemId : String) :
    decodedCall codec (events ++ [data]) itemId = if itemId = item.id then
      { decodedCall codec events itemId with id := item.downstreamId, name := item.name }
      else decodedCall codec events itemId := by
  have arguments : argumentsAfter codec itemId (events ++ [data]) =
      argumentsAfter codec itemId events := by
    rw [argumentsAfter_snoc, argumentsOf_call codec call]
    simp
  rw [decodedCall, announcementsOf_snoc, arguments, call]
  split
  · rename_i own
    simp [Option.filter_some, own, decodedCall]
  · rename_i other
    simp [Option.filter_some, Ne.symm other, decodedCall]

/-- An item that was not announced has no call. -/
theorem decodedCall_unannounced {events : List Event} {itemId : String}
    (unknown : itemId ∉ announced codec events) : decodedCall codec events itemId = {} := by
  have none' : announcementsOf codec itemId events = [] := by
    rw [announcementsOf, List.filter_eq_nil_iff]
    intro item member own
    obtain ⟨data, inside, call⟩ := List.mem_filterMap.mp member
    refine unknown ((mem_announced codec).mpr ⟨data, inside, ?_⟩)
    rw [call, Option.map_some, of_decide_eq_true own]
  rw [decodedCall, none', argumentsAfter_unannounced codec unknown]
  rfl

/-- The position of the item that is noted, and the others. -/
theorem getElem?_note {ids : List String}
    (here : (note ids (some itemId))[i]? = some itemId) (k : Nat) :
    (note ids (some itemId))[k]? = if k = i then some itemId else ids[k]? := by
  split
  · rename_i same
    rw [same, here]
  · rename_i other
    by_cases known : itemId ∈ ids
    · rw [note, if_pos known]
    · have last : i = ids.length := by
        rw [note, if_neg known, List.getElem?_append] at here
        split at here
        · exact absurd (List.mem_of_getElem? here) known
        · rename_i beyond
          rw [List.getElem?_singleton] at here
          split at here
          · omega
          · cases here
      rw [note, if_neg known, List.getElem?_append]
      split
      · rfl
      · rename_i beyond
        rw [List.getElem?_singleton, if_neg (by omega), List.getElem?_eq_none (by omega)]

/-- The tool-call deltas of a run, as they are decoded. -/
def sentCalls (model : String) (events : List Event) : List ToolCallDelta :=
  ((SSETransformer.new model).sentDeltas codec events).flatMap fun d =>
    (d.toolCalls.getD []).map .of

/-- The decoded deltas that start a call and that continue it. -/
def startCall (index : Nat) (callId name : String) : ToolCallDelta :=
  ⟨usize index, some callId, some "function", some ⟨some name, some ""⟩⟩

def argumentsCall (index : Nat) (delta : String) : ToolCallDelta :=
  ⟨usize index, none, none, some ⟨none, some delta⟩⟩

theorem absorb_startCall (acc : ToolCallAccumulator) (index : Nat) {callId name : String}
    (identified : callId ≠ "") (named : name ≠ "") :
    acc.absorb (startCall index callId name) = { acc with id := callId, name } := by
  simp [ToolCallAccumulator.absorb, startCall, lastNonEmpty, identified, named]

theorem absorb_argumentsCall (acc : ToolCallAccumulator) (index : Nat) (delta : String) :
    acc.absorb (argumentsCall index delta) = { acc with arguments := acc.arguments ++ delta } :=
  rfl

theorem downstreamId_ne {item : FunctionCallItem} : item.downstreamId ≠ "" := by
  rw [FunctionCallItem.downstreamId]
  split
  · simp
  · assumption

theorem usize_toNat {i : Nat} (small : i < 2 ^ 64) : (usize i).toNat = i := by
  rw [usize, UInt64.toNat_ofNat']
  omega

theorem eq_usize_iff {j : Usize} {i : Nat} (small : i < 2 ^ 64) : j = usize i ↔ j.toNat = i := by
  rw [← UInt64.toNat_inj, usize_toNat small]

/-- One delta updates the entry at its position. -/
theorem lookup_groupCalls_snoc (deltas : List ToolCallDelta) {tc : ToolCallDelta} {i : Nat}
    (index : tc.index = usize i) (small : i < 2 ^ 64) (j : Usize) :
    (groupCalls (deltas ++ [tc])).lookup j =
      if j.toNat = i then some ((((groupCalls deltas).lookup (usize i)).getD {}).absorb tc)
      else (groupCalls deltas).lookup j := by
  rw [groupCalls_append, (groupCalls_ordered deltas).lookup_entry, index]
  exact if_congr (eq_usize_iff small) rfl rfl

theorem sentCalls_snoc (model : String) (events : List Event) (data : Event) :
    sentCalls codec model (events ++ [data]) = sentCalls codec model events ++
      ((interpret codec data).deltas ((SSETransformer.new model).after codec events)).flatMap
        fun d => (d.toolCalls.getD []).map .of :=
  sentDeltas_snoc codec _ events data rfl

/-- An event that says nothing of an item leaves its call. -/
theorem decodedCall_kept {data : Event} (none' : Transform.callOf codec data = none)
    (silent : argumentsOf codec itemId data = none) (events : List Event) :
    decodedCall codec (events ++ [data]) itemId = decodedCall codec events itemId := by
  rw [decodedCall_snoc codec none', silent]
  simp

theorem callOf_named {data : Event} {item : FunctionCallItem}
    (call : Transform.callOf codec data = some item) : item.name ≠ "" := by
  have named := (Option.filter_eq_some_iff.mp call).2
  exact (of_decide_eq_true named).2.2

/-- The entries hold the calls of the announced items, by position. -/
def Holds (calls : ToolCalls) (events : List Event) : Prop :=
  ∀ j : Usize, calls.lookup j =
    ((announced codec events)[j.toNat]?).map (decodedCall codec events)

variable {codec}

/-- An announcement: its item's entry is found or made at the item's position. -/
theorem Holds.announce {deltas : List ToolCallDelta} {events : List Event}
    (holds : Holds codec (groupCalls deltas) events) {data : Event} {item : FunctionCallItem}
    (call : Transform.callOf codec data = some item)
    (here : (note (announced codec events) (some item.id))[i]? = some item.id)
    (distinct : (note (announced codec events) (some item.id)).Nodup) (small : i < 2 ^ 64) :
    Holds codec (groupCalls (deltas ++ [startCall i item.downstreamId item.name]))
      (events ++ [data]) := by
  intro j
  have index : (startCall i item.downstreamId item.name).index = usize i := rfl
  rw [lookup_groupCalls_snoc deltas index small, holds, holds, usize_toNat small, announced_snoc,
    call, Option.map_some, getElem?_note here]
  split
  · have entry : (((announced codec events)[i]?).map (decodedCall codec events)).getD {} =
        decodedCall codec events item.id := by
      by_cases known : item.id ∈ announced codec events
      · rw [note, if_pos known] at here
        rw [here]
        rfl
      · rw [decodedCall_unannounced codec known]
        cases found : (announced codec events)[i]? with
        | none => rfl
        | some other =>
          rw [note_kept found, Option.some.injEq] at here
          exact absurd (here ▸ List.mem_of_getElem? found) known
    rw [entry, absorb_startCall _ _ downstreamId_ne (callOf_named codec call), Option.map_some,
      decodedCall_announce codec call, if_pos rfl]
  · rename_i elsewhere
    cases found : (announced codec events)[j.toNat]? with
    | none => rfl
    | some itemId =>
      have other : itemId ≠ item.id := by
        rintro rfl
        have kept := note_kept found (some item.id)
        have bound := (List.getElem?_eq_some_iff.mp kept).1
        exact elsewhere ((List.getElem?_inj bound distinct).mp (kept.trans here.symm))
      rw [Option.map_some, Option.map_some, decodedCall_announce codec call, if_neg other]

/-- Arguments for the item at a position. -/
theorem Holds.arguments {deltas : List ToolCallDelta} {events : List Event}
    (holds : Holds codec (groupCalls deltas) events) {data : Event} {delta : String}
    (none' : Transform.callOf codec data = none)
    (adds : ∀ id, argumentsOf codec id data = if itemId = id then some delta else none)
    (here : (announced codec events)[i]? = some itemId)
    (distinct : (announced codec events).Nodup) (small : i < 2 ^ 64) :
    Holds codec (groupCalls (deltas ++ [argumentsCall i delta])) (events ++ [data]) := by
  intro j
  have index : (argumentsCall i delta).index = usize i := rfl
  rw [lookup_groupCalls_snoc deltas index small, holds, holds, usize_toNat small,
    announced_kept codec none', here]
  split
  · rename_i same
    rw [same, here, Option.map_some, Option.map_some, Option.getD_some, absorb_argumentsCall,
      decodedCall_snoc codec none', adds, if_pos rfl, if_pos (List.mem_of_getElem? here),
      Option.getD_some]
  · rename_i elsewhere
    cases found : (announced codec events)[j.toNat]? with
    | none => rfl
    | some id =>
      have other : itemId ≠ id := by
        rintro rfl
        have bound := (List.getElem?_eq_some_iff.mp found).1
        exact elsewhere ((List.getElem?_inj bound distinct).mp (found.trans here.symm))
      rw [Option.map_some, Option.map_some, decodedCall_kept codec none' (by rw [adds, if_neg other])]

/-- An event that says nothing of any announced item. -/
theorem Holds.kept {calls : ToolCalls} {events : List Event} (holds : Holds codec calls events)
    {data : Event} (none' : Transform.callOf codec data = none)
    (silent : ∀ id ∈ announced codec events, argumentsOf codec id data = none) :
    Holds codec calls (events ++ [data]) := by
  intro j
  rw [holds, announced_kept codec none']
  cases found : (announced codec events)[j.toNat]? with
  | none => rfl
  | some id =>
    rw [Option.map_some, Option.map_some,
      decodedCall_kept codec none' (silent id (List.mem_of_getElem? found))]

variable (codec)

/-- By induction on the events: the entry under an index is the call of the item that
was announced at that position, and is absent when there was none. -/
theorem sentCalls_hold (model : String) {events : List Event} (one : OneReset codec events)
    (few : (announced codec events).length ≤ 2 ^ 64) :
    Holds codec (groupCalls (sentCalls codec model events)) events := by
  induction events using List.reverseRecOn with
  | nil =>
    intro j
    rw [sentCalls, SSETransformer.sentDeltas]
    simp [SSETransformer.emitted, groupCalls_nil, announced]
  | append_singleton events data ih =>
    obtain ⟨frames, segment⟩ := openItems_segment codec model events
    rw [one.front.openItems_eq] at segment
    rw [announced_snoc] at few
    have grows := prefix_note (announced codec events) ((Transform.callOf codec data).map (·.id))
    have holds := ih one.front (grows.length_le.trans few)
    obtain ⟨_, carried, adds⟩ := interpret_carries codec data
    rw [sentCalls_snoc]
    cases denotes : interpret codec data with
    | announce seq itemId callId name =>
      rw [denotes] at carried
      obtain ⟨item, call, same⟩ := Option.map_eq_some_iff.mp carried.symm
      obtain ⟨rfl, rfl, rfl⟩ : item.id = itemId ∧ item.downstreamId = callId ∧ item.name = name := by
        simpa using same
      rw [call, Option.map_some] at few
      have here := (segment.announce_index item.id item.downstreamId item.name).1
      have small := (List.getElem?_eq_some_iff.mp here).1
      exact holds.announce call here (note_distinct segment.distinct _) (by omega)
    | arguments seq itemId delta =>
      rw [denotes] at carried adds
      have none' : Transform.callOf codec data = none := Option.map_eq_none_iff.mp carried.symm
      have adds (id : String) :
          argumentsOf codec id data = if itemId = id then some delta else none := by
        rw [← adds, Action.arguments?, Option.filter_some]
        by_cases own : itemId = id <;> simp [own]
      cases found : ((SSETransformer.new model).after codec events).toolIndexByItemId.lookup itemId with
      | none =>
        simp only [Action.deltas, found, Option.toList_none, List.map_nil, List.flatMap_nil,
          List.append_nil]
        refine holds.kept none' fun id member => ?_
        rw [adds, if_neg]
        rintro rfl
        obtain ⟨i, position⟩ := List.getElem?_of_mem member
        rw [(segment.indices itemId i).mpr position] at found
        cases found
      | some i =>
        have here := (segment.indices itemId i).mp found
        have small := (List.getElem?_eq_some_iff.mp here).1
        have within := grows.length_le
        simp only [Action.deltas, found]
        exact holds.arguments none' adds here segment.distinct (by omega)
    | _ =>
      rw [denotes] at carried adds
      have none' : Transform.callOf codec data = none := Option.map_eq_none_iff.mp carried.symm
      simp only [Action.deltas, List.flatMap_nil, List.flatMap_singleton, Option.getD_none,
        List.map_nil, List.append_nil]
      exact holds.kept none' fun id _ => (adds id).symm

/-- The chunks of a run as the buffered path decodes them, their times aside. -/
def decodedChunks (model : String) (events : List Event) : List StreamingChunk :=
  ((SSETransformer.new model).emitted codec events).map (StreamingChunk.of · 0)

theorem concat_eq_join (parts : List (Option String)) :
    concat parts = String.join (parts.filterMap id) := by
  induction parts with
  | nil => rfl
  | cons part parts ih =>
    rw [← List.singleton_append, concat_append, ih, concat_singleton]
    cases part <;> simp

theorem choices_deltas (model : String) (events : List Event) :
    (choicesOf (decodedChunks codec model events)).map (·.delta) =
      ((SSETransformer.new model).sentDeltas codec events).map .of := by
  rw [decodedChunks, SSETransformer.sentDeltas, choicesOf, List.flatMap_map, List.map_flatMap,
    List.map_flatMap]
  refine congrArg (List.flatMap · _) (funext fun c => ?_)
  simp [StreamingChunk.of, StreamingChoice.of, ChatCompletionChunk.deltas, Function.comp_def]

/-- The joined texts of a member of the deltas. -/
theorem concat_choices (model : String) (events : List Event)
    (member : StreamingDelta → Option String) (member' : ChunkDelta → Option String)
    (same : ∀ d, member (.of d) = member' d) :
    concat ((choicesOf (decodedChunks codec model events)).map fun c => member c.delta) =
      String.join (((SSETransformer.new model).sentDeltas codec events).flatMap
        (member' · |>.toList)) := by
  have parts : (choicesOf (decodedChunks codec model events)).map (fun c => member c.delta) =
      ((SSETransformer.new model).sentDeltas codec events).map member' := by
    have inner := congrArg (List.map member) (choices_deltas codec model events)
    rw [List.map_map, List.map_map] at inner
    exact inner.trans (List.map_congr_left fun d _ => same d)
  rw [parts, concat_eq_join, List.filterMap_map, List.filterMap_eq_flatMap_toList]
  rfl

theorem callDeltas_sentCalls (model : String) (events : List Event) :
    callDeltasOf (choicesOf (decodedChunks codec model events)) = sentCalls codec model events := by
  have inner := congrArg (List.flatMap fun d : StreamingDelta => d.toolCalls.getD [])
    (choices_deltas codec model events)
  rw [List.flatMap_map, List.flatMap_map] at inner
  refine inner.trans (congrArg (List.flatMap · _) (funext fun d => ?_))
  cases calls : d.toolCalls <;> simp [StreamingDelta.of, calls]

/-- Entries that hold the calls list them by position. -/
theorem Holds.values {deltas : List ToolCallDelta} {events : List Event}
    (holds : Holds codec (groupCalls deltas) events)
    (few : (announced codec events).length ≤ 2 ^ 64) :
    (groupCalls deltas).map (·.2) = (announced codec events).map (decodedCall codec events) := by
  have entries : groupCalls deltas = ((List.range (announced codec events).length).map usize).map
      fun j => (j, (((announced codec events)[j.toNat]?).map (decodedCall codec events)).getD {}) := by
    apply (groupCalls_ordered deltas).ext
    · rw [Ordered, List.pairwise_map, List.pairwise_map]
      refine List.pairwise_lt_range.imp_of_mem fun {i k} low high less => ?_
      rw [List.mem_range] at low high
      show usize i < usize k
      rw [UInt64.lt_iff_toNat_lt, usize_toNat (by omega), usize_toNat (by omega)]
      exact less
    · intro j
      rw [holds, lookup_map_pair]
      by_cases position : j.toNat < (announced codec events).length
      · have listed : j ∈ (List.range (announced codec events).length).map usize := by
          refine List.mem_map.mpr ⟨j.toNat, List.mem_range.mpr position, ?_⟩
          exact ((eq_usize_iff (by omega)).mpr rfl).symm
        rw [if_pos listed, List.getElem?_eq_getElem position]
        rfl
      · rw [if_neg, List.getElem?_eq_none (by omega)]
        · rfl
        intro listed
        obtain ⟨i, inside, same⟩ := List.mem_map.mp listed
        rw [List.mem_range] at inside
        exact position ((eq_usize_iff (by omega)).mp same.symm ▸ inside)
  rw [entries, List.map_map, List.map_map]
  apply List.ext_getElem
  · simp
  · intro i inside _
    rw [List.length_map, List.length_range] at inside
    simp [usize_toNat (show i < 2 ^ 64 by omega), inside]

variable {codec}

/-- What is emitted for a numbered event is not skipped. -/
theorem Sequenced.fits {events : List Event} (numbered : Sequenced codec events) {data : Event}
    (member : data ∈ events) (emitting : (interpret codec data).sequence = some seq) :
    FitsInt64 seq := by
  have fits := numbered data member
  unfold interpret at emitting
  unfold envelopeOf sequenceNumber at fits
  cases classified : SSETransformer.classify codec data with
  | blank | done | undecodable => simp [classified, Action.sequence] at emitting
  | event e =>
    simp only [classified] at emitting fits
    rw [interpretEvent_sequence codec e emitting]
    exact fits rfl

theorem Sequenced.completes_iff {events : List Event} (numbered : Sequenced codec events)
    {data : Event} (member : data ∈ events) :
    Completes codec data ↔ (usageOf codec data).isSome := by
  rw [← (interpret_reports codec data).2]
  constructor
  · rintro ⟨seq, usage, finish, _⟩
    rw [finish]
    rfl
  · intro finishes
    cases denotes : interpret codec data with
    | finish seq usage =>
      exact ⟨seq, usage, denotes, numbered.fits member (by rw [denotes]; rfl)⟩
    | _ => simp [denotes, Action.usage?] at finishes

theorem Completes.callOf_eq {data : Event} (completes : Completes codec data) :
    Transform.callOf codec data = none := by
  obtain ⟨seq, usage, finish, _⟩ := completes
  have carried := (interpret_carries codec data).2.1
  rw [finish] at carried
  exact Option.map_eq_none_iff.mp carried.symm

/-- By induction from the end of the events. -/
theorem endsInToolCall_iff {events : List Event} (one : OneReset codec events)
    (numbered : Sequenced codec events) :
    EndsInToolCall codec events ↔ announced codec (untilUsage codec events) ≠ [] := by
  induction events using List.reverseRecOn with
  | nil =>
    refine iff_of_false ?_ (by simp [untilUsage, announced])
    rintro ⟨before, data, after, split, _⟩
    cases before <;> cases split
  | append_singleton events data ih =>
    have earlier := ih one.front fun e member => numbered e (List.mem_append_left _ member)
    have last : Completes codec data ↔ _ := numbered.completes_iff (by simp)
    rw [endsInToolCall_append, one.front.openItems_eq, earlier, untilUsage, untilUsage]
    by_cases completes : Completes codec data
    · have reported := last.mp completes
      rw [List.rdropWhile_concat_neg _ _ _ (by simpa [Option.isSome_iff_ne_none] using reported),
        announced_kept codec completes.callOf_eq]
      simp [completes]
    · have unreported : (usageOf codec data).isNone := by
        simpa [last] using completes
      rw [List.rdropWhile_concat, if_pos unreported]
      simp [completes]

variable (codec)

/-- The decoded chunks of a run say what the upstream decodedCompletion. -/
theorem completionOf_decoded (model : String) {events : List Event} (one : OneReset codec events)
    (numbered : Sequenced codec events) (few : (announced codec events).length ≤ 2 ^ 64) :
    completionOf (((SSETransformer.new model).emitted codec events).filterMap recovered) =
      decodedCompletion codec events := by
  have fits : ∀ c ∈ (SSETransformer.new model).emitted codec events, FitsInt64 c.created := by
    intro c member
    obtain ⟨before, data, after, split, emitted⟩ := (mem_emitted codec).mp member
    rw [SSETransformer.framesOf, SSETransformer.transformChunks_eq] at emitted
    exact numbered.fits (by rw [split]; simp) (Action.apply_emits emitted).created
  have reason : (lastText ((choicesOf (decodedChunks codec model events)).map
      (·.finishReason))).getD "stop" = (decodedCompletion codec events).finishReason := by
    have same := congrArg Completion.finishReason (completionOf_recovered fits)
    have spec := reasonOf_spec codec model events
    rw [endsInToolCall_iff one numbered] at spec
    refine same.symm.trans ?_
    rcases spec with ⟨calls, announced⟩ | ⟨stop, none'⟩
    · rw [decodedCompletion, if_neg announced]
      exact congrArg (·.getD "stop") calls
    · rw [decodedCompletion, if_pos (not_not.mp none')]
      exact stop
  have usages : (decodedChunks codec model events).filterMap (·.usage) =
      (events.filterMap (usageOf codec)).map (·.toJson.normalize) := by
    rw [decodedChunks, List.filterMap_map, ← emitted_usages codec (SSETransformer.new model) events,
      List.map_filterMap]
    rfl
  rw [completionOf_recovered fits, ← decodedChunks, completionOf, reason, usages,
    List.getLast?_map, callDeltas_sentCalls, (sentCalls_hold codec model one few).values codec few,
    concat_choices codec model events (·.content) (·.content) fun _ => rfl,
    concat_choices codec model events (·.reasoningContent) (·.reasoningContent) fun _ => rfl,
    sentDeltas_content, sentDeltas_reasoning]
  rfl

end CodexProxy.Buffered
