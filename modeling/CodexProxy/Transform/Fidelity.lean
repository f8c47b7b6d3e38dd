import CodexProxy.Transform.Spoken

/-! What a client gets of a response. The texts of a segment arrive as content deltas,
in order; every announced call is started under the index of its item, and its argument
fragments under that index are the deltas that came after the announcement. -/
namespace CodexProxy.Transform
open SSETransformer

variable (codec : Json.Codec)

theorem announces_eq (data : List UInt8) :
    (interpret codec data).announces = (callOf codec data).map (·.id) := by
  rw [Action.announces_eq, (interpret_carries codec data).2.1, Option.map_map]
  rfl

theorem announced_snoc (calls : List (List UInt8)) (data : List UInt8) :
    announced codec (calls ++ [data]) =
      note (announced codec calls) ((callOf codec data).map (·.id)) := by
  rw [announced_append, List.foldl_cons, List.foldl_nil, announces_eq]

theorem mem_announced {calls : List (List UInt8)} : itemId ∈ announced codec calls ↔
    ∃ data ∈ calls, (callOf codec data).map (·.id) = some itemId := by
  induction calls using List.reverseRecOn with
  | nil => simp [announced]
  | append_singleton calls data ih => simp [announced_snoc, mem_note, ih, or_and_right, exists_or]

theorem prefix_note (ids : List String) (item : Option String) : ids <+: note ids item := by
  unfold note
  split
  · split
    · exact List.prefix_rfl
    · exact List.prefix_append _ _
  · exact List.prefix_rfl

/-- An announcement carries no arguments. -/
theorem argumentsOf_call {data : List UInt8} (call : callOf codec data = some item)
    (itemId : String) : argumentsOf codec itemId data = none := by
  unfold callOf payloadOf at call
  unfold argumentsOf payloadOf
  split at call
  · split at call
    · rename_i type
      simp [type]
    · cases call
  · cases call

theorem argumentsAfter_snoc (itemId : String) (calls : List (List UInt8)) (data : List UInt8) :
    argumentsAfter codec itemId (calls ++ [data]) = argumentsAfter codec itemId calls ++
      if itemId ∈ announced codec calls then (argumentsOf codec itemId data).toList else [] := by
  rw [argumentsAfter, argumentsAfter, List.dropWhile_append]
  by_cases known : itemId ∈ announced codec calls
  · obtain ⟨first, member, announces⟩ := (mem_announced codec).mp known
    have started : ¬ (calls.dropWhile fun data =>
        (callOf codec data).map (·.id) ≠ some itemId).isEmpty = true := by
      rw [List.isEmpty_iff, List.dropWhile_eq_nil_iff]
      intro none
      exact absurd announces (by simpa using none first member)
    rw [if_neg started, if_pos known, List.filterMap_append]
    congr 1
  · have before : (calls.dropWhile fun data =>
        (callOf codec data).map (·.id) ≠ some itemId) = [] := by
      rw [List.dropWhile_eq_nil_iff]
      intro d member
      rw [decide_eq_true_eq]
      exact fun announces => known ((mem_announced codec).mpr ⟨d, member, announces⟩)
    rw [before, if_neg known, if_pos List.isEmpty_nil, List.filterMap_nil, List.nil_append]
    by_cases announces : (callOf codec data).map (·.id) = some itemId
    · obtain ⟨item, call, _⟩ := Option.map_eq_some_iff.mp announces
      rw [List.dropWhile_cons_of_neg (by simp [announces]), List.filterMap_cons,
        argumentsOf_call codec call]
      rfl
    · rw [List.dropWhile_cons_of_pos (by simpa using announces)]
      rfl

/-- The index that an item has downstream: items count from their first announcement. -/
def slotOf (segment : List (List UInt8)) (itemId : String) : UInt64 :=
  usize ((itemsSaid codec segment).idxOf itemId)

/-- A segment arrives: its texts, its calls and their arguments. -/
structure Arrives (segment : List (List UInt8)) (chunks : List Json) : Prop where
  content : chunks.flatMap contentsOf = segment.filterMap (textSaid codec)
  starts : chunks.flatMap startsOf = (segment.filterMap (callSaid codec)).map fun item =>
    (slotOf codec segment item.id, item.downstreamId, item.name)
  arguments : ∀ data ∈ segment, ∀ item, callSaid codec data = some item →
    String.join (chunks.flatMap (fragmentsAt (slotOf codec segment item.id))) =
      String.join (argumentsSaidAfter codec item.id segment)

/-- The items that are announced when all is heard. -/
theorem announced_said {events : List (List UInt8)} (heard : ∀ data ∈ events, Heard codec data) :
    announced codec events = itemsSaid codec events := by
  refine List.foldl_ext _ _ _ fun ids data member => ?_
  rw [announces_eq, callOf_said codec (heard data member)]

theorem argumentsAfter_said {events : List (List UInt8)}
    (heard : ∀ data ∈ events, Heard codec data) (itemId : String) :
    argumentsAfter codec itemId events = argumentsSaidAfter codec itemId events := by
  rw [argumentsAfter, argumentsSaidAfter]
  induction events with
  | nil => rfl
  | cons data events ih =>
    rw [List.dropWhile_cons, List.dropWhile_cons, callOf_said codec (heard data List.mem_cons_self)]
    split
    · exact ih fun d member => heard d (List.mem_cons_of_mem _ member)
    · exact List.filterMap_congr fun d member => argumentsOf_said codec (heard d member) itemId

theorem emitted_snoc (t : SSETransformer) (calls : List (List UInt8)) (data : List UInt8) :
    t.emitted codec (calls ++ [data]) =
      t.emitted codec calls ++ (((interpret codec data).apply (t.after codec calls)).frames) := by
  rw [emitted_append, emitted, emitted, List.append_nil, framesOf, transformChunks_eq]

theorem emitted_contents (t : SSETransformer) (segment : List (List UInt8)) :
    (t.emitted codec segment).flatMap (fun c => contentsOf c.toJson) =
      segment.filterMap (textOf codec) := by
  induction segment using List.reverseRecOn with
  | nil => rfl
  | append_singleton calls data ih =>
    rw [emitted_snoc, List.flatMap_append, ih, Action.contents_apply,
      (interpret_carries codec data).1, List.filterMap_append]
    congr 1

/-- The index of an announcement is the position of its item. -/
theorem Segment.announce_idxOf {t : SSETransformer} (segment : Segment t ids frames)
    (itemId callId name : String) :
    (t.announce itemId callId name).2 = (note ids (some itemId)).idxOf itemId := by
  have known := (segment.announce_index itemId callId name).1
  obtain ⟨bound, same⟩ := List.getElem?_eq_some_iff.mp known
  have distinct := note_distinct segment.distinct (some itemId)
  have position := distinct.idxOf_getElem _ bound
  rw [same] at position
  exact position.symm

/-- By induction on the segment; `all` is the list of items that the announced ones
grow into, in which their positions stay. -/
theorem Fresh.emitted_starts {t : SSETransformer} (fresh : Fresh t)
    {segment : List (List UInt8)} (inside : ∀ data ∈ segment, isCreated codec data = false)
    {all : List String} (grows : announced codec segment <+: all) :
    (t.emitted codec segment).flatMap (fun c => startsOf c.toJson) =
      (segment.filterMap (callOf codec)).map fun item =>
        (usize (all.idxOf item.id), item.downstreamId, item.name) := by
  induction segment using List.reverseRecOn with
  | nil => rfl
  | append_singleton calls data ih =>
    rw [announced_snoc] at grows
    have before := fresh.run codec fun d member => inside d (List.mem_append_left _ member)
    have earlier := ih (fun d member => inside d (List.mem_append_left _ member))
      ((prefix_note _ _).trans grows)
    rw [emitted_snoc, List.flatMap_append, earlier, (Action.calls_apply _ _).1,
      List.filterMap_append, List.map_append]
    congr 1
    have carried := (interpret_carries codec data).2.1
    cases call : callOf codec data with
    | none =>
      rw [call] at carried
      simp only [List.filterMap_cons, call, List.filterMap_nil, List.map_nil]
      cases denotes : interpret codec data <;> simp_all [Action.starts, Action.call?]
    | some item =>
      rw [call] at carried grows
      simp only [List.filterMap_cons, call, List.filterMap_nil, List.map_cons, List.map_nil]
      cases denotes : interpret codec data with
      | announce seq itemId callId name =>
        simp only [denotes, Action.call?, Option.map_some, Option.some.injEq, Prod.mk.injEq]
          at carried
        obtain ⟨rfl, rfl, rfl⟩ := carried
        have noted : item.id ∈ note (announced codec calls) (some item.id) :=
          mem_note.mpr (.inr rfl)
        have position := grows.idxOf_eq_of_mem noted
        rw [Action.starts, before.announce_idxOf]
        simp only [Option.map_some] at position
        rw [position]
      | _ => simp [denotes, Action.call?] at carried

theorem usize_inj {i j : Nat} (small : i < 2 ^ 64) (small' : j < 2 ^ 64) :
    usize i = usize j ↔ i = j := by
  constructor
  · intro same
    have value := congrArg UInt64.toNat same
    simp only [usize, UInt64.toNat_ofNat'] at value
    omega
  · exact congrArg usize

/-- Under one index an action sends the arguments for the item that holds it. -/
theorem Segment.join_fragments {t : SSETransformer} (segment : Segment t ids frames)
    (few : ids.length ≤ 2 ^ 64) {i : Nat} (small : i < 2 ^ 64) (a : Action) :
    String.join (a.fragments t (usize i)) = (ids[i]?.bind fun itemId =>
      (a.arguments?.filter (·.1 = itemId)).map (·.2)).getD "" := by
  cases a with
  | ignore | stop | reject | note | reset | text | reasoning | finish =>
    cases ids[i]? <;> rfl
  | announce seq itemId callId name =>
    rw [Action.fragments]
    cases ids[i]? <;> split <;> simp [Action.arguments?]
  | arguments seq itemId delta =>
    have known := segment.indices itemId
    simp only [Action.fragments, Action.arguments?, Option.filter_some]
    cases holder : ids[i]? with
    | none =>
      cases found : t.toolIndexByItemId.lookup itemId with
      | none => rfl
      | some index =>
        have position := (known index).mp found
        have bound := (List.getElem?_eq_some_iff.mp position).1
        have other : ¬ usize index = usize i := by
          rw [usize_inj (by omega) small]
          rintro rfl
          rw [position] at holder
          cases holder
        simp only [if_neg other]
        rfl
    | some item =>
      by_cases own : itemId = item
      · subst own
        rw [(known i).mpr holder]
        simp
      · have none : ∀ index, t.toolIndexByItemId.lookup itemId = some index →
            ¬ usize index = usize i := by
          intro index found
          have position := (known index).mp found
          have bound := (List.getElem?_eq_some_iff.mp position).1
          rw [usize_inj (by omega) small]
          rintro rfl
          rw [position] at holder
          exact own (Option.some.inj holder)
        cases found : t.toolIndexByItemId.lookup itemId with
        | none => simp [own]
        | some index => simp [own, none index found]

theorem argumentsAfter_unannounced {itemId : String} {calls : List (List UInt8)}
    (unknown : itemId ∉ announced codec calls) : argumentsAfter codec itemId calls = [] := by
  induction calls using List.reverseRecOn with
  | nil => rfl
  | append_singleton calls data ih =>
    rw [announced_snoc, mem_note, not_or] at unknown
    rw [argumentsAfter_snoc, ih unknown.1, if_neg unknown.1, List.nil_append]

/-- By induction on the segment: the fragments under an index belong to the item that
holds it, or there are none yet. -/
theorem Fresh.emitted_fragments {t : SSETransformer} (fresh : Fresh t)
    {segment : List (List UInt8)} (inside : ∀ data ∈ segment, isCreated codec data = false)
    (few : (announced codec segment).length ≤ 2 ^ 64) {i : Nat} (small : i < 2 ^ 64) :
    String.join ((t.emitted codec segment).flatMap fun c => fragmentsAt (usize i) c.toJson) =
      ((announced codec segment)[i]?.map fun itemId =>
        String.join (argumentsAfter codec itemId segment)).getD "" := by
  induction segment using List.reverseRecOn with
  | nil => rfl
  | append_singleton calls data ih =>
    rw [announced_snoc] at few ⊢
    have grows := prefix_note (announced codec calls) ((callOf codec data).map (·.id))
    have few' := grows.length_le.trans few
    have within : ∀ d ∈ calls, isCreated codec d = false :=
      fun d member => inside d (List.mem_append_left _ member)
    have before := fresh.run codec within
    have arguments := (interpret_carries codec data).2.2
    rw [emitted_snoc, List.flatMap_append, String.join_append, ih within few',
      (Action.calls_apply _ _).2, before.join_fragments few' small]
    simp only [arguments]
    cases holder : (announced codec calls)[i]? with
    | some itemId =>
      have member := List.mem_of_getElem? holder
      rw [note_kept holder]
      simp only [Option.map_some, Option.getD_some, Option.bind_some]
      rw [argumentsAfter_snoc, if_pos member, String.join_append]
      cases argumentsOf codec itemId data <;> simp
    | none =>
      simp only [Option.map_none, Option.getD_none, Option.bind_none, String.append_empty]
      cases held : (note (announced codec calls) ((callOf codec data).map (·.id)))[i]? with
      | none => rfl
      | some itemId =>
        have new : itemId ∉ announced codec calls := by
          intro old
          obtain ⟨j, position⟩ := List.getElem?_of_mem old
          have kept := note_kept position ((callOf codec data).map (·.id))
          have distinct := note_distinct before.distinct ((callOf codec data).map (·.id))
          have bound := (List.getElem?_eq_some_iff.mp kept).1
          have same := (List.getElem?_inj bound distinct).mp (kept.trans held.symm)
          rw [same, holder] at position
          cases position
        rw [Option.map_some, Option.getD_some, argumentsAfter_snoc, if_neg new,
          argumentsAfter_unannounced codec new]
        rfl

/-- A segment that begins with a fresh state and is heard arrives. -/
theorem Fresh.arrives {t : SSETransformer} (fresh : Fresh t) {segment : List (List UInt8)}
    (heard : ∀ data ∈ segment, Heard codec data)
    (inside : ∀ data ∈ segment, isCreated codec data = false)
    (few : (announced codec segment).length ≤ 2 ^ 64) :
    Arrives codec segment ((t.emitted codec segment).map (·.toJson)) where
  content := by
    rw [List.flatMap_map, emitted_contents]
    exact List.filterMap_congr fun data member => textOf_said codec (heard data member)
  starts := by
    have calls : segment.filterMap (callOf codec) = segment.filterMap (callSaid codec) :=
      List.filterMap_congr fun data member => callOf_said codec (heard data member)
    rw [List.flatMap_map, fresh.emitted_starts codec inside List.prefix_rfl, calls]
    simp only [slotOf, announced_said codec heard]
  arguments data inSegment item call := by
    rw [← callOf_said codec (heard data inSegment)] at call
    rw [← argumentsAfter_said codec heard, slotOf, ← announced_said codec heard]
    have member : item.id ∈ announced codec segment :=
      (mem_announced codec).mpr ⟨data, inSegment, by rw [call, Option.map_some]⟩
    have position := List.idxOf_lt_length_of_mem member
    have sent := fresh.emitted_fragments codec inside few (i := (announced codec segment).idxOf item.id)
      (by omega)
    rw [List.getElem?_idxOf member] at sent
    rw [List.flatMap_map]
    exact sent

theorem interpret_isCreated {data : List UInt8} (created : isCreated codec data = true) :
    ∃ id, interpret codec data = .reset id := by
  rw [← interpret_resets] at created
  cases denotes : interpret codec data with
  | reset id => exact ⟨id, rfl⟩
  | _ => simp [denotes, Action.resets] at created

theorem callOf_created {data : List UInt8} (created : isCreated codec data = true) :
    callOf codec data = none := by
  obtain ⟨id, denotes⟩ := interpret_isCreated codec created
  have carried := (interpret_carries codec data).2.1
  rw [denotes] at carried
  exact Option.map_eq_none_iff.mp carried.symm

theorem announced_created {data : List UInt8} (created : isCreated codec data = true)
    (segment : List (List UInt8)) : announced codec (data :: segment) = announced codec segment := by
  rw [announced, List.foldl_cons, announces_eq, callOf_created codec created]
  rfl

theorem framesOf_created (t : SSETransformer) {data : List UInt8}
    (created : isCreated codec data = true) : t.framesOf codec data = [] := by
  obtain ⟨id, denotes⟩ := interpret_isCreated codec created
  rw [framesOf, transformChunks_eq, denotes]
  simp only [Action.apply]
  split <;> rfl

/-- The event that opens a segment adds nothing to it. -/
theorem Arrives.created {segment : List (List UInt8)} {chunks : List Json}
    (arrives : Arrives codec segment chunks) {data : List UInt8} (heard : Heard codec data)
    (created : isCreated codec data = true) : Arrives codec (data :: segment) chunks := by
  have text : textSaid codec data = none := by
    obtain ⟨id, denotes⟩ := interpret_isCreated codec created
    rw [← textOf_said codec heard, ← (interpret_carries codec data).1, denotes]
    rfl
  have call : callSaid codec data = none := by
    rw [← callOf_said codec heard]
    exact callOf_created codec created
  have slots (itemId : String) : slotOf codec (data :: segment) itemId = slotOf codec segment itemId := by
    rw [slotOf, slotOf, itemsSaid, List.foldl_cons, call]
    rfl
  have after (itemId : String) : argumentsSaidAfter codec itemId (data :: segment) =
      argumentsSaidAfter codec itemId segment :=
    argumentsSaidAfter_other codec (by simp [call]) segment
  refine ⟨?_, ?_, ?_⟩
  · rw [List.filterMap_cons, text]
    exact arrives.content
  · rw [List.filterMap_cons, call, arrives.starts]
    simp only [slots]
  · rintro d (_ | ⟨_, member⟩) item called
    · rw [call] at called
      cases called
    · rw [slots, after]
      exact arrives.arguments d member item called

end CodexProxy.Transform
