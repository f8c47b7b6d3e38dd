import CodexProxy.Buffered.Aggregate
import Mathlib.Data.List.Dedup

/-! What a completion says about a list of chunks, stated without a loop: texts are
joined, the last finish reason and usage count, and tool calls are grouped by index.
The accumulating loop of the buffered path computes exactly this. -/
namespace CodexProxy.Buffered
open Transform

/-- The part of a completion that depends on what the chunks carry. -/
structure Completion where
  content : String
  reasoningContent : String
  toolCalls : List ToolCallAccumulator
  finishReason : String
  usage : Option Json

/-- The texts that are present, joined. -/
def concat (parts : List (Option String)) : String :=
  String.ofList (parts.flatMap fun part => (part.getD "").toList)

/-- The last text that is not empty. -/
def lastText (texts : List (Option String)) : Option String :=
  ((texts.filterMap id).filter (· ≠ "")).getLast?

/-- The call that a list of deltas for one index amounts to. -/
def callOf (deltas : List ToolCallDelta) : ToolCallAccumulator where
  id := (lastText (deltas.map (·.id))).getD ""
  name := (lastText (deltas.map (·.function.bind (·.name)))).getD ""
  arguments := concat (deltas.map (·.function.bind (·.arguments)))

/-- The indices that occur, in increasing order. -/
def indicesOf (deltas : List ToolCallDelta) : List Usize :=
  (deltas.map (·.index)).dedup.mergeSort (· ≤ ·)

def groupCalls (deltas : List ToolCallDelta) : ToolCalls :=
  (indicesOf deltas).map fun i => (i, callOf (deltas.filter (·.index = i)))

def choicesOf (chunks : List StreamingChunk) : List StreamingChoice := chunks.flatMap (·.choices)

def callDeltasOf (choices : List StreamingChoice) : List ToolCallDelta :=
  choices.flatMap (·.delta.toolCalls.getD [])

def completionOf (chunks : List StreamingChunk) : Completion where
  content := concat ((choicesOf chunks).map (·.delta.content))
  reasoningContent := concat ((choicesOf chunks).map (·.delta.reasoningContent))
  toolCalls := (groupCalls (callDeltasOf (choicesOf chunks))).map (·.2)
  finishReason := (lastText ((choicesOf chunks).map (·.finishReason))).getD "stop"
  usage := (chunks.filterMap (·.usage)).getLast?

/-- A call as the client gets it. -/
def presentedCall (call : ToolCallAccumulator) : Json :=
  Json.buildObject [("id", .string call.id), ("type", .string "function"),
    ("function", Json.buildObject [("name", .string call.name),
      ("arguments", .string call.arguments)])]

/-- A response object that presents a completion to the client. -/
def Presents (response : Json) (c : Completion) : Prop :=
  ∃ choice message, response.get? "choices" = some (.array [choice]) ∧
    choice.get? "message" = some message ∧
    choice.get? "finish_reason" = some (.string c.finishReason) ∧
    message.get? "content" = some (.string c.content) ∧
    message.get? "reasoning_content" =
      (if c.reasoningContent = "" then none else some (.string c.reasoningContent)) ∧
    message.get? "tool_calls" =
      (if c.toolCalls = [] then none else some (.array (c.toolCalls.map presentedCall))) ∧
    response.get? "usage" = c.usage

theorem concat_append (parts more : List (Option String)) :
    concat (parts ++ more) = concat parts ++ concat more := by
  simp [concat]

@[simp] theorem concat_singleton (part : Option String) : concat [part] = part.getD "" := by
  simp [concat]

theorem lastText_append (texts more : List (Option String)) :
    lastText (texts ++ more) = (lastText more).or (lastText texts) := by
  rw [lastText, lastText, lastText, List.filterMap_append, List.filter_append,
    List.getLast?_append]

theorem lastNonEmpty_eq (old : String) (new : Option String) :
    lastNonEmpty old new = (lastText [new]).getD old := by
  cases new with
  | none => rfl
  | some s =>
    rw [lastNonEmpty, lastText]
    by_cases empty : s = "" <;> simp [empty]

theorem lastNonEmpty_lastText (texts : List (Option String)) (new : Option String) :
    lastNonEmpty ((lastText texts).getD "") new = (lastText (texts ++ [new])).getD "" := by
  rw [lastNonEmpty_eq, lastText_append]
  cases lastText [new] <;> rfl

theorem callOf_append (deltas : List ToolCallDelta) (tc : ToolCallDelta) :
    callOf (deltas ++ [tc]) = (callOf deltas).absorb tc := by
  simp only [callOf, ToolCallAccumulator.absorb, List.map_append, List.map_cons, List.map_nil,
    concat_append, concat_singleton, lastNonEmpty_lastText]

theorem callOf_nil : callOf [] = {} := rfl

/-- Entries in strictly increasing order of index. -/
def Ordered (calls : ToolCalls) : Prop := calls.Pairwise (·.1 < ·.1)

theorem lookup_cons_calls (i j : Usize) (acc : ToolCallAccumulator) (rest : ToolCalls) :
    List.lookup i ((j, acc) :: rest) = if i = j then some acc else rest.lookup i := by
  rw [List.lookup_cons]
  by_cases same : i = j
  · simp [same]
  · rw [beq_eq_false_iff_ne.mpr same, if_neg same]

/-- Below the first index nothing is found. -/
theorem Ordered.lookup_below {calls : ToolCalls} (below : ∀ e ∈ calls, i < e.1) :
    calls.lookup i = none := by
  rw [List.lookup_eq_none_iff]
  intro e member
  rw [bne_iff_ne]
  rintro rfl
  exact absurd (below e member) (UInt64.lt_irrefl _)

theorem ToolCalls.entry_keys {calls : ToolCalls} (index : Usize)
    (f : ToolCallAccumulator → ToolCallAccumulator) :
    ∀ e ∈ calls.entry index f, e.1 = index ∨ ∃ e' ∈ calls, e'.1 = e.1 := by
  induction calls with
  | nil => simp [entry]
  | cons head rest ih =>
    obtain ⟨i, acc⟩ := head
    unfold entry
    split
    · rename_i same
      subst same
      intro e member
      rcases List.mem_cons.mp member with rfl | later
      · exact .inl rfl
      · exact .inr ⟨e, List.mem_cons_of_mem _ later, rfl⟩
    · split
      · intro e member
        rcases List.mem_cons.mp member with rfl | later
        · exact .inl rfl
        · exact .inr ⟨e, later, rfl⟩
      · intro e member
        rcases List.mem_cons.mp member with rfl | later
        · exact .inr ⟨_, List.mem_cons_self, rfl⟩
        · exact (ih e later).imp id fun ⟨e', known, same⟩ =>
            ⟨e', List.mem_cons_of_mem _ known, same⟩

theorem Ordered.entry {calls : ToolCalls} (ordered : Ordered calls) (index : Usize)
    (f : ToolCallAccumulator → ToolCallAccumulator) : Ordered (calls.entry index f) := by
  induction calls with
  | nil => simp [Ordered, ToolCalls.entry]
  | cons head rest ih =>
    obtain ⟨i, acc⟩ := head
    obtain ⟨first, later⟩ := List.pairwise_cons.mp ordered
    unfold ToolCalls.entry
    split
    · exact List.pairwise_cons.mpr ⟨first, later⟩
    · rename_i different
      split
      · rename_i before
        refine List.pairwise_cons.mpr ⟨?_, ordered⟩
        intro e member
        rcases List.mem_cons.mp member with rfl | member
        · exact before
        · exact UInt64.lt_trans before (first e member)
      · rename_i after
        refine List.pairwise_cons.mpr ⟨?_, ih later⟩
        intro e member
        rcases ToolCalls.entry_keys index f e member with rfl | ⟨e', known, same⟩
        · exact UInt64.lt_of_le_of_ne (UInt64.not_lt.mp after) (Ne.symm different)
        · rw [← same]
          exact first e' known

theorem Ordered.lookup_entry {calls : ToolCalls} (ordered : Ordered calls) (index j : Usize)
    (f : ToolCallAccumulator → ToolCallAccumulator) :
    (calls.entry index f).lookup j =
      if j = index then some (f ((calls.lookup index).getD {})) else calls.lookup j := by
  induction calls with
  | nil => simp [ToolCalls.entry, lookup_cons_calls]
  | cons head rest ih =>
    obtain ⟨i, acc⟩ := head
    obtain ⟨first, later⟩ := List.pairwise_cons.mp ordered
    unfold ToolCalls.entry
    split
    · rename_i same
      subst same
      rw [lookup_cons_calls, lookup_cons_calls, lookup_cons_calls]
      split <;> simp
    · rename_i different
      split
      · rename_i before
        have absent : List.lookup index ((i, acc) :: rest) = none := by
          apply Ordered.lookup_below
          intro e member
          rcases List.mem_cons.mp member with rfl | member
          · exact before
          · exact UInt64.lt_trans before (first e member)
        rw [lookup_cons_calls, absent, Option.getD_none]
      · rw [lookup_cons_calls, lookup_cons_calls, lookup_cons_calls, if_neg different, ih later]
        by_cases same : j = i
        · subst same
          rw [if_pos rfl, if_neg (Ne.symm different), if_pos rfl]
        · rw [if_neg same, if_neg same]

/-- Ordered entries are determined by what is found in them. -/
theorem Ordered.ext {calls calls' : ToolCalls} (ordered : Ordered calls) (ordered' : Ordered calls')
    (same : ∀ i, calls.lookup i = calls'.lookup i) : calls = calls' := by
  induction calls generalizing calls' with
  | nil =>
    cases calls' with
    | nil => rfl
    | cons head rest =>
      obtain ⟨i, acc⟩ := head
      have found := same i
      simp at found
  | cons head rest ih =>
    obtain ⟨i, acc⟩ := head
    obtain ⟨first, later⟩ := List.pairwise_cons.mp ordered
    cases calls' with
    | nil =>
      have found := same i
      simp at found
    | cons head' rest' =>
      obtain ⟨i', acc'⟩ := head'
      obtain ⟨first', later'⟩ := List.pairwise_cons.mp ordered'
      have index : i = i' := by
        by_contra different
        rcases UInt64.lt_or_lt_of_ne different with less | less
        · have found := same i
          rw [lookup_cons_calls, if_pos rfl, Ordered.lookup_below] at found
          · cases found
          · intro e member
            rcases List.mem_cons.mp member with rfl | member
            · exact less
            · exact UInt64.lt_trans less (first' e member)
        · have found := same i'
          rw [lookup_cons_calls i' i', if_pos rfl, Ordered.lookup_below] at found
          · cases found
          · intro e member
            rcases List.mem_cons.mp member with rfl | member
            · exact less
            · exact UInt64.lt_trans less (first e member)
      subst index
      have value := same i
      rw [lookup_cons_calls, lookup_cons_calls, if_pos rfl, if_pos rfl] at value
      cases value
      congr 1
      apply ih later later'
      intro j
      by_cases equal : j = i
      · subst equal
        rw [Ordered.lookup_below first, Ordered.lookup_below first']
      · have found := same j
        rwa [lookup_cons_calls, lookup_cons_calls, if_neg equal, if_neg equal] at found

theorem mem_indicesOf {deltas : List ToolCallDelta} :
    i ∈ indicesOf deltas ↔ ∃ tc ∈ deltas, tc.index = i := by
  rw [indicesOf, List.mem_mergeSort, List.mem_dedup, List.mem_map]

theorem groupCalls_ordered (deltas : List ToolCallDelta) : Ordered (groupCalls deltas) := by
  have sorted : (indicesOf deltas).Pairwise (· ≤ ·) := by
    have pairwise := @List.pairwise_mergeSort _ (fun a b : Usize => decide (a ≤ b))
      (fun a b c => by simpa using UInt64.le_trans) (fun a b => by
        simpa using UInt64.le_total a b) (deltas.map (·.index)).dedup
    exact pairwise.imp fun le => of_decide_eq_true le
  have distinct : (indicesOf deltas).Nodup :=
    ((List.mergeSort_perm _ _).nodup_iff).mpr (List.nodup_dedup _)
  rw [groupCalls, Ordered, List.pairwise_map]
  exact (sorted.and distinct).imp fun ⟨le, ne⟩ => UInt64.lt_of_le_of_ne le ne

theorem lookup_map_pair (is : List Usize) (g : Usize → ToolCallAccumulator) (i : Usize) :
    (is.map fun i => (i, g i)).lookup i = if i ∈ is then some (g i) else none := by
  induction is with
  | nil => rfl
  | cons j is ih =>
    rw [List.map_cons, lookup_cons_calls, ih]
    by_cases same : i = j
    · simp [same]
    · simp [same]

theorem lookup_groupCalls (deltas : List ToolCallDelta) (i : Usize) :
    (groupCalls deltas).lookup i =
      if ∃ tc ∈ deltas, tc.index = i then some (callOf (deltas.filter (·.index = i))) else none := by
  rw [groupCalls, lookup_map_pair]
  simp only [mem_indicesOf]

/-- One more delta updates the entry at its index. -/
theorem groupCalls_append (deltas : List ToolCallDelta) (tc : ToolCallDelta) :
    groupCalls (deltas ++ [tc]) = (groupCalls deltas).entry tc.index (·.absorb tc) := by
  have ordered := groupCalls_ordered deltas
  apply (groupCalls_ordered _).ext (ordered.entry _ _)
  intro i
  rw [ordered.lookup_entry, lookup_groupCalls, lookup_groupCalls, lookup_groupCalls]
  by_cases same : i = tc.index
  · subst same
    have known : ∃ tc' ∈ deltas ++ [tc], tc'.index = tc.index := ⟨tc, by simp, rfl⟩
    rw [if_pos known, if_pos rfl, List.filter_append, List.filter_cons_of_pos (by simp),
      List.filter_nil, callOf_append]
    congr 2
    split
    · rfl
    · rename_i none
      have empty : deltas.filter (·.index = tc.index) = [] := by
        rw [List.filter_eq_nil_iff]
        intro tc' member
        simp only [decide_eq_true_eq]
        exact fun same => none ⟨tc', member, same⟩
      rw [empty, callOf_nil]
      rfl
  · have other : (deltas ++ [tc]).filter (·.index = i) = deltas.filter (·.index = i) := by
      rw [List.filter_append, List.filter_cons_of_neg (by simpa using Ne.symm same),
        List.filter_nil, List.append_nil]
    have occurs : (∃ tc' ∈ deltas ++ [tc], tc'.index = i) ↔ ∃ tc' ∈ deltas, tc'.index = i := by
      simp [Ne.symm same]
    simp only [other, occurs, if_neg same]

theorem groupCalls_nil : groupCalls [] = [] := by simp [groupCalls, indicesOf]

/-- The parts of an accumulation that a completion consists of. -/
structure Accumulated (s : Aggregation) (chunks : List StreamingChunk) : Prop where
  content : s.content = concat ((choicesOf chunks).map (·.delta.content))
  reasoning : s.reasoningContent = concat ((choicesOf chunks).map (·.delta.reasoningContent))
  calls : s.toolCalls = groupCalls (callDeltasOf (choicesOf chunks))
  finish : s.finishReason = (lastText ((choicesOf chunks).map (·.finishReason))).getD ""
  usage : s.usage = (chunks.filterMap (·.usage)).getLast?

/-- The same, within a chunk: some of its choices are still to come. -/
structure AccumulatedChoices (s : Aggregation) (choices : List StreamingChoice) : Prop where
  content : s.content = concat (choices.map (·.delta.content))
  reasoning : s.reasoningContent = concat (choices.map (·.delta.reasoningContent))
  calls : s.toolCalls = groupCalls (callDeltasOf choices)
  finish : s.finishReason = (lastText (choices.map (·.finishReason))).getD ""

theorem absorbToolCalls_spec (deltas more : List ToolCallDelta) (s : Aggregation)
    (calls : s.toolCalls = groupCalls deltas) :
    more.foldl Aggregation.absorbToolCall s = { s with toolCalls := groupCalls (deltas ++ more) } := by
  induction more generalizing s deltas with
  | nil => rw [List.append_nil, ← calls]; rfl
  | cons tc more ih =>
    have next : (s.absorbToolCall tc).toolCalls = groupCalls (deltas ++ [tc]) := by
      rw [groupCalls_append, ← calls]
      rfl
    rw [List.foldl_cons, ih (deltas ++ [tc]) _ next, List.append_assoc]
    rfl

theorem absorbChoice_spec {s : Aggregation} {choices : List StreamingChoice}
    (accumulated : AccumulatedChoices s choices) (choice : StreamingChoice) :
    AccumulatedChoices (s.absorbChoice choice) (choices ++ [choice]) ∧
      (s.absorbChoice choice).usage = s.usage := by
  have folded := absorbToolCalls_spec (callDeltasOf choices) (choice.delta.toolCalls.getD [])
    { s with
      role := firstNonEmpty s.role (choice.delta.role.getD "")
      content := s.content ++ choice.delta.content.getD ""
      reasoningContent := s.reasoningContent ++ choice.delta.reasoningContent.getD ""
      finishReason := lastNonEmpty s.finishReason choice.finishReason } accumulated.calls
  rw [Aggregation.absorbChoice, folded]
  refine ⟨⟨?_, ?_, ?_, ?_⟩, rfl⟩
  · simp [concat_append, accumulated.content]
  · simp [concat_append, accumulated.reasoning]
  · simp [callDeltasOf]
  · rw [List.map_append, List.map_cons, List.map_nil, ← lastNonEmpty_lastText, ← accumulated.finish]

theorem absorbChoices_spec (more : List StreamingChoice) {s : Aggregation}
    {choices : List StreamingChoice} (accumulated : AccumulatedChoices s choices) :
    AccumulatedChoices (more.foldl Aggregation.absorbChoice s) (choices ++ more) ∧
      (more.foldl Aggregation.absorbChoice s).usage = s.usage := by
  induction more generalizing s choices with
  | nil => simpa using accumulated
  | cons choice more ih =>
    obtain ⟨absorbed, usage⟩ := absorbChoice_spec accumulated choice
    obtain ⟨later, usage'⟩ := ih absorbed
    rw [List.append_assoc] at later
    exact ⟨later, usage'.trans usage⟩

theorem absorb_spec {s : Aggregation} {chunks : List StreamingChunk}
    (accumulated : Accumulated s chunks) (chunk : StreamingChunk) :
    Accumulated (s.absorb chunk) (chunks ++ [chunk]) := by
  have choices : choicesOf (chunks ++ [chunk]) = choicesOf chunks ++ chunk.choices := by
    simp [choicesOf]
  have start : AccumulatedChoices { s with
      responseId := firstNonEmpty s.responseId chunk.id
      streamModel := firstNonEmpty s.streamModel chunk.model
      created := if s.created = 0 then chunk.created else s.created
      usage := chunk.usage.or s.usage } (choicesOf chunks) :=
    ⟨accumulated.content, accumulated.reasoning, accumulated.calls, accumulated.finish⟩
  obtain ⟨absorbed, usage⟩ := absorbChoices_spec chunk.choices start
  rw [← choices] at absorbed
  refine ⟨absorbed.content, absorbed.reasoning, absorbed.calls, absorbed.finish, ?_⟩
  rw [Aggregation.absorb, usage, List.filterMap_append, List.getLast?_append, accumulated.usage]
  cases present : chunk.usage <;> simp [present]

/-- The loop accumulates the completion of the chunks. -/
theorem accumulated_foldl (chunks more : List StreamingChunk) {s : Aggregation}
    (accumulated : Accumulated s chunks) :
    Accumulated (more.foldl Aggregation.absorb s) (chunks ++ more) := by
  induction more generalizing s chunks with
  | nil => simpa using accumulated
  | cons chunk more ih =>
    have later := ih _ (absorb_spec accumulated chunk)
    rwa [List.append_assoc] at later

theorem accumulated_nil : Accumulated {} [] := ⟨rfl, rfl, groupCalls_nil.symm, rfl, rfl⟩

theorem message_content (s : Aggregation) :
    s.message.get? "content" = some (.string s.content) ∧
    s.message.get? "reasoning_content" = (if s.reasoningContent = "" then none
      else some (.string s.reasoningContent)) ∧
    s.message.get? "tool_calls" = (if s.toolCalls = [] then none
      else some (.array (s.toolCalls.map fun entry => presentedCall entry.2))) := by
  simp only [Aggregation.message, Json.get?_buildObject]
  by_cases calls : s.toolCalls = [] <;> by_cases reasoning : s.reasoningContent = "" <;>
    simp [calls, reasoning, Json.Members.lookup_cons, presentedCall, ToolCallAccumulator.toJson]

/-- The response presents the completion of the chunks that were accumulated. -/
theorem response_presents {s : Aggregation} {chunks : List StreamingChunk}
    (accumulated : Accumulated s chunks) (model : String) (now : Int64) :
    Presents (s.response model now) (completionOf chunks) := by
  obtain ⟨content, reasoning, calls⟩ := message_content s
  have reason : s.reason = (completionOf chunks).finishReason := by
    rw [Aggregation.reason, accumulated.finish, completionOf, firstNonEmpty]
    cases last : lastText ((choicesOf chunks).map (·.finishReason)) with
    | none => rfl
    | some text =>
      have member := List.mem_of_getLast? last
      have shown : text ≠ "" := by simpa using (List.mem_filter.mp member).2
      rw [Option.getD_some, Option.getD_some, if_neg shown]
  refine ⟨Json.buildObject [("index", .ofInt64 0), ("message", s.message),
    ("finish_reason", .string s.reason)], s.message, ?_, ?_, ?_, ?_, ?_, ?_, ?_⟩
  · simp only [Aggregation.response, Json.get?_buildObject]
    cases s.usage <;> simp [skipNone, Json.Members.lookup_cons]
  · simp [Json.get?_buildObject, Json.Members.lookup_cons]
  · rw [← reason]
    simp [Json.get?_buildObject]
  · rw [content, accumulated.content]
    rfl
  · rw [reasoning, accumulated.reasoning]
    rfl
  · rw [calls, accumulated.calls]
    simp [completionOf, Function.comp_def]
  · simp only [Aggregation.response, Json.get?_buildObject]
    rw [completionOf, ← accumulated.usage]
    cases s.usage <;> simp [skipNone, Json.Members.lookup_cons]

end CodexProxy.Buffered
