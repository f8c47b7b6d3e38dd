import CodexProxy.Library.ReferenceCodec
import CodexProxy.Relay.Refinement

/-! A client that leaves. The relay goes on as it would for one who stays until a write
fails, and what the client has got by then is a prefix of what the other one gets. -/
namespace CodexProxy.Relay
open Bytes EventStream Transform Polling

/-- Once a call has failed, nothing more is taken. -/
def Gone (sink : Nat → Option (Nat × String)) : Prop :=
  ∀ n m, n < m → sink n ≠ none → ∃ message, sink m = some (0, message)

/-- The message of the first call that fails, which is one of the first `calls`. -/
def FailsWith (sink : Nat → Option (Nat × String)) (calls : Nat) (message : String) : Prop :=
  ∃ n < calls, ∃ accepted, sink n = some (accepted, message) ∧ ∀ m < n, sink m = none

variable {sink : Nat → Option (Nat × String)}

/-- A writer beside the writer of a client who stays; `lost` is the failure so far. -/
structure Downstream.Trails (sink : Nat → Option (Nat × String)) (d t : Downstream)
    (lost : Option String) : Prop where
  same : d.sink = sink
  healthy : t.Healthy
  level : lost = none → t.written = d.written ∧ ∀ n < d.calls, sink n = none
  behind : ∀ message, lost = some message → d.written <+: t.written ∧ FailsWith sink d.calls message

namespace Downstream.Trails

/-- No call has failed. -/
theorem of_level {d t : Downstream} (same : d.sink = sink) (healthy : t.Healthy)
    (written : t.written = d.written) (sound : ∀ n < d.calls, sink n = none) :
    Trails sink d t none :=
  ⟨same, healthy, fun _ => ⟨written, sound⟩,
    fun _ lost => absurd lost.symm (Option.some_ne_none _)⟩

/-- A call has failed. -/
theorem of_behind {d t : Downstream} (same : d.sink = sink) (healthy : t.Healthy)
    (before : d.written <+: t.written) (fails : FailsWith sink d.calls message) :
    Trails sink d t (some message) := by
  refine ⟨same, healthy, fun level => absurd level (Option.some_ne_none _), fun message' lost => ?_⟩
  rw [← Option.some.inj lost]
  exact ⟨before, fails⟩

theorem isPrefix {d t : Downstream} (trails : Trails sink d t lost) : d.written <+: t.written := by
  cases lost with
  | none => simp only [(trails.level rfl).1, List.prefix_refl]
  | some message => exact (trails.behind message rfl).1

/-- Who is left behind stays behind. -/
theorem mono {d t t' : Downstream} (trails : Trails sink d t (some message)) (healthy : t'.Healthy)
    (grown : t.written <+: t'.written) : Trails sink d t' (some message) := by
  obtain ⟨before, fails⟩ := trails.behind message rfl
  exact of_behind trails.same healthy (before.trans grown) fails

end Downstream.Trails

def failure : Except String Unit → Option String
  | .ok _ => none
  | .error message => some message

/-- A write that a client who stays gets in full, and one who leaves as far as it goes. -/
structure Write.Tracks (sink : Nat → Option (Nat × String)) (w : Write) : Prop where
  appends : ∃ bs, w.Appends bs
  trails : ∀ {d t : Downstream} {lost}, d.Trails sink t lost →
    (w d).1.Trails sink (w t).1 (lost.or (failure (w d).2))

theorem Write.Tracks.stays {w : Write} (tracks : w.Tracks sink) {t : Downstream}
    (healthy : t.Healthy) :
    (w t).2 = .ok () ∧ (w t).1.Healthy ∧ t.written <+: (w t).1.written := by
  obtain ⟨bs, appends⟩ := tracks.appends
  obtain ⟨t', performed, healthy', written⟩ := appends t healthy
  rw [performed]
  exact ⟨rfl, healthy', written ▸ List.prefix_append _ _⟩

theorem writeAll_tracks (gone : Gone sink) (bs : List UInt8) : (writeAll bs).Tracks sink where
  appends := ⟨bs, writeAll_spec bs⟩
  trails {d t lost} trails := by
    have taken : writeAll bs t =
        ({ t with written := t.written ++ bs, calls := t.calls + 1 }, .ok ()) := by
      rw [writeAll, trails.healthy]
    rw [taken, writeAll, trails.same]
    cases lost with
    | none =>
      obtain ⟨written, sound⟩ := trails.level rfl
      cases called : sink d.calls with
      | none =>
        refine .of_level rfl trails.healthy (by simp [written]) fun n below => ?_
        rcases Nat.lt_succ_iff_lt_or_eq.mp below with earlier | rfl
        · exact sound n earlier
        · exact called
      | some fault =>
        obtain ⟨accepted, message⟩ := fault
        refine .of_behind rfl trails.healthy ?_
          ⟨d.calls, Nat.lt_succ_self _, accepted, called, sound⟩
        rw [written]
        exact (List.prefix_append_right_inj _).mpr (List.take_prefix accepted bs)
    | some message =>
      obtain ⟨before, n, below, accepted, failed, first⟩ := trails.behind message rfl
      obtain ⟨message', silent⟩ := gone n d.calls below (by rw [failed]; exact Option.some_ne_none _)
      rw [silent]
      refine .of_behind rfl trails.healthy ?_ ⟨n, Nat.lt_succ_of_lt below, accepted, failed, first⟩
      dsimp only
      rw [List.take_zero, List.append_nil]
      exact before.trans (List.prefix_append _ _)

theorem Write.all_tracks {ws : List Write} (each : ∀ w ∈ ws, w.Tracks sink) :
    (Write.all ws).Tracks sink := by
  induction ws with
  | nil =>
    refine ⟨⟨[], all_nil_spec⟩, fun {d t lost} trails => ?_⟩
    rw [Write.all, Write.all, failure, Option.or_none]
    exact trails
  | cons w ws ih =>
    obtain ⟨first, later⟩ := List.forall_mem_cons.mp each
    obtain ⟨⟨cs, rest⟩, follows⟩ := ih later
    obtain ⟨bs, one⟩ := first.appends
    refine ⟨⟨bs ++ cs, all_cons_spec one rest⟩, fun {d t lost} trails => ?_⟩
    obtain ⟨taken, healthy, _⟩ := first.stays trails.healthy
    have written := first.trails trails
    cases performed : w d with
    | mk d₁ result =>
      cases stayed : w t with
      | mk t₁ result' =>
        rw [stayed] at taken healthy written
        dsimp only at taken
        subst taken
        rw [performed] at written
        cases result with
        | ok =>
          rw [failure, Option.or_none] at written
          simp only [Write.all, performed, stayed]
          exact follows written
        | error message =>
          simp only [Write.all, performed, stayed]
          have grown := (ih later).stays healthy
          cases lost with
          | none => exact written.mono grown.2.1 grown.2.2
          | some lost => exact written.mono grown.2.1 grown.2.2

theorem writeDataFrame_tracks (gone : Gone sink) (payload : List UInt8) :
    (writeDataFrame payload).Tracks sink := by
  apply Write.all_tracks
  intro w member
  simp only [List.mem_append, List.mem_flatMap, List.mem_cons, List.not_mem_nil, or_false] at member
  rcases member with ⟨line, _, rfl | rfl | rfl⟩ | rfl | rfl <;> exact writeAll_tracks gone _

theorem writePing_tracks (gone : Gone sink) : writePing.Tracks sink := by
  apply Write.all_tracks
  intro w member
  simp only [List.mem_cons, List.not_mem_nil, or_false] at member
  rcases member with rfl | rfl <;> exact writeAll_tracks gone _

theorem frames_tracks (gone : Gone sink) (ps : List (List UInt8)) :
    (Write.all (ps.map writeDataFrame)).Tracks sink := by
  apply Write.all_tracks
  intro w member
  obtain ⟨p, _, rfl⟩ := List.mem_map.mp member
  exact writeDataFrame_tracks gone p

theorem terminateWithError_trails (gone : Gone sink) (codec : Json.Codec) (message : String)
    {d t : Downstream} (trails : d.Trails sink t lost) :
    ∃ lost', (terminateWithError codec message d).Trails sink
      (terminateWithError codec message t) lost' :=
  ⟨_, (writeDataFrame_tracks gone _).trails ((writeDataFrame_tracks gone _).trails trails)⟩

theorem Write.all_singleton (w : Write) : Write.all [w] = w := by
  funext d
  rw [Write.all]
  split <;> rename_i performed <;> rw [performed]
  rw [Write.all]

variable (codec : Json.Codec) (observe : Observer O)

namespace RewriteState

/-- A step is the reply to the event, performed on the writer. -/
theorem handleEvent_eq (event : Event) (s : RewriteState O) :
    s.handleEvent codec observe event =
      let answer := s.transformer.transform codec event
      let observed := match answer.2 with
        | .ok result => observe event result s.observed
        | .error _ => s.observed
      let s' := { s with transformer := answer.1, observed }
      match reply codec event answer.2 with
      | .send payloads => s'.write (.all (payloads.map writeDataFrame))
      | .close =>
        let final := s'.finishWith (writeDataFrame (Text.utf8 "[DONE]"))
        .stop final.1 final.2
      | .fail error =>
        let final := s'.failWith codec error.display (.transform error)
        .stop final.1 final.2 := by
  unfold handleEvent
  generalize s.transformer.transform codec event = answer
  obtain ⟨t, result⟩ := answer
  cases result with
  | ok r =>
    cases r with
    | done | emitted => rfl
    | swallowed =>
      dsimp only [reply]
      cases passThroughOpenaiChunk codec event with
      | some payload =>
        rw [Option.toList_some, List.map_singleton, Write.all_singleton]
      | none => rfl
  | error err =>
    dsimp only [reply, recover]
    cases codec.fromSlice event with
    | none => rfl
    | some value =>
      by_cases typeless : isTypeless value
      · simp only [typeless, if_true]
        by_cases chunk : isOpenaiChunk value
        · simp only [chunk, if_true, List.map_singleton, Write.all_singleton]
        · simp only [chunk, Bool.false_eq_true, if_false, List.map_nil]
          rfl
      · simp only [typeless, Bool.false_eq_true, if_false]

end RewriteState

section
variable (sink) (view : σ → Downstream)

/-- A client who stays gets more and more. -/
def Below (s t : σ) : Prop :=
  (view s).Healthy → (view t).Healthy ∧ (view s).written <+: (view t).written

def Together (f g : σ × Outcome) : Prop :=
  f.2 = g.2 ∧ ∃ lost, (view f.1).Trails sink (view g.1) lost

def LeftBehind (f : σ × Outcome) (t : σ) : Prop :=
  ∃ message, f.2 = .error (.downstreamWrite message) ∧
    (view f.1).Trails sink (view t) (some message)

theorem LeftBehind.mono {f : σ × Outcome} {t t' : σ} (left : LeftBehind sink view f t)
    (below : Below view t t') : LeftBehind sink view f t' := by
  obtain ⟨message, outcome, trails⟩ := left
  obtain ⟨healthy, grown⟩ := below trails.healthy
  exact ⟨message, outcome, trails.mono healthy grown⟩

theorem Below.refl (s : σ) : Below view s s := fun healthy => ⟨healthy, List.prefix_refl _⟩

theorem Write.Tracks.below {w : Write} (tracks : w.Tracks sink) (d : Downstream) :
    Below id d (w d).1 := fun healthy => (tracks.stays healthy).2

/-- The result of a run beside that of the same run to a client who stays. -/
def Config.Trails : Config R σ Outcome → Config R σ Outcome → Prop
  | .running r s, c => (view s).sink = sink ∧ (∀ n < (view s).calls, sink n = none) ∧
      ∃ t, c = .running r t ∧ (view t).written = (view s).written
  | .stopped s outcome, c => (view s).written <+: (view c.state).written ∧
      ((∃ t, c = .stopped t outcome) ∨ ∃ message, FailsWith sink (view s).calls message ∧
        outcome = .error (.downstreamWrite message))

variable {sink view} {mate : σ → σ → Prop}

/-- What goes on and stops together, or is left behind, trails. -/
theorem trails_of_follows {c c' : Config R σ Outcome}
    (level : ∀ s t, mate s t → (view s).Trails sink (view t) none)
    (follows : c.Follows mate (Together sink view) (LeftBehind sink view) c') :
    Config.Trails sink view c c' := by
  cases c with
  | running r s =>
    obtain ⟨t, rfl, mates⟩ := follows
    have trails := level s t mates
    obtain ⟨written, sound⟩ := trails.level rfl
    exact ⟨trails.same, sound, t, rfl, written⟩
  | stopped s outcome =>
    rcases follows with ⟨t, y, rfl, same, lost, trails⟩ | ⟨message, failed, trails⟩
    · obtain rfl : outcome = y := same
      exact ⟨trails.isPrefix, .inl ⟨t, rfl⟩⟩
    · exact ⟨trails.isPrefix, .inr ⟨message, (trails.behind message rfl).2, failed⟩⟩

end

namespace RewriteState

/-- States that differ in the writer only. -/
def Level (sink : Nat → Option (Nat × String)) (s t : RewriteState O) : Prop :=
  s.transformer = t.transformer ∧ s.observed = t.observed ∧
    s.downstream.Trails sink t.downstream none

theorem write_state (s : RewriteState O) (w : Write) :
    (s.write w).state.downstream = (w s.downstream).1 := by
  rw [write]
  split <;> rename_i performed <;> rw [performed] <;> rfl

theorem finishWith_state (s : RewriteState O) (w : Write) :
    (s.finishWith w).1.downstream = (w s.downstream).1 := by
  rw [finishWith]
  split <;> rename_i performed <;> rw [performed]

theorem write_follows {w : Write} (tracks : w.Tracks sink) {s t : RewriteState O}
    (level : Level sink s t) :
    (s.write w).Follows (Level sink) (Together sink downstream) (LeftBehind sink downstream)
      (t.write w) := by
  obtain ⟨transformer, observed, trails⟩ := level
  obtain ⟨taken, _, _⟩ := tracks.stays trails.healthy
  have written := tracks.trails trails
  cases performed : w s.downstream with
  | mk d result =>
    cases stayed : w t.downstream with
    | mk d' result' =>
      rw [stayed] at taken written
      dsimp only at taken
      subst taken
      rw [performed] at written
      cases result with
      | ok =>
        simp only [write, performed, stayed]
        exact ⟨transformer, observed, written⟩
      | error message =>
        simp only [write, performed, stayed]
        exact ⟨message, rfl, written⟩

theorem finishWith_follows {w : Write} (tracks : w.Tracks sink) {s t : RewriteState O}
    (trails : s.downstream.Trails sink t.downstream none) :
    Together sink downstream (s.finishWith w) (t.finishWith w) ∨
      LeftBehind sink downstream (s.finishWith w) (t.finishWith w).1 := by
  obtain ⟨taken, _, _⟩ := tracks.stays trails.healthy
  have written := tracks.trails trails
  cases performed : w s.downstream with
  | mk d result =>
    cases stayed : w t.downstream with
    | mk d' result' =>
      rw [stayed] at taken written
      dsimp only at taken
      subst taken
      rw [performed] at written
      cases result with
      | ok =>
        simp only [finishWith, performed, stayed]
        exact .inl ⟨rfl, none, written⟩
      | error message =>
        simp only [finishWith, performed, stayed]
        exact .inr ⟨message, rfl, written⟩

theorem failWith_together (gone : Gone sink) {s t : RewriteState O}
    (trails : s.downstream.Trails sink t.downstream none) (message : String) (error : RelayError) :
    Together sink downstream (s.failWith codec message error) (t.failWith codec message error) :=
  ⟨rfl, terminateWithError_trails gone codec message trails⟩

theorem handleEvent_follows (gone : Gone sink) {s t : RewriteState O} (level : Level sink s t)
    (event : Event) :
    (s.handleEvent codec observe event).Follows (Level sink) (Together sink downstream)
      (LeftBehind sink downstream) (t.handleEvent codec observe event) := by
  obtain ⟨transformer, observed, trails⟩ := level
  rw [handleEvent_eq, handleEvent_eq, transformer, observed]
  generalize t.transformer.transform codec event = answer
  dsimp only
  cases reply codec event answer.2 with
  | send payloads => exact write_follows (frames_tracks gone payloads) ⟨rfl, rfl, trails⟩
  | close => exact finishWith_follows (writeDataFrame_tracks gone _) trails
  | fail error => exact .inl (failWith_together codec gone trails _ _)

theorem handleEnd_follows (gone : Gone sink) {s t : RewriteState O} (level : Level sink s t)
    (ending : Ending) :
    Together sink downstream (s.handleEnd codec ending) (t.handleEnd codec ending) ∨
      LeftBehind sink downstream (s.handleEnd codec ending) (t.handleEnd codec ending).1 := by
  cases ending with
  | eof => exact finishWith_follows (writeDataFrame_tracks gone _) level.2.2
  | failed message => exact .inl (failWith_together codec gone level.2.2 _ _)

end RewriteState

/-- The rewriting relay to a client who leaves follows the one to a client who stays. -/
theorem rewrite_lockstep (gone : Gone sink) :
    (rewriteLoop codec observe).Lockstep (RewriteState.Level sink)
      (Together sink RewriteState.downstream) (LeftBehind sink RewriteState.downstream) where
  tick level := RewriteState.write_follows (writePing_tracks gone) level
  item level event := RewriteState.handleEvent_follows codec observe gone level event
  done level ending := RewriteState.handleEnd_follows codec gone level ending

/-- Failing or not, the frames that end a stream come after what was sent. -/
theorem terminateWithError_below (message : String) (d : Downstream) :
    Below id d (terminateWithError codec message d) := by
  intro healthy
  obtain ⟨healthy', written⟩ := terminateWithError_spec codec message (d := d) healthy
  refine ⟨healthy', ?_⟩
  rw [id, id, written]
  exact List.prefix_append _ _

theorem gone_healthy : Gone fun _ => none := fun _ _ _ failed => absurd rfl failed

theorem rewrite_grows :
    (rewriteLoop codec observe).Grows (Below RewriteState.downstream) where
  tick s := by
    intro healthy
    have grown := Write.Tracks.below _ (writePing_tracks gone_healthy) s.downstream healthy
    rw [← RewriteState.write_state] at grown
    exact grown
  item event s := by
    intro healthy
    rw [rewriteLoop]
    dsimp only
    rw [RewriteState.handleEvent_eq]
    dsimp only
    cases reply codec event (s.transformer.transform codec event).2 with
    | send payloads =>
      rw [RewriteState.write_state]
      exact Write.Tracks.below _ (frames_tracks gone_healthy payloads) _ healthy
    | close =>
      rw [Step.state, RewriteState.finishWith_state]
      exact Write.Tracks.below _ (writeDataFrame_tracks gone_healthy _) _ healthy
    | fail error => exact terminateWithError_below codec _ _ healthy
  done ending s := by
    intro healthy
    cases ending with
    | eof =>
      have grown := Write.Tracks.below _ (writeDataFrame_tracks gone_healthy (Text.utf8 "[DONE]"))
        s.downstream healthy
      rw [← RewriteState.finishWith_state] at grown
      exact grown
    | failed message => exact terminateWithError_below codec _ _ healthy

theorem attempt_state (d : Downstream) (w : Write) : (d.attempt w).state = (w d).1 := by
  rw [Downstream.attempt]
  split <;> rename_i performed <;> rw [performed] <;> rfl

theorem attempt_follows {w : Write} (tracks : w.Tracks sink) {d t : Downstream}
    (trails : d.Trails sink t none) :
    (d.attempt w).Follows (Downstream.Trails sink · · none) (Together sink id)
      (LeftBehind sink id) (t.attempt w) := by
  obtain ⟨taken, _, _⟩ := tracks.stays trails.healthy
  have written := tracks.trails trails
  cases performed : w d with
  | mk d' result =>
    cases stayed : w t with
    | mk t' result' =>
      rw [stayed] at taken written
      dsimp only at taken
      subst taken
      rw [performed] at written
      cases result with
      | ok =>
        simp only [Downstream.attempt, performed, stayed]
        exact written
      | error message =>
        simp only [Downstream.attempt, performed, stayed]
        exact ⟨message, rfl, written⟩

theorem passThrough_lockstep (gone : Gone sink) :
    passThroughLoop.Lockstep (Downstream.Trails sink · · none) (Together sink id)
      (LeftBehind sink id) where
  tick trails := attempt_follows (writePing_tracks gone) trails
  item trails event := by
    dsimp only [passThroughLoop]
    split
    · exact trails
    · exact attempt_follows (writeDataFrame_tracks gone _) trails
  done trails ending := by
    cases ending with
    | eof | failed => exact .inl ⟨rfl, none, trails⟩

theorem passThrough_grows : passThroughLoop.Grows (Below id) where
  tick d := by
    rw [passThroughLoop, attempt_state]
    exact Write.Tracks.below _ (writePing_tracks gone_healthy) d
  item event d := by
    dsimp only [passThroughLoop]
    split
    · exact Below.refl id d
    · rw [attempt_state]
      exact Write.Tracks.below _ (writeDataFrame_tracks gone_healthy _) d
  done ending d := by
    cases ending with
    | eof | failed => exact Below.refl id d

theorem trails_new : ({ sink } : Downstream).Trails sink { sink := fun _ => none } none :=
  .of_level rfl (fun _ => rfl) rfl fun _ below => absurd below (Nat.not_lt_zero _)

theorem rewrite_trails (gone : Gone sink) (reads : List (List UInt8)) (ending : Ending)
    (observed : O) (model : String) (config : RelayConfig) (turns : List Turn) :
    Config.Trails sink RewriteState.downstream
      (rewriteSseStreamWithCallback codec observe observed reads ending { sink } model config turns)
      (rewriteSseStreamWithCallback codec observe observed reads ending
        { sink := fun _ => none } model config turns) := by
  refine trails_of_follows (fun s t level => level.2.2)
    ((rewrite_lockstep codec observe gone).run Reading.source ?_ ?_ _)
  · intro final c t left
    exact left.mono _ _ ((rewrite_grows codec observe).turn (Below.refl _) Reading.source c t)
  · exact ⟨_, rfl, rfl, rfl, trails_new⟩

theorem passThrough_trails (gone : Gone sink) (reads : List (List UInt8)) (ending : Ending)
    (config : RelayConfig) (turns : List Turn) :
    Config.Trails sink id (passThroughSseStream reads ending { sink } config turns)
      (passThroughSseStream reads ending { sink := fun _ => none } config turns) := by
  refine trails_of_follows (fun s t level => level)
    ((passThrough_lockstep gone).run Reading.source ?_ ?_ _)
  · intro final c t left
    exact left.mono _ _ (passThrough_grows.turn (Below.refl _) Reading.source c t)
  · exact ⟨_, rfl, trails_new⟩

/-- One who is gone by the first configuration is noticed by the second. -/
def Config.Notices (sink : Nat → Option (Nat × String)) (view : σ → Downstream)
    (c c' : Config R σ Outcome) : Prop :=
  ∀ r s accepted message, c = .running r s → sink (view s).calls = some (accepted, message) →
    ∃ s', c' = .stopped s' (.error (.downstreamWrite message))

theorem writePing_fails {d : Downstream} (failed : d.sink d.calls = some (accepted, message)) :
    ∃ d', writePing d = (d', .error message) := by
  simp only [writePing, Write.all, writeAll, failed]
  exact ⟨_, rfl⟩

theorem schedule_tick {config : RelayConfig} (enabled : config.keepaliveInterval ≠ 0)
    (turns : List Turn) : config.schedule (turns ++ [.tick]) = config.schedule turns ++ [.tick] := by
  simp only [RelayConfig.schedule, if_neg enabled]

/-- When a tick writes a ping, it notices. -/
theorem notices_of_tick {loop : Loop σ Event Ending Outcome} {view : σ → Downstream}
    {source : Source R Event Ending} {c : Config R σ Outcome} {config : RelayConfig}
    {turns : List Turn}
    (fails : ∀ s d' message, writePing (view s) = (d', .error message) →
      ∃ s', loop.onTick s = .stop s' (.error (.downstreamWrite message)))
    (enabled : config.keepaliveInterval ≠ 0)
    (same : ∀ r s, loop.run source c (config.schedule turns) = .running r s → (view s).sink = sink) :
    Config.Notices sink view (loop.run source c (config.schedule turns))
      (loop.run source c (config.schedule (turns ++ [.tick]))) := by
  intro r s accepted message running failed
  rw [← same r s running] at failed
  obtain ⟨d', pinged⟩ := writePing_fails failed
  obtain ⟨s', stops⟩ := fails s d' message pinged
  rw [schedule_tick enabled, Loop.run_append, running, Loop.run_cons, Loop.run_nil, Loop.turn, stops]
  exact ⟨s', rfl⟩

theorem rewrite_notices (gone : Gone sink) (reads : List (List UInt8)) (ending : Ending)
    (observed : O) (model : String) {config : RelayConfig} (enabled : config.keepaliveInterval ≠ 0)
    (turns : List Turn) :
    Config.Notices sink RewriteState.downstream
      (rewriteSseStreamWithCallback codec observe observed reads ending { sink } model config turns)
      (rewriteSseStreamWithCallback codec observe observed reads ending { sink } model config
        (turns ++ [.tick])) := by
  refine notices_of_tick (fun s d' message pinged => ?_) enabled fun r s running => ?_
  · refine ⟨{ s with downstream := d' }, ?_⟩
    simp only [rewriteLoop, RewriteState.keepalive, RewriteState.write, pinged]
  · have trails := rewrite_trails codec observe gone reads ending observed model config turns
    rw [rewriteSseStreamWithCallback, running] at trails
    exact trails.1

theorem passThrough_notices (gone : Gone sink) (reads : List (List UInt8)) (ending : Ending)
    {config : RelayConfig} (enabled : config.keepaliveInterval ≠ 0) (turns : List Turn) :
    Config.Notices sink id (passThroughSseStream reads ending { sink } config turns)
      (passThroughSseStream reads ending { sink } config (turns ++ [.tick])) := by
  refine notices_of_tick (fun d d' message pinged => ?_) enabled fun r s running => ?_
  · refine ⟨d', ?_⟩
    rw [id] at pinged
    simp only [passThroughLoop, Downstream.attempt, pinged]
  · have trails := passThrough_trails gone reads ending config turns
    rw [passThroughSseStream, running] at trails
    exact trails.1

/-- Both relays, over every upstream, configuration and schedule, to a client who takes
nothing more once a write has failed: while the relay runs, no write has failed and the
client has got what one who stays would have. When it has returned, the client has got a
prefix of that, and the relay returns what it would return to one who stays, or the error of
the first write that failed. With keepalives enabled the next one ends a relay whose client is
gone, whatever the upstream does. -/
theorem client_leaves (gone : Gone sink) (reads : List (List UInt8)) (ending : Ending)
    (observed : O) (model : String) (config : RelayConfig) (turns : List Turn) :
    (Config.Trails sink RewriteState.downstream
      (rewriteSseStreamWithCallback codec observe observed reads ending { sink } model config turns)
      (rewriteSseStreamWithCallback codec observe observed reads ending
        { sink := fun _ => none } model config turns) ∧
    Config.Trails sink id (passThroughSseStream reads ending { sink } config turns)
      (passThroughSseStream reads ending { sink := fun _ => none } config turns)) ∧
    (config.keepaliveInterval ≠ 0 →
      Config.Notices sink RewriteState.downstream
        (rewriteSseStreamWithCallback codec observe observed reads ending { sink } model config
          turns)
        (rewriteSseStreamWithCallback codec observe observed reads ending { sink } model config
          (turns ++ [.tick])) ∧
      Config.Notices sink id (passThroughSseStream reads ending { sink } config turns)
        (passThroughSseStream reads ending { sink } config (turns ++ [.tick]))) :=
  ⟨⟨rewrite_trails codec observe gone reads ending observed model config turns,
    passThrough_trails gone reads ending config turns⟩, fun enabled =>
    ⟨rewrite_notices codec observe gone reads ending observed model enabled turns,
      passThrough_notices gone reads ending enabled turns⟩⟩

namespace Sample

/-- A client who closes the connection in the middle of the fourth write. -/
def closes (n : Nat) : Option (Nat × String) :=
  if n < 3 then none else if n = 3 then some (2, "broken pipe") else some (0, "broken pipe")

theorem closes_gone : Gone closes := by
  intro n m later failed
  have late : ¬ n < 3 := fun early => failed (if_pos early)
  exact ⟨"broken pipe", by rw [closes, if_neg (by omega), if_neg (by omega)]⟩

end Sample

/-- A client of the copying relay who closes the connection inside the first frame. -/
theorem client_leaves_closes :
    Config.Trails Sample.closes id
      (passThroughSseStream [Text.utf8 "data: a\n\ndata: b\n\n"] .eof { sink := Sample.closes } {}
        [.poll, .tick, .poll])
      (passThroughSseStream [Text.utf8 "data: a\n\ndata: b\n\n"] .eof { sink := fun _ => none } {}
        [.poll, .tick, .poll]) :=
  (client_leaves JsonText.codec (fun _ _ u => u) Sample.closes_gone
    [Text.utf8 "data: a\n\ndata: b\n\n"] .eof () "gpt-5" {} [.poll, .tick, .poll]).1.2

end CodexProxy.Relay
