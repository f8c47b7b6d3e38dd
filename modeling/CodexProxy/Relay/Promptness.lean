import CodexProxy.Relay.Replies
import CodexProxy.Relay.RoundTrip

/-! The relays are prompt. At every moment the client has been sent what the events call for
that are complete in the octets taken, and a relay takes all that it has received before it
waits for more. -/
namespace CodexProxy.Relay
open Bytes EventStream Transform Polling

/-- Some reads have been received, and of their octets some have been taken. While the
upstream goes on, the reader is where these octets bring it. -/
structure Reading.Follows (reads : List (List UInt8)) (ending : Ending)
    (received : List (List UInt8)) (taken : List UInt8) (r : Reading) : Prop where
  reads : received ++ r.upstream.reads = reads
  octets : taken ++ r.upstream.buffer = received.flatten
  ending : r.upstream.ending = ending
  reader : r.reader.eof = false → (({} : SseEventReader).scan taken).1 = r.reader

/-- Runs of a relay after which the client has what `sends` makes of the events, both of
those taken and, once the octets at hand are worked off, of those received. -/
def Prompt (reads : List (List UInt8)) (ending : Ending) (out : σ → Downstream)
    (sends : List Event → List (List UInt8)) (run : List Turn → Config Reading σ Outcome) : Prop :=
  ∀ turns r s, run turns = .running r s → r.reader.eof = false →
    ∃ received taken, r.Follows reads ending received taken ∧
      Sent (out s) (sends (({} : SseEventReader).scan taken).2) ∧
      ∃ polls : List Turn, (∀ t ∈ polls, t = .poll) ∧
        ((∃ s' outcome, run (turns ++ polls) = .stopped s' outcome) ∨
          ∃ r' s', run (turns ++ polls) = .running r' s' ∧
            r'.upstream.reads = r.upstream.reads ∧ r'.upstream.buffer = [] ∧
            Sent (out s') (sends (({} : SseEventReader).scan received.flatten).2))

namespace Reading

/-- What one turn takes: octets at hand, a read when there are none, or the end. -/
inductive Takes (r r' : Reading) : Prop where
  | octets (goesOn : r.reader.eof = false) (bs : List UInt8) (some : bs ≠ [])
      (upstream : r.upstream = { r'.upstream with buffer := bs ++ r'.upstream.buffer })
      (goesOn' : r'.reader.eof = false) (reader : (r.reader.scan bs).1 = r'.reader)
  | read (empty : r.upstream.buffer = [])
      (reads : r.upstream.reads = r'.upstream.buffer :: r'.upstream.reads)
      (ending : r'.upstream.ending = r.upstream.ending) (reader : r'.reader = r.reader)
  | ended (closed : r'.reader.eof = true) (upstream : r'.upstream = r.upstream)
      (empty : r.reader.eof = false → r.upstream.buffer = [])

theorem lineDone_keeps (processed : SseEventReader × Bool) (upstream : Upstream)
    (clean : newline ∉ processed.1.line) :
    (lineDone processed upstream clean).Keeps fun r => r.upstream = upstream ∧
      r.reader = if processed.2 then processed.1.takePendingEvent.1 else processed.1 := by
  unfold lineDone
  split
  · split
    · exact ⟨rfl, rfl⟩
    · rename_i taken
      exact ⟨rfl, (takePendingEvent_none taken).symm⟩
  · exact ⟨rfl, rfl⟩

/-- A line with its newline is closed. -/
theorem lineRead_keeps (reader : SseEventReader) (line : List UInt8) (upstream : Upstream)
    (n : Nat) : (lineRead { reader with line := line ++ [newline] } upstream (n + 1)).Keeps
      fun r => r.upstream = upstream ∧ r.reader = ({ reader with line := [] }.closeLine line).1 := by
  simp only [lineRead, List.getLast?_append, List.getLast?_singleton, Option.some_or, ne_eq,
    not_true_eq_false, or_false, Nat.add_eq_zero_iff, Nat.one_ne_zero, and_false, if_false,
    List.dropLast_concat]
  have kept := lineDone_keeps ({ reader with line := [] }.processLine line) upstream (by simp)
  rw [SseEventReader.closeLine]
  split at kept
  · rename_i boundary
    rwa [if_pos boundary]
  · rename_i inside
    rwa [if_neg inside]

theorem closeLine_eof (reader : SseEventReader) (line : List UInt8) :
    (reader.closeLine line).1.eof = reader.eof := by
  unfold SseEventReader.closeLine SseEventReader.takePendingEvent
  dsimp only
  split
  · split <;> simp
  · simp

theorem advance_takes (r : Reading) : r.advance.Keeps r.Takes := by
  unfold advance
  split
  · rename_i ended
    split
    · rename_i event taken
      have closed := (takePendingEvent_some taken).2.2.1
      exact .ended (closed.trans ended) rfl (by simp [ended])
    · trivial
  · rename_i notEnded
    have running : r.reader.eof = false := by simpa using notEnded
    split
    · rename_i b rest found
      have atNewline : b = newline := by
        have head := List.head?_dropWhile_not (· != newline) r.upstream.buffer
        rw [found] at head
        simpa using head
      subst atNewline
      have buffer : r.upstream.buffer =
          (r.upstream.buffer.takeWhile (· != newline) ++ [newline]) ++ rest := by
        rw [List.append_assoc, List.singleton_append, ← found, List.takeWhile_append_dropWhile]
      have clean : newline ∉ r.upstream.buffer.takeWhile (· != newline) := by
        intro member
        simpa using List.mem_takeWhile_imp member
      have scanned := congrArg Prod.fst (SseEventReader.scan_line r.reader clean)
      have kept := lineRead_keeps r.reader
        (r.reader.line ++ r.upstream.buffer.takeWhile (· != newline))
        { r.upstream with buffer := rest }
        (r.count + (r.upstream.buffer.takeWhile (· != newline)).length)
      refine kept.imp ?_
      rintro r' ⟨upstream, reader⟩
      refine .octets running _ (by simp) ?_ ?_ (scanned.trans reader.symm)
      · rw [upstream, ← buffer]
      · rw [reader, closeLine_eof]
        exact running
    · rename_i found
      split
      · rename_i nonempty
        have clean : newline ∉ r.upstream.buffer := by
          simp only [List.dropWhile_eq_nil_iff, bne_iff_ne, ne_eq] at found
          exact fun member => found _ member rfl
        have scanned := congrArg Prod.fst (SseEventReader.scan_clean r.reader clean)
        exact .octets running r.upstream.buffer nonempty (by simp) running scanned
      · rename_i empty
        simp only [ne_eq, Decidable.not_not] at empty
        split
        · rename_i read reads more
          exact .read empty more rfl rfl
        · split
          · trivial
          · have unterminated : r.count = 0 ∨ r.reader.line.getLast? ≠ some newline :=
              .inr fun last => r.clean (List.mem_of_getLast? last)
            simp only [lineRead, if_pos unterminated]
            split
            · exact .ended rfl rfl fun _ => empty
            · exact .ended (SseEventReader.processLine_eof ..) rfl fun _ => empty

theorem follows_new (reads : List (List UInt8)) (ending : Ending) :
    (new reads ending).Follows reads ending [] [] :=
  ⟨rfl, rfl, rfl, fun _ => rfl⟩

/-- Where a reading is after one more turn. -/
theorem Follows.advance {reads received : List (List UInt8)} {ending : Ending} {taken : List UInt8}
    {r : Reading} (follows : r.Follows reads ending received taken) :
    r.advance.Keeps fun r' => ∃ received' taken', r'.Follows reads ending received' taken' := by
  refine r.advance_takes.imp fun r' takes => ?_
  cases takes with
  | octets goesOn bs some upstream _ reader =>
    refine ⟨received, taken ++ bs, ?_, ?_, ?_, fun _ => ?_⟩
    · rw [← follows.reads, upstream]
    · rw [← follows.octets, upstream, List.append_assoc]
    · rw [← follows.ending, upstream]
    · rw [SseEventReader.scan_append, follows.reader goesOn, ← reader]
  | read empty reads' ending' reader =>
    refine ⟨received ++ [r'.upstream.buffer], taken, ?_, ?_, ?_, fun goesOn => ?_⟩
    · rw [← follows.reads, reads', List.append_assoc, List.singleton_append]
    · have octets := follows.octets
      rw [empty, List.append_nil] at octets
      rw [octets, List.flatten_append, List.flatten_singleton]
    · rw [← follows.ending, ending']
    · rw [reader] at goesOn ⊢
      exact follows.reader goesOn
  | ended closed upstream =>
    refine ⟨received, taken, ?_, ?_, ?_, ?_⟩
    · rw [upstream, follows.reads]
    · rw [upstream, follows.octets]
    · rw [upstream, follows.ending]
    · rw [closed]
      rintro ⟨⟩

/-- The items of a reading are the events of the octets that it has still to take. -/
theorem Follows.events {reads received : List (List UInt8)} {ending : Ending}
    {taken : List UInt8} {r : Reading} (follows : r.Follows reads ending received taken)
    (goesOn : r.reader.eof = false) :
    eventsOf reads.flatten ending = (({} : SseEventReader).scan taken).2 ++ r.events := by
  have octets : reads.flatten = taken ++ r.upstream.rest := by
    rw [← follows.reads, List.flatten_append, ← follows.octets, List.append_assoc, Upstream.rest]
  rw [eventsOf, octets, SseEventReader.remaining_append, follows.reader goesOn, Reading.events,
    if_neg (by simp [goesOn]), follows.ending]

/-- Polls alone work off the octets at hand, and take no read. By induction on these
octets. -/
theorem polls_buffered (loop : Loop σ Event Ending ρ) (r : Reading) (s : σ)
    (goesOn : r.reader.eof = false) :
    ∃ polls : List Turn, (∀ t ∈ polls, t = .poll) ∧
      ((∃ s' result, loop.run source (.running r s) polls = .stopped s' result) ∨
        ∃ r' s', loop.run source (.running r s) polls = .running r' s' ∧
          r'.upstream.reads = r.upstream.reads ∧ r'.upstream.buffer = [] ∧
          r'.reader.eof = false) := by
  induction bound : r.upstream.buffer.length using Nat.strongRecOn generalizing r s with
  | _ n ih =>
    by_cases empty : r.upstream.buffer = []
    · exact ⟨[], by simp, .inr ⟨r, s, rfl, rfl, empty, goesOn⟩⟩
    · -- one poll takes octets, and then the others follow
      have next {r₁ : Reading} (takes : r.Takes r₁) (s₁ : σ)
          (turned : loop.turn source (.running r s) .poll = .running r₁ s₁) :
          ∃ polls : List Turn, (∀ t ∈ polls, t = .poll) ∧
            ((∃ s' result, loop.run source (.running r s) polls = .stopped s' result) ∨
              ∃ r' s', loop.run source (.running r s) polls = .running r' s' ∧
                r'.upstream.reads = r.upstream.reads ∧ r'.upstream.buffer = [] ∧
                r'.reader.eof = false) := by
        cases takes with
        | read none => exact (empty none).elim
        | ended _ _ none => exact (empty (none goesOn)).elim
        | octets _ bs some upstream goesOn₁ =>
          have fewer : r₁.upstream.buffer.length < n := by
            have length := List.length_pos_iff.mpr some
            rw [← bound, upstream, List.length_append]
            omega
          obtain ⟨polls, only, reached⟩ := ih _ fewer r₁ s₁ goesOn₁ rfl
          refine ⟨.poll :: polls, by simpa using only, ?_⟩
          have reads : r₁.upstream.reads = r.upstream.reads := by rw [upstream]
          rw [Loop.run_cons, turned, ← reads]
          exact reached
      have takes := r.advance_takes
      cases advanced : r.advance with
      | more r₁ =>
        rw [advanced] at takes
        exact next takes s (by simp [Loop.turn, source, advanced])
      | item e r₁ =>
        rw [advanced] at takes
        cases handled : loop.onItem e s with
        | next s₁ => exact next takes s₁ (by simp [Loop.turn, source, advanced, handled])
        | stop s₁ result =>
          exact ⟨[.poll], by simp, .inl ⟨s₁, result, by simp [Loop.turn, source, advanced, handled]⟩⟩
      | done x =>
        exact ⟨[.poll], by simp, .inl ⟨_, _, by simp [Loop.turn, source, advanced]; exact ⟨rfl, rfl⟩⟩⟩

end Reading

theorem RelayConfig.schedule_append (config : RelayConfig) (turns : List Turn) {polls : List Turn}
    (only : ∀ t ∈ polls, t = .poll) :
    config.schedule (turns ++ polls) = config.schedule turns ++ polls := by
  have kept : polls.filter (· = .poll) = polls := List.filter_eq_self.mpr (by simpa using only)
  unfold schedule
  split
  · rw [List.filter_append, kept]
  · rfl

/-- A relay is prompt if what it sends is what its handler collects. -/
theorem prompt_of_simulation {loop : Loop σ Event Ending Outcome}
    {spec : Handler τ Event Ending υ} (sim : Simulation loop spec) (config : RelayConfig)
    (reads : List (List UInt8)) (ending : Ending) {s₀ : σ} {t₀ : τ} (related : sim.rel s₀ t₀)
    {out : σ → Downstream} {sends : List Event → List (List UInt8)}
    (collects : ∀ events s t, spec.steps events t₀ = some t → sim.rel s t →
      Sent (out s) (sends events)) :
    Prompt reads ending out sends fun turns => loop.run Reading.source
      (.running (Reading.new reads ending) s₀) (config.schedule turns) := by
  let inv (r : Reading) : Prop := ∃ received taken, r.Follows reads ending received taken
  -- what has been sent at any moment
  have sent {turns : List Turn} {r : Reading} {s : σ} (goesOn : r.reader.eof = false)
      (runs : loop.run Reading.source (.running (Reading.new reads ending) s₀) turns =
        .running r s) : ∃ received taken, r.Follows reads ending received taken ∧
          Sent (out s) (sends (({} : SseEventReader).scan taken).2) := by
    obtain ⟨received, taken, follows⟩ : inv r :=
      Loop.run_source (fun r known => by obtain ⟨_, _, follows⟩ := known; exact follows.advance)
        (fun r known => by
          obtain ⟨received, taken, follows⟩ := known
          exact ⟨received, taken, follows.1, follows.2, follows.3, follows.4⟩)
        ⟨[], [], Reading.follows_new reads ending⟩ runs
    obtain ⟨events, t, items, stepped, related'⟩ := sim.running Reading.source related runs
    refine ⟨received, taken, follows, ?_⟩
    rw [Reading.source_items_new, follows.events goesOn] at items
    rw [List.append_cancel_right items]
    exact collects events s t stepped related'
  intro turns r s runs goesOn
  dsimp only at runs
  obtain ⟨received, taken, follows, now⟩ := sent goesOn runs
  refine ⟨received, taken, follows, now, ?_⟩
  obtain ⟨polls, only, reached⟩ := Reading.polls_buffered loop r s goesOn
  refine ⟨polls, only, ?_⟩
  simp only [config.schedule_append turns only, Loop.run_append, runs]
  refine reached.imp_right ?_
  rintro ⟨r', s', runs', reads', empty, goesOn'⟩
  refine ⟨r', s', runs', reads', empty, ?_⟩
  have whole : loop.run Reading.source (.running (Reading.new reads ending) s₀)
      (config.schedule turns ++ polls) = .running r' s' := by
    rw [Loop.run_append, runs]
    exact runs'
  obtain ⟨received', taken', follows', later⟩ := sent goesOn' whole
  have same : received' = received := by
    have all := follows'.reads.trans follows.reads.symm
    rw [reads'] at all
    exact List.append_cancel_right all
  have octets := follows'.octets
  rw [empty, List.append_nil, same] at octets
  rwa [octets] at later

/-- The pass-through handler copies. -/
theorem passThrough_steps (events : List Event) (ps : List (List UInt8)) :
    passThrough.steps events ps = some (ps ++ copied events) := by
  induction events generalizing ps with
  | nil => simp [Handler.steps, copied]
  | cons event events ih =>
    rw [Handler.steps]
    simp only [passThrough] at ih ⊢
    rw [ih, List.append_assoc]
    by_cases empty : passThroughPayload event = []
    · simp [copied, empty]
    · simp [copied, empty]

section
variable (codec : Json.Codec)

/-- The rewriting handler goes on only after an event that continues. -/
theorem relay_continues {event : Event} {t t' : SSETransformer × List (List UInt8)}
    (goesOn : (relay codec).onItem event t = .next t') : continues codec event = true := by
  simp only [relay] at goesOn
  rw [continues, Bool.and_eq_true, Bool.not_eq_true', Bool.not_eq_true', stops, aborts]
  cases denotes : interpret codec event with
  | stop => simp [reply_stops codec t.1 denotes, reply] at goesOn
  | reject err =>
    simp only [SSETransformer.transform_eq, denotes, Action.apply, Except.map, reply,
      recover] at goesOn
    cases decoded : codec.fromSlice event with
    | none => simp [decoded] at goesOn
    | some value =>
      cases typeless : isTypeless value with
      | true => simp [typeless]
      | false => simp [decoded, typeless] at goesOn
  | _ => exact ⟨rfl, rfl⟩

/-- What the rewriting handler collects, by induction on the events. -/
theorem relay_steps (model : String) (events before : List Event) {ps : List (List UInt8)}
    {t : SSETransformer × List (List UInt8)}
    (stepped : (relay codec).steps events ((SSETransformer.new model).after codec before, ps) =
      some t) : t.2 = ps ++ sendsAll codec model before events := by
  induction events generalizing before ps with
  | nil =>
    cases stepped
    simp [sendsAll]
  | cons event events ih =>
    rw [Handler.steps] at stepped
    cases handled : (relay codec).onItem event
        ((SSETransformer.new model).after codec before, ps) with
    | stop s closing => simp [handled] at stepped
    | next s =>
      have running := relay_continues codec handled
      have answer := reply_continues codec model before running
      have moved : (((SSETransformer.new model).after codec before).transform codec event).1 =
          (SSETransformer.new model).after codec (before ++ [event]) := by
        rw [after_append]
        rfl
      have known := handled
      simp only [relay, answer, moved, Step.next.injEq] at known
      simp only [handled, ← known] at stepped
      rw [ih (before ++ [event]) stepped, sendsAll, List.append_assoc]

/-- Both relays, over every division into reads, with every configuration and schedule: as
long as the upstream goes on, the client has at every moment been sent exactly what the
events call for that are complete in the octets taken, and the octets that have been
received are all taken without waiting for more. -/
theorem relays_promptly (observe : Observer O) (observed : O) (model : String)
    (config : RelayConfig) (reads : List (List UInt8)) (ending : Ending) {downstream : Downstream}
    (healthy : downstream.Healthy) (empty : downstream.written = []) :
    Prompt reads ending RewriteState.downstream (sendsAll codec model [])
      (rewriteSseStreamWithCallback codec observe observed reads ending downstream model config) ∧
    Prompt reads ending id copied (passThroughSseStream reads ending downstream config) := by
  constructor
  · have start : RewriteState.Matches
        { transformer := SSETransformer.new model, downstream, observed }
        (SSETransformer.new model, []) := ⟨rfl, sent_new healthy empty⟩
    refine prompt_of_simulation (rewriteSimulation codec observe) config reads ending start ?_
    rintro events s t stepped ⟨_, sent⟩
    have collected := relay_steps codec model events [] stepped
    rw [List.nil_append] at collected
    exact collected ▸ sent
  · refine prompt_of_simulation passThroughSimulation config reads ending
      (sent_new healthy empty) ?_
    intro events d ps stepped sent
    rw [passThrough_steps, List.nil_append, Option.some.injEq] at stepped
    exact stepped ▸ sent

end

/-- An event is passed on while the next one is still being received. -/
theorem relays_promptly_first : ∃ r d,
    passThroughSseStream [Text.utf8 "data: a\n\n", Text.utf8 "data: b"] .eof
      { sink := fun _ => none } {} [.poll, .tick, .poll, .poll] = .running r d ∧
    r.upstream.reads = [Text.utf8 "data: b"] ∧ Sent d [Text.utf8 "a"] := by
  refine ⟨_, _, rfl, rfl, ?_⟩
  obtain ⟨_, prompt⟩ := relays_promptly JsonText.codec (fun _ _ u => u) () "gpt-5" {}
    [Text.utf8 "data: a\n\n", Text.utf8 "data: b"] .eof
    (show Downstream.Healthy { sink := fun _ => none } from fun _ => rfl) rfl
  obtain ⟨received, taken, follows, sent, _⟩ := prompt [.poll, .tick, .poll, .poll] _ _ rfl rfl
  have all : received ++ [Text.utf8 "data: b"] =
    [Text.utf8 "data: a\n\n"] ++ [Text.utf8 "data: b"] := follows.reads
  have octets : taken ++ [] = received.flatten := follows.octets
  rw [List.append_cancel_right all, List.append_nil, List.flatten_singleton] at octets
  rw [octets] at sent
  exact sent

end CodexProxy.Relay
