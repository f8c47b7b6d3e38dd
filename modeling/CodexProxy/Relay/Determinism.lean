import CodexProxy.Relay.Refinement
import CodexProxy.Library.ReferenceCodec

/-! Reads and ticks are invisible. A tick may drop `next_event` anywhere, in the
middle of a line or of an event, and still two relays of the same octets write the
same frames and return the same result. -/
namespace CodexProxy.Relay
open Bytes EventStream Transform Polling

variable (codec : Json.Codec)

/-- Frames already sent, without their pings. -/
theorem Sent.withoutPings {d : Downstream} (sent : Sent d ps) :
    withoutPings d.written = some (encode (ps.map .data)) := by
  obtain ⟨_, frames, written, rfl⟩ := sent
  rw [written, withoutPings_encode]

theorem Closed.withoutPings {d : Downstream} (closed : Closed d ps closing) :
    withoutPings d.written = some (encode ((ps ++ closing).map .data)) := by
  obtain ⟨frames, written, rfl⟩ := closed
  rw [written, withoutPings_encode, payloads_append, payloads_map_data]

/-- The output of a relay run that returned, and its result, are functions of the
upstream's octets. -/
theorem rewrite_output (observe : Observer O) {downstream : Downstream} {config : RelayConfig}
    {turns : List Turn} (healthy : downstream.Healthy) (empty : downstream.written = [])
    (returned : rewriteSseStreamWithCallback codec observe observed reads ending downstream model
      config turns = .stopped s outcome) :
    let relayed := relayAll codec model reads.flatten ending
    withoutPings s.downstream.written =
        some (encode ((relayed.1.2 ++ relayed.2.frames).map .data)) ∧
      outcome = relayed.2.outcome := by
  obtain ⟨same, closed⟩ := rewrite_spec codec observe healthy empty returned
  exact ⟨closed.withoutPings, same⟩

theorem passThrough_output {downstream : Downstream} {config : RelayConfig} {turns : List Turn}
    (healthy : downstream.Healthy) (empty : downstream.written = [])
    (returned : passThroughSseStream reads ending downstream config turns = .stopped d outcome) :
    let passed := passThrough.fold (eventsOf reads.flatten ending) ending []
    withoutPings d.written = some (encode (passed.1.map .data)) ∧ outcome = passed.2 := by
  obtain ⟨same, sent⟩ := passThrough_spec healthy empty returned
  exact ⟨sent.withoutPings, same⟩

/-- Two runs that agree on the upstream's octets and ending agree on the frames they
write and on their result, whatever the reads, the configurations and the schedules.
Runs that are polled often enough do return (`rewrite_returns`). -/
theorem reads_and_ticks_invisible (model : String) (ending : Ending)
    {reads₁ reads₂ : List (List UInt8)} (same : reads₁.flatten = reads₂.flatten)
    (config₁ config₂ : RelayConfig) {d₁ d₂ : Downstream} (healthy₁ : d₁.Healthy)
    (healthy₂ : d₂.Healthy) (empty₁ : d₁.written = []) (empty₂ : d₂.written = []) :
    ∃ polls, ∀ turns₁ turns₂ : List Turn,
      polls ≤ turns₁.count .poll → polls ≤ turns₂.count .poll →
      (∃ s₁ s₂ result output,
        rewriteSseStream codec reads₁ ending d₁ model config₁ turns₁ = .stopped s₁ result ∧
        rewriteSseStream codec reads₂ ending d₂ model config₂ turns₂ = .stopped s₂ result ∧
        withoutPings s₁.downstream.written = some output ∧
        withoutPings s₂.downstream.written = some output) ∧
      (∃ e₁ e₂ result output,
        passThroughSseStream reads₁ ending d₁ config₁ turns₁ = .stopped e₁ result ∧
        passThroughSseStream reads₂ ending d₂ config₂ turns₂ = .stopped e₂ result ∧
        withoutPings e₁.written = some output ∧ withoutPings e₂.written = some output) := by
  refine ⟨(Reading.new reads₁ ending).size + (Reading.new reads₂ ending).size + 1, ?_⟩
  intro turns₁ turns₂ polls₁ polls₂
  constructor
  · obtain ⟨s₁, result₁, stopped₁⟩ := rewrite_returns codec (fun _ _ u => u) () reads₁ ending d₁
      model config₁ turns₁ (by omega)
    obtain ⟨s₂, result₂, stopped₂⟩ := rewrite_returns codec (fun _ _ u => u) () reads₂ ending d₂
      model config₂ turns₂ (by omega)
    have output₁ := rewrite_output codec (fun _ _ u => u) healthy₁ empty₁ stopped₁
    have output₂ := rewrite_output codec (fun _ _ u => u) healthy₂ empty₂ stopped₂
    rw [← same] at output₂
    refine ⟨s₁, s₂, result₁, _, stopped₁, ?_, output₁.1, output₂.1⟩
    rw [output₁.2, ← output₂.2]
    exact stopped₂
  · obtain ⟨e₁, result₁, stopped₁⟩ := passThrough_returns reads₁ ending d₁ config₁
      turns₁ (by omega)
    obtain ⟨e₂, result₂, stopped₂⟩ := passThrough_returns reads₂ ending d₂ config₂
      turns₂ (by omega)
    have output₁ := passThrough_output healthy₁ empty₁ stopped₁
    have output₂ := passThrough_output healthy₂ empty₂ stopped₂
    rw [← same] at output₂
    refine ⟨e₁, e₂, result₁, _, stopped₁, ?_, output₁.1, output₂.1⟩
    rw [output₁.2, ← output₂.2]
    exact stopped₂

/-- For instance one event in one read without keepalive, and in three reads with it. -/
theorem reads_and_ticks_invisible_three :
    ∃ polls, ∀ turns₁ turns₂ : List Turn,
      polls ≤ turns₁.count .poll → polls ≤ turns₂.count .poll →
      (∃ s₁ s₂ result output,
        rewriteSseStream JsonText.codec [Text.utf8 "data: a\n\n"] .eof { sink := fun _ => none }
          "gpt-5" { keepaliveInterval := 0 } turns₁ = .stopped s₁ result ∧
        rewriteSseStream JsonText.codec [Text.utf8 "dat", Text.utf8 "a: a\n", Text.utf8 "\n"] .eof
          { sink := fun _ => none } "gpt-5" {} turns₂ = .stopped s₂ result ∧
        withoutPings s₁.downstream.written = some output ∧
        withoutPings s₂.downstream.written = some output) ∧
      (∃ e₁ e₂ result output,
        passThroughSseStream [Text.utf8 "data: a\n\n"] .eof { sink := fun _ => none }
          { keepaliveInterval := 0 } turns₁ = .stopped e₁ result ∧
        passThroughSseStream [Text.utf8 "dat", Text.utf8 "a: a\n", Text.utf8 "\n"] .eof
          { sink := fun _ => none } {} turns₂ = .stopped e₂ result ∧
        withoutPings e₁.written = some output ∧ withoutPings e₂.written = some output) :=
  reads_and_ticks_invisible JsonText.codec "gpt-5" .eof (by decide) { keepaliveInterval := 0 } {}
    (fun _ => rfl) (fun _ => rfl) rfl rfl

end CodexProxy.Relay
