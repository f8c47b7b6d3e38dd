import CodexProxy.Relay.Replies

/-! Relays that return `Ok`. Nothing that such a relay wrote failed, so whatever its
client did, its run is one to a client that accepts every write. -/
namespace CodexProxy.Relay
open Bytes EventStream Transform Polling

variable (codec : Json.Codec)

namespace RewriteState

/-- The same state over a sink that never fails. -/
def heal (s : RewriteState O) : RewriteState O := { s with downstream := s.downstream.heal }

theorem write_heal {w : Write} (heals : w.Heals) (s : RewriteState O)
    (accepted : (s.write w).Accepts (· = .ok ())) :
    s.heal.write w = (s.write w).map heal := by
  cases performed : w s.downstream with
  | mk d result =>
    cases result with
    | ok =>
      have healed := heals _ _ performed
      simp only [write, heal, performed, healed]
      rfl
    | error message =>
      simp only [write, performed] at accepted
      cases accepted

theorem finishWith_heal {w : Write} (heals : w.Heals) (s : RewriteState O)
    (accepted : (s.finishWith w).2 = .ok ()) :
    s.heal.finishWith w = ((s.finishWith w).1.heal, (s.finishWith w).2) := by
  cases performed : w s.downstream with
  | mk d result =>
    cases result with
    | ok =>
      have healed := heals _ _ performed
      simp only [finishWith, heal, performed, healed]
    | error message =>
      simp only [finishWith, performed] at accepted
      cases accepted

theorem frames_heal (ps : List (List UInt8)) : (Write.all (ps.map writeDataFrame)).Heals := by
  apply Write.all_heals
  intro w member
  obtain ⟨p, _, rfl⟩ := List.mem_map.mp member
  exact writeDataFrame_heals p

/-- One event: an answer with an error is not a success. -/
theorem handleEvent_heal (observe : Observer O) (event : Event) (s : RewriteState O)
    (accepted : (s.handleEvent codec observe event).Accepts (· = .ok ())) :
    s.heal.handleEvent codec observe event = (s.handleEvent codec observe event).map heal := by
  unfold handleEvent at accepted ⊢
  simp only [heal] at accepted ⊢
  generalize s.transformer.transform codec event = answer at accepted
  obtain ⟨t, result⟩ := answer
  cases result with
  | ok r =>
    cases r with
    | done =>
      have finished := finishWith_heal (writeDataFrame_heals (Text.utf8 "[DONE]"))
        { transformer := t, downstream := s.downstream,
          observed := observe event .done s.observed } accepted
      simp only [heal] at finished
      simp only [finished]
      rfl
    | emitted frames => exact write_heal (frames_heal frames) _ accepted
    | swallowed =>
      cases passed : passThroughOpenaiChunk codec event with
      | some payload =>
        simp only [passed] at accepted ⊢
        exact write_heal (writeDataFrame_heals payload) _ accepted
      | none => rfl
  | error err =>
    cases decoded : codec.fromSlice event with
    | none =>
      simp only [decoded] at accepted
      cases accepted
    | some value =>
      by_cases typeless : isTypeless value
      · simp only [decoded, typeless, if_true] at accepted ⊢
        by_cases chunk : isOpenaiChunk value
        · simp only [chunk, if_true] at accepted ⊢
          exact write_heal (writeDataFrame_heals _) _ accepted
        · simp only [chunk, Bool.false_eq_true, if_false]
          rfl
      · simp only [decoded, typeless, Bool.false_eq_true, if_false] at accepted
        cases accepted

theorem handleEnd_heal (ending : Ending) (s : RewriteState O)
    (accepted : (s.handleEnd codec ending).2 = .ok ()) :
    s.heal.handleEnd codec ending =
      ((s.handleEnd codec ending).1.heal, (s.handleEnd codec ending).2) := by
  cases ending with
  | eof => exact finishWith_heal (writeDataFrame_heals _) s accepted
  | failed message => cases accepted

end RewriteState

/-- A run that returns `Ok` has relayed its upstream and ended with the sentinel. -/
theorem rewrite_ok (observe : Observer O) {downstream : Downstream} {config : RelayConfig}
    {turns : List Turn} (empty : downstream.written = [])
    (returned : rewriteSseStreamWithCallback codec observe observed reads ending downstream model
      config turns = .stopped s (.ok ())) :
    closingOf codec (eventsOf reads.flatten ending) ending = .ok ∧
      Closed s.downstream (sendsAll codec model []
        ((eventsOf reads.flatten ending).takeWhile (continues codec))) [Text.utf8 "[DONE]"] := by
  have healed := Loop.run_map (rewriteLoop codec observe) Reading.source RewriteState.heal
    (· = .ok ())
    (fun s => RewriteState.write_heal writePing_heals s)
    (fun event s => RewriteState.handleEvent_heal codec observe event s)
    (fun ending s => RewriteState.handleEnd_heal codec ending s) rfl returned
  obtain ⟨same, frames, written, sent⟩ := rewrite_spec codec observe downstream.heal_healthy
    (by simpa using empty) healed
  obtain ⟨payloads, closing⟩ := relayAll_eq codec model reads.flatten ending
  rw [closing] at same written
  rw [payloads] at sent
  have ok : closingOf codec (eventsOf reads.flatten ending) ending = .ok := by
    generalize eventsOf reads.flatten ending = events at same
    unfold closingOf at same ⊢
    split at same
    · split at same
      · cases same
      · rfl
    · cases ending with
      | eof => rfl
      | failed message => cases same
  rw [ok] at written
  exact ⟨ok, frames, written, sent⟩

end CodexProxy.Relay
