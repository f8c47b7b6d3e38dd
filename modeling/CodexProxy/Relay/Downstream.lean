import CodexProxy.Library.Decode
import CodexProxy.Library.EventStream

/-! Writing to the client. The sink is an oracle: the n-th call on the writer either
succeeds or fails after some octets, so a result about a healthy sink and one about
a vanished client speak of the same writes. -/
namespace CodexProxy.Relay
open Bytes EventStream

/-- The octets written so far, and the number of calls made on the writer. -/
structure Downstream where
  sink : Nat → Option (Nat × String)
  written : List UInt8 := []
  calls : Nat := 0

/-- An operation on the writer, with the error that ends it early. -/
abbrev Write := Downstream → Downstream × Except String Unit

/-- No call fails. -/
def Downstream.Healthy (d : Downstream) : Prop := ∀ n, d.sink n = none

def writeAll (bs : List UInt8) : Write := fun d =>
  match d.sink d.calls with
  | none => ({ d with written := d.written ++ bs, calls := d.calls + 1 }, .ok ())
  | some (accepted, message) =>
    ({ d with written := d.written ++ bs.take accepted, calls := d.calls + 1 }, .error message)

def flush : Write := writeAll []

/-- Perform writes in order up to the first error. -/
def Write.all : List Write → Write
  | [], d => (d, .ok ())
  | w :: ws, d =>
    match w d with
    | (d', .ok ()) => Write.all ws d'
    | (d', .error message) => (d', .error message)

/-- Each line of the payload gets its own `data: ` prefix. -/
def writeDataFrame (payload : List UInt8) : Write :=
  .all ((lines payload).flatMap (fun line =>
    [writeAll dataField, writeAll line, writeAll [newline]]) ++ [writeAll [newline], flush])

def writePing : Write := .all [writeAll (Text.utf8 ": ping\n\n"), flush]

def errorPayload (message : String) : Json :=
  .object [("error", .string ("stream error: " ++ message))]

/-- The error frame and the sentinel, best effort: failures are ignored. -/
def terminateWithError (codec : Json.Codec) (message : String) (d : Downstream) : Downstream :=
  let d := (writeDataFrame (codec.toVec (errorPayload message)) d).1
  (writeDataFrame (Text.utf8 "[DONE]") d).1

/-- An operation that always succeeds on a healthy sink and writes these octets. -/
def Write.Appends (w : Write) (bs : List UInt8) : Prop :=
  ∀ d : Downstream, d.Healthy →
    ∃ d', w d = (d', .ok ()) ∧ d'.Healthy ∧ d'.written = d.written ++ bs

theorem writeAll_spec (bs : List UInt8) : (writeAll bs).Appends bs := by
  intro d healthy
  refine ⟨{ d with written := d.written ++ bs, calls := d.calls + 1 }, ?_, healthy, rfl⟩
  simp only [writeAll, healthy d.calls]

theorem flush_spec : flush.Appends [] := writeAll_spec []

theorem Write.all_nil_spec : (Write.all []).Appends [] := by
  intro d healthy
  exact ⟨d, rfl, healthy, by simp⟩

theorem Write.all_cons_spec {w : Write} {ws : List Write} (first : w.Appends bs)
    (rest : (Write.all ws).Appends cs) : (Write.all (w :: ws)).Appends (bs ++ cs) := by
  intro d healthy
  obtain ⟨d₁, performed, healthy₁, written₁⟩ := first d healthy
  obtain ⟨d₂, continued, healthy₂, written₂⟩ := rest d₁ healthy₁
  refine ⟨d₂, ?_, healthy₂, ?_⟩
  · simp only [Write.all, performed, continued]
  · rw [written₂, written₁, List.append_assoc]

theorem Write.all_append_spec {ws vs : List Write} (first : (Write.all ws).Appends bs)
    (second : (Write.all vs).Appends cs) : (Write.all (ws ++ vs)).Appends (bs ++ cs) := by
  intro d healthy
  obtain ⟨d₁, performed, healthy₁, written₁⟩ := first d healthy
  obtain ⟨d₂, continued, healthy₂, written₂⟩ := second d₁ healthy₁
  refine ⟨d₂, ?_, healthy₂, by rw [written₂, written₁, List.append_assoc]⟩
  clear written₁ written₂ healthy₁ healthy₂ first second healthy
  induction ws generalizing d with
  | nil =>
    cases performed
    exact continued
  | cons w ws ih =>
    simp only [List.cons_append, Write.all] at performed ⊢
    split at performed
    · exact ih _ performed
    · cases performed

/-- One operation per element writes the pieces in order. -/
theorem Write.all_map_spec {w : α → Write} {piece : α → List UInt8}
    (each : ∀ a, (w a).Appends (piece a)) (as : List α) :
    (Write.all (as.map w)).Appends (as.flatMap piece) := by
  induction as with
  | nil => exact all_nil_spec
  | cons a as ih =>
    rw [List.map_cons, List.flatMap_cons]
    exact all_cons_spec (each a) ih

theorem Write.all_singleton_spec {w : Write} (one : w.Appends bs) : (Write.all [w]).Appends bs := by
  simpa using all_cons_spec one all_nil_spec

/-- A data frame is written as its encoding. -/
theorem writeDataFrame_spec (payload : List UInt8) :
    (writeDataFrame payload).Appends (Frame.data payload).encode := by
  have row (line : List UInt8) : (Write.all
      [writeAll dataField, writeAll line, writeAll [newline]]).Appends
      (dataField ++ line ++ [newline]) := by
    have last := Write.all_singleton_spec (writeAll_spec [newline])
    simpa using Write.all_cons_spec (writeAll_spec dataField)
      (Write.all_cons_spec (writeAll_spec line) last)
  have rows (ls : List (List UInt8)) : (Write.all (ls.flatMap fun line =>
      [writeAll dataField, writeAll line, writeAll [newline]])).Appends
      (terminated (ls.map (dataField ++ ·))) := by
    induction ls with
    | nil => exact Write.all_nil_spec
    | cons line ls ih =>
      rw [List.flatMap_cons]
      simpa [terminated] using Write.all_append_spec (row line) ih
  have close := Write.all_cons_spec (writeAll_spec [newline]) (Write.all_singleton_spec flush_spec)
  have frame := Write.all_append_spec (rows (lines payload)) close
  simpa [writeDataFrame, Frame.encode, Frame.rows, terminated] using frame

theorem writePing_spec : writePing.Appends Frame.ping.encode := by
  have ping : Text.utf8 ": ping\n\n" = Frame.ping.encode := by decide
  have written := Write.all_cons_spec (writeAll_spec (Text.utf8 ": ping\n\n"))
    (Write.all_singleton_spec flush_spec)
  rwa [List.append_nil, ping] at written

theorem terminateWithError_spec (codec : Json.Codec) (message : String) {d : Downstream}
    (healthy : d.Healthy) :
    (terminateWithError codec message d).Healthy ∧
      (terminateWithError codec message d).written = d.written ++
        encode [.data (codec.toVec (errorPayload message)), .data (Text.utf8 "[DONE]")] := by
  obtain ⟨d₁, first, healthy₁, written₁⟩ :=
    writeDataFrame_spec (codec.toVec (errorPayload message)) d healthy
  obtain ⟨d₂, second, healthy₂, written₂⟩ :=
    writeDataFrame_spec (Text.utf8 "[DONE]") d₁ healthy₁
  simp only [terminateWithError, first, second]
  refine ⟨healthy₂, ?_⟩
  rw [written₂, written₁]
  simp [encode]

/-- The same writer with a sink that never fails. -/
def Downstream.heal (d : Downstream) : Downstream := { d with sink := fun _ => none }

@[simp] theorem Downstream.heal_written (d : Downstream) : d.heal.written = d.written := rfl

theorem Downstream.heal_healthy (d : Downstream) : d.heal.Healthy := fun _ => rfl

/-- What succeeded would have done the same on a healthy sink. -/
def Write.Heals (w : Write) : Prop := ∀ d d', w d = (d', .ok ()) → w d.heal = (d'.heal, .ok ())

theorem writeAll_heals (bs : List UInt8) : (writeAll bs).Heals := by
  intro d d' performed
  unfold writeAll at performed
  split at performed
  · cases performed
    rfl
  · cases performed

theorem Write.all_heals {ws : List Write} (each : ∀ w ∈ ws, w.Heals) : (Write.all ws).Heals := by
  intro d d' performed
  induction ws generalizing d with
  | nil =>
    cases performed
    rfl
  | cons w ws ih =>
    simp only [Write.all] at performed ⊢
    split at performed
    · rename_i d₁ first
      rw [each w List.mem_cons_self d d₁ first]
      exact ih (fun v member => each v (List.mem_cons_of_mem _ member)) d₁ performed
    · cases performed

theorem writeDataFrame_heals (payload : List UInt8) : (writeDataFrame payload).Heals := by
  apply Write.all_heals
  intro w member
  simp only [List.mem_append, List.mem_flatMap, List.mem_cons, List.not_mem_nil, or_false] at member
  rcases member with ⟨line, _, rfl | rfl | rfl⟩ | rfl | rfl <;> exact writeAll_heals _

theorem writePing_heals : writePing.Heals := by
  apply Write.all_heals
  intro w member
  simp only [List.mem_cons, List.not_mem_nil, or_false] at member
  rcases member with rfl | rfl <;> exact writeAll_heals _

end CodexProxy.Relay
