/-! A polled source driven by a select loop. A source is advanced in small steps
and may be cancelled between any two of them; a loop consumes its items while
timer ticks interrupt it. The abstraction of a source is the list of items it has
still to yield: whoever handles items one by one computes a fold of that list,
whatever the ticks and the sizes of the steps. -/
namespace Polling
variable {R E X σ τ ρ υ : Type}

inductive Progress (R E X : Type) where
  | more (r : R)
  | item (e : E) (r : R)
  | done (x : X)

/-- A source with the items it has still to yield, how it will end, and a bound on
its steps. Cancelling loses nothing. -/
structure Source (R E X : Type) where
  advance : R → Progress R E X
  cancel : R → R
  items : R → List E
  ending : R → X
  size : R → Nat
  more : ∀ {r r'}, advance r = .more r' →
    items r' = items r ∧ ending r' = ending r ∧ size r' < size r
  item : ∀ {r e r'}, advance r = .item e r' →
    items r = e :: items r' ∧ ending r' = ending r ∧ size r' < size r
  done : ∀ {r x}, advance r = .done x → items r = [] ∧ ending r = x
  cancelled : ∀ r, items (cancel r) = items r ∧ ending (cancel r) = ending r ∧
    size (cancel r) ≤ size r

inductive Step (σ ρ : Type) where
  | next (s : σ)
  | stop (s : σ) (result : ρ)

/-- What is done with an item, and with the end of the source. -/
structure Handler (σ E X ρ : Type) where
  onItem : E → σ → Step σ ρ
  onDone : X → σ → σ × ρ

/-- A handler that is also interrupted by ticks. -/
structure Loop (σ E X ρ : Type) extends Handler σ E X ρ where
  onTick : σ → Step σ ρ

/-- Handle a list of items in order, then the end; stop early when told to. -/
def Handler.fold (h : Handler σ E X ρ) : List E → X → σ → σ × ρ
  | [], x, s => h.onDone x s
  | e :: es, x, s =>
    match h.onItem e s with
    | .next s' => h.fold es x s'
    | .stop s' result => (s', result)

/-- Advance the source without interruption. -/
def Handler.drive (source : Source R E X) (h : Handler σ E X ρ) (r : R) (s : σ) : σ × ρ :=
  match _step : source.advance r with
  | .more r' => h.drive source r' s
  | .item e r' =>
    match h.onItem e s with
    | .next s' => h.drive source r' s'
    | .stop s' result => (s', result)
  | .done x => h.onDone x s
termination_by source.size r
decreasing_by
  · exact (source.more _step).2.2
  · exact (source.item _step).2.2

/-- Driving a source to its end is folding the items it holds. -/
theorem Handler.drive_eq_fold (source : Source R E X) (h : Handler σ E X ρ) (r : R) (s : σ) :
    h.drive source r s = h.fold (source.items r) (source.ending r) s := by
  rw [Handler.drive]
  split
  · rename_i r' step
    obtain ⟨same, ending, _⟩ := source.more step
    rw [drive_eq_fold source h r' s, same, ending]
  · rename_i e r' step
    obtain ⟨split, ending, _⟩ := source.item step
    rw [split, Handler.fold]
    cases h.onItem e s with
    | next s' =>
      dsimp only
      rw [drive_eq_fold source h r' s', ending]
    | stop s' result => rfl
  · rename_i x step
    obtain ⟨empty, rfl⟩ := source.done step
    rw [empty, Handler.fold]
termination_by source.size r
decreasing_by
  · assumption
  · assumption

/-- Which branch of the select is taken next. -/
inductive Turn where
  | tick
  | poll
deriving DecidableEq

inductive Config (R σ ρ : Type) where
  | running (r : R) (s : σ)
  | stopped (s : σ) (result : ρ)

namespace Loop
variable (source : Source R E X) (loop : Loop σ E X ρ)

/-- A tick drops the advance in flight. -/
def turn (c : Config R σ ρ) (t : Turn) : Config R σ ρ :=
  match c, t with
  | .stopped s result, _ => .stopped s result
  | .running r s, .tick =>
    match loop.onTick s with
    | .next s' => .running (source.cancel r) s'
    | .stop s' result => .stopped s' result
  | .running r s, .poll =>
    match source.advance r with
    | .more r' => .running r' s
    | .item e r' =>
      match loop.onItem e s with
      | .next s' => .running r' s'
      | .stop s' result => .stopped s' result
    | .done x => .stopped (loop.onDone x s).1 (loop.onDone x s).2

def run (c : Config R σ ρ) (turns : List Turn) : Config R σ ρ :=
  turns.foldl (loop.turn source) c

@[simp] theorem run_nil (c : Config R σ ρ) : loop.run source c [] = c := rfl

@[simp] theorem run_cons (c : Config R σ ρ) (t : Turn) (turns : List Turn) :
    loop.run source c (t :: turns) = loop.run source (loop.turn source c t) turns := rfl

@[simp] theorem run_stopped (s : σ) (result : ρ) (turns : List Turn) :
    loop.run source (.stopped s result) turns = .stopped s result := by
  induction turns with
  | nil => rfl
  | cons t turns ih => exact ih

/-- Enough polls end the loop, wherever the ticks fall. -/
theorem run_stops (r : R) (s : σ) (turns : List Turn)
    (polls : source.size r < turns.count .poll) :
    ∃ s' result, loop.run source (.running r s) turns = .stopped s' result := by
  induction turns generalizing r s with
  | nil => simp at polls
  | cons t turns ih =>
    rw [run_cons]
    cases t with
    | tick =>
      rw [List.count_cons_of_ne (by decide)] at polls
      simp only [turn]
      cases loop.onTick s with
      | next s' =>
        have smaller := (source.cancelled r).2.2
        exact ih (source.cancel r) s' (by omega)
      | stop s' result => exact ⟨s', result, run_stopped source loop s' result turns⟩
    | poll =>
      rw [List.count_cons_self] at polls
      simp only [turn]
      cases step : source.advance r with
      | more r' =>
        have smaller := (source.more step).2.2
        exact ih r' s (by omega)
      | item e r' =>
        have smaller := (source.item step).2.2
        dsimp only
        cases loop.onItem e s with
        | next s' => exact ih r' s' (by omega)
        | stop s' result => exact ⟨s', result, run_stopped source loop s' result turns⟩
      | done x => exact ⟨_, _, run_stopped source loop _ _ turns⟩

end Loop

/-- Two steps correspond when both go on or both stop. -/
def Step.Related (rel : σ → τ → Prop) (final : σ × ρ → τ × υ → Prop) :
    Step σ ρ → Step τ υ → Prop
  | .next s, .next t => rel s t
  | .stop s x, .stop t y => final (s, x) (t, y)
  | _, _ => False

/-- A loop simulates a handler on abstract states: ticks are invisible, items and
the end correspond. `final` relates the two outcomes. -/
structure Simulation (loop : Loop σ E X ρ) (spec : Handler τ E X υ) where
  rel : σ → τ → Prop
  final : σ × ρ → τ × υ → Prop
  tick : ∀ {s t}, rel s t → ∃ s', loop.onTick s = .next s' ∧ rel s' t
  item : ∀ {s t}, rel s t → ∀ e, (loop.onItem e s).Related rel final (spec.onItem e t)
  done : ∀ {s t}, rel s t → ∀ x, final (loop.onDone x s) (spec.onDone x t)

/-- Every run that stops computes the fold of the items the source held. -/
theorem Simulation.run {loop : Loop σ E X ρ} {spec : Handler τ E X υ}
    (sim : Simulation loop spec) (source : Source R E X) {r : R} {s : σ} {t : τ}
    (related : sim.rel s t) {turns : List Turn}
    (stopped : loop.run source (.running r s) turns = .stopped s' result) :
    sim.final (s', result) (spec.fold (source.items r) (source.ending r) t) := by
  induction turns generalizing r s t with
  | nil => cases stopped
  | cons first turns ih =>
    rw [Loop.run_cons] at stopped
    cases first with
    | tick =>
      obtain ⟨s₁, ticked, related'⟩ := sim.tick related
      simp only [Loop.turn, ticked] at stopped
      obtain ⟨items, ending, _⟩ := source.cancelled r
      simpa only [items, ending] using ih related' stopped
    | poll =>
      simp only [Loop.turn] at stopped
      cases step : source.advance r with
      | more r' =>
        simp only [step] at stopped
        obtain ⟨items, ending, _⟩ := source.more step
        simpa only [items, ending] using ih related stopped
      | item e r' =>
        simp only [step] at stopped
        obtain ⟨items, ending, _⟩ := source.item step
        rw [items, Handler.fold]
        have corresponds := sim.item related e
        cases concrete : loop.onItem e s with
        | next s₁ =>
          rw [concrete] at corresponds
          cases abstract : spec.onItem e t with
          | next t' =>
            rw [abstract] at corresponds
            simp only [concrete] at stopped
            simpa only [ending] using ih corresponds stopped
          | stop t' y => simp [abstract, Step.Related] at corresponds
        | stop s₁ x =>
          rw [concrete] at corresponds
          cases abstract : spec.onItem e t with
          | next t' => simp [abstract, Step.Related] at corresponds
          | stop t' y =>
            rw [abstract] at corresponds
            simp only [concrete, Loop.run_stopped] at stopped
            cases stopped
            exact corresponds
      | done x =>
        simp only [step, Loop.run_stopped] at stopped
        cases stopped
        obtain ⟨items, rfl⟩ := source.done step
        rw [items, Handler.fold]
        exact sim.done related _

/-- The state of a step. -/
def Step.map (f : σ → σ) : Step σ ρ → Step σ ρ
  | .next s => .next (f s)
  | .stop s result => .stop (f s) result

/-- A step that goes on, or stops with an accepted result. -/
def Step.Accepts (good : ρ → Prop) : Step σ ρ → Prop
  | .next _ => True
  | .stop _ result => good result

/-- When `f` commutes with every step that ends well, it carries a run that ends well
to another such run, with the same schedule. -/
theorem Loop.run_map (loop : Loop σ E X ρ) (source : Source R E X) (f : σ → σ) (good : ρ → Prop)
    (tick : ∀ s, (loop.onTick s).Accepts good → loop.onTick (f s) = (loop.onTick s).map f)
    (item : ∀ e s, (loop.onItem e s).Accepts good → loop.onItem e (f s) = (loop.onItem e s).map f)
    (done : ∀ x s, good (loop.onDone x s).2 →
      loop.onDone x (f s) = (f (loop.onDone x s).1, (loop.onDone x s).2))
    {r : R} {s : σ} {turns : List Turn} {s' : σ} {result : ρ} (accepted : good result)
    (stopped : loop.run source (.running r s) turns = .stopped s' result) :
    loop.run source (.running r (f s)) turns = .stopped (f s') result := by
  induction turns generalizing r s with
  | nil => cases stopped
  | cons first turns ih =>
    rw [Loop.run_cons] at stopped ⊢
    cases first with
    | tick =>
      have mapped := tick s
      simp only [Loop.turn] at stopped ⊢
      cases ticked : loop.onTick s with
      | next s₁ =>
        rw [ticked] at mapped stopped
        rw [mapped trivial]
        exact ih stopped
      | stop s₁ x =>
        rw [ticked] at mapped stopped
        simp only [Loop.run_stopped] at stopped
        cases stopped
        rw [mapped accepted]
        exact Loop.run_stopped source loop _ _ turns
    | poll =>
      simp only [Loop.turn] at stopped ⊢
      cases step : source.advance r with
      | more r' =>
        simp only [step] at stopped ⊢
        exact ih stopped
      | item e r' =>
        have mapped := item e s
        simp only [step] at stopped ⊢
        cases handled : loop.onItem e s with
        | next s₁ =>
          rw [handled] at mapped stopped
          rw [mapped trivial]
          exact ih stopped
        | stop s₁ x =>
          rw [handled] at mapped stopped
          simp only [Loop.run_stopped] at stopped
          cases stopped
          rw [mapped accepted]
          exact Loop.run_stopped source loop _ _ turns
      | done x =>
        have mapped := done x s
        simp only [step, Loop.run_stopped] at stopped ⊢
        cases stopped
        rw [mapped accepted]

/-- Skipped items do not count in a fold. -/
theorem Handler.fold_filter (h : Handler σ E X ρ) {idle : E → Bool}
    (skips : ∀ e s, idle e = true → h.onItem e s = .next s) (es : List E) (x : X) (s : σ) :
    h.fold (es.filter fun e => !idle e) x s = h.fold es x s := by
  induction es generalizing s with
  | nil => rfl
  | cons e es ih =>
    cases skipped : idle e with
    | true => rw [List.filter_cons_of_neg (by simp [skipped]), ih, fold, skips e s skipped]
    | false =>
      rw [List.filter_cons_of_pos (by simp [skipped]), fold, fold]
      cases h.onItem e s with
      | next s' => exact ih s'
      | stop s' result => rfl

namespace Loop
variable (source : Source R E X) (loop : Loop σ E X ρ)

theorem run_append (c : Config R σ ρ) (turns more : List Turn) :
    loop.run source c (turns ++ more) = loop.run source (loop.run source c turns) more :=
  List.foldl_append

/-- The configuration after a step on an item. -/
def Config.afterStep (r : R) : Step σ ρ → Config R σ ρ
  | .next s => .running r s
  | .stop s result => .stopped s result

variable {idle : E → Bool} (skips : ∀ e s, idle e = true → loop.onItem e s = .next s)
include skips

/-- Polls alone reach the next item that is not skipped. -/
theorem polls_item (r : R) (s : σ) {e : E} {es : List E}
    (kept : (source.items r).filter (fun e => !idle e) = e :: es) :
    ∃ polls r', (∀ t ∈ polls, t = .poll) ∧
      loop.run source (.running r s) polls = Config.afterStep r' (loop.onItem e s) ∧
      (source.items r').filter (fun e => !idle e) = es ∧ source.ending r' = source.ending r := by
  cases step : source.advance r with
  | more r₁ =>
    obtain ⟨items, ending, smaller⟩ := source.more step
    obtain ⟨polls, r', only, ran, rest, ending'⟩ := polls_item r₁ s (by rw [items, kept])
    refine ⟨.poll :: polls, r', by simpa using only, ?_, rest, ending'.trans ending⟩
    rw [run_cons, turn, step]
    exact ran
  | item e₁ r₁ =>
    obtain ⟨items, ending, smaller⟩ := source.item step
    rw [items] at kept
    cases skipped : idle e₁ with
    | true =>
      rw [List.filter_cons_of_neg (by simp [skipped])] at kept
      obtain ⟨polls, r', only, ran, rest, ending'⟩ := polls_item r₁ s kept
      refine ⟨.poll :: polls, r', by simpa using only, ?_, rest, ending'.trans ending⟩
      rw [run_cons, turn, step]
      dsimp only
      rw [skips e₁ s skipped]
      exact ran
    | false =>
      rw [List.filter_cons_of_pos (by simp [skipped])] at kept
      obtain ⟨rfl, rfl⟩ := List.cons.inj kept
      refine ⟨[.poll], r₁, by simp, ?_, rfl, ending⟩
      rw [run_cons, run_nil, turn, step]
      dsimp only
      cases loop.onItem e₁ s <;> rfl
  | done x =>
    rw [(source.done step).1] at kept
    cases kept
termination_by source.size r

/-- Polls alone reach the end when all items are skipped. -/
theorem polls_end (r : R) (s : σ) (kept : (source.items r).filter (fun e => !idle e) = []) :
    ∃ polls, (∀ t ∈ polls, t = .poll) ∧ loop.run source (.running r s) polls =
      .stopped (loop.onDone (source.ending r) s).1 (loop.onDone (source.ending r) s).2 := by
  cases step : source.advance r with
  | more r₁ =>
    obtain ⟨items, ending, smaller⟩ := source.more step
    obtain ⟨polls, only, ran⟩ := polls_end r₁ s (by rw [items, kept])
    refine ⟨.poll :: polls, by simpa using only, ?_⟩
    rw [run_cons, turn, step]
    dsimp only
    rw [ran, ending]
  | item e₁ r₁ =>
    obtain ⟨items, ending, smaller⟩ := source.item step
    rw [items] at kept
    have skipped : idle e₁ = true := by
      cases shown : idle e₁ with
      | true => rfl
      | false =>
        rw [List.filter_cons_of_pos (by simp [shown])] at kept
        cases kept
    rw [List.filter_cons_of_neg (by simp [skipped])] at kept
    obtain ⟨polls, only, ran⟩ := polls_end r₁ s kept
    refine ⟨.poll :: polls, by simpa using only, ?_⟩
    rw [run_cons, turn, step]
    dsimp only
    rw [skips e₁ s skipped]
    dsimp only
    rw [ran, ending]
  | done x =>
    obtain ⟨_, ending⟩ := source.done step
    refine ⟨[.poll], by simp, ?_⟩
    rw [run_cons, run_nil, turn, step]
    dsimp only
    rw [ending]
termination_by source.size r

/-- Configurations over readers that differ in skipped items only. -/
inductive Config.Alike (idle : E → Bool) : Config R σ ρ → Config R σ ρ → Prop where
  | running {r₁ r₂ : R} (s : σ)
      (items : (source.items r₁).filter (fun e => !idle e) =
        (source.items r₂).filter fun e => !idle e)
      (ending : source.ending r₁ = source.ending r₂) : Alike idle (.running r₁ s) (.running r₂ s)
  | stopped (s : σ) (result : ρ) : Alike idle (.stopped s result) (.stopped s result)

/-- A poll of one reader, which the other follows with polls: with none after a skipped
item, and otherwise up to the same item or the end. -/
theorem poll_skipping {r₁ r₂ : R} {s : σ}
    (items : (source.items r₁).filter (fun e => !idle e) =
      (source.items r₂).filter fun e => !idle e)
    (ending : source.ending r₁ = source.ending r₂) :
    ∃ polls, (∀ t ∈ polls, t = .poll) ∧
      Config.Alike source idle (loop.turn source (.running r₁ s) .poll)
        (loop.run source (.running r₂ s) polls) := by
  rw [turn]
  cases step : source.advance r₁ with
  | more r₁' =>
    obtain ⟨items', ending', _⟩ := source.more step
    exact ⟨[], by simp, .running s (by rw [items', items]) (ending'.trans ending)⟩
  | item e r₁' =>
    obtain ⟨items', ending', _⟩ := source.item step
    rw [items'] at items
    cases skipped : idle e with
    | true =>
      rw [List.filter_cons_of_neg (by simp [skipped])] at items
      dsimp only
      rw [skips e s skipped]
      exact ⟨[], by simp, .running s items (ending'.trans ending)⟩
    | false =>
      rw [List.filter_cons_of_pos (by simp [skipped])] at items
      obtain ⟨polls, r₂', only, ran, rest, ending₂⟩ :=
        polls_item source loop skips r₂ s items.symm
      refine ⟨polls, only, ?_⟩
      rw [ran]
      dsimp only
      cases loop.onItem e s with
      | next s₁ => exact .running s₁ rest.symm (ending'.trans (ending.trans ending₂.symm))
      | stop s₁ result => exact .stopped s₁ result
  | done x =>
    obtain ⟨empty, ended⟩ := source.done step
    rw [empty] at items
    obtain ⟨polls, only, ran⟩ := polls_end source loop skips r₂ s items.symm
    refine ⟨polls, only, ?_⟩
    rw [ran, ← ending, ended]
    exact .stopped _ _

/-- One turn, and the turns that follow it. -/
theorem turn_skipping {c₁ c₂ : Config R σ ρ} (alike : Config.Alike source idle c₁ c₂) (t : Turn) :
    ∃ turns, (.tick ∈ turns → t = .tick) ∧
      Config.Alike source idle (loop.turn source c₁ t) (loop.run source c₂ turns) := by
  cases alike with
  | stopped s result => exact ⟨[], by simp, .stopped s result⟩
  | @running r₁ r₂ s items ending =>
    cases t with
    | poll =>
      obtain ⟨polls, only, alike⟩ := poll_skipping source loop skips items ending
      refine ⟨polls, ?_, alike⟩
      intro member
      cases only _ member
    | tick =>
      obtain ⟨items₁, ending₁, _⟩ := source.cancelled r₁
      obtain ⟨items₂, ending₂, _⟩ := source.cancelled r₂
      refine ⟨[.tick], fun _ => rfl, ?_⟩
      rw [run_cons, run_nil, turn, turn]
      cases loop.onTick s with
      | next s₁ =>
        exact .running s₁ (by rw [items₁, items₂, items]) (by rw [ending₁, ending₂, ending])
      | stop s₁ result => exact .stopped s₁ result

/-- Two sources that differ in skipped items only: what one run ends with, another run
over the other source ends with too. It ticks only if the first one does. -/
theorem run_skipping {c₁ c₂ : Config R σ ρ} (alike : Config.Alike source idle c₁ c₂)
    (turns : List Turn) :
    ∃ turns', (.tick ∈ turns' → .tick ∈ turns) ∧
      Config.Alike source idle (loop.run source c₁ turns) (loop.run source c₂ turns') := by
  induction turns generalizing c₁ c₂ with
  | nil => exact ⟨[], by simp, alike⟩
  | cons t turns ih =>
    obtain ⟨first, ticks, alike⟩ := turn_skipping source loop skips alike t
    obtain ⟨later, ticks', alike⟩ := ih alike
    refine ⟨first ++ later, ?_, ?_⟩
    · intro member
      rcases List.mem_append.mp member with early | late
      · rw [ticks early]
        exact List.mem_cons_self
      · exact List.mem_cons_of_mem _ (ticks' late)
    · rw [run_cons, run_append]
      exact alike

end Loop
/-- Handle a list of items; none when told to stop. -/
def Handler.steps (h : Handler σ E X ρ) : List E → σ → Option σ
  | [], s => some s
  | e :: es, s =>
    match h.onItem e s with
    | .next s' => h.steps es s'
    | .stop _ _ => none

/-- What holds of the source after the advance, if it goes on. -/
def Progress.Keeps (inv : R → Prop) : Progress R E X → Prop
  | .more r | .item _ r => inv r
  | .done _ => True

theorem Progress.Keeps.imp {inv inv' : R → Prop} {progress : Progress R E X}
    (kept : progress.Keeps inv) (weaker : ∀ r, inv r → inv' r) : progress.Keeps inv' := by
  cases progress with
  | more r | item e r => exact weaker r kept
  | done => trivial

/-- A run that has not stopped has handled the items that the source has yielded. -/
theorem Simulation.running {loop : Loop σ E X ρ} {spec : Handler τ E X υ}
    (sim : Simulation loop spec) (source : Source R E X) {r r' : R} {s s' : σ} {t : τ}
    (related : sim.rel s t) {turns : List Turn}
    (runs : loop.run source (.running r s) turns = .running r' s') :
    ∃ es t', source.items r = es ++ source.items r' ∧ spec.steps es t = some t' ∧
      sim.rel s' t' := by
  induction turns generalizing r s t with
  | nil =>
    cases runs
    exact ⟨[], t, rfl, rfl, related⟩
  | cons first turns ih =>
    rw [Loop.run_cons] at runs
    cases first with
    | tick =>
      obtain ⟨s₁, ticked, related'⟩ := sim.tick related
      simp only [Loop.turn, ticked] at runs
      obtain ⟨items, _, _⟩ := source.cancelled r
      simpa only [items] using ih related' runs
    | poll =>
      simp only [Loop.turn] at runs
      cases step : source.advance r with
      | more r₁ =>
        simp only [step] at runs
        obtain ⟨items, _, _⟩ := source.more step
        simpa only [items] using ih related runs
      | item e r₁ =>
        simp only [step] at runs
        obtain ⟨items, _, _⟩ := source.item step
        have corresponds := sim.item related e
        cases concrete : loop.onItem e s with
        | stop s₁ x => simp [concrete] at runs
        | next s₁ =>
          rw [concrete] at corresponds
          simp only [concrete] at runs
          cases abstract : spec.onItem e t with
          | stop t₁ y => simp [abstract, Step.Related] at corresponds
          | next t₁ =>
            rw [abstract] at corresponds
            obtain ⟨es, t', later, stepped, related'⟩ := ih corresponds runs
            refine ⟨e :: es, t', by rw [items, later, List.cons_append], ?_, related'⟩
            simpa only [Handler.steps, abstract] using stepped
      | done x => simp [step] at runs

/-- What advancing and cancelling keep holds of the source of a run that has not stopped. -/
theorem Loop.run_source {loop : Loop σ E X ρ} {source : Source R E X} {inv : R → Prop}
    (advance : ∀ r, inv r → (source.advance r).Keeps inv) (cancel : ∀ r, inv r → inv (source.cancel r))
    {r r' : R} {s s' : σ} {turns : List Turn} (initially : inv r)
    (runs : loop.run source (.running r s) turns = .running r' s') : inv r' := by
  induction turns generalizing r s with
  | nil =>
    cases runs
    exact initially
  | cons first turns ih =>
    rw [Loop.run_cons] at runs
    cases first with
    | tick =>
      simp only [Loop.turn] at runs
      cases ticked : loop.onTick s with
      | next s₁ =>
        simp only [ticked] at runs
        exact ih (cancel r initially) runs
      | stop s₁ x => simp [ticked] at runs
    | poll =>
      have kept := advance r initially
      simp only [Loop.turn] at runs
      cases step : source.advance r with
      | more r₁ =>
        rw [step] at kept
        simp only [step] at runs
        exact ih kept runs
      | item e r₁ =>
        rw [step] at kept
        simp only [step] at runs
        cases handled : loop.onItem e s with
        | next s₁ =>
          simp only [handled] at runs
          exact ih kept runs
        | stop s₁ x => simp [handled] at runs
      | done x => simp [step] at runs

def Config.state : Config R σ ρ → σ
  | .running _ s | .stopped s _ => s

def Step.state : Step σ ρ → σ
  | .next s | .stop s _ => s

/-- Every step takes a state to one above it. -/
structure Loop.Grows (loop : Loop σ E X ρ) (below : σ → σ → Prop) : Prop where
  tick : ∀ s, below s (loop.onTick s).state
  item : ∀ e s, below s (loop.onItem e s).state
  done : ∀ x s, below s (loop.onDone x s).1

theorem Loop.Grows.turn {loop : Loop σ E X ρ} {below : σ → σ → Prop} (grows : loop.Grows below)
    (refl : ∀ s, below s s) (source : Source R E X) (c : Config R σ ρ) (t : Turn) :
    below c.state (loop.turn source c t).state := by
  cases c with
  | stopped s x => exact refl s
  | running r s =>
    cases t with
    | tick =>
      have grown := grows.tick s
      rw [Loop.turn]
      cases ticked : loop.onTick s <;> rw [ticked] at grown <;> exact grown
    | poll =>
      rw [Loop.turn]
      cases step : source.advance r with
      | more r' => exact refl s
      | item e r' =>
        have grown := grows.item e s
        dsimp only
        cases handled : loop.onItem e s <;> rw [handled] at grown <;> exact grown
      | done x => exact grows.done x s

/-- A step beside the step of the run that is followed. They go on together, or stop
together, or the first one stops and is left behind. -/
def Step.Follows (mate : σ → σ → Prop) (together : σ × ρ → σ × ρ → Prop) (behind : σ × ρ → σ → Prop) :
    Step σ ρ → Step σ ρ → Prop
  | .next s, .next t => mate s t
  | .next _, .stop _ _ => False
  | .stop s x, .stop t y => together (s, x) (t, y) ∨ behind (s, x) t
  | .stop s x, .next t => behind (s, x) t

def Config.Follows (mate : σ → σ → Prop) (together : σ × ρ → σ × ρ → Prop)
    (behind : σ × ρ → σ → Prop) : Config R σ ρ → Config R σ ρ → Prop
  | .running r s, c => ∃ t, c = .running r t ∧ mate s t
  | .stopped s x, c => (∃ t y, c = .stopped t y ∧ together (s, x) (t, y)) ∨ behind (s, x) c.state

/-- A loop whose steps on states that go together follow one another. -/
structure Loop.Lockstep (loop : Loop σ E X ρ) (mate : σ → σ → Prop)
    (together : σ × ρ → σ × ρ → Prop) (behind : σ × ρ → σ → Prop) : Prop where
  tick : ∀ {s t}, mate s t → (loop.onTick s).Follows mate together behind (loop.onTick t)
  item : ∀ {s t}, mate s t → ∀ e,
    (loop.onItem e s).Follows mate together behind (loop.onItem e t)
  done : ∀ {s t}, mate s t → ∀ x,
    together (loop.onDone x s) (loop.onDone x t) ∨ behind (loop.onDone x s) (loop.onDone x t).1

/-- Two runs of one schedule follow one another, when being behind lasts. -/
theorem Loop.Lockstep.run {loop : Loop σ E X ρ} {mate : σ → σ → Prop}
    {together : σ × ρ → σ × ρ → Prop} {behind : σ × ρ → σ → Prop}
    (lockstep : loop.Lockstep mate together behind) (source : Source R E X)
    (lasts : ∀ (final : σ × ρ) (c : Config R σ ρ) (t : Turn),
      behind final c.state → behind final (loop.turn source c t).state)
    {c c' : Config R σ ρ} (follows : c.Follows mate together behind c') (turns : List Turn) :
    (loop.run source c turns).Follows mate together behind (loop.run source c' turns) := by
  induction turns generalizing c c' with
  | nil => exact follows
  | cons first turns ih =>
    rw [Loop.run_cons, Loop.run_cons]
    refine ih ?_
    cases c with
    | stopped s x =>
      rcases follows with ⟨t, y, rfl, same⟩ | left
      · exact .inl ⟨t, y, rfl, same⟩
      · exact .inr (lasts (s, x) c' first left)
    | running r s =>
      obtain ⟨t, rfl, mates⟩ := follows
      cases first with
      | tick =>
        have ticked := lockstep.tick mates
        rw [Loop.turn, Loop.turn]
        cases one : loop.onTick s <;> cases other : loop.onTick t <;> rw [one, other] at ticked
        · exact ⟨_, rfl, ticked⟩
        · exact ticked.elim
        · exact .inr ticked
        · exact ticked.imp_left fun same => ⟨_, _, rfl, same⟩
      | poll =>
        rw [Loop.turn, Loop.turn]
        cases source.advance r with
        | more r' => exact ⟨t, rfl, mates⟩
        | item e r' =>
          have handled := lockstep.item mates e
          dsimp only
          cases one : loop.onItem e s <;> cases other : loop.onItem e t <;>
            rw [one, other] at handled
          · exact ⟨_, rfl, handled⟩
          · exact handled.elim
          · exact .inr handled
          · exact handled.imp_left fun same => ⟨_, _, rfl, same⟩
        | done x => exact (lockstep.done mates x).imp_left fun same => ⟨_, _, rfl, same⟩

end Polling
