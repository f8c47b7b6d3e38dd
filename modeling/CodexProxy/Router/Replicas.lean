import CodexProxy.Router.Interleavings

/-! Any number of routers that look up and leave their pins in one place. A router that is alone
there is a router with a store of its own; what one of them finds was left by an answer at
another, or at itself. -/
namespace CodexProxy.Router
open Transition

section
variable (env : Request.Environment)

/-- Routers, and the pins that all of them look up. A router's own store is not used. -/
structure Replicas where
  worlds : Nat → World
  pins : AffinityStore

inductive ReplicasAction where
  | router (r : Nat) (a : Action)
  | expire (key : String)

/-- Only these routers act. -/
def ReplicasAction.By (who : Nat → Prop) : ReplicasAction → Prop
  | .router r _ => who r
  | .expire _ => True

def World.withStore (w : World) (pins : AffinityStore) : World :=
  w.withState { w.state with affinity := some pins }

namespace Replicas

/-- A router as it finds itself, with the pins of all. -/
def router (s : Replicas) (r : Nat) : World := (s.worlds r).withStore s.pins

/-- What a router has done to the pins is there for all. -/
def moved (s : Replicas) (r : Nat) (w : World) : Replicas :=
  ⟨Function.update s.worlds r w, w.state.affinity.getD s.pins⟩

def step (s : Replicas) : ReplicasAction → Option Replicas
  | .router _ (.expire _) => none
  | .router r a => (Router.step env (s.router r) a).map (s.moved r)
  | .expire key => some { s with pins := Function.update s.pins key none }

/-- The pin is what a final answer at one of the routers left. -/
def Leaves (s : Replicas) (key : String) (pin : Pin) : Prop := ∃ r, (s.worlds r).Leaves key pin

end Replicas

variable {env} {w w' : World} {s s' s₀ : Replicas} {a : Action}

theorem World.withStore_self {pins : AffinityStore} (stored : w.state.affinity = some pins) :
    w.withStore pins = w := by
  rw [withStore, withState, ← stored]

/-- A store stays one. -/
theorem Step.stored (rule : Step env w a w') : w'.state.affinity.isSome = w.state.affinity.isSome := by
  have kept (state : AppState) (key : Option String) (pin : Option Pin) :
      (state.setPin key pin).affinity.isSome = state.affinity.isSome := by
    cases key with
    | none => rfl
    | some => exact Option.isSome_map
  cases rule with
  | read => simp
  | @clear _ _ _ _ answered =>
    cases answered with
    | false => rfl
    | true => exact kept ..
  | put =>
    simp only [World.go_rest, World.withState_rest, AppState.maybePin]
    split
    · rfl
    · exact kept ..
  | expire => exact kept ..
  | _ => rfl

namespace Replicas

/-- A step of the routers is one of a router or takes a pin away. -/
theorem step_router {r : Nat} (taken : s.step env (.router r a) = some s') :
    ∃ w', Router.step env (s.router r) a = some w' ∧ s' = s.moved r w' := by
  have moved : (Router.step env (s.router r) a).map (s.moved r) = some s' := by
    cases a with
    | expire => cases taken
    | _ => exact taken
  obtain ⟨w', stepped, same⟩ := Option.map_eq_some_iff.mp moved
  exact ⟨w', stepped, same.symm⟩

theorem moved_router (s : Replicas) (r : Nat) (stepped : Router.step env (s.router r) a = some w') :
    (s.moved r w').router r = w' := by
  obtain ⟨pins, stored⟩ := Option.isSome_iff_exists.mp (step_spec env stepped).stored
  have own : (s.moved r w').worlds r = w' := Function.update_self ..
  have pins' : (s.moved r w').pins = pins := by rw [moved, stored, Option.getD_some]
  rw [router, own, pins', World.withStore_self stored]

/-- A router that acts alone does what it does with a store of its own. -/
theorem alone {r : Nat} (reached : Run (step env) (fun _ a => a.By (· = r)) s₀ s) :
    Run (Router.step env) (fun _ _ => True) (s₀.router r) (s.router r) := by
  induction reached with
  | here => exact .here
  | @step s _ a _ allowed taken ih =>
    cases a with
    | router r' a =>
      obtain rfl : r' = r := allowed
      obtain ⟨w', stepped, rfl⟩ := step_router taken
      rw [moved_router s r' stepped]
      exact ih.step trivial stepped
    | expire key =>
      cases taken
      have stepped : Router.step env (s.router r) (.expire key) =
        some (router { s with pins := Function.update s.pins key none } r) := rfl
      exact ih.step trivial stepped

/-- A router's step leaves a pin as it was, whichever router's answer left it, or leaves one of
its own. -/
theorem moved_pins {r : Nat} {earlier : String → Pin → Prop} (accounted : (s.router r).Accounted)
    (stepped : Router.step env (s.router r) a = some w')
    (pins : ∀ key pin, s.pins key = some pin → earlier key pin ∨ s.Leaves key pin)
    (found : (s.moved r w').pins key = some pin) : earlier key pin ∨ (s.moved r w').Leaves key pin := by
  have others (r' : Nat) (other : r' ≠ r) : (s.moved r w').worlds r' = s.worlds r' :=
    Function.update_of_ne other ..
  have own : (s.moved r w').worlds r = w' := Function.update_self ..
  let explained (key : String) (pin : Pin) : Prop :=
    earlier key pin ∨ ∃ r', r' ≠ r ∧ (s.worlds r').Leaves key pin
  have before (key : String) (pin : Pin) (found : (s.router r).state.pin (some key) = some pin) :
      explained key pin ∨ (s.router r).Leaves key pin := by
    rcases pins key pin found with known | ⟨r', leaves⟩
    · exact .inl (.inl known)
    · by_cases same : r' = r
      · subst same
        exact .inr leaves
      · exact .inl (.inr ⟨r', same, leaves⟩)
  have after : w'.state.pin (some key) = some pin := by
    obtain ⟨left, stored⟩ := Option.isSome_iff_exists.mp (step_spec env stepped).stored
    rw [moved, stored] at found
    rw [AppState.pin, stored]
    exact found
  rcases pins_step accounted stepped before after with (known | ⟨r', other, leaves⟩) | leaves
  · exact .inl known
  · exact .inr ⟨r', (others r' other).symm ▸ leaves⟩
  · exact .inr ⟨r, own.symm ▸ leaves⟩

theorem expire_pins {earlier : String → Pin → Prop}
    (pins : ∀ key pin, s.pins key = some pin → earlier key pin ∨ s.Leaves key pin) (expired : String)
    (found : Function.update s.pins expired none key = some pin) :
    earlier key pin ∨ s.Leaves key pin := by
  by_cases same : key = expired
  · rw [same, Function.update_self] at found
    cases found
  · rw [Function.update_of_ne same] at found
    exact pins key pin found

/-- Whatever the order in which the routers act, a pin is from the start or was left by a final
answer at one of them. -/
theorem pins_run {good : Replicas → ReplicasAction → Prop} (starts : ∀ r, (s₀.router r).Starts)
    (reached : Run (step env) good s₀ s) (found : s.pins key = some pin) :
    s₀.pins key = some pin ∨ s.Leaves key pin := by
  let inv (s : Replicas) : Prop := (∀ r, (s.router r).Accounted) ∧
    ∀ key pin, s.pins key = some pin → s₀.pins key = some pin ∨ s.Leaves key pin
  have initially : inv s₀ := ⟨fun r => .initial (starts r), fun _ _ => .inl⟩
  have holds : inv s := by
    refine reached.invariant initially ?_
    rintro s a _ ⟨accounted, pins⟩ _ taken
    cases a with
    | router r a =>
      obtain ⟨w', stepped, rfl⟩ := step_router taken
      refine ⟨?_, fun _ _ => moved_pins (accounted r) stepped pins⟩
      exact (Function.forall_update_iff s.worlds fun _ w => w.Accounted).mpr
        ⟨(accounted r).step stepped, fun r' _ => accounted r'⟩
    | expire key =>
      cases taken
      exact ⟨accounted, fun _ _ => expire_pins pins key⟩
  exact holds.2 key pin found

end Replicas
end
end CodexProxy.Router
