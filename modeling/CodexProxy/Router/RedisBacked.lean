import Mathlib.Data.Set.Finite.List
import CodexProxy.Router.Affinity
import CodexProxy.Router.Replicas

/-! Routers with their pins in one Redis, which other programs use too and where time takes
pins away. All they do is what routers with one plain table do, so whatever holds of every run
of those holds of these. A pin lasts for its time to live from the last answer that left it. -/
namespace CodexProxy.Router
open Transition

section
variable (env : Request.Environment) (store : RedisAffinityStore)

/-- A router's own store is not used; the pins are what Redis says. -/
structure RedisWorld where
  worlds : Nat → World
  redis : Redis
  now : Nat

inductive RedisAction where
  | router (r : Nat) (a : Action)
  | pass (later : Nat)
  /-- Another program stores or deletes something. -/
  | foreign (name : String) (stored : Option Stored)

/-- Only these routers act. -/
def RedisAction.By (who : Nat → Prop) : RedisAction → Prop
  | .router r _ => who r
  | _ => True

namespace RedisWorld

/-- The routers with the pins that lookups find. -/
def seen (d : RedisWorld) : Replicas := ⟨d.worlds, store.get d.redis d.now⟩

/-- The command that a router's step sends and that takes effect; whether its reply comes back
does not matter. -/
def commanded (d : RedisWorld) (r : Nat) : Action → Redis
  | .clear t true =>
    match (d.worlds r).handlers t with
    | .admitted route (.clearing _ _) =>
      (route.key.map (RedisAffinityStore.clear d.redis)).getD d.redis
    | _ => d.redis
  | .put t true =>
    match (d.worlds r).handlers t with
    | .admitted route (.pinning slug source _) =>
      if source = .fallback then d.redis
      else (route.key.map (store.put d.redis d.now · ⟨slug, route.model⟩)).getD d.redis
    | _ => d.redis
  | _ => d.redis

/-- The names of the pins are the routers' own. -/
def step (d : RedisWorld) : RedisAction → Option RedisWorld
  | .router _ (.expire _) => none
  | .router r a => (Router.step env ((d.seen store).router r) a).map fun w =>
      { d with worlds := Function.update d.worlds r w, redis := d.commanded store r a }
  | .pass later => if d.now ≤ later then some { d with now := later } else none
  | .foreign name stored =>
    if Text.startsWith name "conv:" then none
    else some { d with redis := (stored.map (d.redis.insert name)).getD (d.redis.erase name) }

/-- The action sends no command for the conversation that takes effect. -/
def Untouched (key : String) (d : RedisWorld) : RedisAction → Prop
  | .router r (.clear t true) | .router r (.put t true) => ∀ route stage,
    (d.worlds r).handlers t = .admitted route stage → route.key ≠ some key
  | _ => True

end RedisWorld

variable {env store} {w w' : World} {d d' d₀ : RedisWorld}

theorem redisKey_startsWith (key : String) : Text.startsWith (redisKey key) "conv:" = true := by
  rw [Text.startsWith, redisKey, String.toList_append, List.isPrefixOf_iff_prefix]
  exact List.prefix_append ..

theorem redisKey_ne {name : String} (other : Text.startsWith name "conv:" = false) (key : String) :
    redisKey key ≠ name := by
  rintro rfl
  rw [redisKey_startsWith] at other
  cases other

/-- Pins that go are gone one after another. By induction on their conversations. -/
theorem expires (worlds : Nat → World) {who : Nat → Prop} (keys : List String)
    (pins pins' : AffinityStore)
    (gone : ∀ key, pins' key ≠ pins key → key ∈ keys ∧ pins' key = none) :
    Run (Replicas.step env) (fun _ a => a.By who) ⟨worlds, pins⟩ ⟨worlds, pins'⟩ := by
  induction keys generalizing pins with
  | nil =>
    have same : pins' = pins := by
      funext key
      by_contra differs
      exact List.not_mem_nil (gone key differs).1
    rw [same]
    exact .here
  | cons first keys ih =>
    by_cases kept : pins' first = pins first
    · refine ih pins fun key differs => ?_
      obtain ⟨member, none⟩ := gone key differs
      rcases List.mem_cons.mp member with rfl | later
      · exact (differs kept).elim
      · exact ⟨later, none⟩
    · have taken : Replicas.step env ⟨worlds, pins⟩ (.expire first) =
        some ⟨worlds, Function.update pins first none⟩ := rfl
      have allowed : (ReplicasAction.expire first).By who := trivial
      refine Run.head allowed taken (ih _ fun key differs => ?_)
      by_cases same : key = first
      · subst same
        rw [Function.update_self] at differs
        exact (differs (gone key kept).2).elim
      · rw [Function.update_of_ne same] at differs
        obtain ⟨member, none⟩ := gone key differs
        exact ⟨(List.mem_cons.mp member).resolve_left same, none⟩

/-- What a step of a router does to the pins is what its command does in Redis. -/
theorem commanded_affinity {r : Nat} {a : Action} (mortal : ∀ key, a ≠ .expire key)
    (rule : Step env ((d.seen store).router r) a w') :
    w'.state.affinity = some (store.get (d.commanded store r a) d.now) := by
  have seen : ((d.seen store).router r).state.affinity = some (store.get d.redis d.now) := rfl
  cases rule with
  | expire => exact (mortal _ rfl).elim
  | read => simp [seen, RedisWorld.commanded]
  | @clear t route account fallback answered here =>
    have here' : (d.worlds r).handlers t = .admitted route (.clearing account fallback) := here
    cases answered with
    | false => exact seen
    | true =>
      cases keyed : route.key with
      | none => simp [RedisWorld.commanded, here', keyed, AppState.setPin, seen]
      | some key =>
        simp only [World.go_rest, World.withState_rest, if_true, RedisWorld.commanded, here', keyed,
          AppState.setPin, seen, Option.map_some, Option.getD_some]
        refine congrArg some (funext fun key' => ?_)
        rw [store.get_clear, Function.update_apply]
  | @put t route slug source response here =>
    have here' : (d.worlds r).handlers t = .admitted route (.pinning slug source response) := here
    simp only [World.go_rest, World.withState_rest, AppState.maybePin, RedisWorld.commanded, here']
    split
    · exact seen
    · cases keyed : route.key with
      | none => simp [AppState.setPin, seen]
      | some key =>
        simp only [AppState.setPin, seen, Option.map_some, Option.getD_some]
        refine congrArg some (funext fun key' => ?_)
        have live : d.now < d.now + store.ttlSecs := Nat.lt_add_of_pos_right store.lasting
        rw [store.get_put, Function.update_apply, if_pos live]
  | _ => exact seen

namespace RedisWorld

theorem step_router {r : Nat} {a : Action} (taken : d.step env store (.router r a) = some d') :
    (∀ key, a ≠ .expire key) ∧ ∃ w', Router.step env ((d.seen store).router r) a = some w' ∧
      d' = { d with worlds := Function.update d.worlds r w', redis := d.commanded store r a } := by
  have mortal : ∀ key, a ≠ .expire key := by
    rintro key rfl
    cases taken
  have moved : (Router.step env ((d.seen store).router r) a).map (fun w =>
      { d with worlds := Function.update d.worlds r w, redis := d.commanded store r a }) =
        some d' := by
    cases a with
    | expire key => exact (mortal key rfl).elim
    | _ => exact taken
  obtain ⟨w', stepped, same⟩ := Option.map_eq_some_iff.mp moved
  exact ⟨mortal, w', stepped, same.symm⟩

/-- Another program's command leaves what is under other names. -/
theorem foreign_lookup {name : String} (other : Text.startsWith name "conv:" = false)
    (redis : Redis) (stored : Option Stored) (key : String) :
    ((stored.map (redis.insert name)).getD (redis.erase name)).lookup (redisKey key) =
      redis.lookup (redisKey key) := by
  cases stored with
  | none => exact AList.lookup_erase_ne (redisKey_ne other key)
  | some => exact AList.lookup_insert_ne (redisKey_ne other key)

/-- Each step is matched: one of a router by itself, and passing time by the pins that go. -/
theorem refines_step {who : Nat → Prop} {a : RedisAction} (allowed : a.By who)
    (taken : d.step env store a = some d') :
    Run (Replicas.step env) (fun _ a => a.By who) (d.seen store) (d'.seen store) := by
  cases a with
  | router r a =>
    obtain ⟨mortal, w', stepped, rfl⟩ := step_router taken
    have pins := commanded_affinity mortal (step_spec env stepped)
    have moved : (d.seen store).step env (.router r a) = some (RedisWorld.seen store
        { d with worlds := Function.update d.worlds r w', redis := d.commanded store r a }) := by
      have same : (d.seen store).moved r w' = RedisWorld.seen store
          { d with worlds := Function.update d.worlds r w', redis := d.commanded store r a } := by
        rw [Replicas.moved, pins]
        rfl
      rw [← same]
      cases a with
      | expire key => exact (mortal key rfl).elim
      | _ => exact congrArg (Option.map _) stepped
    have allowed' : (ReplicasAction.router r a).By who := allowed
    exact .step .here allowed' moved
  | pass later =>
    simp only [step, Option.ite_none_right_eq_some, Option.some.injEq] at taken
    obtain ⟨passed, rfl⟩ := taken
    have finite : {key | redisKey key ∈ d.redis.keys}.Finite :=
      Set.Finite.preimage redisKey_injective.injOn (List.finite_toSet d.redis.keys)
    refine expires d.worlds finite.toFinset.toList _ _ fun key differs => ?_
    obtain ⟨listed, none⟩ := store.get_later passed key differs
    exact ⟨by simpa using listed, none⟩
  | foreign name stored =>
    simp only [step] at taken
    split at taken
    · cases taken
    · rename_i other
      cases taken
      have same : store.get ((stored.map (d.redis.insert name)).getD (d.redis.erase name)) d.now =
          store.get d.redis d.now := by
        funext key
        have lookup := foreign_lookup (Bool.not_eq_true _ ▸ other) d.redis stored key
        exact store.get_congr (Redis.find_congr lookup d.now)
      rw [seen, seen, same]
      exact .here

/-- What is stored for a conversation stays while no command for it takes effect. -/
theorem lookup_step {key : String} {a : RedisAction} (quiet : Untouched key d a)
    (taken : d.step env store a = some d') :
    d'.redis.lookup (redisKey key) = d.redis.lookup (redisKey key) := by
  cases a with
  | router r a =>
    obtain ⟨mortal, w', stepped, rfl⟩ := step_router taken
    have apart {route : Route} {key' : String} (keyed : route.key = some key')
        (others : route.key ≠ some key) : redisKey key ≠ redisKey key' := by
      intro same
      rw [redisKey_injective same] at others
      exact others keyed
    simp only [commanded]
    split
    · split
      · rename_i here
        have others := quiet _ _ here
        cases keyed : Route.key _ with
        | none => rfl
        | some key' => exact AList.lookup_erase_ne (apart keyed others)
      · rfl
    · split
      · rename_i here
        have others := quiet _ _ here
        split
        · rfl
        · cases keyed : Route.key _ with
          | none => rfl
          | some key' => exact AList.lookup_insert_ne (apart keyed others)
      · rfl
    · rfl
  | pass later =>
    simp only [step, Option.ite_none_right_eq_some, Option.some.injEq] at taken
    obtain ⟨_, rfl⟩ := taken
    rfl
  | foreign name stored =>
    simp only [step] at taken
    split at taken
    · cases taken
    · rename_i other
      cases taken
      exact foreign_lookup (Bool.not_eq_true _ ▸ other) d.redis stored key

/-- An answer sets the pin, whether it was there or not, and from then on it is found for as long
as it lives. -/
theorem pinned_lasts {r t : Nat} (here : (d.worlds r).handlers t =
      .admitted route (.pinning slug source response))
    (kept : source ≠ .fallback) (keyed : route.key = some key) :
    ∃ d₁, d.step env store (.router r (.put t true)) = some d₁ ∧
      ∀ d₂, Run (step env store) (Untouched key) d₁ d₂ → store.get d₂.redis d₂.now key =
        if d₂.now < d.now + store.ttlSecs then some ⟨slug, route.model⟩ else none := by
  have here' : ((d.seen store).router r).handlers t =
    .admitted route (.pinning slug source response) := here
  have stepped : ∃ w', Router.step env ((d.seen store).router r) (.put t true) = some w' := by
    rw [Router.step, here']
    exact ⟨_, rfl⟩
  obtain ⟨w', stepped⟩ := stepped
  refine ⟨_, congrArg (Option.map _) stepped, fun d₂ later => ?_⟩
  let inv (d' : RedisWorld) : Prop := d'.redis.lookup (redisKey key) =
    (store.put d.redis d.now key ⟨slug, route.model⟩).lookup (redisKey key)
  have stays : inv d₂ := by
    refine later.invariant ?_ fun known quiet taken => (lookup_step quiet taken).trans known
    simp only [inv, commanded, here, if_neg kept, keyed, Option.map_some, Option.getD_some]
  rw [store.get_congr (Redis.find_congr stays d₂.now), store.get_put, if_pos rfl]

end RedisWorld

/-- Every run of routers over one Redis, whatever is lost, expires or is stored by others under
names of their own, is a run of the same routers over one plain table, and of a plain router
where only one acts; so a pin that a lookup finds was there at the start or is what the final
answer to a request of that very conversation left, at one of the routers. Each answer that sets
a pin, be it there or not, starts its time to live anew: while no other command for the
conversation takes effect, the pin is found until that is over, and not afterwards. -/
theorem redis_refines {who : Nat → Prop} (starts : ∀ r, ((d₀.seen store).router r).Starts)
    (reached : Run (RedisWorld.step env store) (fun _ a => a.By who) d₀ d) :
    Run (Replicas.step env) (fun _ a => a.By who) (d₀.seen store) (d.seen store) ∧
    (∀ r, (∀ r', who r' → r' = r) → Run (Router.step env) (fun _ _ => True)
      ((d₀.seen store).router r) ((d.seen store).router r)) ∧
    (∀ key pin, store.get d.redis d.now key = some pin →
      store.get d₀.redis d₀.now key = some pin ∨ ∃ r, (d.worlds r).Leaves key pin) ∧
    ∀ r t route slug source response key,
      (d.worlds r).handlers t = .admitted route (.pinning slug source response) →
      source ≠ .fallback → route.key = some key →
      ∃ d₁, d.step env store (.router r (.put t true)) = some d₁ ∧
        ∀ d₂, Run (RedisWorld.step env store) (RedisWorld.Untouched key) d₁ d₂ →
          store.get d₂.redis d₂.now key =
            if d₂.now < d.now + store.ttlSecs then some ⟨slug, route.model⟩ else none := by
  have refined : Run (Replicas.step env) (fun _ a => a.By who) (d₀.seen store) (d.seen store) := by
    induction reached with
    | here => exact .here
    | step _ allowed taken ih => exact ih.trans (RedisWorld.refines_step allowed taken)
  refine ⟨refined, fun r only => ?_, fun key pin found => Replicas.pins_run starts refined found,
    fun _ _ _ _ _ _ _ => RedisWorld.pinned_lasts⟩
  refine Replicas.alone (refined.mono fun _ a by' => ?_)
  cases a with
  | router r' => exact only r' by'
  | expire => trivial

end

/-- The pin that a handler is about to leave. -/
def Handler.leaving : Handler → Option (Option String × Pin)
  | .admitted route (.pinning slug source _) =>
    if source = .fallback then none else some (route.key, ⟨slug, route.model⟩)
  | _ => none

theorem Handler.leaving_some {handler : Handler} (leaves : handler.leaving = some (key, pin)) :
    ∃ route source response, handler = .admitted route (.pinning pin.slug source response) ∧
      source ≠ .fallback ∧ route.key = key ∧ route.model = pin.model := by
  cases handler with
  | admitted route stage =>
    cases stage with
    | pinning slug source response =>
      rw [leaving, Option.ite_none_left_eq_some] at leaves
      obtain ⟨first, same⟩ := leaves
      cases same
      exact ⟨route, source, response, rfl, first, rfl, rfl⟩
    | _ => cases leaves
  | _ => cases leaves

namespace Sample

def store : RedisAffinityStore := ⟨JsonText.codec, 86400, by decide⟩

/-- Nothing is stored yet. -/
def empty : RedisWorld := ⟨fun _ => world, ∅, 0⟩

/-- A request of the conversation at one of the routers, up to its answer by the first account. -/
def visit (r : Nat) : List RedisAction :=
  [.router r (arrive 0), .router r (.read 0 true), .router r (.choose 0 fun _ => 0),
    .router r (.respond 0 0 (answer 200))]

/-- One router is asked, and another an hour later. -/
def visits : List RedisAction := visit 0 ++ [.router 0 (.put 0 true), .pass 3600] ++ visit 1

def visited : RedisWorld := (visits.foldlM (RedisWorld.step env store) empty).getD empty

theorem visited_run :
    Run (RedisWorld.step env store) (fun _ a => a.By fun _ => True) empty visited := by
  have moves : (visits.foldlM (RedisWorld.step env store) empty).isSome := by decide +kernel
  have taken : visits.foldlM (RedisWorld.step env store) empty = some visited := by
    obtain ⟨d, taken⟩ := Option.isSome_iff_exists.mp moves
    rw [visited, taken, Option.getD_some]
  have allowed : ∀ a ∈ visits, a.By fun _ => True := by
    simp [visits, visit, RedisAction.By]
  exact .replay (fun a member _ => allowed a member) taken

end Sample

/-- The second router finds the first one's pin, and its answer keeps it for another day. -/
theorem redis_refines_visited : (∃ r, (Sample.visited.worlds r).Leaves "k" ⟨"a", ""⟩) ∧
    ∃ d, Sample.visited.step Sample.env Sample.store (.router 1 (.put 0 true)) = some d ∧
      Sample.store.get d.redis 89999 "k" = some ⟨"a", ""⟩ ∧
      Sample.store.get d.redis 90000 "k" = none := by
  have starts (r : Nat) : ((Sample.empty.seen Sample.store).router r).Starts :=
    ⟨fun _ => rfl, fun _ => rfl, rfl, Sample.starts.healthy⟩
  obtain ⟨_, _, explained, lasts⟩ := redis_refines starts Sample.visited_run
  have found : Sample.store.get Sample.visited.redis Sample.visited.now "k" = some ⟨"a", ""⟩ := by
    decide +kernel
  have leaves : ((Sample.visited.worlds 1).handlers 0).leaving = some (some "k", ⟨"a", ""⟩) := by
    decide +kernel
  have hour : Sample.visited.now = 3600 := by decide +kernel
  obtain ⟨route, source, response, here, kept, keyed, model⟩ := Handler.leaving_some leaves
  obtain ⟨d, taken, later⟩ := lasts 1 0 route "a" source response "k" here kept keyed
  obtain ⟨_, _, _, moved⟩ := RedisWorld.step_router taken
  have now : d.now = 3600 := by rw [moved, hour]
  have passes (time : Nat) (passed : 3600 ≤ time) :
      Run (RedisWorld.step Sample.env Sample.store) (RedisWorld.Untouched "k") d
        { d with now := time } := by
    refine .step .here (a := .pass time) trivial ?_
    rw [RedisWorld.step, now, if_pos passed]
  refine ⟨(explained "k" _ found).resolve_left (by rintro ⟨⟩), d, taken, ?_, ?_⟩
  · have lives : 89999 < Sample.visited.now + Sample.store.ttlSecs := by
      rw [hour]
      decide
    have found := later _ (passes 89999 (by decide))
    rwa [if_pos lives, model] at found
  · have passed : ¬ 90000 < Sample.visited.now + Sample.store.ttlSecs := by
      rw [hour]
      decide
    have found := later _ (passes 90000 (by decide))
    rwa [if_neg passed] at found

end CodexProxy.Router
