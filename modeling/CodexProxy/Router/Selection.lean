import Mathlib.Algebra.Ring.Nat
import Mathlib.Data.List.Rotate
import CodexProxy.Request.Model
import CodexProxy.Router.Pool

/-! Which account a pick selects: the order of the round robin, its fairness, and what a
tier gate means for requests that spell the same model in another way. -/
namespace CodexProxy.Router
namespace AccountPool
variable (pool : AccountPool)

/-- The accounts in cyclic order from the counter. -/
def order : List Account := pool.accounts.rotate pool.next.toNat

/-- The counter is more than the pool's size away from its end. -/
def Roomy : Prop := pool.next.toNat + pool.accounts.length < 2 ^ 64 - 1

/-- Neither excluded nor gating the model. -/
def Ungated (exclude : Option String) (model : String) (now : Instant) (account : Account) : Prop :=
  some account.slug ≠ exclude ∧ pool.isModelCooling account.slug model now = false

/-- Not cooling either. -/
def Healthy (exclude : Option String) (model : String) (now : Instant) (account : Account) : Prop :=
  pool.Ungated exclude model now account ∧ pool.isCooling account.slug now = false

instance (exclude : Option String) (model : String) (now : Instant) :
    DecidablePred (pool.Ungated exclude model now) :=
  fun _ => inferInstanceAs (Decidable (_ ∧ _))

instance (exclude : Option String) (model : String) (now : Instant) :
    DecidablePred (pool.Healthy exclude model now) :=
  fun _ => inferInstanceAs (Decidable (_ ∧ _))

variable {pool}

/-- Without a wrap the scan of a pick goes through the order. -/
theorem Roomy.order_eq (roomy : pool.Roomy) :
    pool.order = (List.range pool.accounts.length).map (pool.cyclic pool.next) := by
  apply List.ext_getElem
  · simp [order]
  intro i within _
  rw [order, List.length_rotate] at within
  have small : (UInt64.ofNat i).toNat = i := UInt64.toNat_ofNat_of_lt' (by
    have := roomy
    rw [Roomy] at this
    simp only [UInt64.size]
    omega)
  have sum : (pool.next + .ofNat i).toNat = pool.next.toNat + i := by
    rw [UInt64.toNat_add, small, Nat.mod_eq_of_lt]
    have := roomy
    rw [Roomy] at this
    omega
  simp only [order, List.getElem_rotate, List.getElem_map, List.getElem_range, cyclic, sum,
    List.get_eq_getElem, Nat.add_comm i]

/-- With a clock that stands still a pick is two searches of the order. -/
theorem Roomy.pick_eq (roomy : pool.Roomy) (now : Instant) (exclude : Option String)
    (model : String) : (pool.pick (fun _ => now) exclude model).1 =
      ((pool.order.find? (pool.Healthy exclude model now ·)).or
        (pool.order.find? (pool.Ungated exclude model now ·))).or pool.accounts.head? := by
  rw [roomy.order_eq, List.find?_map, List.find?_map, ← Option.map_or]
  simp only [pick, if_neg pool.filled]
  congr 4
  · funext i
    simp only [Function.comp_apply, Healthy, Ungated]
    grind
  · funext i
    simp only [Function.comp_apply, Ungated]
    grind

/-- The first of a list that has a property. -/
def IsFirst (p : Account → Prop) (accounts : List Account) (account : Account) : Prop :=
  ∃ before after, accounts = before ++ account :: after ∧ p account ∧ ∀ other ∈ before, ¬ p other

theorem find?_isFirst {p : Account → Prop} [DecidablePred p] {accounts : List Account}
    {account : Account} (found : accounts.find? (p ·) = some account) : IsFirst p accounts account := by
  obtain ⟨holds, before, after, split, others⟩ := List.find?_eq_some_iff_append.mp found
  exact ⟨before, after, split, by simpa using holds, by simpa using others⟩

/-- The first healthy account, or else the first that does not gate the model, or else the
pool's first. -/
theorem Roomy.pick_priority (roomy : pool.Roomy) (now : Instant) (exclude : Option String)
    (model : String) : ∃ account, (pool.pick (fun _ => now) exclude model).1 = some account ∧
      (IsFirst (pool.Healthy exclude model now) pool.order account ∨
        (∀ other ∈ pool.order, ¬ pool.Healthy exclude model now other) ∧
        (IsFirst (pool.Ungated exclude model now) pool.order account ∨
          (∀ other ∈ pool.order, ¬ pool.Ungated exclude model now other) ∧
          pool.accounts.head? = some account)) := by
  obtain ⟨account, _, picked⟩ := pool.pick_mem (fun _ => now) exclude model
  refine ⟨account, picked, ?_⟩
  rw [roomy.pick_eq] at picked
  cases healthy : pool.order.find? (pool.Healthy exclude model now ·) with
  | some first =>
    rw [healthy, Option.some_or, Option.some_or] at picked
    cases picked
    exact .inl (find?_isFirst healthy)
  | none =>
    rw [healthy, Option.none_or] at picked
    refine .inr ⟨by simpa using healthy, ?_⟩
    cases ungated : pool.order.find? (pool.Ungated exclude model now ·) with
    | some first =>
      rw [ungated, Option.some_or] at picked
      cases picked
      exact .inl (find?_isFirst ungated)
    | none =>
      rw [ungated, Option.none_or] at picked
      exact .inr ⟨by simpa using ungated, picked⟩

/-- Picks without an exclusion, each with its own clock and model. -/
def picks (pool : AccountPool) : List ((Nat → Instant) × String) → List (Option Account)
  | [] => []
  | (clock, model) :: requests =>
    let (account, pool) := pool.pick clock none model
    account :: pool.picks requests

/-- Nothing stands in the way of a request. -/
def Idle (pool : AccountPool) (request : (Nat → Instant) × String) : Prop :=
  ∀ account ∈ pool.accounts, ∀ i, pool.isCooling account.slug (request.1 i) = false ∧
    pool.isModelCooling account.slug request.2 (request.1 i) = false

/-- An idle pool returns the account at its counter. -/
theorem Idle.pick {request : (Nat → Instant) × String} (idle : pool.Idle request) :
    pool.pick request.1 none request.2 =
      (some (pool.cyclic pool.next 0), { pool with next := pool.next + 1 }) := by
  obtain ⟨n, size⟩ := Nat.exists_eq_succ_of_ne_zero pool.filled
  have free := idle _ (pool.cyclic_mem pool.next 0)
  simp only [AccountPool.pick, size, List.range_succ_eq_map]
  simp [(free 0).1, (free 1).2]

/-- Idle picks go round from the counter. -/
theorem picks_eq {requests : List ((Nat → Instant) × String)}
    (idle : ∀ request ∈ requests, pool.Idle request)
    (room : pool.next.toNat + requests.length < 2 ^ 64) :
    pool.picks requests = (List.range requests.length).map fun k =>
      some (pool.accounts.get ⟨(pool.next.toNat + k) % pool.accounts.length,
        Nat.mod_lt _ (Nat.pos_of_ne_zero pool.filled)⟩) := by
  induction requests generalizing pool with
  | nil => rfl
  | cons request requests ih =>
    rw [List.length_cons] at room
    have counted : (pool.next + 1).toNat = pool.next.toNat + 1 := by
      rw [UInt64.toNat_add, UInt64.toNat_one, Nat.mod_eq_of_lt (by omega)]
    have later : ({ pool with next := pool.next + 1 } : AccountPool).picks requests = _ := ih
      (fun request member => idle request (List.mem_cons_of_mem _ member))
      (by simp only [counted]; omega)
    rw [picks, (idle _ List.mem_cons_self).pick]
    simp only [later, counted, List.length_cons, List.range_succ_eq_map, List.map_cons,
      List.map_map, Nat.add_right_comm _ 1, Function.comp_def, Nat.succ_eq_add_one]
    simp [cyclic, Nat.add_assoc]

/-- As many idle picks as there are accounts return every account once. -/
theorem Roomy.picks_perm (roomy : pool.Roomy) {requests : List ((Nat → Instant) × String)}
    (each : requests.length = pool.accounts.length)
    (idle : ∀ request ∈ requests, pool.Idle request) :
    (pool.picks requests).Perm (pool.accounts.map some) := by
  have around : pool.picks requests = pool.order.map some := by
    have room := roomy
    rw [Roomy] at room
    rw [picks_eq idle (by omega), each]
    apply List.ext_getElem
    · simp [order]
    · intro i _ _
      simp [order, List.getElem_rotate, Nat.add_comm i]
  rw [around]
  exact (pool.accounts.rotate_perm _).map some

/-- Away from the end of the counter, a pick follows the round robin by its priorities, and
as many idle picks as there are accounts return every account once. -/
theorem pick_round_robin (pool : AccountPool) (roomy : pool.Roomy) :
    (∀ (now : Instant) (exclude : Option String) (model : String),
      ∃ account, (pool.pick (fun _ => now) exclude model).1 = some account ∧
        (IsFirst (pool.Healthy exclude model now) pool.order account ∨
          (∀ other ∈ pool.order, ¬ pool.Healthy exclude model now other) ∧
          (IsFirst (pool.Ungated exclude model now) pool.order account ∨
            (∀ other ∈ pool.order, ¬ pool.Ungated exclude model now other) ∧
            pool.accounts.head? = some account))) ∧
    ∀ requests : List ((Nat → Instant) × String), requests.length = pool.accounts.length →
      (∀ request ∈ requests, pool.Idle request) →
      (pool.picks requests).Perm (pool.accounts.map some) :=
  ⟨roomy.pick_priority, fun _ each idle => roomy.picks_perm each idle⟩

end AccountPool

namespace Sample

/-- Two accounts that have nothing against them. -/
def duo : AccountPool where
  accounts := [⟨"a", "http://pod-a"⟩, ⟨"b", "http://pod-b"⟩]
  next := 4
  cooldownUntil _ := none
  modelCooldownUntil _ := none
  nonempty := by simp
  distinct := by decide

end Sample

theorem pick_round_robin_duo :
    (Sample.duo.picks [(fun _ => 0, "gpt-5"), (fun _ => 1, "")]).Perm
      (Sample.duo.accounts.map some) ∧
    ∃ account, (Sample.duo.pick (fun _ => 0) (some "b") "gpt-5").1 = some account := by
  have robin := AccountPool.pick_round_robin Sample.duo (by simp [AccountPool.Roomy, Sample.duo])
  refine ⟨robin.2 _ rfl fun _ _ _ _ _ => ⟨rfl, by simp [AccountPool.isModelCooling, Sample.duo]⟩, ?_⟩
  obtain ⟨account, picked, _⟩ := robin.1 0 (some "b") "gpt-5"
  exact ⟨account, picked⟩

namespace AccountPool
variable {pool : AccountPool}

/-- What a pod makes of the model of a request. -/
def backendModel (model : String) : String := Request.normalizeModel (Text.trim model)

/-- An attempt with this model has found the account's gate, and that cooldown lasts
whenever the clock is read. -/
def Gated (pool : AccountPool) (clock : Nat → Instant) (slug model : String) : Prop :=
  ∀ i, pool.isModelCooling slug model (clock i) = true

/-- A request with this model does not get the account from a pin, nor from a pick while
another account is neither excluded nor gated. -/
def Avoids (pool : AccountPool) (clock : Nat → Instant) (slug model : String) : Prop :=
  pool.pinned clock slug model = none ∧
  ∀ exclude account other, (pool.pick clock exclude model).1 = some account → account.slug = slug →
    other ∈ pool.accounts → some other.slug ≠ exclude →
    ¬ ∀ i, pool.isModelCooling other.slug model (clock i) = false

/-- The scan of a pick reaches every account but perhaps the first, with which a pick ends
anyway. -/
def Covered (pool : AccountPool) : Prop :=
  ∀ account ∈ pool.accounts.tail, ∃ i < pool.accounts.length, pool.cyclic pool.next i = account

/-- Only close to the end of the counter a scan may miss an account. -/
theorem Roomy.covered (roomy : pool.Roomy) : pool.Covered := by
  intro account member
  have ordered : account ∈ pool.order := List.mem_rotate.mpr (List.mem_of_mem_tail member)
  rw [roomy.order_eq, List.mem_map] at ordered
  obtain ⟨i, within, here⟩ := ordered
  exact ⟨i, List.mem_range.mp within, here⟩

/-- A pick returns an account that its scan has found not to gate the model, or the first
after the scan has found no such account. -/
theorem pick_cases {clock : Nat → Instant} {exclude : Option String} {model : String}
    {account : Account} (picked : (pool.pick clock exclude model).1 = some account) :
    (∃ j < pool.accounts.length, pool.cyclic pool.next j = account ∧
      ∃ i, pool.isModelCooling account.slug model (clock i) = false) ∨
    pool.accounts.head? = some account ∧ ∀ i < pool.accounts.length,
      some (pool.cyclic pool.next i).slug ≠ exclude →
      pool.isModelCooling (pool.cyclic pool.next i).slug model
        (clock (2 * pool.accounts.length + i)) = true := by
  simp only [pick, if_neg pool.filled] at picked
  generalize healthy : List.find? _ _ = first at picked
  cases first with
  | some i =>
    cases picked
    have seen := List.find?_some healthy
    simp only [Bool.not_eq_true', Bool.or_eq_false_iff] at seen
    have within := List.mem_range.mp (List.mem_of_find?_eq_some healthy)
    exact .inl ⟨i, within, rfl, _, seen.2⟩
  | none =>
    rw [Option.none_or] at picked
    generalize ungated : List.find? _ _ = second at picked
    cases second with
    | some i =>
      cases picked
      have seen := List.find?_some ungated
      simp only [Bool.not_eq_true', Bool.or_eq_false_iff] at seen
      have within := List.mem_range.mp (List.mem_of_find?_eq_some ungated)
      exact .inl ⟨i, within, rfl, _, seen.2⟩
    | none =>
      refine .inr ⟨picked, fun i within kept => ?_⟩
      have seen := List.find?_eq_none.mp ungated i (List.mem_range.mpr within)
      simpa [kept] using seen

/-- The very model that a gate was found with is kept away from it. -/
theorem Gated.avoids {clock : Nat → Instant} {slug model : String} (covered : pool.Covered)
    (gated : pool.Gated clock slug model) : pool.Avoids clock slug model := by
  refine ⟨by simp [pinned, gated 1], ?_⟩
  rintro exclude account other picked rfl member kept free
  rcases pick_cases picked with ⟨_, _, _, i, free'⟩ | ⟨first, seen⟩
  · rw [gated i] at free'
    cases free'
  · obtain ⟨_, accounts⟩ := List.head?_eq_some_iff.mp first
    have different : other ≠ account := by
      rintro rfl
      have cooling := gated 0
      rw [free 0] at cooling
      cases cooling
    have behind : other ∈ pool.accounts.tail := by
      rw [accounts, List.mem_cons] at member
      rw [accounts]
      exact member.resolve_left different
    obtain ⟨i, within, rfl⟩ := covered other behind
    have cooling := seen i within kept
    rw [free] at cooling
    cases cooling

theorem cooldownModel_until {slug model : String} (named : model ≠ "") {since : Instant} :
    (pool.cooldownModel slug model since).modelCooldownUntil (slug, model) =
      some (since + COOLDOWN) := by
  rw [cooldownModel, if_neg named]
  exact Function.update_self ..

theorem isModelCooling_of_lt {slug model : String} (named : model ≠ "") {now until' : Instant}
    (noted : pool.modelCooldownUntil (slug, model) = some until') (lasts : now < until') :
    pool.isModelCooling slug model now = true := by
  rw [isModelCooling, if_neg named, noted]
  simpa using lasts

/-- What an attempt notes is a gate until it lapses. -/
theorem gated_cooldownModel {slug model : String} (named : model ≠ "") {since : Instant}
    {clock : Nat → Instant} (lasts : ∀ i, clock i < since + COOLDOWN) :
    (pool.cooldownModel slug model since).Gated clock slug model :=
  fun i => isModelCooling_of_lt named (cooldownModel_until named) (lasts i)

/-- The head may gate a model under its first spelling only. -/
theorem same_of_respected (pool : AccountPool) {first second : String} (named : first ≠ "")
    (respected : ∀ cooldownUntil modelCooldownUntil clock slug,
      Gated { pool with cooldownUntil, modelCooldownUntil } clock slug first →
      Avoids { pool with cooldownUntil, modelCooldownUntil } clock slug second) :
    first = second := by
  obtain ⟨head, tail, accounts⟩ := List.exists_cons_of_ne_nil pool.nonempty
  by_contra different
  have avoided := respected (fun _ => none)
    (fun key => if key = (head.slug, first) then some 1 else none) (fun _ => 0) head.slug
    (fun _ => by simp [isModelCooling, named])
  have pinned' := avoided.1
  simp [pinned, isCooling, isModelCooling, Ne.symm different, accounts] at pinned'

/-- All accounts may gate a model but the one that a scan misses. -/
theorem covered_of_respected (pool : AccountPool) {model : String} (named : model ≠ "")
    (respected : ∀ cooldownUntil modelCooldownUntil clock slug,
      Gated { pool with cooldownUntil, modelCooldownUntil } clock slug model →
      Avoids { pool with cooldownUntil, modelCooldownUntil } clock slug model) :
    pool.Covered := by
  obtain ⟨head, tail, accounts⟩ := List.exists_cons_of_ne_nil pool.nonempty
  intro account member
  by_contra missed
  have unique : ∀ other ∈ pool.accounts, other.slug = account.slug → other = account :=
    fun other member' same => List.inj_on_of_nodup_map pool.distinct member'
      (List.mem_of_mem_tail member) same
  have behind : head.slug ≠ account.slug := by
    have distinct := pool.distinct
    rw [accounts, List.map_cons, List.nodup_cons] at distinct
    rw [accounts, List.tail_cons] at member
    exact fun same => distinct.1 (same ▸ List.mem_map_of_mem member)
  let gates (key : String × String) : Option Instant :=
    if key.1 = account.slug then none else some 1
  let pool' : AccountPool :=
    { pool with cooldownUntil := fun _ => none, modelCooldownUntil := gates }
  have free (slug : String) (i : Nat) : pool'.isModelCooling slug model 0 = false ↔
      slug = account.slug := by
    by_cases same : slug = account.slug <;> simp [isModelCooling, named, pool', gates, same]
  have avoided := respected (fun _ => none) gates (fun _ => 0) head.slug
    (fun _ => by simp [isModelCooling, named, gates, behind])
  obtain ⟨first, member', picked⟩ := pool'.pick_mem (fun _ => 0) none model
  rcases pick_cases picked with ⟨j, within, here, _, free'⟩ | ⟨ends, _⟩
  · have found := unique first member' ((free _ 0).mp free')
    exact missed ⟨j, within, here.trans found⟩
  · have start : pool'.accounts.head? = some head := by
      rw [show pool'.accounts = _ from accounts]
      rfl
    cases start.symm.trans ends
    exact avoided.2 none head account picked rfl (List.mem_of_mem_tail member) (by simp)
      fun i => (free _ i).mpr rfl

/-- A gate is respected for two models alike exactly when they are spelled alike, whatever
the pods make of them, and the scan misses no account. -/
theorem gate_respected_iff (pool : AccountPool) {first second : String} (named : first ≠ "")
    (named' : second ≠ "") (_same : backendModel first = backendModel second) :
    (∀ cooldownUntil modelCooldownUntil clock slug,
      Gated { pool with cooldownUntil, modelCooldownUntil } clock slug first →
      Avoids { pool with cooldownUntil, modelCooldownUntil } clock slug second) ↔
      first = second ∧ pool.Covered := by
  constructor
  · intro respected
    have alike := same_of_respected pool named respected
    subst alike
    exact ⟨rfl, covered_of_respected pool named respected⟩
  · rintro ⟨rfl, covered⟩ cooldownUntil modelCooldownUntil clock slug gated
    exact gated.avoids covered

theorem gate_respected_iff_duo :
    Gated (Sample.duo.cooldownModel "a" "gpt-5" 0) (fun _ => 1) "a" "gpt-5" ∧
    Avoids (Sample.duo.cooldownModel "a" "gpt-5" 0) (fun _ => 1) "a" "gpt-5" := by
  have gated : Gated (Sample.duo.cooldownModel "a" "gpt-5" 0) (fun _ => 1) "a" "gpt-5" :=
    gated_cooldownModel (by decide) fun _ => by decide
  have roomy : Sample.duo.Roomy := by simp [Roomy, Sample.duo]
  have named : "gpt-5" ≠ "" := by decide
  have respected := (gate_respected_iff Sample.duo named named rfl).mpr ⟨rfl, roomy.covered⟩
  exact ⟨gated, respected _ _ _ _ gated⟩

/-- A gate that was found with `gpt-5` is nothing to a request that writes it in capitals. -/
theorem respelled_model_meets_gate : backendModel "gpt-5" = backendModel "GPT-5" ∧
    Gated (Sample.duo.cooldownModel "a" "gpt-5" 0) (fun _ => 1) "a" "gpt-5" ∧
    (Sample.duo.cooldownModel "a" "gpt-5" 0).pinned (fun _ => 1) "a" "GPT-5" =
      some ⟨"a", "http://pod-a"⟩ ∧
    ((Sample.duo.cooldownModel "a" "gpt-5" 0).pick (fun _ => 1) none "GPT-5").1 =
      some ⟨"a", "http://pod-a"⟩ ∧
    ∀ model, (Sample.duo.cooldownModel "a" "gpt-5" 0).isModelCooling "b" model 1 = false := by
  refine ⟨by decide +kernel, gated_cooldownModel (by decide) (fun _ => by decide), ?_, ?_, ?_⟩
  · simp [pinned, isCooling, isModelCooling, cooldownModel, Sample.duo]
  · simp [pick, cyclic, isCooling, isModelCooling, cooldownModel, Sample.duo, List.range_succ]
  · intro model
    simp [isModelCooling, cooldownModel, Sample.duo]

end AccountPool
end CodexProxy.Router
