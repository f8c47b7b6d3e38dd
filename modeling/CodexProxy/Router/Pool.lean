import Mathlib.Logic.Function.Basic

/-! The accounts that the router can route to: round-robin selection, and the cooldowns
that it skips. Every check of a cooldown reads the clock for itself. -/
namespace CodexProxy.Router

/-- Nanoseconds of a monotonic clock. -/
abbrev Instant := Nat

def COOLDOWN : Instant := 60 * 1000000000

structure Account where
  slug : String
  url : String

/-- Parsing the accounts rejects an empty list and a repeated slug. -/
structure AccountPool where
  accounts : List Account
  next : UInt64
  cooldownUntil : String → Option Instant
  /-- By slug and model. -/
  modelCooldownUntil : String × String → Option Instant
  nonempty : accounts ≠ []
  distinct : (accounts.map (·.slug)).Nodup

namespace AccountPool
variable (pool : AccountPool)

def isCooling (slug : String) (now : Instant) : Bool := (pool.cooldownUntil slug).any (· > now)

def cooldown (slug : String) (now : Instant) : AccountPool :=
  { pool with
    cooldownUntil := Function.update pool.cooldownUntil slug (some (now + COOLDOWN)) }

def isModelCooling (slug model : String) (now : Instant) : Bool :=
  if model = "" then false else (pool.modelCooldownUntil (slug, model)).any (· > now)

/-- Nothing is noted for an empty model. -/
def cooldownModel (slug model : String) (now : Instant) : AccountPool :=
  if model = "" then pool
  else { pool with modelCooldownUntil :=
    Function.update pool.modelCooldownUntil (slug, model) (some (now + COOLDOWN)) }

/-- The account of a pin, if it is known and not cooling. -/
def pinned (clock : Nat → Instant) (slug model : String) : Option Account :=
  if pool.isCooling slug (clock 0) || pool.isModelCooling slug model (clock 1) then none
  else pool.accounts.find? (·.slug = slug)

/-- The account at a distance from a counter value; the sum wraps, as in a release build. -/
def cyclic (start : UInt64) (i : Nat) : Account :=
  pool.accounts.get ⟨(start + .ofNat i).toNat % pool.accounts.length,
    Nat.mod_lt _ (List.length_pos_iff.mpr pool.nonempty)⟩

/-- Round robin over what is healthy, then over what may only be cooling, then the first. -/
def pick (clock : Nat → Instant) (exclude : Option String) (model : String) :
    Option Account × AccountPool :=
  let n := pool.accounts.length
  if n = 0 then (none, pool)
  else
    let slug i := (pool.cyclic pool.next i).slug
    let healthy := (List.range n).find? fun i => !(some (slug i) = exclude ||
      pool.isCooling (slug i) (clock (2 * i)) ||
      pool.isModelCooling (slug i) model (clock (2 * i + 1)))
    let ungated := (List.range n).find? fun i => !(some (slug i) = exclude ||
      pool.isModelCooling (slug i) model (clock (2 * n + i)))
    (((healthy.or ungated).map (pool.cyclic pool.next)).or pool.accounts.head?,
      { pool with next := pool.next + 1 })

theorem cyclic_mem (start : UInt64) (i : Nat) : pool.cyclic start i ∈ pool.accounts :=
  List.get_mem ..

theorem filled : pool.accounts.length ≠ 0 :=
  fun none => pool.nonempty (List.length_eq_zero_iff.mp none)

/-- A pick always finds an account. -/
theorem pick_mem (clock : Nat → Instant) (exclude : Option String) (model : String) :
    ∃ account ∈ pool.accounts, (pool.pick clock exclude model).1 = some account := by
  obtain ⟨first, rest, accounts⟩ := List.exists_cons_of_ne_nil pool.nonempty
  simp only [pick, if_neg pool.filled]
  cases picked : (Option.or _ _).map (pool.cyclic pool.next) with
  | some account =>
    obtain ⟨i, _, rfl⟩ := Option.map_eq_some_iff.mp picked
    exact ⟨_, pool.cyclic_mem pool.next i, rfl⟩
  | none =>
    refine ⟨first, ?_, ?_⟩
    · rw [accounts]
      exact List.mem_cons_self
    · rw [Option.none_or, accounts]
      rfl

/-- A pick moves the round robin only. -/
theorem pick_cooldownUntil {pool pool' : AccountPool} {clock : Nat → Instant}
    (picked : pool.pick clock exclude model = (account, pool')) :
    pool'.cooldownUntil = pool.cooldownUntil ∧
    pool'.modelCooldownUntil = pool.modelCooldownUntil := by
  simp only [pick, if_neg pool.filled] at picked
  cases picked
  exact ⟨rfl, rfl⟩

end AccountPool
end CodexProxy.Router
