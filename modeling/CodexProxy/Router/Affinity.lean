import Mathlib.Data.List.AList
import CodexProxy.Library.Decode
import CodexProxy.Router.Proxy

/-! The pins in Redis. A pin is kept as JSON under the conversation's key with a prefix, and
goes when its time to live is over. Whatever fails is swallowed, so that a lookup which is
not answered finds nothing, and a command which does not arrive does nothing. -/
namespace CodexProxy.Router
open Json.Decode

def Pin.toJson (pin : Pin) : Json :=
  .object [("slug", .string pin.slug), ("model", .string pin.model)]

def Pin.decode (v : Json) : Option Pin := do
  let fields ← record ["slug", "model"] v
  return {
    slug := ← required Json.asString (fields "slug")
    model := ← required Json.asString (fields "model") }

theorem Pin.decode_toJson (pin : Pin) : decode pin.toJson = some pin := by
  simp [decode, toJson, record, required, Json.Members.lookup_cons]

theorem Pin.portable (pin : Pin) : pin.toJson.Portable := by
  have within : pin.toJson.Within 1 := by simp [toJson]
  exact within.portable (by decide)

def redisKey (conversationKey : String) : String := "conv:" ++ conversationKey

theorem redisKey_injective : Function.Injective redisKey :=
  fun _ _ same => (String.append_right_inj _).mp same

/-- A value, which is no text if others stored it so, and the second at which it goes. -/
structure Stored where
  value : Option String
  deadline : Option Nat

def Stored.live (stored : Stored) (now : Nat) : Bool := stored.deadline.all (now < ·)

/-- What is stored under each name. -/
abbrev Redis := AList fun _ : String => Stored

def Redis.find (redis : Redis) (name : String) (now : Nat) : Option Stored :=
  match redis.lookup name with
  | some stored => if stored.live now then some stored else none
  | none => none

theorem Redis.find_some {redis : Redis} {stored : Stored} (found : redis.lookup name = some stored)
    (now : Nat) : redis.find name now = if stored.live now then some stored else none := by
  rw [find, found]

theorem Redis.find_none {redis : Redis} (none : redis.lookup name = none) (now : Nat) :
    redis.find name now = .none := by
  rw [find, none]

theorem Redis.find_congr {redis redis' : Redis} (same : redis'.lookup name = redis.lookup name)
    (now : Nat) : redis'.find name now = redis.find name now := by
  rw [find, find, same]

/-- The store of the pins, with their time to live. -/
structure RedisAffinityStore where
  codec : Json.Codec
  ttlSecs : Nat
  /-- The command line refuses a time to live of zero. -/
  lasting : 0 < ttlSecs

namespace RedisAffinityStore
variable (store : RedisAffinityStore)

/-- GET, read as a pin. What is not a pin counts as a miss. -/
def get (redis : Redis) (now : Nat) (conversationKey : String) : Option Pin :=
  ((redis.find (redisKey conversationKey) now).bind (·.value)).bind fun s =>
    (store.codec.read (Text.utf8 s)).bind Pin.decode

/-- SET with EX. -/
def put (redis : Redis) (now : Nat) (conversationKey : String) (pin : Pin) : Redis :=
  redis.insert (redisKey conversationKey)
    ⟨some (store.codec.write pin.toJson), some (now + store.ttlSecs)⟩

/-- DEL. -/
def clear (redis : Redis) (conversationKey : String) : Redis :=
  redis.erase (redisKey conversationKey)

theorem get_congr {redis redis' : Redis} {key : String} {now now' : Nat}
    (same : redis'.find (redisKey key) now' = redis.find (redisKey key) now) :
    store.get redis' now' key = store.get redis now key := by
  rw [get, get, same]

theorem get_none {redis : Redis} {key : String} {now : Nat}
    (none : redis.find (redisKey key) now = none) : store.get redis now key = .none := by
  rw [get, none]
  rfl

theorem get_put (redis : Redis) (stored now : Nat) (key key' : String) (pin : Pin) :
    store.get (store.put redis stored key pin) now key' =
      if key' = key then (if now < stored + store.ttlSecs then some pin else none)
      else store.get redis now key' := by
  by_cases same : key' = key
  · subst same
    have read : store.codec.read (Text.utf8 (store.codec.write pin.toJson)) = some pin.toJson :=
      store.codec.read_write _ pin.portable
    let kept : Stored :=
      ⟨some (store.codec.write pin.toJson), some (stored + store.ttlSecs)⟩
    have found := Redis.find_some (redis.lookup_insert (a := redisKey key') (b := kept)) now
    rw [if_pos rfl, get, put, found]
    by_cases live : now < stored + store.ttlSecs
    · simp [kept, Stored.live, live, read, Pin.decode_toJson]
    · simp [kept, Stored.live, live]
  · have other : redisKey key' ≠ redisKey key := fun equal => same (redisKey_injective equal)
    rw [if_neg same]
    exact store.get_congr (Redis.find_congr (AList.lookup_insert_ne other) now)

theorem get_clear (redis : Redis) (now : Nat) (key key' : String) :
    store.get (clear redis key) now key' = if key' = key then none else store.get redis now key' := by
  by_cases same : key' = key
  · subst same
    rw [if_pos rfl]
    exact store.get_none (Redis.find_none (AList.lookup_erase _ redis) now)
  · have other : redisKey key' ≠ redisKey key := fun equal => same (redisKey_injective equal)
    rw [if_neg same]
    exact store.get_congr (Redis.find_congr (AList.lookup_erase_ne other) now)

/-- Time only takes pins away. -/
theorem get_later {redis : Redis} {now later : Nat} (passed : now ≤ later) (key : String)
    (changed : store.get redis later key ≠ store.get redis now key) :
    redisKey key ∈ redis.keys ∧ store.get redis later key = none := by
  cases found : redis.lookup (redisKey key) with
  | none =>
    rw [store.get_none (Redis.find_none found later),
      store.get_none (Redis.find_none found now)] at changed
    exact (changed rfl).elim
  | some stored =>
    have listed : (redis.lookup (redisKey key)).isSome := by
      rw [found]
      rfl
    refine ⟨AList.mem_keys.mp (AList.lookup_isSome.mp listed), ?_⟩
    by_cases live : stored.live later = true
    · have before : stored.live now = true := by
        simp only [Stored.live, Option.all_eq_true, decide_eq_true_eq] at live ⊢
        exact fun deadline set => passed.trans_lt (live deadline set)
      have same : redis.find (redisKey key) later = redis.find (redisKey key) now := by
        rw [Redis.find_some found, Redis.find_some found, if_pos live, if_pos before]
      exact (changed (store.get_congr same)).elim
    · exact store.get_none (by rw [Redis.find_some found, if_neg live])

end RedisAffinityStore
end CodexProxy.Router
