import CodexProxy.Library.Bytes
import Mathlib.Algebra.Ring.Int.Defs
import Mathlib.Algebra.Ring.Nat
import Mathlib.Data.List.Basic
import Mathlib.Data.String.Basic

/-! JSON values as a reader that classifies numbers into 64-bit integers and
binary64 sees them. An object is its member list: a text's own tree may repeat a
key, while a *value* (`normalize`) is a map, with sorted keys and the last of each
repeated member. Map operations assume nothing about the order of the list. -/

/-- An integer literal that fits a signed or an unsigned 64-bit machine integer. -/
structure Json.Integer where
  val : Int
  lower : -2 ^ 63 ≤ val
  upper : val < 2 ^ 64
deriving DecidableEq

inductive Json.Number where
  | int (n : Json.Integer)
  | float (bits : UInt64)
deriving DecidableEq

inductive Json where
  | null
  | bool (b : Bool)
  | number (n : Json.Number)
  | string (s : String)
  | array (items : List Json)
  | object (members : List (String × Json))

namespace Json

abbrev Members := List (String × Json)

def Integer.ofInt64 (n : Int64) : Integer where
  val := n.toInt
  lower := n.le_toInt
  upper := by have := n.toInt_lt; omega

def Integer.ofUInt64 (n : UInt64) : Integer where
  val := n.toNat
  lower := by omega
  upper := by have := n.toNat_lt; omega

def ofInt64 (n : Int64) : Json := .number (.int (.ofInt64 n))
def ofUInt64 (n : UInt64) : Json := .number (.int (.ofUInt64 n))

namespace Members

/-- Insert or overwrite, keeping a sorted list sorted. -/
def insert (k : String) (v : Json) : Members → Members
  | [] => [(k, v)]
  | (k', v') :: rest =>
    if k = k' then (k, v) :: rest
    else if k < k' then (k, v) :: (k', v') :: rest
    else (k', v') :: insert k v rest

def erase (k : String) (ms : Members) : Members := ms.filter (·.1 ≠ k)

theorem lookup_cons (k k' : String) (v' : Json) (ms : Members) :
    List.lookup k ((k', v') :: ms) = if k = k' then some v' else ms.lookup k := by
  rw [List.lookup_cons]
  by_cases same : k = k'
  · simp [same]
  · rw [beq_eq_false_iff_ne.mpr same, if_neg same]

@[simp] theorem lookup_insert_self (k : String) (v : Json) (ms : Members) :
    (insert k v ms).lookup k = some v := by
  induction ms with
  | nil => simp [insert]
  | cons head rest ih =>
    obtain ⟨k', v'⟩ := head
    unfold insert
    split
    · simp
    · rename_i different
      split
      · simp
      · simp [lookup_cons, different, ih]

/-- The last value wins. -/
@[simp] theorem insert_insert (k : String) (v w : Json) (ms : Members) :
    insert k v (insert k w ms) = insert k v ms := by
  induction ms with
  | nil => simp [insert]
  | cons head rest ih =>
    obtain ⟨k', v'⟩ := head
    by_cases same : k = k'
    · simp [insert, same]
    · by_cases before : k < k'
      · simp [insert, same, before]
      · simp [insert, same, before, ih]

theorem lookup_insert_ne {k k' : String} (different : k' ≠ k) (v : Json) (ms : Members) :
    (insert k v ms).lookup k' = ms.lookup k' := by
  induction ms with
  | nil => simp [insert, lookup_cons, different]
  | cons head rest ih =>
    obtain ⟨k₁, v₁⟩ := head
    unfold insert
    split
    · rename_i same
      subst same
      simp [lookup_cons, different]
    · split
      · simp [lookup_cons, different]
      · simp only [lookup_cons, ih]

@[simp] theorem lookup_erase_self (k : String) (ms : Members) : (erase k ms).lookup k = none := by
  induction ms with
  | nil => rfl
  | cons head rest ih =>
    obtain ⟨k', v'⟩ := head
    by_cases same : k' = k
    · rwa [erase, List.filter_cons_of_neg (by simp [same])]
    · rw [erase, List.filter_cons_of_pos (by simp [same]), lookup_cons, if_neg (Ne.symm same)]
      exact ih

theorem lookup_erase_ne {k k' : String} (different : k' ≠ k) (ms : Members) :
    (erase k ms).lookup k' = ms.lookup k' := by
  induction ms with
  | nil => rfl
  | cons head rest ih =>
    obtain ⟨k₁, v₁⟩ := head
    by_cases same : k₁ = k
    · rw [erase, List.filter_cons_of_neg (by simp [same]), lookup_cons, same, if_neg different]
      exact ih
    · rw [erase, List.filter_cons_of_pos (by simp [same]), lookup_cons, lookup_cons]
      exact congrArg (fun r => if k' = k₁ then some v₁ else r) ih

theorem lookup_insert (k k' : String) (v : Json) (ms : Members) :
    (insert k v ms).lookup k' = if k' = k then some v else ms.lookup k' := by
  by_cases same : k' = k
  · subst same
    rw [lookup_insert_self, if_pos rfl]
  · rw [lookup_insert_ne same, if_neg same]

theorem lookup_erase (k k' : String) (ms : Members) :
    (erase k ms).lookup k' = if k' = k then none else ms.lookup k' := by
  by_cases same : k' = k
  · subst same
    rw [lookup_erase_self, if_pos rfl]
  · rw [lookup_erase_ne same, if_neg same]

/-- Keep the members whose key passes a test. -/
def retain (keep : String → Bool) (ms : Members) : Members := ms.filter (keep ·.1)

theorem lookup_retain (keep : String → Bool) (k : String) (ms : Members) :
    (retain keep ms).lookup k = if keep k then ms.lookup k else none := by
  induction ms with
  | nil => simp [retain]
  | cons head rest ih =>
    obtain ⟨k₁, v₁⟩ := head
    rw [retain] at ih
    by_cases found : k = k₁
    · subst found
      cases kept : keep k with
      | false =>
        rw [retain, List.filter_cons_of_neg (by simp [kept]), ih, kept]
        rfl
      | true =>
        rw [retain, List.filter_cons_of_pos (by simp [kept]), lookup_cons, lookup_cons]
        simp
    · cases kept : keep k₁ with
      | false =>
        rw [retain, List.filter_cons_of_neg (by simp [kept]), ih, lookup_cons, if_neg found]
      | true =>
        rw [retain, List.filter_cons_of_pos (by simp [kept]), lookup_cons, lookup_cons,
          if_neg found, if_neg found, ih]

end Members

/-- The member of an object; `none` on a missing key and on any other value. -/
def get? (k : String) : Json → Option Json
  | .object ms => ms.lookup k
  | _ => none

def asString : Json → Option String
  | .string s => some s
  | _ => none

def asBool : Json → Option Bool
  | .bool b => some b
  | _ => none

def asArray : Json → Option (List Json)
  | .array items => some items
  | _ => none

def asObject : Json → Option Members
  | .object ms => some ms
  | _ => none

def asInt64 : Json → Option Int64
  | .number (.int n) => if n.val < 2 ^ 63 then some (Int64.ofInt n.val) else none
  | _ => none

def asUInt64 : Json → Option UInt64
  | .number (.int n) => if 0 ≤ n.val then some (UInt64.ofNat n.val.toNat) else none
  | _ => none

def isNull : Json → Bool
  | .null => true
  | _ => false

def isObject (v : Json) : Bool := v.asObject.isSome

@[simp] theorem get?_object (k : String) (ms : Members) : (object ms).get? k = ms.lookup k := rfl
@[simp] theorem asString_string (s : String) : (string s).asString = some s := rfl
@[simp] theorem asArray_array (items : List Json) : (array items).asArray = some items := rfl
@[simp] theorem asObject_object (ms : Members) : (object ms).asObject = some ms := rfl

@[simp] theorem asString_eq_some {v : Json} : v.asString = some s ↔ v = .string s := by
  cases v <;> simp [asString]

@[simp] theorem asObject_eq_some {v : Json} : v.asObject = some ms ↔ v = .object ms := by
  cases v <;> simp [asObject]

@[simp] theorem asInt64_ofInt64 (n : Int64) : (ofInt64 n).asInt64 = some n := by
  simp only [ofInt64, asInt64, Integer.ofInt64, n.toInt_lt, if_true, Int64.ofInt_toInt]

@[simp] theorem asUInt64_ofUInt64 (n : UInt64) : (ofUInt64 n).asUInt64 = some n := by
  simp [ofUInt64, asUInt64, Integer.ofUInt64]

/-- An unsigned integer is read as a signed one exactly below 2⁶³. -/
theorem asInt64_ofUInt64 (n : UInt64) :
    (ofUInt64 n).asInt64 = if n.toNat < 2 ^ 63 then some (Int64.ofInt n.toNat) else none := by
  simp only [ofUInt64, asInt64, Integer.ofUInt64]
  have : ((n.toNat : Int) < 2 ^ 63) ↔ n.toNat < 2 ^ 63 := by omega
  simp only [this]

mutual
/-- Turn a text's tree into a value: repeated keys are resolved, keys sorted. -/
def normalize : Json → Json
  | .array items => .array (normalizeAll items)
  | .object ms => .object (normalizeMembers [] ms)
  | v => v

def normalizeAll : List Json → List Json
  | [] => []
  | v :: vs => v.normalize :: normalizeAll vs

/-- Later members overwrite the earlier ones in `done`. -/
def normalizeMembers (done : Members) : Members → Members
  | [] => done
  | (k, v) :: ms => normalizeMembers (Members.insert k v.normalize done) ms
end

@[simp] theorem normalizeAll_eq (items : List Json) : normalizeAll items = items.map normalize := by
  induction items with
  | nil => rfl
  | cons item items ih => rw [normalizeAll, ih, List.map_cons]

theorem asString_normalize (v : Json) : v.normalize.asString = v.asString := by
  cases v <;> simp [normalize, asString]

theorem asUInt64_normalize (v : Json) : v.normalize.asUInt64 = v.asUInt64 := by
  cases v <;> simp [normalize, asUInt64]

/-- The last of a repeated member wins. -/
theorem lookup_normalizeMembers_last (ms done : Members) (k : String) :
    (normalizeMembers done ms).lookup k =
      ((ms.reverse.lookup k).map normalize).or (done.lookup k) := by
  induction ms generalizing done with
  | nil => simp [normalizeMembers]
  | cons head rest ih =>
    obtain ⟨k₁, v₁⟩ := head
    rw [normalizeMembers, ih, List.reverse_cons, List.lookup_append]
    cases later : rest.reverse.lookup k with
    | some v => simp
    | none =>
      by_cases same : k = k₁
      · subst same
        simp
      · rw [Members.lookup_insert_ne same, Members.lookup_cons, if_neg same]
        rfl

theorem Members.mem_keys_insert {k k' : String} {v : Json} {ms : Members}
    (member : k' ∈ (insert k v ms).map Prod.fst) : k' = k ∨ k' ∈ ms.map Prod.fst := by
  induction ms with
  | nil => simpa [insert] using member
  | cons head rest ih =>
    obtain ⟨k₁, v₁⟩ := head
    unfold insert at member
    split at member
    · simp_all
    · split at member
      · simpa using member
      · simp only [List.map_cons, List.mem_cons] at member ⊢
        rcases member with same | later
        · exact .inr (.inl same)
        · exact (ih later).imp_right .inr

theorem Members.sorted_insert {k : String} {v : Json} {ms : Members}
    (sorted : (ms.map Prod.fst).Pairwise (· < ·)) :
    ((insert k v ms).map Prod.fst).Pairwise (· < ·) := by
  induction ms with
  | nil => simp [insert]
  | cons head rest ih =>
    obtain ⟨k₁, v₁⟩ := head
    simp only [List.map_cons, List.pairwise_cons] at sorted
    unfold insert
    split
    · rename_i same
      subst same
      simpa using sorted
    · rename_i different
      split
      · rename_i smaller
        simp only [List.map_cons, List.pairwise_cons, List.mem_cons]
        refine ⟨?_, sorted⟩
        rintro k' (rfl | later)
        · exact smaller
        · exact lt_trans smaller (sorted.1 k' later)
      · rename_i larger
        simp only [List.map_cons, List.pairwise_cons]
        refine ⟨?_, ih sorted.2⟩
        intro k' member
        rcases mem_keys_insert member with rfl | later
        · exact lt_of_le_of_ne (not_lt.mp larger) (Ne.symm different)
        · exact sorted.1 k' later

/-- Members in strictly increasing order of key. -/
def Members.Sorted (ms : Members) : Prop := (ms.map Prod.fst).Pairwise (· < ·)

/-- Below the first key nothing is found. -/
theorem Members.lookup_below {k : String} {ms : Members}
    (below : ∀ k' ∈ ms.map Prod.fst, k < k') : ms.lookup k = none := by
  rw [List.lookup_eq_none_iff]
  intro m member
  rw [bne_iff_ne]
  exact ne_of_lt (below m.1 (List.mem_map_of_mem member))

/-- Sorted members are determined by what is found in them. -/
theorem Members.Sorted.ext {ms ms' : Members} (sorted : Sorted ms) (sorted' : Sorted ms')
    (same : ∀ k, ms.lookup k = ms'.lookup k) : ms = ms' := by
  induction ms generalizing ms' with
  | nil =>
    cases ms' with
    | nil => rfl
    | cons m rest =>
      obtain ⟨k, v⟩ := m
      have found := same k
      simp at found
  | cons m rest ih =>
    obtain ⟨k, v⟩ := m
    cases ms' with
    | nil =>
      have found := same k
      simp at found
    | cons m' rest' =>
      obtain ⟨k', v'⟩ := m'
      obtain ⟨first, later⟩ := List.pairwise_cons.mp sorted
      obtain ⟨first', later'⟩ := List.pairwise_cons.mp sorted'
      have key : k = k' := by
        rcases lt_trichotomy k k' with less | equal | less
        · have found := same k
          have none := @lookup_below k ((k', v') :: rest') (List.forall_mem_cons.mpr
            ⟨less, fun j member => lt_trans less (first' j member)⟩)
          simp [none] at found
        · exact equal
        · have found := same k'
          have none := @lookup_below k' ((k, v) :: rest) (List.forall_mem_cons.mpr
            ⟨less, fun j member => lt_trans less (first j member)⟩)
          simp [none] at found
      subst key
      have value := same k
      rw [lookup_cons, lookup_cons, if_pos rfl, if_pos rfl] at value
      rw [Option.some.inj value, ih later later' fun j => ?_]
      by_cases equal : j = k
      · rw [equal, lookup_below first, lookup_below first']
      · have found := same j
        rwa [lookup_cons, lookup_cons, if_neg equal, if_neg equal] at found

/-- A value's members are sorted, so none is repeated. -/
theorem sorted_normalizeMembers {ms done : Members}
    (sorted : (done.map Prod.fst).Pairwise (· < ·)) :
    ((normalizeMembers done ms).map Prod.fst).Pairwise (· < ·) := by
  induction ms generalizing done with
  | nil => exact sorted
  | cons head rest ih =>
    rw [normalizeMembers]
    exact ih (Members.sorted_insert sorted)

theorem nodup_normalizeMembers (ms : Members) :
    ((normalizeMembers [] ms).map Prod.fst).Nodup :=
  (sorted_normalizeMembers .nil).imp ne_of_lt

/-- The object that a literal builds: a map with sorted keys. -/
def buildObject (ms : Members) : Json :=
  .object (ms.foldl (fun object m => Members.insert m.1 m.2 object) [])

/-- Normalized objects are built from their normalized members. -/
theorem normalize_object (ms : Members) :
    (object ms).normalize = buildObject (ms.map fun m => (m.1, m.2.normalize)) := by
  have spec (done : Members) : normalizeMembers done ms =
      (ms.map fun m => (m.1, m.2.normalize)).foldl
        (fun object m => Members.insert m.1 m.2 object) done := by
    induction ms generalizing done with
    | nil => rfl
    | cons m ms ih => exact ih _
  rw [normalize, spec, buildObject]

theorem get?_buildObject (ms : Members) (k : String) :
    (buildObject ms).get? k = ms.reverse.lookup k := by
  have spec (done : Members) :
      (ms.foldl (fun object m => Members.insert m.1 m.2 object) done).lookup k =
        (ms.reverse.lookup k).or (done.lookup k) := by
    induction ms generalizing done with
    | nil => simp
    | cons m ms ih =>
      obtain ⟨k', v⟩ := m
      rw [List.foldl_cons, ih, List.reverse_cons, List.lookup_append]
      cases ms.reverse.lookup k with
      | some w => rfl
      | none =>
        by_cases same : k = k'
        · subst same
          simp
        · rw [Members.lookup_insert_ne same, Members.lookup_cons, if_neg same]
          rfl
  rw [buildObject, get?_object, spec]
  simp

end Json
