import CodexProxy.Library.Json

/-! Portable values: those that survive a text round trip exactly. They hold no
binary64 number, and nest within the limit of 127 containers that readers impose.
`Within` is the compositional form that encoders are checked with. -/
namespace Json

mutual
def integral : Json → Bool
  | .number (.float _) => false
  | .array items => integralAll items
  | .object ms => integralMembers ms
  | _ => true

def integralAll : List Json → Bool
  | [] => true
  | v :: vs => v.integral && integralAll vs

def integralMembers : Members → Bool
  | [] => true
  | (_, v) :: ms => v.integral && integralMembers ms
end

mutual
/-- Containers on the deepest path. -/
def depth : Json → Nat
  | .array items => depthAll items + 1
  | .object ms => depthMembers ms + 1
  | _ => 0

def depthAll : List Json → Nat
  | [] => 0
  | v :: vs => max v.depth (depthAll vs)

def depthMembers : Members → Nat
  | [] => 0
  | (_, v) :: ms => max v.depth (depthMembers ms)
end

def maxDepth : Nat := 127

def Portable (v : Json) : Prop := v.integral = true ∧ v.depth ≤ maxDepth

instance (v : Json) : Decidable v.Portable := inferInstanceAs (Decidable (_ ∧ _))

theorem integralMembers_append (ms ns : Members) :
    integralMembers (ms ++ ns) = (integralMembers ms && integralMembers ns) := by
  induction ms with
  | nil => simp [integralMembers]
  | cons m ms ih => simp [integralMembers, ih, Bool.and_assoc]

theorem depthMembers_append (ms ns : Members) :
    depthMembers (ms ++ ns) = max (depthMembers ms) (depthMembers ns) := by
  induction ms with
  | nil => simp [depthMembers]
  | cons m ms ih => simp [depthMembers, ih, Nat.max_assoc]

/-- No binary64 number, and nesting at most `n`. -/
def Within (n : Nat) (v : Json) : Prop := v.integral = true ∧ v.depth ≤ n

/-- The same of every member. -/
def MembersWithin (n : Nat) (ms : Members) : Prop :=
  integralMembers ms = true ∧ depthMembers ms ≤ n

theorem Within.portable {v : Json} (within : v.Within n) (small : n ≤ maxDepth) : v.Portable :=
  ⟨within.1, within.2.trans small⟩

theorem within_mono {v : Json} (within : v.Within m) (le : m ≤ n) : v.Within n :=
  ⟨within.1, within.2.trans le⟩

theorem within_scalar {v : Json} (scalar : v.Within 0) : v.Within n := within_mono scalar n.zero_le

@[simp] theorem within_string (s : String) : (string s).Within n := within_scalar ⟨rfl, Nat.le_refl _⟩
@[simp] theorem within_null : null.Within n := within_scalar ⟨rfl, Nat.le_refl _⟩
@[simp] theorem within_ofInt64 (i : Int64) : (ofInt64 i).Within n :=
  within_scalar ⟨rfl, Nat.le_refl _⟩
@[simp] theorem within_ofUInt64 (i : UInt64) : (ofUInt64 i).Within n :=
  within_scalar ⟨rfl, Nat.le_refl _⟩

@[simp] theorem within_object {ms : Members} :
    (object ms).Within (n + 1) ↔ MembersWithin n ms := by
  simp [Within, MembersWithin, integral, depth]

@[simp] theorem within_array {items : List Json} :
    (array items).Within (n + 1) ↔ ∀ v ∈ items, v.Within n := by
  rw [Within, integral, depth, Nat.add_le_add_iff_right]
  induction items with
  | nil => simp [integralAll, depthAll]
  | cons v items ih =>
    simp only [integralAll, depthAll, Bool.and_eq_true, Nat.max_le, List.forall_mem_cons, Within]
    tauto

@[simp] theorem membersWithin_nil : MembersWithin n [] := ⟨rfl, Nat.zero_le n⟩

@[simp] theorem membersWithin_cons : MembersWithin n ((k, v) :: ms) ↔
    v.Within n ∧ MembersWithin n ms := by
  simp only [MembersWithin, Within, integralMembers, depthMembers, Bool.and_eq_true, Nat.max_le]
  tauto

@[simp] theorem membersWithin_append : MembersWithin n (ms ++ ns) ↔
    MembersWithin n ms ∧ MembersWithin n ns := by
  simp only [MembersWithin, integralMembers_append, depthMembers_append, Bool.and_eq_true,
    Nat.max_le]
  tauto

end Json
