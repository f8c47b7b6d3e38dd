import CodexProxy.Library.Decode

/-! Values that differ in one place. `DifferAt k R` relates equal values, and objects
with the same keys whose members under `k` are related by `R`; nested, it names a path.
Normalizing keeps the relation, lookups off the path agree, and a record decoder that
reads nothing on the path cannot tell the two values apart. -/
namespace Json

/-- Equal values, or related ones under `k`. -/
def Agree (k : String) (R : Json → Json → Prop) (key : String) (v v' : Json) : Prop :=
  v = v' ∨ key = k ∧ R v v'

theorem Agree.of_ne (agree : Agree k R key v v') (other : key ≠ k) : v = v' :=
  agree.resolve_right fun at_k => other at_k.1

/-- The same keys in the same order, and members that agree. -/
def Members.Differ (k : String) (R : Json → Json → Prop) : Members → Members → Prop :=
  List.Forall₂ fun m m' => m.1 = m'.1 ∧ Agree k R m.1 m.2 m'.2

inductive DifferAt (k : String) (R : Json → Json → Prop) : Json → Json → Prop where
  | same (v : Json) : DifferAt k R v v
  | under {ms ms' : Members} (differ : Members.Differ k R ms ms') :
      DifferAt k R (.object ms) (.object ms')

/-- Any two strings. -/
inductive BothText : Json → Json → Prop where
  | intro (s s' : String) : BothText (.string s) (.string s')

/-- Fields that agree name by name; both find a name or neither does. -/
def Decode.Fields.Differ (k : String) (R : Json → Json → Prop) (f f' : Decode.Fields) : Prop :=
  ∀ key, Option.Rel (Agree k R key) (f key) (f' key)

open Decode

theorem Decode.Fields.Differ.refl (k : String) (R : Json → Json → Prop) (f : Fields) :
    Fields.Differ k R f f := by
  intro key
  cases f key with
  | none => exact .none
  | some v => exact .some (.inl rfl)

/-- Both are absent, or both are there and related. -/
theorem rel_cases {r : α → β → Prop} (related : Option.Rel r o o') :
    o = none ∧ o' = none ∨ ∃ a b, o = some a ∧ o' = some b ∧ r a b := by
  cases related with
  | none => exact .inl ⟨rfl, rfl⟩
  | some holds => exact .inr ⟨_, _, rfl, rfl, holds⟩

theorem Decode.Fields.Differ.of_ne (differ : Fields.Differ k R f f') (other : key ≠ k) :
    f key = f' key := by
  rcases rel_cases (differ key) with ⟨absent, absent'⟩ | ⟨v, v', found, found', agree⟩
  · rw [absent, absent']
  · rw [found, found', agree.of_ne other]

namespace Members

theorem Differ.keys (differ : Differ k R ms ms') : ms.map Prod.fst = ms'.map Prod.fst := by
  induction differ with
  | nil => rfl
  | cons head _ ih => rw [List.map_cons, List.map_cons, head.1, ih]

theorem Differ.lookup (differ : Differ k R ms ms') :
    Fields.Differ k R (fun key => ms.lookup key) (fun key => ms'.lookup key) := by
  intro key
  induction differ with
  | nil => exact .none
  | @cons m m' rest rest' head _ ih =>
    dsimp only at ih ⊢
    rw [lookup_cons, lookup_cons, ← head.1]
    split
    · rename_i found
      rw [found]
      exact .some head.2
    · exact ih

theorem Differ.insert (differ : Differ k R ms ms') (agree : Agree k R key v v') :
    Differ k R (Members.insert key v ms) (Members.insert key v' ms') := by
  induction differ with
  | nil => exact .cons ⟨rfl, agree⟩ .nil
  | @cons m m' rest rest' head tail ih =>
    obtain ⟨key₁, w⟩ := m
    obtain ⟨key₁', w'⟩ := m'
    obtain ⟨rfl, kept⟩ := head
    unfold Members.insert
    split
    · exact .cons ⟨rfl, agree⟩ tail
    · split
      · exact .cons ⟨rfl, agree⟩ (.cons ⟨rfl, kept⟩ tail)
      · exact .cons ⟨rfl, kept⟩ ih

theorem Differ.retain (differ : Differ k R ms ms') (keep : String → Bool) :
    Differ k R (Members.retain keep ms) (Members.retain keep ms') := by
  induction differ with
  | nil => exact .nil
  | @cons m m' rest rest' head tail ih =>
    cases kept : keep m.1 with
    | false =>
      have kept' : keep m'.1 = false := head.1 ▸ kept
      rw [Members.retain, Members.retain, List.filter_cons_of_neg (by simp [kept]),
        List.filter_cons_of_neg (by simp [kept'])]
      exact ih
    | true =>
      have kept' : keep m'.1 = true := head.1 ▸ kept
      rw [Members.retain, Members.retain, List.filter_cons_of_pos (by simp [kept]),
        List.filter_cons_of_pos (by simp [kept'])]
      exact .cons head ih

/-- Without `k` nothing is left to differ. -/
theorem Differ.eq_of_absent (differ : Differ k R ms ms') (absent : ∀ m ∈ ms, m.1 ≠ k) :
    ms = ms' := by
  induction differ with
  | nil => rfl
  | @cons m m' rest rest' head tail ih =>
    have value := head.2.of_ne (absent m List.mem_cons_self)
    rw [ih fun m member => absent m (List.mem_cons_of_mem _ member), Prod.ext head.1 value]

end Members

/-- Normalizing resolves repeated keys alike on both sides. -/
theorem Members.Differ.normalizeMembers (kept : ∀ v v', R v v' → R v.normalize v'.normalize)
    (differ : Members.Differ k R ms ms') (settled : Members.Differ k R done done') :
    Members.Differ k R (normalizeMembers done ms) (normalizeMembers done' ms') := by
  induction differ generalizing done done' with
  | nil => exact settled
  | @cons m m' rest rest' head _ ih =>
    obtain ⟨key, v⟩ := m
    obtain ⟨key', v'⟩ := m'
    obtain ⟨rfl, agree⟩ := head
    have normal : Agree k R key v.normalize v'.normalize := by
      rcases agree with rfl | ⟨at_k, related⟩
      · exact .inl rfl
      · exact .inr ⟨at_k, kept _ _ related⟩
    exact ih (settled.insert normal)

theorem BothText.normalize (texts : BothText v v') : BothText v.normalize v'.normalize := by
  obtain ⟨s, s'⟩ := texts
  exact .intro s s'

namespace DifferAt

theorem normalize (differ : DifferAt k R v v')
    (kept : ∀ v v', R v v' → R v.normalize v'.normalize) :
    DifferAt k R v.normalize v'.normalize := by
  cases differ with
  | same => exact .same _
  | under differ => exact .under (differ.normalizeMembers kept .nil)

/-- Members that agree differ on the rest of the path at most. -/
theorem of_agree (agree : Agree j (DifferAt k R) key v v') : DifferAt k R v v' := by
  rcases agree with rfl | ⟨_, differ⟩
  · exact .same _
  · exact differ

theorem get? (differ : DifferAt k R v v') :
    Fields.Differ k R (fun key => v.get? key) (fun key => v'.get? key) := by
  cases differ with
  | same => exact .refl k R _
  | under differ => exact differ.lookup

theorem get?_cases (differ : DifferAt k R v v') (key : String) :
    v.get? key = none ∧ v'.get? key = none ∨
      ∃ w w', v.get? key = some w ∧ v'.get? key = some w' ∧ Agree k R key w w' :=
  rel_cases (differ.get? key)

theorem isObject (differ : DifferAt k R v v') : v.isObject = v'.isObject := by
  cases differ <;> rfl

/-- A record decoder finds fields that differ under `k` only, or rejects both values. -/
theorem record (differ : DifferAt k R v v') (names : List String) :
    Option.Rel (Fields.Differ k R) (record names v) (record names v') := by
  cases differ with
  | same =>
    cases Decode.record names v with
    | none => exact .none
    | some f => exact .some (.refl k R f)
  | @under ms ms' differ =>
    have count (key : String) :
        (ms.filter (·.1 == key)).length = (ms'.filter (·.1 == key)).length := by
      have kept := congrArg List.length (differ.retain (· == key)).keys
      rwa [List.length_map, List.length_map] at kept
    simp only [Decode.record, count]
    split
    · exact .some differ.lookup
    · exact .none

/-- What is read off the path decodes alike. -/
theorem bind_record (differ : DifferAt k R v v') (names : List String) {read : Fields → Option α}
    (blind : ∀ f f', Fields.Differ k R f f' → read f = read f') :
    (Decode.record names v).bind read = (Decode.record names v').bind read := by
  rcases rel_cases (differ.record names) with ⟨absent, absent'⟩ | ⟨f, f', found, found', fields⟩
  · rw [absent, absent']
  · rw [found, found']
    exact blind f f' fields

end DifferAt

/-- An object with only the members named in `names`. -/
def restrict (names : List String) : Json → Json
  | .object ms => .object (Members.retain (names.contains ·) ms)
  | v => v

/-- An object with its members under `k` mapped. -/
def mapAt (k : String) (f : Json → Json) : Json → Json
  | .object ms => .object (ms.map fun m => if m.1 = k then (m.1, f m.2) else m)
  | v => v

namespace DifferAt

theorem restrict (differ : DifferAt k R v v') {names : List String} (unknown : k ∉ names) :
    v.restrict names = v'.restrict names := by
  cases differ with
  | same => rfl
  | under differ =>
    refine congrArg object ((differ.retain _).eq_of_absent ?_)
    intro m member at_k
    have known : m.1 ∈ names := by simpa using (List.mem_filter.mp member).2
    exact unknown (at_k ▸ known)

theorem mapAt (differ : DifferAt k R v v') {f : Json → Json} (blind : ∀ w w', R w w' → f w = f w') :
    v.mapAt k f = v'.mapAt k f := by
  cases differ with
  | same => rfl
  | under differ =>
    refine congrArg object ?_
    induction differ with
    | nil => rfl
    | @cons m m' rest rest' head _ ih =>
      have mapped : (if m.1 = k then (m.1, f m.2) else m) =
          if m'.1 = k then (m'.1, f m'.2) else m' := by
        rcases head.2 with equal | ⟨at_k, related⟩
        · rw [Prod.ext head.1 equal]
        · rw [if_pos at_k, if_pos (head.1 ▸ at_k), head.1, blind _ _ related]
      rw [List.map_cons, List.map_cons, ih, mapped]

end DifferAt
end Json
