import CodexProxy.Router.Proxy
import CodexProxy.Upstream.BareToken

/-! The gate in front of the data plane and the admin routes. -/
namespace CodexProxy.Server
open Router Upstream

/-- A header that is readable and not empty. -/
def header (headers : HeaderMap) (name : String) : Option String :=
  ((headers.lookup name).bind headerText).filter (· ≠ "")

/-- An Authorization has two parts, and hides an X-API-Key. -/
def provided (headers : HeaderMap) : Except ApiError String :=
  match header headers "authorization", header headers "x-api-key" with
  | some auth, _ =>
    match auth.toList.splitOn ' ' with
    | [scheme, credential] =>
      if eqIgnoreAsciiCase (String.ofList scheme) "bearer" then .ok (String.ofList credential)
      else .error (.unauthorized "Invalid Authorization header format")
    | _ => .error (.unauthorized "Invalid Authorization header format")
  | none, some key => .ok key
  | none, none => .error (.unauthorized "Unauthorized")

/-- The time does not tell where two keys of one length differ. -/
def keyMatches (provided adminKey : List UInt8) : Bool :=
  provided.length = adminKey.length &&
    (provided.zip adminKey).foldl (fun acc pair => acc ||| (pair.1 ^^^ pair.2)) 0 == 0

/-- The response of what comes next is only there for the right key. -/
def adminAuth (adminApiKey : Option String) (headers : HeaderMap) (next : α) : Except ApiError α :=
  match adminApiKey.filter (· ≠ "") with
  | none => .error .adminNotConfigured
  | some adminKey => do
    let provided ← provided headers
    if keyMatches (Text.utf8 provided) (Text.utf8 adminKey) then .ok next
    else .error (.unauthorized "Unauthorized")

/-- By induction on the pairs; a bit that is set stays set. -/
theorem foldl_or_eq_zero (pairs : List (UInt8 × UInt8)) (acc : UInt8) :
    pairs.foldl (fun acc pair => acc ||| (pair.1 ^^^ pair.2)) acc = 0 ↔
      acc = 0 ∧ ∀ pair ∈ pairs, pair.1 = pair.2 := by
  induction pairs generalizing acc with
  | nil => simp
  | cons pair pairs ih =>
    rw [List.foldl_cons, ih, UInt8.or_eq_zero_iff, UInt8.xor_eq_zero_iff, List.forall_mem_cons,
      and_assoc]

/-- The comparison is equality, octet by octet. -/
theorem keyMatches_iff (provided adminKey : List UInt8) :
    keyMatches provided adminKey = true ↔ provided = adminKey := by
  simp only [keyMatches, Bool.and_eq_true, decide_eq_true_eq, beq_iff_eq, foldl_or_eq_zero, true_and]
  have zipped : List.Forall₂ Eq provided adminKey ↔ provided.length = adminKey.length ∧
    ∀ {a b}, (a, b) ∈ provided.zip adminKey → a = b := List.forall₂_iff_zip
  rw [List.forall₂_eq_eq_eq] at zipped
  rw [zipped, Prod.forall]

/-- The credential that the headers present. -/
inductive Presents (headers : HeaderMap) : String → Prop where
  | bearer (readable : (headers.lookup "authorization").bind headerText = some auth)
      (parts : auth.toList = scheme ++ ' ' :: credential)
      (bearer : scheme.map Char.toLower = "bearer".toList) (spaceFree : ' ' ∉ credential) :
      Presents headers (String.ofList credential)
  | apiKey (unset : ∀ auth, (headers.lookup "authorization").bind headerText = some auth → auth = "")
      (readable : (headers.lookup "x-api-key").bind headerText = some key) (nonempty : key ≠ "") :
      Presents headers key

/-- Two parts around one space. -/
theorem splitOn_pair {cs first second : List Char} : cs.splitOn ' ' = [first, second] ↔
    cs = first ++ ' ' :: second ∧ ' ' ∉ first ∧ ' ' ∉ second := by
  constructor
  · intro split
    have whole : [' '].intercalate (cs.splitOn ' ') = cs := List.intercalate_splitOn ' '
    rw [split] at whole
    refine ⟨by simpa [List.intercalate] using whole.symm, ?_, ?_⟩
    · exact Bytes.not_mem_of_splitOn (split ▸ List.mem_cons_self)
    · exact Bytes.not_mem_of_splitOn (split ▸ List.mem_cons_of_mem _ List.mem_cons_self)
  · rintro ⟨rfl, first, second⟩
    rw [List.splitOn_append_cons_self_of_not_mem first, List.splitOn_eq_singleton second]

theorem bearer_iff (scheme : List Char) : eqIgnoreAsciiCase (String.ofList scheme) "bearer" = true ↔
    scheme.map Char.toLower = "bearer".toList := by
  have literal : Text.toAsciiLowercase "bearer" = "bearer" := by decide
  rw [eqIgnoreAsciiCase, decide_eq_true_eq, literal, Text.toAsciiLowercase, String.toList_ofList,
    ← String.toList_inj, String.toList_ofList]

/-- The scheme has no space in it. -/
theorem bearer_spaceFree {scheme : List Char} (bearer : scheme.map Char.toLower = "bearer".toList) :
    ' ' ∉ scheme := by
  intro space
  have lower := List.mem_map_of_mem (f := Char.toLower) space
  rw [bearer] at lower
  exact absurd lower (by decide)

theorem header_eq_some {headers : HeaderMap} : header headers name = some text ↔
    (headers.lookup name).bind headerText = some text ∧ text ≠ "" := by
  rw [header, Option.filter_eq_some_iff, decide_eq_true_eq]

theorem header_eq_none {headers : HeaderMap} : header headers name = none ↔
    ∀ text, (headers.lookup name).bind headerText = some text → text = "" := by
  simp [header, Option.filter_eq_none_iff]

theorem provided_bearer {headers : HeaderMap} (set : header headers "authorization" = some auth)
    (parts : auth.toList = scheme ++ ' ' :: credential)
    (bearer : scheme.map Char.toLower = "bearer".toList) (spaceFree : ' ' ∉ credential) :
    provided headers = .ok (String.ofList credential) := by
  have split := splitOn_pair.mpr ⟨parts, bearer_spaceFree bearer, spaceFree⟩
  simp only [provided, set, split, (bearer_iff scheme).mpr bearer, if_true]

/-- An Authorization that is read decides. -/
theorem provided_authorization {headers : HeaderMap}
    (set : header headers "authorization" = some auth) (given : provided headers = .ok credential) :
    ∃ scheme last, auth.toList = scheme ++ ' ' :: last ∧
      scheme.map Char.toLower = "bearer".toList ∧ ' ' ∉ last ∧
      credential = String.ofList last := by
  unfold provided at given
  rw [set] at given
  dsimp only at given
  split at given
  · rename_i scheme last split
    cases bearer : eqIgnoreAsciiCase (String.ofList scheme) "bearer" with
    | false => simp [bearer] at given
    | true =>
      obtain ⟨parts, _, spaceFree⟩ := splitOn_pair.mp split
      simp only [bearer, if_true, Except.ok.injEq] at given
      exact ⟨scheme, last, parts, (bearer_iff scheme).mp bearer, spaceFree, given.symm⟩
  · cases given

theorem provided_iff (headers : HeaderMap) (credential : String) :
    provided headers = .ok credential ↔ Presents headers credential := by
  constructor
  · intro given
    cases auth : header headers "authorization" with
    | some text =>
      obtain ⟨scheme, last, parts, bearer, spaceFree, rfl⟩ := provided_authorization auth given
      exact .bearer (header_eq_some.mp auth).1 parts bearer spaceFree
    | none =>
      cases key : header headers "x-api-key" with
      | none => simp [provided, auth, key] at given
      | some text =>
        simp only [provided, auth, key, Except.ok.injEq] at given
        subst given
        obtain ⟨readable, nonempty⟩ := header_eq_some.mp key
        exact .apiKey (header_eq_none.mp auth) readable nonempty
  · intro presented
    cases presented with
    | bearer readable parts bearer spaceFree =>
      refine provided_bearer (header_eq_some.mpr ⟨readable, ?_⟩) parts bearer spaceFree
      rintro rfl
      simp at parts
    | apiKey unset readable nonempty =>
      have auth := header_eq_none.mpr unset
      have key := header_eq_some.mpr ⟨readable, nonempty⟩
      simp only [provided, auth, key]

theorem adminAuth_opens (adminApiKey : Option String) (headers : HeaderMap) (next : α) :
    adminAuth adminApiKey headers next = .ok next ↔
      ∃ key credential, adminApiKey = some key ∧ key ≠ "" ∧ Presents headers credential ∧
        Text.utf8 credential = Text.utf8 key := by
  unfold adminAuth
  cases configured : adminApiKey.filter (· ≠ "") with
  | none =>
    refine ⟨(fun opened => by cases opened), ?_⟩
    rintro ⟨key, _, rfl, nonempty, _⟩
    simp [nonempty] at configured
  | some key =>
    have set : adminApiKey = some key ∧ key ≠ "" := by
      simpa [Option.filter_eq_some_iff] using configured
    simp only [← provided_iff]
    cases given : provided headers with
    | error =>
      refine ⟨(fun opened => by cases opened), ?_⟩
      rintro ⟨_, _, _, _, presented, _⟩
      cases presented
    | ok credential =>
      constructor
      · intro opened
        refine ⟨key, credential, set.1, set.2, rfl, (keyMatches_iff _ _).mp ?_⟩
        by_contra differs
        simp [bind, Except.bind, differs] at opened
      · rintro ⟨key', credential', configured', _, same, equal⟩
        cases same
        cases set.1.symm.trans configured'
        simp [bind, Except.bind, (keyMatches_iff _ _).mpr equal]

theorem provided_congr {headers other : HeaderMap}
    (set : header headers "authorization" = some auth)
    (same : header other "authorization" = header headers "authorization") :
    provided other = provided headers := by
  simp only [provided, same, set]

/-- The gate opens for the key that is set and not empty. An Authorization that can be read
decides, whatever the other headers are. -/
theorem adminAuth_ok_iff (adminApiKey : Option String) (headers : HeaderMap) (next : α) :
    (adminAuth adminApiKey headers next = .ok next ↔
      ∃ key credential, adminApiKey = some key ∧ key ≠ "" ∧ Presents headers credential ∧
        Text.utf8 credential = Text.utf8 key) ∧
    ∀ auth (other : HeaderMap), (headers.lookup "authorization").bind headerText = some auth →
      auth ≠ "" → other.lookup "authorization" = headers.lookup "authorization" →
      adminAuth adminApiKey other next = adminAuth adminApiKey headers next := by
  refine ⟨adminAuth_opens adminApiKey headers next, fun auth other readable nonempty same => ?_⟩
  have set := header_eq_some.mpr ⟨readable, nonempty⟩
  have equal : header other "authorization" = header headers "authorization" := by
    rw [header, header, same]
  rw [adminAuth, adminAuth, provided_congr set equal]

/-- The right key does not help next to a wrong Authorization. -/
theorem adminAuth_rescues_nothing :
    adminAuth (some "key") [("authorization", Text.utf8 "Bearer wrong"), ("x-api-key", Text.utf8 "key")]
      () = .error (.unauthorized "Unauthorized") := by
  have alone : adminAuth (some "key") [("authorization", Text.utf8 "Bearer wrong")] () =
    .error (.unauthorized "Unauthorized") := by rfl
  rw [← alone]
  exact (adminAuth_ok_iff (some "key") _ ()).2 "Bearer wrong" _ (by decide) (by decide) rfl

end CodexProxy.Server
