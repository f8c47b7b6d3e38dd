import CodexProxy.Library.HeaderValue
import CodexProxy.Library.Slices
import CodexProxy.Router.Interleavings
import CodexProxy.Server.AdminAuth

/-! A router in front of its pods, with a gate at each. A client's credentials go no further
than the router's gate; the pods see the router's own, and let it in if the key survives
being put in a header. -/
namespace CodexProxy.Server
open Router Request Transition

/-- A key that can be presented as a bearer token. -/
def Presentable (key : String) : Prop := ∀ c ∈ key.toList, HeaderValue.Plain c ∧ c ≠ ' '

theorem headerText_utf8 {s t : String} : headerText (Text.utf8 s) = some t ↔
    (∀ c ∈ s.toList, HeaderValue.Plain c) ∧ t = s := by
  have shown : ((Text.utf8 s).all fun b => b == 9 || (0x20 ≤ b && b < 0x7f)) = true ↔
    ∀ c ∈ s.toList, HeaderValue.Plain c := HeaderValue.all_shows s
  rw [headerText, Option.ite_none_right_eq_some, shown, Option.some.injEq]
  refine and_congr_right fun plain => ?_
  rw [HeaderValue.map_ofNat plain, String.ofList_toList]
  exact eq_comm

variable (baseUrl pathAndQuery bearer : String) (client : HeaderMap) (body : List UInt8)

theorem proxyToPod_authorization :
    (proxyToPod baseUrl pathAndQuery bearer client body).headers.lookup "authorization" =
      some (Text.utf8 ("Bearer " ++ bearer)) := rfl

theorem proxyToPod_apiKey :
    (proxyToPod baseUrl pathAndQuery bearer client body).headers.lookup "x-api-key" = none := by
  rw [List.lookup_eq_none_iff]
  intro header member
  cases (proxyToPod_headers baseUrl pathAndQuery bearer client body header).mp member with
  | authorization | contentType => rfl
  | trace listed => rcases listed with rfl | rfl <;> rfl

/-- What the pods are presented, whatever the client's headers are. -/
theorem presents_iff (credential : String) :
    Presents (proxyToPod baseUrl pathAndQuery bearer client body).headers credential ↔
      credential = bearer ∧ Presentable bearer := by
  have header := proxyToPod_authorization baseUrl pathAndQuery bearer client body
  have split : ("Bearer " ++ bearer).toList = "Bearer".toList ++ ' ' :: bearer.toList := by
    rw [String.toList_append]
    rfl
  have prefixed (c : Char) : c ∈ ("Bearer " ++ bearer).toList ↔
      c ∈ "Bearer ".toList ∨ c ∈ bearer.toList := by
    rw [String.toList_append, List.mem_append]
  constructor
  · intro presented
    cases presented with
    | @bearer auth scheme credential readable parts isBearer spaceFree =>
      rw [header, Option.bind_some, headerText_utf8] at readable
      obtain ⟨plain, rfl⟩ := readable
      have pieces := splitOn_pair.mpr ⟨parts, bearer_spaceFree isBearer, spaceFree⟩
      rw [split, List.splitOn_append_cons_self_of_not_mem (by decide), List.cons.injEq] at pieces
      have whole : [' '].intercalate (bearer.toList.splitOn ' ') = bearer.toList :=
        List.intercalate_splitOn ' '
      rw [pieces.2] at whole
      have same : credential = bearer.toList := by simpa [List.intercalate] using whole
      refine ⟨by rw [same, String.ofList_toList], fun c member => ⟨?_, ?_⟩⟩
      · exact plain c ((prefixed c).mpr (.inr member))
      · rintro rfl
        exact spaceFree (same ▸ member)
    | apiKey unset readable =>
      rw [proxyToPod_apiKey] at readable
      cases readable
  · rintro ⟨rfl, presentable⟩
    have readable : ((proxyToPod baseUrl pathAndQuery credential client body).headers.lookup
        "authorization").bind headerText = some ("Bearer " ++ credential) := by
      rw [header, Option.bind_some]
      refine headerText_utf8.mpr ⟨fun c member => ?_, rfl⟩
      rcases (prefixed c).mp member with own | inside
      · have plain : ∀ c ∈ "Bearer ".toList, 0x20 ≤ c.toNat ∧ c.toNat < 0x7f := by
          simp
        exact .inr (plain c own)
      · exact (presentable c inside).1
    have presented := Presents.bearer readable split (by decide)
      fun space => (presentable ' ' space).2 rfl
    rwa [String.ofList_toList] at presented

theorem pod_opens (podKey : Option String) (next : α) :
    adminAuth podKey (proxyToPod baseUrl pathAndQuery bearer client body).headers next = .ok next ↔
      podKey = some bearer ∧ bearer ≠ "" ∧ Presentable bearer := by
  simp only [adminAuth_opens, presents_iff]
  constructor
  · rintro ⟨key, credential, rfl, nonempty, ⟨rfl, presentable⟩, same⟩
    obtain rfl := Text.utf8_injective same
    exact ⟨rfl, nonempty, presentable⟩
  · rintro ⟨rfl, nonempty, presentable⟩
    exact ⟨bearer, bearer, rfl, nonempty, ⟨rfl, presentable⟩, rfl⟩

/-- A client's request as a pod gets it. -/
structure ForwardedTo (pods : List Account) (key : String) (inbound : Inbound)
    (request : PodRequest) : Prop where
  url : ∃ account ∈ pods, request.url = account.url ++ inbound.pathAndQuery.getD inbound.path
  body : request.body = inbound.body
  headers : ∀ header, header ∈ request.headers ↔ Forwarded key inbound.headers header

/-- In every run of a router, each request that reaches a pod has the target and the body of
the request that its client sent and that was let in, and of its headers only those of the
trace; its one credential is the router's key. A pod's gate opens for it exactly if the pod has
the router's key, and that key is not empty, is visible ASCII and has no space. -/
theorem pods_open (env : Environment) {w₀ w : World} (starts : w₀.Starts)
    (reached : Run (step env) (fun _ _ => True) w₀ w) :
    ∀ t, ∀ attempt ∈ w.attempts t, ∃ inbound route stage key,
      accept env w₀.state inbound = .ok route ∧ w.handlers t = .admitted route stage ∧
      w₀.state.adminApiKey = some key ∧
      ForwardedTo w₀.state.pods key inbound attempt.request ∧
      ∀ podKey, adminAuth podKey attempt.request.headers () = .ok () ↔
        podKey = some key ∧ key ≠ "" ∧ Presentable key := by
  intro t attempt made
  have routed := routed_run starts reached t
  obtain ⟨route, stage, here, forwards⟩ := routed.sent attempt made
  obtain ⟨inbound, guarded⟩ := routed.accepted route stage here
  have keeps := accept_ok guarded
  refine ⟨inbound, route, stage, route.bearer, guarded, here, keeps.key, ?_, fun podKey => ?_⟩
  · exact ⟨⟨attempt.account, forwards.account, keeps.target ▸ forwards.url⟩,
      forwards.body.trans keeps.body, keeps.headers ▸ forwards.headers⟩
  · rw [forwards.request]
    exact pod_opens ..

/-- The second client's request goes to the second pod, which lets it in. -/
theorem pods_open_overtaken : ∃ attempt ∈ (Sample.after Sample.overtaken).attempts 1,
    ∃ inbound, accept Sample.env Sample.world.state inbound = .ok Sample.route ∧
      ForwardedTo [⟨"a", "http://a"⟩, ⟨"b", "http://b"⟩] "secret" inbound attempt.request ∧
      adminAuth (some "secret") attempt.request.headers () = .ok () := by
  have attempts : (Sample.after Sample.overtaken).attempts 1 =
    [Sample.route.attempt ⟨"b", "http://b"⟩ (Sample.answer 200)] := rfl
  have made := List.mem_singleton_self (Sample.route.attempt ⟨"b", "http://b"⟩ (Sample.answer 200))
  obtain ⟨inbound, route, stage, key, guarded, here, configured, sent, opens⟩ :=
    pods_open Sample.env Sample.starts Sample.overtaken_run 1 _ (attempts ▸ made)
  have admitted : (Sample.after Sample.overtaken).handlers 1 =
    .admitted Sample.route (.done (.ok ⟨200, [], ⟨[], false⟩⟩)) := rfl
  obtain ⟨rfl, _⟩ := Handler.admitted.inj (admitted.symm.trans here)
  obtain rfl : "secret" = key := Option.some.inj configured
  refine ⟨_, attempts ▸ made, inbound, guarded, sent, (opens _).mpr ⟨rfl, by decide, ?_⟩⟩
  simp [Presentable, HeaderValue.Plain]

end CodexProxy.Server
