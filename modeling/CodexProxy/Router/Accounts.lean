import Mathlib.Data.List.Nodup
import CodexProxy.Library.Trim
import CodexProxy.Router.Pool

/-! The accounts that are configured. Their urls are told apart as texts, while pods are
told apart by where the urls lead. -/
namespace CodexProxy.Router

/-- A url as it was parsed; the port of the scheme is left out. -/
structure Url where
  scheme : String
  host : Option String
  port : Option UInt16
  path : String
  query : Option String
  fragment : Option String

namespace Url

def defaultPort (scheme : String) : Option UInt16 :=
  if scheme = "http" then some 80 else if scheme = "https" then some 443 else none

/-- Where a url leads. -/
def origin (url : Url) : String × Option String × Option UInt16 :=
  (url.scheme, url.host.map Text.toAsciiLowercase, url.port.or (defaultPort url.scheme))

/-- An origin and nothing more. -/
structure Bare (url : Url) : Prop where
  scheme : url.scheme = "http" ∨ url.scheme = "https"
  path : url.path = "/"
  query : url.query = none
  fragment : url.fragment = none

end Url

abbrev UrlParser := String → Except String Url

/-- The accounts so far; what has been seen is what they have. -/
structure Accounts where
  accounts : List Account
  slugs : (accounts.map (·.slug)).Nodup
  urls : (accounts.map (·.url)).Nodup

namespace Accounts

theorem nodup_map_append {f : α → β} (distinct : (xs.map f).Nodup) (new : f x ∉ xs.map f) :
    ((xs ++ [x]).map f).Nodup := by
  rw [List.map_append, List.nodup_append_comm]
  exact List.nodup_cons.mpr ⟨new, distinct⟩

theorem new_of_nodup {f : α → β} (distinct : ((xs ++ x :: ys).map f).Nodup) : f x ∉ xs.map f := by
  rw [List.map_append, List.map_cons, List.nodup_middle, List.nodup_cons] at distinct
  exact fun old => distinct.1 (List.mem_append_left _ old)

def empty : Accounts := ⟨[], .nil, .nil⟩

/-- A slug that was seen would make a pin ambiguous, a url would defeat the failover. -/
def push (seen : Accounts) (account : Account) : Except String Accounts :=
  if slug : account.slug ∈ seen.accounts.map (·.slug) then
    .error ("duplicate account slug: " ++ account.slug)
  else if url : account.url ∈ seen.accounts.map (·.url) then
    .error ("duplicate account url (" ++ account.url ++ ") — slugs must point at distinct pods")
  else .ok {
    accounts := seen.accounts ++ [account]
    slugs := nodup_map_append seen.slugs slug
    urls := nodup_map_append seen.urls url }

end Accounts

/-- A slug and a url, without what is around them. -/
def splitEntry (entry : String) : Option Account :=
  (Text.splitOnce entry '=').map fun parts =>
    ⟨Text.trim parts.1, Text.trimEndMatches (Text.trim parts.2) '/'⟩

variable (parser : UrlParser)

def parseEntry (entry : String) : Except String Account :=
  match splitEntry entry with
  | none => .error ("invalid account entry (want slug=url): " ++ entry)
  | some account =>
    if account.slug = "" ∨ account.url = "" then
      .error ("invalid account entry (empty slug or url): " ++ entry)
    else match parser account.url with
      | .error err => .error ("invalid account url (" ++ err ++ "): " ++ entry)
      | .ok url =>
        if ¬ (url.scheme = "http" ∨ url.scheme = "https") then
          .error ("account url scheme must be http/https, got " ++ url.scheme ++ ": " ++ entry)
        else if url.path ≠ "/" ∨ url.query ≠ none ∨ url.fragment ≠ none then
          .error ("account url must be a bare origin (no path/query/fragment): " ++ entry)
        else .ok account

/-- Entries that are empty are skipped. -/
def parseEntries : List String → Accounts → Except String Accounts
  | [], seen => .ok seen
  | entry :: rest, seen =>
    if entry = "" then parseEntries rest seen
    else do parseEntries rest (← seen.push (← parseEntry parser entry))

def entries (spec : String) : List String :=
  (spec.toList.splitOn ',').map fun entry => Text.trim (String.ofList entry)

def AccountPool.parse (spec : String) : Except String AccountPool := do
  let seen ← parseEntries parser (entries spec) .empty
  if empty : seen.accounts = [] then
    .error "CODEX_PROXY_ACCOUNTS must list at least one slug=url account"
  else .ok {
    accounts := seen.accounts
    next := 0
    cooldownUntil := fun _ => none
    modelCooldownUntil := fun _ => none
    nonempty := empty
    distinct := seen.slugs }

/-- The accounts of a spec, as they are written. -/
def written (spec : String) : List Account := (entries spec).filterMap splitEntry

/-- An account that an entry is accepted as. -/
structure Valid (account : Account) : Prop where
  slug : account.slug ≠ ""
  text : account.url ≠ ""
  url : ∃ url, parser account.url = .ok url ∧ url.Bare

section
variable {parser : UrlParser}

theorem parseEntry_iff : parseEntry parser entry = .ok account ↔
    splitEntry entry = some account ∧ Valid parser account := by
  unfold parseEntry
  constructor
  · intro accepted
    cases split : splitEntry entry with
    | none => simp [split] at accepted
    | some written =>
      simp only [split] at accepted
      by_cases missing : written.slug = "" ∨ written.url = ""
      · simp [missing] at accepted
      · rw [if_neg missing] at accepted
        cases parsed : parser written.url with
        | error => simp [parsed] at accepted
        | ok url =>
          simp only [parsed] at accepted
          by_cases scheme : url.scheme = "http" ∨ url.scheme = "https"
          · by_cases more : url.path ≠ "/" ∨ url.query ≠ none ∨ url.fragment ≠ none
            · simp [scheme, more] at accepted
            · rw [if_neg (not_not.mpr scheme), if_neg more] at accepted
              cases accepted
              simp only [not_or, not_not] at missing more
              exact ⟨rfl, missing.1, missing.2, url, parsed, scheme, more.1, more.2.1, more.2.2⟩
          · simp [scheme] at accepted
  · rintro ⟨split, slug, text, url, parsed, scheme, path, query, fragment⟩
    simp [split, slug, text, parsed, scheme, path, query, fragment]

theorem push_iff {seen : Accounts} : (∃ seen', seen.push account = .ok seen') ↔
    account.slug ∉ seen.accounts.map (·.slug) ∧ account.url ∉ seen.accounts.map (·.url) := by
  unfold Accounts.push
  by_cases slug : account.slug ∈ seen.accounts.map (·.slug)
  · simp [slug]
  · by_cases url : account.url ∈ seen.accounts.map (·.url)
    · simp [slug, url]
    · simp [slug, url]

theorem push_ok {seen seen' : Accounts} (pushed : seen.push account = .ok seen') :
    seen'.accounts = seen.accounts ++ [account] := by
  unfold Accounts.push at pushed
  split at pushed
  · cases pushed
  · split at pushed
    · cases pushed
    · cases pushed
      rfl

/-- An entry that is empty or good. -/
def Entry (parser : UrlParser) (entry : String) : Prop :=
  entry = "" ∨ ∃ account, splitEntry entry = some account ∧ Valid parser account

theorem Entry.valid (good : Entry parser entry) (split : splitEntry entry = some account) :
    Valid parser account := by
  rcases good with rfl | ⟨account', split', valid⟩
  · cases split
  · cases split.symm.trans split'
    exact valid

/-- By induction on the entries. -/
theorem parseEntries_ok {entries : List String} {seen seen' : Accounts}
    (accepted : parseEntries parser entries seen = .ok seen') :
    seen'.accounts = seen.accounts ++ entries.filterMap splitEntry ∧
      ∀ entry ∈ entries, Entry parser entry := by
  induction entries generalizing seen with
  | nil =>
    cases accepted
    simp
  | cons entry rest ih =>
    unfold parseEntries at accepted
    by_cases skipped : entry = ""
    · subst skipped
      obtain ⟨accounts, others⟩ := ih accepted
      exact ⟨accounts, List.forall_mem_cons.mpr ⟨.inl rfl, others⟩⟩
    · rw [if_neg skipped] at accepted
      cases parsed : parseEntry parser entry with
      | error => simp [parsed, bind, Except.bind] at accepted
      | ok account =>
        cases pushed : seen.push account with
        | error => simp [parsed, pushed, bind, Except.bind] at accepted
        | ok next =>
          simp only [parsed, pushed, bind, Except.bind] at accepted
          obtain ⟨split, valid⟩ := parseEntry_iff.mp parsed
          obtain ⟨accounts, others⟩ := ih accepted
          rw [accounts, push_ok pushed, List.filterMap_cons_some split]
          exact ⟨by simp, List.forall_mem_cons.mpr ⟨.inr ⟨account, split, valid⟩, others⟩⟩

/-- By induction on the entries. -/
theorem parseEntries_accepts {entries : List String} {seen : Accounts}
    (good : ∀ entry ∈ entries, Entry parser entry)
    (slugs : ((seen.accounts ++ entries.filterMap splitEntry).map (·.slug)).Nodup)
    (urls : ((seen.accounts ++ entries.filterMap splitEntry).map (·.url)).Nodup) :
    ∃ seen', parseEntries parser entries seen = .ok seen' := by
  induction entries generalizing seen with
  | nil => exact ⟨seen, rfl⟩
  | cons entry rest ih =>
    obtain ⟨first, others⟩ := List.forall_mem_cons.mp good
    unfold parseEntries
    by_cases skipped : entry = ""
    · subst skipped
      exact ih others slugs urls
    · obtain ⟨account, split, valid⟩ := first.resolve_left skipped
      rw [List.filterMap_cons_some split] at slugs urls
      obtain ⟨next, pushed⟩ :=
        push_iff.mpr ⟨Accounts.new_of_nodup slugs, Accounts.new_of_nodup urls⟩
      simp only [if_neg skipped, parseEntry_iff.mpr ⟨split, valid⟩, pushed, bind, Except.bind]
      refine ih others ?_ ?_
      · rwa [push_ok pushed, List.append_assoc]
      · rwa [push_ok pushed, List.append_assoc]

/-- An accepted spec is a pool of what is written, with every url once. -/
theorem parse_ok (accepted : AccountPool.parse parser spec = .ok pool) :
    pool.accounts = written spec ∧ (∀ entry ∈ entries spec, Entry parser entry) ∧
      (pool.accounts.map (·.url)).Nodup := by
  unfold AccountPool.parse at accepted
  cases parsed : parseEntries parser (entries spec) .empty with
  | error => simp [parsed, bind, Except.bind] at accepted
  | ok seen =>
    simp only [parsed, bind, Except.bind] at accepted
    split at accepted
    · cases accepted
    · cases accepted
      obtain ⟨accounts, good⟩ := parseEntries_ok parsed
      exact ⟨accounts, good, seen.urls⟩

theorem written_valid (good : ∀ entry ∈ entries spec, Entry parser entry) :
    ∀ account ∈ written spec, Valid parser account := by
  intro account member
  obtain ⟨entry, there, split⟩ := List.mem_filterMap.mp member
  exact (good entry there).valid split

/-- A spec is accepted when its entries are good, and their slugs and their urls distinct. -/
theorem parse_accepts : (∃ pool, AccountPool.parse parser spec = .ok pool) ↔
    written spec ≠ [] ∧ (∀ entry ∈ entries spec, Entry parser entry) ∧
      ((written spec).map (·.slug)).Nodup ∧ ((written spec).map (·.url)).Nodup := by
  constructor
  · rintro ⟨pool, accepted⟩
    obtain ⟨accounts, good, urls⟩ := parse_ok accepted
    rw [← accounts]
    exact ⟨pool.nonempty, good, pool.distinct, urls⟩
  · rintro ⟨some, good, slugs, urls⟩
    obtain ⟨seen, parsed⟩ : ∃ seen, parseEntries parser (entries spec) .empty = .ok seen :=
      parseEntries_accepts good slugs urls
    have accounts : seen.accounts = written spec := (parseEntries_ok parsed).1
    unfold AccountPool.parse
    simp only [parsed, bind, Except.bind]
    rw [dif_neg (accounts ▸ some)]
    exact ⟨_, rfl⟩

end

/-- Where the url of an account leads, when it can be parsed. -/
def Account.origin (parser : UrlParser) (account : Account) :
    Option (String × Option String × Option UInt16) :=
  (parser account.url).toOption.map Url.origin

/-- A pool of accounts at different pods. -/
structure Spread (parser : UrlParser) (pool : AccountPool) : Prop where
  nonempty : pool.accounts ≠ []
  slugs : ∀ account ∈ pool.accounts, account.slug ≠ ""
  distinct : (pool.accounts.map (·.slug)).Nodup
  bare : ∀ account ∈ pool.accounts, ∃ url, parser account.url = .ok url ∧ url.Bare
  apart : (pool.accounts.map (·.origin parser)).Nodup
  /-- Whatever has been picked and cooled in the meantime. -/
  failover : ∀ (later : AccountPool) (clock : Nat → Instant) (model : String) (first alt : Account),
    later.accounts = pool.accounts → first ∈ pool.accounts →
    (later.pick clock (some first.slug) model).1 = some alt → alt.slug ≠ first.slug →
    alt.origin parser ≠ first.origin parser

/-- The urls of the spec that lead to one place are written in one way. -/
def OneSpelling (parser : UrlParser) (spec : String) : Prop :=
  ∀ first ∈ written spec, ∀ second ∈ written spec, ∀ url url', parser first.url = .ok url →
    parser second.url = .ok url' → url.origin = url'.origin → first.url = second.url

section
variable {parser : UrlParser}

theorem origin_of_parsed {account : Account} (parsed : parser account.url = .ok url) :
    account.origin parser = some url.origin := by
  simp only [Account.origin, parsed, Except.toOption, Option.map_some]

/-- Accounts with different urls are apart when different urls lead to different places. -/
theorem apart_iff {accounts : List Account} (urls : (accounts.map (·.url)).Nodup)
    (valid : ∀ account ∈ accounts, Valid parser account) :
    (accounts.map (·.origin parser)).Nodup ↔
      ∀ first ∈ accounts, ∀ second ∈ accounts, ∀ url url', parser first.url = .ok url →
        parser second.url = .ok url' → url.origin = url'.origin → first.url = second.url := by
  have texts : accounts.map (·.origin parser) =
      (accounts.map (·.url)).map fun text => (parser text).toOption.map Url.origin := by
    rw [List.map_map]
    rfl
  rw [texts, List.nodup_map_iff_inj_on urls]
  constructor
  · intro apart first firstMem second secondMem url url' parsed parsed' same
    refine apart _ (List.mem_map_of_mem firstMem) _ (List.mem_map_of_mem secondMem) ?_
    simp only [parsed, parsed', Except.toOption, Option.map_some, same]
  · intro spelled text member text' member' same
    obtain ⟨first, firstMem, rfl⟩ := List.mem_map.mp member
    obtain ⟨second, secondMem, rfl⟩ := List.mem_map.mp member'
    obtain ⟨url, parsed, _⟩ := (valid first firstMem).url
    obtain ⟨url', parsed', _⟩ := (valid second secondMem).url
    simp only [parsed, parsed', Except.toOption, Option.map_some, Option.some.injEq] at same
    exact spelled first firstMem second secondMem url url' parsed parsed' same

/-- A pick that leaves the slug leaves the pod. -/
theorem failover_apart {pool later : AccountPool} {clock : Nat → Instant}
    (apart : (pool.accounts.map (·.origin parser)).Nodup) (same : later.accounts = pool.accounts)
    (member : first ∈ pool.accounts)
    (picked : (later.pick clock (some first.slug) model).1 = some alt)
    (other : alt.slug ≠ first.slug) : alt.origin parser ≠ first.origin parser := by
  obtain ⟨account, there, found⟩ := later.pick_mem clock (some first.slug) model
  cases picked.symm.trans found
  intro together
  exact other (congrArg Account.slug (List.inj_on_of_nodup_map apart (same ▸ there) member together))

/-- Exactly a spec with one spelling for each place is a pool of different pods. -/
theorem parse_spread_iff (accepted : AccountPool.parse parser spec = .ok pool) :
    Spread parser pool ↔ OneSpelling parser spec := by
  obtain ⟨accounts, good, urls⟩ := parse_ok accepted
  have valid := written_valid good
  rw [OneSpelling, ← accounts]
  rw [← accounts] at valid
  constructor
  · intro spread
    exact (apart_iff urls valid).mp spread.apart
  · intro spelled
    have apart := (apart_iff urls valid).mpr spelled
    exact {
      nonempty := pool.nonempty
      slugs := fun account member => (valid account member).slug
      distinct := pool.distinct
      bare := fun account member => (valid account member).url
      apart := apart
      failover := fun _ _ _ _ _ => failover_apart apart }

end

/-- What is known of the parser: hosts are in lower case, and the port of the scheme is left out. -/
structure Normalizing (parser : UrlParser) : Prop where
  host : parser text = .ok url → url.scheme = "http" ∨ url.scheme = "https" →
    url.host.map Text.toAsciiLowercase = url.host
  port : parser text = .ok url → url.port = none ∨ url.port ≠ Url.defaultPort url.scheme

/-- Urls of a host with letters only. -/
def lettersParser (text : String) : Except String Url :=
  let host := text.toList.drop 7
  if Text.startsWith text "http://" && host ≠ [] && host.all Char.isAlpha then
    .ok ⟨"http", some (Text.toAsciiLowercase (String.ofList host)), none, "/", none, none⟩
  else .error "not a url of letters"

theorem lettersParser_ok (parsed : lettersParser text = .ok url) :
    ∃ host, url = ⟨"http", some (Text.toAsciiLowercase host), none, "/", none, none⟩ := by
  unfold lettersParser at parsed
  dsimp only at parsed
  split at parsed
  · cases parsed
    exact ⟨_, rfl⟩
  · cases parsed

theorem toAsciiLowercase_twice (s : String) :
    Text.toAsciiLowercase (Text.toAsciiLowercase s) = Text.toAsciiLowercase s := by
  have twice (c : Char) : c.toLower.toLower = c.toLower :=
    Text.toLower_invariant Char.toLower (by decide) c
  simp only [Text.toAsciiLowercase, String.toList_ofList, List.map_map, Function.comp_def, twice]

theorem lettersParser_normalizing : Normalizing lettersParser where
  host parsed _ := by
    obtain ⟨host, rfl⟩ := lettersParser_ok parsed
    simp only [Option.map_some, toAsciiLowercase_twice]
  port parsed := by
    obtain ⟨host, rfl⟩ := lettersParser_ok parsed
    exact .inl rfl

theorem lettersParser_valid (slug : account.slug ≠ "") (text : account.url ≠ "")
    (parsed : lettersParser account.url = .ok ⟨"http", host, none, "/", none, none⟩) :
    Valid lettersParser account :=
  ⟨slug, text, _, parsed, .inl rfl, rfl, rfl, rfl⟩

/-- Two urls that differ in the case of the host are taken for two pods. -/
theorem parse_spread_fails : ¬ ∀ parser, Normalizing parser → ∀ spec pool,
    AccountPool.parse parser spec = .ok pool → Spread parser pool := by
  intro claimed
  have spec : entries "a=http://pod,b=http://POD" = ["a=http://pod", "b=http://POD"] := by decide
  have first : splitEntry "a=http://pod" = some ⟨"a", "http://pod"⟩ := by rfl
  have second : splitEntry "b=http://POD" = some ⟨"b", "http://POD"⟩ := by rfl
  have lower : lettersParser "http://pod" = .ok ⟨"http", some "pod", none, "/", none, none⟩ := by rfl
  have upper : lettersParser "http://POD" = .ok ⟨"http", some "pod", none, "/", none, none⟩ := by rfl
  have accounts : written "a=http://pod,b=http://POD" =
      [⟨"a", "http://pod"⟩, ⟨"b", "http://POD"⟩] := by
    simp only [written, spec, List.filterMap_cons_some first, List.filterMap_cons_some second,
      List.filterMap_nil]
  have good : ∀ entry ∈ entries "a=http://pod,b=http://POD", Entry lettersParser entry := by
    rw [spec]
    refine List.forall_mem_cons.mpr ⟨.inr ⟨_, first, ?_⟩, List.forall_mem_singleton.mpr
      (.inr ⟨_, second, ?_⟩)⟩
    · exact lettersParser_valid (by decide) (by decide) lower
    · exact lettersParser_valid (by decide) (by decide) upper
  obtain ⟨pool, accepted⟩ := parse_accepts.mpr ⟨by simp [accounts], good, by simp [accounts],
    by simp [accounts]⟩
  have apart := (claimed _ lettersParser_normalizing _ pool accepted).apart
  rw [(parse_ok accepted).1, accounts, List.map_cons, List.map_cons, origin_of_parsed lower,
    origin_of_parsed upper] at apart
  simp at apart

/-- Two accounts at two pods, with what is trimmed around them. -/
theorem parse_spread_two : ∃ pool,
    AccountPool.parse lettersParser " main=http://a , codex=http://b/ ," = .ok pool ∧
      Spread lettersParser pool := by
  have spec : entries " main=http://a , codex=http://b/ ," =
    ["main=http://a", "codex=http://b/", ""] := by decide
  have first : splitEntry "main=http://a" = some ⟨"main", "http://a"⟩ := by rfl
  have second : splitEntry "codex=http://b/" = some ⟨"codex", "http://b"⟩ := by rfl
  have third : splitEntry "" = none := by rfl
  have parsed : lettersParser "http://a" = .ok ⟨"http", some "a", none, "/", none, none⟩ := by rfl
  have parsed' : lettersParser "http://b" = .ok ⟨"http", some "b", none, "/", none, none⟩ := by rfl
  have accounts : written " main=http://a , codex=http://b/ ," =
      [⟨"main", "http://a"⟩, ⟨"codex", "http://b"⟩] := by
    simp only [written, spec, List.filterMap_cons_some first, List.filterMap_cons_some second,
      List.filterMap_cons_none third, List.filterMap_nil]
  have good : ∀ entry ∈ entries " main=http://a , codex=http://b/ ,", Entry lettersParser entry := by
    rw [spec]
    refine List.forall_mem_cons.mpr ⟨.inr ⟨_, first, ?_⟩, List.forall_mem_cons.mpr
      ⟨.inr ⟨_, second, ?_⟩, List.forall_mem_singleton.mpr (.inl rfl)⟩⟩
    · exact lettersParser_valid (by decide) (by decide) parsed
    · exact lettersParser_valid (by decide) (by decide) parsed'
  obtain ⟨pool, accepted⟩ := parse_accepts.mpr ⟨by simp [accounts], good, by simp [accounts],
    by simp [accounts]⟩
  refine ⟨pool, accepted, (parse_spread_iff accepted).mpr ?_⟩
  have apart : ([⟨"main", "http://a"⟩, ⟨"codex", "http://b"⟩] : List Account).map
      (·.origin lettersParser) =
        [some ("http", some "a", some 80), some ("http", some "b", some 80)] := by
    rw [List.map_cons, List.map_cons, origin_of_parsed parsed, origin_of_parsed parsed']
    rfl
  rw [OneSpelling]
  refine (apart_iff ?_ (written_valid good)).mp ?_
  · simp [accounts]
  · rw [accounts, apart]
    simp

end CodexProxy.Router
