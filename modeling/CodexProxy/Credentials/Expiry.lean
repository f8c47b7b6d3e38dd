import CodexProxy.Credentials.OAuth
import CodexProxy.Library.Checked

/-! What is computed from a token's expiry. Three differences are taken, of which each can
leave the 64 bits when the expiry is far in the past; then a build that checks panics, and
a build that wraps takes the token for a fresh one. -/
namespace CodexProxy.Credentials
open Json

/-- None when the subtraction overflows. -/
def tokenExpiredChecked (expiresAtMs nowMs : Int64) : Option Bool :=
  (Checked.sub expiresAtMs TOKEN_EXPIRY_BUFFER_MS).map fun due => nowMs ≥ due

/-- The division truncates. -/
def minutesUntilExpiry (expiresAtMs nowMs : Int64) : Option Int64 :=
  (Checked.sub expiresAtMs nowMs).map (· / 60000)

/-- What `get_credentials` computes before it refreshes: the minutes that it logs, or
nothing for a fresh token. The clock is read again for the log. -/
def loggedMinutes (expiresAtMs nowMs laterMs : Int64) : Option (Option Int64) :=
  (tokenExpiredChecked expiresAtMs nowMs).bind fun expired =>
    if expired then (minutesUntilExpiry expiresAtMs laterMs).map some else some none

/-- The status of credentials that could be read. -/
def credentialsStatus (full : OAuthCredentials) (nowMs : Int64) : Option Json :=
  (minutesUntilExpiry full.expiresAtMs nowMs).map fun minutes =>
    buildObject [("type", .string "oauth"), ("hasCredentials", .bool true),
      ("userID", .string full.userId), ("expiresAt", .ofInt64 full.expiresAtMs),
      ("minutesUntilExpiry", .ofInt64 minutes), ("isExpired", .bool (minutes ≤ 0)),
      ("needsRefreshSoon", .bool (minutes ≤ 60))]

/-- The expiry over the integers, an hour early. -/
def Due (expiresAtMs nowMs : Int64) : Prop := expiresAtMs.toInt ≤ nowMs.toInt + 3600000

/-- Credentials whose expiry is computed exactly by all who ask: in builds that wrap and in
builds that check, at every reading of the clock. -/
structure ExactExpiry (full : OAuthCredentials) (nowMs laterMs askedMs : Int64) : Prop where
  expired : tokenExpired full.expiresAtMs nowMs = true ↔ Due full.expiresAtMs nowMs
  checked : tokenExpiredChecked full.expiresAtMs nowMs ≠ none
  logged : loggedMinutes full.expiresAtMs nowMs laterMs ≠ none
  status : credentialsStatus full askedMs ≠ none

theorem buffer_toInt : TOKEN_EXPIRY_BUFFER_MS.toInt = 3600000 := by decide

theorem sub_ne_none {a b : Int64} : Checked.sub a b ≠ none ↔ Checked.Fits (a.toInt - b.toInt) := by
  rw [Checked.sub, Option.ne_none_iff_isSome, Checked.ofInt_isSome]

theorem tokenExpiredChecked_ne_none (expiresAtMs nowMs : Int64) :
    tokenExpiredChecked expiresAtMs nowMs ≠ none ↔ -2 ^ 63 + 3600000 ≤ expiresAtMs.toInt := by
  have upper := expiresAtMs.toInt_lt
  rw [tokenExpiredChecked, Ne, Option.map_eq_none_iff, ← Ne, sub_ne_none, buffer_toInt,
    Checked.Fits]
  omega

/-- A clock that is not negative overflows only at the low end. -/
theorem minutesUntilExpiry_ne_none {expiresAtMs nowMs : Int64} (clock : 0 ≤ nowMs.toInt) :
    minutesUntilExpiry expiresAtMs nowMs ≠ none ↔ -2 ^ 63 + nowMs.toInt ≤ expiresAtMs.toInt := by
  have upper := expiresAtMs.toInt_lt
  rw [minutesUntilExpiry, Ne, Option.map_eq_none_iff, ← Ne, sub_ne_none, Checked.Fits]
  omega

theorem credentialsStatus_ne_none {full : OAuthCredentials} {nowMs : Int64}
    (clock : 0 ≤ nowMs.toInt) :
    credentialsStatus full nowMs ≠ none ↔ -2 ^ 63 + nowMs.toInt ≤ full.expiresAtMs.toInt := by
  rw [credentialsStatus, Ne, Option.map_eq_none_iff, ← Ne, minutesUntilExpiry_ne_none clock]

/-- An expiry that is not in the first hour of the 64 bits leaves room for the buffer. -/
theorem buffer_fits {expiresAtMs : Int64} (fits : -2 ^ 63 + 3600000 ≤ expiresAtMs.toInt) :
    Checked.Fits (expiresAtMs.toInt - TOKEN_EXPIRY_BUFFER_MS.toInt) := by
  have upper := expiresAtMs.toInt_lt
  rw [buffer_toInt, Checked.Fits]
  omega

/-- Without overflow the comparison is that of the integers. -/
theorem tokenExpired_exact {expiresAtMs : Int64} (nowMs : Int64)
    (fits : -2 ^ 63 + 3600000 ≤ expiresAtMs.toInt) :
    tokenExpired expiresAtMs nowMs = true ↔ Due expiresAtMs nowMs := by
  rw [tokenExpired, decide_eq_true_eq, ge_iff_le, Int64.le_iff_toInt_le,
    Checked.sub_of_fits (buffer_fits fits), buffer_toInt, Due]
  omega

theorem tokenExpiredChecked_eq {expiresAtMs : Int64} (nowMs : Int64)
    (fits : -2 ^ 63 + 3600000 ≤ expiresAtMs.toInt) :
    tokenExpiredChecked expiresAtMs nowMs = some (tokenExpired expiresAtMs nowMs) := by
  have exact : Checked.sub expiresAtMs TOKEN_EXPIRY_BUFFER_MS =
      some (expiresAtMs - TOKEN_EXPIRY_BUFFER_MS) :=
    Checked.ofInt_eq_some.mpr (Checked.sub_of_fits (buffer_fits fits))
  rw [tokenExpiredChecked, exact]
  rfl

/-- A token whose age overflows is due, so the age is computed for the log. -/
theorem loggedMinutes_ne_none {expiresAtMs nowMs laterMs : Int64} (clock : 0 ≤ nowMs.toInt)
    (later : 0 ≤ laterMs.toInt) (fits : -2 ^ 63 + 3600000 ≤ expiresAtMs.toInt) :
    loggedMinutes expiresAtMs nowMs laterMs ≠ none ↔ -2 ^ 63 + laterMs.toInt ≤ expiresAtMs.toInt := by
  rw [loggedMinutes, tokenExpiredChecked_eq nowMs fits, Option.bind_some]
  cases due : tokenExpired expiresAtMs nowMs with
  | true =>
    rw [if_pos rfl, Ne, Option.map_eq_none_iff, ← Ne, minutesUntilExpiry_ne_none later]
  | false =>
    have fresh := (tokenExpired_exact nowMs fits).not.mp (by rw [due]; exact Bool.false_ne_true)
    have upper := laterMs.toInt_lt
    rw [Due] at fresh
    exact iff_of_true (fun none => nomatch none) (by omega)

/-- Every expiry: all computations are exact if and only if it is not so far in the past that
the buffer or a clock value leads out of the 64 bits. -/
theorem exactExpiry_iff {nowMs laterMs askedMs : Int64} (clock : 0 ≤ nowMs.toInt)
    (later : 0 ≤ laterMs.toInt) (asked : 0 ≤ askedMs.toInt) (full : OAuthCredentials) :
    ExactExpiry full nowMs laterMs askedMs ↔
      -2 ^ 63 + max 3600000 (max laterMs.toInt askedMs.toInt) ≤ full.expiresAtMs.toInt := by
  constructor
  · intro exact
    have fits := (tokenExpiredChecked_ne_none _ _).mp exact.checked
    have log := (loggedMinutes_ne_none clock later fits).mp exact.logged
    have status := (credentialsStatus_ne_none asked).mp exact.status
    omega
  · intro late
    have fits : -2 ^ 63 + 3600000 ≤ full.expiresAtMs.toInt := by omega
    have log : -2 ^ 63 + laterMs.toInt ≤ full.expiresAtMs.toInt := by omega
    have status : -2 ^ 63 + askedMs.toInt ≤ full.expiresAtMs.toInt := by omega
    exact ⟨tokenExpired_exact nowMs fits, (tokenExpiredChecked_ne_none _ _).mpr fits,
      (loggedMinutes_ne_none clock later fits).mpr log, (credentialsStatus_ne_none asked).mpr status⟩

/-- A token of the year 2001, asked for in 2023. -/
theorem old_expiry :
    ExactExpiry ⟨"a", "r", 1000000000000, "u"⟩ 1700000000000 1700000000001 1700000000002 :=
  have late : -2 ^ 63 + max 3600000 (max (1700000000001 : Int64).toInt
      (1700000000002 : Int64).toInt) ≤ (1000000000000 : Int64).toInt := by decide
  (exactExpiry_iff (by decide) (by decide) (by decide) ⟨"a", "r", 1000000000000, "u"⟩).mpr late

/-- The oldest expiry is taken for a fresh one by a build that wraps, and no build that
checks computes it. -/
theorem oldest_expiry_fresh :
    ¬ ExactExpiry ⟨"a", "r", Int64.minValue, "u"⟩ 1700000000000 1700000000000 1700000000000 ∧
      tokenExpired Int64.minValue 1700000000000 = false ∧
      tokenExpiredChecked Int64.minValue 1700000000000 = none := by
  refine ⟨fun exact => ?_, by decide, by decide⟩
  exact absurd exact.checked (by decide)

end CodexProxy.Credentials
