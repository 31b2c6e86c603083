import IndexVault.Proofs.SignedBody

namespace IndexVault.SignedBody

/-- A body cut where its code and its timestamp end. -/
structure Parts (body code timestamp data : Bytes) : Prop where
  length_code : code.length = signatureLength
  length_timestamp : timestamp.length = timestampLength
  joined : code ++ timestamp ++ data = body

/-- The code that a timestamp and data should carry. Its key is the code of the public id under the
seed. -/
def expectedCode (seed : Bytes) (publicId : String) (timestamp data : Bytes) : Bytes :=
  Hash.hmac (Hash.hmac seed (Bytes.ofText publicId)) (timestamp ++ data)

/-- When a verdict is the right one. Whether a code is wrong does not depend on the time, and only of a
body that was signed is it said that it has expired. -/
def Warrants (body : Bytes) (publicId : String) (seed : Bytes) (now : Nat) :
    Except SignatureError Bytes → Prop
  | .error (.missingSignature n) => n = body.length ∧ n < 32
  | .error (.missingTimestamp n) => n = body.length ∧ 32 ≤ n ∧ n < 40
  | .error (.seedLength n) => n = seed.length ∧ n ≠ 16 ∧ 40 ≤ body.length
  | .error .mismatch => seed.length = 16 ∧ ∃ code timestamp data,
      Parts body code timestamp data ∧ code ≠ expectedCode seed publicId timestamp data
  | .error (.expired time expiration) => time = now ∧ expiration < now ∧
      expiration < UInt64.size ∧ ∃ data, sign seed publicId expiration data = .ok body
  | .ok data => seed.length = 16 ∧ ∃ expiration, expiration < UInt64.size ∧ now ≤ expiration ∧
      sign seed publicId expiration data = .ok body

section

variable {body code timestamp data seed : Bytes} {publicId : String} {expiration : Nat}

/-- Where body and seed are long enough, the code decides first, and then the second. -/
theorem check_of_parts (h : Parts body code timestamp data) (hseed : seed.length = 16) (now : Nat) :
    check body publicId seed now =
      if code ≠ expectedCode seed publicId timestamp data then .error .mismatch
      else if now > Bytes.bigEndian timestamp then
        .error (.expired now (Bytes.bigEndian timestamp))
      else .ok data := by
  have hkey := deriveKey_of_length hseed publicId
  rw [← h.joined]
  exact check_append h.length_code h.length_timestamp hkey now

/-- The seeds of the right length sign, and no others. -/
theorem exists_signed_iff (seed : Bytes) (publicId : String) (expiration : Nat) (data : Bytes) :
    (∃ body, sign seed publicId expiration data = .ok body) ↔ seed.length = 16 := by
  constructor
  · rintro ⟨body, hbody⟩
    obtain ⟨key, hkey, -⟩ := sign_eq_ok_iff.1 hbody
    rw [deriveKey] at hkey
    split at hkey
    · assumption
    · cases hkey
  · intro hseed
    exact ⟨_, sign_eq_ok_iff.2 ⟨_, deriveKey_of_length hseed publicId, rfl⟩⟩

/-- A body was signed for a second exactly when its timestamp spells this second and its code is the
expected one. -/
theorem sign_eq_ok_iff_parts (hexpiration : expiration < UInt64.size) :
    sign seed publicId expiration data = .ok body ↔ seed.length = 16 ∧
      ∃ timestamp, Parts body (expectedCode seed publicId timestamp data) timestamp data ∧
        Bytes.bigEndian timestamp = expiration := by
  constructor
  · intro hsign
    have hseed := (exists_signed_iff seed publicId expiration data).1 ⟨body, hsign⟩
    obtain ⟨key, hkey, hjoined⟩ := sign_eq_ok_iff.1 hsign
    cases hkey.symm.trans (deriveKey_of_length hseed publicId)
    exact ⟨hseed, timestampOf expiration,
      ⟨Hash.length_hmac _ _, length_timestampOf expiration, hjoined⟩,
      bigEndian_timestampOf hexpiration⟩
  · rintro ⟨hseed, timestamp, hparts, rfl⟩
    -- Eight bytes are the digits of the number they spell.
    have hdigits : timestampOf (Bytes.bigEndian timestamp) = timestamp := by
      rw [timestampOf, ← hparts.length_timestamp]
      exact Bytes.ofBigEndian_bigEndian timestamp
    refine sign_eq_ok_iff.2 ⟨_, deriveKey_of_length hseed publicId, ?_⟩
    rw [hdigits]
    exact hparts.joined

theorem check_of_signed (hexpiration : expiration < UInt64.size)
    (hsign : sign seed publicId expiration data = .ok body) (now : Nat) :
    check body publicId seed now =
      if now ≤ expiration then .ok data else .error (.expired now expiration) := by
  obtain ⟨hseed, timestamp, hparts, rfl⟩ := (sign_eq_ok_iff_parts hexpiration).1 hsign
  rw [check_of_parts hparts hseed, if_neg (not_not_intro rfl)]
  by_cases hnow : now ≤ Bytes.bigEndian timestamp
  · rw [if_neg (Nat.not_lt.2 hnow), if_pos hnow]
  · rw [if_pos (Nat.lt_of_not_le hnow), if_neg hnow]

end

section

variable {body : Bytes} (publicId : String) (seed : Bytes) (now : Nat)

/-- The length of the body is looked at before the seed is. -/
theorem check_of_short (h : body.length < 32) :
    check body publicId seed now = .error (.missingSignature body.length) := if_pos h

theorem check_of_undated (h : 32 ≤ body.length) (h' : body.length < 40) :
    check body publicId seed now = .error (.missingTimestamp body.length) :=
  (if_neg (Nat.not_lt.2 h)).trans (if_pos h')

theorem check_of_seed (h : 40 ≤ body.length) (hseed : seed.length ≠ 16) :
    check body publicId seed now = .error (.seedLength seed.length) := by
  have hkey : deriveKey seed publicId = .error (.seedLength seed.length) := if_neg hseed
  have hsigned : ¬body.length < signatureLength :=
    Nat.not_lt.2 (Nat.le_trans (by decide : 32 ≤ 40) h)
  have htimed : ¬body.length < signatureLength + timestampLength := Nat.not_lt.2 h
  rw [check, if_neg hsigned, if_neg htimed]
  simp only [hkey]

/-- The tests of a body in the order in which they are made. -/
theorem check_cases (body : Bytes) :
    body.length < 32 ∨
      (32 ≤ body.length ∧ body.length < 40) ∨
      (40 ≤ body.length ∧ seed.length ≠ 16) ∨
      (seed.length = 16 ∧ ∃ code timestamp data, Parts body code timestamp data ∧
        code ≠ expectedCode seed publicId timestamp data) ∨
      ∃ expiration data, expiration < UInt64.size ∧
        sign seed publicId expiration data = .ok body := by
  by_cases hshort : body.length < 32
  · exact Or.inl hshort
  by_cases hundated : body.length < 40
  · exact Or.inr (Or.inl ⟨Nat.not_lt.1 hshort, hundated⟩)
  by_cases hseed : seed.length = 16
  · -- The body is long enough and there is a key, so only the code is left to decide.
    right; right; right
    have hlong : signatureLength + timestampLength ≤ body.length := Nat.not_lt.1 hundated
    obtain ⟨code, timestamp, data, hcode, htimestamp, hjoined⟩ := exists_parts hlong
    by_cases hexpected : code = expectedCode seed publicId timestamp data
    · right
      have hlt : Bytes.bigEndian timestamp < UInt64.size := by
        have hbytes := Bytes.bigEndian_lt timestamp
        rw [htimestamp] at hbytes
        exact hbytes
      have hparts : Parts body (expectedCode seed publicId timestamp data) timestamp data :=
        ⟨hexpected ▸ hcode, htimestamp, hexpected ▸ hjoined⟩
      exact ⟨_, data, hlt, (sign_eq_ok_iff_parts hlt).2 ⟨hseed, timestamp, hparts, rfl⟩⟩
    · left
      exact ⟨hseed, code, timestamp, data, ⟨hcode, htimestamp, hjoined⟩, hexpected⟩
  · exact Or.inr (Or.inr (Or.inl ⟨Nat.not_lt.1 hundated, hseed⟩))

end

variable (body : Bytes) (publicId : String) (seed : Bytes) (now : Nat)

/-- Every verdict that is given is one that the body warrants. -/
theorem warrants_check : Warrants body publicId seed now (check body publicId seed now) := by
  rcases check_cases publicId seed body with hshort | ⟨hsigned, hundated⟩ | ⟨hlong, hseed⟩ |
    ⟨hseed, code, timestamp, data, hparts, hforged⟩ | ⟨expiration, data, hexpiration, hsign⟩
  · rw [check_of_short publicId seed now hshort]
    exact ⟨rfl, hshort⟩
  · rw [check_of_undated publicId seed now hsigned hundated]
    exact ⟨rfl, hsigned, hundated⟩
  · rw [check_of_seed publicId seed now hlong hseed]
    exact ⟨rfl, hseed, hlong⟩
  · rw [check_of_parts hparts hseed, if_pos hforged]
    exact ⟨hseed, code, timestamp, data, hparts, hforged⟩
  · rw [check_of_signed hexpiration hsign]
    split
    · rename_i hnow
      have hseed := (exists_signed_iff seed publicId expiration data).1 ⟨body, hsign⟩
      exact ⟨hseed, expiration, hexpiration, hnow, hsign⟩
    · rename_i hlate
      exact ⟨rfl, Nat.lt_of_not_le hlate, hexpiration, data, hsign⟩

variable {body publicId seed now} in
/-- A body warrants no verdict but the one that it gets. -/
theorem check_eq_of_warrants {verdict : Except SignatureError Bytes}
    (h : Warrants body publicId seed now verdict) : check body publicId seed now = verdict := by
  match verdict, h with
  | .error (.missingSignature _), ⟨rfl, hshort⟩ => exact check_of_short publicId seed now hshort
  | .error (.missingTimestamp _), ⟨rfl, hsigned, hundated⟩ =>
    exact check_of_undated publicId seed now hsigned hundated
  | .error (.seedLength _), ⟨rfl, hseed, hlong⟩ => exact check_of_seed publicId seed now hlong hseed
  | .error .mismatch, ⟨hseed, _, _, _, hparts, hforged⟩ =>
    rw [check_of_parts hparts hseed, if_pos hforged]
  | .error (.expired _ _), ⟨rfl, hlate, hexpiration, _, hsign⟩ =>
    rw [check_of_signed hexpiration hsign, if_neg (Nat.not_le.2 hlate)]
  | .ok _, ⟨_, _, hexpiration, hnow, hsign⟩ =>
    rw [check_of_signed hexpiration hsign, if_pos hnow]

/-- A body gets the one verdict that it warrants: it is accepted with its data exactly when it was
signed, with a whole seed, for a second that is not past, and it is refused for the first test that it
fails. A whole seed signs any data for any second, and what it signed is accepted up to this second and
has expired behind it. -/
theorem check_decides :
    (∀ verdict, check body publicId seed now = verdict ↔
      Warrants body publicId seed now verdict) ∧
    ∀ expiration data, expiration < UInt64.size →
      ((∃ signed, sign seed publicId expiration data = .ok signed) ↔ seed.length = 16) ∧
      ∀ signed, sign seed publicId expiration data = .ok signed → ∀ time,
        check signed publicId seed time =
          if time ≤ expiration then .ok data else .error (.expired time expiration) := by
  refine ⟨fun verdict => ⟨?_, check_eq_of_warrants⟩, fun expiration data hexpiration => ⟨?_, ?_⟩⟩
  · rintro rfl
    exact warrants_check body publicId seed now
  · exact exists_signed_iff seed publicId expiration data
  · intro signed hsign time
    exact check_of_signed hexpiration hsign time

/-- What was signed for a second is accepted in this second and has expired in the next. -/
theorem check_decides_signedForFive :
    ∃ signed, sign (.replicate 16 0) "abcde" 5 [1] = .ok signed ∧
      check signed "abcde" (.replicate 16 0) 5 = .ok [1] ∧
      check signed "abcde" (.replicate 16 0) 6 = .error (.expired 6 5) := by
  obtain ⟨-, hsigned⟩ := check_decides [] "abcde" (.replicate 16 0) 0
  obtain ⟨hseed, hcheck⟩ := hsigned 5 [1] (by decide)
  obtain ⟨signed, hsign⟩ := hseed.2 rfl
  exact ⟨signed, hsign, hcheck signed hsign 5, hcheck signed hsign 6⟩

end IndexVault.SignedBody
