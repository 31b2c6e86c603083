import IndexVault.SignedBody

namespace IndexVault

namespace Bytes

theorem ofBigEndian_append_singleton (width : Nat) (b : Bytes) (x : UInt8) :
    ofBigEndian (width + 1) (bigEndian (b ++ [x])) = ofBigEndian width (bigEndian b) ++ [x] := by
  have hx : x.toNat < 256 := x.toNat_lt
  have hhigh : (bigEndian b * 256 + x.toNat) / 256 = bigEndian b := by omega
  have hlow : UInt8.ofNat (bigEndian b * 256 + x.toNat) = x := by
    apply UInt8.toNat_inj.1
    rw [UInt8.toNat_ofNat']
    omega
  rw [bigEndian_append_singleton, ofBigEndian, hhigh, hlow]

/-- Bytes are told by their number and how many they are. -/
theorem ofBigEndian_bigEndian (b : Bytes) : ofBigEndian b.length (bigEndian b) = b := by
  induction h : b.length generalizing b with
  | zero =>
    rw [List.length_eq_zero_iff.1 h]
    rfl
  | succ width ih =>
    have hne : b ≠ [] := by
      rintro rfl
      cases h
    have hsplit : b.dropLast ++ [b.getLast hne] = b := List.dropLast_concat_getLast hne
    have hlength : b.dropLast.length = width := by
      rw [List.length_dropLast, h]
      rfl
    rw [← hsplit, ofBigEndian_append_singleton, ih b.dropLast hlength]

theorem bigEndian_lt (b : Bytes) : bigEndian b < Nat.pow 256 b.length := by
  have h := bigEndian_ofBigEndian b.length (bigEndian b)
  rw [ofBigEndian_bigEndian] at h
  rw [h]
  exact Nat.mod_lt _ (Nat.pow_pos (by decide))

end Bytes

namespace SignedBody

/-- A seed of the right length derives a key for every public id. -/
theorem deriveKey_of_length {seed : Bytes} (h : seed.length = seedLength) (publicId : String) :
    deriveKey seed publicId = .ok (Hash.hmac seed (Bytes.ofText publicId)) := if_pos h

/-- A whole seed is never the reason for which a body is refused. -/
theorem check_ne_seedLength {seed : Bytes} (h : seed.length = seedLength) (body : Bytes)
    (publicId : String) (now n : Nat) :
    check body publicId seed now ≠ .error (.seedLength n) := by
  intro hrefused
  rw [check] at hrefused
  split at hrefused
  · cases hrefused
  split at hrefused
  · cases hrefused
  simp only [deriveKey_of_length h] at hrefused
  split at hrefused
  · cases hrefused
  split at hrefused
  · cases hrefused
  · cases hrefused

def timestampOf (expiration : Nat) : Bytes := Bytes.ofBigEndian timestampLength expiration

theorem length_timestampOf (expiration : Nat) :
    (timestampOf expiration).length = timestampLength := Bytes.length_ofBigEndian _ _

/-- A second that fits a word is read back from its eight bytes. -/
theorem bigEndian_timestampOf {expiration : Nat} (h : expiration < UInt64.size) :
    Bytes.bigEndian (timestampOf expiration) = expiration := by
  rw [timestampOf, Bytes.bigEndian_ofBigEndian]
  exact Nat.mod_eq_of_lt h

theorem sign_eq_ok_iff {seed data body : Bytes} {publicId : String} {expiration : Nat} :
    sign seed publicId expiration data = .ok body ↔
      ∃ key, deriveKey seed publicId = .ok key ∧
        signature key (timestampOf expiration) data ++ timestampOf expiration ++ data = body := by
  cases hkey : deriveKey seed publicId with
  | error e =>
    have hsign : sign seed publicId expiration data = .error e := by
      rw [sign, hkey]
      rfl
    simp [hsign]
  | ok key =>
    have hsign : sign seed publicId expiration data =
        .ok (signature key (timestampOf expiration) data ++ timestampOf expiration ++ data) := by
      rw [sign, hkey]
      rfl
    simp [hsign]

/-- The three parts of a body that is long enough. -/
theorem check_append {found timestamp data seed key : Bytes} {publicId : String}
    (hfound : found.length = signatureLength) (htimestamp : timestamp.length = timestampLength)
    (hkey : deriveKey seed publicId = .ok key) (now : Nat) :
    check (found ++ timestamp ++ data) publicId seed now =
      if found ≠ signature key timestamp data then .error .mismatch
      else if now > Bytes.bigEndian timestamp then
        .error (.expired now (Bytes.bigEndian timestamp))
      else .ok data := by
  have hlength : (found ++ timestamp ++ data).length =
      signatureLength + timestampLength + data.length := by
    rw [List.length_append, List.length_append, hfound, htimestamp]
  have htake : (found ++ timestamp ++ data).take signatureLength = found := by
    rw [List.append_assoc]
    exact List.take_left' hfound
  have hdrop : (found ++ timestamp ++ data).drop signatureLength = timestamp ++ data := by
    rw [List.append_assoc]
    exact List.drop_left' hfound
  have hdata : (found ++ timestamp ++ data).drop (signatureLength + timestampLength) = data := by
    apply List.drop_left'
    rw [List.length_append, hfound, htimestamp]
  have hsigned : ¬(found ++ timestamp ++ data).length < signatureLength := by omega
  have htimed : ¬(found ++ timestamp ++ data).length < signatureLength + timestampLength := by
    omega
  simp only [check, hsigned, htimed, if_false, htake, hdrop, hdata, List.take_left' htimestamp,
    hkey]

/-- A body is accepted only if it is long enough for a code and a second, and the seed for a key. -/
theorem long_of_check_eq_ok {body data seed : Bytes} {publicId : String} {now : Nat}
    (h : check body publicId seed now = .ok data) :
    signatureLength + timestampLength ≤ body.length ∧
      ∃ key, deriveKey seed publicId = .ok key := by
  rw [check] at h
  split at h
  · cases h
  · split at h
    · cases h
    · rename_i hlength
      refine ⟨by omega, ?_⟩
      cases hkey : deriveKey seed publicId with
      | error e =>
        rw [hkey] at h
        cases h
      | ok key => exact ⟨key, rfl⟩

theorem length_signature (key timestamp data : Bytes) :
    (signature key timestamp data).length = signatureLength := Hash.length_hmac _ _

/-- A body that is long enough falls into a code, a second and data. -/
theorem exists_parts {body : Bytes} (h : signatureLength + timestampLength ≤ body.length) :
    ∃ found timestamp data, found.length = signatureLength ∧
      timestamp.length = timestampLength ∧ found ++ timestamp ++ data = body := by
  refine ⟨body.take signatureLength, (body.drop signatureLength).take timestampLength,
    body.drop (signatureLength + timestampLength), ?_, ?_, ?_⟩
  · rw [List.length_take]
    omega
  · rw [List.length_take, List.length_drop]
    omega
  · rw [List.append_assoc, ← List.drop_drop, List.take_append_drop, List.take_append_drop]

/-- A body is accepted exactly when it was signed for a second that is not past. -/
theorem check_eq_ok_iff {body data seed : Bytes} {publicId : String} {now : Nat} :
    check body publicId seed now = .ok data ↔
      ∃ expiration, expiration < UInt64.size ∧ now ≤ expiration ∧
        sign seed publicId expiration data = .ok body := by
  constructor
  · intro h
    obtain ⟨hlong, key, hkey⟩ := long_of_check_eq_ok h
    obtain ⟨found, timestamp, rest, hfound, htimestamp, rfl⟩ := exists_parts hlong
    rw [check_append hfound htimestamp hkey] at h
    split at h
    · cases h
    · rename_i hsigned
      split at h
      · cases h
      · rename_i hnow
        have hdata : rest = data := Except.ok.inj h
        -- the second is read off its eight bytes, and these are what was signed
        have hbytes : timestampOf (Bytes.bigEndian timestamp) = timestamp := by
          rw [timestampOf, ← htimestamp]
          exact Bytes.ofBigEndian_bigEndian timestamp
        refine ⟨Bytes.bigEndian timestamp, ?_, by omega, sign_eq_ok_iff.2 ⟨key, hkey, ?_⟩⟩
        · have hlt := Bytes.bigEndian_lt timestamp
          rw [htimestamp] at hlt
          exact hlt
        · rw [hbytes, ← hdata, ← Decidable.of_not_not hsigned]
  · rintro ⟨expiration, hsize, hnow, hsign⟩
    obtain ⟨key, hkey, rfl⟩ := sign_eq_ok_iff.1 hsign
    rw [check_append (length_signature key _ data) (length_timestampOf expiration) hkey,
      bigEndian_timestampOf hsize, if_neg (fun h => h rfl), if_neg (by omega)]

/-- Signing adds the same number of bytes to all data. -/
theorem length_body {seed data body : Bytes} {publicId : String} {expiration : Nat}
    (h : sign seed publicId expiration data = .ok body) :
    body.length = signatureLength + timestampLength + data.length := by
  obtain ⟨key, -, rfl⟩ := sign_eq_ok_iff.1 h
  rw [List.length_append, List.length_append, length_signature, length_timestampOf]

end SignedBody
end IndexVault
