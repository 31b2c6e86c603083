import IndexVault.Proofs.Wire.Forms

namespace IndexVault.Wire

/-- A number is spelled by its groups. -/
theorem groups_leb128 (n : Nat) : Groups (leb128 n) n := by
  induction n using Nat.strongRecOn with
  | ind n ih =>
    rw [leb128]
    split
    · have hbyte : (UInt8.ofNat n).toNat = n := by
        rw [UInt8.toNat_ofNat']
        omega
      have hlast : Groups [UInt8.ofNat n] (UInt8.ofNat n).toNat := .last (by omega)
      rwa [hbyte] at hlast
    · have hbyte : (UInt8.ofNat (n % 128 + 128)).toNat = n % 128 + 128 := by
        rw [UInt8.toNat_ofNat']
        omega
      have hmore := Groups.more (x := UInt8.ofNat (n % 128 + 128)) (by omega)
        (ih (n / 128) (by omega))
      have hvalue : (UInt8.ofNat (n % 128 + 128)).toNat % 128 + 128 * (n / 128) = n := by omega
      rwa [hvalue] at hmore

/-- Groups spell no number that is too large for their bits. -/
theorem Groups.lt_pow {b : Bytes} {n : Nat} (h : Groups b n) : n < 128 ^ b.length := by
  induction h with
  | last hx => simpa using hx
  | more hx hb ih =>
    rw [List.length_cons, Nat.pow_succ]
    omega

theorem length_leb128_le {k n : Nat} (h : n < 128 ^ (k + 1)) : (leb128 n).length ≤ k + 1 := by
  induction k generalizing n with
  | zero =>
    rw [leb128, if_pos (by simpa using h)]
    simp
  | succ k ih =>
    rw [leb128]
    split
    · simp
    · have hhigh : n / 128 < 128 ^ (k + 1) := by
        rw [Nat.pow_succ] at h
        omega
      exact Nat.succ_le_succ (ih hhigh)

/-- Nothing shorter than what is written spells the number. -/
theorem length_leb128_le_of_groups {b : Bytes} {n : Nat} (h : Groups b n) :
    (leb128 n).length ≤ b.length := by
  have hlt := h.lt_pow
  obtain ⟨k, hk⟩ : ∃ k, b.length = k + 1 := ⟨b.length - 1, by have := h.length_pos; omega⟩
  rw [hk] at hlt ⊢
  exact length_leb128_le hlt

/-- The numbers of a field are of 64 bits. -/
def Field.Fits : Field → Prop
  | number n => n < UInt64.size
  | raw _ => True
  | blob b => b.length < UInt64.size

/-- A field is read back, and what is behind it is left. -/
theorem run_read_append {f : Field} (h : f.Fits) (rest : Bytes) :
    f.shape.read.run (f.write ++ rest) = (.ok f, rest) := by
  cases f with
  | number n =>
    have hread : readNumber.run (leb128 n ++ rest) = (.ok n, rest) := readLeb128_leb128 h rest
    exact Attempt.run_bind_of_ok hread
  | raw b => exact Attempt.run_bind_of_ok (run_readRaw_append b rest)
  | blob b => exact Attempt.run_bind_of_ok (run_readBlob_append h rest)

theorem writeFields_cons (f : Field) (later : List Field) :
    writeFields (f :: later) = f.write ++ writeFields later := rfl

/-- Reads of some shapes, one after the other. -/
def readFields : List FieldShape → Read (List Field)
  | [] => pure []
  | shape :: later => do
    let f ← shape.read
    let fields ← readFields later
    pure (f :: fields)

/-- Fields are read back in their order, and what is behind them is left. -/
theorem run_readFields_append {fields : List Field} (h : ∀ f ∈ fields, f.Fits) (rest : Bytes) :
    (readFields (fields.map Field.shape)).run (writeFields fields ++ rest) = (.ok fields, rest) := by
  induction fields with
  | nil => rfl
  | cons f later ih =>
    obtain ⟨hf, hlater⟩ := List.forall_mem_cons.1 h
    rw [List.map_cons, readFields, writeFields_cons, List.append_assoc,
      Attempt.run_bind_of_ok (run_read_append hf _), Attempt.run_bind_of_ok (ih hlater)]
    rfl

/-- Fields whose numbers are of 64 bits are read back in their order, whatever follows them. Behind the
first of them stand the bytes of the later ones and what follows, and in the end only that is left, which
is what the reader complains of, if it is anything. Every number of 64 bits is written in at most ten
groups, and in no more than any bytes that spell it. -/
theorem fields_read_back {fields : List Field} (hfits : ∀ f ∈ fields, f.Fits) (rest : Bytes) :
    (∀ first later, fields = first ++ later →
      (readFields (first.map Field.shape)).run (writeFields fields ++ rest) =
        (.ok first, writeFields later ++ rest)) ∧
    (∃ left, (readFields (fields.map Field.shape)).run (writeFields fields ++ rest) =
        (.ok fields, left) ∧
      finish left = if rest = [] then .ok () else .error (.trailingBytes rest.length)) ∧
    ∀ n < UInt64.size, Groups (leb128 n) n ∧ (leb128 n).length ≤ 10 ∧
      ∀ b, Groups b n → (leb128 n).length ≤ b.length := by
  refine ⟨?parts, ⟨rest, run_readFields_append hfits rest, ?finished⟩, ?numbers⟩
  case parts =>
    rintro first later rfl
    have hfirst : ∀ f ∈ first, f.Fits := fun f hf => hfits f (List.mem_append_left _ hf)
    rw [writeFields, List.flatMap_append, List.append_assoc]
    exact run_readFields_append hfirst _
  case finished =>
    cases rest <;> rfl
  case numbers =>
    intro n hn
    have hten : n < 128 ^ (9 + 1) := Nat.lt_of_lt_of_le hn (by decide)
    exact ⟨groups_leb128 n, length_leb128_le hten, fun b hb => length_leb128_le_of_groups hb⟩

/-- The largest number of 64 bits, three raw bytes and an empty byte string, with a byte behind them. -/
theorem fields_read_back_threeShapes :
    (∀ f ∈ [Field.number 18446744073709551615, .raw [1, 2, 3], .blob []], f.Fits) ∧
      (readFields [.number]).run
          (writeFields [.number 18446744073709551615, .raw [1, 2, 3], .blob []] ++ [9]) =
        (.ok [.number 18446744073709551615], [1, 2, 3, 0, 9]) ∧
      ∃ left, (readFields [.number, .raw 3, .blob]).run
          (writeFields [.number 18446744073709551615, .raw [1, 2, 3], .blob []] ++ [9]) =
          (.ok [.number 18446744073709551615, .raw [1, 2, 3], .blob []], left) ∧
        finish left = .error (.trailingBytes 1) := by
  have hfits : ∀ f ∈ [Field.number 18446744073709551615, .raw [1, 2, 3], .blob []], f.Fits := by
    simp [Field.Fits, UInt64.size]
  obtain ⟨hparts, hfinished, -⟩ := fields_read_back hfits [9]
  refine ⟨hfits, ?_, hfinished⟩
  have hempty : writeFields [.blob []] = [0] := by
    simp [writeFields, Field.write, blob, leb128]
  have hfirst := hparts [.number 18446744073709551615] [.raw [1, 2, 3], .blob []] rfl
  rwa [writeFields_cons (.raw _), hempty] at hfirst

end IndexVault.Wire
