import Mathlib.Algebra.BigOperators.Ring.Finset
import Mathlib.Data.List.GetD
import Mathlib.Tactic.Ring
import IndexVault.Proofs.Wire.FieldSequences

/-! How every input is read as a number. The first byte that does not go on decides: the groups up to it
are summed (`groups_at_iff`), and an input without such a byte among its first ten overflows or ends too
early (`overflows_iff`, `endsEarly_iff`). In a word of 64 bits the groups are shifted to their places, and
none of their bits is lost there (`readWord_eq`). A number is spelled once in each number of groups that
holds it (`groups_iff_inGroups`). -/
namespace IndexVault.Wire

open Finset (range)

/-- The sum of some groups at the front of an input, each in its place. -/
def groupSum (input : Bytes) (count : Nat) : Nat :=
  ∑ i ∈ range count, (input.getD i 0).toNat % 128 * 2 ^ (7 * i)

theorem groupSum_cons (x : UInt8) (input : Bytes) (count : Nat) :
    groupSum (x :: input) (count + 1) = x.toNat % 128 + 128 * groupSum input count := by
  have hshift (i : Nat) : ((x :: input).getD (i + 1) 0).toNat % 128 * 2 ^ (7 * (i + 1)) =
      128 * ((input.getD i 0).toNat % 128 * 2 ^ (7 * i)) := by
    rw [List.getD_cons_succ, Nat.mul_succ, Nat.pow_add]
    ring
  calc groupSum (x :: input) (count + 1)
      = ∑ i ∈ range count, ((x :: input).getD (i + 1) 0).toNat % 128 * 2 ^ (7 * (i + 1)) +
          x.toNat % 128 := by
        rw [groupSum, Finset.sum_range_succ', List.getD_cons_zero, Nat.mul_zero, Nat.pow_zero,
          Nat.mul_one]
    _ = ∑ i ∈ range count, 128 * ((input.getD i 0).toNat % 128 * 2 ^ (7 * i)) + x.toNat % 128 := by
        rw [Finset.sum_congr rfl fun i _ => hshift i]
    _ = x.toNat % 128 + 128 * groupSum input count := by
        rw [← Finset.mul_sum, groupSum, Nat.add_comm]

/-- Whether a byte is the last one of a number. -/
def isLastGroup (x : UInt8) : Bool := x < 0x80

theorem isLastGroup_iff {x : UInt8} : isLastGroup x = true ↔ x.toNat < 128 := by
  rw [isLastGroup, decide_eq_true_eq, UInt8.lt_iff_toNat_lt]
  rfl

theorem isLastGroup_eq_false_iff {x : UInt8} : isLastGroup x = false ↔ 128 ≤ x.toNat := by
  rw [← Bool.not_eq_true, isLastGroup_iff, Nat.not_lt]

/-- The first byte that does not go on is where the number ends, and its groups are those up to there. -/
theorem groups_at_iff {input rest : Bytes} {n k : Nat} :
    (∃ b, input = b ++ rest ∧ Groups b n ∧ b.length = k + 1) ↔
      input.findIdx? isLastGroup = some k ∧ n = groupSum input (k + 1) ∧
        rest = input.drop (k + 1) := by
  induction input generalizing n k rest with
  | nil =>
    refine iff_of_false ?_ (by simp)
    rintro ⟨b, hb, hgroups, -⟩
    have hpos := hgroups.length_pos
    rw [(List.append_eq_nil_iff.1 hb.symm).1] at hpos
    exact Nat.lt_irrefl 0 hpos
  | cons x input ih =>
    by_cases hx : x.toNat < 128
    · -- The first byte is the last one.
      have hlast : isLastGroup x = true := isLastGroup_iff.2 hx
      have hsum : groupSum (x :: input) 1 = x.toNat := by
        rw [groupSum_cons, groupSum, Finset.range_zero, Finset.sum_empty]
        omega
      rw [List.findIdx?_cons, if_pos hlast]
      constructor
      · rintro ⟨b, hb, hgroups, hlength⟩
        cases hgroups with
        | last hy =>
          obtain ⟨rfl, rfl⟩ := List.cons.inj hb
          obtain rfl : k = 0 := (Nat.succ.inj hlength).symm
          exact ⟨rfl, hsum.symm, rfl⟩
        | more hy =>
          obtain rfl := (List.cons.inj hb).1
          omega
      · rintro ⟨hk, rfl, rfl⟩
        obtain rfl : 0 = k := Option.some.inj hk
        exact ⟨[x], rfl, by rw [hsum]; exact .last hx, rfl⟩
    · -- The byte goes on, so the number ends where that of the other bytes does.
      have hgoes : isLastGroup x = false := isLastGroup_eq_false_iff.2 (Nat.le_of_not_lt hx)
      rw [List.findIdx?_cons, hgoes, if_neg Bool.false_ne_true]
      constructor
      · rintro ⟨b, hb, hgroups, hlength⟩
        cases hgroups with
        | last hy =>
          obtain rfl := (List.cons.inj hb).1
          exact absurd hy hx
        | @more y b high hy hhigh =>
          obtain ⟨rfl, hinput⟩ := List.cons.inj hb
          have hpos := hhigh.length_pos
          obtain ⟨k, rfl⟩ : ∃ j, k = j + 1 := ⟨k - 1, by rw [List.length_cons] at hlength; omega⟩
          obtain ⟨hfind, rfl, rfl⟩ := ih.1 ⟨b, hinput, hhigh, Nat.succ.inj hlength⟩
          refine ⟨by rw [hfind]; rfl, (groupSum_cons x input (k + 1)).symm, rfl⟩
      · rintro ⟨hfind, rfl, rfl⟩
        obtain ⟨k, hk, rfl⟩ := Option.map_eq_some_iff.1 hfind
        obtain ⟨b, hb, hgroups, hlength⟩ := ih.2 ⟨hk, rfl, rfl⟩
        refine ⟨x :: b, ?_, ?_, congrArg (· + 1) hlength⟩
        · rw [List.drop_succ_cons, List.cons_append, ← hb]
        · rw [groupSum_cons]
          exact .more (Nat.le_of_not_lt hx) hgroups

/-- A number overflows where nine bytes go on and the tenth goes on too or has more than its lowest bit. -/
theorem overflows_iff {input left : Bytes} :
    readNumber.run input = (.error .integerOverflow, left) ↔
      10 ≤ input.length ∧ (∀ x ∈ input.take 9, 128 ≤ x.toNat) ∧
        (128 ≤ (input.getD 9 0).toNat ∨ 1 < (input.getD 9 0).toNat % 128) ∧
        left = input.drop 10 := by
  rw [follows_readNumber.error_iff]
  constructor
  · intro h
    cases h with
    | @overflow front left x hlength hfront hx =>
      have hnine : front.length = 9 := Nat.succ.inj hlength
      have htenth : (front ++ x :: left).getD 9 0 = x := by
        rw [List.getD_append_right _ _ _ _ (Nat.le_of_eq hnine), hnine]
        rfl
      refine ⟨?_, ?_, ?_, ?_⟩
      · rw [List.length_append, List.length_cons, hnine]
        omega
      · rwa [List.take_left' hnine]
      · rw [htenth]
        omega
      · have hten : (front ++ [x]).length = 10 := by
          rw [List.length_append, hnine]
          rfl
        rw [List.append_cons, List.drop_left' hten]
  · rintro ⟨hlong, hfront, htenth, rfl⟩
    have hlt : 9 < input.length := hlong
    -- the fault is at the tenth byte, with nine before it that go on
    have hsplit : input = input.take 9 ++ input[9] :: input.drop 10 := by
      rw [← List.drop_eq_getElem_cons hlt, List.take_append_drop]
    have hx : 1 < input[9].toNat := by
      rw [List.getD_eq_getElem _ _ hlt] at htenth
      omega
    have hnine : (input.take 9).length + 1 = maxGroups := by
      rw [List.length_take_of_le (Nat.le_of_lt hlt)]
      rfl
    have hfails : GroupsFail maxGroups (input.take 9 ++ input[9] :: input.drop 10) .integerOverflow
        (input.drop 10) := .overflow _ hnine hfront hx
    rw [← hsplit] at hfails
    exact hfails

/-- A number ends too early where fewer than ten bytes are left and all of them go on. -/
theorem endsEarly_iff {input left : Bytes} {needed remaining : Nat} :
    readNumber.run input = (.error (.unexpectedEnd needed remaining), left) ↔
      (needed = 1 ∧ remaining = 0) ∧ input.length < 10 ∧ (∀ x ∈ input, 128 ≤ x.toNat) ∧
        left = [] := by
  rw [follows_readNumber.error_iff]
  constructor
  · intro h
    cases h with
    | ends hlength hinput => exact ⟨⟨rfl, rfl⟩, hlength, hinput, rfl⟩
  · rintro ⟨⟨rfl, rfl⟩, hlength, hinput, rfl⟩
    exact .ends hlength hinput

/-- A number that is refused overflows or ends too early. -/
theorem refused_cases {input left : Bytes} {e : PayloadError}
    (h : readNumber.run input = (.error e, left)) :
    e = .integerOverflow ∨ e = .unexpectedEnd 1 0 := by
  cases follows_readNumber.error_iff.1 h with
  | overflow => exact Or.inl rfl
  | ends => exact Or.inr rfl

/-- Reads a number into a word of 64 bits, which holds the groups that were read before: each group is
shifted to its place in the word. -/
def readWord : Nat → UInt64 → Bytes → Except PayloadError UInt64 × Bytes
  | 0, _, input => (.error .integerOverflow, input)
  | _ + 1, _, [] => (.error (.unexpectedEnd 1 0), [])
  | groups + 1, word, x :: rest =>
    let low : UInt64 := (x &&& 0x7f).toUInt64
    -- The last byte may carry only the top bit.
    if groups = 0 ∧ 1 < low then (.error .integerOverflow, rest)
    else
      let word := word ||| low <<< UInt64.ofNat (7 * (maxGroups - (groups + 1)))
      if x &&& 0x80 = 0 then (.ok word, rest) else readWord groups word rest

theorem toNat_lowBits (x : UInt8) : (x &&& 0x7f).toUInt64.toNat = x.toNat % 128 := by
  rw [UInt8.toNat_toUInt64, UInt8.toNat_and]
  exact Nat.and_two_pow_sub_one_eq_mod x.toNat 7

theorem highBit_eq_zero_iff (x : UInt8) : x &&& 0x80 = 0 ↔ x.toNat < 128 := by
  have table : ∀ m : Fin 256, UInt8.ofNat m.val &&& 0x80 = 0 ↔ m.val < 128 := by decide +kernel
  have hx := table ⟨x.toNat, x.toNat_lt⟩
  rwa [UInt8.ofNat_toNat] at hx

/-- A group that fits into the word at its place is added to the groups below it. -/
theorem toNat_or_shiftLeft {word : UInt64} (low : UInt64) {place : Nat} (hplace : place < 64)
    (hword : word.toNat < 2 ^ place) (hfits : low.toNat * 2 ^ place < 2 ^ 64) :
    (word ||| low <<< UInt64.ofNat place).toNat = word.toNat + 2 ^ place * low.toNat := by
  have hshift : (UInt64.ofNat place).toNat % 64 = place := by
    rw [UInt64.toNat_ofNat']
    omega
  have hkept : (low <<< UInt64.ofNat place).toNat = 2 ^ place * low.toNat := by
    rw [UInt64.toNat_shiftLeft, hshift, Nat.shiftLeft_eq, Nat.mod_eq_of_lt hfits, Nat.mul_comm]
  rw [UInt64.toNat_or, hkept, Nat.or_comm, ← Nat.two_pow_add_eq_or_of_lt hword, Nat.add_comm]

/-- What was read into a word, as a number. -/
def unpacked (answer : Except PayloadError UInt64 × Bytes) : Except PayloadError Nat × Bytes :=
  (answer.1.map UInt64.toNat, answer.2)

/-- A group at its place stays below the top of the word, the last one since it carries one bit only. -/
theorem group_fits {groups low : Nat} (hgroups : groups < maxGroups) (hlow : low < 128)
    (hbit : ¬(groups = 0 ∧ 1 < low)) : low * 2 ^ (7 * (maxGroups - (groups + 1))) < 2 ^ 64 := by
  have hten : maxGroups = 10 := rfl
  by_cases hlast : groups = 0
  · subst hlast
    have hone : low ≤ 1 := Nat.le_of_not_lt fun h => hbit ⟨rfl, h⟩
    calc low * 2 ^ (7 * (maxGroups - (0 + 1))) ≤ 1 * 2 ^ (7 * (maxGroups - (0 + 1))) :=
          Nat.mul_le_mul_right _ hone
      _ < 2 ^ 64 := by decide
  · have hpow : (128 : Nat) * 2 ^ (7 * (maxGroups - (groups + 1))) =
        2 ^ (7 + 7 * (maxGroups - (groups + 1))) := (Nat.pow_add 2 7 _).symm
    calc low * 2 ^ (7 * (maxGroups - (groups + 1)))
        < 128 * 2 ^ (7 * (maxGroups - (groups + 1))) :=
          Nat.mul_lt_mul_of_pos_right hlow (Nat.two_pow_pos _)
      _ = 2 ^ (7 + 7 * (maxGroups - (groups + 1))) := hpow
      _ ≤ 2 ^ 64 := Nat.pow_le_pow_right (by decide) (by omega)

/-- The word gets the number of the groups that were still to be read, above what it held. -/
theorem readWord_eq {groups : Nat} (hgroups : groups ≤ maxGroups) {word : UInt64}
    (hword : word.toNat < 2 ^ (7 * (maxGroups - groups))) (input : Bytes) :
    unpacked (readWord groups word input) =
      ((readGroups groups input).1.map (word.toNat + 2 ^ (7 * (maxGroups - groups)) * ·),
        (readGroups groups input).2) := by
  induction groups generalizing word input with
  | zero => rfl
  | succ groups ih =>
    cases input with
    | nil => rfl
    | cons x rest =>
      have hlow : (x &&& 0x7f).toUInt64.toNat = x.toNat % 128 := toNat_lowBits x
      have hbits : 1 < (x &&& 0x7f).toUInt64 ↔ 1 < x.toNat % 128 := by
        rw [UInt64.lt_iff_toNat_lt, hlow]
        rfl
      rw [readWord, readGroups]
      simp only [hbits, highBit_eq_zero_iff]
      split
      · rfl
      · rename_i hbit
        have hfits := group_fits hgroups (Nat.mod_lt x.toNat (by decide)) hbit
        have hten : maxGroups = 10 := rfl
        have hadded := toNat_or_shiftLeft (x &&& 0x7f).toUInt64 (by omega) hword (by rwa [hlow])
        rw [hlow] at hadded
        split
        · rename_i hx
          simp only [unpacked, Except.map, hadded, Nat.mod_eq_of_lt hx]
        · -- One more group is below the next place, which is seven bits higher.
          have hplace : 7 * (maxGroups - groups) = 7 * (maxGroups - (groups + 1)) + 7 := by omega
          have hnext : 2 ^ (7 * (maxGroups - groups)) =
              2 ^ (7 * (maxGroups - (groups + 1))) * 128 := by
            rw [hplace, Nat.pow_add]
          have hmod : x.toNat % 128 + 1 ≤ 128 := Nat.mod_lt x.toNat (by decide)
          have hbelow : word.toNat + 2 ^ (7 * (maxGroups - (groups + 1))) * (x.toNat % 128) <
              2 ^ (7 * (maxGroups - groups)) := by
            calc word.toNat + 2 ^ (7 * (maxGroups - (groups + 1))) * (x.toNat % 128)
                < 2 ^ (7 * (maxGroups - (groups + 1))) +
                    2 ^ (7 * (maxGroups - (groups + 1))) * (x.toNat % 128) :=
                  Nat.add_lt_add_right hword _
              _ = 2 ^ (7 * (maxGroups - (groups + 1))) * (x.toNat % 128 + 1) := by
                  rw [Nat.mul_succ, Nat.add_comm]
              _ ≤ 2 ^ (7 * (maxGroups - groups)) := by
                  rw [hnext]
                  exact Nat.mul_le_mul_left _ hmod
          rw [← hadded] at hbelow
          rw [ih (Nat.le_of_lt hgroups) hbelow, hadded, hnext]
          rcases readGroups groups rest with ⟨e | high, later⟩
          · rfl
          · simp only [Except.map]
            congr 2
            ring

/-- A number in groups of seven bits, of which `more` follow the first one. -/
def inGroups : Nat → Nat → Bytes
  | 0, n => [UInt8.ofNat n]
  | more + 1, n => UInt8.ofNat (n % 128 + 128) :: inGroups more (n / 128)

theorem length_inGroups (more n : Nat) : (inGroups more n).length = more + 1 := by
  induction more generalizing n with
  | zero => rfl
  | succ more ih => rw [inGroups, List.length_cons, ih]

/-- A number is spelled in any number of groups that holds it. -/
theorem groups_inGroups {more n : Nat} (h : n < 128 ^ (more + 1)) : Groups (inGroups more n) n := by
  -- on the groups that follow the first, which spell the number without its low bits
  induction more generalizing n with
  | zero =>
    have hn : n < 128 := h
    have hbyte : (UInt8.ofNat n).toNat = n := by
      rw [UInt8.toNat_ofNat']
      omega
    have hlast : Groups [UInt8.ofNat n] (UInt8.ofNat n).toNat := .last (by omega)
    rwa [hbyte] at hlast
  | succ more ih =>
    have hbyte : (UInt8.ofNat (n % 128 + 128)).toNat = n % 128 + 128 := by
      rw [UInt8.toNat_ofNat']
      omega
    have hhigh : n / 128 < 128 ^ (more + 1) := by
      rw [Nat.pow_succ] at h
      exact Nat.div_lt_of_lt_mul (by rwa [Nat.mul_comm])
    have hmore := Groups.more (x := UInt8.ofNat (n % 128 + 128)) (by omega) (ih hhigh)
    have hvalue : (UInt8.ofNat (n % 128 + 128)).toNat % 128 + 128 * (n / 128) = n := by omega
    rwa [hvalue] at hmore

/-- A number is spelled in only one way in each number of groups. -/
theorem eq_inGroups_of_groups {b : Bytes} {n : Nat} (h : Groups b n) :
    b = inGroups (b.length - 1) n := by
  induction h with
  | @last x hx =>
    rw [List.length_singleton, inGroups, UInt8.ofNat_toNat]
  | @more x b n hx hb ih =>
    have hpos := hb.length_pos
    obtain ⟨more, hmore⟩ : ∃ more, b.length = more + 1 := ⟨b.length - 1, by omega⟩
    have hbyte : UInt8.ofNat ((x.toNat % 128 + 128 * n) % 128 + 128) = x := by
      have hlow : (x.toNat % 128 + 128 * n) % 128 + 128 = x.toNat := by
        have := x.toNat_lt
        omega
      rw [hlow, UInt8.ofNat_toNat]
    have hhigh : (x.toNat % 128 + 128 * n) / 128 = n := by omega
    rw [hmore, Nat.add_sub_cancel] at ih
    rw [List.length_cons, Nat.add_sub_cancel, hmore, inGroups, hbyte, hhigh, ← ih]

/-- A number is spelled once in each number of groups, from as many on as it takes when it is written. -/
theorem groups_iff_inGroups {b : Bytes} {n : Nat} :
    Groups b n ↔ ∃ more, (leb128 n).length ≤ more + 1 ∧ b = inGroups more n := by
  constructor
  · intro h
    refine ⟨b.length - 1, ?_, eq_inGroups_of_groups h⟩
    have hleast := length_leb128_le_of_groups h
    omega
  · rintro ⟨more, hleast, rfl⟩
    apply groups_inGroups
    calc n < 128 ^ (leb128 n).length := (groups_leb128 n).lt_pow
      _ ≤ 128 ^ (more + 1) := Nat.pow_le_pow_right (by decide) hleast

/-- A number is read where at most ten groups spell it and it is below `2 ^ 64`. -/
theorem readNumber_eq_ok_iff {input rest : Bytes} {n : Nat} :
    readNumber.run input = (.ok n, rest) ↔
      ∃ b, input = b ++ rest ∧ Groups b n ∧ b.length ≤ 10 ∧ n < 2 ^ 64 :=
  follows_readNumber.ok_iff

/-- A number is read where one of the first ten bytes does not go on, as the sum of the groups up to it. -/
theorem readNumber_eq_ok_iff_groupSum {input rest : Bytes} {n : Nat} :
    readNumber.run input = (.ok n, rest) ↔
      ∃ k, input.findIdx? isLastGroup = some k ∧ k ≤ 9 ∧ n = groupSum input (k + 1) ∧
        n < 2 ^ 64 ∧ rest = input.drop (k + 1) := by
  rw [readNumber_eq_ok_iff]
  constructor
  · rintro ⟨b, hinput, hgroups, hlength, hn⟩
    have hpos := hgroups.length_pos
    obtain ⟨k, hk⟩ : ∃ k, b.length = k + 1 := ⟨b.length - 1, by omega⟩
    obtain ⟨hfind, hsum, hrest⟩ := groups_at_iff.1 ⟨b, hinput, hgroups, hk⟩
    exact ⟨k, hfind, by omega, hsum, hn, hrest⟩
  · rintro ⟨k, hfind, hk, hsum, hn, hrest⟩
    obtain ⟨b, hinput, hgroups, hlength⟩ := groups_at_iff.2 ⟨hfind, hsum, hrest⟩
    exact ⟨b, hinput, hgroups, by omega, hn⟩

/-- A number is read in any number of groups up to ten that holds it. -/
theorem readNumber_eq_ok_iff_inGroups {input rest : Bytes} {n : Nat} :
    readNumber.run input = (.ok n, rest) ↔
      n < 2 ^ 64 ∧ ∃ more ≤ 9, (leb128 n).length ≤ more + 1 ∧ input = inGroups more n ++ rest := by
  rw [readNumber_eq_ok_iff]
  constructor
  · rintro ⟨b, hinput, hgroups, hlength, hn⟩
    obtain ⟨more, hleast, rfl⟩ := groups_iff_inGroups.1 hgroups
    rw [length_inGroups] at hlength
    exact ⟨hn, more, by omega, hleast, hinput⟩
  · rintro ⟨hn, more, hmore, hleast, hinput⟩
    refine ⟨inGroups more n, hinput, groups_iff_inGroups.2 ⟨more, hleast, rfl⟩, ?_, hn⟩
    rw [length_inGroups]
    omega

/-- From an empty word on, a word gets the number itself. -/
theorem readWord_eq_readNumber (input : Bytes) :
    unpacked (readWord maxGroups 0 input) = readNumber.run input := by
  have hread := @readWord_eq maxGroups (Nat.le_refl maxGroups) 0 (by decide) input
  have hsame : (fun n : Nat => (0 : UInt64).toNat + 2 ^ (7 * (maxGroups - maxGroups)) * n) = id := by
    funext n
    rw [Nat.sub_self, Nat.mul_zero, Nat.pow_zero, Nat.one_mul, UInt64.toNat_zero, Nat.zero_add, id]
  rw [hsame, Except.map_id] at hread
  exact hread

/-- Every input is read as one of three things. It begins with a number when the first byte that does not
go on is among the first ten and the groups up to there sum up to 64 bits at most; a word of 64 bits gets
just that sum. It overflows when nine bytes go on and the tenth does too, or carries more than the top bit,
and it ends too early when all of its bytes go on and there are fewer than ten. The bytes of a number that
is read are its groups in any number of them that holds it, up to ten, of which it is written in the fewest:
zeros behind the highest group change nothing. -/
theorem number_reading_exact (input : Bytes) :
    (∀ n rest, readNumber.run input = (.ok n, rest) ↔
      ∃ k, input.findIdx? isLastGroup = some k ∧ k ≤ 9 ∧
        n = ∑ i ∈ range (k + 1), (input.getD i 0).toNat % 128 * 2 ^ (7 * i) ∧ n < 2 ^ 64 ∧
        rest = input.drop (k + 1)) ∧
    unpacked (readWord 10 0 input) = readNumber.run input ∧
    (∀ left, readNumber.run input = (.error .integerOverflow, left) ↔
      10 ≤ input.length ∧ (∀ x ∈ input.take 9, 128 ≤ x.toNat) ∧
        (128 ≤ (input.getD 9 0).toNat ∨ 1 < (input.getD 9 0).toNat % 128) ∧
        left = input.drop 10) ∧
    (∀ left, readNumber.run input = (.error (.unexpectedEnd 1 0), left) ↔
      input.length < 10 ∧ (∀ x ∈ input, 128 ≤ x.toNat) ∧ left = []) ∧
    (∀ e left, readNumber.run input = (.error e, left) →
      e = .integerOverflow ∨ e = .unexpectedEnd 1 0) ∧
    (∀ n rest, readNumber.run input = (.ok n, rest) ↔
      n < 2 ^ 64 ∧ ∃ more ≤ 9, (leb128 n).length ≤ more + 1 ∧ input = inGroups more n ++ rest) ∧
    (∀ n < 2 ^ 64, leb128 n = inGroups ((leb128 n).length - 1) n ∧
      readNumber.run (leb128 n ++ input) = (.ok n, input)) := by
  refine ⟨fun n rest => readNumber_eq_ok_iff_groupSum, readWord_eq_readNumber input,
    fun left => overflows_iff, ?ends, fun e left => refused_cases,
    fun n rest => readNumber_eq_ok_iff_inGroups, ?written⟩
  case ends =>
    intro left
    rw [endsEarly_iff]
    exact and_iff_right ⟨rfl, rfl⟩
  case written =>
    intro n hn
    exact ⟨eq_inGroups_of_groups (groups_leb128 n), readLeb128_leb128 hn input⟩

/-- The tenth byte may carry the top bit and nothing else, and what follows it is not looked at. -/
example : readNumber.run (List.replicate 9 0x80 ++ [2, 7]) = (.error .integerOverflow, [7]) := by
  decide

end IndexVault.Wire
