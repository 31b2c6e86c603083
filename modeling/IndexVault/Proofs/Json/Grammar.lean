import Mathlib.Data.List.Forall2
import IndexVault.Proofs.Json.JoinedTexts
import IndexVault.Proofs.Json.WrittenRecords
import IndexVault.Proofs.Json.WrittenTexts

/-! The grammar of JSON texts, and that its readers take whatever it allows. A string may spell each of its
characters in several ways, of which the reader finds the character (`readQuoted_of_spells`); a value of any
kind and depth is read to its end (`reads_of_isValue`), so it can be passed over wherever it stands. -/
namespace IndexVault.Json

/-- Blanks between the tokens of a text. -/
def AreBlanks (b : Bytes) : Prop := b.all isBlank = true

def SpellsHexDigit (b : UInt8) (n : Nat) : Prop :=
  b.toNat = 0x30 + n ∧ n < 10 ∨ (b.toNat = 0x37 + n ∨ b.toNat = 0x57 + n) ∧ 10 ≤ n ∧ n < 16

/-- An escape that names a UTF-16 unit by four digits. -/
inductive UnitEscape : Bytes → Nat → Prop
  | digits {a b c d : UInt8} {w x y z : Nat} (ha : SpellsHexDigit a w) (hb : SpellsHexDigit b x)
    (hc : SpellsHexDigit c y) (hd : SpellsHexDigit d z) :
    UnitEscape [0x5c, 0x75, a, b, c, d] (((w * 16 + x) * 16 + y) * 16 + z)

/-- The marks of the short escapes, each with the code of the character that it stands for. -/
def shortEscapes : List (UInt8 × Nat) :=
  [(0x22, 0x22), (0x5c, 0x5c), (0x2f, 0x2f), (0x62, 0x08), (0x66, 0x0c), (0x6e, 0x0a), (0x72, 0x0d),
    (0x74, 0x09)]

/-- What stands between the quotes of a string, with the characters it spells. A character stands for
itself, or is named by a short escape, by its one UTF-16 unit or by the two of them. -/
inductive SpellsChars : Bytes → List Char → Prop
  | nil : SpellsChars [] []
  | plain {c : Char} {body : Bytes} {cs : List Char} (hlow : 0x20 ≤ c.toNat) (hquote : c.toNat ≠ 0x22)
    (hescape : c.toNat ≠ 0x5c) (hrest : SpellsChars body cs) :
    SpellsChars (String.utf8EncodeChar c ++ body) (c :: cs)
  | short {mark : UInt8} {c : Char} {body : Bytes} {cs : List Char}
    (hmark : (mark, c.toNat) ∈ shortEscapes) (hrest : SpellsChars body cs) :
    SpellsChars (0x5c :: mark :: body) (c :: cs)
  | unit {escape body : Bytes} {c : Char} {cs : List Char} (hunit : UnitEscape escape c.toNat)
    (hrest : SpellsChars body cs) : SpellsChars (escape ++ body) (c :: cs)
  | pair {first second body : Bytes} {c : Char} {cs : List Char} {u v : Nat}
    (hfirst : UnitEscape first u) (hsecond : UnitEscape second v) (hu : 0xd800 ≤ u ∧ u < 0xdc00)
    (hv : 0xdc00 ≤ v ∧ v < 0xe000) (hc : c.toNat = 0x10000 + (u - 0xd800) * 0x400 + (v - 0xdc00))
    (hrest : SpellsChars body cs) : SpellsChars (first ++ (second ++ body)) (c :: cs)

/-- A string that spells a text. -/
def SpellsString (b : Bytes) (s : String) : Prop :=
  ∃ body, b = 0x22 :: (body ++ [0x22]) ∧ SpellsChars body s.toList

/-- Whether a character can stand for itself in a string. -/
def isPlain (c : Char) : Bool := 0x20 ≤ c.toNat && c.toNat != 0x22 && c.toNat != 0x5c

/-- Characters that need no escape spell themselves. -/
theorem spellsString_of_plain {s : String} (h : s.toList.all isPlain = true) :
    SpellsString (0x22 :: (Bytes.ofText s ++ [0x22])) s := by
  have hchars (cs : List Char) (hcs : cs.all isPlain = true) :
      SpellsChars (cs.flatMap String.utf8EncodeChar) cs := by
    induction cs with
    | nil => exact .nil
    | cons c cs ih =>
      rw [List.all_cons, Bool.and_eq_true] at hcs
      obtain ⟨hc, hcs⟩ := hcs
      simp only [isPlain, Bool.and_eq_true, decide_eq_true_eq, bne_iff_ne] at hc
      exact .plain hc.1.1 hc.1.2 hc.2 (ih hcs)
  refine ⟨_, rfl, ?_⟩
  rw [Bytes.ofText_eq_flatMap]
  exact hchars s.toList h

/-- What stands between the quotes of any string: its units, which need not spell a text, since a part of a
pair may stand alone. -/
inductive SpellsUnits : Bytes → List StringUnit → Prop
  | nil : SpellsUnits [] []
  | plain {b : UInt8} {body : Bytes} {units : List StringUnit} (hlow : 0x20 ≤ b) (hquote : b ≠ 0x22)
    (hescape : b ≠ 0x5c) (hrest : SpellsUnits body units) : SpellsUnits (b :: body) (.byte b :: units)
  | short {mark : UInt8} {n : Nat} {body : Bytes} {units : List StringUnit}
    (hmark : (mark, n) ∈ shortEscapes) (hrest : SpellsUnits body units) :
    SpellsUnits (0x5c :: mark :: body) (.byte (UInt8.ofNat n) :: units)
  | unit {escape body : Bytes} {u : Nat} {units : List StringUnit} (hunit : UnitEscape escape u)
    (hrest : SpellsUnits body units) : SpellsUnits (escape ++ body) (.code u :: units)

/-- A string with its units, whether they spell a text or not. -/
def SpellsUnitString (b : Bytes) (units : List StringUnit) : Prop :=
  ∃ body, b = 0x22 :: (body ++ [0x22]) ∧ SpellsUnits body units

theorem hexValue?_of_spells {b : UInt8} {n : Nat} (h : SpellsHexDigit b n) :
    Text.hexValue? b = some n := by
  unfold Text.hexValue?
  rcases h with ⟨hb, hn⟩ | ⟨hb | hb, hn⟩
  · rw [if_pos (by omega)]
    congr 1
    omega
  · rw [if_neg (by omega), if_pos (by omega)]
    congr 1
    omega
  · rw [if_neg (by omega), if_neg (by omega), if_pos (by omega)]
    congr 1
    omega

theorem shortEscape?_of_mem {mark : UInt8} {n : Nat} (h : (mark, n) ∈ shortEscapes) :
    shortEscape? mark = some (UInt8.ofNat n) ∧ mark ≠ 0x75 := by
  have table : ∀ e ∈ shortEscapes, shortEscape? e.1 = some (UInt8.ofNat e.2) ∧ e.1 ≠ 0x75 := by decide
  exact table _ h

/-- An escape with four hexadecimal digits is one unit. -/
theorem stringUnits_unitEscape {escape : Bytes} {u : Nat} (h : UnitEscape escape u) (rest : Bytes) :
    stringUnits (escape ++ rest) = withUnit (.code u) (stringUnits rest) := by
  obtain ⟨ha, hb, hc, hd⟩ := h
  rename_i a b c d w x y z
  have hunit : hexUnit? a b c d = some (((w * 16 + x) * 16 + y) * 16 + z) := by
    simp only [hexUnit?, hexValue?_of_spells ha, hexValue?_of_spells hb, hexValue?_of_spells hc,
      hexValue?_of_spells hd]
    rfl
  rw [List.cons_append, List.cons_append, List.cons_append, List.cons_append, List.cons_append,
    List.singleton_append, stringUnits, hunit]

/-- A string is read up to its closing quote. -/
theorem stringUnits_of_spells {body : Bytes} {units : List StringUnit} (h : SpellsUnits body units)
    (rest : Bytes) : stringUnits (body ++ 0x22 :: rest) = some (units, rest) := by
  -- on the units, which the reader takes one by one up to the closing quote
  induction h with
  | nil => rfl
  | @plain b body units hlow hquote hescape hrest ih =>
    have hplain : (decide (b < 0x20) || b == 0x5c) = false := by
      rw [Bool.or_eq_false_iff, decide_eq_false_iff_not, beq_eq_false_iff_ne]
      exact ⟨UInt8.not_lt.2 hlow, hescape⟩
    rw [List.cons_append, stringUnits_cons hescape, if_neg (by simpa using hquote), hplain,
      if_neg Bool.false_ne_true, ih]
    rfl
  | @short mark n body units hmark hrest ih =>
    obtain ⟨hshort, hne⟩ := shortEscape?_of_mem hmark
    rw [List.cons_append, List.cons_append,
      stringUnits.eq_3 _ _ fun _ _ _ _ _ heq => absurd heq hne, hshort]
    simp only [ih]
    rfl
  | unit hunit hrest ih =>
    rw [List.append_assoc, stringUnits_unitEscape hunit, ih]
    rfl

/-- Bytes that need no escape are units of their own. -/
theorem SpellsUnits.append_plain {bytes body : Bytes} {units : List StringUnit}
    (h : ∀ b ∈ bytes, 0x20 ≤ b ∧ b ≠ 0x22 ∧ b ≠ 0x5c) (hrest : SpellsUnits body units) :
    SpellsUnits (bytes ++ body) (bytes.map .byte ++ units) := by
  induction bytes with
  | nil => exact hrest
  | cons b bytes ih =>
    obtain ⟨hlow, hquote, hescape⟩ := h b List.mem_cons_self
    exact .plain hlow hquote hescape (ih fun b hb => h b (List.mem_cons_of_mem _ hb))

theorem unitBytes?_append_plain (bytes : Bytes) (units : List StringUnit) :
    unitBytes? (bytes.map .byte ++ units) = (unitBytes? units).map (bytes ++ ·) := by
  induction bytes with
  | nil => simp
  | cons b bytes ih =>
    rw [List.map_cons, List.cons_append, unitBytes?, ih, Option.map_map]
    rfl

/-- The bytes of a character that stands for itself do so too. -/
theorem plain_of_mem_utf8EncodeChar {c : Char} (hlow : 0x20 ≤ c.toNat) (hquote : c.toNat ≠ 0x22)
    (hescape : c.toNat ≠ 0x5c) :
    ∀ b ∈ String.utf8EncodeChar c, 0x20 ≤ b ∧ b ≠ 0x22 ∧ b ≠ 0x5c := by
  intro b hb
  -- bytes of longer encodings are above all ASCII ones; an ASCII character is its byte
  by_cases hc : 0x80 ≤ c.toNat
  · have hbyte : 0x80 ≤ b.toNat := UInt8.le_iff_toNat_le.1 (Bytes.le_of_mem_utf8EncodeChar hc hb)
    refine ⟨UInt8.le_iff_toNat_le.2 (Nat.le_trans (by decide) hbyte), ?_, ?_⟩
    · rintro rfl
      exact absurd hbyte (by decide)
    · rintro rfl
      exact absurd hbyte (by decide)
  · rw [Bytes.utf8EncodeChar_of_toNat_lt (Nat.lt_of_not_le hc), List.mem_singleton] at hb
    have hbyte : b.toNat = c.toNat := by
      rw [hb, UInt8.toNat_ofNat']
      omega
    refine ⟨UInt8.le_iff_toNat_le.2 (by rw [hbyte]; exact hlow), ?_, ?_⟩
    · rintro rfl
      exact hquote hbyte.symm
    · rintro rfl
      exact hescape hbyte.symm

/-- The bytes of the number of a character are its bytes in UTF-8. -/
theorem codePointBytes_toNat (c : Char) : codePointBytes c.toNat = String.utf8EncodeChar c := by
  rw [codePointBytes, Char.ofNat_toNat]

/-- No character has the code of a surrogate. -/
theorem not_surrogate_toNat (c : Char) :
    isHighSurrogate c.toNat = false ∧ isLowSurrogate c.toNat = false := by
  have hvalid : c.toNat < 0xd800 ∨ 0xdfff < c.toNat ∧ c.toNat < 0x110000 := c.valid
  rw [isHighSurrogate, isLowSurrogate, Bool.and_eq_false_imp, Bool.and_eq_false_imp]
  simp only [decide_eq_true_eq, decide_eq_false_iff_not]
  omega

/-- The units of a string that spells a text spell the bytes of its characters. -/
theorem exists_units_of_spells {body : Bytes} {cs : List Char} (h : SpellsChars body cs) :
    ∃ units, SpellsUnits body units ∧ unitBytes? units = some (cs.flatMap String.utf8EncodeChar) := by
  induction h with
  | nil => exact ⟨[], .nil, rfl⟩
  | @plain c body cs hlow hquote hescape hrest ih =>
    obtain ⟨units, hunits, hbytes⟩ := ih
    refine ⟨_, hunits.append_plain (plain_of_mem_utf8EncodeChar hlow hquote hescape), ?_⟩
    rw [unitBytes?_append_plain, hbytes]
    rfl
  | @short mark c body cs hmark hrest ih =>
    obtain ⟨units, hunits, hbytes⟩ := ih
    have table : ∀ e ∈ shortEscapes, e.2 < 0x80 := by decide
    refine ⟨_, .short hmark hunits, ?_⟩
    rw [unitBytes?, hbytes, List.flatMap_cons, Bytes.utf8EncodeChar_of_toNat_lt (table _ hmark)]
    rfl
  | @unit escape body c cs hunit hrest ih =>
    obtain ⟨units, hunits, hbytes⟩ := ih
    obtain ⟨hhigh, hlow⟩ := not_surrogate_toNat c
    refine ⟨_, .unit hunit hunits, ?_⟩
    rw [unitBytes?_code hhigh hlow, hbytes, codePointBytes_toNat]
    rfl
  | @pair first second body c cs u v hfirst hsecond hu hv hc hrest ih =>
    obtain ⟨units, hunits, hbytes⟩ := ih
    -- the two units stand for one character beyond those of four digits
    have hhigh : isHighSurrogate u = true := by
      rw [isHighSurrogate, Bool.and_eq_true, decide_eq_true_eq, decide_eq_true_eq]
      omega
    have hlow : isLowSurrogate v = true := by
      rw [isLowSurrogate, Bool.and_eq_true, decide_eq_true_eq, decide_eq_true_eq]
      omega
    refine ⟨_, .unit hfirst (.unit hsecond hunits), ?_⟩
    rw [unitBytes?, hhigh, hlow, Bool.and_self, if_pos rfl, hbytes, ← hc, codePointBytes_toNat]
    rfl

/-- The text of a string is found, however its characters are spelled. -/
theorem readQuoted_of_spells {body : Bytes} {s : String} (h : SpellsChars body s.toList)
    (rest : Bytes) : readQuoted (body ++ 0x22 :: rest) = some (s, rest) := by
  obtain ⟨units, hunits, hbytes⟩ := exists_units_of_spells h
  have htext : unitText? units = some s := by
    rw [unitText?, hbytes, Option.bind_some, ← Bytes.ofText_eq_flatMap, Bytes.toText?_ofText]
  rw [readQuoted, stringUnits_of_spells hunits]
  simp only [htext, Option.map_some]

/-- Some digits, one at least. -/
def AreDigits (b : Bytes) : Prop := b ≠ [] ∧ b.all Text.isDigit = true

/-- The whole part of a numeral: digits without leading zeros. -/
def IsWholePart (b : Bytes) : Prop := AreDigits b ∧ (b.head? = some 0x30 → b = [0x30])

/-- The fraction of a numeral, which may be left out. -/
def IsFraction (b : Bytes) : Prop := b = [] ∨ ∃ digits, AreDigits digits ∧ b = 0x2e :: digits

/-- The exponent of a numeral, which may be left out. -/
def IsExponent (b : Bytes) : Prop := b = [] ∨ ∃ mark sign digits, (mark = 0x65 ∨ mark = 0x45) ∧
  (sign = [] ∨ sign = [0x2b] ∨ sign = [0x2d]) ∧ AreDigits digits ∧ b = mark :: (sign ++ digits)

/-- A numeral of any size and precision. -/
def IsNumeral (b : Bytes) : Prop := ∃ sign whole fraction exponent, (sign = [] ∨ sign = [0x2d]) ∧
  IsWholePart whole ∧ IsFraction fraction ∧ IsExponent exponent ∧
  b = sign ++ (whole ++ (fraction ++ exponent))

/-- Bytes that do not begin with a digit. -/
def EndsDigits (b : Bytes) : Prop := ∀ x ∈ b.head?, Text.isDigit x = false

theorem AreDigits.exists_cons {b : Bytes} (h : AreDigits b) :
    ∃ d rest, b = d :: rest ∧ Text.isDigit d = true := by
  obtain ⟨hne, hall⟩ := h
  obtain ⟨d, rest, rfl⟩ := List.exists_cons_of_ne_nil hne
  rw [List.all_cons, Bool.and_eq_true] at hall
  exact ⟨d, rest, rfl, hall.1⟩

section

variable {rest : Bytes} (hrest : EndsNumeral rest)
include hrest

/-- An exponent is read to its end. -/
theorem readExponent_of_isExponent {b : Bytes} (h : IsExponent b) :
    ∃ found, readExponent (b ++ rest) = some (found, rest) := by
  rcases h with rfl | ⟨mark, sign, digits, hmark, hsign, hdigits, rfl⟩
  · exact ⟨none, readExponent_of_ends hrest⟩
  · have hspan : spanDigits (digits ++ rest) = (digits, rest) := spanDigits_append hdigits.2 hrest
    have hsome : digits.isEmpty = false := List.isEmpty_eq_false_iff.2 hdigits.1
    have hexponent : (mark == 0x65 || mark == 0x45) = true := by
      rcases hmark with rfl | rfl <;> rfl
    rcases hsign with rfl | rfl | rfl
    · -- A digit begins no sign.
      obtain ⟨d, tail, rfl, hd⟩ := hdigits.exists_cons
      have hplus : d ≠ 0x2b := by
        rintro rfl
        cases hd
      have hminus : d ≠ 0x2d := by
        rintro rfl
        cases hd
      rw [List.cons_append] at hspan
      simp [readExponent, hexponent, hplus, hminus, hspan]
    · simp [readExponent, hexponent, hspan, hsome]
    · simp [readExponent, hexponent, hspan, hsome]

theorem endsDigits_exponent {b : Bytes} (h : IsExponent b) :
    EndsDigits (b ++ rest) ∧ ∀ x ∈ (b ++ rest).head?, x ≠ 0x2e := by
  rcases h with rfl | ⟨mark, sign, digits, hmark, -, -, rfl⟩
  · exact ⟨fun x hx => (hrest x hx).1, fun x hx => (hrest x hx).2.1⟩
  · rcases hmark with rfl | rfl
    · exact ⟨fun x hx => by cases hx; rfl, fun x hx => by cases hx; decide⟩
    · exact ⟨fun x hx => by cases hx; rfl, fun x hx => by cases hx; decide⟩

/-- A fraction is read up to the exponent. -/
theorem readFraction_of_isFraction {b exponent : Bytes} (h : IsFraction b)
    (hexponent : IsExponent exponent) :
    ∃ found, readFraction (b ++ (exponent ++ rest)) = some (found, exponent ++ rest) := by
  obtain ⟨hends, hpoint⟩ := endsDigits_exponent hrest hexponent
  rcases h with rfl | ⟨digits, hdigits, rfl⟩
  · refine ⟨[], ?_⟩
    rw [List.nil_append]
    unfold readFraction
    split
    · rename_i tail heq
      exact absurd rfl (hpoint 0x2e (by rw [heq]; rfl))
    · rfl
  · have hsome : digits.isEmpty = false := List.isEmpty_eq_false_iff.2 hdigits.1
    simp [readFraction, spanDigits_digits hdigits.2 hends, hsome]

/-- A numeral without its sign is read part by part. -/
theorem readUnsigned_of_parts (negative : Bool) {whole fraction exponent : Bytes}
    (hwhole : IsWholePart whole) (hfraction : IsFraction fraction) (hexponent : IsExponent exponent) :
    ∃ n, readUnsigned negative (whole ++ (fraction ++ (exponent ++ rest))) = some (n, rest) := by
  obtain ⟨⟨hne, hdigits⟩, hzero⟩ := hwhole
  have hends : EndsDigits (fraction ++ (exponent ++ rest)) := by
    rcases hfraction with rfl | ⟨digits, -, rfl⟩
    · exact (endsDigits_exponent hrest hexponent).1
    · intro x hx
      cases hx
      rfl
  have hallowed : (whole.isEmpty || (whole.head? == some 0x30 && whole.length != 1)) = false := by
    rw [List.isEmpty_eq_false_iff.2 hne, Bool.false_or, Bool.and_eq_false_imp, beq_iff_eq]
    intro hhead
    rw [hzero hhead]
    rfl
  obtain ⟨found, hfound⟩ := readFraction_of_isFraction hrest hfraction hexponent
  obtain ⟨power, hpower⟩ := readExponent_of_isExponent hrest hexponent
  rw [readUnsigned, spanDigits_digits hdigits hends]
  simp only [hallowed, Bool.false_eq_true, if_false, hfound, hpower]
  exact ⟨_, rfl⟩

/-- A numeral is read up to its end. -/
theorem readNumeral_of_isNumeral {b : Bytes} (h : IsNumeral b) :
    ∃ n, readNumeral (b ++ rest) = some (n, rest) := by
  obtain ⟨sign, whole, fraction, exponent, hsign, hwhole, hfraction, hexponent, rfl⟩ := h
  rcases hsign with rfl | rfl
  · obtain ⟨n, hn⟩ := readUnsigned_of_parts hrest false hwhole hfraction hexponent
    obtain ⟨d, tail, rfl, hd⟩ := hwhole.1.exists_cons
    have hminus : d ≠ 0x2d := by
      rintro rfl
      cases hd
    refine ⟨n, ?_⟩
    rw [List.nil_append, List.append_assoc, List.append_assoc, List.cons_append,
      readNumeral_unsigned hminus, ← List.cons_append, hn]
  · obtain ⟨n, hn⟩ := readUnsigned_of_parts hrest true hwhole hfraction hexponent
    refine ⟨n, ?_⟩
    rw [List.append_assoc, List.append_assoc, List.append_assoc, List.singleton_append]
    exact hn

end

theorem exists_cons_of_isNumeral {b : Bytes} (h : IsNumeral b) :
    ∃ x tail, b = x :: tail ∧ beginsNumeral x = true := by
  obtain ⟨sign, whole, fraction, exponent, hsign, hwhole, -, -, rfl⟩ := h
  obtain ⟨d, tail, rfl, hd⟩ := hwhole.1.exists_cons
  rcases hsign with rfl | rfl
  · exact ⟨d, _, rfl, by rw [beginsNumeral, hd, Bool.true_or]⟩
  · exact ⟨0x2d, _, rfl, rfl⟩

/-- Parts with commas between them, and blanks around each of them. -/
inductive CommaSeparated : Bytes → List Bytes → Prop
  | last {before part after : Bytes} (hbefore : AreBlanks before) (hafter : AreBlanks after) :
    CommaSeparated (before ++ (part ++ after)) [part]
  | more {before part after rest : Bytes} {parts : List Bytes} (hbefore : AreBlanks before)
    (hafter : AreBlanks after) (hrest : CommaSeparated rest parts) :
    CommaSeparated (before ++ (part ++ (after ++ 0x2c :: rest))) (part :: parts)

/-- Any number of parts between two brackets. -/
def Encloses (first last : UInt8) (b : Bytes) (parts : List Bytes) : Prop :=
  ∃ body, b = first :: (body ++ [last]) ∧ (parts = [] ∧ AreBlanks body ∨ CommaSeparated body parts)

/-- A member of an object: its name, a colon and its value, with blanks around the colon. -/
def SpellsMember {ν : Type} (SpellsName : Bytes → ν → Prop) (part : Bytes) (m : ν × Bytes) : Prop :=
  ∃ name gap space, SpellsName name m.1 ∧ AreBlanks gap ∧ AreBlanks space ∧
    part = name ++ (gap ++ 0x3a :: (space ++ m.2))

/-- An object with its members, whose names spell something. -/
def SpellsObject {ν : Type} (SpellsName : Bytes → ν → Prop) (b : Bytes) (members : List (ν × Bytes)) :
    Prop :=
  ∃ parts, Encloses 0x7b 0x7d b parts ∧ List.Forall₂ (SpellsMember SpellsName) parts members

/-- A JSON value, of any kind and depth. -/
inductive IsValue : Bytes → Prop
  | word {b : Bytes} (h : b = nullWord ∨ b = trueWord ∨ b = falseWord) : IsValue b
  | numeral {b : Bytes} (h : IsNumeral b) : IsValue b
  | string {b : Bytes} {units : List StringUnit} (h : SpellsUnitString b units) : IsValue b
  | array {b : Bytes} {items : List Bytes} (h : Encloses 0x5b 0x5d b items)
    (hitems : ∀ item ∈ items, IsValue item) : IsValue b
  | object {b : Bytes} {members : List (List StringUnit × Bytes)}
    (h : SpellsObject SpellsUnitString b members) (hmembers : ∀ m ∈ members, IsValue m.2) : IsValue b

theorem SpellsString.exists_cons {b : Bytes} {s : String} (h : SpellsString b s) :
    ∃ tail, b = 0x22 :: tail := by
  obtain ⟨body, rfl, -⟩ := h
  exact ⟨_, rfl⟩

theorem SpellsUnitString.exists_cons {b : Bytes} {units : List StringUnit}
    (h : SpellsUnitString b units) : ∃ tail, b = 0x22 :: tail := by
  obtain ⟨body, rfl, -⟩ := h
  exact ⟨_, rfl⟩

/-- Members begin with the quotes of their names. -/
theorem starts_of_members {ν : Type} {SpellsName : Bytes → ν → Prop} {parts : List Bytes}
    {members : List (ν × Bytes)} (h : List.Forall₂ (SpellsMember SpellsName) parts members)
    (hnames : ∀ b n, SpellsName b n → ∃ tail, b = 0x22 :: tail) :
    ∀ part ∈ parts, ∃ c tail, part = c :: tail ∧ isBlank c = false ∧ c ≠ 0x7d := by
  refine ((List.forall₂_and_left parts members).1 (h.imp fun part m hm => ⟨?_, hm⟩)).1
  obtain ⟨name, gap, space, hname, -, -, rfl⟩ := hm
  obtain ⟨tail, rfl⟩ := hnames name m.1 hname
  exact ⟨0x22, _, rfl, by decide, by decide⟩

/-- Blanks end a numeral. -/
theorem endsNumeral_of_blanks {blanks : Bytes} (h : AreBlanks blanks) : EndsNumeral blanks := by
  intro x hx
  have hblank : isBlank x = true := List.all_eq_true.1 h x (List.mem_of_mem_head? hx)
  rcases isBlank_iff.1 hblank with rfl | rfl | rfl | rfl <;> decide

/-- A text that is read to its end as a value, and is not taken for the end of an array. -/
structure IsRead (b : Bytes) : Prop where
  starts : ∃ c tail, b = c :: tail ∧ isBlank c = false ∧ c ≠ 0x5d
  reads : ∀ fuel rest, 2 * b.length ≤ fuel → EndsNumeral rest →
    ∃ tree, readTreeWithin fuel (b ++ rest) = some (tree, rest)

/-- Where blanks are skipped in front of separated parts, the first part begins what is left of them. -/
theorem CommaSeparated.exists_skipBlank {body : Bytes} {parts : List Bytes} {close : UInt8}
    (h : CommaSeparated body parts)
    (hstarts : ∀ part ∈ parts, ∃ c tail, part = c :: tail ∧ isBlank c = false ∧ c ≠ close)
    (more : Bytes) : ∃ c tail, skipBlank (body ++ more) = c :: (tail ++ more) ∧ c ≠ close ∧
      tail.length < body.length ∧ CommaSeparated (c :: tail) parts := by
  have hnone : AreBlanks [] := rfl
  -- the blanks before the first part go; the rest is separated as before
  cases h with
  | @last before _ after hbefore hafter =>
    obtain ⟨c, tail, rfl, hblank, hne⟩ := hstarts _ List.mem_cons_self
    have hleft : CommaSeparated ([] ++ (c :: tail ++ after)) [c :: tail] := .last hnone hafter
    refine ⟨c, tail ++ after, ?_, hne, ?_, hleft⟩
    · rw [List.append_assoc, List.append_assoc, List.cons_append,
        skipBlank_blanks_cons hbefore hblank, List.append_assoc]
    · simp only [List.length_append, List.length_cons]
      omega
  | @more before _ after rest _ hbefore hafter hrest =>
    obtain ⟨c, tail, rfl, hblank, hne⟩ := hstarts _ List.mem_cons_self
    have hleft : CommaSeparated ([] ++ (c :: tail ++ (after ++ 0x2c :: rest))) ((c :: tail) :: _) :=
      .more hnone hafter hrest
    refine ⟨c, tail ++ (after ++ 0x2c :: rest), ?_, hne, ?_, hleft⟩
    · rw [List.append_assoc, List.append_assoc, List.cons_append,
        skipBlank_blanks_cons hbefore hblank, List.append_assoc tail]
    · simp only [List.length_append, List.length_cons]
      omega

/-- There are not more parts than bytes, so the fuel suffices for them. -/
theorem CommaSeparated.length_le {body : Bytes} {parts : List Bytes}
    (h : CommaSeparated body parts) : parts.length ≤ body.length + 1 := by
  induction h with
  | last => exact Nat.succ_le_succ (Nat.zero_le _)
  | more _ _ _ ih =>
    simp only [List.length_append, List.length_cons]
    omega

/-- Items that are read one by one are read in a row up to the closing bracket. -/
theorem reads_separated_items {body : Bytes} {items : List Bytes} (h : CommaSeparated body items)
    (hitems : ∀ item ∈ items, IsRead item) {fuel : Nat} (hfuel : 2 * body.length + 1 ≤ fuel)
    (rest : Bytes) : ∃ trees, readItemsWithin fuel (body ++ 0x5d :: rest) = some (trees, rest) := by
  -- on the items; each uses up one unit of fuel, which its bytes pay for
  induction h generalizing fuel with
  | @last before item after hbefore hafter =>
    obtain ⟨k, rfl⟩ : ∃ k, fuel = k + 1 := ⟨fuel - 1, by omega⟩
    simp only [List.length_append] at hfuel
    obtain ⟨tree, htree⟩ := (hitems item List.mem_cons_self).reads k (after ++ 0x5d :: rest)
      (by omega) (endsNumeral_blanks_mark hafter (by decide) rest)
    refine ⟨[tree], readItemsWithin_succ_iff.2 ⟨tree, after ++ 0x5d :: rest, ?_, Or.inl ⟨?_, rfl⟩⟩⟩
    · rw [List.append_assoc, List.append_assoc, readTreeWithin_blanks hbefore, htree]
    · exact skipBlank_blanks_cons hafter rfl rest
  | @more before item after later items hbefore hafter _ ih =>
    obtain ⟨k, rfl⟩ : ∃ k, fuel = k + 1 := ⟨fuel - 1, by omega⟩
    simp only [List.length_append, List.length_cons] at hfuel
    obtain ⟨tree, htree⟩ := (hitems item List.mem_cons_self).reads k
      (after ++ 0x2c :: (later ++ 0x5d :: rest)) (by omega)
      (endsNumeral_blanks_mark hafter (by decide) _)
    obtain ⟨trees, htrees⟩ := @ih (fun item hitem => hitems item (List.mem_cons_of_mem _ hitem)) k
      (by omega)
    refine ⟨tree :: trees, readItemsWithin_succ_iff.2 ⟨tree, _, ?_,
      Or.inr ⟨_, trees, skipBlank_blanks_cons hafter rfl _, htrees, rfl⟩⟩⟩
    simp only [List.append_assoc, List.cons_append]
    rw [readTreeWithin_blanks hbefore, htree]

section Members

variable {part before more : Bytes} {m : List StringUnit × Bytes}

theorem exists_of_spellsMember (h : SpellsMember SpellsUnitString part m) :
    ∃ body gap space, SpellsUnits body m.1 ∧ AreBlanks gap ∧ AreBlanks space ∧
      part = 0x22 :: (body ++ 0x22 :: (gap ++ 0x3a :: (space ++ m.2))) := by
  obtain ⟨name, gap, space, ⟨body, rfl, hunits⟩, hgap, hspace, rfl⟩ := h
  exact ⟨body, gap, space, hunits, hgap, hspace, by simp⟩

/-- A member is read up to the end of its value, token by token. -/
theorem reads_member (h : SpellsMember SpellsUnitString part m) (hm : IsRead m.2)
    (hbefore : AreBlanks before) (hmore : EndsNumeral more) {fuel : Nat}
    (hfuel : 2 * part.length ≤ fuel) :
    ∃ quoted mark spelled tree, skipBlank (before ++ (part ++ more)) = 0x22 :: quoted ∧
      stringUnits quoted = some (m.1, mark) ∧ skipBlank mark = 0x3a :: spelled ∧
      readTreeWithin fuel spelled = some (tree, more) := by
  obtain ⟨body, gap, space, hunits, hgap, hspace, rfl⟩ := exists_of_spellsMember h
  simp only [List.length_cons, List.length_append] at hfuel
  obtain ⟨tree, htree⟩ := hm.reads fuel more (by omega) hmore
  refine ⟨body ++ 0x22 :: (gap ++ 0x3a :: (space ++ (m.2 ++ more))), _, _, tree, ?_,
    stringUnits_of_spells hunits _, skipBlank_blanks_cons hgap rfl _, ?_⟩
  · rw [List.cons_append, skipBlank_blanks_cons hbefore rfl]
    simp
  · rw [readTreeWithin_blanks hspace, htree]

/-- Members that are read one by one are read in a row up to the closing brace. -/
theorem reads_separated_members {body : Bytes} {parts : List Bytes}
    {members : List (List StringUnit × Bytes)} (h : CommaSeparated body parts)
    (hparts : List.Forall₂ (SpellsMember SpellsUnitString) parts members)
    (hmembers : ∀ m ∈ members, IsRead m.2) {fuel : Nat} (hfuel : 2 * body.length + 1 ≤ fuel)
    (rest : Bytes) : ∃ trees, readMembersWithin fuel (body ++ 0x7d :: rest) = some (trees, rest) := by
  -- on the parts, as for the items of an array
  induction h generalizing members fuel with
  | @last before part after hbefore hafter =>
    obtain ⟨k, rfl⟩ : ∃ k, fuel = k + 1 := ⟨fuel - 1, by omega⟩
    simp only [List.length_append] at hfuel
    cases hparts with
    | cons hpart _ =>
      have hends : EndsNumeral (after ++ 0x7d :: rest) :=
        endsNumeral_blanks_mark hafter (by decide) rest
      obtain ⟨quoted, mark, spelled, tree, hquoted, hname, hcolon, htree⟩ :=
        reads_member hpart (hmembers _ List.mem_cons_self) hbefore hends
          (show 2 * part.length ≤ k by omega)
      refine ⟨_, readMembersWithin_succ_iff.2 ⟨quoted, _, mark, spelled, tree, _, ?_, hname, hcolon,
        htree, Or.inl ⟨skipBlank_blanks_cons hafter rfl rest, rfl⟩⟩⟩
      rw [List.append_assoc, List.append_assoc, hquoted]
  | @more before part after later parts hbefore hafter _ ih =>
    obtain ⟨k, rfl⟩ : ∃ k, fuel = k + 1 := ⟨fuel - 1, by omega⟩
    simp only [List.length_append, List.length_cons] at hfuel
    cases hparts with
    | cons hpart hparts =>
      have hends : EndsNumeral (after ++ 0x2c :: (later ++ 0x7d :: rest)) :=
        endsNumeral_blanks_mark hafter (by decide) _
      obtain ⟨quoted, mark, spelled, tree, hquoted, hname, hcolon, htree⟩ :=
        reads_member hpart (hmembers _ List.mem_cons_self) hbefore hends
          (show 2 * part.length ≤ k by omega)
      obtain ⟨trees, htrees⟩ := ih hparts (fun m hm => hmembers m (List.mem_cons_of_mem _ hm))
        (show 2 * later.length + 1 ≤ k by omega)
      refine ⟨_, readMembersWithin_succ_iff.2 ⟨quoted, _, mark, spelled, tree, _, ?_, hname, hcolon,
        htree, Or.inr ⟨_, trees, skipBlank_blanks_cons hafter rfl _, htrees, rfl⟩⟩⟩
      simp only [List.append_assoc, List.cons_append]
      rw [hquoted]

end Members

/-- What is enclosed is read: nothing at all, or parts up to the closing mark. -/
theorem readParts_of_encloses {α : Type} {close : UInt8} {tree : List α → Tree}
    {read : Bytes → Option (List α × Bytes)} {body rest : Bytes} {parts : List Bytes}
    (h : parts = [] ∧ AreBlanks body ∨ CommaSeparated body parts) (hclose : isBlank close = false)
    (hstarts : ∀ part ∈ parts, ∃ c tail, part = c :: tail ∧ isBlank c = false ∧ c ≠ close)
    (hread : ∀ body', CommaSeparated body' parts → body'.length ≤ body.length →
      ∃ trees, read (body' ++ close :: rest) = some (trees, rest)) :
    ∃ t, readParts close tree read (body ++ close :: rest) = some (t, rest) := by
  rcases h with ⟨-, hblanks⟩ | hparts
  · rw [readParts, skipBlank_blanks_cons hblanks hclose]
    exact ⟨_, if_pos rfl⟩
  · obtain ⟨c, tail, hfirst, hne, hlength, hseparated⟩ :=
      hparts.exists_skipBlank hstarts (close :: rest)
    obtain ⟨trees, htrees⟩ := hread (c :: tail) hseparated hlength
    rw [List.cons_append] at htrees
    rw [readParts, hfirst]
    dsimp only
    rw [if_neg hne, htrees]
    exact ⟨_, rfl⟩

theorem isRead_of_cons {c : UInt8} {tail : Bytes} (hc : isBlank c = false ∧ c ≠ 0x5d)
    (h : ∀ k rest, 2 * tail.length + 1 ≤ k → EndsNumeral rest →
      ∃ tree, readTreeWithin (k + 1) (c :: (tail ++ rest)) = some (tree, rest)) :
    IsRead (c :: tail) where
  starts := ⟨c, tail, rfl, hc⟩
  reads := by
    intro fuel rest hfuel hrest
    rw [List.length_cons] at hfuel
    obtain ⟨k, rfl⟩ : ∃ k, fuel = k + 1 := ⟨fuel - 1, by omega⟩
    exact h k rest (by omega) hrest

theorem isRead_word {b : Bytes} (h : b = nullWord ∨ b = trueWord ∨ b = falseWord) : IsRead b := by
  rcases h with rfl | rfl | rfl
  · exact isRead_of_cons (by decide) fun _ _ _ _ => ⟨.null, rfl⟩
  · exact isRead_of_cons (by decide) fun _ _ _ _ => ⟨.bool true, rfl⟩
  · exact isRead_of_cons (by decide) fun _ _ _ _ => ⟨.bool false, rfl⟩

/-- A numeral is read to its end, as are words, strings, arrays and objects. -/
theorem isRead_numeral {b : Bytes} (h : IsNumeral b) : IsRead b := by
  obtain ⟨c, tail, rfl, hc⟩ := exists_cons_of_isNumeral h
  apply isRead_of_cons ⟨isBlank_of_beginsNumeral hc, ne_of_beginsNumeral hc rfl⟩
  intro k rest _ hrest
  obtain ⟨n, hn⟩ := readNumeral_of_isNumeral hrest h
  rw [List.cons_append] at hn
  rw [readTreeWithin_of_beginsNumeral hc, hn]
  exact ⟨_, rfl⟩

theorem isRead_string {b : Bytes} {units : List StringUnit} (h : SpellsUnitString b units) :
    IsRead b := by
  obtain ⟨body, rfl, hunits⟩ := h
  apply isRead_of_cons (by decide)
  intro k rest _ _
  have hread : stringUnits (body ++ [0x22] ++ rest) = some (units, rest) := by
    rw [List.append_assoc]
    exact stringUnits_of_spells hunits rest
  refine ⟨.text units, ?_⟩
  change (stringUnits (body ++ [0x22] ++ rest)).map (fun x => (Tree.text x.1, x.2)) = _
  rw [hread]
  rfl

theorem isRead_array {b : Bytes} {items : List Bytes} (h : Encloses 0x5b 0x5d b items)
    (hitems : ∀ item ∈ items, IsRead item) : IsRead b := by
  obtain ⟨body, rfl, hbody⟩ := h
  apply isRead_of_cons (by decide)
  intro k rest hk _
  rw [List.length_append, List.length_singleton] at hk
  rw [readTreeWithin_of_bracket (skipBlank_cons rfl _), List.append_assoc, List.singleton_append]
  apply readParts_of_encloses hbody rfl fun item hitem => (hitems item hitem).starts
  intro body' hseparated hlength
  exact reads_separated_items hseparated hitems (by omega) rest

/-- An object is read to its end if the values of its members are. -/
theorem isRead_object {b : Bytes} {members : List (List StringUnit × Bytes)}
    (h : SpellsObject SpellsUnitString b members) (hmembers : ∀ m ∈ members, IsRead m.2) :
    IsRead b := by
  obtain ⟨parts, ⟨body, rfl, hbody⟩, hparts⟩ := h
  apply isRead_of_cons (by decide)
  intro k rest hk _
  rw [List.length_append, List.length_singleton] at hk
  rw [readTreeWithin_of_brace (skipBlank_cons rfl _), List.append_assoc, List.singleton_append]
  apply readParts_of_encloses hbody rfl (starts_of_members hparts fun _ _ hname => hname.exists_cons)
  intro body' hseparated hlength
  exact reads_separated_members hseparated hparts hmembers (by omega) rest

/-- Every value is read to its end. -/
theorem reads_of_isValue {b : Bytes} (h : IsValue b) : IsRead b := by
  induction h with
  | word h => exact isRead_word h
  | numeral h => exact isRead_numeral h
  | string h => exact isRead_string h
  | array h _ ih => exact isRead_array h ih
  | object h _ ih => exact isRead_object h ih

/-- A text is read from each of its spellings. -/
theorem recovers_spelledText {b : Bytes} {s : String} (h : SpellsString b s) :
    Recovers readText b s := by
  obtain ⟨body, rfl, hchars⟩ := h
  intro blanks rest hblanks _
  rw [List.cons_append, List.append_assoc, List.singleton_append, readText,
    skipBlank_blanks_cons hblanks rfl]
  simp only [readQuoted_of_spells hchars]

end IndexVault.Json
