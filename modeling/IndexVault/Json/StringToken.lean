import IndexVault.Json.Value

namespace IndexVault.Json

/-- One unit of a string: a byte as it stands, or a UTF-16 unit that an escape names. -/
inductive StringUnit where
  | byte (b : UInt8)
  | code (unit : Nat)
  deriving DecidableEq, Repr

/-- The byte that a short escape stands for. -/
def shortEscape? (b : UInt8) : Option UInt8 :=
  if b == 0x22 || b == 0x5c || b == 0x2f then some b
  else if b == 0x62 then some 0x08
  else if b == 0x74 then some 0x09
  else if b == 0x6e then some 0x0a
  else if b == 0x66 then some 0x0c
  else if b == 0x72 then some 0x0d
  else none

def hexUnit? (a b c d : UInt8) : Option Nat := do
  let w ← Text.hexValue? a
  let x ← Text.hexValue? b
  let y ← Text.hexValue? c
  let z ← Text.hexValue? d
  pure (((w * 16 + x) * 16 + y) * 16 + z)

/-- Puts a unit in front of the units of the rest of a string. -/
def withUnit (u : StringUnit) : Option (List StringUnit × Bytes) → Option (List StringUnit × Bytes)
  | none => none
  | some (units, rest) => some (u :: units, rest)

/-- The units of a string up to its closing quote, and what follows it. -/
def stringUnits : Bytes → Option (List StringUnit × Bytes)
  | [] => none
  | 0x5c :: 0x75 :: a :: b :: c :: d :: rest =>
    match hexUnit? a b c d with
    | some u => withUnit (.code u) (stringUnits rest)
    | none => none
  | 0x5c :: b :: rest =>
    match shortEscape? b with
    | some x => withUnit (.byte x) (stringUnits rest)
    | none => none
  | b :: rest =>
    if b == 0x22 then some ([], rest)
    -- Control characters have to be escaped.
    else if b < 0x20 || b == 0x5c then none
    else withUnit (.byte b) (stringUnits rest)

def codePointBytes (n : Nat) : Bytes :=
  String.utf8EncodeChar (Char.ofNat n)

def isHighSurrogate (u : Nat) : Bool := 0xd800 ≤ u && u ≤ 0xdbff

def isLowSurrogate (u : Nat) : Bool := 0xdc00 ≤ u && u ≤ 0xdfff

/-- The bytes that units spell. -/
def unitBytes? : List StringUnit → Option Bytes
  | [] => some []
  | .byte b :: rest => (unitBytes? rest).map (b :: ·)
  | .code u :: .code v :: rest =>
    if isHighSurrogate u && isLowSurrogate v then
      (unitBytes? rest).map
        (codePointBytes (0x10000 + (u - 0xd800) * 1024 + (v - 0xdc00)) ++ ·)
    -- A surrogate that is not one of a pair spells nothing.
    else if isHighSurrogate u || isLowSurrogate u then none
    else (unitBytes? (.code v :: rest)).map (codePointBytes u ++ ·)
  | .code u :: rest =>
    if isHighSurrogate u || isLowSurrogate u then none
    else (unitBytes? rest).map (codePointBytes u ++ ·)

def unitText? (units : List StringUnit) : Option String :=
  (unitBytes? units).bind Bytes.toText?

def readQuoted (input : Bytes) : Option (String × Bytes) :=
  match stringUnits input with
  | none => none
  | some (units, rest) => (unitText? units).map fun s => (s, rest)

/-- The unit as which an escaped byte is read. -/
def escapedUnit (b : UInt8) : StringUnit :=
  if b < 0x20 && !(b == 0x08 || b == 0x09 || b == 0x0a || b == 0x0c || b == 0x0d) then
    .code b.toNat
  else .byte b

/-- A byte other than the backslash stands for itself or ends the string. -/
theorem stringUnits_cons {b : UInt8} (hb : b ≠ 0x5c) (rest : Bytes) :
    stringUnits (b :: rest) =
      if b == 0x22 then some ([], rest)
      else if b < 0x20 || b == 0x5c then none else withUnit (.byte b) (stringUnits rest) :=
  stringUnits.eq_4 b rest (fun _ _ _ _ _ h => absurd h hb) fun _ _ h => absurd h hb

/-- A number below 256 is read from its two digits behind two zeros. -/
theorem hexUnit?_hexDigits {n : Nat} (h : n < 256) :
    hexUnit? 0x30 0x30 (Text.hexDigit (n / 16)) (Text.hexDigit (n % 16)) = some n := by
  simp only [hexUnit?, Text.hexValue?_hexDigit (show n / 16 < 16 by omega),
    Text.hexValue?_hexDigit (show n % 16 < 16 by omega)]
  change some (((0 * 16 + 0) * 16 + n / 16) * 16 + n % 16) = _
  congr 1
  omega

/-- The bytes that are written with a short escape. -/
def shortEscaped : List UInt8 := [0x22, 0x5c, 0x08, 0x09, 0x0a, 0x0c, 0x0d]

theorem escapeByte_of_not_mem {b : UInt8} (h : b ∉ shortEscaped) :
    escapeByte b =
      if b < 0x20 then
        [0x5c, 0x75, 0x30, 0x30, Text.hexDigit (b.toNat / 16), Text.hexDigit (b.toNat % 16)]
      else [b] := by
  simp only [shortEscaped, List.mem_cons, List.not_mem_nil, or_false, not_or] at h
  simp [escapeByte, h]

theorem escapedUnit_of_not_mem {b : UInt8} (h : b ∉ shortEscaped) :
    escapedUnit b = if b < 0x20 then .code b.toNat else .byte b := by
  simp only [shortEscaped, List.mem_cons, List.not_mem_nil, or_false, not_or] at h
  simp [escapedUnit, h]

/-- An escaped byte is read as one unit, and the rest as it would be without it. -/
theorem stringUnits_escapeByte (b : UInt8) (rest : Bytes) :
    stringUnits (escapeByte b ++ rest) = withUnit (escapedUnit b) (stringUnits rest) := by
  by_cases hshort : b ∈ shortEscaped
  · -- these are closed bytes, on which the reader computes
    have table : ∀ b ∈ shortEscaped, stringUnits (escapeByte b ++ rest) =
        withUnit (escapedUnit b) (stringUnits rest) := by
      simp only [shortEscaped, List.forall_mem_cons, List.not_mem_nil]
      exact ⟨rfl, rfl, rfl, rfl, rfl, rfl, rfl, fun _ h => h.elim⟩
    exact table b hshort
  rw [escapeByte_of_not_mem hshort, escapedUnit_of_not_mem hshort]
  split
  · have hlt : b.toNat < 256 := b.toNat_lt
    simp only [List.cons_append, List.nil_append, stringUnits, hexUnit?_hexDigits hlt]
  · rename_i hplain
    simp only [shortEscaped, List.mem_cons, not_or] at hshort
    rw [List.cons_append, List.nil_append, stringUnits_cons hshort.2.1]
    simp [hshort, hplain]

theorem codePointBytes_of_lt {n : Nat} (h : n < 0x20) : codePointBytes n = [UInt8.ofNat n] := by
  have table : ∀ m : Fin 0x20, codePointBytes m = [UInt8.ofNat m.val] := by decide
  exact table ⟨n, h⟩

/-- A unit that is no surrogate spells its character. -/
theorem unitBytes?_code {u : Nat} (hhigh : isHighSurrogate u = false)
    (hlow : isLowSurrogate u = false) (rest : List StringUnit) :
    unitBytes? (.code u :: rest) = (unitBytes? rest).map (codePointBytes u ++ ·) := by
  cases rest with
  | nil => simp [unitBytes?, hhigh, hlow]
  | cons x r => cases x <;> simp [unitBytes?, hhigh, hlow]

/-- A control character that is named by its number spells the byte of that number. -/
theorem unitBytes?_code_cons {u : Nat} (hu : u < 0x20) (rest : List StringUnit) :
    unitBytes? (.code u :: rest) = (unitBytes? rest).map (codePointBytes u ++ ·) := by
  apply unitBytes?_code
  · simp only [isHighSurrogate, Bool.and_eq_false_imp, decide_eq_true_eq]
    intro h
    omega
  · simp only [isLowSurrogate, Bool.and_eq_false_imp, decide_eq_true_eq]
    intro h
    omega

/-- The units of escaped bytes spell these bytes. -/
theorem unitBytes?_escapedUnits (b : Bytes) : unitBytes? (b.map escapedUnit) = some b := by
  induction b with
  | nil => rfl
  | cons x rest ih =>
    rw [List.map_cons]
    by_cases h : x < 0x20 && !(x == 0x08 || x == 0x09 || x == 0x0a || x == 0x0c || x == 0x0d)
    · have hx : x.toNat < 0x20 := by
        have h' : x < 0x20 := by simp_all
        simpa [UInt8.lt_iff_toNat_lt] using h'
      rw [escapedUnit, if_pos h, unitBytes?_code_cons hx, ih, codePointBytes_of_lt hx,
        UInt8.ofNat_toNat]
      rfl
    · rw [escapedUnit, if_neg h, unitBytes?, ih]
      rfl

/-- Escaped bytes are read as one unit each, up to the closing quote. -/
theorem stringUnits_escaped (b rest : Bytes) :
    stringUnits (b.flatMap escapeByte ++ 0x22 :: rest) = some (b.map escapedUnit, rest) := by
  induction b with
  | nil => rfl
  | cons x r ih =>
    rw [List.flatMap_cons, List.append_assoc, stringUnits_escapeByte, ih]
    rfl

/-- A written string reads back, whatever follows it. -/
theorem readQuoted_quoted (s : String) (rest : Bytes) :
    (quoted s ++ rest).head? = some 0x22 ∧
      readQuoted ((quoted s ++ rest).tail) = some (s, rest) := by
  refine ⟨rfl, ?_⟩
  have h : (quoted s ++ rest).tail = (Bytes.ofText s).flatMap escapeByte ++ 0x22 :: rest := by
    simp [quoted]
  rw [h, readQuoted, stringUnits_escaped]
  simp [unitText?, unitBytes?_escapedUnits, Bytes.toText?_ofText]

end IndexVault.Json
