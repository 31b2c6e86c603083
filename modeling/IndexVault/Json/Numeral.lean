import IndexVault.Json.Value

namespace IndexVault.Json

/-- A numeral as it is understood: its sign, `significand * 10 ^ exponent`, and whether it is spelled
without fraction and exponent. It keeps as many of its digits as 64 bits hold: of those left over, the ones
before the point only raise the exponent, and the ones behind it are dropped. -/
structure Numeral where
  negative : Bool
  significand : Nat
  exponent : Int
  isWhole : Bool
  deriving DecidableEq, Repr

/-- The digits at the front of a text, and the rest. -/
def spanDigits (input : Bytes) : Bytes × Bytes :=
  (input.takeWhile Text.isDigit, input.dropWhile Text.isDigit)

/-- The digits of a fraction, if one follows; a point needs digits. -/
def readFraction : Bytes → Option (Bytes × Bytes)
  | 0x2e :: rest =>
    let (found, rest') := spanDigits rest
    if found.isEmpty then none else some (found, rest')
  | input => some ([], input)

/-- The digits of an exponent with its sign, if one follows; the mark needs digits. -/
def readExponent : Bytes → Option (Option Int × Bytes)
  | [] => some (none, [])
  | b :: rest =>
    if b == 0x65 || b == 0x45 then
      let (negative, rest) :=
        match rest with
        | 0x2b :: r => (false, r)
        | 0x2d :: r => (true, r)
        | r => (false, r)
      let (found, rest') := spanDigits rest
      if found.isEmpty then none
      else
        let n : Int := Text.readNat found
        some (some (if negative then -n else n), rest')
    else some (none, b :: rest)

/-- Appends digits to a significand as long as 64 bits hold it, and counts the digits left over. -/
def extendSignificand : Nat → Bytes → Nat × Nat
  | s, [] => (s, 0)
  | s, d :: rest =>
    let next := s * 10 + (d.toNat - 0x30)
    if next < UInt64.size then extendSignificand next rest else (s, rest.length + 1)

/-- Reads a numeral; a whole part has no leading zeros. -/
def readNumeral (input : Bytes) : Option (Numeral × Bytes) :=
  let (negative, unsigned) :=
    match input with
    | 0x2d :: r => (true, r)
    | r => (false, r)
  let (whole, rest) := spanDigits unsigned
  if whole.isEmpty || (whole.head? == some 0x30 && whole.length != 1) then none
  else
    match readFraction rest with
    | none => none
    | some (fraction, rest) =>
      match readExponent rest with
      | none => none
      | some (exponent, rest) =>
        -- Digits left over before the point raise the exponent; those behind it are dropped.
        let (front, raised) := extendSignificand 0 whole
        let (significand, dropped) := extendSignificand front fraction
        some ({ negative := negative
                significand := significand
                exponent := exponent.getD 0 + raised - (fraction.length - dropped : Nat)
                isWhole := fraction.isEmpty && exponent.isNone }, rest)

/-- The double nearest to a whole number. -/
def nearestDouble (n : Nat) : Nat :=
  -- Of two doubles that are as near, the one with an even last bit is taken.
  let unit := Nat.pow 2 (n.log2 - 52)
  let rest := 2 * (n % unit)
  let up := unit < rest || (unit == rest && n / unit % 2 == 1)
  (n / unit + if up then 1 else 0) * unit

/-- A double holds whole numbers of up to 53 bits as they are. -/
theorem nearestDouble_of_lt {n : Nat} (h : n < Nat.pow 2 53) : nearestDouble n = n := by
  have hlog : n.log2 - 52 = 0 := by
    by_cases hn : n = 0
    · simp [hn]
    · have := (Nat.log2_lt hn).2 h
      omega
  simp [nearestDouble, hlog, Nat.mod_one]

/-- From here on, numbers round past the largest finite double. -/
def doubleBound : Nat := Nat.pow 2 1024 - Nat.pow 2 970

/-- The largest power of ten that is a finite double. -/
def maxDecimalExponent : Int := 308

/-- Whether `significand * 10 ^ exponent` is finite when both factors and then their product are rounded to
doubles. What is not a whole number of 64 bits has to be. -/
def fitsDouble (significand : Nat) (exponent : Int) : Bool :=
  significand == 0 || exponent < 0 ||
    (exponent ≤ maxDecimalExponent &&
      nearestDouble significand * nearestDouble (Nat.pow 10 exponent.toNat) < doubleBound)

/-- The number that a numeral stands for: whole where it is spelled so and fits 64 bits. -/
def Numeral.number? (n : Numeral) : Option Number :=
  let value : Int := if n.negative then -(n.significand : Int) else n.significand
  -- A negative zero is not whole, and a negative number has to fit 64 bits with its sign.
  if n.isWhole && n.exponent == 0 && !(n.negative && n.significand == 0) &&
      Int64.minValue.toInt ≤ value then
    some (.whole value)
  else if fitsDouble n.significand n.exponent then
    some (.decimal n.negative n.significand n.exponent)
  else none

end IndexVault.Json
