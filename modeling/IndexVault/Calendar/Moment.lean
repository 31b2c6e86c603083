import IndexVault.Text.Decimal

/-! Calendar moments with nanoseconds. A moment is stored as text of fixed-width parts, so that in
the years 0000 to 9999 stored texts compare as the moments do; other years stand behind a sign. A
fraction is written only when it is not zero, with 3, 6 or 9 digits. -/
namespace IndexVault

/-- A year of the calendar; those before the year 0 are negative. -/
abbrev Year := { year : Int // -262143 ≤ year ∧ year ≤ 262142 }

/-- A date and a time of day. The sixty-first second of a minute is a leap second. -/
structure Moment where
  year : Year
  month : Fin 13
  day : Fin 32
  hour : Fin 24
  minute : Fin 60
  second : Fin 61
  nano : Fin 1000000000
  deriving DecidableEq, Repr

namespace Moment

/-- The fraction of a second as it is written after the seconds. -/
def fraction (nano : Nat) : Bytes :=
  if nano = 0 then []
  else if nano % 1000000 = 0 then 0x2e :: Text.paddedDigits 3 (nano / 1000000)
  else if nano % 1000 = 0 then 0x2e :: Text.paddedDigits 6 (nano / 1000)
  else 0x2e :: Text.paddedDigits 9 nano

/-- A year in four digits; one that is not in 0000 to 9999 takes a sign, and more digits if it has
them. -/
def writtenYear (year : Int) : Bytes :=
  let count := year.natAbs
  let found := if count < 10000 then Text.paddedDigits 4 count else Text.digits count
  if year < 0 then 0x2d :: found else if 9999 < year then 0x2b :: found else found

/-- The written form, with a byte between date and time. -/
def written (between : UInt8) (m : Moment) : Bytes :=
  writtenYear m.year ++ 0x2d :: Text.paddedDigits 2 m.month ++
    0x2d :: Text.paddedDigits 2 m.day ++ between :: Text.paddedDigits 2 m.hour ++
    0x3a :: Text.paddedDigits 2 m.minute ++ 0x3a :: Text.paddedDigits 2 m.second ++
    fraction m.nano

/-- The text in a database row. -/
def stored (m : Moment) : Bytes := m.written 0x20

/-- The text in JSON. -/
def isoText (m : Moment) : String :=
  String.ofList ((m.written 0x54).map fun x => Char.ofNat x.toNat)

def isLeapYear (year : Int) : Bool :=
  year % 4 == 0 && (year % 100 != 0 || year % 400 == 0)

def daysInMonth (year : Int) (month : Nat) : Nat :=
  if month = 2 then if isLeapYear year then 29 else 28
  else if month = 4 ∨ month = 6 ∨ month = 9 ∨ month = 11 then 30
  else 31

/-- The moment with some parts, if they make a date of the calendar. -/
def ofParts? (year : Int) (month day hour minute second nano : Nat) : Option Moment :=
  if h : (-262143 ≤ year ∧ year ≤ 262142) ∧ month < 13 ∧ day < 32 ∧ hour < 24 ∧ minute < 60 ∧
      second < 61 ∧ nano < 1000000000 then
    if 0 < month && 0 < day && day ≤ daysInMonth year month then
      some ⟨⟨year, h.1⟩, ⟨month, h.2.1⟩, ⟨day, h.2.2.1⟩, ⟨hour, h.2.2.2.1⟩, ⟨minute, h.2.2.2.2.1⟩,
        ⟨second, h.2.2.2.2.2.1⟩, ⟨nano, h.2.2.2.2.2.2⟩⟩
    else none
  else none

/-- A number of one up to `width` digits at the front of a text, then the rest. -/
def leadingNat? (width : Nat) (input : Bytes) : Option (Nat × Bytes) :=
  let found := (input.take width).takeWhile Text.isDigit
  if found.isEmpty then none else some (Text.readNat found, input.drop found.length)

/-- A year at the front of a text, then the rest. Behind a sign it may have any number of digits. -/
def leadingYear? : Bytes → Option (Int × Bytes)
  | 0x2b :: input => (leadingNat? input.length input).map fun (n, rest) => ((n : Int), rest)
  | 0x2d :: input => (leadingNat? input.length input).map fun (n, rest) => (-(n : Int), rest)
  | input => (leadingNat? 4 input).map fun (n, rest) => ((n : Int), rest)

/-- The rest of a text after an expected byte. -/
def after? (expected : UInt8) : Bytes → Option Bytes
  | [] => none
  | b :: rest => if b == expected then some rest else none

/-- The nanoseconds of a written fraction, or of none; digits past the ninth are dropped. -/
def nanos? : Bytes → Option Nat
  | [] => some 0
  | 0x2e :: found =>
    if found.isEmpty || !found.all Text.isDigit then none
    else some (Text.readNat ((found ++ List.replicate 9 0x30).take 9))
  | _ => none

/-- The moment that a text of the form `YYYY-MM-DDTHH:MM:SS[.fraction]` names; leading zeros may be
left out. -/
def ofIsoText? (s : String) : Option Moment := do
  let (year, rest) ← leadingYear? (Bytes.ofText s)
  let (month, rest) ← leadingNat? 2 (← after? 0x2d rest)
  let (day, rest) ← leadingNat? 2 (← after? 0x2d rest)
  let (hour, rest) ← leadingNat? 2 (← after? 0x54 rest)
  let (minute, rest) ← leadingNat? 2 (← after? 0x3a rest)
  let (second, rest) ← leadingNat? 2 (← after? 0x3a rest)
  ofParts? year month day hour minute second (← nanos? rest)

def epoch : Moment := ⟨⟨1970, by decide⟩, 1, 1, 0, 0, 0, 0⟩

/-- Year, month and day of a number of days after the first of January 1970. -/
def civilDate (days : Nat) : Nat × Nat × Nat :=
  -- Years are counted from March here, so that the leap day comes last; an era is 400 years.
  let z := days + 719468
  let era := z / 146097
  let dayOfEra := z % 146097
  let yearOfEra := (dayOfEra - dayOfEra / 1460 + dayOfEra / 36524 - dayOfEra / 146096) / 365
  let dayOfYear := dayOfEra - (365 * yearOfEra + yearOfEra / 4 - yearOfEra / 100)
  let shifted := (5 * dayOfYear + 2) / 153
  let day := dayOfYear - (153 * shifted + 2) / 5 + 1
  let month := if shifted < 10 then shifted + 3 else shifted - 9
  let year := yearOfEra + era * 400 + (if month ≤ 2 then 1 else 0)
  (year, month, day)

/-- The moment a number of seconds after the first of 1970; years past the last one count as it. -/
def ofUnixSeconds (seconds : Nat) : Moment :=
  let (year, month, day) := civilDate (seconds / 86400)
  { year := ⟨min (year : Int) 262142, by omega⟩
    month := Fin.ofNat 13 month
    day := Fin.ofNat 32 day
    hour := Fin.ofNat 24 (seconds / 3600)
    minute := Fin.ofNat 60 (seconds / 60)
    second := Fin.ofNat 61 (seconds % 60)
    nano := 0 }

end Moment

end IndexVault
