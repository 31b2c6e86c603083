import IndexVault.Calendar.Moment

namespace IndexVault.Http

/-- A date and a time of day, before they are checked. Weekdays are counted from Monday, as 0. -/
structure Date where
  weekday : Nat
  year : Nat
  month : Nat
  day : Nat
  hour : Nat
  minute : Nat
  second : Nat
  deriving DecidableEq, Repr

namespace Date

def weekdays : List String :=
  ["Monday", "Tuesday", "Wednesday", "Thursday", "Friday", "Saturday", "Sunday"]

def shortWeekdays : List String := ["Mon", "Tue", "Wed", "Thu", "Fri", "Sat", "Sun"]

def months : List String :=
  ["Jan", "Feb", "Mar", "Apr", "May", "Jun", "Jul", "Aug", "Sep", "Oct", "Nov", "Dec"]

/-- The place of the word at the front of a text among some words, and the rest. -/
def word? (words : List String) (input : Bytes) : Option (Nat × Bytes) :=
  (words.findIdx? fun w => (Bytes.ofText w).isPrefixOf input).map fun i =>
    (i, input.drop (words.getD i "").utf8ByteSize)

/-- The rest of a text after an expected piece. -/
def skip? (piece : String) (input : Bytes) : Option Bytes :=
  if (Bytes.ofText piece).isPrefixOf input then some (input.drop piece.utf8ByteSize) else none

/-- A number of exactly `width` digits at the front of a text, then the rest. -/
def fixedNat? (width : Nat) (input : Bytes) : Option (Nat × Bytes) :=
  let found := input.take width
  if found.length = width && found.all Text.isDigit then
    some (Text.readNat found, input.drop width)
  else none

def time? (input : Bytes) : Option (Nat × Nat × Nat × Bytes) := do
  let (hour, rest) ← fixedNat? 2 input
  let (minute, rest) ← fixedNat? 2 (← skip? ":" rest)
  let (second, rest) ← fixedNat? 2 (← skip? ":" rest)
  pure (hour, minute, second, rest)

def atEnd? (input : Bytes) : Option Unit := if input.isEmpty then some () else none

/-- Reads the form `Sun, 06 Nov 1994 08:49:37 GMT`: a short weekday, then day, month and year between
blanks. -/
def ofFixedText? (input : Bytes) : Option Date := do
  let (weekday, rest) ← word? shortWeekdays input
  let (day, rest) ← fixedNat? 2 (← skip? ", " rest)
  let (month, rest) ← word? months (← skip? " " rest)
  let (year, rest) ← fixedNat? 4 (← skip? " " rest)
  let (hour, minute, second, rest) ← time? (← skip? " " rest)
  atEnd? (← skip? " GMT" rest)
  pure ⟨weekday, year, month + 1, day, hour, minute, second⟩

/-- The year that two digits stand for, from 1970 to 2069. -/
def ofShortYear (year : Nat) : Nat := if year < 70 then 2000 + year else 1900 + year

/-- Reads the form `Sunday, 06-Nov-94 08:49:37 GMT`: a whole weekday, then day, month and two digits of the
year between hyphens. -/
def ofHyphenText? (input : Bytes) : Option Date := do
  let (weekday, rest) ← word? weekdays input
  let (day, rest) ← fixedNat? 2 (← skip? ", " rest)
  let (month, rest) ← word? months (← skip? "-" rest)
  let (year, rest) ← fixedNat? 2 (← skip? "-" rest)
  -- Any one character stands between date and time.
  let (hour, minute, second, rest) ← time? (rest.drop 1)
  atEnd? (← skip? " GMT" rest)
  pure ⟨weekday, ofShortYear year, month + 1, day, hour, minute, second⟩

/-- Reads a day of two places, the first of which may be blank. -/
def blankedDay? : Bytes → Option (Nat × Bytes)
  | 0x20 :: rest => fixedNat? 1 rest
  | rest => fixedNat? 2 rest

/-- Reads the form `Sun Nov 6 08:49:37 1994`, which ends with the year. -/
def ofYearLastText? (input : Bytes) : Option Date := do
  let (weekday, rest) ← word? shortWeekdays input
  let (month, rest) ← word? months (← skip? " " rest)
  let (day, rest) ← blankedDay? (← skip? " " rest)
  let (hour, minute, second, rest) ← time? (← skip? " " rest)
  let (year, rest) ← fixedNat? 4 (← skip? " " rest)
  atEnd? rest
  pure ⟨weekday, year, month + 1, day, hour, minute, second⟩

/-- The number of leap years up to a year. -/
def leapYears (year : Nat) : Nat := year / 4 - year / 100 + year / 400

/-- The number of days in a year before a month. -/
def daysBeforeMonth (year month : Nat) : Nat :=
  ((List.range month).map fun m => if m = 0 then 0 else Moment.daysInMonth year m).foldl (· + ·) 0

/-- The days from the first of January 1970 up to a date. -/
def unixDays (d : Date) : Nat :=
  (d.year - 1970) * 365 + (leapYears (d.year - 1) - leapYears 1969) +
    daysBeforeMonth d.year d.month + (d.day - 1)

/-- The seconds from the first of January 1970 up to a date. -/
def unixSeconds (d : Date) : Nat :=
  ((d.unixDays * 24 + d.hour) * 60 + d.minute) * 60 + d.second

example : unixSeconds ⟨3, 1970, 1, 1, 0, 0, 0⟩ = 0 := by decide

/-- Whether the parts of a date make a time of the calendar from 1970 on, and its weekday is that of
the date. -/
def isValid (d : Date) : Bool :=
  -- The first of January 1970 was a Thursday.
  1970 ≤ d.year && 0 < d.day && d.day ≤ Moment.daysInMonth d.year d.month &&
    d.weekday == (d.unixDays + 3) % 7 && d.hour < 24 && d.minute < 60 && d.second < 60

def isBlank (b : UInt8) : Bool := b == 0x20 || (0x09 ≤ b && b ≤ 0x0d)

/-- The date that a header value spells, with blanks around it. -/
def ofBytes? (value : Bytes) : Option Date :=
  let input := ((value.dropWhile isBlank).reverse.dropWhile isBlank).reverse
  (ofFixedText? input <|> ofHyphenText? input <|> ofYearLastText? input).filter isValid

end Date

end IndexVault.Http
