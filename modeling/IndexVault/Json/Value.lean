import IndexVault.SortedMap
import IndexVault.Text.Decimal
import IndexVault.Text.Hex

namespace IndexVault.Json

/-- A number: a whole one, or a signed decimal `mantissa * 10 ^ exponent`. -/
inductive Number where
  | whole (n : Int)
  | decimal (negative : Bool) (mantissa : Nat) (exponent : Int)
  deriving DecidableEq, Repr

/-- A JSON value. The members of an object keep their order. -/
inductive Value where
  | null
  | bool (b : Bool)
  | number (n : Number)
  | text (s : String)
  | array (items : List Value)
  | object (members : List (String × Value))
  deriving Repr

def Value.nat (n : Nat) : Value := .number (.whole n)

def Value.int (n : Int) : Value := .number (.whole n)

/-- An object whose members stand in the order of their names. -/
def Value.ofMap (members : SortedMap String Value) : Value := .object members.toList

/-- An optional value; the absent one is `null`. -/
def Value.ofOption {α : Type} (f : α → Value) : Option α → Value
  | none => .null
  | some a => f a

/-- How a byte of a string is written: a quote, a backslash and the control characters are
escaped. -/
def escapeByte (b : UInt8) : Bytes :=
  if b == 0x22 then [0x5c, 0x22]
  else if b == 0x5c then [0x5c, 0x5c]
  else if b == 0x08 then [0x5c, 0x62]
  else if b == 0x09 then [0x5c, 0x74]
  else if b == 0x0a then [0x5c, 0x6e]
  else if b == 0x0c then [0x5c, 0x66]
  else if b == 0x0d then [0x5c, 0x72]
  else if b < 0x20 then
    [0x5c, 0x75, 0x30, 0x30, Text.hexDigit (b.toNat / 16), Text.hexDigit (b.toNat % 16)]
  else [b]

def quoted (s : String) : Bytes :=
  0x22 :: (Bytes.ofText s).flatMap escapeByte ++ [0x22]

def Number.written : Number → Bytes
  | whole n => Text.signedDigits n
  | decimal negative mantissa exponent =>
    (if negative then [0x2d] else []) ++ Text.digits mantissa ++ 0x65 :: Text.signedDigits exponent

def trueWord : Bytes := [0x74, 0x72, 0x75, 0x65]

def falseWord : Bytes := [0x66, 0x61, 0x6c, 0x73, 0x65]

def nullWord : Bytes := [0x6e, 0x75, 0x6c, 0x6c]

def boolWord (b : Bool) : Bytes := if b then trueWord else falseWord

def joined (sep : Bytes) : List Bytes → Bytes
  | [] => []
  | [piece] => piece
  | piece :: pieces => piece ++ sep ++ joined sep pieces

mutual

/-- A value without blanks. -/
def Value.compact : Value → Bytes
  | .null => nullWord
  | .bool b => boolWord b
  | .number n => n.written
  | .text s => quoted s
  | .array items => 0x5b :: joined [0x2c] (compactItems items) ++ [0x5d]
  | .object members => 0x7b :: joined [0x2c] (compactMembers members) ++ [0x7d]

def compactItems : List Value → List Bytes
  | [] => []
  | v :: rest => v.compact :: compactItems rest

def compactMembers : List (String × Value) → List Bytes
  | [] => []
  | (name, v) :: rest => (quoted name ++ 0x3a :: v.compact) :: compactMembers rest

end

/-- A line break and two blanks for every level of nesting. -/
def lineBreak (level : Nat) : Bytes :=
  0x0a :: List.replicate (2 * level) 0x20

mutual

/-- A value with one item or member a line, as it stands at a level of nesting. -/
def Value.prettyAt (level : Nat) : Value → Bytes
  | .null => nullWord
  | .bool b => boolWord b
  | .number n => n.written
  | .text s => quoted s
  | .array [] => [0x5b, 0x5d]
  | .array (v :: rest) =>
    0x5b :: lineBreak (level + 1) ++
      joined (0x2c :: lineBreak (level + 1)) (prettyItems (level + 1) (v :: rest)) ++
      lineBreak level ++ [0x5d]
  | .object [] => [0x7b, 0x7d]
  | .object (m :: rest) =>
    0x7b :: lineBreak (level + 1) ++
      joined (0x2c :: lineBreak (level + 1)) (prettyMembers (level + 1) (m :: rest)) ++
      lineBreak level ++ [0x7d]

def prettyItems (level : Nat) : List Value → List Bytes
  | [] => []
  | v :: rest => v.prettyAt level :: prettyItems level rest

def prettyMembers (level : Nat) : List (String × Value) → List Bytes
  | [] => []
  | (name, v) :: rest =>
    (quoted name ++ 0x3a :: 0x20 :: v.prettyAt level) :: prettyMembers level rest

end

/-- A value with one item or member a line. -/
def Value.pretty (v : Value) : Bytes := v.prettyAt 0

end IndexVault.Json
