import IndexVault.Bytes

namespace IndexVault.Http

/-- Whether a byte of a header value can be read as text: printable ASCII or a tab. -/
def isReadable (b : UInt8) : Bool :=
  b == 0x09 || (0x20 ≤ b && b ≤ 0x7e)

/-- The text of a header value, if all its bytes can be read. -/
def headerText? (value : Bytes) : Option String :=
  if value.all isReadable then some (String.ofList (value.map fun x => Char.ofNat x.toNat))
  else none

/-- A blank of a header value: a space or a tab. -/
def isBlank (b : UInt8) : Bool := b == 0x20 || b == 0x09

/-- A piece of a header value without the blanks at either end. -/
def trimBlanks (b : Bytes) : Bytes :=
  ((b.dropWhile isBlank).reverse.dropWhile isBlank).reverse

end IndexVault.Http
