import IndexVault.SortedMap
import IndexVault.Text.Hex
import IndexVault.Wire.Error

namespace IndexVault

/-- The identifier of a table line: 32 bytes, ordered byte by byte. -/
structure Uid where
  bytes : Bytes
  length_eq : bytes.length = 32
  deriving DecidableEq

namespace Uid

theorem ext_bytes {a b : Uid} (h : a.bytes = b.bytes) : a = b := by
  cases a
  cases b
  cases h
  rfl

instance : Ord Uid := ⟨fun a b => compare a.bytes b.bytes⟩

instance : Std.TransOrd Uid where
  eq_swap := Std.OrientedCmp.eq_swap (α := Bytes)
  isLE_trans := Std.TransCmp.isLE_trans (α := Bytes)

instance : Std.LawfulEqOrd Uid where
  compare_self := Std.ReflCmp.compare_self (α := Bytes)
  eq_of_compare h := ext_bytes (Std.LawfulEqCmp.eq_of_compare (α := Bytes) h)

/-- The identifier that repeats one byte. -/
def repeating (b : UInt8) : Uid := ⟨.replicate 32 b, List.length_replicate⟩

/-- Bytes as an identifier; they have to be 32. -/
def ofBytes (b : Bytes) : Except PayloadError Uid :=
  if h : b.length = 32 then .ok ⟨b, h⟩ else .error (.uidLength 32 b.length)

/-- Bytes become an identifier only as the bytes of it. -/
theorem ofBytes_eq_ok_iff {b : Bytes} {u : Uid} : ofBytes b = .ok u ↔ u.bytes = b := by
  unfold ofBytes
  split
  · constructor
    · intro h
      cases h
      rfl
    · intro h
      exact congrArg _ (ext_bytes h.symm)
  · rename_i hb
    constructor
    · intro h
      cases h
    · intro h
      exact absurd (h ▸ u.length_eq) hb

/-- The abbreviated form for messages: the first eight bytes. -/
def shortText (u : Uid) : String :=
  let shown := (Text.hex (u.bytes.take 8)).map fun x => Char.ofNat x.toNat
  "Uid(" ++ String.ofList shown ++ "..)"

end Uid

end IndexVault
