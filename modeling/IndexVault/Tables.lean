import IndexVault.Uid

namespace IndexVault

/-- The two encrypted tables of an index. The server never looks inside a value. -/
inductive TableKind where
  | entries
  | chains
  deriving DecidableEq, Repr

namespace TableKind

/-- The number of a table in storage; it never changes. -/
def tag : TableKind → Nat
  | entries => 0
  | chains => 1

def name : TableKind → String
  | entries => "entries"
  | chains => "chains"

theorem tag_injective {t t' : TableKind} (h : t.tag = t'.tag) : t = t' := by
  cases t <;> cases t' <;> first | rfl | cases h

end TableKind

/-- The identifiers that a fetch asks for. -/
abbrev UidSet := SortedMap Uid Unit

/-- Encrypted values by identifier. -/
abbrev EncryptedTable := SortedMap Uid Bytes

/-- How many bytes the values of some lines take. -/
def valueBytes : List (Uid × Bytes) → Nat
  | [] => 0
  | line :: rest => line.2.length + valueBytes rest

/-- A compare-and-swap on one line: `old` is the value last seen, `none` for a line believed new. -/
structure UpsertLine where
  old : Option Bytes
  new : Bytes
  deriving DecidableEq, Repr

/-- A batch of compare-and-swaps by identifier. -/
abbrev UpsertData := SortedMap Uid UpsertLine

def UidSet.ofUids (uids : List Uid) : UidSet :=
  SortedMap.ofList (uids.map fun u => (u, ()))

end IndexVault
