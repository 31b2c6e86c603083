import IndexVault.SortedMap.VisitOrder
import IndexVault.Tables
import IndexVault.Wire.Read

/-! The three payloads of callbacks. Each is a count and that many lines: an identifier alone, an
identifier with a value, or an identifier with an old and a new value, where an empty old value
stands for none. -/
namespace IndexVault.Wire

open SortedMap (VisitOrder)

def readLines {β : Type} (readLine : Read (Uid × β)) : Nat → Read (List (Uid × β))
  | 0 => pure []
  | count + 1 => do
    let line ← readLine
    let lines ← readLines readLine count
    pure (line :: lines)

def readPayloadLines {β : Type} (readLine : Read (Uid × β)) (input : Bytes) :
    Except PayloadError (List (Uid × β)) :=
  match (readNumber >>= readLines readLine).run input with
  | (.ok lines, rest) => (finish rest).map fun _ => lines
  | (.error e, _) => .error e

/-- Reads a whole payload; the last line of a repeated identifier stays. -/
def readPayload {β : Type} (readLine : Read (Uid × β)) (input : Bytes) :
    Except PayloadError (SortedMap Uid β) :=
  (readPayloadLines readLine input).map SortedMap.ofList

/-- The payload of some lines, in the order given. -/
def writePayload {β : Type} (writeLine : Uid × β → Bytes) (lines : List (Uid × β)) : Bytes :=
  leb128 lines.length ++ lines.flatMap writeLine

def readUidLine : Read (Uid × Unit) := do
  let uid ← readUid
  pure (uid, ())

def readValueLine : Read (Uid × Bytes) := do
  let uid ← readUid
  let value ← readBlob
  pure (uid, value)

/-- The value that a written old value stands for. -/
def oldValue (b : Bytes) : Option Bytes :=
  if b.isEmpty then none else some b

def readUpsertLine : Read (Uid × UpsertLine) := do
  let uid ← readUid
  let old ← readBlob
  let new ← readBlob
  pure (uid, ⟨oldValue old, new⟩)

def writeUidLine (line : Uid × Unit) : Bytes :=
  line.1.bytes

def writeValueLine (line : Uid × Bytes) : Bytes :=
  line.1.bytes ++ blob line.2

def writeUpsertLine (line : Uid × UpsertLine) : Bytes :=
  line.1.bytes ++ blob (line.2.old.getD []) ++ blob line.2.new

def readUidSet (input : Bytes) : Except PayloadError UidSet :=
  readPayload readUidLine input

def readTable (input : Bytes) : Except PayloadError EncryptedTable :=
  readPayload readValueLine input

def readUpsertData (input : Bytes) : Except PayloadError UpsertData :=
  readPayload readUpsertLine input

/-- The payload of a set, in the order in which its identifiers are visited. -/
def writeUidSet (uids : UidSet) (order : VisitOrder Uid := .ascending) : Bytes :=
  writePayload writeUidLine (order.lines uids)

/-- The payload of a table, in the order in which its lines are visited. -/
def writeTable (table : EncryptedTable) (order : VisitOrder Uid := .ascending) : Bytes :=
  writePayload writeValueLine (order.lines table)

/-- The payload of a batch, in the order in which its lines are visited. -/
def writeUpsertData (data : UpsertData) (order : VisitOrder Uid := .ascending) : Bytes :=
  writePayload writeUpsertLine (order.lines data)

end IndexVault.Wire
