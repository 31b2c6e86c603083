import IndexVault.FilePlace
import IndexVault.Json.Tree
import IndexVault.Tables
import IndexVault.Text.Base64
import IndexVault.Text.Blank

/-! The log of fetch requests: a file with one JSON object a line. Dates can be shifted, so that a
client chooses where time starts while the gaps between requests stay real. -/
namespace IndexVault

/-- A log: its file, and real time minus fake time in milliseconds. -/
structure RequestLog where
  file : FilePlace := .absent
  shift : Int := 0

namespace RequestLog

/-- Whether a number fits 64 bits with a sign. -/
def fitsInt64 (n : Int) : Bool :=
  Int64.minValue.toInt ≤ n && n ≤ Int64.maxValue.toInt

/-- Makes the dates of later records start at `fake`; `now` is the real time. -/
def setFakeTime (log : RequestLog) (now fake : Int) : Except Failure RequestLog :=
  if fitsInt64 (now - fake) then .ok { log with shift := now - fake }
  else .error (.badRequest s!"fake_time {fake} out of range")

/-- The date of a record made now. -/
def date (log : RequestLog) (now : Int) : Except Failure Int :=
  if fitsInt64 (now - log.shift) then .ok (now - log.shift)
  else .error (.badRequest "fake time overflows the request date")

/-- A table in JSON: identifiers and values in base 64. -/
def exportTable (table : EncryptedTable) : Json.Value :=
  .ofMap (.ofList (table.toList.map fun line =>
    (Text.base64Text line.1.bytes, .text (Text.base64Text line.2))))

/-- What was found for each requested identifier; `null` stands for no stored line. -/
def recordData (uids : UidSet) (found : EncryptedTable) : Json.Value :=
  .ofMap (.ofList (uids.keys.map fun uid =>
    (Text.base64Text uid.bytes, .ofOption (fun v => .text (Text.base64Text v)) (found.get? uid))))

def recordJson (date : Int) (kind : TableKind) (uids : UidSet) (found : EncryptedTable) :
    Json.Value :=
  .object [("data", recordData uids found), ("date", .int date),
    ("type", .text ("fetch_" ++ kind.name))]

/-- The log with its file changed, unless the change fails. -/
def withFile (log : RequestLog) (file : Except FileFault FilePlace) : Except Failure RequestLog :=
  match file with
  | .ok file => .ok { log with file := file }
  | .error fault => .error (.file fault)

/-- Records a fetch as one line. -/
def record (log : RequestLog) (now : Int) (kind : TableKind) (uids : UidSet)
    (found : EncryptedTable) : Except Failure RequestLog := do
  let date ← log.date now
  log.withFile (log.file.append ((recordJson date kind uids found).compact ++ [0x0a]))

def splitLines : Bytes → List Bytes
  | [] => [[]]
  | b :: rest =>
    if b == 0x0a then [] :: splitLines rest
    else
      match splitLines rest with
      | [] => [[b]]
      | line :: lines => (b :: line) :: lines

/-- Whether a line holds blanks only. -/
def isBlankLine (line : Bytes) : Bool :=
  match Bytes.toText? line with
  | some s => s.toList.all Text.isBlank
  | none => false

def readLine (line : Bytes) : Except Failure Json.Value :=
  match Json.readValue line with
  | some v => .ok v
  | none => .error (.internal "corrupted request log")

/-- The values of all lines that are not blank. -/
def readContent (content : Bytes) : Except Failure (List Json.Value) :=
  ((splitLines content).filter (!isBlankLine ·)).mapM readLine

/-- All records. -/
def readAll (log : RequestLog) : Except Failure (List Json.Value) :=
  match log.file.readText with
  | .ok content => readContent content
  -- Nothing was recorded yet, or the file was removed.
  | .error .notFound => .ok []
  | .error fault => .error (.file fault)

/-- Removes the file; an absent one is fine. -/
def reset (log : RequestLog) : Except Failure RequestLog :=
  log.withFile log.file.remove

/-- The failure of a task on the log that broke off. -/
def taskFailed : Failure := .internal "request log task failed"

/-- Records a fetch in a task of its own: the log it leaves, and what it came to. A task that breaks off
may leave anything in place of the file. -/
def recordTask (log : RequestLog) (broken : Option FilePlace) (now : Int) (kind : TableKind)
    (uids : UidSet) (found : EncryptedTable) : RequestLog × Except Failure Unit :=
  match broken with
  | some left => ({ log with file := left }, .error taskFailed)
  | none =>
    match log.record now kind uids found with
    | .ok log' => (log', .ok ())
    | .error e => (log, .error e)

end RequestLog

end IndexVault
