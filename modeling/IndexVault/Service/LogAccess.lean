import IndexVault.Service.State

namespace IndexVault.LogAccess

def requestLog : Action RequestLog := do
  let s ← Attempt.state
  match s.log with
  | some log => pure log
  | none => Action.fail (.internal "request log is disabled")

/-- Makes the dates of later records start at a time in milliseconds. -/
def setTimeDiff (w : Surroundings) (time : String) : Action Http.Response := do
  match (Text.int? (Bytes.ofText time)).filter RequestLog.fitsInt64 with
  | none => Action.fail (.badRequest ("Cannot parse fake_time " ++ time))
  | some fake =>
    let log ← requestLog
    let log ← Action.ofResult (log.setFakeTime w.millis fake)
    Attempt.modify fun s => { s with log := some log }
    pure (.ok .null)

def read : Action Http.Response := do
  let log ← requestLog
  let lines ← Action.ofResult log.readAll
  pure (.ok (.array lines))

def reset : Action Http.Response := do
  let log ← requestLog
  let log ← Action.ofResult log.reset
  Attempt.modify fun s => { s with log := some log }
  pure (.text "OK" 200)

/-- Exports a whole table of an index, as it lies in the storage. -/
def exportTable (kind : TableKind) (publicId : String) : Action Http.Response := do
  let index ← Action.cachedIndex publicId
  let s ← Attempt.state
  let table ← Action.ofResult (s.storage.fetchAll index.id kind)
  pure (.ok (RequestLog.exportTable table))

end IndexVault.LogAccess
