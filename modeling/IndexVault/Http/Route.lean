import IndexVault.Http.Message
import IndexVault.Tables
import IndexVault.Text.Percent

namespace IndexVault.Http

/-- The four signed requests on the tables of an index. -/
inductive Callback where
  | fetchEntries
  | fetchChains
  | upsertEntries
  | insertChains
  deriving DecidableEq, Repr

namespace Callback

/-- The last word of the path. -/
def name : Callback → String
  | fetchEntries => "fetch_entries"
  | fetchChains => "fetch_chains"
  | upsertEntries => "upsert_entries"
  | insertChains => "insert_chains"

def all : List Callback := [fetchEntries, fetchChains, upsertEntries, insertChains]

def ofName? (name : Bytes) : Option Callback :=
  all.find? fun c => Bytes.ofText c.name = name

def fetching : TableKind → Callback
  | .entries => fetchEntries
  | .chains => fetchChains

end Callback

/-- What a path leads to; parameters are as they are spelled. -/
inductive Route where
  | health
  | indexes
  | index (id : Bytes)
  | callback (c : Callback) (id : Bytes)
  | setTimeDiff (time : Bytes)
  | requestsLog
  | resetRequestsLog
  | exportTable (kind : TableKind) (id : Bytes)
  deriving DecidableEq

namespace Route

/-- The parts of a path between its slashes. -/
def segments : Bytes → List Bytes
  | 0x2f :: rest => Text.splitOnByte 0x2f rest
  | _ => []

def word (s : String) (segment : Bytes) : Bool := Bytes.ofText s == segment

/-- The route of a path, which is divided at its slashes before anything in it is decoded, so an encoded
slash is part of a parameter. The routes on the request log are there only when requests are logged. -/
def ofPath? (logged : Bool) (path : Bytes) : Option Route :=
  match segments path with
  | [a] =>
    if word "health" a then some .health
    else if word "indexes" a then some .indexes
    else if logged && word "requests_log" a then some .requestsLog
    else if logged && word "reset_requests_log" a then some .resetRequestsLog
    else none
  | [a, b] =>
    -- A parameter at the end of a path is not empty.
    if b.isEmpty then none
    else if word "indexes" a then some (.index b)
    else if logged && word "set_time_diff" a then some (.setTimeDiff b)
    else if logged && word "export_entries_for_index" a then some (.exportTable .entries b)
    else if logged && word "export_chains_for_index" a then some (.exportTable .chains b)
    else none
  | [a, b, c] =>
    if word "indexes" a then (Callback.ofName? c).map (.callback · b) else none
  | _ => none

/-- A parameter of a path as text. -/
def parameter? (spelled : Bytes) : Option String :=
  Bytes.toText? (Text.percentDecode spelled)

end Route

end IndexVault.Http
