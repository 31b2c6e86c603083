import IndexVault.Bytes
import IndexVault.FilePath

namespace IndexVault

structure ServerConfig where
  host : String := "0.0.0.0"
  port : UInt16 := 8080
  ipv6 : Bool := true
  bodyLimit : UInt64 := 50000000
  staticDir : String := "static"
  deriving DecidableEq, Repr

/-- Where the database of indexes lies; an address takes precedence over the file. -/
structure DatabaseConfig where
  dataDir : String := "data"
  dbFile : String := "database.sqlite"
  url : Option String := none
  deriving DecidableEq, Repr

structure StorageConfig where
  backend : String := "sqlite"
  dbFile : String := "indexes.sqlite"
  deriving DecidableEq, Repr

structure TenancyConfig where
  multitenant : Bool := false
  identityDomain : Option String := none
  backendDomain : Option String := none
  tokenCacheSeconds : UInt64 := 300
  deriving DecidableEq, Repr

structure LogConfig where
  enabled : Bool := false
  file : String := "requests.log"
  deriving DecidableEq, Repr

/-- The configuration of the service, with its defaults. -/
structure Config where
  server : ServerConfig := {}
  database : DatabaseConfig := {}
  indexes : StorageConfig := {}
  tenancy : TenancyConfig := {}
  requestLog : LogConfig := {}
  deriving DecidableEq, Repr

/-- The variables of an environment that give settings, each with what it holds if it is set: bytes in the
environment of a process, texts once they are read. -/
structure Environment (Value : Type := String) where
  databaseUrl : Option Value := none
  storageType : Option Value := none
  identityDomain : Option Value := none
  backendDomain : Option Value := none
  deriving DecidableEq, Repr

namespace Environment

/-- The variables whose values stand for something. -/
def filterMap {α β : Type} (f : α → Option β) (env : Environment α) : Environment β where
  databaseUrl := env.databaseUrl.bind f
  storageType := env.storageType.bind f
  identityDomain := env.identityDomain.bind f
  backendDomain := env.backendDomain.bind f

/-- The variables that can be read; one whose bytes are no text counts as one that is not set. -/
def texts (env : Environment Bytes) : Environment := env.filterMap Bytes.toText?

end Environment

namespace Config

def databaseUrl (c : Config) : String :=
  match c.database.url with
  | some url => url
  | none => "sqlite:" ++ joinPath c.database.dataDir c.database.dbFile ++ "?mode=rwc"

/-- The path of the database of encrypted tables. -/
def indexesPath (c : Config) : String :=
  joinPath c.database.dataDir c.indexes.dbFile

def requestLogPath (c : Config) : String :=
  joinPath c.database.dataDir c.requestLog.file

def bindAddress (c : Config) : String :=
  c.server.host ++ ":" ++ toString c.server.port.toNat

/-- A setting that is given and not empty. -/
def given (setting : Option String) : Option String :=
  setting.filter (!·.isEmpty)

/-- The configuration with the settings of the environment on top. -/
def override (c : Config) (env : Environment) : Config :=
  { c with
    database := { c.database with url := (given env.databaseUrl).or c.database.url }
    indexes := { c.indexes with backend := (given env.storageType).getD c.indexes.backend }
    tenancy :=
      { c.tenancy with
        identityDomain := (given env.identityDomain).or c.tenancy.identityDomain
        backendDomain := (given env.backendDomain).or c.tenancy.backendDomain } }

end Config

end IndexVault
