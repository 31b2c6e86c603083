import IndexVault.Config.Basic
import IndexVault.Json.Record

namespace IndexVault.Config

open Json (Value readBool readNatBelow readOptional readRecord readText)

/-- An optional text; the absent one is `null`. -/
def optionalText (s : Option String) : Value := .ofOption .text s

def serverJson (c : ServerConfig) : Value :=
  .object [("host", .text c.host), ("port", .nat c.port.toNat), ("ipv6", .bool c.ipv6),
    ("body_limit", .nat c.bodyLimit.toNat), ("static_dir", .text c.staticDir)]

/-- An absent address is left out. -/
def databaseJson (c : DatabaseConfig) : Value :=
  .object ([("data_dir", .text c.dataDir), ("db_file", .text c.dbFile)] ++
    (c.url.map fun url => ("url", Value.text url)).toList)

def storageJson (c : StorageConfig) : Value :=
  .object [("backend", .text c.backend), ("db_file", .text c.dbFile)]

def tenancyJson (c : TenancyConfig) : Value :=
  .object [("multitenant", .bool c.multitenant), ("auth0_domain", optionalText c.identityDomain),
    ("backend_domain", optionalText c.backendDomain),
    ("token_cache_seconds", .nat c.tokenCacheSeconds.toNat)]

def logJson (c : LogConfig) : Value :=
  .object [("enabled", .bool c.enabled), ("file", .text c.file)]

/-- The configuration in JSON, section by section. -/
def toJson (c : Config) : Value :=
  .object [("server", serverJson c.server), ("database", databaseJson c.database),
    ("indexes", storageJson c.indexes), ("tenancy", tenancyJson c.tenancy),
    ("request_log", logJson c.requestLog)]

def serverFields : List (Json.Field ServerConfig) :=
  [.setting "host" readText fun c v => { c with host := v },
   .setting "port" (readNatBelow UInt16.size) fun c v => { c with port := UInt16.ofNat v },
   .setting "ipv6" readBool fun c v => { c with ipv6 := v },
   .setting "body_limit" (readNatBelow UInt64.size) fun c v => { c with bodyLimit := UInt64.ofNat v },
   .setting "static_dir" readText fun c v => { c with staticDir := v }]

def databaseFields : List (Json.Field DatabaseConfig) :=
  [.setting "data_dir" readText fun c v => { c with dataDir := v },
   .setting "db_file" readText fun c v => { c with dbFile := v },
   .setting "url" (readOptional readText) fun c v => { c with url := v }]

def storageFields : List (Json.Field StorageConfig) :=
  [.setting "backend" readText fun c v => { c with backend := v },
   .setting "db_file" readText fun c v => { c with dbFile := v }]

def tenancyFields : List (Json.Field TenancyConfig) :=
  [.setting "multitenant" readBool fun c v => { c with multitenant := v },
   .setting "auth0_domain" (readOptional readText) fun c v => { c with identityDomain := v },
   .setting "backend_domain" (readOptional readText) fun c v => { c with backendDomain := v },
   .setting "token_cache_seconds" (readNatBelow UInt64.size) fun c v =>
     { c with tokenCacheSeconds := UInt64.ofNat v }]

def logFields : List (Json.Field LogConfig) :=
  [.setting "enabled" readBool fun c v => { c with enabled := v },
   .setting "file" readText fun c v => { c with file := v }]

def fields : List (Json.Field Config) :=
  [.setting "server" (readRecord serverFields {}) fun c v => { c with server := v },
   .setting "database" (readRecord databaseFields {}) fun c v => { c with database := v },
   .setting "indexes" (readRecord storageFields {}) fun c v => { c with indexes := v },
   .setting "tenancy" (readRecord tenancyFields {}) fun c v => { c with tenancy := v },
   .setting "request_log" (readRecord logFields {}) fun c v => { c with requestLog := v }]

/-- Reads a configuration. A text may leave out any section and any field; what it leaves out keeps its
default. -/
def ofJsonText (input : Bytes) : Except Json.Fault Config :=
  Json.readWhole (readRecord fields {}) input

def toJsonText (c : Config) : Bytes := (toJson c).pretty

end IndexVault.Config
