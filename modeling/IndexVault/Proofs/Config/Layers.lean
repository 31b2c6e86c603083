import IndexVault.Attempt
import IndexVault.Proofs.Config.Reload
import IndexVault.Proofs.Json.Layouts

/-! The layers of a configuration. Each of its settings comes from the environment if that says something
about it, else from the file if that gives it, and else from the defaults (`layers_in_order`); the file is
only ever written where there was none, and then it says the defaults alone. -/
namespace IndexVault.Config

open Json (CommaSeparated Layout Reader Recovers SpellsMember SpellsRecord SpellsString
  endsNumeral_of_blanks readBool readNatBelow readOptional readRecord readText recovers_bool skipBlank
  skipBlank_blanks spellsString_of_plain)

inductive Section where
  | server
  | database
  | indexes
  | tenancy
  | requestLog

namespace Section

abbrev Record : Section → Type
  | server => ServerConfig
  | database => DatabaseConfig
  | indexes => StorageConfig
  | tenancy => TenancyConfig
  | requestLog => LogConfig

def name : Section → String
  | server => "server"
  | database => "database"
  | indexes => "indexes"
  | tenancy => "tenancy"
  | requestLog => "request_log"

def get : (sec : Section) → Config → sec.Record
  | server, c => c.server
  | database, c => c.database
  | indexes, c => c.indexes
  | tenancy, c => c.tenancy
  | requestLog, c => c.requestLog

def set : (sec : Section) → Config → sec.Record → Config
  | server, c, r => { c with server := r }
  | database, c, r => { c with database := r }
  | indexes, c, r => { c with indexes := r }
  | tenancy, c, r => { c with tenancy := r }
  | requestLog, c, r => { c with requestLog := r }

/-- The fields that are read of a section. -/
def fields : (sec : Section) → List (Json.Field sec.Record)
  | server => serverFields
  | database => databaseFields
  | indexes => storageFields
  | tenancy => tenancyFields
  | requestLog => logFields

end Section

/-- The kinds of values that settings have. -/
inductive Kind where
  | text
  | optionalText
  | flag
  | port
  | count

namespace Kind

abbrev Value : Kind → Type
  | text => String
  | optionalText => Option String
  | flag => Bool
  | port => UInt16
  | count => UInt64

/-- What is read of a value: numbers are read as natural ones. -/
abbrev Raw : Kind → Type
  | text => String
  | optionalText => Option String
  | flag => Bool
  | port => Nat
  | count => Nat

def value : (k : Kind) → k.Raw → k.Value
  | text, s => s
  | optionalText, s => s
  | flag, on => on
  | port, n => UInt16.ofNat n
  | count, n => UInt64.ofNat n

def read : (k : Kind) → Reader k.Raw
  | text => readText
  | optionalText => readOptional readText
  | flag => readBool
  | port => readNatBelow UInt16.size
  | count => readNatBelow UInt64.size

/-- How a value of a kind is spelled: a text by a string, with `null` where there may be none, a flag by a
word, and a number by its digits. -/
def Spells : (k : Kind) → k.Value → Bytes → Prop
  | text, s, b => SpellsString b s
  | optionalText, none, b => b = Json.nullWord
  | optionalText, some s, b => SpellsString b s
  | flag, on, b => b = Json.boolWord on
  | port, n, b => b = Text.digits n.toNat
  | count, n, b => b = Text.digits n.toNat

end Kind

inductive Setting : Section → Type where
  | host : Setting .server
  | port : Setting .server
  | ipv6 : Setting .server
  | bodyLimit : Setting .server
  | staticDir : Setting .server
  | dataDir : Setting .database
  | dbFile : Setting .database
  | url : Setting .database
  | backend : Setting .indexes
  | indexesFile : Setting .indexes
  | multitenant : Setting .tenancy
  | identityDomain : Setting .tenancy
  | backendDomain : Setting .tenancy
  | tokenCacheSeconds : Setting .tenancy
  | logEnabled : Setting .requestLog
  | logFile : Setting .requestLog

namespace Setting

variable {sec : Section}

def name : Setting sec → String
  | host => "host"
  | port => "port"
  | ipv6 => "ipv6"
  | bodyLimit => "body_limit"
  | staticDir => "static_dir"
  | dataDir => "data_dir"
  | dbFile => "db_file"
  | url => "url"
  | backend => "backend"
  | indexesFile => "db_file"
  | multitenant => "multitenant"
  | identityDomain => "auth0_domain"
  | backendDomain => "backend_domain"
  | tokenCacheSeconds => "token_cache_seconds"
  | logEnabled => "enabled"
  | logFile => "file"

def kind : Setting sec → Kind
  | port => .port
  | bodyLimit | tokenCacheSeconds => .count
  | ipv6 | multitenant | logEnabled => .flag
  | url | identityDomain | backendDomain => .optionalText
  | host | staticDir | dataDir | dbFile | backend | indexesFile | logFile => .text

def get : (x : Setting sec) → sec.Record → x.kind.Value
  | host, c => c.host
  | port, c => c.port
  | ipv6, c => c.ipv6
  | bodyLimit, c => c.bodyLimit
  | staticDir, c => c.staticDir
  | dataDir, c => c.dataDir
  | dbFile, c => c.dbFile
  | url, c => c.url
  | backend, c => c.backend
  | indexesFile, c => c.dbFile
  | multitenant, c => c.multitenant
  | identityDomain, c => c.identityDomain
  | backendDomain, c => c.backendDomain
  | tokenCacheSeconds, c => c.tokenCacheSeconds
  | logEnabled, c => c.enabled
  | logFile, c => c.file

/-- Sets a setting to what was read for it. -/
def set : (x : Setting sec) → sec.Record → x.kind.Raw → sec.Record
  | host, c, v => { c with host := v }
  | port, c, v => { c with port := UInt16.ofNat v }
  | ipv6, c, v => { c with ipv6 := v }
  | bodyLimit, c, v => { c with bodyLimit := UInt64.ofNat v }
  | staticDir, c, v => { c with staticDir := v }
  | dataDir, c, v => { c with dataDir := v }
  | dbFile, c, v => { c with dbFile := v }
  | url, c, v => { c with url := v }
  | backend, c, v => { c with backend := v }
  | indexesFile, c, v => { c with dbFile := v }
  | multitenant, c, v => { c with multitenant := v }
  | identityDomain, c, v => { c with identityDomain := v }
  | backendDomain, c, v => { c with backendDomain := v }
  | tokenCacheSeconds, c, v => { c with tokenCacheSeconds := UInt64.ofNat v }
  | logEnabled, c, v => { c with enabled := v }
  | logFile, c, v => { c with file := v }

/-- A setting of a whole configuration. -/
def of (x : Setting sec) (c : Config) : x.kind.Value := x.get (sec.get c)

end Setting

attribute [ext] ServerConfig DatabaseConfig StorageConfig TenancyConfig LogConfig Config

/-- There is nothing to a section but its settings. -/
theorem Section.ext_get {sec : Section} {r r' : sec.Record} (h : ∀ x : Setting sec, x.get r = x.get r') :
    r = r' := by
  cases sec with
  | server =>
    exact ServerConfig.ext (h .host) (h .port) (h .ipv6) (h .bodyLimit) (h .staticDir)
  | database => exact DatabaseConfig.ext (h .dataDir) (h .dbFile) (h .url)
  | indexes => exact StorageConfig.ext (h .backend) (h .indexesFile)
  | tenancy =>
    exact TenancyConfig.ext (h .multitenant) (h .identityDomain) (h .backendDomain)
      (h .tokenCacheSeconds)
  | requestLog => exact LogConfig.ext (h .logEnabled) (h .logFile)

/-- There is nothing to a configuration but its settings. -/
theorem ext_of {c c' : Config} (h : ∀ (sec : Section) (x : Setting sec), x.of c = x.of c') :
    c = c' := by
  have hsection (sec : Section) : sec.get c = sec.get c' := Section.ext_get fun x => h sec x
  exact Config.ext (hsection .server) (hsection .database) (hsection .indexes) (hsection .tenancy)
    (hsection .requestLog)

namespace Kind

/-- A value of any kind is read from each of its spellings. -/
theorem recovers (k : Kind) {a : k.Value} {b : Bytes} (h : k.Spells a b) :
    ∃ r, Recovers k.read b r ∧ k.value r = a := by
  cases k with
  | text => exact ⟨a, Json.recovers_spelledText h, rfl⟩
  | optionalText =>
    -- a value left open is written as `null`, and any other as its text
    cases a with
    | none =>
      obtain rfl : b = Json.nullWord := h
      exact ⟨none, Json.recovers_optional_none readText, rfl⟩
    | some s =>
      have hstring : SpellsString b s := h
      obtain ⟨tail, htail⟩ := hstring.exists_cons
      exact ⟨some s, Json.recovers_optional_some (Json.recovers_spelledText hstring) htail (by decide),
        rfl⟩
  | flag =>
    obtain rfl : b = Json.boolWord a := h
    exact ⟨a, recovers_bool a, rfl⟩
  | port =>
    obtain rfl : b = Text.digits a.toNat := h
    exact ⟨a.toNat, recovers_port a, UInt16.ofNat_toNat⟩
  | count =>
    obtain rfl : b = Text.digits a.toNat := h
    exact ⟨a.toNat, recovers_count a, UInt64.ofNat_toNat⟩

end Kind

namespace Section

variable (sec : Section)

/-- The settings of a section, in the order in which they are written. -/
def settings : (sec : Section) → List (Setting sec)
  | server => [.host, .port, .ipv6, .bodyLimit, .staticDir]
  | database => [.dataDir, .dbFile, .url]
  | indexes => [.backend, .indexesFile]
  | tenancy => [.multitenant, .identityDomain, .backendDomain, .tokenCacheSeconds]
  | requestLog => [.logEnabled, .logFile]

def layout : Layout sec.Record (Setting sec) where
  Part x := x.kind.Value
  Raw x := x.kind.Raw
  name := Setting.name
  get := Setting.get
  set := Setting.set
  value x := x.kind.value
  read x := x.kind.read
  name_injective := by
    intro x y h
    cases x <;> cases y <;> first | rfl | exact absurd h (by decide)
  get_set := by
    intro x s a
    cases x <;> rfl
  get_set_of_ne := by
    -- Two settings of one section are two fields of its record.
    intro x y s a h
    cases x <;> cases y <;> first | rfl | exact absurd rfl h

theorem mem_settings (x : Setting sec) : x ∈ sec.settings := by
  cases x <;> simp [settings]

/-- What is read of a section are its settings. -/
theorem fields_eq : sec.fields = sec.settings.map sec.layout.field := by
  cases sec <;> rfl

end Section

/-- What a file gives: of each section that it holds, some of the settings. -/
abbrev Sections : Type := (sec : Section) → Option ((x : Setting sec) → Option x.kind.Value)

/-- The value that a file gives to a setting. -/
def Sections.given (sections : Sections) {sec : Section} (x : Setting sec) : Option x.kind.Value :=
  (sections sec).bind fun settings => settings x

/-- A section that gives some of its settings. -/
def SpellsSection (sec : Section) (settings : (x : Setting sec) → Option x.kind.Value) (b : Bytes) :
    Prop :=
  SpellsRecord Setting.name (fun x => x.kind.Spells) settings b

/-- The text of a file that gives some sections, which give some of their settings: at both levels an object
with its members in any order, no name repeated, and any values under names that are not known. -/
def SpellsConfig (sections : Sections) (content : Bytes) : Prop :=
  ∃ before b after, Json.AreBlanks before ∧ Json.AreBlanks after ∧
    SpellsRecord Section.name SpellsSection sections b ∧ content = before ++ (b ++ after) ∧ content.IsText

/-- A file that gives the port and says something unknown, with blanks here and there. -/
def portFile : Bytes := Bytes.ofText "\x7b \"x\":null, \"server\" :\x7b\"port\": 80 \x7d\x7d\n"

/-- The section of the port in that file, and what it gives. -/
def portSection : Bytes := Bytes.ofText "\x7b\"port\": 80 \x7d"

def portSettings : (x : Setting .server) → Option x.kind.Value
  | .port => some (80 : UInt16)
  | _ => none

def portSections : Sections
  | .server => some portSettings
  | _ => none

theorem spellsSection_port : SpellsSection .server portSettings portSection := by
  let part : Bytes := Bytes.ofText "\"port\": 80"
  have hdigits : Text.digits 80 = [0x38, 0x30] := by
    simp [Text.digits, Text.decimalDigit]
  have hpart : SpellsMember SpellsString part ("port", [0x38, 0x30]) :=
    ⟨_, [], [0x20], spellsString_of_plain (by decide), rfl, rfl, by decide⟩
  have hbody : CommaSeparated ([] ++ (part ++ [0x20])) [part] := .last rfl rfl
  refine ⟨[("port", [0x38, 0x30])], ⟨[part], ⟨_, by decide, .inr hbody⟩, .cons hpart .nil⟩, by decide,
    ?given, ?leftOut, ?other⟩
  case given =>
    intro x a hx
    cases x <;> cases hx
    exact ⟨_, List.mem_singleton_self _, hdigits.symm⟩
  case leftOut =>
    intro x hx
    cases x <;> first | decide | cases hx
  case other =>
    intro m hm hname
    rw [List.mem_singleton.1 hm] at hname
    exact absurd rfl (hname .port)

/-- This file gives the port and nothing else. -/
theorem spellsConfig_portFile : SpellsConfig portSections portFile := by
  let unknown : Bytes := Bytes.ofText "\"x\":null"
  let server : Bytes := Bytes.ofText "\"server\" :" ++ portSection
  -- a member of no section, whose value is read past
  have hunknown : SpellsMember SpellsString unknown ("x", Json.nullWord) :=
    ⟨_, [], [], spellsString_of_plain (by decide), rfl, rfl, by decide⟩
  have hserver : SpellsMember SpellsString server ("server", portSection) :=
    ⟨_, [0x20], [], spellsString_of_plain (by decide), rfl, rfl, by decide⟩
  have hlast : CommaSeparated ([0x20] ++ (server ++ [])) [server] := .last rfl rfl
  have hbody : CommaSeparated ([0x20] ++ (unknown ++ ([] ++ 0x2c :: ([0x20] ++ (server ++ [])))))
      [unknown, server] := .more rfl rfl hlast
  refine ⟨[], _, [0x0a], rfl, rfl, ⟨[("x", Json.nullWord), ("server", portSection)],
    ⟨[unknown, server], ⟨_, rfl, .inr hbody⟩, .cons hunknown (.cons hserver .nil)⟩, by decide, ?given,
    ?leftOut, ?other⟩, by decide, Bytes.isText_ofText _⟩
  case given =>
    intro sec settings hsec
    cases sec <;> cases hsec
    exact ⟨_, List.mem_cons_of_mem _ (List.mem_singleton_self _), spellsSection_port⟩
  case leftOut =>
    intro sec hsec
    cases sec <;> first | decide | cases hsec
  case other =>
    intro m hm hname
    rcases List.mem_cons.1 hm with rfl | hm
    · exact .word (Or.inl rfl)
    · rw [List.mem_singleton.1 hm] at hname
      exact absurd rfl (hname .server)

/-- A section as some settings make it, the others being the defaults. -/
def Completes (sec : Section) (settings : (x : Setting sec) → Option x.kind.Value) (r : sec.Record) :
    Prop :=
  ∀ x : Setting sec, x.get r = (settings x).getD (x.get (sec.get {}))

/-- A section is read from a file that gives some of its settings, and the others are the defaults. -/
theorem recovers_section {sec : Section} {settings : (x : Setting sec) → Option x.kind.Value} {b : Bytes}
    (h : SpellsSection sec settings b) :
    ∃ r, Recovers (readRecord sec.fields (sec.get {})) b r ∧ Completes sec settings r := by
  obtain ⟨r, hread, hsettings⟩ := sec.layout.recovers_spelled (fun _ a r => r = a)
    sec.mem_settings (fun x a v hv => x.kind.recovers hv) h (sec.get {})
  rw [← sec.fields_eq] at hread
  refine ⟨r, hread, fun x => ?_⟩
  cases hx : settings x with
  | none => exact (hsettings x).2 hx
  | some a => exact (hsettings x).1 a hx

/-- The sections as the parts of a configuration. -/
def layout : Layout Config Section where
  Part := Section.Record
  Raw := Section.Record
  name := Section.name
  get := Section.get
  set := Section.set
  value _ r := r
  read sec := readRecord sec.fields (sec.get {})
  name_injective := by
    intro sec sec' h
    cases sec <;> cases sec' <;> first | rfl | exact absurd h (by decide)
  get_set := by
    intro sec c r
    cases sec <;> rfl
  get_set_of_ne := by
    intro sec sec' c r h
    cases sec <;> cases sec' <;> first | rfl | exact absurd rfl h

def allSections : List Section := [.server, .database, .indexes, .tenancy, .requestLog]

/-- A configuration is read from a file that gives some of its settings, and the others are the defaults. -/
theorem exists_ofJsonText {sections : Sections} {content : Bytes} (h : SpellsConfig sections content) :
    ∃ c, ofJsonText content = .ok c ∧
      ∀ (sec : Section) (x : Setting sec), x.of c = (sections.given x).getD (x.of {}) := by
  obtain ⟨before, b, after, hbefore, hafter, hb, rfl, -⟩ := h
  have hall : ∀ sec, sec ∈ allSections := by
    intro sec
    cases sec <;> simp [allSections]
  obtain ⟨c, hread, hsections⟩ := layout.recovers_spelled Completes hall
    (fun sec settings v hv => recovers_section hv) hb {}
  refine ⟨c, ?_, ?_⟩
  · have hskip : skipBlank (after ++ []) = [] := skipBlank_blanks hafter []
    rw [List.append_nil] at hskip
    have hfields : fields = allSections.map layout.field := rfl
    rw [ofJsonText, Json.readWhole, hfields, hread before after hbefore (endsNumeral_of_blanks hafter)]
    simp only [hskip, List.isEmpty_nil, if_true]
  · intro sec x
    rw [Setting.of, Setting.of, Sections.given]
    cases hsec : sections sec with
    | none =>
      -- A section that the file leaves out is as it was in the defaults.
      have hsame : sec.get c = sec.get {} := (hsections sec).2 hsec
      rw [hsame]
      rfl
    | some settings => exact (hsections sec).1 settings hsec x

/-- What a variable says: the text that its bytes spell, unless that is empty. -/
def said (entry : Option Bytes) : Option String := (entry.bind Bytes.toText?).filter (· != "")

/-- A variable says something if it is set to a text that is not empty. -/
theorem said_eq_some_iff {entry : Option Bytes} {s : String} :
    said entry = some s ↔ entry = some (Bytes.ofText s) ∧ s ≠ "" := by
  rw [said, Option.filter_eq_some_iff, Option.bind_eq_some_iff, bne_iff_ne]
  constructor
  · rintro ⟨⟨b, hentry, hb⟩, hs⟩
    exact ⟨Bytes.toText?_eq_some_iff.1 hb ▸ hentry, hs⟩
  · rintro ⟨hentry, hs⟩
    exact ⟨⟨_, hentry, Bytes.toText?_ofText s⟩, hs⟩

/-- What the environment says about a setting. -/
def Setting.fromEnvironment (env : Environment Bytes) {sec : Section} :
    (x : Setting sec) → Option x.kind.Value
  | .url => (said env.databaseUrl).map some
  | .backend => said env.storageType
  | .identityDomain => (said env.identityDomain).map some
  | .backendDomain => (said env.backendDomain).map some
  | _ => none

/-- The configuration looks for variables that hold text, and then for those that are not empty. -/
theorem given_eq_said (entry : Option Bytes) : given (entry.bind Bytes.toText?) = said entry := by
  rw [given, said]
  congr 1
  funext s
  rw [Bool.eq_iff_iff, Bool.not_eq_true', bne_iff_ne, ← Bool.not_eq_true, String.isEmpty_iff]

/-- The environment gives the settings that it says something about, and leaves all others. -/
theorem of_override (c : Config) (env : Environment Bytes) {sec : Section} (x : Setting sec) :
    x.of (c.override env.texts) = (x.fromEnvironment env).getD (x.of c) := by
  have hover (entry : Option Bytes) (held : Option String) :
      (given (entry.bind Bytes.toText?)).or held = ((said entry).map some).getD held := by
    rw [given_eq_said]
    cases said entry <;> rfl
  -- The four settings that the environment can give; it leaves all others alone.
  cases x with
  | url => exact hover env.databaseUrl c.database.url
  | identityDomain => exact hover env.identityDomain c.tenancy.identityDomain
  | backendDomain => exact hover env.backendDomain c.tenancy.backendDomain
  | backend => exact congrArg (·.getD c.indexes.backend) (given_eq_said env.storageType)
  | _ => rfl

/-- Saves a configuration; a write that fails leaves the file as it was. -/
def saving (c : Config) : Attempt FilePlace ConfigFault Unit := ⟨fun file =>
  match c.save file with
  | .ok file' => (.ok (), file')
  | .error fault => (.error fault, file)⟩

/-- Reads a configuration from a file that is there. -/
def reading : Attempt FilePlace ConfigFault Config := do
  let file ← Attempt.state
  match file.readText with
  | .error fault => Attempt.fail (.unreadable fault)
  | .ok content =>
    match ofJsonText content with
    | .error _ => Attempt.fail .malformed
    | .ok c => pure c

/-- Starts on a file step by step: what was done to the file stays done when a later step fails. -/
def starting (env : Environment Bytes) : Attempt FilePlace ConfigFault Config := do
  let file ← Attempt.state
  let c ← if file.isThere then reading else do
    saving {}
    pure {}
  pure (c.override env.texts)

/-- Reading a file step by step is loading it, and leaves it as it is. -/
theorem run_reading (content : Bytes) :
    reading.run (.present content) =
      match load (.present content) with
      | .ok (c, file') => (.ok c, file')
      | .error fault => (.error fault, .present content) := by
  have hthere : FilePlace.isThere (.present content) = true := rfl
  have hstate : reading.run (.present content) = Attempt.run
      (match FilePlace.readText (.present content) with
        | .error fault => Attempt.fail (.unreadable fault)
        | .ok content =>
          match ofJsonText content with
          | .error _ => Attempt.fail .malformed
          | .ok c => pure c) (.present content) := Attempt.run_bind_of_ok rfl
  rw [hstate, load, if_pos hthere]
  cases FilePlace.readText (.present content) with
  | error fault => rfl
  | ok content' =>
    dsimp only
    cases ofJsonText content' <;> rfl

/-- Step by step the start does what it answers, and leaves the file as it was when it fails. -/
theorem run_starting (env : Environment Bytes) (file : FilePlace) :
    (starting env).run file =
      match startIn file env with
      | .ok (c, file') => (.ok c, file')
      | .error fault => (.error fault, file) := by
  -- Where there is no file to read, both sides are computed.
  cases file with
  | absent | missingParent | directory => rfl
  | present content =>
    have hread : (starting env).run (.present content) =
        (reading >>= fun c => pure (c.override env.texts)).run (.present content) := rfl
    have hrun := run_reading content
    rw [hread, startIn, start]
    cases hload : load (.present content) with
    | error fault =>
      rw [hload] at hrun
      rw [Attempt.run_bind_of_error hrun]
      rfl
    | ok found =>
      rw [hload] at hrun
      rw [Attempt.run_bind_of_ok hrun]
      rfl

/-- A run writes the file only where there was none. -/
theorem starting_leaves (env : Environment Bytes) {file : FilePlace} (h : file ≠ .absent) :
    ((starting env).run file).2 = file := by
  rw [run_starting, startIn, start]
  cases hload : load file with
  | error fault => rfl
  | ok found =>
    obtain ⟨c, file'⟩ := found
    rcases load_cases hload with ⟨-, -, -, -, hsame⟩ | ⟨habsent, -, -⟩
    · exact hsame.symm
    · exact absurd habsent h

/-- Every setting of a configuration that is loaded comes from the highest layer that says something about
it: the variables of the environment that are set to a text which is not empty, of which there are four,
then the file, whatever settings it gives and in whatever order, then the defaults; and its settings are all
there is to a configuration. The run does step by step what it answers, and it leaves a file that is there
as it is, also when it fails. A file that it makes says the defaults and nothing of the environment, so a
load without the environment finds the defaults. -/
theorem layers_in_order :
    (∀ (sections : Sections) (content : Bytes) (env : Environment Bytes),
      SpellsConfig sections content →
      ∃ c, startIn (.present content) env = .ok (c, .present content) ∧
        ∀ (sec : Section) (x : Setting sec),
          x.of c = ((x.fromEnvironment env).or (sections.given x)).getD (x.of {})) ∧
    (∀ entry s, said entry = some s ↔ entry = some (Bytes.ofText s) ∧ s ≠ "") ∧
    (∀ c c' : Config, (∀ (sec : Section) (x : Setting sec), x.of c = x.of c') → c = c') ∧
    (∀ env file, (starting env).run file =
      match startIn file env with
      | .ok (c, file') => (.ok c, file')
      | .error fault => (.error fault, file)) ∧
    (∀ env file, file ≠ .absent → ((starting env).run file).2 = file) ∧
    (∀ env, ∃ c, (starting env).run .absent = (.ok c, .present (toJsonText {})) ∧
      (∀ (sec : Section) (x : Setting sec), x.of c = (x.fromEnvironment env).getD (x.of {})) ∧
      load (.present (toJsonText {})) = .ok ({}, .present (toJsonText {}))) := by
  refine ⟨?layers, fun entry s => said_eq_some_iff, fun c c' => ext_of, run_starting,
    fun env file => starting_leaves env, ?created⟩
  case layers =>
    intro sections content env h
    obtain ⟨c, hread, hsettings⟩ := exists_ofJsonText h
    have htext : content.IsText := by
      obtain ⟨_, _, _, -, -, -, -, htext⟩ := h
      exact htext
    have hload : load (.present content) = .ok (c, .present content) :=
      load_present_eq_ok_iff.2 ⟨htext, hread, rfl⟩
    -- the file is read first, and then each value that the environment says is put over it
    refine ⟨c.override env.texts, ?_, fun sec x => ?_⟩
    · rw [startIn, start, hload]
      rfl
    · rw [of_override, hsettings]
      cases x.fromEnvironment env <;> rfl
  case created =>
    intro env
    have hsave : save {} .absent = .ok (.present (toJsonText {})) := rfl
    exact ⟨_, rfl, fun sec x => of_override {} env x, load_saved hsave⟩

/-- An environment in which one variable is empty and one holds a byte that is no text. -/
def partlyReadable : Environment Bytes where
  databaseUrl := some (Bytes.ofText "sqlite:a")
  storageType := some []
  identityDomain := some [0xff]

theorem layers_in_order_portInFile : SpellsConfig portSections portFile ∧
    ∃ c, startIn (.present portFile) partlyReadable = .ok (c, .present portFile) ∧
      Setting.port.of c = (80 : UInt16) ∧ Setting.url.of c = some "sqlite:a" ∧
      Setting.backend.of c = "sqlite" ∧ Setting.identityDomain.of c = none := by
  obtain ⟨c, hstart, hsettings⟩ :=
    layers_in_order.1 portSections portFile partlyReadable spellsConfig_portFile
  have hsaid : said (some (Bytes.ofText "sqlite:a")) = some "sqlite:a" :=
    said_eq_some_iff.2 ⟨rfl, by decide⟩
  have hurl : Setting.url.fromEnvironment partlyReadable = some (some "sqlite:a") :=
    congrArg (Option.map some) hsaid
  have hbackend : Setting.backend.fromEnvironment partlyReadable = none :=
    show said (some []) = none by decide
  have hdomain : Setting.identityDomain.fromEnvironment partlyReadable = none :=
    congrArg (Option.map some) (show said (some [0xff]) = none by decide)
  refine ⟨spellsConfig_portFile, c, hstart, hsettings .server .port, ?url, ?backend, ?domain⟩
  case url =>
    rw [hsettings, hurl]
    rfl
  case backend =>
    rw [hsettings, hbackend]
    rfl
  case domain =>
    rw [hsettings, hdomain]
    rfl

/-- An object with one member, whose name is one half of a character in two halves. -/
def halfNamed : Bytes := Bytes.ofText "\x7b\"\\ud800\": null\x7d"

/-- Two layers that are no text. An object whose only member has a name that is no text, and so is none of
the settings, is refused; and a variable that is set and not empty gives nothing if its bytes are no text. -/
theorem layers_without_text :
    Json.SpellsObject Json.SpellsUnitString halfNamed [([.code 0xd800], Json.nullWord)] ∧
      startIn (.present halfNamed) {} = .error .malformed ∧
      ∃ c, startIn .absent { databaseUrl := some [0xff] } = .ok (c, .present (toJsonText {})) ∧
        c.database.url = none := by
  let escape : Bytes := [0x5c, 0x75, 0x64, 0x38, 0x30, 0x30]
  let member : Bytes := 0x22 :: (escape ++ [0x22]) ++ 0x3a :: 0x20 :: Json.nullWord
  have hescape : Json.UnitEscape escape 0xd800 :=
    .digits (w := 13) (x := 8) (y := 0) (z := 0) (.inr ⟨.inr rfl, by decide, by decide⟩)
      (.inl ⟨rfl, by decide⟩) (.inl ⟨rfl, by decide⟩) (.inl ⟨rfl, by decide⟩)
  have hunits : Json.SpellsUnits (escape ++ []) [.code 0xd800] := .unit hescape .nil
  have hname : Json.SpellsUnitString (0x22 :: (escape ++ [0x22])) [.code 0xd800] :=
    ⟨escape, rfl, hunits⟩
  have hmember : SpellsMember Json.SpellsUnitString member ([.code 0xd800], Json.nullWord) :=
    ⟨_, [], [0x20], hname, rfl, rfl, rfl⟩
  have hbody : CommaSeparated ([] ++ (member ++ [])) [member] := .last rfl rfl
  have hfile : halfNamed = 0x7b :: ([] ++ (member ++ []) ++ [0x7d]) := by decide
  exact ⟨⟨[member], ⟨_, hfile, .inr hbody⟩, .cons hmember .nil⟩, by decide, _, rfl, by decide⟩

end IndexVault.Config
