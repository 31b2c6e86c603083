import IndexVault.Config.Json
import IndexVault.FilePlace

namespace IndexVault

/-- Why no configuration is loaded. -/
inductive ConfigFault where
  | unreadable (fault : FileFault)
  | malformed
  | unwritable (fault : FileFault)
  deriving DecidableEq, Repr

def ConfigFault.message : ConfigFault → String
  | unreadable fault => s!"Failed to read config file: {fault.message}"
  | malformed => "Failed to parse config file"
  | unwritable fault => s!"Failed to write config file: {fault.message}"

namespace Config

def save (c : Config) (file : FilePlace) : Except ConfigFault FilePlace :=
  match file.write c.toJsonText with
  | .ok file => .ok file
  | .error fault => .error (.unwritable fault)

/-- Loads the configuration from its file, which is made with the defaults when it is absent; answers the
file as it is left. -/
def load (file : FilePlace) : Except ConfigFault (Config × FilePlace) :=
  if file.isThere then
    match file.readText with
    | .error fault => .error (.unreadable fault)
    | .ok content =>
      match ofJsonText content with
      | .error _ => .error .malformed
      | .ok c => .ok (c, file)
  else (save {} file).map fun file => ({}, file)

/-- The configuration at start: the file's, with the settings of the environment on top. -/
def start (file : FilePlace) (env : Environment) : Except ConfigFault (Config × FilePlace) :=
  (load file).map fun (c, file) => (c.override env, file)

/-- The configuration at start in the environment of a process. -/
def startIn (file : FilePlace) (env : Environment Bytes) :
    Except ConfigFault (Config × FilePlace) :=
  start file env.texts

end Config

end IndexVault
