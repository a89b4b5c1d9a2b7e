import DualShell.Family

/-!
Settings supply what the command line leaves open: the family, the directories of an instance, and
how large a script may be. They are checked as a whole before anything is written, and a message
about a setting says under which names it can be set.
-/

namespace DualShell

inductive Setting where
  | defaultFamily
  | defaultHome
  | defaultLogDirectory
  | payloadLimit
  | failOnOversize
  deriving DecidableEq, Repr

namespace Setting

def all : List Setting :=
  [.defaultFamily, .defaultHome, .defaultLogDirectory, .payloadLimit, .failOnOversize]

def key : Setting → Text
  | .defaultFamily => "default_family"
  | .defaultHome => "default_instance_home"
  | .defaultLogDirectory => "default_log_dir"
  | .payloadLimit => "max_payload_bytes"
  | .failOnOversize => "fail_on_oversize"

def environmentName (setting : Setting) : Text := "SCRIPTGEN_" ++ Text.upper setting.key

def description : Setting → Text
  | .defaultFamily => "family"
  | .defaultHome => "instance home"
  | .defaultLogDirectory => "log directory"
  | .payloadLimit => "payload limit"
  | .failOnOversize => "oversize refusal"

def hint (setting : Setting) : Text :=
  "set " ++ setting.environmentName ++ " or " ++ setting.key ++ " in scriptgen.toml"

end Setting

structure Settings where
  /-- The name of the family for which scripts are written by default. -/
  defaultFamily : Text
  defaultHome : Option Text
  defaultLogDirectory : Option Text
  /-- The size in bytes above which a script is oversized. -/
  payloadLimit : Nat
  /-- Whether an oversized script is refused. -/
  failOnOversize : Bool
  deriving DecidableEq

inductive SettingsError where
  | unknownFamily (text : Text)
  | blankDirectory (setting : Setting)
  | zeroPayloadLimit
  deriving DecidableEq

def SettingsError.message : SettingsError → Text
  | .unknownFamily text =>
    "invalid configuration field: unknown family `" ++ text ++ "` (expected unix or windows): " ++
      Setting.defaultFamily.hint
  | .blankDirectory setting =>
    "invalid configuration field: " ++ setting.description ++ " must not be blank: " ++ setting.hint
  | .zeroPayloadLimit =>
    "invalid configuration field: " ++ Setting.payloadLimit.description ++
      " must be greater than zero: " ++ Setting.payloadLimit.hint

namespace Settings

def defaultPayloadLimit : Nat := 16384

def default : Settings := ⟨Family.unix.name, none, none, defaultPayloadLimit, false⟩

def family (settings : Settings) : Except SettingsError Family :=
  match Family.parse settings.defaultFamily with
  | .ok family => .ok family
  | .error e => .error (.unknownFamily e.text)

def checkDirectory (setting : Setting) : Option Text → Except SettingsError Unit
  | none => .ok ()
  | some directory =>
    if Text.isBlank directory then .error (.blankDirectory setting) else .ok ()

def validate (settings : Settings) : Except SettingsError Unit := do
  let _ ← settings.family
  checkDirectory .defaultHome settings.defaultHome
  checkDirectory .defaultLogDirectory settings.defaultLogDirectory
  if settings.payloadLimit = 0 then .error .zeroPayloadLimit else .ok ()

end Settings

end DualShell
