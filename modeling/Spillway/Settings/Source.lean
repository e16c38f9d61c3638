import Spillway.FileTree
import Spillway.Settings.Settings
import Spillway.Spill.LocalStore
import Spillway.Spill.Spiller
import Spillway.Text.Utf8

/-!
# Where settings come from

A process reads its settings once, from a file: one that it is told, or the one that an environment
variable names, or one of a fixed name in the working directory. The first that can be read counts from
then on. Until there is one, whoever asks for a setting tries again, and goes by the defaults if that
fails.
-/

namespace Spillway

/-- Why there are no settings. -/
inductive SettingsFault where
  | missing
  | unreadable (path cause : String)
  | malformed (path : String)
  deriving DecidableEq, Repr

namespace SettingsFault

/-- What failed. -/
def message : SettingsFault → String
  | missing => "missing config file: set $GRACEFLOW_CONFIG or create ./graceflow.toml"
  | unreadable path _ => "read config file: " ++ path
  | malformed path => "parse toml: " ++ path

/-- What failed, and why where a cause is known. -/
def fullMessage : SettingsFault → String
  | unreadable path cause => (unreadable path cause).message ++ ": " ++ cause
  | fault => fault.message

end SettingsFault

/-- The surroundings of a process as far as its settings go: the file that the environment variable names,
the directory for temporary files, the files that it sees, and the settings once they are read. -/
structure Environment where
  named : Option String := none
  temporary : String := "/tmp"
  files : FileTree
  settings : Option Settings := none

namespace Environment

/-- Name of the settings file in the working directory. -/
def defaultFile : String := "graceflow.toml"

/-- Name of the environment variable. -/
def variableName : String := "GRACEFLOW_CONFIG"

/-- The text of a file. -/
def readText (files : FileTree) (path : String) : Except SettingsFault String :=
  match files.read path with
  | .error fault => .error (.unreadable path fault.message)
  | .ok bytes =>
    match Text.decodeUtf8 bytes with
    | .ok text => .ok text
    | .error _ => .error (.unreadable path "stream did not contain valid UTF-8")

/-- The settings in a file. -/
def load (files : FileTree) (path : String) : Except SettingsFault Settings := do
  let text ← readText files path
  match Settings.parse text with
  | some settings => return settings
  | none => throw (.malformed path)

/-- The file that holds the settings when none is named. A variable of blanks counts as unset. -/
def settingsFile (environment : Environment) : Except SettingsFault String :=
  match environment.named.filter fun path => Text.trim path ≠ "" with
  | some path => .ok path
  | none =>
    if environment.files.reaches defaultFile then .ok defaultFile else .error .missing

/-- The settings, read from a file unless they are read already. -/
def readFrom (environment : Environment) (path : String) : Except SettingsFault (Settings × Environment) :=
  match environment.settings with
  | some settings => .ok (settings, environment)
  | none => do
    let settings ← load environment.files path
    return (settings, { environment with settings := some settings })

/-- The settings, read from where they are expected unless they are read already. -/
def read (environment : Environment) : Except SettingsFault (Settings × Environment) :=
  match environment.settings with
  | some settings => .ok (settings, environment)
  | none => do environment.readFrom (← environment.settingsFile)

/-- The settings that somebody who asks for one goes by. -/
def current (environment : Environment) : Settings × Environment :=
  match environment.read with
  | .ok found => found
  | .error _ => ({}, environment)

/-- Asks for the settings. -/
def ask : Step Environment Settings := fun environment =>
  let (settings, environment) := environment.current
  (.ok settings, environment)

/-- Opens the spiller that the settings describe and makes its directories. -/
def openSpiller : Step Environment Spiller := do
  let settings ← ask
  let plan ← Step.ofExcept (settings.spillPlan (← get).temporary)
  let store ← Step.ofExcept (LocalStore.start plan.directories (← get).files)
  modify fun environment => { environment with files := store.files }
  let spiller : Spiller := { compression := plan.compression }
  return spiller.withBlockSize plan.blockSize

end Environment
end Spillway
