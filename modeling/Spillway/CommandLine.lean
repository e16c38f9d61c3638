import Spillway.Demo

/-!
# Command line

The command runs the demonstration. Its options name a settings file and a memory limit. What it prints
and its exit code are a function of its arguments and its surroundings.
-/

namespace Spillway
namespace CommandLine

/-- What the command was asked for. -/
structure Options where
  settingsFile : Option String := none
  memLimit : Option Nat := none
  deriving DecidableEq, Repr

/-- Why the arguments ask for no run. -/
inductive Refusal where
  | help
  | missingFile
  | badMemLimit
  | unknown (argument : String)
  deriving DecidableEq, Repr

/-- What the command does: the lines it prints and its exit code. -/
structure Outcome where
  exitCode : Nat
  output : List String := []
  errors : List String := []
  deriving DecidableEq, Repr

/-- What the command does instead of running. -/
def Refusal.outcome : Refusal → Outcome
  | help => {
    exitCode := 0
    errors := [
      "Usage: graceflow [--config <path>] [--mem-limit <bytes>]",
      "  Runs a skewed partitioned join that spills under the memory limit",
      "  and feeds its runtime filter to the probe-side scan."] }
  | missingFile => { exitCode := 1, errors := ["missing value for --config/-c"] }
  | badMemLimit => { exitCode := 1, errors := ["--mem-limit/-m expects a byte count"] }
  | unknown argument =>
    { exitCode := 1, errors := ["unknown arg: " ++ argument ++ " (try --help)"] }

/-- Reads the arguments from left to right, up to the first that is refused. Of two options of one kind
the later counts. -/
def parse (options : Options) : List String → Except Refusal Options
  | [] => .ok options
  | argument :: rest =>
    if argument = "--config" ∨ argument = "-c" then
      match rest with
      | [] => .error .missingFile
      | file :: rest => parse { options with settingsFile := some file } rest
    else if argument = "--mem-limit" ∨ argument = "-m" then
      match rest with
      | [] => .error .badMemLimit
      | limit :: rest =>
        match Text.parseUnsigned 10 UInt64.size limit with
        | .ok limit => parse { options with memLimit := some limit } rest
        | .error _ => .error .badMemLimit
    else if argument = "--help" ∨ argument = "-h" then .error .help
    else .error (.unknown argument)

/-- The settings for a run. A file that is named has to be read; any other is done without. -/
def settingsFor (options : Options) (environment : Environment) :
    Except SettingsFault (Settings × Environment) :=
  match options.settingsFile with
  | some file => environment.readFrom file
  | none => .ok environment.current

/-- Runs the command. -/
def run (environment : Environment) (arguments : List String) : Outcome :=
  match parse {} arguments with
  | .error refusal => refusal.outcome
  | .ok options =>
    match settingsFor options environment with
    | .error fault =>
      { exitCode := 1, errors := ["load graceflow config failed: " ++ fault.fullMessage] }
    | .ok (settings, environment) =>
      let memLimit := options.memLimit.getD (min settings.runtime.memLimit Demo.memLimit)
      match (Demo.run settings memLimit).run? environment with
      | .ok (output, _) => { exitCode := 0, output }
      | .error status => { exitCode := 1, errors := ["graceflow: " ++ status.render] }

end CommandLine
end Spillway
