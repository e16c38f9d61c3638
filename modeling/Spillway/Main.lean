import Spillway.CommandLine

/-!
# The command

The outer layer of the command line: it looks at its surroundings, runs the command and prints.
-/

namespace Spillway
namespace CommandLine

/-- Adds a file to those that the command sees, if it can be read. -/
def addFile (files : FileTree) (path : String) : IO FileTree := do
  match ← (IO.FS.readBinFile path).toBaseIO with
  | .ok bytes => return files.withFile path bytes.toList
  | .error _ => return files

/-- The surroundings of the command, with the files that may hold its settings. -/
def surroundings (arguments : List String) : IO Environment := do
  let named ← IO.getEnv Environment.variableName
  let temporary := (← IO.getEnv "TMPDIR").getD "/tmp"
  let candidates := Environment.defaultFile :: named.toList ++ arguments
  let files ← candidates.foldlM addFile {}
  return { named, temporary, files }

end CommandLine
end Spillway

def main (arguments : List String) : IO UInt32 := do
  let environment ← Spillway.CommandLine.surroundings arguments
  let outcome := Spillway.CommandLine.run environment arguments
  outcome.output.forM IO.println
  outcome.errors.forM IO.eprintln
  return outcome.exitCode.toUInt32
