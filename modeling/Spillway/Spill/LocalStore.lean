import Spillway.FileTree
import Spillway.Status

/-!
# Blocks in local directories

A store that keeps every block in a file of its own. New blocks are dealt out to its directories in turn,
and like any store it never overwrites a block.
-/

namespace Spillway

/-- A store of blocks in directories, of which there is at least one. -/
structure LocalStore where
  directories : List String
  drawn : Nat := 0
  files : FileTree
  directories_ne_nil : directories ≠ []

namespace LocalStore

/-- Makes the directories, in order. -/
def makeAll (files : FileTree) : List String → Except Status FileTree
  | [] => .ok files
  | directory :: rest =>
    if directory = "" then .error (.invalidArgument "spill.local_dirs contains empty path")
    else
      match files.ensureDirectory directory with
      | .ok files => makeAll files rest
      | .error fault =>
        .error (.storage ("create spill directory " ++ directory ++ " failed: " ++ fault.message))

/-- Opens a store and makes its directories where they do not exist. -/
def start (directories : List String) (files : FileTree) : Except Status LocalStore :=
  if directories_ne_nil : directories ≠ [] then do
    let files ← makeAll files directories
    return { directories, files, directories_ne_nil }
  else .error (.invalidArgument "spill.local_dirs is empty")

/-- The path of a name below a directory. -/
def join (directory name : String) : String :=
  if name.startsWith "/" then name
  else if directory.endsWith "/" then directory ++ name
  else directory ++ "/" ++ name

/-- The path for a block name, in the directory whose turn it is. -/
def blockPath (store : LocalStore) (name : String) : String × LocalStore :=
  let turn := store.drawn % store.directories.length
  (join (store.directories.getD turn "") name, { store with drawn := store.drawn + 1 })

/-- The failure of an operation on a block. -/
def failure (operation path : String) (fault : FileFault) : Status :=
  .storage (operation ++ " spill block " ++ path ++ " failed: " ++ fault.message)

/-- Writes a new block, or yields `false` if the path is taken. -/
def create (path : String) (bytes : List UInt8) : Step LocalStore Bool :=
  Step.transition fun store =>
    match store.files.create path bytes with
    | .ok (some files) => .ok (true, { store with files })
    | .ok none => .ok (false, store)
    | .error fault => .error (failure "create" path fault)

/-- Reads a block. -/
def read (path : String) : Step LocalStore (List UInt8) :=
  Step.transition fun store =>
    match store.files.read path with
    | .ok bytes => .ok (bytes, store)
    | .error fault => .error (failure "read" path fault)

/-- Deletes the block at a path, if there is one. -/
def delete (path : String) : Step LocalStore Unit :=
  Step.transition fun store =>
    match store.files.remove path with
    | .ok files => .ok ((), { store with files })
    | .error .missing => .ok ((), store)
    | .error fault => .error (failure "delete" path fault)

end LocalStore
end Spillway
