/-!
# File trees

Directories and files with their contents, reached by paths as a file system resolves them: every part of
a path but the last must name a directory, a single dot stays where it is and a double dot goes up. A
path that starts with a slash starts at the root, any other in the working directory. Operations fail
with the causes that a file system reports.
-/

namespace Spillway

/-- Why a file system refuses an operation. -/
inductive FileFault where
  | missing
  | taken
  | notDirectory
  | isDirectory
  | nameTooLong
  | zeroCharacter
  deriving DecidableEq, Repr

/-- Description of the fault, with its number if it has one. -/
def FileFault.message : FileFault → String
  | missing => "No such file or directory (os error 2)"
  | taken => "File exists (os error 17)"
  | notDirectory => "Not a directory (os error 20)"
  | isDirectory => "Is a directory (os error 21)"
  | nameTooLong => "File name too long (os error 36)"
  | zeroCharacter => "file name contained an unexpected NUL byte"

/-- What a place holds. -/
inductive FileNode where
  | directory
  | file (bytes : List UInt8)
  deriving DecidableEq, Repr

/-- A place: the names that lead to it, innermost first. -/
abbrev Place : Type := List String

/-- The parts of a path, and whether a slash comes after a name at its end. -/
structure PathParts where
  start : Place
  names : List String
  trailing : Bool
  deriving DecidableEq, Repr

namespace PathParts

/-- The root, as the outermost name of absolute places. -/
def root : String := "/"

/-- The way up from where one is, and the outermost name of places above the working directory. -/
def up : String := ".."

/-- Whether a part of a path is a name and not a way to another place. -/
def isName (part : String) : Bool :=
  part ≠ "." && part ≠ up

/-- Longest name of a file, in bytes. -/
def longestName : Nat := 255

/-- Longest path, in bytes. -/
def longestPath : Nat := 4095

/-- Takes a path apart. Repeated slashes count as one. -/
def parse (path : String) : Except FileFault PathParts :=
  if path.contains '\x00' then .error .zeroCharacter
  else if longestPath < path.utf8ByteSize then .error .nameTooLong
  else if path = "" then .error .missing
  else
    let names := (path.splitOn "/").filter fun name => name ≠ ""
    .ok {
      start := if path.startsWith "/" then [root] else []
      names
      trailing := path.endsWith "/" && names.getLast?.any isName }

end PathParts

/-- What is stored below the root and the working directory, which always exist. -/
structure FileTree where
  nodes : List (Place × FileNode) := []
  deriving DecidableEq, Repr

namespace FileTree

/-- The places that are directories whatever is stored: the working directory, what is above it, and the
root. -/
def isFixed (place : Place) : Bool :=
  place = [] || place = [PathParts.up] || place = [PathParts.root]

/-- What a place holds, if it holds anything. -/
def node? (tree : FileTree) (place : Place) : Option FileNode :=
  if isFixed place then some .directory else tree.nodes.lookup place

/-- Puts something at a place. -/
def put (tree : FileTree) (place : Place) (node : FileNode) : FileTree :=
  { nodes := (place, node) :: tree.nodes.filter fun entry => entry.1 ≠ place }

/-- Empties a place. -/
def erase (tree : FileTree) (place : Place) : FileTree :=
  { nodes := tree.nodes.filter fun entry => entry.1 ≠ place }

/-- The place that one name leads to. Nothing is known of the directories above the working directory, so
they count as one. -/
def step (place : Place) (name : String) : Place :=
  if name = "." then place
  else if name = PathParts.up then
    match place with
    | [] => [PathParts.up]
    | _ :: above => if isFixed place then place else above
  else name :: place

/-- Fails unless a place is a directory. -/
def requireDirectory (tree : FileTree) (place : Place) : Except FileFault Unit :=
  match tree.node? place with
  | none => .error .missing
  | some (.file _) => .error .notDirectory
  | some .directory => .ok ()

/-- The place that names lead to. Each but the last must lead to a directory; what the last one leads to
need not exist. -/
def walk (tree : FileTree) : Place → List String → Except FileFault Place
  | place, [] => .ok place
  | place, name :: rest => do
    tree.requireDirectory place
    if PathParts.longestName < name.utf8ByteSize then throw .nameTooLong
    walk tree (step place name) rest

/-- The place that the parts of a path lead to. -/
def resolve (tree : FileTree) (parts : PathParts) : Except FileFault Place :=
  tree.walk parts.start parts.names

/-- What a path leads to, if it leads to anything. A slash at the end asks for a directory. -/
def find (tree : FileTree) (path : String) : Except FileFault (Place × FileNode) := do
  let parts ← PathParts.parse path
  let place ← tree.resolve parts
  match tree.node? place with
  | none => throw .missing
  | some (.file bytes) =>
    if parts.trailing then throw .notDirectory else return (place, .file bytes)
  | some .directory => return (place, .directory)

/-- Makes one directory. One that exists is left alone. -/
def makeDirectory (tree : FileTree) (parts : PathParts) : Except FileFault FileTree := do
  let place ← tree.resolve parts
  match tree.node? place with
  | some .directory => return tree
  | some (.file _) => throw .taken
  | none => return tree.put place .directory

/-- Makes the directory at the end of some names, the innermost of which comes first, and all above it
that do not exist. -/
def makeDirectories (tree : FileTree) (start : Place) : List String → Except FileFault FileTree
  | [] => .ok tree
  | name :: above =>
    let parts : PathParts := { start, names := (name :: above).reverse, trailing := false }
    match tree.makeDirectory parts with
    | .error .missing => do (← makeDirectories tree start above).makeDirectory parts
    | made => made

/-- Makes the directory at a path, all above it included. Single dots do not count as directories above, so
a path that ends in one needs the directory before it. -/
def ensureDirectory (tree : FileTree) (path : String) : Except FileFault FileTree := do
  let parts ← PathParts.parse path
  let names := parts.names.filter fun name => name ≠ "."
  match tree.makeDirectory parts with
  | .error .missing =>
    (← tree.makeDirectories parts.start names.reverse.tail).makeDirectory parts
  | made => made

/-- Writes a new file; nothing when the path is taken. -/
def create (tree : FileTree) (path : String) (bytes : List UInt8) :
    Except FileFault (Option FileTree) := do
  let parts ← PathParts.parse path
  if parts.trailing then
    tree.requireDirectory (← tree.walk parts.start parts.names.dropLast)
    throw .isDirectory
  let place ← tree.resolve parts
  match tree.node? place with
  | some _ => return none
  | none => return some (tree.put place (.file bytes))

/-- Reads a file. -/
def read (tree : FileTree) (path : String) : Except FileFault (List UInt8) := do
  match ← tree.find path with
  | (_, .directory) => throw .isDirectory
  | (_, .file bytes) => return bytes

/-- Deletes a file. -/
def remove (tree : FileTree) (path : String) : Except FileFault FileTree := do
  match ← tree.find path with
  | (_, .directory) => throw .isDirectory
  | (place, .file _) => return tree.erase place

/-- Whether a path leads to anything. -/
def reaches (tree : FileTree) (path : String) : Bool :=
  (tree.find path).isOk

/-- The tree with a file, and the directories that it needs. -/
def withFile (tree : FileTree) (path : String) (bytes : List UInt8) : FileTree :=
  let stored := do
    let parts ← PathParts.parse path
    let tree ← tree.makeDirectories parts.start parts.names.reverse.tail
    return tree.put (← tree.resolve parts) (.file bytes)
  stored.toOption.getD tree

end FileTree
end Spillway
