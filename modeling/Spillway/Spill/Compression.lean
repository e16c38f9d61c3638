import Spillway.Text.Blank

/-!
# Compression of spill blocks

The compression asked for is named in the settings and carried as a tag by every block header.
-/

namespace Spillway

/-- Compression of the bodies of spill blocks. -/
inductive Compression where
  | none
  | lz4
  | zstd
  deriving DecidableEq, Repr

/-- Why a name or a tag stands for no compression. -/
inductive CompressionFault where
  | unknownName (name : String)
  | unknownTag (tag : Nat)
  deriving DecidableEq, Repr

/-- Description of the fault. -/
def CompressionFault.message : CompressionFault → String
  | unknownName name => "unsupported spill ipc compression: " ++ name
  | unknownTag tag => "unknown spill codec value: " ++ toString tag

namespace Compression

/-- Name of a compression. -/
def name : Compression → String
  | none => "none"
  | lz4 => "lz4"
  | zstd => "zstd"

/-- Tag of a compression in a block header. -/
def tag : Compression → UInt8
  | none => 0
  | lz4 => 1
  | zstd => 2

/-- The compression of a tag. -/
def ofTag (tag : UInt8) : Except CompressionFault Compression :=
  if tag = 0 then .ok none
  else if tag = 1 then .ok lz4
  else if tag = 2 then .ok zstd
  else .error (.unknownTag tag.toNat)

/-- Reads a name; blanks around it and the case of its letters do not matter. -/
def parse (text : String) : Except CompressionFault Compression :=
  let wanted := Text.lower (Text.trim text)
  if wanted = "none" then .ok none
  else if wanted = "lz4" then .ok lz4
  else if wanted = "zstd" then .ok zstd
  else .error (.unknownName text)

theorem ofTag_tag (compression : Compression) : ofTag compression.tag = .ok compression := by
  cases compression <;> rfl

theorem tag_of_ofTag {tag : UInt8} {compression : Compression} (named : ofTag tag = .ok compression) :
    compression.tag = tag := by
  unfold ofTag at named
  split at named
  case isTrue same =>
    cases named
    exact same.symm
  case isFalse =>
    split at named
    case isTrue same =>
      cases named
      exact same.symm
    case isFalse =>
      split at named
      case isTrue same =>
        cases named
        exact same.symm
      case isFalse => cases named

end Compression

end Spillway
