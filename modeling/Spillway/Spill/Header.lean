import Spillway.Spill.Compression
import Spillway.Status
import Spillway.Text.LittleEndian

/-!
# Block headers

Every spill block starts with forty bytes: four letters, a version, the length of the header, the tag
of the compression, three reserved bytes, and the counts of the block in little-endian order. The
reader accepts exactly the bytes that the writer produces.
-/

namespace Spillway

/-- What a block says of itself. -/
structure BlockHeader where
  compression : Compression
  batches : UInt32 := 0
  rows : UInt64 := 0
  bodyLength : UInt64 := 0
  schemaHash : UInt64
  deriving DecidableEq, Repr

/-- Why bytes do not start with a block header. -/
inductive HeaderFault where
  | tooSmall
  | magic
  | version (found : Nat)
  | length (found : Nat)
  | compression (cause : CompressionFault)
  | reserved
  deriving DecidableEq, Repr

/-- Description of the fault. -/
def HeaderFault.message : HeaderFault → String
  | tooSmall => "spill block header is too small"
  | magic => "spill block header magic mismatch"
  | version found => "unsupported spill block version: " ++ toString found
  | length found => "unsupported spill block header length: " ++ toString found
  | compression cause => cause.message
  | reserved => "spill block header reserved field must be 0"

namespace BlockHeader

/-- Length of a header in bytes. -/
def size : Nat := 40

/-- The four letters that a block starts with. -/
def magic : List UInt8 := [0x47, 0x46, 0x53, 0x50]

/-- The version of the layout. -/
def version : Nat := 1

/-- The forty bytes of a header. -/
def encode (header : BlockHeader) : List UInt8 :=
  magic ++ Text.littleEndian 2 version ++ Text.littleEndian 2 size ++
    [header.compression.tag, 0, 0, 0] ++ Text.littleEndian 4 header.batches.toNat ++
    Text.littleEndian 8 header.rows.toNat ++ Text.littleEndian 8 header.bodyLength.toNat ++
    Text.littleEndian 8 header.schemaHash.toNat

/-- Little-endian number in so many bytes from a position on. -/
def field (bytes : List UInt8) (position width : Nat) : Nat :=
  Text.ofLittleEndian ((bytes.drop position).take width)

/-- Reads the header that a byte string starts with. -/
def decode (bytes : List UInt8) : Except HeaderFault BlockHeader :=
  if bytes.length < size then .error .tooSmall
  else if bytes.take 4 ≠ magic then .error .magic
  else if field bytes 4 2 ≠ version then .error (.version (field bytes 4 2))
  else if field bytes 6 2 ≠ size then .error (.length (field bytes 6 2))
  else
    match Compression.ofTag (field bytes 8 1).toUInt8 with
    | .error cause => .error (.compression cause)
    | .ok compression =>
      if field bytes 9 3 ≠ 0 then .error .reserved
      else
        .ok {
          compression
          batches := (field bytes 12 4).toUInt32
          rows := (field bytes 16 8).toUInt64
          bodyLength := (field bytes 24 8).toUInt64
          schemaHash := (field bytes 32 8).toUInt64 }

@[simp] theorem length_encode (header : BlockHeader) : header.encode.length = size := by
  simp [encode, magic, size]

end BlockHeader

end Spillway
