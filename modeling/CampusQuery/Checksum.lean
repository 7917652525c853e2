/-
CampusQuery/Checksum.lean

The cyclic redundancy check of 32 bits (IEEE 802.3) over bytes.
-/

namespace CampusQuery.Checksum

/-- The generator polynomial, lowest bit first. -/
def polynomial : UInt32 := 0xEDB88320

/-- One bit of the division. -/
def shiftBit (state : UInt32) : UInt32 :=
  if state &&& 1 = 1 then (state >>> 1) ^^^ polynomial else state >>> 1

/-- One byte of the division. -/
def addByte (state : UInt32) (byte : UInt8) : UInt32 :=
  Nat.repeat shiftBit 8 (state ^^^ byte.toUInt32)

/-- The checksum of bytes. -/
def crc32 (bytes : ByteArray) : UInt32 := bytes.data.foldl addByte 0xFFFFFFFF ^^^ 0xFFFFFFFF

/-- The checksum of a text's UTF-8 bytes. -/
def ofText (s : String) : UInt32 := crc32 s.toUTF8

end CampusQuery.Checksum
