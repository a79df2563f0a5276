/-!
CRC-32 with the IEEE polynomial, computed bit by bit with the polynomial reversed, so that the
lowest bit of the register is the one that leaves first.
-/

namespace PeerCache.Checksum

/-- The IEEE polynomial, lowest power in the highest bit. -/
def crcPolynomial : UInt32 := 0xEDB88320

/-- Shifts one bit out of the register and, if it was set, subtracts the polynomial. -/
def crcBit (register : UInt32) : UInt32 :=
  if register &&& 1 = 1 then (register >>> 1) ^^^ crcPolynomial else register >>> 1

/-- Takes one byte into the register: eight bit steps after adding it to the low end. -/
def crcByte (register : UInt32) (byte : UInt8) : UInt32 :=
  Nat.repeat crcBit 8 (register ^^^ byte.toUInt32)

/-- The checksum starts from a register of ones and complements the last one. -/
def crc32 (bytes : List UInt8) : UInt32 :=
  bytes.foldl crcByte 0xFFFFFFFF ^^^ 0xFFFFFFFF

/-- The checksum of a text continued byte by byte is the fold over the whole text. -/
theorem crc32_append (front back : List UInt8) :
    crc32 (front ++ back) = back.foldl crcByte (crc32 front ^^^ 0xFFFFFFFF) ^^^ 0xFFFFFFFF := by
  simp only [crc32, List.foldl_append, UInt32.xor_assoc, UInt32.xor_self, UInt32.xor_zero]

/-- The check value of the polynomial: the checksum of the digits one to nine. -/
example : crc32 [49, 50, 51, 52, 53, 54, 55, 56, 57] = 0xCBF43926 := by decide +kernel

end PeerCache.Checksum
