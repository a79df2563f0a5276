/-!
Elementary functions from bytes to ring positions. They hash badly, which is their use: a key or a
node can be put at a position chosen by hand.
-/

namespace PeerCache.Checksum

/-- The value of a list of ASCII digits, `none` if another byte occurs. -/
def digitsValue? : List UInt8 → Nat → Option Nat
  | [], n => some n
  | b :: rest, n => if 48 ≤ b ∧ b ≤ 57 then digitsValue? rest (10 * n + (b.toNat - 48)) else none

/-- The number that the bytes write in decimal if it fits a position, else zero. -/
def decimalValue (bytes : List UInt8) : UInt32 :=
  match digitsValue? bytes 0 with
  | some n => if n < UInt32.size then n.toUInt32 else 0
  | none => 0

/-- The number of bytes. -/
def byteCount (bytes : List UInt8) : UInt32 :=
  bytes.length.toUInt32

/-- The sum of the bytes. -/
def byteSum (bytes : List UInt8) : UInt32 :=
  bytes.foldl (fun h b => h + b.toUInt32) 0

/-- The last four bytes as a word, last byte lowest. -/
def lastFour (bytes : List UInt8) : UInt32 :=
  bytes.foldl (fun h b => h * 256 + b.toUInt32) 0

end PeerCache.Checksum
