/-!
# CRC-32

The cyclic redundancy check with the reflected polynomial 0xEDB88320, all bits set at the start and
turned over at the end, over the bytes of a text. Every node computes the same value, so that all
nodes agree on the place of a key.
-/

namespace RingCache.Ring.Crc32

/-- One bit: shift, and take the polynomial away where a one falls out. -/
def shift (crc : UInt32) : UInt32 :=
  if crc &&& 1 = 1 then (crc >>> 1) ^^^ 0xEDB88320 else crc >>> 1

/-- One byte: eight bits. -/
def feed (crc : UInt32) (b : UInt8) : UInt32 :=
  shift (shift (shift (shift (shift (shift (shift (shift (crc ^^^ b.toUInt32))))))))

/-- The check value of the bytes. -/
def ofBytes (bytes : ByteArray) : UInt32 :=
  bytes.foldl feed 0xFFFFFFFF ^^^ 0xFFFFFFFF

end RingCache.Ring.Crc32
