/-!
The cyclic redundancy check of 32 bits: reflected polynomial `0xEDB88320`, register and result both
complemented.
-/

namespace TwoBitAlpha.Crc32

def polynomial : UInt32 := 0xEDB88320

def shift (register : UInt32) : UInt32 :=
  if register &&& 1 = 1 then (register >>> 1) ^^^ polynomial else register >>> 1

/-- Takes eight bits into the register, the lowest first. -/
def absorb (register : UInt32) (byte : UInt8) : UInt32 :=
  Nat.repeat shift 8 (register ^^^ byte.toUInt32)

def register (bytes : Array UInt8) : UInt32 := bytes.foldl absorb 0xFFFFFFFF

def ofBytes (bytes : Array UInt8) : UInt32 := ~~~ register bytes

end TwoBitAlpha.Crc32
