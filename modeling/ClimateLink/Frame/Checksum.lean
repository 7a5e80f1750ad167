import ClimateLink.Wire.Bytes

/-!
# The frame checksum

The cyclic redundancy check that the MODBUS standard uses: sixteen bits, polynomial `0x8005` with
the bits of each byte taken from the low end (so the reflected polynomial `0xA001`), starting
from all ones and with no final inversion.

- `digest_append`: the register goes on over a string from where the front of it has left it.
-/

namespace ClimateLink.Frame

/-- The generator polynomial, low bit first. -/
def polynomial : UInt16 := 0xA001

/-- One place of the shift register: the low bit leaves, and takes the polynomial with it if it
was set. -/
def shift (register : UInt16) : UInt16 :=
  if register &&& 1 = 1 then (register >>> 1) ^^^ polynomial else register >>> 1

/-- The register after one more byte. -/
def absorb (register : UInt16) (b : UInt8) : UInt16 :=
  Nat.repeat shift 8 (register ^^^ b.toUInt16)

/-- The register after a string of bytes. -/
def digest (register : UInt16) (bs : Bytes) : UInt16 := bs.foldl absorb register

/-- The checksum of a string of bytes. -/
def checksum (bs : Bytes) : UInt16 := digest 0xFFFF bs

theorem digest_append (register : UInt16) (xs ys : Bytes) :
    digest register (xs ++ ys) = digest (digest register xs) ys :=
  List.foldl_append

end ClimateLink.Frame
