import ClimateLink.Packet.Fault
import ClimateLink.Wire.Bytes

/-!
# Frame headers

A frame is a header, a payload and a checksum:

| magic         | address | id     | family | length | payload | checksum |
|---------------|---------|--------|--------|--------|---------|----------|
| `55 55 55 AA` | 2 bytes | 1 byte | 1 byte | 2 bytes| length  | 2 bytes  |

The length counts the payload. The checksum covers everything between the magic and itself.

- `Header.decode_encode`: a header followed by anything reads back.
-/

namespace ClimateLink.Frame

open Wire

/-! ## Sizes -/

/-- The bytes that open every frame. -/
def magic : Bytes := [0x55, 0x55, 0x55, 0xAA]

/-- The bytes before the payload. -/
def headerSize : Nat := 10

/-- The bytes of the checksum. -/
def checksumSize : Nat := 2

/-- The size of a frame without payload. -/
def minSize : Nat := headerSize + checksumSize

/-- Where the length stands in the header. -/
def lengthOffset : Nat := 8

/-- The most bytes that a payload can have. -/
def maxPayload : Nat := 65535

/-- The number of the service on which consoles listen. -/
def serviceNumber : UInt16 := 9005

/-! ## Headers -/

/-- What a header says. -/
structure Header where
  address : UInt16
  id : UInt8
  /-- The mark of a family, which need not be known. -/
  family : UInt8
  /-- The number of payload bytes. -/
  length : UInt16
  deriving DecidableEq, Repr

namespace Header

/-- The size of the frame that the header opens. -/
def frameSize (h : Header) : Nat := minSize + h.length.toNat

theorem minSize_le_frameSize (h : Header) : minSize ≤ h.frameSize := Nat.le_add_right _ _

/-- The bytes of a header. -/
def encode (h : Header) : Bytes :=
  magic ++ wordBytes h.address ++ [h.id, h.family] ++ wordBytes h.length

/-- The header at the front of a string of bytes. -/
def decode : Bytes → Except Malformed Header
  | m0 :: m1 :: m2 :: m3 :: a0 :: a1 :: id :: family :: n0 :: n1 :: _ =>
    if [m0, m1, m2, m3] = magic then .ok ⟨word a0 a1, id, family, word n0 n1⟩
    else .error .badMagic
  | bs => .error (.tooShort bs.length)

@[simp] theorem length_encode (h : Header) : h.encode.length = headerSize := rfl

@[simp] theorem decode_encode (h : Header) (rest : Bytes) :
    decode (h.encode ++ rest) = .ok h := by
  simp [encode, decode, magic, wordBytes]

end Header

end ClimateLink.Frame
