import Downlink.Fault

/-!
Binary image frames: four bytes that are not looked at, the image id in four bytes with the lowest
first, and the image.
-/
namespace Downlink

structure Frame where
  imageId : Nat
  image : List UInt8
  deriving DecidableEq, Repr

namespace Frame

def headerSize : Nat := 8

/-- The number that bytes stand for, the lowest first. -/
def natOfBytes : List UInt8 → Nat
  | [] => 0
  | byte :: bytes => byte.toNat + 256 * natOfBytes bytes

def ofBytes (bytes : List UInt8) : Except Fault Frame :=
  if bytes.length < headerSize then .error (.frameTooShort bytes.length)
  else .ok ⟨natOfBytes ((bytes.drop 4).take 4), bytes.drop headerSize⟩

end Frame
end Downlink
