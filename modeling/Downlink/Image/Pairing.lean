import Downlink.Image.Frame
import Downlink.Table

/-!
An image comes in two halves with one id: the frame with its bytes, and an announcement that names
its cycler. The half that comes first waits for the other. Of each kind at most sixteen wait; one
more, and the half with the lowest id is given up.
-/
namespace Downlink

structure Pairing where
  frames : Table Nat (List UInt8)
  announcements : Table Nat String
  deriving DecidableEq, Repr

namespace Pairing

def capacity : Nat := 16

def empty : Pairing := ⟨[], []⟩

/-- The halves within the limit: without the lowest ids, which stand first. -/
def trim {V : Type} (halves : Table Nat V) : Table Nat V := halves.drop (halves.length - capacity)

def onFrame (pairing : Pairing) (id : Nat) (image : List UInt8) :
    Pairing × Option (String × List UInt8) :=
  match Table.get? id pairing.announcements with
  | some cycler =>
    ({ pairing with announcements := Table.erase id pairing.announcements }, some (cycler, image))
  | none => ({ pairing with frames := trim (Table.insert id image pairing.frames) }, none)

def onAnnouncement (pairing : Pairing) (id : Nat) (cycler : String) :
    Pairing × Option (String × List UInt8) :=
  match Table.get? id pairing.frames with
  | some image => ({ pairing with frames := Table.erase id pairing.frames }, some (cycler, image))
  | none =>
    ({ pairing with announcements := trim (Table.insert id cycler pairing.announcements) }, none)

def waiting (pairing : Pairing) : Nat := pairing.frames.length + pairing.announcements.length

end Pairing
end Downlink
