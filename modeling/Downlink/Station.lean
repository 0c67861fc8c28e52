import Downlink.Station.Address
import Downlink.Station.Broadcast
import Downlink.Station.Loop

/-!
A station is a loop whose sockets go over a network that refuses what is no address, and whose
notices are broadcast. The first observer comes with the start.
-/
namespace Downlink

structure Station where
  loop : Loop
  notices : Broadcast Notice
  deriving DecidableEq, Repr

namespace Station

def status (s : Station) : Status := s.loop.status

def refusal? (url : String) : Option String := (Address.refusal? url).map Refusal.message

/-- What becomes of the first commands is told before the first observer comes, who has the number
0. A station whose capacities are out of range does not start. -/
def start (settings : Settings) : Option Station :=
  if Settings.mostCommands < settings.commandCapacity then none
  else (Broadcast.new? settings.eventCapacity).map fun channel =>
    let ((loop, first), reports) := Loop.start refusal? settings
    let settled := loop.settle refusal? Loop.settleFuel reports
    ⟨settled.1, (channel.publishAll first).addReceiver.1.publishAll settled.2⟩

def command (s : Station) (command : Task.Command) : Station × Task.Answer :=
  let (result, answer) := s.loop.command refusal? command
  (⟨result.1, s.notices.publishAll result.2⟩, answer)

def sleep (s : Station) (duration : Duration) : Station :=
  let slept := s.loop.sleep refusal? duration
  ⟨slept.1, s.notices.publishAll slept.2⟩

def observe (s : Station) : Station × List (Received Notice) :=
  let (notices, received) := s.notices.receiveAll 0
  ({ s with notices }, received)

end Station
end Downlink
