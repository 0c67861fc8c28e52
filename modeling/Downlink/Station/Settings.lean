import Downlink.Station.Task

/-!
What a station is started with.
-/
namespace Downlink

structure Settings where
  url : Option String
  wanted : Bool
  policy : Retry
  /-- How many events a slow observer may fall behind. -/
  eventCapacity : Nat
  commandCapacity : Nat
  timeout : Duration
  deriving DecidableEq, Repr

inductive Setting where
  | url (url : String)
  | wanted (wanted : Bool)
  | policy (policy : Retry)
  | eventCapacity (capacity : Nat)
  | commandCapacity (capacity : Nat)
  | timeout (timeout : Duration)
  deriving DecidableEq, Repr

namespace Settings

def standard : Settings where
  url := none
  wanted := false
  policy := .standard
  eventCapacity := 256
  commandCapacity := 64
  timeout := .ofSeconds 10

/-- A capacity of zero is raised to one. -/
def set (settings : Settings) : Setting → Settings
  | .url url => { settings with url := some url }
  | .wanted wanted => { settings with wanted }
  | .policy policy => { settings with policy }
  | .eventCapacity capacity => { settings with eventCapacity := max capacity 1 }
  | .commandCapacity capacity => { settings with commandCapacity := max capacity 1 }
  | .timeout timeout => { settings with timeout }

/-- More commands than this cannot be counted while they wait. -/
def mostCommands : Nat := Nat.pow 2 61 - 1

def commands (settings : Settings) : List Task.Command :=
  settings.url.toList.map .url ++ [.want settings.wanted]

def ofList (list : List Setting) : Settings := list.foldl set standard

end Settings
end Downlink
