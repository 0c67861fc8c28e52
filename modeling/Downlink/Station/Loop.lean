import Downlink.Station.Settings
import Downlink.Station.Task

/-!
A loop runs the task of a link on a clock of its own, which stands still except while the user
sleeps. The network is not its business: which urls are refused, and why, it takes as given.
-/
namespace Downlink

inductive Notice where
  | status (status : Status)
  | fault (fault : Fault)
  deriving DecidableEq, Repr

structure Loop where
  task : Task
  /-- Milliseconds since the start. -/
  now : Nat
  /-- When the running timer fires, and its number. -/
  due : Option (Nat × Nat)
  /-- The status last told. -/
  status : Status
  deriving DecidableEq, Repr

namespace Loop

def thirtyYears : Nat := 1000 * 60 * 60 * 24 * 365 * 30

/-- When a wait that starts now is over; none is longer than thirty years. -/
def waitEnd (l : Loop) (duration : Duration) : Nat :=
  l.now + min duration.ceilMilliseconds thirtyYears

def notice? : Task.Effect → Option Notice
  | .status status => some (.status status)
  | .fault fault => some (.fault fault)
  | _ => none

def notices (effects : List Task.Effect) : List Notice := effects.filterMap notice?

def perform (l : Loop) : Task.Effect → Loop
  | .startTimer timer delay => { l with due := some (l.waitEnd delay, timer) }
  | .stopTimer _ => { l with due := none }
  | .status status => { l with status }
  | _ => l

def follow (l : Loop) (result : Task × List Task.Effect) : Loop :=
  result.2.foldl perform { l with task := result.1 }

variable (refusal? : String → Option String)

/-- What comes back of an effect later. A refused attempt fails at once; any other one stays open
until it is hung up. -/
def echo : Task.Effect → List Task.Report
  | .dial socket url =>
    match refusal? url with
    | some refusal => [.failed socket (.socket refusal), .closed socket]
    | none => []
  | .hangUp socket => [.closed socket]
  | _ => []

/-- Takes reports in turn, those they lead to behind them. -/
def settle (l : Loop) : Nat → List Task.Report → Loop × List Notice
  | 0, _ | _ + 1, [] => (l, [])
  | fuel + 1, report :: reports =>
    let result := l.task.report report
    let (l, later) := (l.follow result).settle fuel (reports ++ result.2.flatMap (echo refusal?))
    (l, notices result.2 ++ later)

def settleFuel : Nat := 16

def commandAll (t : Task) : List Task.Command → Task × List Task.Effect
  | [] => (t, [])
  | command :: commands =>
    let (t, effects) := (t.command command).1
    let (t, rest) := commandAll t commands
    (t, effects ++ rest)

/-- The link gets its url and its intent. What comes back of that is left to be taken. -/
def start (settings : Settings) : (Loop × List Notice) × List Task.Report :=
  let result := commandAll (.new settings.policy) settings.commands
  ((follow ⟨.new settings.policy, 0, none, .disconnected⟩ result, notices result.2),
    result.2.flatMap (echo refusal?))

def command (l : Loop) (command : Task.Command) : (Loop × List Notice) × Task.Answer :=
  let (result, answer) := l.task.command command
  let (l, later) :=
    (l.follow result).settle refusal? settleFuel (result.2.flatMap (echo refusal?))
  ((l, notices result.2 ++ later), answer)

def fireUntil (l : Loop) (time : Nat) : Nat → Loop × List Notice
  | 0 => (l, [])
  | fuel + 1 =>
    match l.due with
    | none => (l, [])
    | some (due, timer) =>
      if due ≤ time then
        let (l, first) :=
          { l with now := max l.now due, due := none }.settle refusal? settleFuel [.elapsed timer]
        let (l, later) := l.fireUntil time fuel
        (l, first ++ later)
      else (l, [])

/-- At most one timer fires in each millisecond. -/
def sleepUntil (l : Loop) (time : Nat) : Loop × List Notice :=
  let fired := l.fireUntil refusal? time (time - l.now + 1)
  ({ fired.1 with now := time }, fired.2)

def sleep (l : Loop) (duration : Duration) : Loop × List Notice :=
  l.sleepUntil refusal? (l.waitEnd duration)

end Loop
end Downlink
