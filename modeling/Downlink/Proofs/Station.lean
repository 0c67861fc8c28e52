import Downlink.Proofs.Broadcast
import Downlink.Proofs.Loop
import Downlink.Station

/-!
Runs of a station. Its task takes part in a run of its own, in which it is given the commands of the
user and reports, and nothing that the task tells is kept from the first observer.
-/
namespace Downlink

def Task.Input.command? : Task.Input → Option Task.Command
  | .command given => some given
  | .report _ | .deserted => none

def Task.commandsIn (turns : List Task.Turn) : List Task.Command :=
  (turns.map (·.input)).filterMap Task.Input.command?

namespace Station

inductive Act where
  | command (command : Task.Command)
  | sleep (duration : Duration)
  | observe
  deriving DecidableEq, Repr

def act (s : Station) : Act → Station × List (Received Notice)
  | .command command => ((s.command command).1, [])
  | .sleep duration => (s.sleep duration, [])
  | .observe => s.observe

def Act.command? : Act → Option Task.Command
  | .command given => some given
  | .sleep _ | .observe => none

/-- What the user did, and what the first observer has heard in the meantime. -/
inductive Run (settings : Settings) : List Act → List (Received Notice) → Station → Prop where
  | start {s : Station} (h : start settings = some s) : Run settings [] [] s
  | act {acts heard s} (act : Act) : Run settings acts heard s →
      Run settings (acts ++ [act]) (heard ++ (s.act act).2) (s.act act).1

variable {s : Station} {settings : Settings} {acts : List Act} {heard : List (Received Notice)}
  {before since : List Task.Turn}

structure Follows (settings : Settings) (acts : List Act) (heard : List (Received Notice))
    (s : Station) (before since : List Task.Turn) : Prop where
  mirrors : s.loop.Mirrors settings.policy (before ++ since)
  first : before.map (·.input) = settings.commands.map .command
  commands : Task.commandsIn since = acts.filterMap Act.command?
  undeserted : ∀ turn ∈ since, turn.input ≠ .deserted
  unclosed : s.notices.closed = false
  serves : s.notices.Serves 0 (Loop.noticesIn since) heard

/-- The loop goes on by the commands of what the user does and by reports. -/
theorem Follows.on (h : s.Follows settings acts heard before since) (later : List Act)
    {reports : List Task.Report} {result : Loop × List Notice}
    (hgoes : s.loop.Goes
      ((later.filterMap Act.command?).map .command ++ reports.map .report) result) :
    ∃ more, Follows settings (acts ++ later) heard
      ⟨result.1, s.notices.publishAll result.2⟩ before (since ++ more) := by
  obtain ⟨more, hmirrors, htold, hinputs⟩ := hgoes settings.policy _ h.mirrors
  obtain ⟨hserves, hunclosed⟩ :=
    Broadcast.publishAll_induction (P := fun b told => b.Serves 0 told heard) .publish h.serves
      h.unclosed result.2
  refine ⟨more, ?_, h.first, ?_, ?_, hunclosed, ?_⟩
  · rwa [← List.append_assoc]
  · have hmore : Task.commandsIn more = later.filterMap Act.command? := by
      rw [Task.commandsIn, hinputs]
      simp [List.filterMap_map, Function.comp_def, Task.Input.command?]
    rw [Task.commandsIn, List.map_append, List.filterMap_append, List.filterMap_append, ← hmore,
      ← h.commands]
    rfl
  · intro turn hm
    rcases List.mem_append.mp hm with hm | hm
    · exact h.undeserted turn hm
    · have hinput := List.mem_map_of_mem (f := (·.input)) hm
      rw [hinputs] at hinput
      intro hd
      simp [hd] at hinput
  · rwa [Loop.noticesIn_append, ← htold]

theorem start_follows (h : start settings = some s) :
    ∃ before since, s.Follows settings [] [] before since := by
  unfold start at h
  split at h
  next => cases h
  next =>
    obtain ⟨channel, hchannel, rfl⟩ := Option.map_eq_some_iff.mp h
    obtain ⟨before, hmirrors, htold, hinputs⟩ := Loop.start_mirrors refusal? settings
    obtain ⟨hnew, hnobody, hunclosed⟩ := Broadcast.new?_holds hchannel
    obtain ⟨⟨hholds, hreceivers⟩, hstill⟩ :=
      Broadcast.publishAll_induction (P := fun b told => b.Holds told ∧ b.receivers = [])
        (fun hb hc event => ⟨hb.1.publish hc event, by rw [Broadcast.publish_receivers, hb.2]⟩)
        ⟨hnew, hnobody⟩ hunclosed (Loop.start refusal? settings).1.2
    have hserves := hholds.addReceiver
    have hnumber : (channel.publishAll (Loop.start refusal? settings).1.2).addReceiver.2 = 0 :=
      congrArg List.length hreceivers
    rw [hnumber] at hserves
    have hfirst : Follows settings [] []
        ⟨(Loop.start refusal? settings).1.1,
          (channel.publishAll (Loop.start refusal? settings).1.2).addReceiver.1⟩ before [] :=
      ⟨by rwa [List.append_nil], hinputs, rfl, by simp, hstill, hserves⟩
    obtain ⟨reports, hreports⟩ := Loop.settle_echo_reacts refusal?
      (Loop.start refusal? settings).1.1 Loop.settleFuel
      (Loop.commandAll (.new settings.policy) settings.commands).2
    obtain ⟨more, hmore⟩ := hfirst.on [] hreports
    exact ⟨before, more, hmore⟩

theorem act_follows (h : s.Follows settings acts heard before since) (act : Act) :
    ∃ more, (s.act act).1.Follows settings (acts ++ [act]) (heard ++ (s.act act).2) before
      (since ++ more) := by
  cases act with
  | command command =>
    obtain ⟨reports, hreports⟩ := Loop.command_goes refusal? s.loop command
    obtain ⟨more, hmore⟩ := h.on [.command command] hreports
    exact ⟨more, (List.append_nil heard).symm ▸ hmore⟩
  | sleep duration =>
    obtain ⟨reports, hreports⟩ := Loop.sleepUntil_reacts refusal? s.loop
      (s.loop.waitEnd duration)
    obtain ⟨more, hmore⟩ := h.on [.sleep duration] hreports
    exact ⟨more, (List.append_nil heard).symm ▸ hmore⟩
  | observe =>
    obtain ⟨hserves, hclosed, _⟩ := h.serves.receiveAll
    have hcommands : Task.commandsIn since = (acts ++ [Act.observe]).filterMap Act.command? := by
      rw [List.filterMap_append, h.commands]
      exact (List.append_nil _).symm
    refine ⟨[], ?_⟩
    rw [List.append_nil]
    exact ⟨h.mirrors, h.first, hcommands, h.undeserted, hclosed.trans h.unclosed, hserves⟩

theorem run_follows (h : Run settings acts heard s) :
    ∃ before since, s.Follows settings acts heard before since := by
  induction h with
  | start h => exact start_follows h
  | act act _ ih =>
    obtain ⟨before, since, hfollows⟩ := ih
    obtain ⟨more, hmore⟩ := act_follows hfollows act
    exact ⟨before, since ++ more, hmore⟩

/-- The task of a station takes part in a run of its own: it is given first what the settings say,
and then the commands of the user, in order, and reports. The clock runs for its timer and for no
other one, the status that is shown is that of its link, and with what the first observer can still
get it has heard, in order, of all that was told since it came. -/
theorem task_runs (h : Run settings acts heard s) :
    ∃ before since, Task.Run settings.policy (before ++ since) s.loop.task ∧
      before.map (·.input) = settings.commands.map .command ∧
      Task.commandsIn since = acts.filterMap Act.command? ∧
      (∀ turn ∈ since, turn.input ≠ .deserted) ∧
      s.loop.due.map Prod.snd = s.loop.task.timer ∧ s.status = s.loop.task.link.status ∧
      Covers (heard ++ s.observe.2) (Loop.noticesIn since) := by
  obtain ⟨before, since, hfollows⟩ := run_follows h
  obtain ⟨hrun, hclock, hstatus⟩ := hfollows.mirrors
  refine ⟨before, since, hrun, hfollows.first, hfollows.commands, hfollows.undeserted, hclock, ?_,
    hfollows.serves.receiveAll.2.2⟩
  exact hstatus.trans (Task.run_observed hrun).2

/-- A bare path names no host: the attempt is refused, and the next one is a second away. -/
example :
    (start { Settings.standard with url := some "/", wanted := true }).map
        (fun s => (s.observe.2, s.loop.due)) =
      some ([.event (.fault (.socket "URL error: No host name in the URL"))], some (1000, 1)) := by
  decide +kernel

end Station
end Downlink
