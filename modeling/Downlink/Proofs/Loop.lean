import Downlink.Proofs.TakeDown
import Downlink.Station.Loop

/-!
A loop as a run of its task. Whatever the user does and whatever the network refuses, the loop gives
its task commands and reports only, so that all that holds of runs of a task holds of it; its clock
runs for the timer of the task, and it takes reports until there are none left.
-/
namespace Downlink

namespace Task

variable {t : Task} {input : Input}

def timerAfter (timer : Option Nat) : Effect → Option Nat
  | .startTimer started _ => some started
  | .stopTimer _ => none
  | .dial _ _ | .hangUp _ | .send _ _ | .status _ | .fault _ | .call _ => timer

def TellsTimer (t : Task) (result : Task × List Effect) : Prop :=
  result.1.timer = result.2.foldl timerAfter t.timer

theorem stopTimer_tells (t : Task) : t.TellsTimer t.stopTimer := by
  cases ht : t.timer <;> simp [TellsTimer, stopTimer, ht, timerAfter]

theorem perform_tells (t : Task) (entry : Link.Entry) : t.TellsTimer (t.perform entry) := by
  cases entry with
  | action action =>
    cases action with
    | dial => rfl
    | hangUp socket =>
      simp only [TellsTimer, perform, hangUp]
      split <;> rfl
    | schedule delay => simp [TellsTimer, perform, startTimer, timerAfter]
    | cancel => exact stopTimer_tells t
  | sent socket request =>
    simp only [TellsTimer, perform]
    split <;> rfl
  | status | fault | call => rfl

theorem follow_tells (t : Task) (result : Link × List Link.Entry) :
    t.TellsTimer (t.follow result) := by
  refine performAll_induction (P := TellsTimer) (fun _ => rfl) ?_ perform_tells
    { t with link := result.1 } result.2
  intro t u v effects more h h'
  rw [TellsTimer, List.foldl_append, ← h, ← h']

theorem takeDown_tells (t : Task) : t.TellsTimer t.takeDown := by
  have hhangUps : ∀ (sockets : List Nat) timer,
      (sockets.map Effect.hangUp).foldl timerAfter timer = timer := by
    intro sockets
    induction sockets with
    | nil => exact fun _ => rfl
    | cons socket sockets ih => exact ih
  have hfollow := follow_tells t (t.link.step (.want false))
  have hstop := stopTimer_tells (t.follow (t.link.step (.want false))).1
  rw [TellsTimer] at hfollow hstop
  rw [TellsTimer, takeDown_eq, List.foldl_append, List.foldl_append, hhangUps, ← hfollow, ← hstop]

theorem act_tells (h : ∀ timer, input ≠ .report (.elapsed timer)) : t.TellsTimer (t.act input) := by
  generalize hact : t.act input = result
  cases hact ▸ act_acted t input with
  | rests => rfl
  | @follows event hr he =>
    have htells := follow_tells (t.noted input) (t.link.step event)
    cases input with
    | command command => cases command <;> exact htells
    | report report =>
      cases report with
      | elapsed timer => exact absurd rfl (h timer)
      | _ => exact htells
    | deserted => cases he
  | ends => exact takeDown_tells t

theorem expiry_tells {timer : Nat} (hr : t.running = true) (ht : t.timer = some timer) :
    (t.act (.report (.elapsed timer))).1.timer =
      (t.act (.report (.elapsed timer))).2.foldl timerAfter none := by
  have hevent : t.event? (.report (.elapsed timer)) = some .elapsed := if_pos ht
  rw [act_of_event hr hevent]
  exact follow_tells (t.noted (.report (.elapsed timer))) (t.link.step .elapsed)

end Task

namespace Loop

variable {l m n : Loop} {policy : Retry} {turns : List Task.Turn}
  {refusal? : String → Option String} {told later : List Notice} {input : Task.Input}
  {inputs others : List Task.Input} {report : Task.Report} {result : Loop × List Notice}

theorem foldl_perform (effects : List Task.Effect) (l : Loop) :
    (effects.foldl perform l).task = l.task ∧
      (effects.foldl perform l).due.map Prod.snd =
        effects.foldl Task.timerAfter (l.due.map Prod.snd) ∧
      (effects.foldl perform l).status =
        (effects.filterMap Task.Effect.status?).getLastD l.status := by
  induction effects generalizing l with
  | nil => exact ⟨rfl, rfl, rfl⟩
  | cons effect effects ih =>
    obtain ⟨htask, hdue, hstatus⟩ := ih (l.perform effect)
    rw [List.foldl_cons, htask, hdue, hstatus]
    cases effect with
    | status => exact ⟨rfl, rfl, (List.getLastD_cons ..).symm⟩
    | _ => exact ⟨rfl, rfl, rfl⟩

theorem foldl_perform_task (effects : List Task.Effect) (l : Loop) (t : Task) :
    effects.foldl perform { l with task := t } = { effects.foldl perform l with task := t } := by
  induction effects generalizing l with
  | nil => rfl
  | cons effect effects ih =>
    rw [List.foldl_cons, List.foldl_cons, ← ih]
    cases effect <;> rfl

theorem follow_append (l : Loop) (t u : Task) (effects more : List Task.Effect) :
    l.follow (u, effects ++ more) = (l.follow (t, effects)).follow (u, more) := by
  simp only [follow, List.foldl_append, foldl_perform_task]

theorem follow_task (l : Loop) (result : Task × List Task.Effect) :
    (l.follow result).task = result.1 := (foldl_perform _ _).1

/-- The loop is where these turns of its task have led: its clock runs for the timer of the task,
and the status it shows is the one that was told last. -/
structure Mirrors (policy : Retry) (turns : List Task.Turn) (l : Loop) : Prop where
  run : Task.Run policy turns l.task
  clock : l.due.map Prod.snd = l.task.timer
  status : l.status = Task.observed turns

def noticesIn (turns : List Task.Turn) : List Notice := turns.flatMap (notices ·.effects)

theorem noticesIn_append (turns more : List Task.Turn) :
    noticesIn (turns ++ more) = noticesIn turns ++ noticesIn more := List.flatMap_append

/-- The loop goes on by turns of its task on these inputs, and tells what comes of them. -/
def Goes (l : Loop) (inputs : List Task.Input) (result : Loop × List Notice) : Prop :=
  ∀ policy turns, l.Mirrors policy turns → ∃ more, result.1.Mirrors policy (turns ++ more) ∧
    result.2 = noticesIn more ∧ more.map (·.input) = inputs

theorem Goes.rest (l : Loop) : l.Goes [] (l, []) :=
  fun _ _ h => ⟨[], by rwa [List.append_nil], rfl, rfl⟩

theorem Goes.trans (h : l.Goes inputs (m, told)) (h' : m.Goes others (n, later)) :
    l.Goes (inputs ++ others) (n, told ++ later) := by
  intro policy turns hl
  obtain ⟨more, hm, htold, hinputs⟩ := h policy turns hl
  obtain ⟨rest, hn, hlater, hothers⟩ := h' policy _ hm
  refine ⟨more ++ rest, ?_, ?_, ?_⟩
  · rwa [← List.append_assoc]
  · rw [noticesIn_append, ← htold, ← hlater]
  · rw [List.map_append, hinputs, hothers]

def Reacts (l : Loop) (result : Loop × List Notice) : Prop :=
  ∃ reports : List Task.Report, l.Goes (reports.map .report) result

theorem Reacts.rest (l : Loop) : l.Reacts (l, []) := ⟨[], .rest l⟩

theorem Reacts.trans (h : l.Reacts (m, told)) (h' : m.Reacts (n, later)) :
    l.Reacts (n, told ++ later) := by
  obtain ⟨reports, hreports⟩ := h
  obtain ⟨more, hmore⟩ := h'
  refine ⟨reports ++ more, ?_⟩
  rw [List.map_append]
  exact hreports.trans hmore

/-- One more turn of the task. The clock may have been set back for it, as long as the effects then
tell which timer runs. -/
theorem follow_goes (l m : Loop) (input : Task.Input) (hstatus : m.status = l.status)
    (htimer : ∀ policy turns, l.Mirrors policy turns → (l.task.act input).1.timer =
      (l.task.act input).2.foldl Task.timerAfter (m.due.map Prod.snd)) :
    l.Goes [input] (m.follow (l.task.act input), notices (l.task.act input).2) := by
  intro policy turns h
  obtain ⟨htask, hdue, hshown⟩ :=
    foldl_perform (l.task.act input).2 { m with task := (l.task.act input).1 }
  refine ⟨[⟨input, (l.task.act input).2⟩], ⟨?_, ?_, ?_⟩, ?_, rfl⟩
  · rw [follow, htask]
    exact .act input h.run
  · rw [follow, htask, hdue, htimer policy turns h]
  · rw [follow, hshown, Task.observed_append_singleton, ← h.status, ← hstatus]
  · simp [noticesIn]

theorem act_goes (l : Loop) (h : ∀ timer, input ≠ .report (.elapsed timer)) :
    l.Goes [input] (l.follow (l.task.act input), notices (l.task.act input).2) := by
  apply follow_goes l l input rfl
  intro policy turns hl
  rw [hl.clock]
  exact Task.act_tells h

theorem expiry_act_goes {due timer : Nat} (hdue : l.due = some (due, timer)) (now : Nat) :
    l.Goes [.report (.elapsed timer)]
      (({ l with now, due := none } : Loop).follow (l.task.report (.elapsed timer)),
        notices (l.task.report (.elapsed timer)).2) := by
  apply follow_goes l { l with now, due := none } (.report (.elapsed timer)) rfl
  intro policy turns hl
  have ht : l.task.timer = some timer := by rw [← hl.clock, hdue, Option.map_some]
  have hr : l.task.running = true := by
    by_contra hstopped
    rw [((Task.run_inventory hl.run).2 (eq_false_of_ne_true hstopped)).2] at ht
    cases ht
  exact Task.expiry_tells hr ht

theorem echo_ne_elapsed {effects : List Task.Effect} (hm : report ∈ effects.flatMap (echo refusal?))
    (timer : Nat) : report ≠ .elapsed timer := by
  obtain ⟨effect, _, he⟩ := List.mem_flatMap.mp hm
  rintro rfl
  cases effect with
  | dial socket url =>
    rw [echo] at he
    split at he <;> simp at he
  | _ => simp [echo] at he

variable (refusal?)

theorem settle_reacts (l : Loop) (fuel : Nat) {reports : List Task.Report}
    (h : ∀ report ∈ reports, ∀ timer, report ≠ .elapsed timer) :
    l.Reacts (l.settle refusal? fuel reports) := by
  induction fuel generalizing l reports with
  | zero =>
    rw [settle]
    exact .rest l
  | succ fuel ih =>
    cases reports with
    | nil =>
      rw [settle]
      exact .rest l
    | cons report reports =>
      have hact : ∀ timer, (.report report : Task.Input) ≠ .report (.elapsed timer) := by
        intro timer he
        exact h report List.mem_cons_self timer (Task.Input.report.inj he)
      have hrest : ∀ other ∈ reports ++ (l.task.report report).2.flatMap (echo refusal?),
          ∀ timer, other ≠ .elapsed timer := by
        intro other hm
        rcases List.mem_append.mp hm with hm | hm
        · exact h other (List.mem_cons_of_mem _ hm)
        · exact echo_ne_elapsed hm
      have hfirst : l.Reacts (l.follow (l.task.report report), notices (l.task.report report).2) :=
        ⟨[report], act_goes l hact⟩
      exact hfirst.trans (ih _ hrest)

theorem settle_echo_reacts (l : Loop) (fuel : Nat) (effects : List Task.Effect) :
    l.Reacts (l.settle refusal? fuel (effects.flatMap (echo refusal?))) :=
  settle_reacts refusal? l fuel fun _ hm => echo_ne_elapsed hm

/-- The timer that was due has fired, and the clock holds it no longer. -/
theorem expiry_reacts {due timer : Nat} (hdue : l.due = some (due, timer)) (now fuel : Nat) :
    l.Reacts
      (({ l with now, due := none } : Loop).settle refusal? (fuel + 1) [.elapsed timer]) := by
  have hfirst : l.Reacts (({ l with now, due := none } : Loop).follow
      (l.task.report (.elapsed timer)), notices (l.task.report (.elapsed timer)).2) :=
    ⟨[.elapsed timer], expiry_act_goes hdue now⟩
  rw [settle]
  exact hfirst.trans (settle_echo_reacts refusal? _ fuel _)

theorem fireUntil_reacts (l : Loop) (time fuel : Nat) :
    l.Reacts (l.fireUntil refusal? time fuel) := by
  induction fuel generalizing l with
  | zero => exact .rest l
  | succ fuel ih =>
    cases hdue : l.due with
    | none =>
      simp only [fireUntil, hdue]
      exact .rest l
    | some alarm =>
      obtain ⟨due, timer⟩ := alarm
      simp only [fireUntil, hdue]
      split
      next => exact (expiry_reacts refusal? hdue (max l.now due) 15).trans (ih _)
      next => exact .rest l

theorem sleepUntil_reacts (l : Loop) (time : Nat) : l.Reacts (l.sleepUntil refusal? time) := by
  obtain ⟨reports, hreports⟩ := fireUntil_reacts refusal? l time (time - l.now + 1)
  refine ⟨reports, fun policy turns hl => ?_⟩
  obtain ⟨more, ⟨hrun, hclock, hstatus⟩, htold⟩ := hreports policy turns hl
  exact ⟨more, ⟨hrun, hclock, hstatus⟩, htold⟩

theorem command_act_goes (l : Loop) (command : Task.Command) :
    l.Goes [.command command]
      (l.follow (l.task.command command).1, notices (l.task.command command).1.2) :=
  act_goes l fun _ he => nomatch he

theorem command_goes (l : Loop) (command : Task.Command) :
    ∃ reports : List Task.Report,
      l.Goes (.command command :: reports.map .report) (l.command refusal? command).1 := by
  obtain ⟨reports, hreports⟩ := settle_echo_reacts refusal?
    (l.follow (l.task.command command).1) settleFuel (l.task.command command).1.2
  exact ⟨reports, (command_act_goes l command).trans hreports⟩

theorem commandAll_cons (t : Task) (command : Task.Command) (commands : List Task.Command) :
    commandAll t (command :: commands) =
      ((commandAll (t.command command).1.1 commands).1,
        (t.command command).1.2 ++ (commandAll (t.command command).1.1 commands).2) := rfl

theorem commandAll_goes (l : Loop) (commands : List Task.Command) :
    l.Goes (commands.map .command)
      (l.follow (commandAll l.task commands), notices (commandAll l.task commands).2) := by
  induction commands generalizing l with
  | nil => exact .rest l
  | cons command commands ih =>
    have hgoes := (command_act_goes l command).trans (ih (l.follow (l.task.command command).1))
    rw [follow_task, ← follow_append] at hgoes
    rw [commandAll_cons, notices, List.filterMap_append]
    exact hgoes

/-- Before anything comes back of its first commands, a loop has told its task just these. -/
theorem start_mirrors (settings : Settings) :
    ∃ turns, (start refusal? settings).1.1.Mirrors settings.policy turns ∧
      (start refusal? settings).1.2 = noticesIn turns ∧
      turns.map (·.input) = settings.commands.map .command := by
  have hnew : (⟨.new settings.policy, 0, none, .disconnected⟩ : Loop).Mirrors settings.policy [] :=
    ⟨.start, rfl, rfl⟩
  exact commandAll_goes _ settings.commands settings.policy [] hnew

end Loop
end Downlink
