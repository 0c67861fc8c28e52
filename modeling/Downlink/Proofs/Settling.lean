import Downlink.Proofs.Loop

/-!
A loop takes reports until there are none left. A report can lead to further ones, since a socket
that has closed makes room for the next one, which may be refused; but a refused attempt leads to
the timer and not to another attempt. So what is still to be taken is bounded by what there is.
-/
namespace Downlink

namespace Dialer

variable {d e : Dialer} {ev : Event} {acts : List Action}

/-- What is to be taken for an action: a refused socket fails and then closes. -/
def Action.load : Action → Nat
  | .dial _ _ => 3
  | .hangUp _ => 1
  | .schedule _ | .cancel => 0

def load : List Action → Nat
  | [] => 0
  | action :: acts => action.load + load acts

theorem load_append (a b : List Action) : load (a ++ b) = load a + load b := by
  induction a with
  | nil => rw [List.nil_append, load, Nat.zero_add]
  | cons action a ih => rw [List.cons_append, load, load, ih, Nat.add_assoc]

def pending (d : Dialer) : Nat := if d.state = .redialing then 3 else 0

theorem pending_le (d : Dialer) : d.pending ≤ 3 := by
  unfold pending
  split
  next => exact Nat.le_refl 3
  next => exact Nat.zero_le 3

def Event.cost : Event → Nat
  | .want _ | .url _ => 4
  | .elapsed => 3
  | .drop => 1
  | .opened _ | .closed _ => 0

theorem Move.load_le (m : d.Move ev e acts) : load acts + e.pending ≤ d.pending + ev.cost := by
  cases m with
  | ignore => simp [load]
  | redial hs => simp [load, Action.load, pending, dialling, hs]
  | drop => simp [load, Action.load, Event.cost, Nat.add_comm]
  | _ => simp [load, Action.load, pending, dialling, Event.cost, *]

theorem load_drop (d : Dialer) : load d.drop.2 ≤ 1 := by
  unfold drop hangUp
  split
  next => cases d.socket <;> simp [load, Action.load]
  next => exact Nat.zero_le 1

end Dialer

namespace Link

variable {l : Link}

def Event.cost (event : Event) : Nat :=
  match event.toDialer? with
  | some ev => ev.cost
  | none => 1

theorem Invariant.load_le (h : l.Invariant) (event : Event) :
    Dialer.load (actions (l.step event).2) + (l.step event).1.dialer.pending ≤
      l.dialer.pending + event.cost := by
  rcases h.step_moves event with ⟨ev, hev, hmove⟩ | ⟨hev, hdialer, _⟩
  · rw [Event.cost, hev]
    exact hmove.load_le
  · have hload : Dialer.load (actions (l.step event).2) ≤ 1 := by
      rcases actions_step l event with ha | ⟨_, ha⟩
      · rw [ha, moved_of_quiet hev]
        exact Nat.zero_le 1
      · rw [ha]
        exact l.dialer.load_drop
    rw [Event.cost, hev, hdialer, Nat.add_comm]
    exact Nat.add_le_add_left hload _

end Link

namespace Task

variable {t : Task} {input : Input} {refusal? : String → Option String}

def Report.weight : Report → Nat
  | .opened _ | .closed _ => 1
  | .text _ _ | .frame _ _ | .failed _ _ => 2
  | .elapsed _ => 4

theorem Report.weight_pos (report : Report) : 0 < report.weight := by
  cases report <;> exact Nat.succ_pos _

def weight : List Report → Nat
  | [] => 0
  | report :: reports => report.weight + weight reports

theorem weight_append (a b : List Report) : weight (a ++ b) = weight a + weight b := by
  induction a with
  | nil => rw [List.nil_append, weight, Nat.zero_add]
  | cons report a ih => rw [List.cons_append, weight, weight, ih, Nat.add_assoc]

theorem act_invariant (h : t.link.Invariant) (input : Input) : (t.act input).1.link.Invariant := by
  rcases act_link t input with hsame | ⟨event, hstep⟩
  · rwa [hsame]
  · rw [hstep]
    exact Link.step_preserves_invariant h event

end Task

namespace Loop

variable {l : Loop} {t : Task} {refusal? : String → Option String} {report : Task.Report}
  {reports : List Task.Report}

def burden (refusal? : String → Option String) (effects : List Task.Effect) : Nat :=
  Task.weight (effects.flatMap (echo refusal?))

variable (refusal?)

theorem burden_append (effects more : List Task.Effect) :
    burden refusal? (effects ++ more) = burden refusal? effects + burden refusal? more := by
  rw [burden, List.flatMap_append, Task.weight_append]
  rfl

theorem perform_burden (t : Task) (entry : Link.Entry) :
    burden refusal? (t.perform entry).2 ≤ Dialer.load (Link.actions [entry]) := by
  cases entry with
  | action action =>
    cases action with
    | dial socket url =>
      simp only [burden, Task.perform, List.flatMap_singleton, echo]
      split <;> simp [Task.weight, Task.Report.weight, Link.actions, Dialer.load,
        Dialer.Action.load]
    | hangUp socket =>
      simp only [burden, Task.perform, Task.hangUp]
      split <;> simp [echo, Task.weight, Task.Report.weight, Link.actions, Dialer.load,
        Dialer.Action.load]
    | schedule | cancel =>
      cases ht : t.timer <;>
        simp [burden, Task.perform, Task.startTimer, Task.stopTimer, ht, echo, Task.weight]
  | sent socket request =>
    simp only [burden, Task.perform]
    split <;> simp [echo, Task.weight]
  | status | fault | call => simp [burden, Task.perform, echo, Task.weight]

theorem performAll_burden (t : Task) (log : List Link.Entry) :
    burden refusal? (t.performAll log).2 ≤ Dialer.load (Link.actions log) := by
  induction log generalizing t with
  | nil => exact Nat.le_refl 0
  | cons entry log ih =>
    have hsplit : Dialer.load (Link.actions (entry :: log)) =
        Dialer.load (Link.actions [entry]) + Dialer.load (Link.actions log) := by
      rw [← Dialer.load_append, ← Link.actions_append, List.singleton_append]
    rw [Task.performAll, burden_append, hsplit]
    exact Nat.add_le_add (perform_burden refusal? t entry) (ih _)

/-- What an input sets off is bounded by what it has the link do. -/
theorem act_burden (h : t.link.Invariant) {input : Task.Input} {event : Link.Event}
    (hr : t.running = true) (he : t.event? input = some event) :
    burden refusal? (t.act input).2 + (t.act input).1.link.dialer.pending ≤
      t.link.dialer.pending + event.cost := by
  have hload := h.load_le event
  have hburden := performAll_burden refusal?
    { t.noted input with link := (t.link.step event).1 } (t.link.step event).2
  rw [Task.act_of_event hr he, (Task.follow_keeps _ _).1]
  exact (Nat.add_le_add_right hburden _).trans hload

theorem cost_lt_weight {event : Link.Event} (he : t.event? (.report report) = some event) :
    event.cost < report.weight := by
  cases report with
  | elapsed timer =>
    rw [(Task.event?_elapsed he).2]
    exact Nat.lt_succ_self 3
  | _ =>
    cases he
    simp [Link.Event.cost, Link.Event.toDialer?, Dialer.Event.cost, Task.Report.weight]

theorem report_burden (h : t.link.Invariant) (report : Task.Report) :
    burden refusal? (t.report report).2 + (t.report report).1.link.dialer.pending <
      t.link.dialer.pending + report.weight := by
  generalize hact : t.act (.report report) = result
  have hreport : t.report report = result := hact
  rw [hreport]
  cases hact ▸ Task.act_acted t (.report report) with
  | rests => simpa [burden, Task.weight] using report.weight_pos
  | follows hr he =>
    rw [← Task.act_of_event hr he]
    have hburden := act_burden refusal? h hr he
    have hcost := cost_lt_weight he
    omega
  | ends _ he => cases he

theorem command_burden (h : t.link.Invariant) (command : Task.Command) :
    (t.command command).1.1.running = false ∨
      burden refusal? (t.command command).1.2 + (t.command command).1.1.link.dialer.pending ≤
        t.link.dialer.pending + 4 := by
  generalize hact : t.act (.command command) = result
  have hcommand : (t.command command).1 = result := hact
  rw [hcommand]
  cases hact ▸ Task.act_acted t (.command command) with
  | rests => exact Or.inr (by simp [burden, Task.weight])
  | @follows event hr he =>
    have hcost : event.cost ≤ 4 := by
      cases command <;> cases he <;>
        simp [Link.Event.cost, Link.Event.toDialer?, Dialer.Event.cost]
    rw [← Task.act_of_event hr he]
    exact Or.inr ((act_burden refusal? h hr he).trans (Nat.add_le_add_left hcost _))
  | ends => exact Or.inl rfl

/-- All reports are taken, those that come back included. A task that has ended takes no notice of
any. -/
inductive Settled : Loop → List Task.Report → Loop × List Notice → Prop where
  | quiet {l : Loop} : Settled l [] (l, [])
  | ended {l : Loop} {reports : List Task.Report} (hr : l.task.running = false) :
      Settled l reports (l, [])
  | next {l m : Loop} {report : Task.Report} {reports : List Task.Report} {later : List Notice}
      (h : Settled (l.follow (l.task.report report))
        (reports ++ (l.task.report report).2.flatMap (echo refusal?)) (m, later)) :
      Settled l (report :: reports) (m, notices (l.task.report report).2 ++ later)

theorem settle_settled {fuel : Nat} (h : l.task.link.Invariant)
    (hfuel : l.task.link.dialer.pending + Task.weight reports ≤ fuel) :
    Settled refusal? l reports (l.settle refusal? fuel reports) := by
  induction fuel generalizing l reports with
  | zero =>
    cases reports with
    | nil => exact .quiet
    | cons report reports =>
      have hpos := report.weight_pos
      rw [Task.weight] at hfuel
      omega
  | succ fuel ih =>
    cases reports with
    | nil =>
      rw [settle]
      exact .quiet
    | cons report reports =>
      have hburden := report_burden refusal? h report
      rw [settle]
      apply Settled.next
      apply ih
      · rw [follow_task]
        exact Task.act_invariant h (.report report)
      · rw [follow_task, Task.weight_append]
        rw [Task.weight] at hfuel
        rw [burden] at hburden
        omega

theorem settle_of_ended (hr : l.task.running = false) (fuel : Nat) (reports : List Task.Report) :
    l.settle refusal? fuel reports = (l, []) := by
  induction fuel generalizing reports with
  | zero => rw [settle]
  | succ fuel ih =>
    cases reports with
    | nil => rw [settle]
    | cons report reports =>
      have hrest : l.task.report report = (l.task, []) := Task.act_of_stopped hr (.report report)
      rw [settle, hrest]
      exact congrArg (fun result : Loop × List Notice => (result.1, [] ++ result.2)) (ih _)

/-- What comes back of effects is taken if it is not too much, or if the task has ended. -/
theorem echo_settled {result : Task × List Task.Effect} (h : result.1.link.Invariant)
    (hload : result.1.running = false ∨
      burden refusal? result.2 + result.1.link.dialer.pending ≤ settleFuel) :
    Settled refusal? (l.follow result) (result.2.flatMap (echo refusal?))
      ((l.follow result).settle refusal? settleFuel (result.2.flatMap (echo refusal?))) := by
  rcases hload with hr | hburden
  · have hended : (l.follow result).task.running = false := by rw [follow_task, hr]
    rw [settle_of_ended refusal? hended]
    exact .ended hended
  · apply settle_settled
    · rwa [follow_task]
    · rwa [follow_task, Nat.add_comm]

theorem command_settled (h : l.task.link.Invariant) (command : Task.Command) :
    Settled refusal? (l.follow (l.task.command command).1)
      ((l.task.command command).1.2.flatMap (echo refusal?))
      ((l.follow (l.task.command command).1).settle refusal? settleFuel
        ((l.task.command command).1.2.flatMap (echo refusal?))) := by
  have hpending := l.task.link.dialer.pending_le
  apply echo_settled refusal? (Task.act_invariant h (.command command))
  refine (command_burden refusal? h command).imp_right fun hburden => hburden.trans ?_
  rw [settleFuel]
  omega

theorem expiry_settled (h : l.task.link.Invariant) (timer : Nat) :
    Settled refusal? l [.elapsed timer] (l.settle refusal? settleFuel [.elapsed timer]) := by
  have hpending := l.task.link.dialer.pending_le
  apply settle_settled refusal? h
  rw [settleFuel, Task.weight, Task.weight, Task.Report.weight]
  omega

theorem commandAll_of_ended (hr : t.running = false) (commands : List Task.Command) :
    commandAll t commands = (t, []) := by
  induction commands with
  | nil => rfl
  | cons command commands ih =>
    have hrest : (t.command command).1 = (t, []) := Task.act_of_stopped hr (.command command)
    rw [commandAll_cons, hrest, ih]
    rfl

theorem commandAll_burden (h : t.link.Invariant) (commands : List Task.Command) :
    (commandAll t commands).1.link.Invariant ∧
      ((commandAll t commands).1.running = false ∨
        burden refusal? (commandAll t commands).2 +
            (commandAll t commands).1.link.dialer.pending ≤
          t.link.dialer.pending + 4 * commands.length) := by
  induction commands generalizing t with
  | nil => exact ⟨h, Or.inr (by simp [commandAll, burden, Task.weight])⟩
  | cons command commands ih =>
    obtain ⟨hinvariant, hrest⟩ := ih (t := (t.command command).1.1)
      (Task.act_invariant h (.command command))
    refine ⟨hinvariant, ?_⟩
    rw [commandAll_cons]
    rcases command_burden refusal? h command with hr | hfirst
    · exact Or.inl (by rw [commandAll_of_ended hr, hr])
    · refine hrest.imp_right fun hrest => ?_
      dsimp only
      rw [burden_append, List.length_cons]
      omega

theorem start_settled (settings : Settings) :
    Settled refusal? (start refusal? settings).1.1 (start refusal? settings).2
      ((start refusal? settings).1.1.settle refusal? settleFuel (start refusal? settings).2) := by
  have hnew : Task.Run settings.policy [] (.new settings.policy) := .start
  obtain ⟨_, hlink⟩ := Task.run_link hnew
  obtain ⟨hinvariant, hburden⟩ := commandAll_burden refusal?
    (Link.run_invariant hlink) settings.commands
  have hlength : settings.commands.length ≤ 2 := by
    cases hu : settings.url <;> simp [Settings.commands, hu]
  have hpending : (Task.new settings.policy).link.dialer.pending = 0 := rfl
  apply echo_settled refusal? hinvariant
  refine hburden.imp_right fun hburden => hburden.trans ?_
  rw [hpending, settleFuel]
  omega

end Loop
end Downlink
