import Downlink.Proofs.Task

/-!
The timer of a task. It runs as long as the dialer waits for it, and its expiry is acted on once.
The expiry of any other timer counts for nothing, also where that one was cancelled too late to keep
it back.
-/
namespace Downlink

namespace Dialer

variable {d e : Dialer} {ev : Event} {acts : List Action}

def timerAfter (runs : Bool) : Action → Bool
  | .schedule _ => true
  | .cancel => false
  | .dial _ _ | .hangUp _ => runs

/-- The dialer takes the timer to run as its own actions and the expiry have it. -/
theorem Move.timer (m : d.Move ev e acts) (h : d.Invariant) :
    e.timerSet = acts.foldl timerAfter (d.timerSet && decide (ev ≠ .elapsed)) := by
  cases m with
  | ignore hi =>
    by_cases he : ev = .elapsed
    · subst he
      have hoff : d.timerSet = false := by
        rw [Bool.eq_false_iff]
        exact fun ht => hi (h.timer_iff.mp ht)
      simp [hoff]
    · simp [he]
  | _ => simp [timerAfter, dialling]

end Dialer

namespace Link

variable {l : Link}

theorem Invariant.step_timer (h : l.Invariant) (event : Event) :
    (l.step event).1.dialer.timerSet =
      (actions (l.step event).2).foldl Dialer.timerAfter
        (l.dialer.timerSet && decide (event ≠ .elapsed)) := by
  rcases h.step_moves event with ⟨ev, hev, hmove⟩ | ⟨hev, hdialer, hhangUp⟩
  · have helapsed : ev = .elapsed ↔ event = .elapsed := by
      cases event <;> cases hev <;> simp
    simpa only [ne_eq, helapsed] using hmove.timer h.dialer
  · have helapsed : event ≠ .elapsed := by
      rintro rfl
      cases hev
    have hsame : ∀ acts : List Dialer.Action,
        (∀ action ∈ acts, ∃ socket, action = .hangUp socket) → ∀ runs,
          acts.foldl Dialer.timerAfter runs = runs := by
      intro acts
      induction acts with
      | nil => exact fun _ _ => rfl
      | cons action acts ih =>
        intro ha runs
        obtain ⟨socket, rfl⟩ := ha action List.mem_cons_self
        exact ih (fun other hm => ha other (List.mem_cons_of_mem _ hm)) runs
    rw [hsame _ hhangUp, hdialer]
    simp [helapsed]

theorem Invariant.step_url (h : l.Invariant) (event : Event) :
    (l.step event).1.dialer.url = match event with
      | .url url => some url
      | _ => l.dialer.url := by
  rcases h.step_moves event with ⟨ev, hev, hmove⟩ | ⟨hev, hdialer, _⟩
  · rw [hmove.url]
    cases event <;> cases hev <;> rfl
  · rw [hdialer]
    cases event with
    | url => cases hev
    | _ => rfl

/-- When the wait is over, all that a link does is dial. -/
theorem Invariant.step_elapsed (h : l.Invariant) (hs : l.dialer.state = .backOff) :
    ∃ url, l.dialer.url = some url ∧
      (l.step .elapsed).2 = [.action (.dial l.dialer.nextSocket url)] := by
  obtain ⟨url, hurl⟩ := h.dialer.exists_url (by rw [hs]; rfl)
  have ht := h.dialer.timer_iff.mpr hs
  have hdial : l.dialer.step .elapsed =
      (({ l.dialer with timerSet := false } : Dialer).dialling,
        [.dial l.dialer.nextSocket url]) := by
    simp [Dialer.step, Dialer.onElapsed, Dialer.dial, Dialer.dialling, hs, ht, hurl]
  have hoffline : l.session.state = .offline := h.together.mpr (by rw [hs]; simp)
  have hsocket : l.session.onSocket .connecting = (l.session, .none) :=
    Session.onSocket_same (by simp [hoffline])
  have hstatus : l.status = .connecting := by
    rw [h.status, Dialer.status, hs]
    rfl
  have hdialling : ({ l.dialer with timerSet := false } : Dialer).dialling.status = .connecting :=
    rfl
  refine ⟨url, hurl, ?_⟩
  simp [step, onDialer, hdial, hdialling, hsocket, carryOut, Session.Effects.none, tellStatus,
    hstatus, Status.combine]

end Link

namespace Task

variable {t : Task} {policy : Retry} {turns : List Turn} {timer : Nat} {input : Input}

def urls (turns : List Turn) : List String :=
  turns.filterMap fun turn =>
    match turn.input with
    | .command (.url url) => some url
    | _ => none

/-- How often the task acted on the expiry of a timer. -/
def expiries (timer : Nat) (turns : List Turn) : Nat :=
  turns.countP fun turn => turn.input = .report (.elapsed timer) ∧ turn.effects ≠ []

theorem performAll_timer (t : Task) (log : List Link.Entry) :
    (t.performAll log).1.timer.isSome =
      (Link.actions log).foldl Dialer.timerAfter t.timer.isSome := by
  induction log generalizing t with
  | nil => rfl
  | cons entry log ih =>
    rw [performAll, ih]
    cases entry with
    | action action => cases action <;> rfl
    | _ => rfl

theorem follow_timer (t : Task) (result : Link × List Link.Entry) :
    (t.follow result).1.timer.isSome =
      (Link.actions result.2).foldl Dialer.timerAfter t.timer.isSome :=
  performAll_timer _ _

theorem noted_timer {event : Link.Event} (he : t.event? input = some event) :
    (t.noted input).timer.isSome = (t.timer.isSome && decide (event ≠ .elapsed)) := by
  cases input with
  | command command => cases command <;> cases he <;> simp [noted]
  | report report =>
    cases report with
    | elapsed timer => simp [noted, (event?_elapsed he).2]
    | _ => cases he; simp [noted]
  | deserted => cases he

structure InStep (turns : List Turn) (t : Task) : Prop where
  timer : t.timer.isSome = t.link.dialer.timerSet
  url : t.link.dialer.url = (urls turns).getLast?

theorem urls_append_singleton (turns : List Turn) (turn : Turn) :
    (urls (turns ++ [turn])).getLast? =
      match turn.input with
      | .command (.url url) => some url
      | _ => (urls turns).getLast? := by
  rw [urls, List.filterMap_append]
  cases hinput : turn.input with
  | command command => cases command <;> simp [urls, hinput]
  | report | deserted => simp [urls, hinput]

theorem run_inStep (h : Run policy turns t) (hr : t.running = true) : InStep turns t := by
  induction h with
  | start => exact ⟨rfl, rfl⟩
  | @act turns t input hrun ih =>
    obtain ⟨_, hlink⟩ := run_link hrun
    have hi := Link.run_invariant hlink
    generalize hact : t.act input = result at hr ⊢
    cases hact ▸ act_acted t input with
    | rests hrest =>
      obtain ⟨htimer, hurl⟩ := ih hr
      refine ⟨htimer, hurl.trans ?_⟩
      rw [urls_append_singleton]
      obtain ⟨_, hnone⟩ := hrest hr
      cases input with
      | command command =>
        cases command with
        | url => cases hnone
        | _ => rfl
      | report | deserted => rfl
    | @follows event hr' he =>
      obtain ⟨htimer, hurl⟩ := ih hr'
      constructor
      · rw [follow_timer, (follow_keeps _ _).1, hi.step_timer, noted_timer he, htimer]
      · rw [(follow_keeps _ _).1, hi.step_url, urls_append_singleton, ← hurl]
        cases input with
        | command command => cases command <;> cases he <;> rfl
        | report report =>
          cases report with
          | elapsed timer => rw [(event?_elapsed he).2]
          | _ => cases he; rfl
        | deserted => cases he
    | ends => cases hr

def Spent (timer : Nat) (t : Task) : Prop := timer ≤ t.timers ∧ t.timer ≠ some timer

theorem stopTimer_spent (h : t.Spent timer) : t.stopTimer.1.Spent timer :=
  ⟨h.1, by simp [stopTimer]⟩

theorem follow_spent (h : t.Spent timer) (result : Link × List Link.Entry) :
    (t.follow result).1.Spent timer := by
  refine performAll_induction (P := fun t result => t.Spent timer → result.1.Spent timer)
    (fun _ h => h) ?_ ?_ { t with link := result.1 } result.2 h
  · exact fun h h' hs => h' (h hs)
  · intro t entry h
    cases entry with
    | action action =>
      cases action with
      | schedule delay =>
        have hnew : t.timers + 1 ≠ timer := Nat.ne_of_gt (Nat.lt_succ_of_le h.1)
        exact ⟨Nat.le_succ_of_le h.1, fun he => hnew (Option.some.inj he)⟩
      | cancel => exact stopTimer_spent h
      | dial | hangUp => exact h
    | _ => exact h

theorem act_spent (h : t.Spent timer) (input : Input) : (t.act input).1.Spent timer := by
  have hnoted : (t.noted input).Spent timer := by
    cases input with
    | command command => cases command <;> exact h
    | report report =>
      cases report with
      | elapsed => exact ⟨h.1, by simp [noted]⟩
      | _ => exact h
    | deserted => exact h
  generalize hact : t.act input = result
  cases hact ▸ act_acted t input with
  | rests => exact h
  | follows => exact follow_spent hnoted _
  | ends =>
    have hstopped := stopTimer_spent (follow_spent h (t.link.step (.want false)))
    exact ⟨hstopped.1, hstopped.2⟩

theorem report_elapsed_other (h : t.timer ≠ some timer) : t.report (.elapsed timer) = (t, []) := by
  simp [report, h]

/-- Only the expiry of the timer that runs has any effect. -/
theorem runs_of_expiry (h : (t.act (.report (.elapsed timer))).2 ≠ []) :
    t.running = true ∧ t.timer = some timer := by
  constructor
  · by_contra hr
    apply h
    rw [act_of_stopped (eq_false_of_ne_true hr)]
  · by_contra ht
    exact h (congrArg Prod.snd (report_elapsed_other ht))

theorem expiry_spent {ms : List Mark} (h : t.Inventory ms) (hr : t.running = true)
    (ht : t.timer = some timer) : (t.act (.report (.elapsed timer))).1.Spent timer := by
  have hevent : t.event? (.report (.elapsed timer)) = some .elapsed := if_pos ht
  have hnumber : timer = t.timers := h.latest timer ht
  have hnoted : (t.noted (.report (.elapsed timer))).Spent timer :=
    ⟨Nat.le_of_eq hnumber, by simp [noted]⟩
  rw [act_of_event hr hevent]
  exact follow_spent hnoted _

theorem expiries_append_singleton (turns : List Turn) (turn : Turn) :
    expiries timer (turns ++ [turn]) =
      expiries timer turns +
        if turn.input = .report (.elapsed timer) ∧ turn.effects ≠ [] then 1 else 0 := by
  rw [expiries, List.countP_append, List.countP_singleton]
  simp [expiries]

/-- A timer whose expiry was acted on is spent, and so it is not acted on again. -/
theorem run_expiries (h : Run policy turns t) (timer : Nat) :
    expiries timer turns ≤ 1 ∧ (expiries timer turns ≠ 0 → t.Spent timer) := by
  induction h with
  | start => exact ⟨Nat.zero_le _, fun hn => absurd rfl hn⟩
  | @act turns t input hrun ih =>
    obtain ⟨honce, hspent⟩ := ih
    rw [expiries_append_singleton]
    by_cases hacted : input = .report (.elapsed timer) ∧ (t.act input).2 ≠ []
    · rw [if_pos hacted]
      obtain ⟨rfl, heffects⟩ := hacted
      obtain ⟨hr, ht⟩ := runs_of_expiry heffects
      have hfirst : expiries timer turns = 0 := by
        by_contra hn
        exact (hspent hn).2 ht
      constructor
      · omega
      · intro _
        exact expiry_spent (run_inventory hrun).1 hr ht
    · rw [if_neg hacted, Nat.add_zero]
      constructor
      · exact honce
      · intro hn
        exact act_spent (hspent hn) input

/-- Before a task is told to stop, and whatever is reported in whatever order: it holds a timer if
and only if its dialer waits, no two timers have one number, and the expiry of a timer is acted on
at most once. It is acted on if the timer is the last one and has neither been cancelled nor
expired, by dialling the last url that was given, and by nothing else. Every other expiry changes
nothing. -/
theorem timer_acts_once (h : Run policy turns t) (hr : t.running = true) :
    (t.timer.isSome = true ↔ t.link.dialer.state = .backOff) ∧
      (∀ timer, t.timer = some timer ↔ Lasts (.timer timer) (marks turns)) ∧
      (timersIn (marks turns)).Nodup ∧ (∀ timer, expiries timer turns ≤ 1) ∧
      (∀ timer, Lasts (.timer timer) (marks turns) →
        (timersIn (marks turns)).getLast? = some timer ∧
          ∃ url, (urls turns).getLast? = some url ∧
            (t.report (.elapsed timer)).2 = [.dial t.link.dialer.nextSocket url] ∧
            (t.report (.elapsed timer)).1.timer = none) ∧
      ∀ timer, ¬ Lasts (.timer timer) (marks turns) → t.report (.elapsed timer) = (t, []) := by
  obtain ⟨_, hlink⟩ := run_link h
  have hi := Link.run_invariant hlink
  obtain ⟨hinventory, _⟩ := run_inventory h
  obtain ⟨htimer, hurl⟩ := run_inStep h hr
  have hwaits : t.timer.isSome = true ↔ t.link.dialer.state = .backOff := by
    rw [htimer]
    exact hi.dialer.timer_iff
  refine ⟨hwaits, hinventory.timer, ?_, fun timer => (run_expiries h timer).1, ?_, ?_⟩
  · rw [hinventory.numbered]
    exact List.nodup_range'
  · intro timer hlasts
    have ht := (hinventory.timer timer).mpr hlasts
    obtain ⟨url, hurl', hdial⟩ := hi.step_elapsed (hwaits.mp (by rw [ht]; rfl))
    have hreport : t.report (.elapsed timer) =
        { t with timer := none }.follow (t.link.step .elapsed) := by
      simp [report, hr, ht]
    refine ⟨hinventory.last_started hlasts, url, hurl ▸ hurl', ?_, ?_⟩
    · rw [hreport, follow, hdial]
      rfl
    · rw [hreport, follow, hdial]
      rfl
  · intro timer hlasts
    exact report_elapsed_other fun ht => hlasts ((hinventory.timer timer).mp ht)

/-- The first timer is cancelled for a new url, and the second one is running. -/
def crossing : List Input :=
  [.command (.want true), .command (.url "ws://a"), .report (.closed 1), .command (.url "ws://b"),
    .report (.closed 2)]

theorem timer_acts_once_crossing :
    (play .standard crossing).2.running = true ∧
      (play .standard crossing).2.report (.elapsed 1) = ((play .standard crossing).2, []) ∧
      ((play .standard crossing).2.report (.elapsed 2)).2 = [.dial 3 "ws://b"] := by
  have hr : (play .standard crossing).2.running = true := by decide +kernel
  obtain ⟨_, hholds, _, _, hacts, hrests⟩ := timer_acts_once (run_play .standard crossing) hr
  have htimer : (play .standard crossing).2.timer = some 2 := by decide +kernel
  have hnext : (play .standard crossing).2.link.dialer.nextSocket = 3 := by decide +kernel
  have hlast : (urls (play .standard crossing).1).getLast? = some "ws://b" := by decide +kernel
  refine ⟨hr, ?_, ?_⟩
  · apply hrests 1
    rw [← hholds, htimer]
    simp
  · obtain ⟨_, url, hurl, hdial, _⟩ := hacts 2 ((hholds 2).mp htimer)
    rw [hlast] at hurl
    rw [hdial, hnext, ← Option.some.inj hurl]

end Task
end Downlink
